import Mathlib

/-!
# Sequential request and retry

A list of requests is worked off one after the other over a channel that loses answers:
the present request is transmitted again and again, at most as often as its budget
allows without an answer, until it is answered. The log records each transmission and
whether it was answered.

## Main definitions

- `RetryLoop` — the logs of the loop
- `unanswered` — how many transmissions of a request went unanswered
- `RetryLoop.order` — the order of the transmissions
-/

namespace RetryLoops

variable {ρ : Type*} [DecidableEq ρ]

/-- How many transmissions of a request went unanswered. -/
def unanswered (log : List (ρ × Bool)) (r : ρ) : ℕ := log.count (r, false)

/-- The log of the loop when `k` requests have been answered and the next one has been
transmitted `u` times in vain. -/
inductive RetryLoop (requests : List ρ) (budget : ρ → ℕ) : List (ρ × Bool) → ℕ → ℕ → Prop
  | start : RetryLoop requests budget [] 0 0
  | lost {log k u r} :
      RetryLoop requests budget log k u → requests[k]? = some r → u < budget r →
      RetryLoop requests budget (log ++ [(r, false)]) k (u + 1)
  | answered {log k u r} :
      RetryLoop requests budget log k u → requests[k]? = some r →
      RetryLoop requests budget (log ++ [(r, true)]) (k + 1) 0

variable {requests : List ρ} {budget : ρ → ℕ} {log : List (ρ × Bool)} {k u : ℕ} {r : ρ}

@[simp] theorem unanswered_nil : unanswered [] r = 0 := rfl

@[simp] theorem unanswered_lost {d : ρ} :
    unanswered (log ++ [(d, false)]) r = unanswered log r + if d = r then 1 else 0 := by
  simp [unanswered, List.count_append, List.count_singleton]

@[simp] theorem unanswered_answered {d : ρ} :
    unanswered (log ++ [(d, true)]) r = unanswered log r := by
  simp [unanswered, List.count_append]

namespace RetryLoop

/-- The requests that come after the present one have not been transmitted, the present
one has been transmitted `u` times. -/
theorem unanswered_eq (h : RetryLoop requests budget log k u) (hn : requests.Nodup)
    {j : ℕ} (hj : k ≤ j) (hr : requests[j]? = some r) :
    unanswered log r = if j = k then u else 0 := by
  induction h with
  | start => simp
  | @lost log k u d _ hd _ ih =>
    rw [unanswered_lost, ih hj]
    by_cases hjk : j = k
    · obtain rfl : d = r := by simpa [hjk, hd] using hr
      simp [hjk]
    · have hne : d ≠ r := by
        rintro rfl
        exact hjk ((List.getElem?_inj (List.getElem?_eq_some_iff.mp hr).1 hn).mp (hr.trans hd.symm))
      simp [hjk, hne]
  | @answered log k u d _ hd ih =>
    rw [unanswered_answered, ih (by omega), if_neg (by omega)]
    split <;> rfl

omit [DecidableEq ρ] in
/-- The present request stays within its budget. -/
theorem le_budget (h : RetryLoop requests budget log k u) (hr : requests[k]? = some r) :
    u ≤ budget r := by
  cases h with
  | start => exact Nat.zero_le _
  | lost _ hd hlt =>
    obtain rfl := Option.some.inj (hd.symm.trans hr)
    exact hlt
  | answered => exact Nat.zero_le _

/-- The requests are transmitted in order, each one once more than it went unanswered. -/
theorem order (h : RetryLoop requests budget log k u) (hn : requests.Nodup) :
    log.map Prod.fst =
      (requests.take k).flatMap (fun r => List.replicate (1 + unanswered log r) r) ++
        (requests[k]?.toList.flatMap (List.replicate u)) := by
  induction h with
  | start => simp
  | @lost log k u d hlog hd _ ih =>
    -- the answered requests are not the present one
    have hbefore : ∀ r ∈ requests.take k,
        unanswered (log ++ [(d, false)]) r = unanswered log r := by
      intro r hr
      have hne : d ≠ r := by
        rintro rfl
        obtain ⟨j, hj, hget⟩ := List.mem_take_iff_getElem.mp hr
        have hget : requests[j]? = requests[k]? := by
          rw [List.getElem?_eq_getElem (by omega), hget, hd]
        have hjk := (List.getElem?_inj (by omega) hn).mp hget
        omega
      simp [hne]
    have hcongr := List.flatMap_congr (fun r hr => by rw [hbefore r hr] :
      ∀ r ∈ requests.take k, List.replicate (1 + unanswered (log ++ [(d, false)]) r) r =
        List.replicate (1 + unanswered log r) r)
    rw [hcongr, List.map_append, ih, hd]
    simp [List.replicate_succ']
  | @answered log k u d hlog hd ih =>
    have hu : unanswered log d = u := by simpa using hlog.unanswered_eq hn le_rfl hd
    have hnext : requests[k + 1]?.toList.flatMap (List.replicate 0) = [] := by
      cases requests[k + 1]? <;> simp
    rw [List.map_append, ih, hd, hnext, List.append_nil, List.take_add_one, hd]
    simp [hu, Nat.add_comm 1 u, List.replicate_succ']

end RetryLoop

end RetryLoops
