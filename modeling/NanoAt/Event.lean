import Mathlib

/-!
# RT-Thread event sets

The event object of `ipc.c` over an arbitrary type of event bits. A receiver waits
for all bits of its mask or for any of them; every receiver of this program passes
`RT_EVENT_FLAG_CLEAR`, so a satisfied one removes what it received.

## Main definitions

- `EventFlag` — `RT_EVENT_FLAG_AND` or `RT_EVENT_FLAG_OR`
- `Waiter` — a thread suspended in `rt_event_recv`
- `Waiter.take` — the body of the loop of `rt_event_send` over the suspended threads
- `eventRecv` — the test at the head of `rt_event_recv`
-/

namespace NanoAt

variable {B : Type} [DecidableEq B]

/-- The receive option. -/
inductive EventFlag where
  | and
  | or
  deriving DecidableEq, Repr

/-- Whether the posted bits satisfy a receiver of `mask`. -/
def EventFlag.satisfied (flag : EventFlag) (mask set : Finset B) : Prop :=
  match flag with
  | .and => mask ⊆ set
  | .or => (mask ∩ set).Nonempty

instance (flag : EventFlag) (mask set : Finset B) : Decidable (flag.satisfied mask set) := by
  unfold EventFlag.satisfied
  cases flag <;> infer_instance

/-- `event_set` and `event_info` of a suspended thread. -/
structure Waiter (B : Type) where
  eventSet : Finset B
  eventInfo : EventFlag
  deriving DecidableEq

/-- What `rt_event_send` does with one suspended thread: if its condition holds, the
bits it receives and the bits that stay posted. -/
def Waiter.take (w : Waiter B) (set : Finset B) : Option (Finset B × Finset B) :=
  if w.eventInfo.satisfied w.eventSet set then
    let received := match w.eventInfo with
      | .and => w.eventSet
      | .or => w.eventSet ∩ set
    some (received, set \ received)
  else none

/-- The test at the head of `rt_event_recv`: the bits received and the bits that stay
posted, or nothing when the caller has to be suspended. -/
def eventRecv (flag : EventFlag) (mask set : Finset B) : Option (Finset B × Finset B) :=
  if flag.satisfied mask set then some (set ∩ mask, set \ mask) else none

/-- A bit posted for a waiter that nothing posted before satisfies: it takes that bit if
it is one of its own, and stays suspended otherwise. -/
theorem Waiter.take_insert {w : Waiter B} {set : Finset B} {b : B}
    (hw : w.eventInfo = .or ∨ w.eventSet.card = 1) (hset : Disjoint w.eventSet set) :
    w.take (insert b set) = if b ∈ w.eventSet then some ({b}, insert b set \ {b}) else none := by
  obtain ⟨mask, flag⟩ := w
  have hinter : mask ∩ insert b set = if b ∈ mask then {b} else ∅ := by
    have hempty : mask ∩ set = ∅ := Finset.disjoint_iff_inter_eq_empty.mp hset
    split_ifs with hb
    · rw [Finset.inter_insert_of_mem hb, hempty]
      rfl
    · rw [Finset.inter_insert_of_notMem hb, hempty]
  by_cases hb : b ∈ mask
  · cases flag with
    | or => simp [take, EventFlag.satisfied, hinter, hb]
    | and =>
      obtain ⟨c, rfl⟩ := Finset.card_eq_one.mp (hw.resolve_left (by simp))
      obtain rfl := Finset.mem_singleton.mp hb
      simp [take, EventFlag.satisfied]
  · cases flag with
    | or => simp [take, EventFlag.satisfied, hinter, hb]
    | and =>
      obtain ⟨c, rfl⟩ := Finset.card_eq_one.mp (hw.resolve_left (by simp))
      have hc : c ∉ set := by simpa using hset
      have hcb : c ≠ b := by simpa [eq_comm] using hb
      simp [take, EventFlag.satisfied, hb, hc, hcb]

theorem Waiter.take_of_disjoint {w : Waiter B} {set : Finset B}
    (hw : w.eventInfo = .or ∨ w.eventSet.card = 1) (hset : Disjoint w.eventSet set) :
    w.take set = none := by
  obtain ⟨mask, flag⟩ := w
  cases flag with
  | or => simp [take, EventFlag.satisfied, Finset.disjoint_iff_inter_eq_empty.mp hset]
  | and =>
    obtain ⟨c, rfl⟩ := Finset.card_eq_one.mp (hw.resolve_left (by simp))
    have hc : c ∉ set := by simpa using hset
    simp [take, EventFlag.satisfied, hc]

end NanoAt
