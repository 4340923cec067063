import NanoAt.Lib.GuardedRun
import NanoAt.Transitions

/-!
# The scheduler lock, priorities and runs of the system

Only the thread that holds the scheduler lock is inside a critical section, so a
thread outside one runs only while every thread of higher priority is suspended.

## Main definitions

- `Sys.critical` — a thread stands between `rt_enter_critical` and `rt_exit_critical`
- `LockInv` — the lock is held by the current thread or by none
- `KernelInv` — the invariants of the kernel
- `run_invariant` — the invariant rule for runs of the system
-/

namespace NanoAt
open CString GuardedRun

/-- A thread stands between `rt_enter_critical` and `rt_exit_critical`. -/
def Sys.critical (s : Sys) : Thread → Prop
  | .serial => False
  | .atProcess => s.atProcess = .atSend .post ∨ s.atProcess = .atSend .exit
  | .atSendThread =>
    s.atSendThread = .transmit ∨ s.atSendThread = .print ∨ s.atSendThread = .exit
  | .shell => s.shell = .atSend .post ∨ s.shell = .atSend .exit

/-- The scheduler lock is held by the current thread or by none. -/
def LockInv (s : Sys) : Prop :=
  (s.rtSchedulerLockNest = 0 ∧ ∀ t, ¬ s.critical t) ∨
    (s.rtSchedulerLockNest = 1 ∧ ∀ t, s.critical t ↔ t = s.rtCurrentThread)

namespace LockInv

variable {s s' : Sys} {t u : Thread}

/-- A thread outside a critical section runs only while no thread of higher priority
is ready. -/
theorem not_ready (hl : LockInv s) (hs : s.scheduled t) (hc : ¬ s.critical t)
    (hu : u.priority < t.priority) : ¬ s.ready u := by
  obtain ⟨_, hs⟩ := hs
  rcases hl with ⟨h0, _⟩ | ⟨h1, hcur⟩
  · rw [if_pos h0] at hs
    exact hs u hu
  · rw [if_neg (by omega)] at hs
    exact absurd ((hcur t).mpr hs.symm) hc

/-- While a thread is in a critical section no other thread runs. -/
theorem eq_of_critical (hl : LockInv s) (hs : s.scheduled t) (hc : s.critical u) : t = u := by
  obtain ⟨_, hs⟩ := hs
  rcases hl with ⟨_, hno⟩ | ⟨h1, hcur⟩
  · exact absurd hc (hno u)
  · rw [if_neg (by omega)] at hs
    exact hs.symm.trans ((hcur u).mp hc).symm

/-- `at_process` outside its critical section runs only while `serial` is suspended. -/
theorem serial_suspended (hl : LockInv s) (hs : s.scheduled .atProcess)
    (hc : ¬ s.critical .atProcess) : s.serial = .suspended := by
  simpa [Sys.ready, Sys.suspended] using hl.not_ready hs hc (u := .serial) (by decide)

/-- The shell outside its critical section runs only while all other threads are suspended. -/
theorem all_suspended (hl : LockInv s) (hs : s.scheduled .shell) (hc : ¬ s.critical .shell) :
    s.serial = .suspended ∧ s.atProcess = .suspended ∧ s.atSendThread = .suspended := by
  refine ⟨?_, ?_, ?_⟩
  · simpa [Sys.ready, Sys.suspended] using hl.not_ready hs hc (u := .serial) (by decide)
  · simpa [Sys.ready, Sys.suspended] using hl.not_ready hs hc (u := .atProcess) (by decide)
  · simpa [Sys.ready, Sys.suspended] using hl.not_ready hs hc (u := .atSendThread) (by decide)

theorem init {behind : Ram} : LockInv (Sys.init behind) :=
  .inl ⟨rfl, fun t => by cases t <;> simp [Sys.critical, Sys.init]⟩

end LockInv

/-- The invariants of the kernel. -/
structure KernelInv (s : Sys) : Prop where
  event : EventInv s
  lock : LockInv s

section Steps

variable {s s' : Sys} {a : Action}

/-- A step is one of the transitions, taken by the thread the scheduler chose. -/
structure Moves (s : Sys) (a : Action) (s' : Sys) : Prop where
  trans : Trans s a s'
  scheduled : ∀ t, a = .run t → s.scheduled t

theorem KernelInv.moves (hi : KernelInv s) (h : step a s = some s') : Moves s a s' :=
  ⟨step_trans hi.event h, fun _ ht => step_scheduled (ht ▸ h)⟩

theorem Thread.forall_iff {P : Thread → Prop} :
    (∀ t, P t) ↔ P .serial ∧ P .atProcess ∧ P .atSendThread ∧ P .shell :=
  ⟨fun h => ⟨h _, h _, h _, h _⟩, fun ⟨h1, h2, h3, h4⟩ t => by cases t <;> assumption⟩

/-- A critical section is entered by a thread that finds the lock free, and left by the
thread that holds it. -/
theorem LockInv.moves (hl : LockInv s) (hm : Moves s a s') : LockInv s' := by
  obtain ⟨ht, hs⟩ := hm
  rcases hl with ⟨h0, hno⟩ | ⟨h1, hcur⟩
  · -- lock free: no thread is in a critical section, and only `enter` statements lock
    simp only [Thread.forall_iff, Sys.critical] at hno
    cases ht <;> simp_all [LockInv, Thread.forall_iff, Sys.critical]
  · -- lock held: the thread that steps is the holder
    have hrun : ∀ t, a = .run t → s.rtCurrentThread = t := by
      intro t ha
      have := (hs t ha).2
      rwa [if_neg (by omega)] at this
    clear hs
    simp only [Thread.forall_iff, Sys.critical] at hcur
    cases ht <;> simp_all [LockInv, Thread.forall_iff, Sys.critical]

theorem KernelInv.of_moves (hi : KernelInv s) (hm : Moves s a s') : KernelInv s' :=
  ⟨hi.event.trans hm.trans, hi.lock.moves hm⟩

theorem KernelInv.init {behind : Ram} : KernelInv (Sys.init behind) := ⟨.init, .init⟩

end Steps

section Runs

variable {guard : History Sys Action → Sys → Action → Prop} {start : Sys → Prop}
  {h : History Sys Action} {s : Sys}

theorem Run.kernelInv (hstart : ∀ s, start s → KernelInv s)
    (hr : Run step guard start h s) : KernelInv s :=
  hr.stateInvariant hstart fun _ _ _ hi hs => hi.of_moves (hi.moves hs)

/-- Invariant rule for runs of the system. -/
theorem run_invariant {P : History Sys Action → Sys → Prop}
    (hkernel : ∀ s, start s → KernelInv s) (hstart : ∀ s, start s → P [] s)
    (hstep : ∀ h s a s', KernelInv s → P h s → guard h s a → Moves s a s' → P ((s, a) :: h) s')
    (hr : Run step guard start h s) : P h s :=
  hr.invariant hstart fun _ _ _ _ hr hp hg hs =>
    have hi := Run.kernelInv hkernel hr
    hstep _ _ _ _ hi hp hg (hi.moves hs)

/-- The state in which `my_app_init` leaves the firmware, over any memory. -/
def Initial (s : Sys) : Prop := ∃ behind, s = Sys.init behind

/-- Runs from the initial state. -/
abbrev SysRun (guard : History Sys Action → Sys → Action → Prop) :
    History Sys Action → Sys → Prop :=
  Run step guard Initial

theorem SysRun.kernelInv (hr : SysRun guard h s) : KernelInv s :=
  Run.kernelInv (fun _ ⟨_, hs⟩ => hs.symm ▸ KernelInv.init) hr

/-- Invariant rule for runs of the system from its initial state. -/
theorem SysRun.invariant {P : History Sys Action → Sys → Prop}
    (hinit : ∀ behind, P [] (Sys.init behind))
    (hstep : ∀ h s a s', KernelInv s → P h s → guard h s a → Moves s a s' → P ((s, a) :: h) s')
    (hr : SysRun guard h s) : P h s :=
  run_invariant (fun _ ⟨_, hs⟩ => hs.symm ▸ KernelInv.init)
    (fun _ ⟨behind, hs⟩ => hs.symm ▸ hinit behind) hstep hr

/-- Memory that is zero behind the array. -/
def zeroRam : Ram := ⟨[0], List.mem_singleton_self 0⟩

/-- A computed run of the system whose outcome passes a test is such a run. -/
theorem SysRun.exists_of_exec (guard : History Sys Action → Sys → Action → Prop)
    [∀ h s a, Decidable (guard h s a)] (as : List Action) (test : History Sys Action → Sys → Bool)
    (he : (exec step guard as [] (Sys.init zeroRam)).any (fun r => test r.1 r.2) = true) :
    ∃ h s, SysRun guard h s ∧ test h s = true := by
  have hinit : Initial (Sys.init zeroRam) := ⟨zeroRam, rfl⟩
  exact exists_run_of_exec hinit as test he

end Runs

end NanoAt
