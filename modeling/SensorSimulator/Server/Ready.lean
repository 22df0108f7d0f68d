import SensorSimulator.Lib.Places
import SensorSimulator.Lib.Termination

/-!
# `wait_until_ready` and `wake_threads`

The start gate that `main.h` offers: any number of threads, each of which calls one of the two
functions, at a time of its own.

* `State N`             the mutex, `*p_ready`, and where each thread stands;
* `waitUntilReady`      a step of the first: its wait gives the mutex back, and takes it again behind
                        a broadcast or by itself; `wakeThreads`, a step of the second;
* `Sound`               the invariant: who holds the mutex, who is behind the wait, who may be asleep;
* `State.toReady`       the measure, which only a wake-up without a broadcast raises;
* `ready_gate`          nobody comes through too early, nobody is forgotten, and all come through.
-/

namespace SensorSimulator
namespace Ready

variable {N : Nat}

/-! ## the two functions -/

/-- what `wait_until_ready` does next; `woken` is inside `pthread_cond_wait`, for the mutex -/
inductive WaitPc where
  | lock
  | check
  | asleep
  | woken
  | unlock
  | returned
  deriving DecidableEq

inductive WakePc where
  | lock
  | setReady
  | broadcast
  | unlock
  | returned
  deriving DecidableEq

inductive Pc where
  | wait (pc : WaitPc)
  | wake (pc : WakePc)
  deriving DecidableEq

structure State (N : Nat) where
  pReady : Int
  owner : Option (Fin N)
  pcs : Fin N → Pc

def State.goTo (s : State N) (i : Fin N) (pc : Pc) : State N :=
  { s with pcs := Function.update s.pcs i pc }

/-- `pthread_mutex_lock` returns when the mutex is free -/
def State.lock (s : State N) (i : Fin N) (pc : Pc) : Option (State N) :=
  if s.owner = none then some { s.goTo i pc with owner := some i } else none

def State.unlock (s : State N) (i : Fin N) (pc : Pc) : State N :=
  { s.goTo i pc with owner := none }

/-- `pthread_cond_broadcast` -/
def Pc.broadcast (pc : Pc) : Pc := if pc = .wait .asleep then .wait .woken else pc

def waitUntilReady (s : State N) (i : Fin N) : WaitPc → Option (State N)
  | .lock => s.lock i (.wait .check)
  | .check =>
    if s.pReady = 0 then some (s.unlock i (.wait .asleep)) else some (s.goTo i (.wait .unlock))
  | .asleep => none
  | .woken => s.lock i (.wait .check)
  | .unlock => some (s.unlock i (.wait .returned))
  | .returned => none

def wakeThreads (s : State N) (i : Fin N) : WakePc → Option (State N)
  | .lock => s.lock i (.wake .setReady)
  | .setReady => some { s.goTo i (.wake .broadcast) with pReady := 1 }
  | .broadcast => some (State.goTo { s with pcs := fun j => (s.pcs j).broadcast } i (.wake .unlock))
  | .unlock => some (s.unlock i (.wake .returned))
  | .returned => none

/-- a thread goes on, or `pthread_cond_wait` wakes up without a broadcast -/
inductive Action (N : Nat) where
  | thread (i : Fin N)
  | wakeUp (i : Fin N)

def step (s : State N) : Action N → Option (State N)
  | .thread i =>
    match s.pcs i with
    | .wait pc => waitUntilReady s i pc
    | .wake pc => wakeThreads s i pc
  | .wakeUp i => if s.pcs i = .wait .asleep then some (s.goTo i (.wait .woken)) else none

/-- which of the two functions a thread calls -/
inductive Call where
  | waitUntilReady
  | wakeThreads
  deriving DecidableEq

def Call.start : Call → Pc
  | .waitUntilReady => .wait .lock
  | .wakeThreads => .wake .lock

def Call.returned : Call → Pc
  | .waitUntilReady => .wait .returned
  | .wakeThreads => .wake .returned

def init (ready : Int) (calls : Fin N → Call) : State N where
  pReady := ready
  owner := none
  pcs i := (calls i).start

def Reachable (ready : Int) (calls : Fin N → Call) (s : State N) : Prop :=
  ∃ as, Runs.exec step (init ready calls) as = some s

/-! ## where a thread stands -/

def Pc.call : Pc → Call
  | .wait _ => .waitUntilReady
  | .wake _ => .wakeThreads

/-- between `pthread_mutex_lock` and `pthread_mutex_unlock`, and not in the wait -/
def Pc.holds : Pc → Bool
  | .wait .check | .wait .unlock | .wake .setReady | .wake .broadcast | .wake .unlock => true
  | _ => false

/-- `*p_ready = 1` is behind it -/
def Pc.hasSet : Pc → Bool
  | .wake .broadcast | .wake .unlock | .wake .returned => true
  | _ => false

/-- and the broadcast -/
def Pc.hasWoken : Pc → Bool
  | .wake .unlock | .wake .returned => true
  | _ => false

def Pc.through : Pc → Bool
  | .wait .unlock | .wait .returned => true
  | _ => false

/-- where a thread goes when it gets the mutex -/
def Pc.locked : Pc → Option Pc
  | .wait .lock | .wait .woken => some (.wait .check)
  | .wake .lock => some (.wake .setReady)
  | _ => none

/-- where it goes from its `pthread_mutex_unlock` -/
def Pc.unlocked : Pc → Option Pc
  | .wait .unlock => some (.wait .returned)
  | .wake .unlock => some (.wake .returned)
  | _ => none

/-! ## the transitions -/

inductive Move (s : State N) : Action N → State N → Prop
  | lock (i : Fin N) (pc : Pc) (hpc : (s.pcs i).locked = some pc) (hfree : s.owner = none) :
      Move s (.thread i) { s.goTo i pc with owner := some i }
  | sleep (i : Fin N) (hpc : s.pcs i = .wait .check) (hready : s.pReady = 0) :
      Move s (.thread i) (s.unlock i (.wait .asleep))
  | pass (i : Fin N) (hpc : s.pcs i = .wait .check) (hready : s.pReady ≠ 0) :
      Move s (.thread i) (s.goTo i (.wait .unlock))
  | setReady (i : Fin N) (hpc : s.pcs i = .wake .setReady) :
      Move s (.thread i) { s.goTo i (.wake .broadcast) with pReady := 1 }
  | broadcast (i : Fin N) (hpc : s.pcs i = .wake .broadcast) :
      Move s (.thread i)
        (State.goTo { s with pcs := fun j => (s.pcs j).broadcast } i (.wake .unlock))
  | unlock (i : Fin N) (pc : Pc) (hpc : (s.pcs i).unlocked = some pc) :
      Move s (.thread i) (s.unlock i pc)
  | wakeUp (i : Fin N) (hpc : s.pcs i = .wait .asleep) :
      Move s (.wakeUp i) (s.goTo i (.wait .woken))

theorem lock_move {s s' : State N} {i : Fin N} {pc : Pc} (hpc : (s.pcs i).locked = some pc)
    (h : s.lock i pc = some s') : Move s (.thread i) s' := by
  unfold State.lock at h
  split at h
  · rename_i hfree
    cases h
    exact .lock i pc hpc hfree
  · cases h

theorem waitUntilReady_move {s s' : State N} {i : Fin N} {pc : WaitPc}
    (hpc : s.pcs i = .wait pc) (h : waitUntilReady s i pc = some s') : Move s (.thread i) s' := by
  cases pc with
  | lock => exact lock_move (by rw [hpc]; rfl) h
  | check =>
    dsimp only [waitUntilReady] at h
    split at h
    · rename_i hready
      cases h
      exact .sleep i hpc hready
    · rename_i hready
      cases h
      exact .pass i hpc hready
  | asleep => cases h
  | woken => exact lock_move (by rw [hpc]; rfl) h
  | unlock =>
    cases h
    exact .unlock i _ (by rw [hpc]; rfl)
  | returned => cases h

theorem wakeThreads_move {s s' : State N} {i : Fin N} {pc : WakePc}
    (hpc : s.pcs i = .wake pc) (h : wakeThreads s i pc = some s') : Move s (.thread i) s' := by
  cases pc with
  | lock => exact lock_move (by rw [hpc]; rfl) h
  | setReady =>
    cases h
    exact .setReady i hpc
  | broadcast =>
    cases h
    exact .broadcast i hpc
  | unlock =>
    cases h
    exact .unlock i _ (by rw [hpc]; rfl)
  | returned => cases h

theorem step_wait {s : State N} {i : Fin N} {pc : WaitPc} (hpc : s.pcs i = .wait pc) :
    step s (.thread i) = waitUntilReady s i pc := by
  simp only [step, hpc]

theorem step_wake {s : State N} {i : Fin N} {pc : WakePc} (hpc : s.pcs i = .wake pc) :
    step s (.thread i) = wakeThreads s i pc := by
  simp only [step, hpc]

theorem step_move {s s' : State N} {a : Action N} (h : step s a = some s') : Move s a s' := by
  cases a with
  | thread i =>
    cases hpc : s.pcs i with
    | wait pc => exact waitUntilReady_move hpc ((step_wait hpc).symm.trans h)
    | wake pc => exact wakeThreads_move hpc ((step_wake hpc).symm.trans h)
  | wakeUp i =>
    unfold step at h
    dsimp only at h
    split at h
    · rename_i hpc
      cases h
      exact .wakeUp i hpc
    · cases h

/-! ## the invariant -/

structure Sound (ready : Int) (calls : Fin N → Call) (s : State N) : Prop where
  call : ∀ i, (s.pcs i).call = calls i
  holds : ∀ i, (s.pcs i).holds = true ↔ s.owner = some i
  /-- `*p_ready` is what it was, or somebody has set it -/
  pReady : s.pReady = ready ∨ s.pReady = 1 ∧ ∃ j, (s.pcs j).hasSet = true
  unset : s.pReady = 0 → ∀ i, (s.pcs i).hasSet = false ∧ (s.pcs i).through = false
  /-- who is asleep has found it unset, and nobody has woken the sleepers since -/
  asleep : ∀ i, s.pcs i = .wait .asleep → ready = 0 ∧ ∀ j, (s.pcs j).hasWoken = false

/-- who has woken the others has set `*p_ready` before -/
theorem Pc.hasSet_of_hasWoken {pc : Pc} (h : pc.hasWoken = true) : pc.hasSet = true := by
  cases pc with
  | wait pc => cases h
  | wake pc => cases pc <;> first | rfl | cases h

theorem Sound.ready_zero {ready : Int} {calls : Fin N → Call} {s : State N}
    (hs : Sound ready calls s) (h0 : s.pReady = 0) : ready = 0 := by
  rcases hs.pReady with hsame | ⟨hone, -⟩
  · rw [← hsame]
    exact h0
  · rw [hone] at h0
    cases h0

theorem Sound.woken_unset {ready : Int} {calls : Fin N → Call} {s : State N}
    (hs : Sound ready calls s) (h0 : s.pReady = 0) (i : Fin N) : (s.pcs i).hasWoken = false := by
  by_contra hnot
  have hset := Pc.hasSet_of_hasWoken (Bool.eq_true_of_not_eq_false hnot)
  rw [(hs.unset h0 i).1] at hset
  cases hset

theorem init_sound (ready : Int) (calls : Fin N → Call) : Sound ready calls (init ready calls) := by
  have hstart : ∀ c : Call, c.start.call = c ∧ c.start.holds = false ∧ c.start.hasSet = false ∧
      c.start.through = false ∧ c.start ≠ .wait .asleep := by
    intro c
    cases c <;> decide
  refine ⟨fun i => (hstart (calls i)).1, fun i => ?_, Or.inl rfl, fun _ i => ?_, fun i h => ?_⟩
  · show (calls i).start.holds = true ↔ none = some i
    rw [(hstart (calls i)).2.1]
    simp
  · exact ⟨(hstart (calls i)).2.2.1, (hstart (calls i)).2.2.2.1⟩
  · exact absurd h (hstart (calls i)).2.2.2.2

/-- the mutex is taken and given back by the thread that is at it -/
structure Hands (s s' : State N) (i : Fin N) : Prop where
  self : (s'.pcs i).holds = true ↔ s'.owner = some i
  others : ∀ j, j ≠ i → (s'.owner = some j ↔ s.owner = some j)

/-- one thread goes on to `pc`; what it may do by that -/
theorem Sound.goTo {ready : Int} {calls : Fin N → Call} {s s' : State N} (hs : Sound ready calls s)
    {i : Fin N} {pc : Pc} (hpcs : s'.pcs = Function.update s.pcs i pc)
    (hcall : pc.call = (s.pcs i).call) (hhands : Hands s s' i)
    (hset : (s.pcs i).hasSet = true → pc.hasSet = true)
    (hready : s'.pReady = s.pReady ∨ s'.pReady = 1 ∧ pc.hasSet = true)
    (hpast : s'.pReady = 0 → pc.hasSet = false ∧ pc.through = false)
    (hwoken : pc.hasWoken = true → (s.pcs i).hasWoken = true ∨ ∀ j, s.pcs j ≠ .wait .asleep)
    (hasleep : pc = .wait .asleep → s.pReady = 0) : Sound ready calls s' := by
  have hself : s'.pcs i = pc := by rw [hpcs, Function.update_self]
  have hother : ∀ j, j ≠ i → s'.pcs j = s.pcs j := by
    intro j hj
    rw [hpcs, Function.update_of_ne hj]
  refine ⟨fun j => ?_, fun j => ?_, ?_, fun h0 j => ?_, fun j hj => ?_⟩
  · by_cases hj : j = i
    · rw [hj, hself, hcall]
      exact hs.call i
    · rw [hother j hj]
      exact hs.call j
  · by_cases hj : j = i
    · rw [hj]
      exact hhands.self
    · rw [hother j hj, hhands.others j hj]
      exact hs.holds j
  · rcases hready with hsame | ⟨hone, hpc⟩
    · rw [hsame]
      refine hs.pReady.imp_right fun ⟨hone, j, hj⟩ => ⟨hone, j, ?_⟩
      by_cases hji : j = i
      · rw [hji] at hj ⊢
        rw [hself]
        exact hset hj
      · rw [hother j hji]
        exact hj
    · exact Or.inr ⟨hone, i, by rw [hself]; exact hpc⟩
  · by_cases hj : j = i
    · rw [hj, hself]
      exact hpast h0
    · rw [hother j hj]
      refine hs.unset ?_ j
      rcases hready with hsame | ⟨hone, -⟩
      · rw [← hsame]
        exact h0
      · rw [hone] at h0
        cases h0
  · have hunset : ready = 0 ∧ ∀ k, (s.pcs k).hasWoken = false := by
      by_cases hji : j = i
      · rw [hji, hself] at hj
        have h0 := hasleep hj
        exact ⟨hs.ready_zero h0, hs.woken_unset h0⟩
      · rw [hother j hji] at hj
        exact hs.asleep j hj
    refine ⟨hunset.1, fun k => ?_⟩
    by_cases hk : k = i
    · rw [hk, hself]
      by_contra hnot
      rcases hwoken (Bool.eq_true_of_not_eq_false hnot) with hbefore | hnone
      · rw [hunset.2 i] at hbefore
        cases hbefore
      · by_cases hji : j = i
        · rw [hji, hself] at hj
          rw [hj] at hnot
          exact hnot rfl
        · rw [hother j hji] at hj
          exact hnone j hj
    · rw [hother k hk]
      exact hunset.2 k

theorem Sound.broadcast {ready : Int} {calls : Fin N → Call} {s : State N}
    (hs : Sound ready calls s) :
    Sound ready calls { s with pcs := fun j => (s.pcs j).broadcast } ∧
      ∀ j, (s.pcs j).broadcast ≠ .wait .asleep := by
  have hsame : ∀ pc : Pc, pc.broadcast.call = pc.call ∧ pc.broadcast.holds = pc.holds ∧
      pc.broadcast.hasSet = pc.hasSet ∧ pc.broadcast.through = pc.through ∧
      pc.broadcast ≠ .wait .asleep := by
    intro pc
    cases pc with
    | wait pc => cases pc <;> decide
    | wake pc => cases pc <;> decide
  refine ⟨⟨fun i => ?_, fun i => ?_, ?_, fun h0 i => ?_, fun i hi => ?_⟩,
    fun j => (hsame (s.pcs j)).2.2.2.2⟩
  · exact (hsame (s.pcs i)).1.trans (hs.call i)
  · rw [← hs.holds i]
    exact iff_of_eq (congrArg (· = true) (hsame (s.pcs i)).2.1)
  · refine hs.pReady.imp_right fun ⟨hone, j, hj⟩ => ⟨hone, j, ?_⟩
    exact (hsame (s.pcs j)).2.2.1.trans hj
  · have hi := hs.unset h0 i
    exact ⟨(hsame (s.pcs i)).2.2.1.trans hi.1, (hsame (s.pcs i)).2.2.2.1.trans hi.2⟩
  · exact absurd hi (hsame (s.pcs i)).2.2.2.2

/-- a thread that does not come from the mutex or give it back -/
theorem Hands.kept {s s' : State N} {i : Fin N} (hs : (s.pcs i).holds = true ↔ s.owner = some i)
    (hpc : (s'.pcs i).holds = (s.pcs i).holds) (howner : s'.owner = s.owner) : Hands s s' i where
  self := by
    rw [hpc, howner]
    exact hs
  others j _ := by rw [howner]

theorem Hands.taken {s s' : State N} {i : Fin N} (hpc : (s'.pcs i).holds = true)
    (hfree : s.owner = none) (howner : s'.owner = some i) : Hands s s' i where
  self := by
    rw [hpc, howner]
    exact ⟨fun _ => rfl, fun _ => rfl⟩
  others j hj := by
    rw [howner, hfree]
    refine ⟨fun h => absurd (Option.some.inj h).symm hj, fun h => ?_⟩
    cases h

theorem Hands.given {s s' : State N} {i : Fin N} (hpc : (s'.pcs i).holds = false)
    (hheld : s.owner = some i) (howner : s'.owner = none) : Hands s s' i where
  self := by
    rw [hpc, howner]
    refine ⟨fun h => Bool.noConfusion h, fun h => ?_⟩
    cases h
  others j hj := by
    rw [howner, hheld]
    refine ⟨fun h => ?_, fun h => absurd (Option.some.inj h).symm hj⟩
    cases h

/-- what a thread has with it when it has got the mutex, and when it gives it back -/
theorem Pc.locked_spec {pc pc' : Pc} (h : pc.locked = some pc') :
    pc'.call = pc.call ∧ pc'.holds = true ∧ pc'.hasSet = false ∧ pc'.through = false ∧
      pc'.hasWoken = false ∧ pc' ≠ .wait .asleep ∧ pc.hasSet = false := by
  cases pc with
  | wait pc => cases pc <;> cases h <;> decide
  | wake pc =>
    cases pc <;> cases h
    decide

theorem Pc.unlocked_spec {pc pc' : Pc} (h : pc.unlocked = some pc') :
    pc.holds = true ∧ pc'.call = pc.call ∧ pc'.holds = false ∧ pc'.hasSet = pc.hasSet ∧
      pc'.through = pc.through ∧ pc'.hasWoken = pc.hasWoken ∧ pc' ≠ .wait .asleep := by
  cases pc with
  | wait pc =>
    cases pc <;> cases h
    decide
  | wake pc =>
    cases pc <;> cases h
    decide

theorem Sound.move {ready : Int} {calls : Fin N → Call} {s s' : State N} {a : Action N}
    (hs : Sound ready calls s) (h : Move s a s') : Sound ready calls s' := by
  cases h with
  | lock i pc hpc hfree =>
    obtain ⟨hcall, hholds, hset, hthrough, hwoken, hasleep, hset'⟩ := Pc.locked_spec hpc
    refine hs.goTo rfl hcall (.taken ?_ hfree rfl) (fun h => ?_) (Or.inl rfl)
      (fun _ => ⟨hset, hthrough⟩) (fun h => ?_) (fun h => absurd h hasleep)
    · show ((Function.update s.pcs i pc) i).holds = true
      rw [Function.update_self]
      exact hholds
    · rw [hset'] at h
      cases h
    · rw [hwoken] at h
      cases h
  | sleep i hpc hready =>
    have hheld : s.owner = some i := (hs.holds i).mp (by rw [hpc]; rfl)
    refine hs.goTo rfl (by rw [hpc]; rfl) (.given ?_ hheld rfl) (fun h => ?_) (Or.inl rfl)
      (fun _ => ⟨rfl, rfl⟩) (fun h => Bool.noConfusion h) fun _ => hready
    · show ((Function.update s.pcs i (.wait .asleep)) i).holds = false
      rw [Function.update_self]
      rfl
    · rw [hpc] at h
      cases h
  | pass i hpc hready =>
    refine hs.goTo rfl (by rw [hpc]; rfl) (.kept (hs.holds i) ?_ rfl) (fun h => ?_) (Or.inl rfl)
      (fun h => absurd h hready) (fun h => Bool.noConfusion h) (fun h => ?_)
    · show ((Function.update s.pcs i (.wait .unlock)) i).holds = _
      rw [Function.update_self, hpc]
      rfl
    · rw [hpc] at h
      cases h
    · cases h
  | setReady i hpc =>
    refine hs.goTo rfl (by rw [hpc]; rfl) (.kept (hs.holds i) ?_ rfl) (fun _ => rfl)
      (Or.inr ⟨rfl, rfl⟩) (fun h => ?_) (fun h => Bool.noConfusion h) (fun h => ?_)
    · show ((Function.update s.pcs i (.wake .broadcast)) i).holds = _
      rw [Function.update_self, hpc]
      rfl
    · cases h
    · cases h
  | broadcast i hpc =>
    obtain ⟨hsleepers, hnone⟩ := hs.broadcast
    have hset : s.pReady ≠ 0 := by
      intro h0
      have hunset := (hs.unset h0 i).1
      rw [hpc] at hunset
      cases hunset
    have hpc' : (s.pcs i).broadcast = .wake .broadcast := by
      rw [hpc]
      rfl
    refine hsleepers.goTo rfl (by dsimp only; rw [hpc']; rfl) (.kept (hsleepers.holds i) ?_ rfl)
      (fun _ => rfl) (Or.inl rfl) (fun h0 => absurd h0 hset) (fun _ => Or.inr hnone) (fun h => ?_)
    · show (Function.update (fun j => (s.pcs j).broadcast) i (.wake .unlock) i).holds =
        (s.pcs i).broadcast.holds
      rw [Function.update_self, hpc']
      rfl
    · cases h
  | unlock i pc hpc =>
    obtain ⟨hholds, hcall, hholds', hset, hthrough, hwoken, hasleep⟩ := Pc.unlocked_spec hpc
    refine hs.goTo rfl hcall (.given ?_ ((hs.holds i).mp hholds) rfl) (fun h => ?_) (Or.inl rfl)
      (fun h0 => ?_) (fun h => Or.inl ?_) (fun h => absurd h hasleep)
    · show ((Function.update s.pcs i pc) i).holds = false
      rw [Function.update_self]
      exact hholds'
    · rw [hset]
      exact h
    · rw [hset, hthrough]
      exact hs.unset h0 i
    · rw [← hwoken]
      exact h
  | wakeUp i hpc =>
    refine hs.goTo rfl (by rw [hpc]; rfl) (.kept (hs.holds i) ?_ rfl) (fun h => ?_) (Or.inl rfl)
      (fun _ => ⟨rfl, rfl⟩) (fun h => Bool.noConfusion h) (fun h => ?_)
    · show ((Function.update s.pcs i (.wait .woken)) i).holds = _
      rw [Function.update_self, hpc]
      rfl
    · rw [hpc] at h
      cases h
    · cases h

theorem Sound.after {ready : Int} {calls : Fin N → Call} {s s' : State N} {a : Action N}
    (hs : Sound ready calls s) (h : step s a = some s') : Sound ready calls s' :=
  hs.move (step_move h)

theorem Reachable.sound {ready : Int} {calls : Fin N → Call} {s : State N}
    (h : Reachable ready calls s) : Sound ready calls s := by
  obtain ⟨as, hrun⟩ := h
  exact Runs.exec_invariant (fun _ _ _ hs hstep => hs.after hstep) hrun (init_sound ready calls)

/-! ## the measure -/

/-- the steps that a thread has still to take; a broadcast can send all the others once more for the
mutex, and from there through the test -/
def Pc.toReady (N : Nat) : Pc → Nat
  | .wait .lock | .wait .woken => 3
  | .wait .check => 2
  | .wait .unlock => 1
  | .wait .asleep | .wait .returned => 0
  | .wake .lock => 3 * N + 4
  | .wake .setReady => 3 * N + 3
  | .wake .broadcast => 3 * N + 2
  | .wake .unlock => 1
  | .wake .returned => 0

def State.toReady (s : State N) : Nat := ∑ i, (s.pcs i).toReady N

theorem goTo_toReady (s : State N) (i : Fin N) (pc : Pc) :
    (s.goTo i pc).toReady + (s.pcs i).toReady N = s.toReady + pc.toReady N :=
  Places.sum_update (Pc.toReady N) s.pcs i pc

theorem goTo_toReady_lt {s : State N} {i : Fin N} {pc : Pc}
    (h : pc.toReady N < (s.pcs i).toReady N) : (s.goTo i pc).toReady < s.toReady := by
  have hsum := goTo_toReady s i pc
  omega

theorem Pc.locked_toReady {pc pc' : Pc} (h : pc.locked = some pc') :
    pc'.toReady N < pc.toReady N := by
  cases pc with
  | wait pc => cases pc <;> cases h <;> exact Nat.lt_succ_self 2
  | wake pc =>
    cases pc <;> cases h
    exact Nat.lt_succ_self _

theorem Pc.unlocked_toReady {pc pc' : Pc} (h : pc.unlocked = some pc') :
    pc'.toReady N < pc.toReady N := by
  cases pc with
  | wait pc =>
    cases pc <;> cases h
    exact Nat.one_pos
  | wake pc =>
    cases pc <;> cases h
    exact Nat.one_pos

theorem broadcast_toReady (s : State N) :
    State.toReady { s with pcs := fun j => (s.pcs j).broadcast } ≤ s.toReady + 3 * N := by
  have hone : ∀ pc : Pc, pc.broadcast.toReady N ≤ pc.toReady N + 3 := by
    intro pc
    unfold Pc.broadcast
    split
    · rename_i h
      rw [h]
      exact Nat.le_refl 3
    · omega
  calc ∑ i, ((s.pcs i).broadcast).toReady N
      ≤ ∑ i : Fin N, ((s.pcs i).toReady N + 3) := Finset.sum_le_sum fun i _ => hone (s.pcs i)
    _ = s.toReady + 3 * N := by
      rw [Finset.sum_add_distrib, Finset.sum_const, Finset.card_fin, smul_eq_mul, Nat.mul_comm]
      rfl

theorem Move.toReady {s s' : State N} {a : Action N} (h : Move s a s') :
    match a with
    | .thread _ => s'.toReady < s.toReady
    | .wakeUp _ => s'.toReady = s.toReady + 3 := by
  cases h with
  | lock i pc hpc hfree => exact goTo_toReady_lt (Pc.locked_toReady hpc)
  | sleep i hpc hready =>
    apply goTo_toReady_lt
    rw [hpc]
    exact Nat.zero_lt_succ 1
  | pass i hpc hready =>
    apply goTo_toReady_lt
    rw [hpc]
    exact Nat.lt_succ_self 1
  | setReady i hpc =>
    apply goTo_toReady_lt
    rw [hpc]
    exact Nat.lt_succ_self _
  | broadcast i hpc =>
    -- the waker has the steps of those that it wakes in its own measure
    have hsum := goTo_toReady { s with pcs := fun j => (s.pcs j).broadcast } i (.wake .unlock)
    have hsleepers := broadcast_toReady s
    have hpc' : ((s.pcs i).broadcast).toReady N = 3 * N + 2 := by
      rw [hpc]
      rfl
    have hafter : (Pc.wake .unlock).toReady N = 1 := rfl
    dsimp only at hsum ⊢
    omega
  | unlock i pc hpc => exact goTo_toReady_lt (Pc.unlocked_toReady hpc)
  | wakeUp i hpc =>
    have hsum := goTo_toReady s i (.wait .woken)
    rw [hpc] at hsum
    exact hsum

/-! ## nobody is left behind -/

/-- a thread that holds the mutex, or that wants it, is asleep, or has returned -/
theorem Pc.stands (pc : Pc) : pc.holds = true ∨ (∃ pc', pc.locked = some pc') ∨
    pc = .wait .asleep ∨ pc = pc.call.returned := by
  cases pc with
  | wait pc => cases pc <;> simp [Pc.holds, Pc.locked, Pc.call, Call.returned]
  | wake pc => cases pc <;> simp [Pc.holds, Pc.locked, Pc.call, Call.returned]

theorem holds_progress {s : State N} {i : Fin N} (h : (s.pcs i).holds = true) :
    ∃ s', step s (.thread i) = some s' := by
  apply Option.isSome_iff_exists.mp
  cases hpc : s.pcs i with
  | wait pc =>
    rw [hpc] at h
    rw [step_wait hpc]
    cases pc with
    | check =>
      dsimp only [waitUntilReady]
      split <;> rfl
    | unlock => rfl
    | _ => cases h
  | wake pc =>
    rw [hpc] at h
    rw [step_wake hpc]
    cases pc with
    | lock => cases h
    | returned => cases h
    | _ => rfl

theorem lock_progress {s : State N} {i : Fin N} {pc : Pc} (h : (s.pcs i).locked = some pc)
    (hfree : s.owner = none) : ∃ s', step s (.thread i) = some s' := by
  have hlock : ∀ pc, (s.lock i pc).isSome = true := by
    intro pc
    unfold State.lock
    rw [if_pos hfree]
    rfl
  apply Option.isSome_iff_exists.mp
  cases hpc : s.pcs i with
  | wait w =>
    rw [hpc] at h
    rw [step_wait hpc]
    cases w with
    | lock => exact hlock _
    | woken => exact hlock _
    | _ => cases h
  | wake w =>
    rw [hpc] at h
    rw [step_wake hpc]
    cases w with
    | lock => exact hlock _
    | _ => cases h

def AllReturned (calls : Fin N → Call) (s : State N) : Prop := ∀ i, s.pcs i = (calls i).returned

theorem Sound.progress {ready : Int} {calls : Fin N → Call} {s : State N}
    (hs : Sound ready calls s) (hopens : ready ≠ 0 ∨ ∃ j, calls j = .wakeThreads)
    (hnot : ¬ AllReturned calls s) : ∃ i s', step s (.thread i) = some s' := by
  by_contra hstuck
  simp only [not_exists] at hstuck
  -- the mutex is free, and nobody wants it
  have hnone : ∀ i, (s.pcs i).holds = false := by
    intro i
    by_contra hholds
    obtain ⟨s', hstep⟩ := holds_progress (Bool.eq_true_of_not_eq_false hholds)
    exact hstuck i s' hstep
  have hfree : s.owner = none := by
    cases howner : s.owner with
    | none => rfl
    | some i =>
      have hholds := (hs.holds i).mpr howner
      rw [hnone i] at hholds
      cases hholds
  have hstands : ∀ i, s.pcs i = .wait .asleep ∨ s.pcs i = (calls i).returned := by
    intro i
    rcases (s.pcs i).stands with hholds | ⟨pc, hlocked⟩ | hasleep | hreturned
    · rw [hnone i] at hholds
      cases hholds
    · obtain ⟨s', hstep⟩ := lock_progress hlocked hfree
      exact absurd hstep (hstuck i s')
    · exact Or.inl hasleep
    · exact Or.inr (by rw [← hs.call i]; exact hreturned)
  apply hnot
  intro i
  rcases hstands i with hasleep | hreturned
  · obtain ⟨hready, hwoken⟩ := hs.asleep i hasleep
    rcases hopens with hset | ⟨j, hj⟩
    · exact absurd hready hset
    · -- the thread that wakes the others would have done so
      have hback := hwoken j
      rcases hstands j with hasleep' | hreturned
      · have hcall := hs.call j
        rw [hasleep', hj] at hcall
        cases hcall
      · rw [hreturned, hj] at hback
        cases hback
  · exact hreturned

def Action.isOwn : Action N → Bool
  | .thread _ => true
  | .wakeUp _ => false

theorem ready_terminates {ready : Int} {calls : Fin N → Call}
    (hopens : ready ≠ 0 ∨ ∃ j, calls j = .wakeThreads) :
    Runs.Terminates step (Sound ready calls) (AllReturned calls) State.toReady
      Action.isOwn (fun a => !a.isOwn) 3 where
  inv _ _ _ hs hstep := hs.after hstep
  lt s a s' _ hstep ha := by
    have hmove := (step_move hstep).toReady
    cases a with
    | thread i => exact hmove
    | wakeUp i => cases ha
  add s a s' _ hstep ha := by
    have hmove := (step_move hstep).toReady
    cases a with
    | thread i => cases ha
    | wakeUp i => exact Nat.le_of_eq hmove
  le s a s' _ _ ha hb := by
    rw [ha] at hb
    cases hb
  progress s hs hnot := by
    obtain ⟨i, s', hstep⟩ := hs.progress hopens hnot
    exact ⟨.thread i, s', rfl, hstep⟩

/-- **The gate.**  In every run of any number of threads: one at a time reads or writes `*p_ready`;
nobody comes through unless it was set before or a `wake_threads` has set it; and nobody sleeps
behind a `wake_threads` that has returned.  If there is one, or it was set, a run has a bounded number
of steps for its wake-ups, one of them is possible until all have returned, and all can return. -/
theorem ready_gate {ready : Int} {calls : Fin N → Call} {s : State N}
    (hr : Reachable ready calls s) :
    (∀ i j, (s.pcs i).holds = true → (s.pcs j).holds = true → i = j) ∧
    (∀ i, (s.pcs i).through = true → ready ≠ 0 ∨ ∃ j, (s.pcs j).hasSet = true) ∧
    (∀ i j, s.pcs j = .wake .returned → s.pcs i ≠ .wait .asleep) ∧
    (ready ≠ 0 ∨ (∃ j, calls j = .wakeThreads) →
      (∀ as t, Runs.exec step s as = some t →
        as.countP Action.isOwn ≤ s.toReady + 3 * as.countP fun a => !a.isOwn) ∧
      (∀ as t, Runs.exec step s as = some t → (∀ i, step t (.thread i) = none) →
        AllReturned calls t) ∧
      ∃ as t, (∀ a ∈ as, Action.isOwn a = true) ∧ Runs.exec step s as = some t ∧
        AllReturned calls t) := by
  have hs := hr.sound
  refine ⟨fun i j hi hj => ?_, fun i hi => ?_, fun i j hj hi => ?_, fun hopens => ?_⟩
  · have howner := (hs.holds i).mp hi
    rw [(hs.holds j).mp hj] at howner
    exact (Option.some.inj howner).symm
  · rcases hs.pReady with hsame | ⟨-, hset⟩
    · refine Or.inl fun h0 => ?_
      have hnot := (hs.unset (hsame.trans h0) i).2
      rw [hi] at hnot
      cases hnot
    · exact Or.inr hset
  · have hwoken := (hs.asleep i hi).2 j
    rw [hj] at hwoken
    cases hwoken
  · have hterm := ready_terminates hopens
    refine ⟨fun as t hrun => hterm.bounded hs hrun, fun as t hrun hnone => ?_, ?_⟩
    · refine hterm.maximal hs hrun fun a ha => ?_
      cases a with
      | thread i => exact hnone i
      | wakeUp i => cases ha
    · obtain ⟨as, t, hown, hrun, -, hall⟩ := hterm.completes hs
      exact ⟨as, t, hown, hrun, hall⟩

/-- a thread waits, and another one wakes it -/
def waiterAndWaker : Fin 2 → Call := fun i => if i = 0 then .waitUntilReady else .wakeThreads

/-- the first goes to sleep, finds nothing when it wakes up by itself, and is woken -/
def wokenOnce : List (Action 2) :=
  [.thread 0, .thread 0, .wakeUp 0, .thread 0, .thread 0, .thread 1, .thread 1, .thread 1,
    .thread 1, .thread 0, .thread 0, .thread 0]

def afterWokenOnce : State 2 :=
  (Runs.exec step (init 0 waiterAndWaker) wokenOnce).get (by decide)

theorem ready_gate_wokenOnce : (afterWokenOnce.pcs 0).through = true ∧
    ∃ j, (afterWokenOnce.pcs j).hasSet = true := by
  have hthrough : (afterWokenOnce.pcs 0).through = true := by decide
  have hreachable : Reachable 0 waiterAndWaker afterWokenOnce :=
    ⟨wokenOnce, (Option.some_get _).symm⟩
  exact ⟨hthrough, ((ready_gate hreachable).2.1 0 hthrough).resolve_left fun h => h rfl⟩

end Ready
end SensorSimulator
