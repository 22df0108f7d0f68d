import SensorSimulator.Server.Refine
import SensorSimulator.Server.ShutDown
import SensorSimulator.Server.Stop

/-!
# What waits at the socket is received, and then the process can come to its end

A process in which no call of main has failed and which has not been asked to stop.

* `State.Unharmed`       no iteration has gone without memory, and main is not on the way out of a
                         failure;
* `State.toWait`         how many steps main is from waiting at an empty socket;
* `Serving.waits`        it gets there with its workers' help;
* `Serving.interrupted`  a `SIGINT` handled there brings it to the store of the flag;
* `Serving.completes`    so the process can exit with all that had arrived received.
-/

namespace SensorSimulator
namespace Server

variable {N : Nat}

/-! ## no call has failed -/

structure State.Unharmed (s : State N) : Prop where
  calloc : ∀ it ∈ s.history, it.callocFailed = false
  path : s.main.failed = false

theorem init_unharmed (N : Nat) : (init N).Unharmed := ⟨by simp [init], rfl⟩

theorem State.Unharmed.next {s : State N} (h : s.Unharmed) {it : Iteration}
    (hit : it.callocFailed = false) : (s.next it).Unharmed where
  calloc it' hit' := by
    rcases List.mem_append.mp hit' with hold | hnew
    · exact h.calloc it' hold
    · rw [List.mem_singleton.mp hnew]
      exact hit
  path := rfl

theorem MainMove.unharmed {cfg : Config} {s s' : State N} {c : MainChoice}
    (hs : s.Unharmed) (hc : c ≠ .fail) (h : MainMove cfg s c s') : s'.Unharmed := by
  cases h
  case createFails => exact absurd rfl hc
  case recvError => exact absurd rfl hc
  case allocateFails => exact absurd rfl hc
  case joinFails => exact absurd rfl hc
  case short e d ds hpc hsock hd =>
    apply State.Unharmed.next (s := { s with socket := ds, buffer := s.buffer.recvfrom d })
    · exact ⟨hs.calloc, hs.path⟩
    · simp only [Iteration.callocFailed, Bool.and_eq_false_iff, decide_eq_false_iff_not]
      exact Or.inl (Nat.not_le.mpr hd)
  case interrupted hpc => exact hs.next rfl
  case reject b hpc =>
    apply State.Unharmed.next (s := { s with freed := s.freed ++ [b] })
    · exact ⟨hs.calloc, hs.path⟩
    · exact Bool.and_false _
  case insert b i hpc hfree =>
    have hcalloc : Iteration.callocFailed ⟨.datagram s.current, true⟩ = false := Bool.and_false _
    exact ⟨(hs.next hcalloc).calloc, rfl⟩
  case release path op ops hpc =>
    have hpath := hs.path
    rw [hpc] at hpath
    cases op <;> exact ⟨hs.calloc, hpath⟩
  case exit path hpc =>
    have hpath := hs.path
    rw [hpc] at hpath
    exact ⟨hs.calloc, hpath⟩
  all_goals exact ⟨hs.calloc, rfl⟩

theorem Move.unharmed {cfg : Config} {s s' : State N} {a : Action N} (hs : s.Unharmed)
    (ha : a ≠ .main .fail) (h : Move cfg s a s') : s'.Unharmed := by
  cases h with
  | main c s' hm => exact hm.unharmed hs fun hc => ha (congrArg Action.main hc)
  | signal sig t ht =>
    refine ⟨hs.calloc, ?_⟩
    show (if t = .main then s.main.interrupt else s.main).failed = false
    split
    · rcases s.main.interrupt_cases with h | ⟨e, -, h⟩
      · rw [h]
        exact hs.path
      · rw [h]
        rfl
    · exact hs.path
  | _ => exact ⟨hs.calloc, hs.path⟩

theorem Reachable.asked {cfg : Config} {s : State N} (h : Reachable cfg s)
    (hs : s.main = .storeDone ∨ s.main.stored = true) : s.keepRunning = false := by
  refine reachable_invariant (I := fun s : State N =>
    s.main = .storeDone ∨ s.main.stored = true → s.keepRunning = false) ?_ ?_ h hs
  · rintro (h | h) <;> cases h
  intro s a s' _ hs hm hpc'
  cases hm with
  | main c s' hmain =>
    by_cases hpc : s.main = .storeDone ∨ s.main.stored = true
    · exact (Move.main c s' hmain).keepRunning (hs hpc)
    -- the only way there from elsewhere is the test of the loop
    · cases hmain
      case stop _ hk => exact hk
      case release path op ops hm =>
        rw [hm] at hpc
        rcases hpc' with h | h
        · cases h
        · exact absurd (Or.inr (by cases path <;> exact h)) hpc
      case exit path hm =>
        rw [hm] at hpc
        rcases hpc' with h | h
        · cases h
        · exact absurd (Or.inr (by cases path <;> exact h)) hpc
      all_goals
        simp_all [MainPc.stored, State.next]
  | signal sig t ht => rfl
  | _ => exact hs hpc'

/-! ## the way to the socket -/

/-- how far main is from waiting at an empty socket, with the steps of a worker that it waits for -/
def State.toWait (s : State N) : Nat :=
  15 * s.socket.length +
    match s.main with
    | .create i => 3 + (N - i)
    | .test => 2
    | .receive => 1
    | .allocate => 14
    | .deserialize _ => 13
    | .checkType _ => 12
    | .checkSensor _ => 11
    | .insert _ i => 6 + (s.lanes i).pc.hold
    | .reject _ => 5
    | .clear => 5
    | _ => 0

/-- main starts the workers, or is in the receive loop -/
def MainPc.serves : MainPc N → Bool
  | storeDone | broadcast _ | join _ | report | cleanUp _ _ | exited _ => false
  | _ => true

/-- no call has failed, and nobody has asked main to stop; the library can be relied on for as many
elements as words have come for a sensor -/
structure Serving (cfg : Config) (s : State N) : Prop where
  reachable : Reachable cfg s
  unharmed : s.Unharmed
  running : s.keepRunning = true
  counts : ∀ i : Fin N, cfg.lib.CountsElements (s.arrivedFor i).length
  blocking : ∀ i : Fin N, cfg.lib.Blocking (s.arrivedFor i).length

theorem Reachable.serves {cfg : Config} {s : State N} (h : Reachable cfg s) (hs : s.Unharmed)
    (hrun : s.keepRunning = true) : s.main.serves = true := by
  have hasked : ¬ (s.main = .storeDone ∨ s.main.stored = true) := fun hs => by
    have hk := h.asked hs
    rw [hrun] at hk
    cases hk
  have hpath := hs.path
  cases hpc : s.main with
  | cleanUp path ops =>
    rw [hpc] at hasked hpath
    cases path <;> first | exact absurd (Or.inr rfl) hasked | cases hpath
  | exited path =>
    rw [hpc] at hasked hpath
    cases path <;> first | exact absurd (Or.inr rfl) hasked | cases hpath
  | storeDone => exact absurd (Or.inl hpc) hasked
  | broadcast i => exact absurd (Or.inr (by rw [hpc]; rfl)) hasked
  | join i => exact absurd (Or.inr (by rw [hpc]; rfl)) hasked
  | report => exact absurd (Or.inr (by rw [hpc]; rfl)) hasked
  | _ => rfl

theorem Serving.serves {cfg : Config} {s : State N} (h : Serving cfg s) :
    s.main.serves = true := h.reachable.serves h.unharmed h.running

theorem MainPc.not_exited {m : MainPc N} (h : m.serves = true) : m.isExited = false := by
  cases m with
  | exited path => cases h
  | _ => rfl

theorem MainMove.toWait_lt {cfg : Config} {s s' : State N} (h : MainMove cfg s .proceed s')
    (hs : s.main.serves = true) (hk : s.keepRunning = true) :
    s'.toWait < s.toWait ∧ s'.keepRunning = true := by
  cases h
  case create i hpc hi =>
    simp only [State.toWait, hpc]
    refine ⟨?_, hk⟩
    show 15 * s.socket.length + _ < _
    omega
  case message e d ds hpc hsock hd =>
    simp only [State.toWait, hpc, hsock, List.length_cons]
    exact ⟨by omega, hk⟩
  case short e d ds hpc hsock hd =>
    simp only [State.toWait, State.next, hpc, hsock, List.length_cons]
    exact ⟨by omega, hk⟩
  case rightSensor b hpc hi =>
    have hle := (s.lanes ⟨_, hi⟩).pc.hold_le
    simp only [State.toWait, hpc]
    exact ⟨by omega, hk⟩
  case insert b i hpc hfree =>
    simp only [State.toWait, State.next, hpc]
    refine ⟨?_, hk⟩
    show 15 * s.socket.length + _ < _
    omega
  case stop hpc hk' =>
    rw [hk] at hk'
    cases hk'
  all_goals
    simp_all [State.toWait, State.next, MainPc.serves]

def State.waits (s : State N) : Prop := (∃ e, s.main = .blocked e) ∧ s.socket = []

def Action.helps : Action N → Bool
  | .main .proceed | .worker _ _ => true
  | _ => false

/-- main can go on, or it waits for a mutex and the worker that has it can, or it waits for a
datagram -/
theorem serves_enabled {cfg : Config} {s : State N} (hr : Reachable cfg s)
    (hlib : s.Blocking cfg.lib) (h : s.main.serves = true) :
    (∃ s', step cfg s (.main .proceed) = some s') ∨
      (∃ b i c s', s.main = .insert b i ∧ (s.lanes i).pc.locked = true ∧
        step cfg s (.worker i c) = some s') ∨ s.waits := by
  have hx := MainPc.not_exited h
  have hmain : (mainStep cfg s .proceed).isSome = true →
      ∃ s', step cfg s (.main .proceed) = some s' := by
    intro hsome
    obtain ⟨s', hstep⟩ := Option.isSome_iff_exists.mp hsome
    exact ⟨s', by simp [step, hx, hstep]⟩
  cases hpc : s.main with
  | create i => exact Or.inl (hmain (by by_cases hi : i < N <;> simp [mainStep, hpc, hi]))
  | blocked e =>
    cases hsock : s.socket with
    | nil => exact Or.inr (Or.inr ⟨⟨e, hpc⟩, hsock⟩)
    | cons d ds => exact Or.inl (hmain (by simp [mainStep, hpc, hsock]))
  | deserialize b => exact Or.inl (hmain (by simp [mainStep, hpc, deserializeSensorData]))
  | checkType b =>
    refine Or.inl (hmain ?_)
    by_cases ht : (recordIn cfg s.heap b).hdr.type = protoSensorData <;> simp [mainStep, hpc, ht]
  | checkSensor b =>
    refine Or.inl (hmain ?_)
    by_cases hi : (recordIn cfg s.heap b).hdr.sensorId.toNat ≥ N <;> simp [mainStep, hpc, hi]
  | insert b i =>
    cases hlock : (s.lanes i).pc.locked with
    | false => exact Or.inl (hmain (by simp [mainStep, hpc, hlock]))
    | true =>
      obtain ⟨hrun, hawake⟩ := WorkerPc.locked_running hlock
      obtain ⟨c, s', hstep⟩ := workerStep_enabled hr hlib hx i hrun hawake
      exact Or.inr (Or.inl ⟨b, i, c, s', rfl, hlock, hstep⟩)
  | storeDone => rw [hpc] at h; cases h
  | broadcast i => rw [hpc] at h; cases h
  | join i => rw [hpc] at h; cases h
  | report => rw [hpc] at h; cases h
  | cleanUp path ops => rw [hpc] at h; cases h
  | exited path => rw [hpc] at h; cases h
  | _ => exact Or.inl (hmain (by simp [mainStep, hpc]))

theorem Serving.waits {cfg : Config} {s : State N} (h : Serving cfg s) :
    ∃ as t, (∀ a ∈ as, Action.helps a = true) ∧
      Runs.exec (step cfg) s as = some t ∧ Serving cfg t ∧ t.waits := by
  refine Runs.exec_reaches (μ := State.toWait) ?_ s h
  intro s h hnot
  have hlib : s.Blocking cfg.lib :=
    fun i => (h.blocking i).mono (h.reachable.inserted_le_arrived i)
  rcases serves_enabled h.reachable hlib h.serves with ⟨s', hstep⟩ |
    ⟨b, i, c, s', hpc, hlock, hstep⟩ | hwaits
  · cases step_move hstep with
    | main c s' hm =>
      obtain ⟨hlt, hk⟩ := hm.toWait_lt h.serves h.running
      have hwords : s'.arrivedFor = s.arrivedFor := by
        unfold State.arrivedFor
        rw [hm.arrived]
      refine ⟨.main .proceed, s', rfl, hstep, ⟨h.reachable.after hstep,
        hm.unharmed h.unharmed MainChoice.noConfusion, hk, ?_, ?_⟩, hlt⟩
      · rw [hwords]
        exact h.counts
      · rw [hwords]
        exact h.blocking
  · cases step_move hstep with
    | worker i c l fr hw =>
      have hunharmed := (step_move hstep).unharmed h.unharmed (by simp)
      refine ⟨.worker i c, _, rfl, hstep, ⟨h.reachable.after hstep, hunharmed, h.running, h.counts,
        h.blocking⟩, ?_⟩
      have hlt := hw.hold_lt hlock
      simp only [State.toWait, onLane_main, hpc, onLane_self]
      show 15 * s.socket.length + _ < _
      omega
  · exact absurd hwaits hnot

/-! ## the stop, and the way out -/

/-- a handler that runs in a waiting main wakes it, and main goes on to the store of the flag -/
theorem Serving.interrupted {cfg : Config} {s : State N} (h : Serving cfg s) (hw : s.waits) :
    ∃ t, Runs.exec (step cfg) s [.signal .sigint .main, .main .eintr, .main .proceed,
        .main .proceed] = some t ∧ Reachable cfg t ∧ t.Unharmed ∧ t.main.stored = true ∧
      t.socket = [] := by
  obtain ⟨⟨e, hpc⟩, hsock⟩ := hw
  let s1 : State N := s.signalHandler .main
  let s2 : State N := s1.next ⟨.interrupted, false⟩
  let s3 : State N := { s2 with main := .storeDone }
  let t : State N := { s3 with done := true, main := .broadcast 0 }
  have hpc1 : s1.main = .blocked true := by
    show (if (Thread.main : Thread N) = .main then s.main.interrupt else s.main) = _
    rw [if_pos rfl, hpc]
    rfl
  have h1 : step cfg s (.signal .sigint .main) = some s1 := by
    simp [step, hpc, MainPc.isExited, State.takes, s1]
  have h2 : step cfg s1 (.main .eintr) = some s2 := by
    simp only [step, mainStep, hpc1, MainPc.isExited, Bool.false_eq_true, if_false]
    rfl
  have h3 : step cfg s2 (.main .proceed) = some s3 := rfl
  have h4 : step cfg s3 (.main .proceed) = some t := rfl
  have hrun : Runs.exec (step cfg) s [.signal .sigint .main, .main .eintr, .main .proceed,
      .main .proceed] = some t := by
    exact Runs.exec_cons_some.mpr ⟨s1, h1, Runs.exec_cons_some.mpr ⟨s2, h2,
      Runs.exec_cons_some.mpr ⟨s3, h3, Runs.exec_single h4⟩⟩⟩
  have hr : Reachable cfg t := (((h.reachable.after h1).after h2).after h3).after h4
  have hunharmed : s2.Unharmed :=
    State.Unharmed.next ((step_move h1).unharmed h.unharmed (by simp)) rfl
  exact ⟨t, hrun, hr, ⟨hunharmed.calloc, rfl⟩, rfl, hsock⟩

theorem Move.socket {cfg : Config} {s s' : State N} {a : Action N} (h : Move cfg s a s')
    (ha : ∀ d, a ≠ .arrive d) (hs : s.socket = []) : s'.socket = [] := by
  cases h with
  | main c s' hm =>
    cases hm
    case message e d ds hpc hsock hd =>
      rw [hs] at hsock
      cases hsock
    case short e d ds hpc hsock hd =>
      rw [hs] at hsock
      cases hsock
    case release path op ops hpc => cases op <;> exact hs
    all_goals exact hs
  | arrive d => exact absurd rfl (ha d)
  | _ => exact hs

theorem Closing.exits {cfg : Config} {s : State N} (h : Closing cfg s) (hs : s.Unharmed)
    (hsock : s.socket = []) :
    ∃ as t, (∀ a ∈ as, Action.isOwn a = true ∧ a ≠ .main .fail) ∧
      Runs.exec (step cfg) s as = some t ∧ Reachable cfg t ∧ t.Unharmed ∧ t.socket = [] ∧
      t.main = .exited .shutDown := by
  have hprog : ∀ s : State N, (Closing cfg s ∧ s.Unharmed ∧ s.socket = []) →
      ¬ s.main.isExited = true → ∃ a s', (Action.isOwn a = true ∧ a ≠ .main .fail) ∧
        step cfg s a = some s' ∧ (Closing cfg s' ∧ s'.Unharmed ∧ s'.socket = []) ∧
        s'.toExit cfg < s.toExit cfg := by
    rintro s ⟨h, hs, hsock⟩ hx
    obtain ⟨a, s', ha, hnot, hstep⟩ := h.progress (Bool.eq_false_of_not_eq_true hx)
    have hmove := step_move hstep
    refine ⟨a, s', ⟨ha, hnot⟩, hstep, ⟨h.after hstep, hmove.unharmed hs hnot, ?_⟩,
      h.toExit_lt hstep ha⟩
    exact hmove.socket (by rintro d rfl; cases ha) hsock
  obtain ⟨as, t, hown, hrun, ⟨hclosing, hunharmed, hsock⟩, hx⟩ :=
    Runs.exec_reaches hprog s ⟨h, hs, hsock⟩
  exact ⟨as, t, hown, hrun, hclosing.reachable, hunharmed, hsock,
    MainPc.exited_of_notFailed hx hunharmed.path⟩

/-- an action that takes nothing from outside, and no failing call of main -/
def Action.isSmooth : Action N → Bool
  | .main .fail | .arrive _ => false
  | _ => true

theorem Action.isSmooth_of_helps {a : Action N} (h : a.helps = true) : a.isSmooth = true := by
  cases a with
  | main c => cases c <;> first | rfl | cases h
  | arrive d => cases h
  | _ => rfl

theorem Action.isSmooth_of_isOwn {a : Action N} (h : a.isOwn = true) (hnot : a ≠ .main .fail) :
    a.isSmooth = true := by
  cases a with
  | main c => cases c <;> first | rfl | exact absurd rfl hnot
  | arrive d => cases h
  | _ => rfl

theorem exec_arrived {cfg : Config} {s t : State N} {as : List (Action N)}
    (h : Runs.exec (step cfg) s as = some t) (has : ∀ a ∈ as, Action.isSmooth a = true) :
    t.arrived = s.arrived := by
  refine Runs.exec_invariant_of (I := fun t : State N => t.arrived = s.arrived) ?_ h
    (Runs.meets_of_forall has s) rfl
  intro s1 a s2 hs ha hstep
  rw [(step_move hstep).arrived, hs]
  cases a with
  | arrive d => cases ha
  | _ => exact List.append_nil _

/-- a process that serves can exit the normal way, with all received that had arrived -/
theorem Serving.completes {cfg : Config} {s : State N} (h : Serving cfg s) :
    ∃ as t, (∀ a ∈ as, Action.isSmooth a = true) ∧ Runs.exec (step cfg) s as = some t ∧
      t.Unharmed ∧ t.main = .exited .shutDown ∧ t.receivedDatagrams = s.arrived := by
  obtain ⟨as, s1, hhelps, hwait, hserving, hwaits⟩ := h.waits
  obtain ⟨s2, hstop, hr, hunharmed, hstored, hsock⟩ := hserving.interrupted hwaits
  have hle : ∀ i, (s2.lanes i).inserted.length ≤ (s1.arrivedFor i).length := by
    intro i
    have hsame : s2.arrived = s1.arrived := exec_arrived hstop (by simp [Action.isSmooth])
    rw [State.arrivedFor, ← hsame]
    exact hr.inserted_le_arrived i
  have hclosing : Closing cfg s2 := ⟨hr, hstored, fun i => (hserving.counts i).mono (hle i),
    fun i => (hserving.blocking i).mono (hle i)⟩
  obtain ⟨bs, t, hown, hexit, -, hunharmed, hsock, hpc⟩ := hclosing.exits hunharmed hsock
  have hsmooth : ∀ a ∈ as ++ ([.signal .sigint .main, .main .eintr, .main .proceed,
      .main .proceed] ++ bs), Action.isSmooth a = true := by
    intro a ha
    rcases List.mem_append.mp ha with hwait | ha
    · exact Action.isSmooth_of_helps (hhelps a hwait)
    rcases List.mem_append.mp ha with hstop | hexit
    · simp only [List.mem_cons, List.not_mem_nil, or_false] at hstop
      rcases hstop with rfl | rfl | rfl | rfl <;> rfl
    · exact Action.isSmooth_of_isOwn (hown a hexit).1 (hown a hexit).2
  have hrun := Runs.exec_append_some.mpr ⟨s1, hwait, Runs.exec_append_some.mpr ⟨s2, hstop, hexit⟩⟩
  refine ⟨_, t, hsmooth, hrun, hunharmed, hpc, ?_⟩
  have harrived := exec_arrived hrun hsmooth
  rw [← harrived, State.arrived, State.inHand, hpc, hsock]
  exact (List.append_nil _).symm

end Server
end SensorSimulator
