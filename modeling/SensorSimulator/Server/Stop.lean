import SensorSimulator.Server.Wake

/-!
# A stop request, and how it can be missed

The handler clears `keep_running`.  Main sees it at its next test of the loop; in `recvfrom` it is
woken only by a handler that runs in main itself.  So a request is missed when the handler runs in
a worker while main receives (a worker never blocks `SIGTERM`, nor `SIGINT` before its
`pthread_sigmask`), and when it runs between main's test and its `recvfrom`.

* `State.stuck`           main is in `recvfrom` although it was asked to stop, and nothing wakes it;
* `State.signalOk`        the handler does not run in one of those windows;
* `stop_gets_through`     in runs whose signals are so, main is never stuck and comes to the store
                          of the flag by steps of main and the workers alone;
* `stuck_of_not_signalOk` every other signal leads to a stuck main.
-/

namespace SensorSimulator
namespace Server

variable {N : Nat}

/-- main was asked to stop and is in `recvfrom` with no datagram and no interruption due -/
def State.stuck (s : State N) : Prop :=
  s.keepRunning = false ∧ s.main = .blocked false ∧ s.socket = []

instance (s : State N) : Decidable s.stuck :=
  inferInstanceAs (Decidable (s.keepRunning = false ∧ s.main = .blocked false ∧ s.socket = []))

/-- main is not between its test of `keep_running` and the return of `recvfrom`, or the handler
runs in main while it is in `recvfrom`, or a datagram is waiting, or main was asked to stop
before -/
def State.signalOk (s : State N) : Action N → Bool
  | .signal _ t =>
    match s.main with
    | .receive => !s.keepRunning || !s.socket.isEmpty
    | .blocked _ => !s.keepRunning || !s.socket.isEmpty || decide (t = .main)
    | _ => true
  | _ => true

/-! ## the invariant -/

/-- a main that was asked to stop does not wait in vain -/
def StopSeen (s : State N) : Prop :=
  s.keepRunning = false → s.socket ≠ [] ∨ (s.main ≠ .receive ∧ s.main ≠ .blocked false)

theorem StopSeen.not_stuck {s : State N} (h : StopSeen s) : ¬ s.stuck := by
  rintro ⟨hk, hpc, hsock⟩
  rcases h hk with h | h
  · exact h hsock
  · exact h.2 hpc

theorem Move.keepRunning {cfg : Config} {s s' : State N} {a : Action N} (h : Move cfg s a s')
    (hk : s.keepRunning = false) : s'.keepRunning = false := by
  cases h with
  | main c s' hm =>
    cases hm
    case release path op ops hpc => cases op <;> exact hk
    all_goals exact hk
  | signal sig t ht => rfl
  | _ => exact hk

theorem Move.stopSeen {cfg : Config} {s s' : State N} {a : Action N} (hs : StopSeen s)
    (hok : s.signalOk a = true) (h : Move cfg s a s') : StopSeen s' := by
  cases h with
  | main c s' hm =>
    intro hk'
    cases hm
    case goOn hpc hk =>
      -- main goes on only if it was not asked to stop
      rw [show State.keepRunning _ = s.keepRunning from rfl, hk] at hk'
      cases hk'
    case receive hpc =>
      rcases hs hk' with h | h
      · exact Or.inl h
      · exact absurd hpc h.1
    all_goals exact Or.inr (by constructor <;> intro h <;> cases h)
  | arrive d => exact fun _ => Or.inl (by simp)
  | signal sig t ht =>
    intro _
    by_cases hk : s.keepRunning = false
    · -- main was asked before, and the handler takes it nowhere
      rcases hs hk with h | h
      · exact Or.inl h
      · refine Or.inr ?_
        show (if t = .main then s.main.interrupt else s.main) ≠ _ ∧
          (if t = .main then s.main.interrupt else s.main) ≠ _
        split
        · rcases s.main.interrupt_cases with hi | ⟨e, he, hi⟩
          · rw [hi]
            exact h
          · rw [hi]
            constructor <;> intro h <;> cases h
        · exact h
    · by_cases hsock : s.socket = []
      · refine Or.inr ?_
        show (if t = .main then s.main.interrupt else s.main) ≠ _ ∧
          (if t = .main then s.main.interrupt else s.main) ≠ _
        unfold State.signalOk at hok
        cases hpc : s.main with
        | receive => simp_all
        | blocked e =>
          have ht : t = .main := by simp_all
          rw [if_pos ht]
          constructor <;> intro h <;> cases h
        | _ => split <;> constructor <;> intro h <;> cases h
      · exact Or.inl hsock
  | worker i c l fr hw => exact hs
  | wake i hw => exact hs

/-! ## the way to the store of the flag -/

/-- the steps a worker needs at most to give up the mutex -/
def WorkerPc.hold : WorkerPc → Nat
  | .readSize => 4
  | .readDone _ => 3
  | .remove => 2
  | .leave | .unlock _ => 1
  | _ => 0

theorem WorkerMove.hold_lt {cfg : Config} {done : Bool} {heap : Addr → PackedData} {id : UInt32}
    {l l' : Lane} {fr : List Addr} (h : WorkerMove cfg done heap id l l' fr)
    (hlock : l.pc.locked = true) : l'.pc.hold < l.pc.hold := by
  cases h
  case unlock b hpc =>
    rw [hpc]
    cases cfg.logsFilesFlag <;> exact Nat.zero_lt_one
  all_goals
    simp only [*] at hlock ⊢
    first
    | exact Bool.noConfusion hlock
    | exact Nat.le_of_ble_eq_true rfl

/-- main gave up on the start of the workers -/
def MainPc.startFailed : MainPc N → Bool
  | cleanUp (.createFailure _) _ | exited (.createFailure _) => true
  | _ => false

/-- how far a main that was asked to stop is from the store of the flag -/
def State.toStore (s : State N) : Nat :=
  match s.main with
  | .create i => 17 + (N - i)
  | .receive => 16
  | .blocked _ => 15
  | .allocate => 14
  | .deserialize _ => 13
  | .checkType _ => 12
  | .checkSensor _ => 11
  | .insert _ i => 6 + (s.lanes i).pc.hold
  | .reject _ => 5
  | .clear => 5
  | .test => 4
  | .storeDone => 3
  | _ => 0

def Action.isMain : Action N → Bool
  | .main _ => true
  | _ => false

/-- a reachable state in which main was asked to stop and can see it.  On the way to the store main
inserts once at most: until then the queues are as long as they were. -/
structure Stopping (cfg : Config) (s : State N) : Prop where
  reachable : Reachable cfg s
  seen : StopSeen s
  asked : s.keepRunning = false
  started : s.main.startFailed = false
  blocking : 5 < s.toStore → s.Blocking cfg.lib

theorem WorkerPc.hold_le (pc : WorkerPc) : pc.hold ≤ 4 := by
  cases pc <;> exact Nat.le_of_ble_eq_true rfl

theorem MainMove.toStore_lt {cfg : Config} {s s' : State N} {c : MainChoice}
    (h : MainMove cfg s c s') (hc : c ≠ .fail) (hk : s.keepRunning = false)
    (hstored : s.main.stored = false) (hstart : s.main.startFailed = false) :
    s'.toStore < s.toStore ∧ s'.main.startFailed = false := by
  cases h
  case create i hpc hi =>
    simp only [State.toStore, hpc, MainPc.startFailed, and_true]
    omega
  case goOn hpc hk' =>
    rw [hk] at hk'
    cases hk'
  case rightSensor b hpc hi =>
    have hle := (s.lanes ⟨_, hi⟩).pc.hold_le
    simp only [State.toStore, hpc, MainPc.startFailed, and_true]
    omega
  case insert b i hpc hfree =>
    simp only [State.toStore, hpc, MainPc.startFailed, and_true]
    omega
  case release path op ops hpc =>
    rw [hpc] at hstored hstart
    cases path with
    | createFailure i => cases hstart
    | joinFailure i => cases hstored
    | shutDown => cases hstored
  case exit path hpc =>
    rw [hpc] at hstored hstart
    cases path with
    | createFailure i => cases hstart
    | joinFailure i => cases hstored
    | shutDown => cases hstored
  all_goals
    simp_all [State.toStore, State.next, MainPc.startFailed, MainPc.stored]

/-- main can go on, or it waits for a mutex and the worker that has it can -/
theorem Stopping.enabled {cfg : Config} {s : State N} (h : Stopping cfg s)
    (hstored : s.main.stored = false) :
    (∃ c s', c ≠ .fail ∧ step cfg s (.main c) = some s') ∨
      ∃ b i c s', s.main = .insert b i ∧ (s.lanes i).pc.locked = true ∧
        step cfg s (.worker i c) = some s' := by
  have hmain : ∀ c, c ≠ .fail → (step cfg s (.main c)).isSome = true →
      ∃ c s', c ≠ .fail ∧ step cfg s (.main c) = some s' := fun c hc hs =>
    ⟨c, _, hc, (Option.isSome_iff_exists.mp hs).choose_spec⟩
  cases hpc : s.main with
  | create i =>
    refine Or.inl (hmain .proceed MainChoice.noConfusion ?_)
    by_cases hi : i < N <;> simp [step, mainStep, hpc, MainPc.isExited, hi]
  | blocked e =>
    rcases h.seen h.asked with hsock | ⟨-, hne⟩
    · refine Or.inl (hmain .proceed MainChoice.noConfusion ?_)
      obtain ⟨d, ds, hs⟩ := List.exists_cons_of_ne_nil hsock
      simp [step, mainStep, hpc, MainPc.isExited, hs]
    · have he : e = true := by
        cases e with
        | true => rfl
        | false => exact absurd hpc hne
      refine Or.inl (hmain .eintr MainChoice.noConfusion ?_)
      simp [step, mainStep, hpc, MainPc.isExited, he]
  | checkType b =>
    refine Or.inl (hmain .proceed MainChoice.noConfusion ?_)
    by_cases ht : (recordIn cfg s.heap b).hdr.type = protoSensorData <;>
      simp [step, mainStep, hpc, MainPc.isExited, ht]
  | checkSensor b =>
    refine Or.inl (hmain .proceed MainChoice.noConfusion ?_)
    by_cases hi : (recordIn cfg s.heap b).hdr.sensorId.toNat ≥ N <;>
      simp [step, mainStep, hpc, MainPc.isExited, hi]
  | insert b i =>
    cases hlock : (s.lanes i).pc.locked with
    | false =>
      refine Or.inl (hmain .proceed MainChoice.noConfusion ?_)
      simp [step, mainStep, hpc, MainPc.isExited, hlock]
    | true =>
      obtain ⟨hrun, hawake⟩ := WorkerPc.locked_running hlock
      have hlib : s.Blocking cfg.lib := h.blocking (by simp [State.toStore, hpc]; omega)
      obtain ⟨c, s', hstep⟩ :=
        workerStep_enabled h.reachable hlib (by rw [hpc]; rfl) i hrun hawake
      exact Or.inr ⟨b, i, c, s', rfl, hlock, hstep⟩
  | cleanUp path ops =>
    have hstart := h.started
    rw [hpc] at hstored hstart
    cases path with
    | createFailure i => cases hstart
    | joinFailure i => cases hstored
    | shutDown => cases hstored
  | exited path =>
    have hstart := h.started
    rw [hpc] at hstored hstart
    cases path with
    | createFailure i => cases hstart
    | joinFailure i => cases hstored
    | shutDown => cases hstored
  | broadcast i => rw [hpc] at hstored; cases hstored
  | join i => rw [hpc] at hstored; cases hstored
  | report => rw [hpc] at hstored; cases hstored
  | _ =>
    refine Or.inl (hmain .proceed MainChoice.noConfusion ?_)
    simp [step, mainStep, hpc, MainPc.isExited, deserializeSensorData]

theorem MainMove.inserted {cfg : Config} {s s' : State N} {c : MainChoice}
    (h : MainMove cfg s c s') (hpc' : s'.main ≠ .clear) (i : Fin N) :
    (s'.lanes i).inserted = (s.lanes i).inserted := by
  cases h
  case create k hpc hk =>
    exact onLane_forall (P := fun j l => l.inserted = (s.lanes j).inserted) s ⟨k, hk⟩
      (fun l => { l with pc := .mask }) rfl (fun j _ => rfl) i
  case insert b k hpc hfree => exact absurd rfl hpc'
  case broadcast k hpc hk hfree =>
    exact onLane_forall (P := fun j l => l.inserted = (s.lanes j).inserted) s ⟨k, hk⟩ Lane.wake rfl
      (fun j _ => rfl) i
  case release path op ops hpc =>
    obtain ⟨c, d, hl⟩ := release_lane s op i
    show ((s.release op).lanes i).inserted = _
    rw [hl]
  all_goals rfl

theorem Stopping.reaches_store {cfg : Config} {s : State N} (h : Stopping cfg s) :
    ∃ as t, (∀ a ∈ as, (a.isMain || a.isWorker) = true) ∧
      Runs.exec (step cfg) s as = some t ∧ t.done = true := by
  have hprog : ∀ s : State N, Stopping cfg s → ¬ s.done = true → ∃ a s',
      (Action.isMain a || a.isWorker) = true ∧ step cfg s a = some s' ∧ Stopping cfg s' ∧
        s'.toStore < s.toStore := by
    intro s h hd
    have hstored : s.main.stored = false := by
      rw [← done_eq_stored h.reachable]
      simpa using hd
    have hafter : ∀ (a : Action N) (s' : State N), (Action.isMain a || a.isWorker) = true →
        step cfg s a = some s' → s'.main.startFailed = false →
        (5 < s'.toStore → s'.Blocking cfg.lib) → Stopping cfg s' := by
      intro a s' ha hstep hstart hlib
      have hok : s.signalOk a = true := by cases a <;> first | rfl | cases ha
      exact ⟨h.reachable.after hstep, (step_move hstep).stopSeen h.seen hok,
        (step_move hstep).keepRunning h.asked, hstart, hlib⟩
    rcases h.enabled hstored with ⟨c, s', hc, hstep⟩ | ⟨b, i, c, s', hpc, hlock, hstep⟩
    · cases step_move hstep with
      | main c s' hm =>
        obtain ⟨hlt, hstart⟩ := hm.toStore_lt hc h.asked hstored h.started
        refine ⟨.main c, s', rfl, hstep, hafter _ _ rfl hstep hstart fun hfar => ?_, hlt⟩
        refine (h.blocking (hfar.trans hlt)).congr (hm.inserted fun hpc' => ?_)
        simp [State.toStore, hpc'] at hfar
    · refine ⟨.worker i c, s', rfl, hstep, ?_, ?_⟩
      · have hfar : 5 < s.toStore := by
          simp only [State.toStore, hpc]
          omega
        cases step_move hstep with
        | worker i c l fr hw =>
          refine hafter _ _ rfl hstep h.started fun _ => (h.blocking hfar).congr ?_
          exact onLane_forall (P := fun j l => l.inserted = (s.lanes j).inserted) s i (fun _ => l)
            hw.inserted fun j _ => rfl
      · cases step_move hstep with
        | worker i c l fr hw =>
          have hlt := hw.hold_lt hlock
          simp only [State.toStore, onLane_main, hpc, onLane_self]
          omega
  obtain ⟨as, t, hp, hrun, -, hdone⟩ := Runs.exec_reaches hprog s h
  exact ⟨as, t, hp, hrun, hdone⟩

/-! ## every run -/

/-- **A stop request gets through in the runs whose signals are handled in time:** in none of them
is main ever stuck, and from every state after a request main comes to the store of the flag, with
no other datagram and no other signal. -/
theorem stop_gets_through {cfg : Config} {s : State N} {as : List (Action N)}
    (hrun : Runs.exec (step cfg) (init N) as = some s)
    (hok : Runs.Meets (step cfg) (fun s a => s.signalOk a = true) (init N) as) :
    ¬ s.stuck ∧
    (s.Blocking cfg.lib → s.keepRunning = false → s.main.startFailed = false →
      ∃ bs t, (∀ b ∈ bs, (Action.isMain b || b.isWorker) = true) ∧
        Runs.exec (step cfg) s bs = some t ∧ t.done = true) := by
  have hseen : StopSeen s := by
    refine Runs.exec_invariant_of ?_ hrun hok (fun hk => Bool.noConfusion hk)
    exact fun s a s' hs hok hstep => (step_move hstep).stopSeen hs hok
  refine ⟨hseen.not_stuck, ?_⟩
  intro hlib hk hstart
  exact Stopping.reaches_store ⟨⟨as, hrun⟩, hseen, hk, hstart, fun _ => hlib⟩

/-- the run of one message, up to the signal that is handled at main's test of the loop -/
def stopAsked : State 1 := (Runs.exec (step oneSensor) (init 1) (oneMessage.take 13)).get (by decide)

theorem stop_gets_through_oneMessage : stopAsked.keepRunning = false ∧ stopAsked.done = false ∧
    ¬ stopAsked.stuck ∧ ∃ bs t, (∀ b ∈ bs, (Action.isMain b || b.isWorker) = true) ∧
      Runs.exec (step oneSensor) stopAsked bs = some t ∧ t.done = true := by
  have hrun : Runs.exec (step oneSensor) (init 1) (oneMessage.take 13) = some stopAsked :=
    (Option.some_get _).symm
  obtain ⟨hstuck, hstore⟩ := stop_gets_through hrun (by decide)
  exact ⟨by decide, by decide, hstuck, hstore (State.blocking _) (by decide) (by decide)⟩

/-- `SIGTERM` is handled by the worker while main is blocked in `recvfrom` -/
theorem stop_missed : ∃ (as : List (Action 1)) (s : State 1),
    Runs.exec (step oneSensor) (init 1) as = some s ∧ s.stuck :=
  ⟨[.main .proceed, .worker 0 .go, .main .proceed, .main .proceed, .main .proceed,
    .signal .sigterm (.worker 0)], _, rfl, by decide⟩

/-! ## the other signals -/

theorem Reachable.interrupted {cfg : Config} {s : State N} (h : Reachable cfg s)
    (hpc : s.main = .blocked true) : s.keepRunning = false := by
  refine reachable_invariant
    (I := fun s : State N => s.main = .blocked true → s.keepRunning = false) ?_ ?_ h hpc
  · intro h
    cases h
  · intro s a s' _ hs hm hpc'
    cases hm with
    | main c s' hmain => cases hmain <;> cases hpc'
    | signal sig t ht => rfl
    | _ => exact hs hpc'

/-- a signal handled in one of the two windows leaves main stuck, at once or at its next step -/
theorem stuck_of_not_signalOk {cfg : Config} {s : State N} (h : Reachable cfg s) (sig : Signal)
    (t : Thread N) (hbad : s.signalOk (.signal sig t) = false) (ht : s.takes sig t = true) :
    ∃ as u, as.length ≤ 1 ∧ Runs.exec (step cfg) s (.signal sig t :: as) = some u ∧ u.stuck := by
  unfold State.signalOk at hbad
  cases hpc : s.main with
  | receive =>
    rw [hpc] at hbad
    have hsock : s.socket = [] := by simp_all
    have hm : (if t = .main then s.main.interrupt else s.main) = .receive := by
      rw [hpc]
      split <;> rfl
    have h1 : step cfg s (.signal sig t) = some (s.signalHandler t) := by
      simp [step, hpc, MainPc.isExited, ht]
    have h2 : step cfg (s.signalHandler t) (.main .proceed) =
        some { s.signalHandler t with main := .blocked false } := by
      simp [step, mainStep, State.signalHandler, hm, MainPc.isExited]
    exact ⟨[.main .proceed], _, Nat.le_refl _,
      Runs.exec_cons_some.mpr ⟨_, h1, Runs.exec_single h2⟩, rfl, rfl, hsock⟩
  | blocked e =>
    rw [hpc] at hbad
    have hk : s.keepRunning = true ∧ s.socket = [] ∧ t ≠ .main := by simp_all
    have he : e = false := by
      cases e with
      | false => rfl
      | true =>
        have := h.interrupted hpc
        rw [hk.1] at this
        cases this
    have h1 : step cfg s (.signal sig t) = some (s.signalHandler t) := by
      simp [step, hpc, MainPc.isExited, ht]
    refine ⟨[], s.signalHandler t, Nat.zero_le _, Runs.exec_single h1, rfl, ?_, hk.2.1⟩
    show (if t = .main then s.main.interrupt else s.main) = .blocked false
    rw [if_neg hk.2.2, hpc, he]
  | _ => rw [hpc] at hbad; cases hbad

end Server
end SensorSimulator
