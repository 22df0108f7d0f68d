import SensorSimulator.ClientThreads
import SensorSimulator.Lib.Termination

/-!
# The client process comes to its end

* `Sensor.work`      how many calls of `handle_server` have still to come through;
* `Action.getsOn`    a step of main, or a call of a thread that comes through; `Action.logFails`, a log
                     call that does not get the time;
* `State.toExit`     the measure: the first lower it, the second raise it by one;
* `client_ends`      how long a run is, that it never stands still, and that it can come to its exit.
-/

namespace SensorSimulator

/-! ## a thread -/

/-- the iteration is counted by the calls it has left -/
def Sensor.work (t : Sensor) : Nat :=
  2 * t.thread.packetsPerThread.toNat + (if t.logging.isNone then 1 else 0)

/-- the counter is not below 0, and above it in the middle of an iteration -/
structure Sensor.Counting (t : Sensor) : Prop where
  nonneg : 0 ≤ t.thread.packetsPerThread
  pos : t.logging.isSome = true → 0 < t.thread.packetsPerThread

/-- the calls of the step do not fail -/
def SensorChoice.comesThrough (params : ClientThreadParams) : SensorChoice → Bool
  | .send out => out.number.isSome
  | .log out => !params.logsFilesFlag || out.clock.text.isSome

/-- the log call does not get the time -/
def SensorChoice.logFails (params : ClientThreadParams) : SensorChoice → Bool
  | .send _ => false
  | .log out => params.logsFilesFlag && out.clock.text.isNone

theorem logPhase_counter (o : ByteOrder) (params : ClientThreadParams) (out : LogOutcome)
    (data : PackedData) (t : ClientThread) :
    (logPhase o params out data t).packetsPerThread = t.packetsPerThread -
      (if !params.logsFilesFlag || out.clock.text.isSome then 1 else 0) := by
  unfold logPhase
  cases params.logsFilesFlag with
  | false => rfl
  | true =>
    unfold logClientSensorData
    rw [logSensorData_some]
    cases out.clock.text with
    | none => exact (Int.sub_zero _).symm
    | some time => rfl

/-- a step of a thread: the calls that come through bring it on, the others do not, and a log call
that fails has it send again -/
theorem Sensor.step_work {o : ByteOrder} {params : ClientThreadParams} {t t' : Sensor}
    {c : SensorChoice} {ds : List (List UInt8)} (ht : t.Counting)
    (h : t.step o params c = some (t', ds)) : t'.Counting ∧
      (c.comesThrough params = true → t'.work < t.work) ∧
      (c.logFails params = true → t'.work ≤ t.work + 1) ∧
      (c.comesThrough params = false → c.logFails params = false → t'.work ≤ t.work) := by
  have hnonneg := ht.nonneg
  unfold Sensor.step at h
  split at h
  · rename_i out hpc
    split at h
    · cases h
    rename_i hp
    have hpos : 0 < t.thread.packetsPerThread := by omega
    have hsend := sendPhase_spec o params out
    cases hn : out.number with
    | some number =>
      rw [hn] at hsend
      rw [show sendPhase o params out = _ from hsend] at h
      cases h
      refine ⟨⟨hnonneg, fun _ => hpos⟩, fun _ => ?_, fun h => Bool.noConfusion h, fun h => ?_⟩
      · simp [Sensor.work, hpc, ClientThread.sent]
      · simp [SensorChoice.comesThrough, hn] at h
    | none =>
      rw [hn] at hsend
      obtain ⟨events, he, -⟩ := hsend
      rw [he] at h
      cases h
      refine ⟨⟨hnonneg, fun h => Bool.noConfusion h⟩, fun h => ?_, fun h => Bool.noConfusion h,
        fun _ _ => ?_⟩
      · simp [SensorChoice.comesThrough, hn] at h
      · simp [Sensor.work, hpc, ClientThread.sent]
  · rename_i data out hpc
    cases h
    have hpos := ht.pos (by rw [hpc]; rfl)
    have hcounter := logPhase_counter o params out data t.thread
    have hwork : t.work = 2 * t.thread.packetsPerThread.toNat := by
      simp [Sensor.work, hpc]
    rw [hwork]
    unfold SensorChoice.comesThrough SensorChoice.logFails Sensor.work
    by_cases hc : (!params.logsFilesFlag || out.clock.text.isSome) = true
    · rw [if_pos hc] at hcounter
      dsimp only
      rw [hcounter, Option.isNone_none, if_pos rfl]
      refine ⟨⟨?_, fun h => Bool.noConfusion h⟩, fun _ => ?_, fun _ => ?_, fun _ _ => ?_⟩
      · rw [hcounter]
        omega
      all_goals omega
    · rw [if_neg hc, Int.sub_zero] at hcounter
      dsimp only
      rw [hcounter, Option.isNone_none, if_pos rfl]
      refine ⟨⟨?_, fun h => Bool.noConfusion h⟩, fun h => absurd h hc, fun _ => Nat.le_refl _,
        fun _ h => ?_⟩
      · rw [hcounter]
        exact hnonneg
      · cases hf : params.logsFilesFlag <;> cases ht : out.clock.text <;> simp [hf, ht] at hc h
  · cases h

namespace Client

variable {N : Nat} {p : ClientProcess}

/-! ## the process -/

/-- what a thread that has not ended has still to do; its return is one step -/
def Lane.work (l : Lane) : Nat := if l.pc = .ended then 0 else l.sensor.work + 1

/-- the steps that main has still to take -/
def MainPc.toExit (N : Nat) : MainPc → Nat
  | .create i => (N - i) + 2 * N + 5
  | .join i => (N - i) + N + 4
  | .closeSocket _ => N + 3
  | .closeLogs _ i _ => (N - i) + 2
  | .exited _ => 0

def State.toExit (s : State N) : Nat := s.main.toExit N + ∑ i, (s.lanes i).work

/-- a step of main, or of a thread whose calls come through -/
def Action.getsOn (p : ClientProcess) : Action N → Bool
  | .main _ => true
  | .thread i (.call c) => c.comesThrough (p.threadParams i)
  | .thread _ .ret => true

/-- a log call that does not get the time -/
def Action.logFails (p : ClientProcess) : Action N → Bool
  | .thread i (.call c) => c.logFails (p.threadParams i)
  | _ => false

structure Running (p : ClientProcess) (s : State N) : Prop where
  sound : Sound p s
  counting : ∀ i, (s.lanes i).sensor.Counting

theorem onLane_work (s : State N) (i : Fin N) (f : Lane → Lane) :
    (∑ j, ((s.onLane i f).lanes j).work) + (s.lanes i).work =
      (∑ j, (s.lanes j).work) + (f (s.lanes i)).work :=
  Places.sum_update Lane.work s.lanes i (f (s.lanes i))

theorem init_running (hpos : 0 ≤ p.packetsPerSensor) : Running p (init p N) where
  sound := init_sound p
  counting _ := ⟨hpos, fun h => Bool.noConfusion h⟩

theorem MainMove.sensors {s s' : State N} {c : MainChoice} (h : MainMove p s c s') (j : Fin N) :
    (s'.lanes j).sensor = (s.lanes j).sensor := by
  have hsame : ∀ i (f : Lane → Lane), (∀ l, (f l).sensor = l.sensor) →
      ((s.onLane i f).lanes j).sensor = (s.lanes j).sensor := fun i f hf =>
    (Function.forall_update_iff s.lanes fun j l => l.sensor = (s.lanes j).sensor).mpr
      ⟨hf _, fun _ _ => rfl⟩ j
  cases h with
  | create i hpc hi => exact hsame _ Lane.create fun _ => rfl
  | closeLogsFile failed i errorFlag c hpc hon hi => exact hsame _ Lane.closeLogsFile fun _ => rfl
  | _ => rfl

theorem Running.after {s s' : State N} {a : Action N} (hs : Running p s)
    (h : step p s a = some s') : Running p s' := by
  refine ⟨hs.sound.after h, fun j => ?_⟩
  obtain ⟨ds, hmove⟩ := step_move h
  cases hmove with
  | main c s' hm =>
    rw [hm.sensors j]
    exact hs.counting j
  | call i c t ds hpc hx ht =>
    exact (Function.forall_update_iff s.lanes fun _ l => l.sensor.Counting).mpr
      ⟨(Sensor.step_work (hs.counting i) ht).1, fun k _ => hs.counting k⟩ j
  | ret i =>
    refine (Function.forall_update_iff s.lanes fun _ l => l.sensor.Counting).mpr
      ⟨?_, fun k _ => hs.counting k⟩ j
    exact hs.counting i

/-! ## the measure -/

theorem MainMove.toExit_lt {s s' : State N} {c : MainChoice} (hs : Running p s)
    (h : MainMove p s c s') : s'.toExit < s.toExit := by
  unfold State.toExit
  cases h
  case create i hpc hi =>
    have hnew := (hs.sound.lanes ⟨i, hi⟩).notCreated.mpr (by rw [hpc]; exact Nat.le_refl i)
    have hwork : (Lane.create (s.lanes ⟨i, hi⟩)).work = (s.lanes ⟨i, hi⟩).work := by
      simp [Lane.work, Lane.create, hnew]
    have hsum := onLane_work s ⟨i, hi⟩ Lane.create
    simp only [hpc, MainPc.toExit]
    omega
  case closeLogsFile failed i errorFlag hpc hon hi =>
    have hwork : (Lane.closeLogsFile (s.lanes ⟨i, hi⟩)).work = (s.lanes ⟨i, hi⟩).work := rfl
    have hsum := onLane_work s ⟨i, hi⟩ Lane.closeLogsFile
    simp only [hpc, MainPc.toExit, closeLogsFile_lanes]
    omega
  all_goals
    simp only [*, MainPc.toExit, closeSocket_lanes, exit_lanes, exit_main]
    omega

theorem Move.toExit {s s' : State N} {a : Action N} {ds : List (List UInt8)} (hs : Running p s)
    (h : Move p s a s' ds) :
    (a.getsOn p = true → s'.toExit < s.toExit) ∧
      (a.logFails p = true → s'.toExit ≤ s.toExit + 1) ∧
      (a.getsOn p = false → a.logFails p = false → s'.toExit ≤ s.toExit) := by
  cases h with
  | main c s' hm =>
    exact ⟨fun _ => hm.toExit_lt hs, fun h => Bool.noConfusion h, fun h => Bool.noConfusion h⟩
  | call i c t ds hpc hx ht =>
    obtain ⟨-, hlt, hadd, hle⟩ := Sensor.step_work (hs.counting i) ht
    have hsum := onLane_work s i (Lane.call t)
    have hold : (s.lanes i).work = (s.lanes i).sensor.work + 1 := by
      simp [Lane.work, hpc]
    have hnew : (Lane.call t (s.lanes i)).work = t.work + 1 := by
      simp [Lane.work, Lane.call, hpc]
    have hmain : (s.onLane i (Lane.call t)).main = s.main := rfl
    unfold State.toExit
    rw [hmain]
    refine ⟨fun h => ?_, fun h => ?_, fun h h' => ?_⟩
    · have := hlt h
      omega
    · have := hadd h
      omega
    · have := hle h h'
      omega
  | ret i hpc hx hlog h0 =>
    have hsum := onLane_work s i Lane.ret
    have hold : (s.lanes i).work = (s.lanes i).sensor.work + 1 := by
      simp [Lane.work, hpc]
    have hnew : (s.lanes i).ret.work = 0 := rfl
    have hmain : (s.onLane i Lane.ret).main = s.main := rfl
    unfold State.toExit
    rw [hmain]
    exact ⟨fun _ => by omega, fun h => Bool.noConfusion h, fun h => Bool.noConfusion h⟩

theorem Running.toExit {s s' : State N} {a : Action N} (hs : Running p s)
    (h : step p s a = some s') :
    (a.getsOn p = true → s'.toExit < s.toExit) ∧
      (a.logFails p = true → s'.toExit ≤ s.toExit + 1) ∧
      (a.getsOn p = false → a.logFails p = false → s'.toExit ≤ s.toExit) := by
  obtain ⟨ds, hmove⟩ := step_move h
  exact hmove.toExit hs

/-! ## it goes on to its end -/

theorem thread_progress {s : State N} (i : Fin N) (hpc : (s.lanes i).pc = .running)
    (hx : s.main.isExited = false) :
    ∃ c s', Action.getsOn p (.thread i c) = true ∧ step p s (.thread i c) = some s' := by
  have hstep : ∀ c, (threadStep p s i c).isSome = true →
      ∃ s', step p s (.thread i c) = some s' := by
    intro c hc
    obtain ⟨r, hr⟩ := Option.isSome_iff_exists.mp hc
    exact ⟨r.1, by simp [step, send, hx, hr]⟩
  cases hlog : (s.lanes i).sensor.logging with
  | some data =>
    let c : ThreadChoice := .call (.log ⟨⟨true, true, .ok "now"⟩, true, true⟩)
    obtain ⟨s', hs'⟩ := hstep c (by
      simp [c, threadStep, hpc, Sensor.step, hlog])
    exact ⟨c, s', Bool.or_true _, hs'⟩
  | none =>
    by_cases h0 : (s.lanes i).sensor.thread.packetsPerThread = 0
    · obtain ⟨s', hs'⟩ := hstep .ret (by simp [threadStep, hpc, hlog, h0])
      exact ⟨.ret, s', rfl, hs'⟩
    · let c : ThreadChoice := .call (.send ⟨some 0, .success, .sent (Fin.last _)⟩)
      obtain ⟨s', hs'⟩ := hstep c (by
        simp [c, threadStep, hpc, Sensor.step, hlog, h0])
      exact ⟨c, s', rfl, hs'⟩

/-- main can go on, or the thread that it waits for -/
theorem Running.progress {s : State N} (hs : Running p s) (hx : s.main.isExited = false) :
    ∃ a s', Action.getsOn p a = true ∧ a ≠ .main .fail ∧ step p s a = some s' := by
  have hmain : (mainStep p s .proceed).isSome = true →
      ∃ a s', Action.getsOn p a = true ∧ a ≠ .main .fail ∧ step p s a = some s' := by
    intro hsome
    obtain ⟨s', hstep⟩ := Option.isSome_iff_exists.mp hsome
    exact ⟨.main .proceed, s', rfl, by simp, by simp [step, send, hx, hstep]⟩
  cases hpc : s.main with
  | create i =>
    by_cases hi : i < N <;> exact hmain (by simp [mainStep, hpc, hi])
  | join i =>
    by_cases hi : i < N
    · cases hlane : (s.lanes ⟨i, hi⟩).pc with
      | notCreated =>
        have hcreated := (hs.sound.lanes ⟨i, hi⟩).notCreated.mp hlane
        rw [hpc] at hcreated
        exact absurd hcreated (Nat.not_le.mpr hi)
      | running =>
        obtain ⟨c, s', hc, hstep⟩ := thread_progress ⟨i, hi⟩ hlane hx
        exact ⟨.thread ⟨i, hi⟩ c, s', hc, by simp, hstep⟩
      | ended => exact hmain (by simp [mainStep, hpc, hi, hlane])
    · exact hmain (by simp [mainStep, hpc, hi])
  | closeSocket failed => cases failed <;> exact hmain (by simp [mainStep, hpc])
  | closeLogs failed i errorFlag =>
    apply hmain
    unfold mainStep
    rw [hpc]
    dsimp only
    split <;> rfl
  | exited path =>
    rw [hpc] at hx
    cases hx

theorem client_terminates : Runs.Terminates (step (N := N) p) (Running p)
    (fun s => s.main.isExited = true) State.toExit (Action.getsOn p) (Action.logFails p) 1 where
  inv _ _ _ hs hstep := hs.after hstep
  lt _ _ _ hs hstep := (Running.toExit hs hstep).1
  add _ _ _ hs hstep := (Running.toExit hs hstep).2.1
  le _ _ _ hs hstep := (Running.toExit hs hstep).2.2
  progress s hs hx := by
    obtain ⟨a, s', ha, -, hstep⟩ := hs.progress (Bool.eq_false_of_not_eq_true hx)
    exact ⟨a, s', ha, hstep⟩

/-- **The client comes to its end.**  A run goes on for as many steps of main and calls that come
through as are left to do, and as many more as log calls have failed.  It never stands still before
main has exited: a run that cannot go on so has exited.  And it can be brought to its exit without
another failure. -/
theorem client_ends (hpos : 0 ≤ p.packetsPerSensor) {s : State N} (hr : Reachable p s) :
    (∀ as t, Runs.exec (step p) s as = some t →
      as.countP (Action.getsOn p) ≤ s.toExit + as.countP (Action.logFails p)) ∧
    (∀ as t, Runs.exec (step p) s as = some t →
      (∀ a, Action.getsOn p a = true → step p t a = none) → t.main.isExited = true) ∧
    ∃ as t, (∀ a ∈ as, Action.getsOn p a = true ∧ a ≠ .main .fail) ∧
      Runs.exec (step p) s as = some t ∧ t.main.isExited = true := by
  have hterm := client_terminates (N := N) (p := p)
  have hs : Running p s := by
    obtain ⟨as, hrun⟩ := hr
    exact Runs.exec_invariant hterm.inv hrun (init_running hpos)
  refine ⟨fun as t hrun => ?_, fun as t hrun hnone => hterm.maximal hs hrun hnone, ?_⟩
  · have hbound := hterm.bounded hs hrun
    omega
  · obtain ⟨as, t, hown, hrun, -, hx⟩ := hterm.completes_by (fun s hs hx => by
      obtain ⟨a, s', ha, hnot, hstep⟩ := hs.progress (Bool.eq_false_of_not_eq_true hx)
      exact ⟨a, s', ⟨ha, hnot⟩, hstep⟩) hs
    exact ⟨as, t, hown, hrun, hx⟩

theorem client_ends_onePacket : onePacket.countP (Action.getsOn oneSensor) ≤
    (init oneSensor 1).toExit + onePacket.countP (Action.logFails oneSensor) :=
  (client_ends (by decide) ⟨[], rfl⟩).1 onePacket afterOnePacket exec_onePacket

end Client
end SensorSimulator
