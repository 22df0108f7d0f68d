import SensorSimulator.Server.Exits
import SensorSimulator.Server.ShutDown

/-!
# The process exits as serverMain does

`serverMain` is main in one piece, on what its calls come back with; in `Server.State` main is one
thread among others, in steps.

* `serverMain_code`     when `serverMain` exits with success;
* `State.agrees out`    a step in which a thread call comes back as in `out`;
* `Led`                 how the calls have led main to where it stands;
* `serverMain_exit`     in every run whose thread calls come back so, `serverMain` takes the way out of
                        the process.
-/

namespace SensorSimulator
namespace Server
open Resources

variable {N : Nat}

/-! ## serverMain -/

theorem ExitPath.Taken.unique {out : ServerOutcomes} {path path' : ExitPath}
    (h : path.Taken N out) (h' : path'.Taken N out) : path = path' := by
  -- of two first failures of a loop neither is before the other
  have hfirst : ∀ {call : Nat → Bool} {i j : Nat}, (∀ k < i, call k = true) → call i = false →
      (∀ k < j, call k = true) → call j = false → i = j := by
    intro call i j hi hfi hj hfj
    rcases Nat.lt_trichotomy i j with hlt | heq | hlt
    · cases hfi.symm.trans (hj i hlt)
    · exact heq
    · cases hfj.symm.trans (hi j hlt)
  cases path with
  | createFailure i =>
    obtain ⟨hi, hbefore, hfail⟩ := h
    cases path' with
    | createFailure j => rw [hfirst hbefore hfail h'.2.1 h'.2.2]
    | joinFailure j => cases hfail.symm.trans (h'.1 i hi)
    | shutDown => cases hfail.symm.trans (h'.1 i hi)
  | joinFailure i =>
    obtain ⟨hall, hi, hbefore, hfail⟩ := h
    cases path' with
    | createFailure j => cases h'.2.2.symm.trans (hall j h'.1)
    | joinFailure j => rw [hfirst hbefore hfail h'.2.2.1 h'.2.2.2]
    | shutDown => cases hfail.symm.trans (h'.2 i hi)
  | shutDown =>
    cases path' with
    | createFailure j => cases h'.2.2.symm.trans (h.1 j h'.1)
    | joinFailure j => cases h'.2.2.2.symm.trans (h.2 j h'.2.1)
    | shutDown => rfl

/-- no `close` and no `fclose` of the shut-down fails -/
def ClosesAll (N : Nat) (out : ServerOutcomes) : Prop :=
  out.close = true ∧ (out.logsFilesFlag = true → ∀ i < N, out.fclose i = true)

theorem serverShutDown_code {out : ServerOutcomes} {logsFiles : Option LogsFiles} {queues : Queues}
    (hstatus : (SensorSimulator.closeLogsFiles N out.logsFilesFlag logsFiles out.fclose).status =
      .error ↔ out.logsFilesFlag = true ∧ ∃ i < N, out.fclose i = false) :
    (serverShutDown N out logsFiles queues).1 = .success ↔
      (∀ i < N, out.join i = true) ∧ ClosesAll N out := by
  unfold serverShutDown ClosesAll
  dsimp only
  by_cases hjoin : joinThreads out.join N = .error
  · rw [if_pos hjoin]
    exact iff_of_false ExitCode.noConfusion fun h => (joinThreads_error _ N).mp hjoin h.1
  rw [if_neg hjoin]
  have hjoins : ∀ i < N, out.join i = true := by
    by_contra hfail
    exact hjoin ((joinThreads_error _ N).mpr hfail)
  by_cases hclose : (closeSocket out.close).1 = .error
  · rw [if_pos hclose]
    refine iff_of_false ExitCode.noConfusion fun h => ?_
    cases h.2.1.symm.trans ((closeSocket_error _).mp hclose)
  rw [if_neg hclose]
  have hclosed : out.close = true := by
    cases hc : out.close with
    | true => rfl
    | false => exact absurd ((closeSocket_error _).mpr hc) hclose
  by_cases hlogs :
      (SensorSimulator.closeLogsFiles N out.logsFilesFlag logsFiles out.fclose).status = .error
  · rw [if_pos hlogs]
    obtain ⟨hon, i, hi, hfail⟩ := hstatus.mp hlogs
    refine iff_of_false ExitCode.noConfusion fun h => ?_
    cases hfail.symm.trans (h.2.2 hon i hi)
  · rw [if_neg hlogs]
    refine iff_of_true rfl ⟨hjoins, hclosed, fun hon i hi => ?_⟩
    cases hfail : out.fclose i with
    | true => rfl
    | false => exact absurd (hstatus.mpr ⟨hon, i, hi, hfail⟩) hlogs

theorem serverMain_code {out : ServerOutcomes} (h : out.Starts N) :
    (serverMain N out).1 = .success ↔ ExitPath.shutDown.Taken N out ∧ ClosesAll N out := by
  unfold serverMain
  dsimp only
  rw [if_neg fun herror => (initSignalHandlers_error _ _).mp herror h.signals,
    if_neg (by rw [h.cmdlineParser]; exact Bool.true_eq_false.mp),
    if_neg fun herror => (getCurrentTime_error _ _).mp herror h.clock,
    if_neg (not_not_intro ((validatePort_success _).mpr h.port))]
  obtain ⟨-, ⟨hstatus, -⟩ | ⟨-, -, hcalls⟩⟩ := initServerSocket_spec out.socket
  case inr => exact absurd h.socket hcalls
  rw [if_neg (not_not_intro hstatus)]
  obtain ⟨t, trLogs, -, ⟨-, -, hopen, hclose⟩ | ⟨⟨hflag, i, hi, hfail⟩, -⟩⟩ :=
    logsFiles_contract out.logsFilesFlag N "logs/srv/sensor_%u_server_logs.txt" out.logs
  case inr => exact absurd (h.logs hflag i hi) hfail
  rw [openServerLogsFiles, hopen, if_neg (by simp)]
  obtain ⟨queues, trQueues, -, ⟨-, -, -, hcreate⟩ | ⟨⟨i, hi, hfail⟩, -⟩⟩ :=
    createServerQueues_spec out.queueCreate N
  case inr => cases hfail.symm.trans (h.queues i hi)
  rw [hcreate, if_neg (not_not_intro rfl)]
  unfold initServerThreads ExitPath.Taken
  cases hthreads : turns out.threadCreate N with
  | true =>
    rw [if_pos rfl, if_neg (not_not_intro rfl), and_iff_right ((turns_eq_true _ _).mp hthreads)]
    exact serverShutDown_code (hclose out.fclose).2
  | false =>
    obtain ⟨i, hi, -, hfail⟩ := turns_eq_false _ _ hthreads
    refine iff_of_false ExitCode.noConfusion fun hsuccess => ?_
    cases hfail.symm.trans (hsuccess.1.1 i hi)

/-! ## the process -/

/-- a thread call of main comes back with what it has come back with in `out` -/
def State.agrees (out : ServerOutcomes) (s : State N) : Action N → Bool
  | .main c =>
    match s.main with
    | .create i => !decide (i < N) || decide (c = .proceed) == out.threadCreate i
    | .join i => !decide (i < N) || decide (c = .proceed) == out.join i
    | _ => true
  | _ => true

/-- how the thread calls have led main to where it stands -/
def Led (N : Nat) (out : ServerOutcomes) : MainPc N → Prop
  | .create i => ∀ j < i, out.threadCreate j = true
  | .join i => (∀ j < N, out.threadCreate j = true) ∧ ∀ j < i, out.join j = true
  | .report => ExitPath.shutDown.Taken N out
  | .cleanUp path _ | .exited path => path.Taken N out
  | _ => ∀ j < N, out.threadCreate j = true

theorem MainMove.led {cfg : Config} {out : ServerOutcomes} {s s' : State N} {c : MainChoice}
    (hs : Led N out s.main) (hok : s.agrees out (.main c) = true) (h : MainMove cfg s c s') :
    Led N out s'.main := by
  unfold State.agrees at hok
  dsimp only at hok
  cases h
  case create i hpc hi =>
    rw [hpc] at hs hok
    exact Nat.forall_lt_succ_right.mpr ⟨hs, by simpa [hi] using hok⟩
  case created i hpc hi =>
    rw [hpc] at hs
    exact fun j hj => hs j (Nat.lt_of_lt_of_le hj hi)
  case createFails i hpc hi =>
    rw [hpc] at hs hok
    exact ⟨hi, hs, by simpa [hi] using hok⟩
  case broadcasted i hpc hi =>
    rw [hpc] at hs
    exact ⟨hs, fun j hj => absurd hj (Nat.not_lt_zero j)⟩
  case join i hpc hi he =>
    rw [hpc] at hs hok
    exact ⟨hs.1, Nat.forall_lt_succ_right.mpr ⟨hs.2, by simpa [hi] using hok⟩⟩
  case joined i hpc hi =>
    rw [hpc] at hs
    exact ⟨hs.1, fun j hj => hs.2 j (Nat.lt_of_lt_of_le hj hi)⟩
  case joinFails i hpc hi =>
    rw [hpc] at hs hok
    exact ⟨hs.1, hi, hs.2, by simpa [hi] using hok⟩
  -- the other steps make no thread call
  all_goals
    rw [‹s.main = _›] at hs
    exact hs

theorem Move.led {cfg : Config} {out : ServerOutcomes} {s s' : State N} {a : Action N}
    (hs : Led N out s.main) (hok : s.agrees out a = true) (h : Move cfg s a s') :
    Led N out s'.main := by
  cases h with
  | main c s' hm => exact hm.led hs hok
  | signal sig t ht =>
    show Led N out (if t = .main then s.main.interrupt else s.main)
    split
    · rcases s.main.interrupt_cases with h | ⟨e, he, h⟩
      · rw [h]
        exact hs
      · rw [he] at hs
        rw [h]
        exact hs
    · exact hs
  | _ => exact hs

/-- **The process exits as `serverMain` does.**  For every interleaving: if the thread calls of main
come back as in `out`, whose start-up comes through, then behind it `serverMain` releases what the
process has released on its way out, in that order; and it exits with success exactly when that is
the normal way and no `close` or `fclose` fails. -/
theorem serverMain_exit {cfg : Config} {out : ServerOutcomes} (hstart : out.Starts N)
    (hflag : cfg.logsFilesFlag = out.logsFilesFlag) {s : State N} {as : List (Action N)}
    {path : ExitPath} (h : Runs.exec (step cfg) (init N) as = some s)
    (hok : Runs.Meets (step cfg) (fun s a => s.agrees out a = true) (init N) as)
    (hexit : s.main = .exited path) :
    (∃ tr, Holds (serverHeld N out.logsFilesFlag) tr ∧ (serverMain N out).2 =
      tr ++ (path.releases N out.logsFilesFlag).flatMap CleanUp.events) ∧
    ((serverMain N out).1 = .success ↔ path = .shutDown ∧ ClosesAll N out) ∧
    ∀ op ∈ path.releases N out.logsFilesFlag, op.Done s := by
  have hinit : Led N out (init N).main := fun j hj => absurd hj (Nat.not_lt_zero j)
  have hled : Led N out s.main := Runs.exec_invariant_of (I := fun s => Led N out s.main)
    (fun s a s' hs hok hstep => (step_move hstep).led hs hok) h hok hinit
  rw [hexit] at hled
  have htaken : path.Taken N out := hled
  refine ⟨?_, ?_, ?_⟩
  · obtain ⟨tr, path', hholds, htaken', htrace⟩ := serverMain_exitPath N out hstart
    exact ⟨tr, hholds, by rw [htrace, htaken.unique htaken']⟩
  · rw [serverMain_code hstart]
    refine and_congr_left fun _ => ⟨fun h => htaken.unique h, fun h => ?_⟩
    rw [← h]
    exact htaken
  · have hreleased := Reachable.released ⟨as, h⟩
    unfold Released at hreleased
    rw [hexit, hflag] at hreleased
    exact hreleased

def allSucceed : ServerOutcomes where
  sigterm := true
  sigint := true
  cmdlineParser := true
  clock := ⟨true, true, .ok "now"⟩
  port := 8080
  logsFilesFlag := false
  socket := ⟨true, true, true⟩
  logs := ⟨fun _ => 30, fun _ => true, fun _ => true, fun _ => true⟩
  queueCreate := fun _ => true
  threadCreate := fun _ => true
  join := fun _ => true
  close := true
  fclose := fun _ => true

theorem serverMain_exit_oneMessage : (serverMain 1 allSucceed).1 = .success := by
  have hstart : allSucceed.Starts 1 :=
    ⟨by decide, rfl, rfl, by decide, by decide, fun h => Bool.noConfusion h, fun _ _ => rfl⟩
  have hrun : Runs.exec (step oneSensor) (init 1) (oneMessage ++ List.replicate 7 (.main .proceed)) =
      some afterExit := by
    rw [Runs.exec_append]
    have hfirst : Runs.exec (step oneSensor) (init 1) oneMessage = some afterOneMessage :=
      (Option.some_get _).symm
    rw [hfirst]
    exact (Option.some_get _).symm
  have hexit : afterExit.main = .exited .shutDown := by decide
  obtain ⟨-, hcode, -⟩ := serverMain_exit hstart rfl hrun (by decide) hexit
  exact hcode.mpr ⟨rfl, rfl, fun h => Bool.noConfusion h⟩

end Server
end SensorSimulator
