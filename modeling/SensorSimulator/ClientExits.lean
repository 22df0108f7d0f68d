import SensorSimulator.ClientMain
import SensorSimulator.ClientSends
import SensorSimulator.ClientThreads
import SensorSimulator.Lib.Simulation
import SensorSimulator.Server.Exits

/-!
# The exits of the client process, and what is in use there

* `exit_code`            main exits with success exactly when none of its calls has failed; then every
                         thread has returned from `handle_server`, and everything is closed;
* `State.failsQuietly`   a thread call fails only when no thread is running;
* `closes_nothing_in_use`  in the runs whose failures are so, the socket and the log files are closed
                         behind the threads; after any other failure main can close the socket under a
                         thread at once;
* `Released`             what main has released where it stands;
* `clientMain_exit`      `clientMain` takes the way out that the process takes for the same calls.
-/

namespace SensorSimulator
namespace Client

variable {N : Nat} {p : ClientProcess}

/-! ## the exit code -/

/-- some call of main has failed -/
def MainPc.failing : MainPc → Bool
  | .create _ | .join _ => false
  | .closeSocket failed => failed.isSome
  | .closeLogs failed _ errorFlag => failed.isSome || errorFlag
  | .exited path => decide (path.code = .failure)

theorem exitPath_code (failed : Option ThreadFailure) (errorFlag : Bool) :
    decide ((exitPath failed errorFlag).code = .failure) = (failed.isSome || errorFlag) := by
  cases failed with
  | some failed => rfl
  | none => cases errorFlag <;> rfl

theorem MainMove.failing {s s' : State N} {c : MainChoice} (h : MainMove p s c s') :
    s'.main.failing = (s.main.failing || decide (c = .fail)) := by
  cases h
  case create i hpc hi =>
    rw [hpc]
    rfl
  case created i hpc hi =>
    rw [hpc]
    rfl
  case createFails i hpc hi =>
    rw [hpc]
    rfl
  case join i hpc hi he =>
    rw [hpc]
    rfl
  case joined i hpc hi =>
    rw [hpc]
    rfl
  case joinFails i hpc hi =>
    rw [hpc]
    rfl
  case closeFails hpc =>
    rw [hpc]
    rfl
  case close failed hpc hc =>
    rw [hpc]
    cases failed with
    | some failed => rfl
    | none =>
      rw [hc rfl]
      rfl
  case closeLogsFile failed i errorFlag hpc hon hi =>
    rw [hpc]
    exact (Bool.or_assoc _ _ _).symm
  case exit failed i errorFlag hpc hend =>
    rw [hpc]
    exact (exitPath_code failed errorFlag).trans (Bool.or_false _).symm

theorem failing_iff {s : State N} {as : List (Action N)}
    (h : Runs.exec (step p) (init p N) as = some s) :
    s.main.failing = true ↔ .main .fail ∈ as := by
  have hinv := Runs.exec_invariant_acts
    (I := fun s before => s.main.failing = true ↔ .main .fail ∈ before) ?_ [] h
    (iff_of_false Bool.false_ne_true List.not_mem_nil)
  · exact hinv
  intro s before a s' hs hstep
  rw [List.mem_append, List.mem_singleton, ← hs]
  obtain ⟨ds, hmove⟩ := step_move hstep
  cases hmove with
  | main c s' hm =>
    rw [hm.failing, Bool.or_eq_true, decide_eq_true_iff, Action.main.injEq]
    exact or_congr_right eq_comm
  | call i c t ds => exact (or_iff_left (by intro h; cases h)).symm
  | ret i => exact (or_iff_left (by intro h; cases h)).symm

/-- what a thread has done that has returned: it has run `handle_server` to its end -/
structure Returned (p : ClientProcess) (i : Nat) (t : ClientThread) : Prop where
  sentAll : p.packetsPerSensor ≤ (sentOf t.trace).length
  sentEach : p.logsFilesFlag = false → ((sentOf t.trace).length : Int) = p.packetsPerSensor
  ran : ∃ outs, handleServer p.host (p.threadParams i) (.start (p.threadParams i) []) outs = some t

theorem LaneSound.hasReturned {m : MainPc} {i : Nat} {l : Lane} (h : LaneSound p N m i l)
    (hpc : l.pc = .ended) : Returned p i l.sensor.thread := by
  obtain ⟨hlog, h0⟩ := h.returned hpc
  obtain ⟨outs, hrun⟩ := h.loop.returned hlog h0
  refine ⟨?_, fun hoff => ?_, outs, hrun⟩
  · have hlength := handleServer_sent_length _ _ _ _ _ hrun
    have hasked : (p.threadParams i).packetsPerSensor = p.packetsPerSensor := rfl
    omega
  · exact handleServer_sent_length_of_no_logs _ _ _ _ _ hoff hrun

/-- **The exit code.**  In every run that has come to an exit of main, the code is success exactly when
no `pthread_create`, `pthread_join`, `close` or `fclose` of main has failed.  Then every thread has
returned from `handle_server` with as many datagrams sent as asked for, or more if it logs, and the
socket and the log files are closed. -/
theorem exit_code {s : State N} {as : List (Action N)} {path : ExitPath}
    (h : Runs.exec (step p) (init p N) as = some s) (hexit : s.main = .exited path) :
    (path.code = .success ↔ .main .fail ∉ as) ∧
    (path.code = .success → s.socketClosed = true ∧ ∀ i, (s.lanes i).pc = .ended ∧
      (s.lanes i).logsFileClosed = p.logsFilesFlag ∧ Returned p i (s.lanes i).sensor.thread) := by
  have hs : Sound p s := Reachable.sound ⟨as, h⟩
  have hfail := failing_iff h
  rw [hexit] at hfail
  have hcode : path.code = .success ↔ ¬ path.code = .failure := by
    cases path.code <;> simp
  refine ⟨?_, fun hsuccess => ?_⟩
  · rw [hcode, ← hfail]
    exact not_congr decide_eq_true_iff.symm
  · obtain rfl : path = .shutDown := by
      cases path with
      | shutDown => rfl
      | _ => cases hsuccess
    refine ⟨hs.socket.trans (by rw [hexit]; rfl), fun i => ?_⟩
    have hlane := hs.lanes i
    rw [hexit] at hlane
    have hended := hlane.joined i.isLt
    refine ⟨hended, ?_, hlane.hasReturned hended⟩
    rw [Bool.eq_iff_iff, hlane.closed]
    exact and_iff_left i.isLt

theorem exit_code_onePacket : .main .fail ∉ onePacket ∧ afterOnePacket.socketClosed = true ∧
    Returned oneSensor 0 (afterOnePacket.lanes 0).sensor.thread := by
  have hexit : afterOnePacket.main = .exited .shutDown := by decide
  obtain ⟨hcode, hdone⟩ := exit_code exec_onePacket hexit
  exact ⟨hcode.mp rfl, (hdone rfl).1, ((hdone rfl).2 0).2.2⟩

/-! ## what is in use -/

/-- the socket or the log file of a running thread has been closed -/
def State.inUse (s : State N) (i : Fin N) : Prop :=
  (s.lanes i).pc = .running ∧ (s.socketClosed = true ∨ (s.lanes i).logsFileClosed = true)

def State.quiet (s : State N) : Prop := ∀ i, (s.lanes i).pc ≠ .running

instance (s : State N) : Decidable s.quiet :=
  inferInstanceAs (Decidable (∀ i, (s.lanes i).pc ≠ .running))

/-- a `pthread_create` or `pthread_join` fails only when no thread is running -/
def State.failsQuietly (s : State N) : Action N → Bool
  | .main .fail =>
    match s.main with
    | .create _ | .join _ => decide s.quiet
    | _ => true
  | _ => true

theorem State.failsQuietly_false (s : State N) {a : Action N} (h : s.failsQuietly a = false) :
    a = .main .fail ∧ ¬ s.quiet ∧ ∃ i, s.main = .create i ∨ s.main = .join i := by
  unfold State.failsQuietly at h
  split at h
  · split at h
    · rename_i i hpc
      exact ⟨rfl, of_decide_eq_false h, i, Or.inl hpc⟩
    · rename_i i hpc
      exact ⟨rfl, of_decide_eq_false h, i, Or.inr hpc⟩
    · cases h
  · cases h

def MainPc.leaving : MainPc → Bool
  | .create _ | .join _ => false
  | _ => true

theorem Sound.not_inUse {s : State N} (hs : Sound p s) (hq : s.main.leaving = true → s.quiet)
    (i : Fin N) : ¬ s.inUse i := by
  rintro ⟨hrun, hclosed⟩
  have hleaving : s.main.leaving = true := by
    rw [hs.socket, (hs.lanes i).closed] at hclosed
    cases hpc : s.main with
    | create k =>
      rw [hpc] at hclosed
      simp [MainPc.socketClosed, MainPc.logsClosed] at hclosed
    | join k =>
      rw [hpc] at hclosed
      simp [MainPc.socketClosed, MainPc.logsClosed] at hclosed
    | _ => rfl
  exact hq hleaving i hrun

theorem MainMove.quiet {s s' : State N} {c : MainChoice} (hs : Sound p s)
    (hq : s.main.leaving = true → s.quiet) (hok : s.failsQuietly (.main c) = true)
    (h : MainMove p s c s') : s'.main.leaving = true → s'.quiet := by
  cases h
  case create i hpc hi => exact fun h => Bool.noConfusion h
  case created i hpc hi => exact fun h => Bool.noConfusion h
  case createFails i hpc hi =>
    intro _
    show s.quiet
    simpa [State.failsQuietly, hpc] using hok
  case join i hpc hi he => exact fun h => Bool.noConfusion h
  case joined i hpc hi =>
    intro _ j hrun
    have hlane := hs.lanes j
    rw [hpc] at hlane
    have hj : (j : Nat) < i := by omega
    cases (hlane.joined hj).symm.trans hrun
  case joinFails i hpc hi =>
    intro _
    show s.quiet
    simpa [State.failsQuietly, hpc] using hok
  case closeFails hpc => exact fun _ => hq (by rw [hpc]; rfl)
  case close failed hpc hc => exact fun _ => hq (by rw [hpc]; rfl)
  case closeLogsFile failed i errorFlag hpc hon hi =>
    intro _
    have hquiet := hq (by rw [hpc]; rfl)
    exact (Function.forall_update_iff s.lanes fun _ l => l.pc ≠ .running).mpr
      ⟨hquiet ⟨i, hi⟩, fun j _ => hquiet j⟩
  case exit failed i errorFlag hpc hend => exact fun _ => hq (by rw [hpc]; rfl)

theorem Move.quiet {s s' : State N} {a : Action N} {ds : List (List UInt8)} (hs : Sound p s)
    (hq : s.main.leaving = true → s.quiet) (hok : s.failsQuietly a = true)
    (h : Move p s a s' ds) : s'.main.leaving = true → s'.quiet := by
  cases h with
  | main c s' hm => exact hm.quiet hs hq hok
  -- a thread that moves is running
  | call i c t ds hpc => exact fun hm => absurd hpc (hq hm i)
  | ret i hpc => exact fun hm => absurd hpc (hq hm i)

/-- **What the client closes under its threads.**  In every run whose thread calls fail only while no
thread is running, no running thread has its socket or its log file closed.  After every other failure main's next step
closes the socket, under a running thread if none moves in between. -/
theorem closes_nothing_in_use {s : State N} {as : List (Action N)}
    (h : Runs.exec (step p) (init p N) as = some s) :
    (Runs.Meets (step p) (fun s a => s.failsQuietly a = true) (init p N) as → ∀ i, ¬ s.inUse i) ∧
    ∀ a s', s.failsQuietly a = false → step p s a = some s' →
      ∃ u i, step p s' (.main .proceed) = some u ∧ u.inUse i := by
  refine ⟨fun hok i => ?_, fun a s' hbad hstep => ?_⟩
  · have hboth : Sound p s ∧ (s.main.leaving = true → s.quiet) := by
      refine Runs.exec_invariant_of (I := fun s => Sound p s ∧ (s.main.leaving = true → s.quiet))
        ?_ h hok ⟨init_sound p, fun h => Bool.noConfusion h⟩
      rintro s a s' ⟨hs, hq⟩ hok hstep
      obtain ⟨ds, hmove⟩ := step_move hstep
      exact ⟨hs.after hstep, hmove.quiet hs hq hok⟩
    exact hboth.1.not_inUse hboth.2 i
  · -- main closes the socket next, and the thread runs on
    have hclose : ∀ failed, ¬ s.quiet → s' = { s with main := .closeSocket (some failed) } →
        ∃ u i, step p s' (.main .proceed) = some u ∧ u.inUse i := by
      rintro failed hnot rfl
      obtain ⟨i, hi⟩ := not_forall.mp hnot
      exact ⟨_, i, rfl, not_not.mp hi, Or.inl rfl⟩
    obtain ⟨rfl, hnot, i, hpc | hpc⟩ := s.failsQuietly_false hbad
    · have hfail : i < N ∧ { s with main := .closeSocket (some (.create i)) } = s' := by
        simpa [step, send, mainStep, hpc, MainPc.isExited] using hstep
      exact hclose (.create i) hnot hfail.2.symm
    · have hfail : i < N ∧ { s with main := .closeSocket (some (.join i)) } = s' := by
        simpa [step, send, mainStep, hpc, MainPc.isExited] using hstep
      exact hclose (.join i) hnot hfail.2.symm

/-- the second of two threads cannot be created: main closes the socket under the first -/
theorem closes_nothing_in_use_onePacket : ¬ afterOnePacket.inUse 0 ∧
    ∃ (s' u : State 2) (i : Fin 2), step oneSensor s' (.main .proceed) = some u ∧ u.inUse i := by
  refine ⟨(closes_nothing_in_use exec_onePacket).1 (by decide) 0, ?_⟩
  have hrun : Runs.exec (step oneSensor) (init oneSensor 2) [.main .proceed] = some _ := rfl
  obtain ⟨u, i, hu⟩ := (closes_nothing_in_use hrun).2 (.main .fail) _ (by decide) rfl
  exact ⟨_, u, i, hu⟩

/-! ## the same exits in clientMain -/

open Resources

def ThreadFailure.Taken (N : Nat) (out : ClientOutcomes) : ThreadFailure → Prop
  | .create i => i < N ∧ (∀ j < i, out.threadCreate j = true) ∧ out.threadCreate i = false
  | .join i => (∀ j < N, out.threadCreate j = true) ∧ i < N ∧ (∀ j < i, out.join j = true) ∧
      out.join i = false

def AllJoined (N : Nat) (out : ClientOutcomes) : Prop :=
  (∀ j < N, out.threadCreate j = true) ∧ ∀ j < N, out.join j = true

/-- the calls lead to this way out -/
def ExitPath.Taken (N : Nat) (out : ClientOutcomes) : ExitPath → Prop
  | .threadFailure failed => failed.Taken N out
  | .closeFailure => AllJoined N out ∧ out.close = false
  | .closeLogsFailure => (AllJoined N out ∧ out.close = true) ∧
      out.logsFilesFlag = true ∧ ∃ i < N, out.fclose i = false
  | .shutDown => (AllJoined N out ∧ out.close = true) ∧
      ¬ (out.logsFilesFlag = true ∧ ∃ i < N, out.fclose i = false)

def closedLogs (N : Nat) (logsFilesFlag : Bool) : Trace :=
  if logsFilesFlag then (List.range N).flatMap fun i => [.release (.file i), .release (.filename i)]
  else []

theorem closedLogs_succ (i : Nat) : closedLogs (i + 1) true =
    closedLogs i true ++ [.release (.file i), .release (.filename i)] := by
  unfold closedLogs
  rw [if_pos rfl, if_pos rfl, List.range_succ, List.flatMap_append, List.flatMap_singleton]

/-- what is released on a way out, in its order -/
def ExitPath.releases (N : Nat) (logsFilesFlag : Bool) : ExitPath → Trace
  | .closeFailure => [.release .socket]
  | .threadFailure _ | .closeLogsFailure => .release .socket :: closedLogs N logsFilesFlag
  | .shutDown => .release .socket :: closedLogs N logsFilesFlag ++ cmdlineParserFree

theorem exitPath_releases (flag : Bool) (failed : Option ThreadFailure) (errorFlag : Bool) :
    (exitPath failed errorFlag).releases N flag =
      .release .socket :: closedLogs N flag ++ (exitPath failed errorFlag).argsFreed := by
  cases failed with
  | some failed => exact (List.append_nil _).symm
  | none =>
    cases errorFlag with
    | true => exact (List.append_nil _).symm
    | false => rfl

/-- what main has released when it stands there -/
def MainPc.releases (N : Nat) (logsFilesFlag : Bool) : MainPc → Trace
  | .closeLogs _ i _ => .release .socket :: closedLogs i logsFilesFlag
  | .exited path => path.releases N logsFilesFlag
  | _ => []

structure Released (p : ClientProcess) (s : State N) : Prop where
  trace : s.released = s.main.releases N p.logsFilesFlag
  turn : ∀ failed i errorFlag, s.main = .closeLogs failed i errorFlag → i ≤ N

theorem MainMove.released {s s' : State N} {c : MainChoice} (hs : Released p s)
    (h : MainMove p s c s') : Released p s' := by
  obtain ⟨htrace, hturn⟩ := hs
  cases h
  case closeFails hpc =>
    rw [hpc] at htrace
    refine ⟨?_, fun _ _ _ h => MainPc.noConfusion h⟩
    show (s.released ++ [.release .socket]) ++ [] = [.release .socket]
    rw [htrace]
    rfl
  case close failed hpc hc =>
    rw [hpc] at htrace
    refine ⟨?_, fun _ i _ h => ?_⟩
    · show s.released ++ [.release .socket] = .release .socket :: closedLogs 0 p.logsFilesFlag
      rw [htrace]
      cases p.logsFilesFlag <;> rfl
    · injection h with _ hi
      exact hi ▸ Nat.zero_le N
  case closeLogsFile failed i errorFlag hpc hon hi =>
    rw [hpc] at htrace
    refine ⟨?_, fun _ j _ h => ?_⟩
    · show s.released ++ [.release (.file i), .release (.filename i)] =
        .release .socket :: closedLogs (i + 1) p.logsFilesFlag
      rw [htrace, hon, closedLogs_succ]
      rfl
    · injection h with _ hj
      exact hj ▸ hi
  case exit failed i errorFlag hpc hend =>
    have hle := hturn failed i errorFlag hpc
    rw [hpc] at htrace
    refine ⟨?_, fun _ _ _ h => MainPc.noConfusion h⟩
    -- without logs none is closed, with them the loop has come to its end
    have hall : closedLogs i p.logsFilesFlag = closedLogs N p.logsFilesFlag := by
      cases hon : p.logsFilesFlag with
      | false => rfl
      | true => rw [Nat.le_antisymm hle (Nat.not_lt.mp (hend hon))]
    show s.released ++ (exitPath failed errorFlag).argsFreed =
      (exitPath failed errorFlag).releases N p.logsFilesFlag
    rw [exitPath_releases, htrace, ← hall]
    rfl
  all_goals
    rw [‹s.main = _›] at htrace
    exact ⟨htrace, fun _ _ _ h => MainPc.noConfusion h⟩

theorem Reachable.released {s : State N} (h : Reachable p s) : Released p s := by
  obtain ⟨as, hrun⟩ := h
  refine Runs.exec_invariant (I := Released p) ?_ hrun ⟨rfl, fun _ _ _ h => MainPc.noConfusion h⟩
  intro s a s' hs hstep
  obtain ⟨ds, hmove⟩ := step_move hstep
  cases hmove with
  | main c s' hm => exact hm.released hs
  | call i c t => exact ⟨hs.trace, hs.turn⟩
  | ret i => exact ⟨hs.trace, hs.turn⟩

/-- no call before the first `pthread_create` fails -/
structure Starts (N : Nat) (out : ClientOutcomes) : Prop where
  cmdlineParser : out.cmdlineParser = true
  packets : 0 < out.packetsPerSensor
  port : 1024 ≤ out.port ∧ out.port ≤ 65535
  socket : out.socket.socket = true ∧ out.socket.setsockopt = true ∧ out.socket.getaddrinfo = true
  logs : out.logsFilesFlag = true → ∀ i < N, out.logs.opens i

/-- what main holds at its first `pthread_create` -/
def clientHeld (N : Nat) (logsFilesFlag : Bool) : Set Resource :=
  {.args} ∪ {.socket} ∪ logsHeld logsFilesFlag N

theorem closeLogsFiles_closedLogs (N : Nat) (flag : Bool) (t : Option LogsFiles)
    (ht : flag = true → t = some (LogsFiles.opened N)) (fclose : Nat → Bool) :
    (closeLogsFiles N flag t fclose).trace = closedLogs N flag := by
  cases flag with
  | false => rfl
  | true =>
    rw [ht rfl]
    exact Server.closeLoop_trace fclose _ N fun i hi => opened_below hi

theorem clientMain_taken {N : Nat} {out : ClientOutcomes} (h : Starts N out) :
    ∃ tr, Holds (clientHeld N out.logsFilesFlag) tr ∧ ∀ path : ExitPath, path.Taken N out →
      clientMain N out = (path.code, tr ++ path.releases N out.logsFilesFlag) := by
  have targs : Touches ({.args} : Set Resource) [.acquire .args] := Touches.single rfl
  unfold clientMain
  dsimp only
  rw [if_neg (by rw [h.cmdlineParser]; exact Bool.true_eq_false.mp),
    if_neg (not_le.mpr h.packets), if_neg (not_not_intro ((validatePort_success _).mpr h.port))]
  obtain ⟨tsocket, ⟨hstatus, hsocket, -⟩ | ⟨-, hcalls⟩⟩ := initClientSocket_spec out.socket
  case inr => exact absurd h.socket hcalls
  rw [if_neg (not_not_intro hstatus)]
  obtain ⟨t, trLogs, tlogs, ⟨hopens, hlogs, hopen, hclose⟩ | ⟨⟨hflag, i, hi, hfail⟩, -⟩⟩ :=
    logsFiles_contract out.logsFilesFlag N "logs/cli/sensor_%u_client_logs.txt" out.logs
  case inr => exact absurd (h.logs hflag i hi) hfail
  rw [openClientLogsFiles, hopen, if_neg (by simp)]
  have hclosed := closeLogsFiles_closedLogs N out.logsFilesFlag t (fun hf => (hopens hf).2) out.fclose
  have hfclose := (hclose out.fclose).2
  have hheld := (argsHeld.append hsocket targs tsocket (by rintro r rfl; simp)).append hlogs
    (targs.union tsocket) tlogs (by rintro r (rfl | rfl | rfl) <;> simp [Resource.logBelow])
  refine ⟨_, hheld, fun path hpath => ?_⟩
  rw [hclosed]
  have hcreated : (∀ j < N, out.threadCreate j = true) →
      ¬ initClientThreads out.threadCreate N ≠ .success :=
    fun hall => not_not_intro ((initClientThreads_success _ N).mpr hall)
  have hjoined : (∀ j < N, out.join j = true) → ¬ joinThreads out.join N = .error :=
    fun hall herror => (joinThreads_error _ N).mp herror hall
  cases path with
  | threadFailure failed =>
    cases failed with
    | create i =>
      obtain ⟨hi, -, hfail⟩ := hpath
      rw [if_pos]
      · rfl
      · intro hsuccess
        cases hfail.symm.trans ((initClientThreads_success _ N).mp hsuccess i hi)
    | join i =>
      obtain ⟨hall, hi, -, hfail⟩ := hpath
      rw [if_neg (hcreated hall), if_pos]
      · rfl
      · refine (joinThreads_error _ N).mpr fun hjoin => ?_
        cases hfail.symm.trans (hjoin i hi)
  | closeFailure =>
    obtain ⟨⟨hall, hjoin⟩, hfail⟩ := hpath
    rw [if_neg (hcreated hall), if_neg (hjoined hjoin), if_pos ((closeSocket_error _).mpr hfail)]
    rfl
  | closeLogsFailure =>
    obtain ⟨⟨⟨hall, hjoin⟩, hclose⟩, hfail⟩ := hpath
    rw [if_neg (hcreated hall), if_neg (hjoined hjoin), if_neg, if_pos (hfclose.mpr hfail)]
    · rfl
    · rw [closeSocket_error, hclose]
      exact Bool.true_eq_false.mp
  | shutDown =>
    obtain ⟨⟨⟨hall, hjoin⟩, hclose⟩, hnot⟩ := hpath
    rw [if_neg (hcreated hall), if_neg (hjoined hjoin), if_neg, if_neg (mt hfclose.mp hnot)]
    · rfl
    · rw [closeSocket_error, hclose]
      exact Bool.true_eq_false.mp

/-- the step of main comes back with what the call has come back with in `out` -/
def State.agrees (out : ClientOutcomes) (s : State N) : Action N → Bool
  | .main c =>
    let comesBack (i : Nat) (call : Nat → Bool) : Bool :=
      !decide (i < N) || decide (c = .proceed) == call i
    match s.main with
    | .create i => comesBack i out.threadCreate
    | .join i => comesBack i out.join
    | .closeSocket _ => decide (c = .proceed) == out.close
    | .closeLogs _ i _ => !out.logsFilesFlag || comesBack i out.fclose
    | .exited _ => true
  | .thread _ _ => true

/-- how the calls have led main to where it stands -/
def Led (N : Nat) (out : ClientOutcomes) : MainPc → Prop
  | .create i => ∀ j < i, out.threadCreate j = true
  | .join i => (∀ j < N, out.threadCreate j = true) ∧ ∀ j < i, out.join j = true
  | .closeSocket none => AllJoined N out
  | .closeSocket (some failed) => failed.Taken N out
  | .closeLogs failed i errorFlag =>
    failed.elim (AllJoined N out ∧ out.close = true) (ThreadFailure.Taken N out) ∧ i ≤ N ∧
      (errorFlag = true ↔ out.logsFilesFlag = true ∧ ∃ j < i, out.fclose j = false)
  | .exited path => path.Taken N out

theorem exitPath_taken {out : ClientOutcomes} {failed : Option ThreadFailure} {errorFlag : Bool}
    (hfailed : failed.elim (AllJoined N out ∧ out.close = true) (ThreadFailure.Taken N out))
    (herror : errorFlag = true ↔ out.logsFilesFlag = true ∧ ∃ j < N, out.fclose j = false) :
    (exitPath failed errorFlag).Taken N out := by
  cases failed with
  | some failed => exact hfailed
  | none =>
    cases errorFlag with
    | true => exact ⟨hfailed, herror.mp rfl⟩
    | false => exact ⟨hfailed, fun h => Bool.false_ne_true (herror.mpr h)⟩

theorem MainMove.led {out : ClientOutcomes} (hflag : p.logsFilesFlag = out.logsFilesFlag)
    {s s' : State N} {c : MainChoice} (hs : Led N out s.main)
    (hok : s.agrees out (.main c) = true) (h : MainMove p s c s') : Led N out s'.main := by
  unfold State.agrees at hok
  dsimp only at hok
  cases h
  case create i hpc hi =>
    rw [hpc] at hs hok
    exact Nat.forall_lt_succ_right.mpr ⟨hs, by simpa [hi] using hok⟩
  case created i hpc hi =>
    rw [hpc] at hs
    exact ⟨fun j hj => hs j (by omega), fun j hj => absurd hj (Nat.not_lt_zero j)⟩
  case createFails i hpc hi =>
    rw [hpc] at hs hok
    exact ⟨hi, hs, by simpa [hi] using hok⟩
  case join i hpc hi he =>
    rw [hpc] at hs hok
    exact ⟨hs.1, Nat.forall_lt_succ_right.mpr ⟨hs.2, by simpa [hi] using hok⟩⟩
  case joined i hpc hi =>
    rw [hpc] at hs
    exact ⟨hs.1, fun j hj => hs.2 j (by omega)⟩
  case joinFails i hpc hi =>
    rw [hpc] at hs hok
    exact ⟨hs.1, hi, hs.2, by simpa [hi] using hok⟩
  case closeFails hpc =>
    rw [hpc] at hs hok
    exact ⟨hs, by simpa using hok⟩
  case close failed hpc hc =>
    rw [hpc] at hs hok
    refine ⟨?_, Nat.zero_le N, iff_of_false Bool.false_ne_true fun h => ?_⟩
    · cases failed with
      | some failed => exact hs
      | none =>
        rw [hc rfl] at hok
        exact ⟨hs, by simpa using hok⟩
    · obtain ⟨-, j, hj, -⟩ := h
      exact absurd hj (Nat.not_lt_zero j)
  case closeLogsFile failed i errorFlag hpc hon hi =>
    rw [hpc] at hs hok
    obtain ⟨hfailed, -, herror⟩ := hs
    refine ⟨hfailed, hi, ?_⟩
    rw [hflag] at hon
    have hcall : decide (c = .proceed) = out.fclose i := by simpa [hon, hi] using hok
    rw [Bool.or_eq_true, herror, hon, and_iff_right rfl, and_iff_right rfl, Nat.exists_lt_succ_right,
      ← hcall]
    cases c <;> simp
  case exit failed i errorFlag hpc hend =>
    rw [hpc] at hs
    obtain ⟨hfailed, hle, herror⟩ := hs
    refine exitPath_taken hfailed (herror.trans (and_congr_right fun hon => ?_))
    have hi := hend (hflag.trans hon)
    rw [show i = N by omega]

/-- **The process exits as `clientMain` does.**  For every interleaving: if the calls of main come back
as in `out`, whose start-up comes through, then `clientMain` ends with the exit code of the process,
and releases behind its start-up exactly what the process has released, in that order. -/
theorem clientMain_exit {out : ClientOutcomes} (hstart : Starts N out)
    (hflag : p.logsFilesFlag = out.logsFilesFlag) {s : State N} {as : List (Action N)}
    {path : ExitPath} (h : Runs.exec (step p) (init p N) as = some s)
    (hok : Runs.Meets (step p) (fun s a => s.agrees out a = true) (init p N) as)
    (hexit : s.main = .exited path) :
    ∃ tr, Holds (clientHeld N out.logsFilesFlag) tr ∧
      clientMain N out = (path.code, tr ++ s.released) ∧
      s.socketClosed = true ∧ ∀ i : Fin N, (s.lanes i).logsFileClosed = true ↔
        .release (.file i) ∈ s.released := by
  have hinit : Led N out (init p N).main := fun j hj => absurd hj (Nat.not_lt_zero j)
  have hled : Led N out s.main := by
    refine Runs.exec_invariant_of (I := fun s => Led N out s.main) ?_ h hok hinit
    intro s a s' hs hok hstep
    obtain ⟨ds, hmove⟩ := step_move hstep
    cases hmove with
    | main c s' hm => exact hm.led hflag hs hok
    | call i c t => exact hs
    | ret i => exact hs
  rw [hexit] at hled
  obtain ⟨tr, hholds, hmain⟩ := clientMain_taken hstart
  have hs : Sound p s := Reachable.sound ⟨as, h⟩
  have hreleased : s.released = path.releases N out.logsFilesFlag := by
    rw [(Reachable.released ⟨as, h⟩).trace, hexit, hflag]
    rfl
  rw [hreleased]
  refine ⟨tr, hholds, hmain path hled, hs.socket.trans (by rw [hexit]; rfl), fun i => ?_⟩
  have hclosed := (hs.lanes i).closed
  rw [hexit, hflag] at hclosed
  rw [hclosed]
  have hi : (i : Nat) < N := i.isLt
  cases path <;> cases out.logsFilesFlag <;>
    simp [ExitPath.releases, closedLogs, MainPc.logsClosed, cmdlineParserFree, hi]

def allSucceed : ClientOutcomes where
  cmdlineParser := true
  packetsPerSensor := 1
  port := 8080
  logsFilesFlag := false
  socket := ⟨true, true, true⟩
  logs := ⟨fun _ => 30, fun _ => true, fun _ => true, fun _ => true⟩
  threadCreate := fun _ => true
  join := fun _ => true
  close := true
  fclose := fun _ => true

theorem clientMain_exit_onePacket : (clientMain 1 allSucceed).1 = .success ∧
    afterOnePacket.released = [.release .socket, .release .args] ∧
    ∃ tr, (clientMain 1 allSucceed).2 = tr ++ afterOnePacket.released := by
  have hstart : Starts 1 allSucceed := ⟨rfl, by decide, by decide, by decide, fun h => by cases h⟩
  have hexit : afterOnePacket.main = .exited .shutDown := by decide
  obtain ⟨tr, -, hmain, -⟩ := clientMain_exit hstart rfl exec_onePacket (by decide) hexit
  exact ⟨congrArg Prod.fst hmain, by decide, tr, congrArg Prod.snd hmain⟩

end Client
end SensorSimulator
