import SensorSimulator.Server.Queues
import SensorSimulator.Log

/-!
# main of the server: the way in and every way out

* `ServerOutcomes`     what the calls on the way come back with;
* `initServerSocket`   of server_socket.c, which closes its socket when it fails;
* `serverMain`         main, without the receive loop; `serverShutDown` is its part behind it;
* `serverMain_releases_once`   every path releases what it has acquired, once.
-/

namespace SensorSimulator
open Resources

/-! ## the calls -/

/-- what `socket`, `setsockopt` and `bind` come back with -/
structure ServerSocketOutcomes where
  socket : Bool
  setsockopt : Bool
  bind : Bool

structure ServerOutcomes where
  sigterm : Bool               -- the two sigaction calls
  sigint : Bool
  cmdlineParser : Bool
  clock : Clock
  port : Int                   -- args.port_arg
  logsFilesFlag : Bool         -- args.logs_files_flag
  socket : ServerSocketOutcomes
  logs : OpenOutcomes
  queueCreate : Nat → Bool
  threadCreate : Nat → Bool
  join : Nat → Bool
  close : Bool
  fclose : Nat → Bool          -- of close_logs_files

/-- the pointer is that of a local variable, and not `NULL` -/
def initSignalHandlers (sigterm sigint : Bool) : Status :=
  if sigterm = false then .error
  else if sigint = false then .error
  else .success

def initServerSocket (out : ServerSocketOutcomes) : ServerSocketStatus × Trace :=
  if out.socket = false then (.initServerSocketSocketError, [])
  else
    let tr : Trace := [.acquire .socket]
    if out.setsockopt = false then (.initServerSocketReuseaddrError, tr ++ [.release .socket])
    else if out.bind = false then (.initServerSocketBindError, tr ++ [.release .socket])
    else (.success, tr)

/-- `server_threads_status_e` -/
inductive ServerThreadsStatus where
  | success
  | initServerThreadsPthreadCreateError
  deriving DecidableEq

def initServerThreads (create : Nat → Bool) (n : Nat) : ServerThreadsStatus :=
  if turns create n then .success else .initServerThreadsPthreadCreateError

/-! ## main -/

/-- from `join_threads` to the end -/
def serverShutDown (n : Nat) (out : ServerOutcomes) (logsFiles : Option LogsFiles)
    (queues : Queues) : ExitCode × Trace :=
  if joinThreads out.join n = .error then
    (.failure, (closeSocket out.close).2 ++
      (closeLogsFiles n out.logsFilesFlag logsFiles out.fclose).trace ++
      destroyServerQueues n queues ++ cmdlineParserFree)
  else
    -- the report
    let socket := closeSocket out.close
    if socket.1 = .error then
      (.failure, socket.2 ++ (closeLogsFiles n out.logsFilesFlag logsFiles out.fclose).trace ++
        destroyServerQueues n queues ++ cmdlineParserFree)
    else
      let logs := closeLogsFiles n out.logsFilesFlag logsFiles out.fclose
      if logs.status = .error then
        (.failure, socket.2 ++ logs.trace ++ destroyServerQueues n queues ++ cmdlineParserFree)
      else (.success, socket.2 ++ logs.trace ++ destroyServerQueues n queues ++ cmdlineParserFree)

/-- `n` is `NUMBER_OF_SENSORS` -/
def serverMain (n : Nat) (out : ServerOutcomes) : ExitCode × Trace :=
  if initSignalHandlers out.sigterm out.sigint = .error then (.failure, [])
  else if out.cmdlineParser = false then (.failure, [])
  else
    let tr : Trace := [.acquire .args]
    if (getCurrentTime (some "") out.clock).1 = .error then (.failure, tr ++ cmdlineParserFree)
    else if validatePort out.port ≠ .success then (.failure, tr ++ cmdlineParserFree)
    else
      let socket := initServerSocket out.socket
      let tr := tr ++ socket.2
      if socket.1 ≠ .success then (.failure, tr ++ cmdlineParserFree)
      else
        let logs := openServerLogsFiles n out.logsFilesFlag (some .null) out.logs
        let tr := tr ++ logs.trace
        if logs.status = .error then
          (.failure, tr ++ (cmdlineParserFree ++ (closeSocket out.close).2))
        else
          let queues := createServerQueues out.queueCreate .null n
          let tr := tr ++ queues.2.2
          if queues.1 ≠ .success then
            (.failure, tr ++ (cmdlineParserFree ++ (closeSocket out.close).2 ++
              (closeLogsFiles n out.logsFilesFlag logs.table out.fclose).trace))
          else if initServerThreads out.threadCreate n ≠ .success then
            (.failure, tr ++ (cmdlineParserFree ++ (closeSocket out.close).2 ++
              (closeLogsFiles n out.logsFilesFlag logs.table out.fclose).trace ++
              destroyServerQueues n queues.2.1))
          else
            let shutDown := serverShutDown n out logs.table queues.2.1
            (shutDown.1, tr ++ shutDown.2)

/-- the start-up comes to `init_server_threads`: no call before it fails -/
structure ServerOutcomes.Starts (n : Nat) (out : ServerOutcomes) : Prop where
  signals : out.sigterm = true ∧ out.sigint = true
  cmdlineParser : out.cmdlineParser = true
  clock : out.clock.text.isSome = true
  port : 1024 ≤ out.port ∧ out.port ≤ 65535
  socket : out.socket.socket = true ∧ out.socket.setsockopt = true ∧ out.socket.bind = true
  logs : out.logsFilesFlag = true → ∀ i < n, out.logs.opens i
  queues : ∀ i < n, out.queueCreate i = true

/-! ## what the calls hold -/

theorem initSignalHandlers_error (sigterm sigint : Bool) :
    initSignalHandlers sigterm sigint = .error ↔ ¬ (sigterm = true ∧ sigint = true) := by
  cases sigterm <;> cases sigint <;> simp [initSignalHandlers]

theorem getCurrentTime_error (buffer : String) (c : Clock) :
    (getCurrentTime (some buffer) c).1 = .error ↔ ¬ c.text.isSome = true := by
  rw [getCurrentTime_some]
  cases c.text <;> simp

theorem initServerSocket_spec (out : ServerSocketOutcomes) :
    Touches {Resource.socket} (initServerSocket out).2 ∧
      (((initServerSocket out).1 = .success ∧ Holds {Resource.socket} (initServerSocket out).2 ∧
          out.socket = true ∧ out.setsockopt = true ∧ out.bind = true) ∨
        ((initServerSocket out).1 ≠ .success ∧ ReleasedOnce (initServerSocket out).2 ∧
          ¬ (out.socket = true ∧ out.setsockopt = true ∧ out.bind = true))) := by
  have hone : Touches {Resource.socket} [Event.acquire Resource.socket] := Touches.single rfl
  have hfail := (Holds.single Resource.socket).exit (Frees.single Resource.socket)
  unfold initServerSocket
  split_ifs with hsocket hsetsockopt hbind
  · exact ⟨Touches.nil _, Or.inr ⟨by simp, Holds.nil.releasedOnce, by simp [hsocket]⟩⟩
  · exact ⟨hone.append (Touches.single rfl), Or.inr ⟨by simp, hfail, by simp [hsetsockopt]⟩⟩
  · exact ⟨hone.append (Touches.single rfl), Or.inr ⟨by simp, hfail, by simp [hbind]⟩⟩
  · exact ⟨hone, Or.inl ⟨rfl, Holds.single _, Bool.eq_true_of_not_eq_false hsocket,
      Bool.eq_true_of_not_eq_false hsetsockopt, Bool.eq_true_of_not_eq_false hbind⟩⟩

/-- the four ways out behind the receive loop release the same things, in the same order -/
theorem serverShutDown_trace (n : Nat) (out : ServerOutcomes) (logsFiles : Option LogsFiles)
    (queues : Queues) : (serverShutDown n out logsFiles queues).2 =
      [.release .socket] ++ (closeLogsFiles n out.logsFilesFlag logsFiles out.fclose).trace ++
        destroyServerQueues n queues ++ [.release .args] := by
  unfold serverShutDown
  dsimp only
  split_ifs <;> rfl

/-- args and socket, log files, queues: what main acquires one after the other -/
theorem args_not_socket : ∀ r, r ∈ ({.args} : Set Resource) → r ∉ ({.socket} : Set Resource) := by
  rintro r rfl
  simp

theorem argsSocket_not_logs (n : Nat) :
    ∀ r, r ∈ ({.args} ∪ {.socket} : Set Resource) → r ∉ logsBelow n := by
  rintro r (rfl | rfl) <;> simp [Resource.logBelow]

theorem argsSocketLogs_not_queues (n : Nat) :
    ∀ r, r ∈ {.args} ∪ {.socket} ∪ logsBelow n → r ∉ queuesBelow n := by
  intro r
  cases r <;> simp [Resource.logBelow, Resource.queueBelow]

theorem serverShutDown_frees (n : Nat) (out : ServerOutcomes) (logsFiles : Option LogsFiles)
    (queues : Queues) {logs : Set Resource} (hsub : logs ⊆ logsBelow n)
    (hlogs : Frees logs (closeLogsFiles n out.logsFilesFlag logsFiles out.fclose).trace)
    (hqueues : Frees (queuesBelow n) (destroyServerQueues n queues)) :
    Frees ({.args} ∪ {.socket} ∪ logs ∪ queuesBelow n)
      (serverShutDown n out logsFiles queues).2 := by
  have hlogs' := (Frees.single Resource.socket).append hlogs fun r hr hin =>
    argsSocket_not_logs n r (Or.inr hr) (hsub hin)
  have hqueues' := hlogs'.append hqueues fun r hr =>
    argsSocketLogs_not_queues n r (hr.imp Or.inr fun hin => hsub hin)
  have hargs : Resource.args ∉ {.socket} ∪ logs ∪ queuesBelow n := by
    rintro ((h | h) | h)
    · exact args_not_socket _ rfl h
    · exact hsub h
    · exact h
  have hall : ({.args} ∪ {.socket} ∪ logs ∪ queuesBelow n : Set Resource) =
      {.socket} ∪ logs ∪ queuesBelow n ∪ {.args} := by
    ext r
    simp only [Set.mem_union]
    tauto
  rw [serverShutDown_trace, hall]
  exact hqueues'.snoc hargs

/-! ## every way out -/

/-- what is held when the threads are started -/
def serverHeld (n : Nat) (logsFilesFlag : Bool) : Set Resource :=
  {.args} ∪ {.socket} ∪ logsHeld logsFilesFlag n ∪ queuesBelow n

/-- from `init_server_threads` to the end -/
def serverRun (n : Nat) (out : ServerOutcomes) (logsFiles : Option LogsFiles) (queues : Queues) :
    Trace :=
  if initServerThreads out.threadCreate n ≠ .success then
    cmdlineParserFree ++ (closeSocket out.close).2 ++
      (closeLogsFiles n out.logsFilesFlag logsFiles out.fclose).trace ++
      destroyServerQueues n queues
  else (serverShutDown n out logsFiles queues).2

/-- the start-up holds all four kinds of things, or main has given up and released what it had -/
theorem serverMain_startUp (n : Nat) (out : ServerOutcomes) :
    (out.Starts n ∧ ∃ logsFiles queues tr, Holds (serverHeld n out.logsFilesFlag) tr ∧
        (out.logsFilesFlag = true → logsFiles = some (LogsFiles.opened n)) ∧
        (∀ i < n, queues i = some i) ∧
        (∀ fclose, Frees (logsHeld out.logsFilesFlag n)
          (closeLogsFiles n out.logsFilesFlag logsFiles fclose).trace) ∧
        (serverMain n out).2 = tr ++ serverRun n out logsFiles queues) ∨
      (¬ out.Starts n ∧ ReleasedOnce (serverMain n out).2) := by
  have targs : Touches ({.args} : Set Resource) [.acquire .args] := Touches.single rfl
  unfold serverMain
  dsimp only
  by_cases hsignals : initSignalHandlers out.sigterm out.sigint = .error
  · rw [if_pos hsignals]
    exact Or.inr ⟨fun h => (initSignalHandlers_error _ _).mp hsignals h.signals,
      Holds.nil.releasedOnce⟩
  rw [if_neg hsignals]
  by_cases hparser : out.cmdlineParser = false
  · rw [if_pos hparser]
    exact Or.inr ⟨fun h => by simp [h.cmdlineParser] at hparser, Holds.nil.releasedOnce⟩
  rw [if_neg hparser]
  by_cases hclock : (getCurrentTime (some "") out.clock).1 = .error
  · rw [if_pos hclock]
    exact Or.inr ⟨fun h => (getCurrentTime_error _ _).mp hclock h.clock,
      argsHeld.exit (Frees.single _)⟩
  rw [if_neg hclock]
  by_cases hport : validatePort out.port = .success
  case neg =>
    rw [if_pos hport]
    exact Or.inr ⟨fun h => hport ((validatePort_success _).mpr h.port),
      argsHeld.exit (Frees.single _)⟩
  rw [if_neg (not_not_intro hport)]
  obtain ⟨tsocket, ⟨hstatus, hsocket, hcalls⟩ | ⟨hstatus, honce, hcalls⟩⟩ :=
    initServerSocket_spec out.socket
  case inr =>
    rw [if_pos hstatus]
    exact Or.inr ⟨fun h => hcalls h.socket,
      (argsHeld.skip honce targs tsocket args_not_socket).exit (Frees.single _)⟩
  rw [if_neg (not_not_intro hstatus)]
  have hsocket' := argsHeld.append hsocket targs tsocket args_not_socket
  have tsocket' := targs.union tsocket
  have fsocket := (Frees.single Resource.args).append (Frees.single Resource.socket)
    args_not_socket
  obtain ⟨t, trLogs, tlogs, ⟨hopens, hlogs, hopen, hclose⟩ | ⟨⟨hflag, i, hi, hfail⟩, honce, hopen⟩⟩ :=
    logsFiles_contract out.logsFilesFlag n "logs/srv/sensor_%u_server_logs.txt" out.logs
  case inr =>
    rw [openServerLogsFiles, hopen, if_pos rfl]
    exact Or.inr ⟨fun h => hfail (h.logs hflag i hi),
      (hsocket'.skip honce tsocket' tlogs (argsSocket_not_logs n)).exit fsocket⟩
  rw [openServerLogsFiles, hopen, if_neg (by simp)]
  have hlogs' := hsocket'.append hlogs tsocket' tlogs (argsSocket_not_logs n)
  have tlogs' := tsocket'.union tlogs
  obtain ⟨queues, trQueues, tqueues, ⟨hcreates, hq, hqueues, hcreate⟩ |
      ⟨⟨i, hi, hfail⟩, honce, hcreate⟩⟩ := createServerQueues_spec out.queueCreate n
  case inr =>
    have flogs := fsocket.append (hclose out.fclose).1 fun r hr hin =>
      argsSocket_not_logs n r hr (logsHeld_subset _ n hin)
    rw [hcreate, if_pos (by simp)]
    exact Or.inr ⟨fun h => by simp [h.queues i hi] at hfail,
      (hlogs'.skip honce tlogs' tqueues (argsSocketLogs_not_queues n)).exit flogs⟩
  rw [hcreate, if_neg (not_not_intro rfl)]
  refine Or.inl ⟨?_, t, queues, _, hlogs'.append hqueues tlogs' tqueues
    (argsSocketLogs_not_queues n), fun hflag => (hopens hflag).2, hq,
    fun fclose => (hclose fclose).1, ?_⟩
  · exact {
      signals := by_contra fun h => hsignals ((initSignalHandlers_error _ _).mpr h)
      cmdlineParser := Bool.eq_true_of_not_eq_false hparser
      clock := by_contra fun h => hclock ((getCurrentTime_error _ _).mpr h)
      port := (validatePort_success _).mp hport
      socket := hcalls
      logs := fun hflag => (hopens hflag).1
      queues := hcreates }
  · unfold serverRun
    by_cases hthreads : initServerThreads out.threadCreate n = .success
    · rw [if_neg (not_not_intro hthreads), if_neg (not_not_intro hthreads)]
    · rw [if_pos hthreads, if_pos hthreads]

/-- **Every way out of main releases everything once.**  For every number of sensors and every
outcome of each call, each resource that main has acquired on its way has its release attempted
exactly once, and nothing else is released. -/
theorem serverMain_releases_once (n : Nat) (out : ServerOutcomes) :
    ReleasedOnce (serverMain n out).2 := by
  obtain ⟨-, t, queues, tr, hholds, -, hq, hclose, htrace⟩ | ⟨-, honce⟩ := serverMain_startUp n out
  case inr => exact honce
  rw [htrace]
  refine hholds.exit ?_
  have fqueues := destroyNQueues_frees queues n hq
  unfold serverRun
  by_cases hthreads : initServerThreads out.threadCreate n = .success
  · rw [if_neg (not_not_intro hthreads)]
    exact serverShutDown_frees n out t queues (logsHeld_subset _ n) (hclose out.fclose) fqueues
  · rw [if_pos hthreads]
    have fsocket := (Frees.single Resource.args).append (Frees.single Resource.socket)
      args_not_socket
    have flogs := fsocket.append (hclose out.fclose) fun r hr hin =>
      argsSocket_not_logs n r hr (logsHeld_subset _ n hin)
    exact flogs.append fqueues fun r hr =>
      argsSocketLogs_not_queues n r (hr.imp id fun hin => logsHeld_subset _ n hin)

end SensorSimulator
