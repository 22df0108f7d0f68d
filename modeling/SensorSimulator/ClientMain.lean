import SensorSimulator.StartUp

/-!
# main of the client: the way in and every way out

* `ClientOutcomes`     what the calls on the way come back with;
* `initClientSocket`   of client_socket.c;
* `clientMain`         main;
* `clientMain_releases_once_iff`   all is released once exactly when no call fails: every error exit
                       leaves the parsed arguments behind.
-/

namespace SensorSimulator
open Resources

/-! ## the calls -/

/-- what `socket`, `setsockopt` and `getaddrinfo` come back with -/
structure ClientSocketOutcomes where
  socket : Bool
  setsockopt : Bool
  getaddrinfo : Bool

structure ClientOutcomes where
  cmdlineParser : Bool
  packetsPerSensor : Int       -- args.packets_per_sensor_arg
  port : Int                   -- args.port_arg
  logsFilesFlag : Bool         -- args.logs_files_flag
  socket : ClientSocketOutcomes
  logs : OpenOutcomes
  threadCreate : Nat → Bool
  join : Nat → Bool
  close : Bool
  fclose : Nat → Bool          -- of close_logs_files

def initClientSocket (out : ClientSocketOutcomes) : ClientSocketStatus × Trace :=
  if out.socket = false then (.initClientSocketSocketError, [])
  else
    let tr : Trace := [.acquire .socket]
    if out.setsockopt = false then (.initClientSocketSetsockoptError, tr ++ [.release .socket])
    else if out.getaddrinfo = false then
      (.initClientSocketGetaddrinfoError, tr ++ [.release .socket])
    else (.success, tr ++ [.acquire .addrinfo, .release .addrinfo])

/-- `client_queues_status_e` -/
inductive ClientQueuesStatus where
  | success
  | initClientThreadsPthreadCreateError
  deriving DecidableEq

def initClientThreads (create : Nat → Bool) (n : Nat) : ClientQueuesStatus :=
  if turns create n then .success else .initClientThreadsPthreadCreateError

theorem initClientThreads_success (create : Nat → Bool) (n : Nat) :
    initClientThreads create n = .success ↔ ∀ i < n, create i = true := by
  rw [← turns_eq_true]
  unfold initClientThreads
  cases turns create n <;> simp

/-! ## main -/

/-- `n` is `NUMBER_OF_SENSORS` -/
def clientMain (n : Nat) (out : ClientOutcomes) : ExitCode × Trace :=
  if out.cmdlineParser = false then (.failure, [])
  else
    let tr : Trace := [.acquire .args]
    if out.packetsPerSensor ≤ 0 then (.failure, tr)
    else if validatePort out.port ≠ .success then (.failure, tr)
    else
      let socket := initClientSocket out.socket
      let tr := tr ++ socket.2
      if socket.1 ≠ .success then (.failure, tr)
      else
        let logs := openClientLogsFiles n out.logsFilesFlag (some .null) out.logs
        let tr := tr ++ logs.trace
        if logs.status = .error then (.failure, tr ++ (closeSocket out.close).2)
        else if initClientThreads out.threadCreate n ≠ .success then
          (.failure, tr ++ ((closeSocket out.close).2 ++
            (closeLogsFiles n out.logsFilesFlag logs.table out.fclose).trace))
        else if joinThreads out.join n = .error then
          (.failure, tr ++ ((closeSocket out.close).2 ++
            (closeLogsFiles n out.logsFilesFlag logs.table out.fclose).trace))
        else
          let closed := closeSocket out.close
          if closed.1 = .error then (.failure, tr ++ closed.2)
          else
            let closedLogs := closeLogsFiles n out.logsFilesFlag logs.table out.fclose
            if closedLogs.status = .error then (.failure, tr ++ (closed.2 ++ closedLogs.trace))
            else (.success, tr ++ (closed.2 ++ closedLogs.trace ++ cmdlineParserFree))

/-- no call of the start-up or the shut-down fails -/
structure ClientOutcomes.AllSucceed (n : Nat) (out : ClientOutcomes) : Prop where
  packets : 0 < out.packetsPerSensor
  port : 1024 ≤ out.port ∧ out.port ≤ 65535
  socket : out.socket.socket = true ∧ out.socket.setsockopt = true ∧
    out.socket.getaddrinfo = true
  logs : out.logsFilesFlag = true → ∀ i < n, out.logs.opens i
  threads : ∀ i < n, out.threadCreate i = true
  joins : ∀ i < n, out.join i = true
  close : out.close = true
  fclose : out.logsFilesFlag = true → ∀ i < n, out.fclose i = true

/-! ## what the calls hold -/

theorem initClientSocket_spec (out : ClientSocketOutcomes) :
    Touches {.socket, .addrinfo} (initClientSocket out).2 ∧
      (((initClientSocket out).1 = .success ∧ Holds {.socket} (initClientSocket out).2 ∧
          out.socket = true ∧ out.setsockopt = true ∧ out.getaddrinfo = true) ∨
        ((initClientSocket out).1 ≠ .success ∧
          ¬ (out.socket = true ∧ out.setsockopt = true ∧ out.getaddrinfo = true))) := by
  have tsocket : ∀ e : Event Resource, e.resource = .socket →
      Touches {.socket, .addrinfo} [e] := fun e he => Touches.single (Or.inl he)
  have taddr : ∀ e : Event Resource, e.resource = .addrinfo →
      Touches {.addrinfo} [e] := fun e he => Touches.single he
  have hone := Holds.single Resource.socket
  have tone : Touches {Resource.socket} [.acquire Resource.socket] := Touches.single rfl
  unfold initClientSocket
  dsimp only
  split
  · rename_i h
    exact ⟨Touches.nil _, Or.inr ⟨by simp, by simp [h]⟩⟩
  split
  · rename_i h
    exact ⟨(tsocket _ rfl).append (tsocket _ rfl), Or.inr ⟨by simp, by simp [h]⟩⟩
  split
  · rename_i h
    exact ⟨(tsocket _ rfl).append (tsocket _ rfl), Or.inr ⟨by simp, by simp [h]⟩⟩
  · rename_i h1 h2 h3
    have honce := (Holds.single Resource.addrinfo).exit (Frees.single _)
    have taddrs := (taddr (.acquire .addrinfo) rfl).append (taddr (.release .addrinfo) rfl)
    refine ⟨tone.union taddrs, Or.inl ⟨rfl, ?_, ?_⟩⟩
    · exact hone.skip honce tone taddrs (by rintro r rfl; simp)
    · exact ⟨Bool.eq_true_of_not_eq_false h1, Bool.eq_true_of_not_eq_false h2,
        Bool.eq_true_of_not_eq_false h3⟩

theorem clientMain_held {n : Nat} {close : Bool} {logs : Set Resource} {socket opened closed : Trace}
    (tsocket : Touches {.socket, .addrinfo} socket) (hsocket : Holds {.socket} socket)
    (tlogs : Touches (logsBelow n) opened) (hlogs : Holds logs opened) (hfrees : Frees logs closed)
    (hsub : logs ⊆ logsBelow n) :
    ReleasedOnce ([.acquire .args] ++ socket ++ opened ++
      ((closeSocket close).2 ++ closed ++ cmdlineParserFree)) := by
  have targs : Touches ({.args} : Set Resource) [.acquire .args] := Touches.single rfl
  have hfirst := argsHeld.append hsocket targs tsocket (by rintro r rfl; simp)
  have hall := hfirst.append hlogs (targs.union tsocket) tlogs (by
    rintro r (rfl | rfl | rfl) <;> simp [Resource.logBelow])
  have hclosed : Frees ({.socket} ∪ logs) ((closeSocket close).2 ++ closed) :=
    (Frees.single _).append hfrees (by rintro r rfl hr; exact hsub hr)
  have hargs : Resource.args ∉ {.socket} ∪ logs := by
    rintro (h | h)
    · cases h
    · exact hsub h
  have hset : ({.args} ∪ {.socket} ∪ logs : Set Resource) = {.socket} ∪ logs ∪ {.args} := by
    rw [Set.union_assoc, Set.union_comm]
  rw [hset] at hall
  exact hall.exit (hclosed.snoc hargs)

/-! ## every way out -/

/-- **All is released once exactly when no call fails.**  Every error exit of main leaves the
parsed arguments behind, and the one behind a failed `close` the log files as well. -/
theorem clientMain_releases_once_iff (n : Nat) (out : ClientOutcomes) :
    ReleasedOnce (clientMain n out).2 ↔ (out.cmdlineParser = true → out.AllSucceed n) := by
  -- what the way in and out touches besides the parsed arguments
  let others : Set Resource := {r | r ≠ .args}
  have hleak : ∀ tr : Trace, Touches others tr → ¬ ReleasedOnce ([.acquire .args] ++ tr) :=
    fun tr ht => ht.not_releasedOnce fun h => h rfl
  have hlogsOthers : logsBelow n ⊆ others := by
    rintro r hr rfl
    exact hr
  have tclose : Touches others (closeSocket out.close).2 :=
    Touches.single (by simp [others, Event.resource])
  unfold clientMain
  dsimp only
  by_cases hparser : out.cmdlineParser = false
  · rw [if_pos hparser]
    exact iff_of_true Holds.nil.releasedOnce (by simp [hparser])
  rw [if_neg hparser, Bool.eq_true_of_not_eq_false hparser]
  by_cases hpackets : out.packetsPerSensor ≤ 0
  · rw [if_pos hpackets]
    exact iff_of_false (hleak [] (Touches.nil _))
      fun hall => absurd (hall rfl).packets (not_lt_of_ge hpackets)
  rw [if_neg hpackets]
  by_cases hport : validatePort out.port = .success
  case neg =>
    rw [if_pos hport]
    exact iff_of_false (hleak [] (Touches.nil _))
      fun hall => hport ((validatePort_success _).mpr (hall rfl).port)
  rw [if_neg (not_not_intro hport)]
  obtain ⟨tsocket, hsocket⟩ := initClientSocket_spec out.socket
  have tsocket' : Touches others (initClientSocket out.socket).2 :=
    tsocket.mono (by rintro r (rfl | rfl) <;> simp [others])
  obtain ⟨hstatus, hsocket, hcalls⟩ | ⟨hstatus, hcalls⟩ := hsocket
  case inr =>
    rw [if_pos hstatus]
    exact iff_of_false (hleak _ tsocket') fun hall => hcalls (hall rfl).socket
  rw [if_neg (not_not_intro hstatus)]
  obtain ⟨t, trLogs, tlogs, hlogsFiles⟩ :=
    logsFiles_contract out.logsFilesFlag n "logs/cli/sensor_%u_client_logs.txt" out.logs
  have hleak' : ∀ tr : Trace, Touches others tr →
      ¬ ReleasedOnce ([.acquire .args] ++ (initClientSocket out.socket).2 ++ trLogs ++ tr) := by
    intro tr ht
    rw [List.append_assoc, List.append_assoc]
    exact hleak _ (tsocket'.append ((tlogs.mono hlogsOthers).append ht))
  obtain ⟨hopens, hlogs, hopen, hclose⟩ | ⟨⟨hflag, i, hi, hfail⟩, -, hopen⟩ := hlogsFiles
  case inr =>
    rw [openClientLogsFiles, hopen, if_pos rfl]
    exact iff_of_false (hleak' _ tclose) fun hall => hfail ((hall rfl).logs hflag i hi)
  rw [openClientLogsFiles, hopen, if_neg (by simp)]
  obtain ⟨hfrees, hfclose⟩ := hclose out.fclose
  have tcloses := tclose.append (hfrees.2.mono ((logsHeld_subset _ n).trans hlogsOthers))
  by_cases hcreate : initClientThreads out.threadCreate n = .success
  case neg =>
    rw [if_pos hcreate]
    exact iff_of_false (hleak' _ tcloses)
      fun hall => hcreate ((initClientThreads_success _ n).mpr (hall rfl).threads)
  rw [if_neg (not_not_intro hcreate)]
  by_cases hjoin : joinThreads out.join n = .error
  · rw [if_pos hjoin]
    exact iff_of_false (hleak' _ tcloses)
      fun hall => (joinThreads_error _ n).mp hjoin (hall rfl).joins
  rw [if_neg hjoin]
  by_cases hclosed : (closeSocket out.close).1 = .error
  · rw [if_pos hclosed]
    refine iff_of_false (hleak' _ tclose) fun hall => ?_
    cases (hall rfl).close.symm.trans ((closeSocket_error _).mp hclosed)
  rw [if_neg hclosed]
  by_cases hclosedLogs : (closeLogsFiles n out.logsFilesFlag t out.fclose).status = .error
  · rw [if_pos hclosedLogs]
    refine iff_of_false (hleak' _ tcloses) fun hall => ?_
    obtain ⟨hflag, i, hi, hfail⟩ := hfclose.mp hclosedLogs
    rw [(hall rfl).fclose hflag i hi] at hfail
    cases hfail
  rw [if_neg hclosedLogs]
  refine iff_of_true ?_ fun _ => ?_
  · exact clientMain_held tsocket hsocket tlogs hlogs hfrees (logsHeld_subset _ n)
  · exact {
      packets := not_le.mp hpackets
      port := (validatePort_success _).mp hport
      socket := hcalls
      logs := fun hflag => (hopens hflag).1
      threads := (initClientThreads_success _ n).mp hcreate
      joins := by_contra fun hfail => hjoin ((joinThreads_error _ n).mpr hfail)
      close := Bool.eq_true_of_not_eq_false fun hfail => hclosed ((closeSocket_error _).mpr hfail)
      fclose := fun hflag i hi => Bool.eq_true_of_not_eq_false fun hfail =>
        hclosedLogs (hfclose.mpr ⟨hflag, i, hi, hfail⟩) }

/-- a host that `getaddrinfo` does not resolve: the socket is closed, the arguments are not freed -/
theorem clientMain_leaks_args :
    ∃ out : ClientOutcomes, out.cmdlineParser = true ∧
      (clientMain 5 out).2 = [.acquire .args, .acquire .socket, .release .socket] ∧
      ¬ ReleasedOnce (clientMain 5 out).2 := by
  let out : ClientOutcomes :=
    { cmdlineParser := true, packetsPerSensor := 10, port := 8080, logsFilesFlag := true
      socket := ⟨true, true, false⟩
      logs := ⟨fun _ => 30, fun _ => true, fun _ => true, fun _ => true⟩
      threadCreate := fun _ => true, join := fun _ => true, close := true, fclose := fun _ => true }
  refine ⟨out, rfl, rfl, fun h => ?_⟩
  exact absurd (h .args) (by decide)

end SensorSimulator
