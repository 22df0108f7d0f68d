import SensorSimulator.EndToEnd
import SensorSimulator.StartUp

/-!
# The client process: main and its threads

* `State N`       the process with `N` sensors, from the first `pthread_create` on;
* `MainPc`        where main stands: `init_client_threads`, `join_threads`, `close_socket`,
                  `close_logs_files`; and the ways out;
* `step`          one step of main or of a thread, and what it puts on the network;
* `Move`          the transitions of `step`;
* `Sound`         the invariant: which threads have been created, joined, and have returned, and that
                  each runs `handle_server`.
-/

namespace SensorSimulator
namespace Client
open Resources

variable {N : Nat}

/-! ## the process -/

inductive ThreadPc where
  | notCreated
  | running
  | ended
  deriving DecidableEq

/-- what belongs to one sensor.  That the file is closed is noted and has no other effect: what a
thread then does with it is undefined in C, here it goes on. -/
structure Lane where
  pc : ThreadPc
  sensor : Sensor
  logsFileClosed : Bool

/-- a `pthread_create` or a `pthread_join` that has failed, at the thread `i` -/
inductive ThreadFailure where
  | create (i : Nat)
  | join (i : Nat)
  deriving DecidableEq

/-- the ways out of main, from the first `pthread_create` on -/
inductive ExitPath where
  | threadFailure (failed : ThreadFailure)
  | closeFailure
  | closeLogsFailure
  | shutDown
  deriving DecidableEq

def ExitPath.code : ExitPath → ExitCode
  | .shutDown => .success
  | _ => .failure

/-- `cmdline_parser_free` stands in front of the normal end only -/
def ExitPath.argsFreed : ExitPath → Trace
  | .shutDown => cmdlineParserFree
  | _ => []

/-- where main stands; `failed` is what it is on its way out for, if a thread call has failed -/
inductive MainPc where
  | create (i : Nat)
  | join (i : Nat)
  | closeSocket (failed : Option ThreadFailure)
  | closeLogs (failed : Option ThreadFailure) (i : Nat) (errorFlag : Bool)
  | exited (path : ExitPath)
  deriving DecidableEq

/-- `released` is what main has released since its first `pthread_create`, in order -/
structure State (N : Nat) where
  main : MainPc
  socketClosed : Bool
  released : Trace
  lanes : Fin N → Lane

/-- after `open_client_logs_files` and the first loop of `init_client_threads` -/
def init (p : ClientProcess) (N : Nat) : State N where
  main := .create 0
  socketClosed := false
  released := []
  lanes i := { pc := .notCreated, sensor := .start (p.threadParams i), logsFileClosed := false }

def State.onLane (s : State N) (i : Fin N) (f : Lane → Lane) : State N :=
  { s with lanes := Function.update s.lanes i (f (s.lanes i)) }

def Lane.create (l : Lane) : Lane := { l with pc := .running }
def Lane.call (t : Sensor) (l : Lane) : Lane := { l with sensor := t }
def Lane.ret (l : Lane) : Lane := { l with pc := .ended }
def Lane.closeLogsFile (l : Lane) : Lane := { l with logsFileClosed := true }

/-- `close_socket`: the descriptor is gone whatever `close` comes back with -/
def State.closeSocket (s : State N) : State N :=
  { s with socketClosed := true, released := s.released ++ [.release .socket] }

/-- a turn of `close_logs_files`: the file, and its name -/
def State.closeLogsFile (s : State N) (i : Fin N) : State N :=
  { s.onLane i Lane.closeLogsFile with
      released := s.released ++ [.release (.file i), .release (.filename i)] }

def State.exit (s : State N) (path : ExitPath) : State N :=
  { s with main := .exited path, released := s.released ++ path.argsFreed }

@[simp] theorem closeSocket_lanes (s : State N) : s.closeSocket.lanes = s.lanes := rfl

@[simp] theorem closeLogsFile_lanes (s : State N) (i : Fin N) :
    (s.closeLogsFile i).lanes = (s.onLane i Lane.closeLogsFile).lanes := rfl

@[simp] theorem exit_lanes (s : State N) (path : ExitPath) : (s.exit path).lanes = s.lanes := rfl

@[simp] theorem exit_main (s : State N) (path : ExitPath) :
    (s.exit path).main = .exited path := rfl

inductive MainChoice where
  | proceed
  | fail
  deriving DecidableEq

/-- behind `close_logs_files`: a failure before it, or its own -/
def exitPath (failed : Option ThreadFailure) (errorFlag : Bool) : ExitPath :=
  match failed with
  | some failed => .threadFailure failed
  | none => if errorFlag then .closeLogsFailure else .shutDown

def mainStep (p : ClientProcess) (s : State N) (c : MainChoice) : Option (State N) :=
  match s.main, c with
  | .create i, .proceed =>
    if h : i < N then some { s.onLane ⟨i, h⟩ Lane.create with main := .create (i + 1) }
    else some { s with main := .join 0 }
  | .create i, .fail =>
    if i < N then some { s with main := .closeSocket (some (.create i)) } else none
  | .join i, .proceed =>
    if h : i < N then
      if (s.lanes ⟨i, h⟩).pc = .ended then some { s with main := .join (i + 1) } else none
    else some { s with main := .closeSocket none }
  | .join i, .fail =>
    if i < N then some { s with main := .closeSocket (some (.join i)) } else none
  | .closeSocket none, .fail => some (s.closeSocket.exit .closeFailure)
  -- on the way out for a failure the status of `close_socket` is not asked for
  | .closeSocket failed, _ => some { s.closeSocket with main := .closeLogs failed 0 false }
  | .closeLogs failed i errorFlag, c =>
    if h : p.logsFilesFlag = true ∧ i < N then
      some { s.closeLogsFile ⟨i, h.2⟩ with
               main := .closeLogs failed (i + 1) (errorFlag || decide (c = .fail)) }
    else if c = .proceed then some (s.exit (exitPath failed errorFlag))
    else none
  | .exited _, _ => none

/-- in a thread: a call of its loop, or the return behind the loop -/
inductive ThreadChoice where
  | call (c : SensorChoice)
  | ret

/-- a thread does not ask whether main has closed the socket.  A `sendto` behind the `close` fails, one
that was in it when main closed may still send: the outcome in `c` stands for both. -/
def threadStep (p : ClientProcess) (s : State N) (i : Fin N) (c : ThreadChoice) :
    Option (State N × List (List UInt8)) :=
  if (s.lanes i).pc = .running then
    match c with
    | .call c =>
      ((s.lanes i).sensor.step p.host (p.threadParams i) c).map fun r =>
        (s.onLane i (Lane.call r.1), r.2)
    | .ret =>
      if (s.lanes i).sensor.logging = none ∧ (s.lanes i).sensor.thread.packetsPerThread = 0 then
        some (s.onLane i Lane.ret, [])
      else none
  else none

inductive Action (N : Nat) where
  | main (c : MainChoice)
  | thread (i : Fin N) (c : ThreadChoice)

def MainPc.isExited : MainPc → Bool
  | .exited _ => true
  | _ => false

/-- with the datagrams that go out -/
def send (p : ClientProcess) (s : State N) (a : Action N) :
    Option (State N × List (List UInt8)) :=
  if s.main.isExited then none
  else
    match a with
    | .main c => (mainStep p s c).map fun s' => (s', [])
    | .thread i c => threadStep p s i c

def step (p : ClientProcess) (s : State N) (a : Action N) : Option (State N) :=
  (send p s a).map Prod.fst

def Reachable (p : ClientProcess) (s : State N) : Prop :=
  ∃ as, Runs.exec (step p) (init p N) as = some s

/-! ## the transitions -/

inductive MainMove (p : ClientProcess) (s : State N) : MainChoice → State N → Prop
  | create (i : Nat) (hpc : s.main = .create i) (hi : i < N) :
      MainMove p s .proceed { s.onLane ⟨i, hi⟩ Lane.create with main := .create (i + 1) }
  | created (i : Nat) (hpc : s.main = .create i) (hi : ¬ i < N) :
      MainMove p s .proceed { s with main := .join 0 }
  | createFails (i : Nat) (hpc : s.main = .create i) (hi : i < N) :
      MainMove p s .fail { s with main := .closeSocket (some (.create i)) }
  | join (i : Nat) (hpc : s.main = .join i) (hi : i < N) (he : (s.lanes ⟨i, hi⟩).pc = .ended) :
      MainMove p s .proceed { s with main := .join (i + 1) }
  | joined (i : Nat) (hpc : s.main = .join i) (hi : ¬ i < N) :
      MainMove p s .proceed { s with main := .closeSocket none }
  | joinFails (i : Nat) (hpc : s.main = .join i) (hi : i < N) :
      MainMove p s .fail { s with main := .closeSocket (some (.join i)) }
  | closeFails (hpc : s.main = .closeSocket none) :
      MainMove p s .fail (s.closeSocket.exit .closeFailure)
  | close (failed : Option ThreadFailure) (c : MainChoice) (hpc : s.main = .closeSocket failed)
      (hc : failed = none → c = .proceed) :
      MainMove p s c { s.closeSocket with main := .closeLogs failed 0 false }
  | closeLogsFile (failed : Option ThreadFailure) (i : Nat) (errorFlag : Bool) (c : MainChoice)
      (hpc : s.main = .closeLogs failed i errorFlag) (hon : p.logsFilesFlag = true) (hi : i < N) :
      MainMove p s c { s.closeLogsFile ⟨i, hi⟩ with
        main := .closeLogs failed (i + 1) (errorFlag || decide (c = .fail)) }
  | exit (failed : Option ThreadFailure) (i : Nat) (errorFlag : Bool)
      (hpc : s.main = .closeLogs failed i errorFlag) (hend : p.logsFilesFlag = true → ¬ i < N) :
      MainMove p s .proceed (s.exit (exitPath failed errorFlag))

theorem MainChoice.eq_proceed {c : MainChoice} (h : c ≠ .fail) : c = .proceed := by
  cases c with
  | proceed => rfl
  | fail => exact absurd rfl h

theorem mainStep_move {p : ClientProcess} {s s' : State N} {c : MainChoice}
    (h : mainStep p s c = some s') : MainMove p s c s' := by
  unfold mainStep at h
  split at h
  case h_1 i hpc =>
    split at h
    · cases h
      exact .create i hpc _
    · rename_i hi
      cases h
      exact .created i hpc hi
  case h_2 i hpc =>
    split at h
    · rename_i hi
      cases h
      exact .createFails i hpc hi
    · cases h
  case h_3 i hpc =>
    split at h
    · split at h
      · rename_i hi he
        cases h
        exact .join i hpc hi he
      · cases h
    · rename_i hi
      cases h
      exact .joined i hpc hi
  case h_4 i hpc =>
    split at h
    · rename_i hi
      cases h
      exact .joinFails i hpc hi
    · cases h
  case h_5 hpc =>
    cases h
    exact .closeFails hpc
  case h_6 _ failed hpc hnot =>
    cases h
    exact .close failed _ hpc fun hnone => MainChoice.eq_proceed fun hc => hnot hc hnone
  case h_7 _ failed i errorFlag hpc =>
    split at h
    · rename_i hon
      cases h
      exact .closeLogsFile failed i errorFlag _ hpc hon.1 hon.2
    · rename_i hend
      split at h
      · rename_i hc
        cases h
        rw [hc]
        exact .exit failed i errorFlag hpc fun hon hi => hend ⟨hon, hi⟩
      · cases h
  case h_8 => cases h

/-- the transitions of `send` -/
inductive Move (p : ClientProcess) (s : State N) :
    Action N → State N → List (List UInt8) → Prop
  | main (c : MainChoice) (s' : State N) (h : MainMove p s c s') : Move p s (.main c) s' []
  | call (i : Fin N) (c : SensorChoice) (t : Sensor) (ds : List (List UInt8))
      (hpc : (s.lanes i).pc = .running) (hx : s.main.isExited = false)
      (h : (s.lanes i).sensor.step p.host (p.threadParams i) c = some (t, ds)) :
      Move p s (.thread i (.call c)) (s.onLane i (Lane.call t)) ds
  | ret (i : Fin N) (hpc : (s.lanes i).pc = .running) (hx : s.main.isExited = false)
      (hlog : (s.lanes i).sensor.logging = none)
      (h0 : (s.lanes i).sensor.thread.packetsPerThread = 0) :
      Move p s (.thread i .ret) (s.onLane i Lane.ret) []

theorem send_move {p : ClientProcess} {s s' : State N} {a : Action N} {ds : List (List UInt8)}
    (h : send p s a = some (s', ds)) : Move p s a s' ds := by
  unfold send at h
  split at h
  · cases h
  rename_i hx
  have hx : s.main.isExited = false := Bool.eq_false_of_not_eq_true hx
  cases a with
  | main c =>
    obtain ⟨s1, hs1, he⟩ := Option.map_eq_some_iff.mp h
    cases he
    exact .main c _ (mainStep_move hs1)
  | thread i c =>
    replace h : threadStep p s i c = some (s', ds) := h
    unfold threadStep at h
    split at h
    case isFalse => cases h
    rename_i hpc
    cases c with
    | call c =>
      obtain ⟨⟨t, ds'⟩, ht, he⟩ := Option.map_eq_some_iff.mp h
      cases he
      exact .call i c t _ hpc hx ht
    | ret =>
      dsimp only at h
      split at h
      · rename_i hret
        cases h
        exact .ret i hpc hx hret.1 hret.2
      · cases h

theorem step_move {p : ClientProcess} {s s' : State N} {a : Action N}
    (h : step p s a = some s') : ∃ ds, Move p s a s' ds := by
  obtain ⟨⟨s1, ds⟩, hsend, he⟩ := Option.map_eq_some_iff.mp h
  cases he
  exact ⟨ds, send_move hsend⟩

/-! ## where the threads are -/

def ThreadFailure.created (N : Nat) : ThreadFailure → Nat
  | .create i => i
  | .join _ => N

def ThreadFailure.joined : ThreadFailure → Nat
  | .create _ => 0
  | .join i => i

def MainPc.failed : MainPc → Option ThreadFailure
  | .closeSocket failed | .closeLogs failed _ _ => failed
  | .exited (.threadFailure failed) => some failed
  | _ => none

def MainPc.created (N : Nat) : MainPc → Nat
  | .create i => i
  | pc => pc.failed.elim N (ThreadFailure.created N)

def MainPc.joined (N : Nat) : MainPc → Nat
  | .create _ => 0
  | .join i => i
  | pc => pc.failed.elim N ThreadFailure.joined

def MainPc.socketClosed : MainPc → Bool
  | .closeLogs _ _ _ | .exited _ => true
  | _ => false

/-- how many turns of `close_logs_files` are behind main -/
def MainPc.logsClosed (N : Nat) : MainPc → Nat
  | .closeLogs _ i _ => i
  | .exited .closeFailure => 0
  | .exited _ => N
  | _ => 0

structure LaneSound (p : ClientProcess) (N : Nat) (m : MainPc) (i : Nat) (l : Lane) : Prop where
  notCreated : l.pc = .notCreated ↔ m.created N ≤ i
  joined : i < m.joined N → l.pc = .ended
  fresh : l.pc = .notCreated → l.sensor = .start (p.threadParams i)
  returned : l.pc = .ended → l.sensor.logging = none ∧ l.sensor.thread.packetsPerThread = 0
  loop : l.sensor.InLoop p.host (p.threadParams i)
  sends : l.sensor.Sends (p.threadParams i)
  closed : l.logsFileClosed = true ↔ p.logsFilesFlag = true ∧ i < m.logsClosed N

structure Sound (p : ClientProcess) (s : State N) : Prop where
  socket : s.socketClosed = s.main.socketClosed
  lanes : ∀ i : Fin N, LaneSound p N s.main i (s.lanes i)

theorem LaneSound.main {p : ClientProcess} {m m' : MainPc} {i : Nat} {l : Lane}
    (h : LaneSound p N m i l) (hcreated : m'.created N = m.created N)
    (hjoined : i < m'.joined N → l.pc = .ended)
    (hclosed : p.logsFilesFlag = true → (i < m'.logsClosed N ↔ i < m.logsClosed N)) :
    LaneSound p N m' i l :=
  { h with
    notCreated := by rw [hcreated]; exact h.notCreated
    joined := hjoined
    closed := h.closed.trans (and_congr_right fun hon => (hclosed hon).symm) }

theorem exitPath_failed (failed : Option ThreadFailure) (errorFlag : Bool) :
    (MainPc.exited (exitPath failed errorFlag)).failed = failed := by
  cases failed with
  | some failed => rfl
  | none => cases errorFlag <;> rfl

theorem exitPath_logsClosed (failed : Option ThreadFailure) (errorFlag : Bool) :
    (MainPc.exited (exitPath failed errorFlag)).logsClosed N = N := by
  cases failed with
  | some failed => rfl
  | none => cases errorFlag <;> rfl

theorem init_sound (p : ClientProcess) : Sound p (init p N) where
  socket := rfl
  lanes _ :=
    { notCreated := iff_of_true rfl (Nat.zero_le _)
      joined := fun h => absurd h (Nat.not_lt_zero _)
      fresh := fun _ => rfl
      returned := fun h => ThreadPc.noConfusion h
      loop := Sensor.start_inLoop _ _
      sends := Sensor.start_sends _
      closed := iff_of_false Bool.false_ne_true fun h => absurd h.2 (Nat.not_lt_zero _) }

theorem MainMove.sound {p : ClientProcess} {s s' : State N} {c : MainChoice} (hs : Sound p s)
    (h : MainMove p s c s') : Sound p s' := by
  have hlanes := hs.lanes
  cases h
  case create i hpc hi =>
    rw [hpc] at hlanes
    refine ⟨hs.socket.trans (by rw [hpc]; rfl), ?_⟩
    refine (Function.forall_update_iff s.lanes fun j l => LaneSound p N _ j l).mpr
      ⟨?_, fun j hj => ?_⟩
    · have hfresh := (hlanes ⟨i, hi⟩).notCreated.mpr (Nat.le_refl i)
      exact { hlanes ⟨i, hi⟩ with
        notCreated := iff_of_false (fun h => ThreadPc.noConfusion h) (Nat.not_succ_le_self i)
        joined := fun h => absurd h (Nat.not_lt_zero _)
        fresh := fun h => ThreadPc.noConfusion h
        returned := fun h => ThreadPc.noConfusion h }
    · have hne : (j : Nat) ≠ i := fun he => hj (Fin.ext he)
      exact { hlanes j with
        notCreated := (hlanes j).notCreated.trans (by show i ≤ _ ↔ i + 1 ≤ _; omega) }
  case created i hpc hi =>
    rw [hpc] at hlanes
    refine ⟨hs.socket.trans (by rw [hpc]; rfl), fun j => ?_⟩
    have hj := j.isLt
    exact { hlanes j with
      notCreated := (hlanes j).notCreated.trans (by show i ≤ _ ↔ N ≤ _; omega)
      joined := fun h => absurd h (Nat.not_lt_zero _) }
  case createFails i hpc hi =>
    rw [hpc] at hlanes
    refine ⟨hs.socket.trans (by rw [hpc]; rfl), fun j => ?_⟩
    exact (hlanes j).main rfl (fun h => absurd h (Nat.not_lt_zero _)) fun _ => Iff.rfl
  case join i hpc hi he =>
    rw [hpc] at hlanes
    refine ⟨hs.socket.trans (by rw [hpc]; rfl), fun j => ?_⟩
    refine (hlanes j).main rfl (fun h => ?_) fun _ => Iff.rfl
    rcases Nat.lt_succ_iff_lt_or_eq.mp h with hlt | heq
    · exact (hlanes j).joined hlt
    · rw [show j = ⟨i, hi⟩ from Fin.ext heq]
      exact he
  case joined i hpc hi =>
    rw [hpc] at hlanes
    refine ⟨hs.socket.trans (by rw [hpc]; rfl), fun j => ?_⟩
    refine (hlanes j).main rfl (fun _ => (hlanes j).joined ?_) fun _ => Iff.rfl
    have hj := j.isLt
    show (j : Nat) < i
    omega
  case joinFails i hpc hi =>
    rw [hpc] at hlanes
    refine ⟨hs.socket.trans (by rw [hpc]; rfl), fun j => ?_⟩
    exact (hlanes j).main rfl (hlanes j).joined fun _ => Iff.rfl
  case closeFails hpc =>
    rw [hpc] at hlanes
    exact ⟨rfl, fun j => (hlanes j).main rfl (hlanes j).joined fun _ => Iff.rfl⟩
  case close failed hpc hc =>
    rw [hpc] at hlanes
    exact ⟨rfl, fun j => (hlanes j).main rfl (hlanes j).joined fun _ => Iff.rfl⟩
  case closeLogsFile failed i errorFlag hpc hon hi =>
    rw [hpc] at hlanes
    refine ⟨hs.socket.trans (by rw [hpc]; rfl), ?_⟩
    refine (Function.forall_update_iff s.lanes fun j l => LaneSound p N _ j l).mpr
      ⟨?_, fun j hj => ?_⟩
    · exact { hlanes ⟨i, hi⟩ with
        closed := iff_of_true rfl ⟨hon, Nat.lt_succ_self i⟩ }
    · have hne : (j : Nat) ≠ i := fun he => hj (Fin.ext he)
      refine (hlanes j).main rfl (hlanes j).joined fun _ => ?_
      show (j : Nat) < i + 1 ↔ (j : Nat) < i
      omega
  case exit failed i errorFlag hpc hend =>
    rw [hpc] at hlanes
    refine ⟨hs.socket.trans (by rw [hpc]; rfl), fun j => ?_⟩
    have hj := j.isLt
    show LaneSound p N (.exited (exitPath failed errorFlag)) j (s.lanes j)
    refine (hlanes j).main ?_ (fun h => (hlanes j).joined ?_) fun hon => ?_
    · show Option.elim _ _ _ = _
      rw [exitPath_failed]
      rfl
    · replace h : (j : Nat) < Option.elim _ _ _ := h
      rw [exitPath_failed] at h
      exact h
    · have hi := hend hon
      rw [exitPath_logsClosed]
      show (j : Nat) < N ↔ (j : Nat) < i
      omega

theorem Move.sound {p : ClientProcess} {s s' : State N} {a : Action N} {ds : List (List UInt8)}
    (hs : Sound p s) (h : Move p s a s' ds) : Sound p s' := by
  cases h with
  | main c s' hm => exact hm.sound hs
  | call i c t ds hpc hx ht =>
    refine ⟨hs.socket, (Function.forall_update_iff s.lanes fun j l => LaneSound p N _ j l).mpr
      ⟨?_, fun j _ => hs.lanes j⟩⟩
    have hmove := Sensor.step_move ht
    exact { hs.lanes i with
      fresh := fun h => absurd (hpc.symm.trans h) ThreadPc.noConfusion
      returned := fun h => absurd (hpc.symm.trans h) ThreadPc.noConfusion
      loop := hmove.inLoop (hs.lanes i).loop
      sends := hmove.sends (hs.lanes i).sends }
  | ret i hpc hx hlog h0 =>
    refine ⟨hs.socket, (Function.forall_update_iff s.lanes fun j l => LaneSound p N _ j l).mpr
      ⟨?_, fun j _ => hs.lanes j⟩⟩
    have hcreated : ¬ s.main.created N ≤ i := fun h =>
      ThreadPc.noConfusion (hpc.symm.trans ((hs.lanes i).notCreated.mpr h))
    exact { hs.lanes i with
      notCreated := iff_of_false (fun h => ThreadPc.noConfusion h) hcreated
      joined := fun _ => rfl
      fresh := fun h => ThreadPc.noConfusion h
      returned := fun _ => ⟨hlog, h0⟩ }

theorem Sound.after {p : ClientProcess} {s s' : State N} {a : Action N} (hs : Sound p s)
    (h : step p s a = some s') : Sound p s' := by
  obtain ⟨ds, hmove⟩ := step_move h
  exact hmove.sound hs

theorem Reachable.sound {p : ClientProcess} {s : State N} (h : Reachable p s) : Sound p s := by
  obtain ⟨as, hrun⟩ := h
  exact Runs.exec_invariant (fun _ _ _ hs hstep => hs.after hstep) hrun (init_sound p)

theorem Reachable.after {p : ClientProcess} {s s' : State N} {a : Action N} (h : Reachable p s)
    (hstep : step p s a = some s') : Reachable p s' := by
  obtain ⟨as, hrun⟩ := h
  exact ⟨as ++ [a], Runs.exec_append_some.mpr ⟨s, hrun, Runs.exec_single hstep⟩⟩

/-! ## a run -/

def oneSensor : ClientProcess where
  host := .little
  logsFilesFlag := false
  packetsPerSensor := 1
  sensorRate := 10000

/-- one sensor sends its packet and returns, and main goes out -/
def onePacket : List (Action 1) :=
  let sends : SendOutcome := ⟨some 7, .success, .sent (Fin.last _)⟩
  let noLog : LogOutcome := ⟨⟨false, false, .error ""⟩, false, false⟩
  let main (k : Nat) : List (Action 1) := List.replicate k (.main .proceed)
  let thread (c : ThreadChoice) : Action 1 := .thread (Fin.last 0) c
  main 2 ++ [thread (.call (.send sends)), thread (.call (.log noLog)), thread .ret] ++ main 4

def afterOnePacket : State 1 :=
  (Runs.exec (step oneSensor) (init oneSensor 1) onePacket).get (by decide)

theorem exec_onePacket :
    Runs.exec (step oneSensor) (init oneSensor 1) onePacket = some afterOnePacket :=
  (Option.some_get _).symm

end Client
end SensorSimulator
