import SensorSimulator.Receive
import SensorSimulator.Log
import SensorSimulator.Lib.Runs

/-!
# The server process: main, the workers, what they share

* `QueueLibrary`   the queue library, which is there as a binary only: what its functions may do
                   with a queue's contents, and what it is relied on for (`appends`; up to a number
                   of elements, `CountsElements` and `Blocking`);
* `Lane`           everything that belongs to one sensor: queue, worker, totals, log file;
* `WorkerPc`, `MainPc`   where `handle_client` and `main` stand in the source;
* `State N`        the process with `N` sensors, from the first `pthread_create` on;
* `handleClient`   one step of a worker, on its lane;
* `mainStep`, `step`   one step of main, and of the process.

A critical section of a worker is several steps between which it holds its mutex (`locked`); those
of main are one step each, taken when the mutex is free.  What the process does is decided by the
action: the thread that moves and what the system call it is at comes back with.
-/

namespace SensorSimulator
namespace Server

/-! ## the queue library -/

/-- a block that `calloc` has returned -/
abbrev Addr := Nat

/-- what `queue_insert_thread_safe` makes of a queue, `ucdlwb_get_number_of_elements`, and what
`queue_remove_thread_safe_with_condition_no_lock` may do with a queue and a condition: take the
first element, return `NULL`, or wait.  `appends` is an assumption: the insert needs memory of its
own, and without it there is no new element. -/
structure QueueLibrary where
  insert : List Addr → Addr → List Addr
  numberOfElements : List Addr → UInt32
  mayTake : List Addr → Bool → Bool
  mayNull : List Addr → Bool → Bool
  mayWait : List Addr → Bool → Bool
  appends : ∀ q b, insert q b = q ++ [b]

namespace QueueLibrary

/-- among the queues of at most `n` elements, the number is 0 for the empty one only: the number is
a `uint32_t`, so with an `n` below 2^32 -/
def CountsElements (lib : QueueLibrary) (n : Nat) : Prop :=
  ∀ q : List Addr, q.length ≤ n → (lib.numberOfElements q = 0 ↔ q = [])

/-- the remove from a queue of at most `n` elements waits as long as it is empty and the condition
false, then it takes the first element, or returns `NULL` if there is none -/
structure Blocking (lib : QueueLibrary) (n : Nat) : Prop where
  take : ∀ q : List Addr, q.length ≤ n → ∀ done, lib.mayTake q done = true ↔ q ≠ []
  null : ∀ q : List Addr, q.length ≤ n → ∀ done,
    lib.mayNull q done = true ↔ q = [] ∧ done = true
  wait : ∀ q : List Addr, q.length ≤ n → ∀ done,
    lib.mayWait q done = true ↔ q = [] ∧ done = false

variable {lib : QueueLibrary} {m n : Nat}

theorem CountsElements.mono (h : lib.CountsElements n) (hm : m ≤ n) : lib.CountsElements m :=
  fun q hq => h q (hq.trans hm)

theorem Blocking.mono (h : lib.Blocking n) (hm : m ≤ n) : lib.Blocking m where
  take q hq := h.take q (hq.trans hm)
  null q hq := h.null q (hq.trans hm)
  wait q hq := h.wait q (hq.trans hm)

end QueueLibrary

def queueLibrary : QueueLibrary where
  insert q b := q ++ [b]
  numberOfElements q := UInt32.ofNat q.length
  mayTake q _ := !q.isEmpty
  mayNull q done := q.isEmpty && done
  mayWait q done := q.isEmpty && !done
  appends _ _ := rfl

theorem queueLibrary_countsElements {n : Nat} (hn : n < 4294967296) :
    queueLibrary.CountsElements n := by
  intro q hq
  show UInt32.ofNat q.length = 0 ↔ q = []
  rw [← UInt32.toNat_inj, UInt32.toNat_ofNat', ← List.length_eq_zero_iff]
  show q.length % 4294967296 = 0 ↔ _
  omega

theorem queueLibrary_blocking (n : Nat) : queueLibrary.Blocking n where
  take q _ done := by simp [queueLibrary]
  null q _ done := by simp [queueLibrary]
  wait q _ done := by simp [queueLibrary]

structure Config where
  lib : QueueLibrary
  host : ByteOrder
  logsFilesFlag : Bool

/-! ## the workers -/

/-- where a worker stands in `handle_client` -/
inductive WorkerPc where
  | notCreated
  | mask                       -- before pthread_sigmask
  | lock
  | readSize
  | readDone (n : UInt32)
  | leave                      -- the branch that unlocks and breaks
  | remove
  | asleep                     -- in pthread_cond_wait, inside the remove
  | awake                      -- woken there, before it has the mutex again
  | unlock (b : Option Addr)
  | log (b : Addr)
  | count (b : Addr)
  | free (b : Addr)
  | ended
  deriving DecidableEq

namespace WorkerPc

/-- the worker holds the mutex of its queue -/
def locked : WorkerPc → Bool
  | readSize | readDone _ | leave | remove | unlock _ => true
  | _ => false

/-- the block in `data` -/
def held : WorkerPc → Option Addr
  | unlock b => b
  | log b | count b | free b => some b
  | _ => none

/-- the worker has left its loop -/
def left : WorkerPc → Bool
  | leave | ended => true
  | _ => false

/-- the thread has been started and has not ended -/
def running : WorkerPc → Bool
  | notCreated | ended => false
  | _ => true

/-- a signal or a broadcast on the condition variable -/
def woken : WorkerPc → WorkerPc
  | asleep => awake
  | pc => pc

end WorkerPc

/-- what belongs to one sensor.  `inserted`, `finished` and `summed` are the history: the records
ever inserted in the queue, those whose block the worker has freed, the words added to `sum`.  That
the queue is destroyed or the file closed is noted and has no other effect: what a worker then does
with them is undefined in C, here it goes on. -/
structure Lane where
  queue : List Addr
  pc : WorkerPc
  counter : UInt32
  sum : Float32
  logsFile : List LogLine
  logsFileClosed : Bool
  queueDestroyed : Bool
  inserted : List ProtoSensorData
  finished : List ProtoSensorData
  summed : List UInt32

/-- after `create_server_queues` and the first loop of `init_server_threads` -/
def Lane.start : Lane where
  queue := []
  pc := .notCreated
  counter := 0
  sum := 0
  logsFile := []
  logsFileClosed := false
  queueDestroyed := false
  inserted := []
  finished := []
  summed := []

/-- what the outside decides in a step of a worker -/
inductive WorkerChoice where
  | go
  | take
  | null
  | wait
  | log (out : LogOutcome)

def recordIn (cfg : Config) (heap : Addr → PackedData) (b : Addr) : ProtoSensorData :=
  (heap b).view cfg.host

/-- one step of `handle_client` in the thread `id`: the lane after it, and the block it frees -/
def handleClient (cfg : Config) (done : Bool) (heap : Addr → PackedData) (id : UInt32) (l : Lane)
    (c : WorkerChoice) : Option (Lane × List Addr) :=
  match l.pc, c with
  | .mask, .go => some ({ l with pc := .lock }, [])
  | .lock, .go => some ({ l with pc := .readSize }, [])
  | .readSize, .go => some ({ l with pc := .readDone (cfg.lib.numberOfElements l.queue) }, [])
  | .readDone n, .go => some ({ l with pc := if done && n == 0 then .leave else .remove }, [])
  | .leave, .go => some ({ l with pc := .ended }, [])
  | .remove, .take =>
    match l.queue with
    | b :: q =>
      if cfg.lib.mayTake l.queue done then
        some ({ l with queue := q, pc := .unlock (some b) }, [])
      else none
    | [] => none
  | .remove, .null =>
    if cfg.lib.mayNull l.queue done then some ({ l with pc := .unlock none }, []) else none
  | .remove, .wait =>
    if cfg.lib.mayWait l.queue done then some ({ l with pc := .asleep }, []) else none
  | .awake, .go => some ({ l with pc := .remove }, [])
  | .unlock none, .go => some ({ l with pc := .lock }, [])
  | .unlock (some b), .go =>
    some ({ l with pc := if cfg.logsFilesFlag then .log b else .count b }, [])
  | .log b, .log out =>
    match logServerSensorData (some l.logsFile) (some (recordIn cfg heap b)) id out with
    | (.success, some file) => some ({ l with logsFile := file, pc := .count b }, [])
    | _ => some ({ l with pc := .free b }, [])
  | .count b, .go =>
    some ({ l with counter := l.counter + 1
                   sum := l.sum + getFloatValue (recordIn cfg heap b)
                   summed := l.summed ++ [(recordIn cfg heap b).data]
                   pc := .free b }, [])
  | .free b, .go =>
    some ({ l with finished := l.finished ++ [recordIn cfg heap b], pc := .lock }, [b])
  | _, _ => none

/-! ## main -/

/-- the ways out of main, from the first `pthread_create` on: a failure at the thread `i`, or the
normal end -/
inductive ExitPath where
  | createFailure (i : Nat)
  | joinFailure (i : Nat)
  | shutDown
  deriving DecidableEq

inductive CleanUp (N : Nat) where
  | cmdlineParserFree
  | closeSocket
  | closeLogsFile (i : Fin N)
  | destroyQueue (i : Fin N)
  deriving DecidableEq

def closeLogsFiles (N : Nat) (logsFilesFlag : Bool) : List (CleanUp N) :=
  if logsFilesFlag then (List.finRange N).map .closeLogsFile else []

def destroyServerQueues (N : Nat) : List (CleanUp N) := (List.finRange N).map .destroyQueue

def ExitPath.releases (N : Nat) (logsFilesFlag : Bool) : ExitPath → List (CleanUp N)
  | .createFailure _ =>
    .cmdlineParserFree :: .closeSocket :: (closeLogsFiles N logsFilesFlag ++ destroyServerQueues N)
  | .joinFailure _ | .shutDown =>
    .closeSocket :: (closeLogsFiles N logsFilesFlag ++ destroyServerQueues N) ++
      [.cmdlineParserFree]

inductive MainPc (N : Nat) where
  | create (i : Nat)
  | test                       -- while (keep_running)
  | receive                    -- before recvfrom
  | blocked (eintr : Bool)     -- in recvfrom; a handler has run in main since
  | allocate
  | deserialize (b : Addr)
  | checkType (b : Addr)
  | checkSensor (b : Addr)
  | reject (b : Addr)          -- the free of the three rejections
  | insert (b : Addr) (i : Fin N)
  | clear
  | storeDone
  | broadcast (i : Nat)
  | join (i : Nat)
  | report
  | cleanUp (path : ExitPath) (ops : List (CleanUp N))
  | exited (path : ExitPath)
  deriving DecidableEq

/-- the process.  `history` is the list of the finished iterations of the receive loop and
`current` the datagram of the one under way. -/
structure State (N : Nat) where
  main : MainPc N
  done : Bool
  keepRunning : Bool
  buffer : Buffer
  socket : List (List UInt8)
  heap : Addr → PackedData
  allocated : Nat
  freed : List Addr
  lanes : Fin N → Lane
  history : List Iteration
  current : List UInt8

variable {N : Nat}

def init (N : Nat) : State N where
  main := .create 0
  done := false
  keepRunning := true
  buffer := Buffer.zero
  socket := []
  heap := fun _ => PackedData.zero
  allocated := 0
  freed := []
  lanes := fun _ => Lane.start
  history := []
  current := []

/-- lane `i` after `f` -/
def State.onLane (s : State N) (i : Fin N) (f : Lane → Lane) : State N :=
  { s with lanes := Function.update s.lanes i (f (s.lanes i)) }

def Lane.wake (l : Lane) : Lane := { l with pc := l.pc.woken }

/-- `queue_insert_thread_safe`, which signals too -/
def Lane.insert (lib : QueueLibrary) (l : Lane) (b : Addr) (r : ProtoSensorData) : Lane :=
  { l with queue := lib.insert l.queue b, inserted := l.inserted ++ [r], pc := l.pc.woken }

theorem Lane.insert_eq (lib : QueueLibrary) (l : Lane) (b : Addr) (r : ProtoSensorData) :
    l.insert lib b r =
      { l with queue := l.queue ++ [b], inserted := l.inserted ++ [r], pc := l.pc.woken } := by
  rw [Lane.insert, lib.appends]

def Lane.closeLogsFile (l : Lane) : Lane := { l with logsFileClosed := true }
def Lane.destroyQueue (l : Lane) : Lane := { l with queueDestroyed := true }

def State.next (s : State N) (it : Iteration) : State N :=
  { s with main := .test, history := s.history ++ [it] }

/-- `recvfrom` has come back with `r` -/
def State.received (s : State N) (r : Received) : State N :=
  match receiveFromSocket s.buffer r, r with
  | (.success, buffer), .datagram d => { s with buffer := buffer, main := .allocate, current := d }
  | (_, buffer), r => { s with buffer := buffer }.next ⟨r, false⟩

/-- a release.  It is a step that always comes back, also the destroy of a queue that a worker is
using, which in the library may wait for ever: no result says that such a run comes to its exit. -/
def State.release (s : State N) : CleanUp N → State N
  | .cmdlineParserFree | .closeSocket => s
  | .closeLogsFile i => s.onLane i Lane.closeLogsFile
  | .destroyQueue i => s.onLane i Lane.destroyQueue

/-- what the outside decides in a step of main: the call it is at succeeds, fails, or comes back
with `EINTR` -/
inductive MainChoice where
  | proceed
  | fail
  | eintr
  deriving DecidableEq

def mainStep (cfg : Config) (s : State N) (c : MainChoice) : Option (State N) :=
  match s.main, c with
  | .create i, .proceed =>
    if h : i < N then
      some { s.onLane ⟨i, h⟩ (fun l => { l with pc := .mask }) with main := .create (i + 1) }
    else some { s with main := .test }
  | .create i, .fail =>
    if i < N then
      some { s with main := .cleanUp (.createFailure i)
                      ((ExitPath.createFailure i).releases N cfg.logsFilesFlag) }
    else none
  | .test, .proceed => some { s with main := if s.keepRunning then .receive else .storeDone }
  | .receive, .proceed => some { s with main := .blocked false }
  | .blocked _, .proceed =>
    match s.socket with
    | d :: ds => some ({ s with socket := ds }.received (.datagram d))
    | [] => none
  | .blocked true, .eintr => some (s.received .interrupted)
  | .blocked _, .fail => some (s.received .error)
  | .allocate, .proceed =>
    some { s with heap := Function.update s.heap s.allocated PackedData.zero
                  allocated := s.allocated + 1
                  main := .deserialize s.allocated }
  | .allocate, .fail => some (s.next ⟨.datagram s.current, false⟩)
  | .deserialize b, .proceed =>
    match deserializeSensorData cfg.host (some s.buffer.message) (some (s.heap b)) with
    | (.success, some p) =>
      some { s with heap := Function.update s.heap b p, main := .checkType b }
    | _ => some { s with main := .reject b }
  | .checkType b, .proceed =>
    if (recordIn cfg s.heap b).hdr.type ≠ protoSensorData then some { s with main := .reject b }
    else some { s with main := .checkSensor b }
  | .checkSensor b, .proceed =>
    if h : (recordIn cfg s.heap b).hdr.sensorId.toNat ≥ N then some { s with main := .reject b }
    else some { s with main := .insert b ⟨_, Nat.lt_of_not_le h⟩ }
  | .reject b, .proceed =>
    some ({ s with freed := s.freed ++ [b] }.next ⟨.datagram s.current, true⟩)
  | .insert b i, .proceed =>
    if (s.lanes i).pc.locked then none
    else
      some { (s.onLane i fun l => l.insert cfg.lib b (recordIn cfg s.heap b)).next
               ⟨.datagram s.current, true⟩ with main := .clear }
  | .clear, .proceed => some { s with buffer := Buffer.zero, main := .test }
  | .storeDone, .proceed => some { s with done := true, main := .broadcast 0 }
  | .broadcast i, .proceed =>
    if h : i < N then
      if (s.lanes ⟨i, h⟩).pc.locked then none
      else some { s.onLane ⟨i, h⟩ Lane.wake with main := .broadcast (i + 1) }
    else some { s with main := .join 0 }
  | .join i, .proceed =>
    if h : i < N then
      if (s.lanes ⟨i, h⟩).pc = .ended then some { s with main := .join (i + 1) } else none
    else some { s with main := .report }
  | .join i, .fail =>
    if i < N then
      some { s with main := .cleanUp (.joinFailure i)
                      ((ExitPath.joinFailure i).releases N cfg.logsFilesFlag) }
    else none
  | .report, .proceed =>
    some { s with main := .cleanUp .shutDown (ExitPath.shutDown.releases N cfg.logsFilesFlag) }
  | .cleanUp path [], .proceed => some { s with main := .exited path }
  | .cleanUp path (op :: ops), .proceed => some { s.release op with main := .cleanUp path ops }
  | _, _ => none

/-! ## the process -/

def workerStep (cfg : Config) (s : State N) (i : Fin N) (c : WorkerChoice) : Option (State N) :=
  (handleClient cfg s.done s.heap (UInt32.ofNat i) (s.lanes i) c).map fun r =>
    { s.onLane i (fun _ => r.1) with freed := s.freed ++ r.2 }

inductive Signal where
  | sigint
  | sigterm
  deriving DecidableEq

inductive Thread (N : Nat) where
  | main
  | worker (i : Fin N)
  deriving DecidableEq

/-- the thread exists and does not block the signal: a worker blocks `SIGINT` once it is past its
`pthread_sigmask` -/
def State.takes (s : State N) (sig : Signal) : Thread N → Bool
  | .main => true
  | .worker i =>
    (s.lanes i).pc.running && (decide ((s.lanes i).pc = .mask) || decide (sig = .sigterm))

/-- a `recvfrom` of this thread is interrupted -/
def MainPc.interrupt : MainPc N → MainPc N
  | .blocked _ => .blocked true
  | pc => pc

/-- `signal_handler` runs in the thread `t` -/
def State.signalHandler (s : State N) (t : Thread N) : State N :=
  { s with keepRunning := false, main := if t = .main then s.main.interrupt else s.main }

def MainPc.isExited : MainPc N → Bool
  | .exited _ => true
  | _ => false

/-- `wake` is a spurious wake-up, `arrive` the arrival of a datagram at the socket -/
inductive Action (N : Nat) where
  | main (c : MainChoice)
  | worker (i : Fin N) (c : WorkerChoice)
  | wake (i : Fin N)
  | arrive (d : List UInt8)
  | signal (sig : Signal) (t : Thread N)

def step (cfg : Config) (s : State N) (a : Action N) : Option (State N) :=
  if s.main.isExited then none
  else
    match a with
    | .main c => mainStep cfg s c
    | .worker i c => workerStep cfg s i c
    | .wake i => if (s.lanes i).pc = .asleep then some (s.onLane i Lane.wake) else none
    | .arrive d => some { s with socket := s.socket ++ [d] }
    | .signal sig t => if s.takes sig t then some (s.signalHandler t) else none

/-- the states of the runs of the process -/
def Reachable (cfg : Config) (s : State N) : Prop :=
  ∃ as, Runs.exec (step cfg) (init N) as = some s

/-! ## a run -/

def oneSensor : Config where
  lib := queueLibrary
  host := .little
  logsFilesFlag := false

/-- one sensor: a message of zeros arrives and is inserted, `SIGINT` stops main, which goes on to
its join; the worker counts the message and ends -/
def oneMessage : List (Action 1) :=
  let main (k : Nat) : List (Action 1) := List.replicate k (.main .proceed)
  let worker (k : Nat) : List (Action 1) := List.replicate k (.worker 0 .go)
  main 4 ++ [.arrive (List.replicate 14 0)] ++ main 7 ++ [.signal .sigint .main] ++ main 4 ++
    worker 4 ++ [.worker 0 .take] ++ worker 7

theorem reachable_get (cfg : Config) (as : List (Action N))
    (h : (Runs.exec (step cfg) (init N) as).isSome = true) :
    Reachable cfg ((Runs.exec (step cfg) (init N) as).get h) :=
  ⟨as, (Option.some_get h).symm⟩

/-- main waits in its join, the message is in the queue -/
def messageQueued : State 1 :=
  (Runs.exec (step oneSensor) (init 1) (oneMessage.take 17)).get (by decide)

def afterOneMessage : State 1 := (Runs.exec (step oneSensor) (init 1) oneMessage).get (by decide)

/-- main has joined the worker, closed the socket and destroyed the queue -/
def afterTearDown : State 1 :=
  (Runs.exec (step oneSensor) (init 1)
    (oneMessage ++ List.replicate 5 (.main .proceed))).get (by decide)

theorem reachable_messageQueued : Reachable oneSensor messageQueued := reachable_get _ _ _

theorem reachable_afterOneMessage : Reachable oneSensor afterOneMessage := reachable_get _ _ _

example : (afterOneMessage.freed, (afterOneMessage.lanes 0).counter) = ([0], 1) := by decide

end Server
end SensorSimulator
