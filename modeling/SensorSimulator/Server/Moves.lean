import SensorSimulator.Server.State

/-!
# What a step of the server can do

One constructor for each transition, with its guards: `WorkerMove` for a worker on its lane,
`MainMove` for main, `Move` for the process.  `step_move` reads them off the step function; every
invariant is proved from them.
-/

namespace SensorSimulator
namespace Server

/-! ## a worker -/

/-- the transitions of `handleClient` -/
inductive WorkerMove (cfg : Config) (done : Bool) (heap : Addr → PackedData) (id : UInt32)
    (l : Lane) : Lane → List Addr → Prop
  | mask (hpc : l.pc = .mask) : WorkerMove cfg done heap id l { l with pc := .lock } []
  | lock (hpc : l.pc = .lock) : WorkerMove cfg done heap id l { l with pc := .readSize } []
  | readSize (hpc : l.pc = .readSize) : WorkerMove cfg done heap id l
      { l with pc := .readDone (cfg.lib.numberOfElements l.queue) } []
  | goOn (n : UInt32) (hpc : l.pc = .readDone n) (h : done = true → n ≠ 0) :
      WorkerMove cfg done heap id l { l with pc := .remove } []
  | exit (hpc : l.pc = .readDone 0) (h : done = true) :
      WorkerMove cfg done heap id l { l with pc := .leave } []
  | leave (hpc : l.pc = .leave) : WorkerMove cfg done heap id l { l with pc := .ended } []
  | take (b : Addr) (q : List Addr) (hpc : l.pc = .remove) (hq : l.queue = b :: q)
      (h : cfg.lib.mayTake l.queue done = true) :
      WorkerMove cfg done heap id l { l with queue := q, pc := .unlock (some b) } []
  | null (hpc : l.pc = .remove) (h : cfg.lib.mayNull l.queue done = true) :
      WorkerMove cfg done heap id l { l with pc := .unlock none } []
  | wait (hpc : l.pc = .remove) (h : cfg.lib.mayWait l.queue done = true) :
      WorkerMove cfg done heap id l { l with pc := .asleep } []
  | awake (hpc : l.pc = .awake) : WorkerMove cfg done heap id l { l with pc := .remove } []
  | unlockNull (hpc : l.pc = .unlock none) : WorkerMove cfg done heap id l { l with pc := .lock } []
  | unlock (b : Addr) (hpc : l.pc = .unlock (some b)) : WorkerMove cfg done heap id l
      { l with pc := if cfg.logsFilesFlag then .log b else .count b } []
  | logged (b : Addr) (out : LogOutcome) (file : List LogLine) (hpc : l.pc = .log b)
      (h : logServerSensorData (some l.logsFile) (some (recordIn cfg heap b)) id out =
        (.success, some file)) :
      WorkerMove cfg done heap id l { l with logsFile := file, pc := .count b } []
  | logFails (b : Addr) (out : LogOutcome) (hpc : l.pc = .log b)
      (h : (logServerSensorData (some l.logsFile) (some (recordIn cfg heap b)) id out).1 =
        .error) :
      WorkerMove cfg done heap id l { l with pc := .free b } []
  | count (b : Addr) (hpc : l.pc = .count b) : WorkerMove cfg done heap id l
      { l with counter := l.counter + 1
               sum := l.sum + getFloatValue (recordIn cfg heap b)
               summed := l.summed ++ [(recordIn cfg heap b).data]
               pc := .free b } []
  | free (b : Addr) (hpc : l.pc = .free b) : WorkerMove cfg done heap id l
      { l with finished := l.finished ++ [recordIn cfg heap b], pc := .lock } [b]

theorem logServerSensorData_status (file : List LogLine) (data : ProtoSensorData) (id : UInt32)
    (out : LogOutcome) :
    (∃ file', logServerSensorData (some file) (some data) id out = (.success, some file')) ∨
      logServerSensorData (some file) (some data) id out = (.error, some file) := by
  unfold logServerSensorData
  rw [logSensorData_some]
  cases out.clock.text with
  | none => exact Or.inr rfl
  | some time => exact Or.inl ⟨_, rfl⟩

theorem handleClient_move {cfg : Config} {done : Bool} {heap : Addr → PackedData} {id : UInt32}
    {l l' : Lane} {c : WorkerChoice} {fr : List Addr}
    (h : handleClient cfg done heap id l c = some (l', fr)) :
    WorkerMove cfg done heap id l l' fr := by
  unfold handleClient at h
  split at h
  case h_1 hpc => cases h; exact .mask hpc
  case h_2 hpc => cases h; exact .lock hpc
  case h_3 hpc => cases h; exact .readSize hpc
  case h_4 n hpc =>
    cases h
    by_cases hx : done = true ∧ n = 0
    · obtain ⟨hd, rfl⟩ := hx
      rw [if_pos (by simp [hd])]
      exact .exit hpc hd
    · rw [if_neg (by simpa using hx)]
      exact .goOn n hpc (fun hd h0 => hx ⟨hd, h0⟩)
  case h_5 hpc => cases h; exact .leave hpc
  case h_6 hpc =>
    split at h
    · rename_i b q hq
      split at h
      · rename_i hm
        cases h
        exact .take b q hpc hq hm
      · cases h
    · cases h
  case h_7 hpc =>
    split at h
    · rename_i hm
      cases h
      exact .null hpc hm
    · cases h
  case h_8 hpc =>
    split at h
    · rename_i hm
      cases h
      exact .wait hpc hm
    · cases h
  case h_9 hpc => cases h; exact .awake hpc
  case h_10 hpc => cases h; exact .unlockNull hpc
  case h_11 b hpc => cases h; exact .unlock b hpc
  case h_12 b out hpc =>
    rcases logServerSensorData_status l.logsFile (recordIn cfg heap b) id out with ⟨file, hl⟩ | hl
    · rw [hl] at h
      cases h
      exact .logged b out file hpc hl
    · rw [hl] at h
      cases h
      exact .logFails b out hpc (by rw [hl])
  case h_13 b hpc => cases h; exact .count b hpc
  case h_14 b hpc => cases h; exact .free b hpc
  case h_15 => cases h

/-! ## main -/

variable {N : Nat}

/-- the transitions of `mainStep` -/
inductive MainMove (cfg : Config) (s : State N) : MainChoice → State N → Prop
  | create (i : Nat) (hpc : s.main = .create i) (hi : i < N) : MainMove cfg s .proceed
      { s.onLane ⟨i, hi⟩ (fun l => { l with pc := .mask }) with main := .create (i + 1) }
  | created (i : Nat) (hpc : s.main = .create i) (hi : N ≤ i) : MainMove cfg s .proceed
      { s with main := .test }
  | createFails (i : Nat) (hpc : s.main = .create i) (hi : i < N) : MainMove cfg s .fail
      { s with main := .cleanUp (.createFailure i)
                 ((ExitPath.createFailure i).releases N cfg.logsFilesFlag) }
  | goOn (hpc : s.main = .test) (hk : s.keepRunning = true) : MainMove cfg s .proceed
      { s with main := .receive }
  | stop (hpc : s.main = .test) (hk : s.keepRunning = false) : MainMove cfg s .proceed
      { s with main := .storeDone }
  | receive (hpc : s.main = .receive) : MainMove cfg s .proceed { s with main := .blocked false }
  | message (e : Bool) (d : List UInt8) (ds : List (List UInt8)) (hpc : s.main = .blocked e)
      (hs : s.socket = d :: ds) (hd : sizeofProtoSensorData ≤ d.length) :
      MainMove cfg s .proceed
        { s with socket := ds, buffer := s.buffer.recvfrom d, main := .allocate, current := d }
  | short (e : Bool) (d : List UInt8) (ds : List (List UInt8)) (hpc : s.main = .blocked e)
      (hs : s.socket = d :: ds) (hd : d.length < sizeofProtoSensorData) :
      MainMove cfg s .proceed
        ({ s with socket := ds, buffer := s.buffer.recvfrom d }.next ⟨.datagram d, false⟩)
  | interrupted (hpc : s.main = .blocked true) : MainMove cfg s .eintr
      (s.next ⟨.interrupted, false⟩)
  | recvError (e : Bool) (hpc : s.main = .blocked e) : MainMove cfg s .fail
      (s.next ⟨.error, false⟩)
  | allocate (hpc : s.main = .allocate) : MainMove cfg s .proceed
      { s with heap := Function.update s.heap s.allocated PackedData.zero
               allocated := s.allocated + 1
               main := .deserialize s.allocated }
  | allocateFails (hpc : s.main = .allocate) : MainMove cfg s .fail
      (s.next ⟨.datagram s.current, false⟩)
  | deserialize (b : Addr) (hpc : s.main = .deserialize b) : MainMove cfg s .proceed
      { s with heap := Function.update s.heap b (deserialized cfg.host s.buffer.message)
               main := .checkType b }
  | wrongType (b : Addr) (hpc : s.main = .checkType b)
      (ht : (recordIn cfg s.heap b).hdr.type ≠ protoSensorData) : MainMove cfg s .proceed
      { s with main := .reject b }
  | rightType (b : Addr) (hpc : s.main = .checkType b)
      (ht : (recordIn cfg s.heap b).hdr.type = protoSensorData) : MainMove cfg s .proceed
      { s with main := .checkSensor b }
  | wrongSensor (b : Addr) (hpc : s.main = .checkSensor b)
      (hi : N ≤ (recordIn cfg s.heap b).hdr.sensorId.toNat) : MainMove cfg s .proceed
      { s with main := .reject b }
  | rightSensor (b : Addr) (hpc : s.main = .checkSensor b)
      (hi : (recordIn cfg s.heap b).hdr.sensorId.toNat < N) : MainMove cfg s .proceed
      { s with main := .insert b ⟨_, hi⟩ }
  | reject (b : Addr) (hpc : s.main = .reject b) : MainMove cfg s .proceed
      ({ s with freed := s.freed ++ [b] }.next ⟨.datagram s.current, true⟩)
  | insert (b : Addr) (i : Fin N) (hpc : s.main = .insert b i)
      (hfree : (s.lanes i).pc.locked = false) : MainMove cfg s .proceed
      { (s.onLane i fun l => l.insert cfg.lib b (recordIn cfg s.heap b)).next
          ⟨.datagram s.current, true⟩ with main := .clear }
  | clear (hpc : s.main = .clear) : MainMove cfg s .proceed
      { s with buffer := Buffer.zero, main := .test }
  | storeDone (hpc : s.main = .storeDone) : MainMove cfg s .proceed
      { s with done := true, main := .broadcast 0 }
  | broadcast (i : Nat) (hpc : s.main = .broadcast i) (hi : i < N)
      (hfree : (s.lanes ⟨i, hi⟩).pc.locked = false) : MainMove cfg s .proceed
      { s.onLane ⟨i, hi⟩ Lane.wake with main := .broadcast (i + 1) }
  | broadcasted (i : Nat) (hpc : s.main = .broadcast i) (hi : N ≤ i) : MainMove cfg s .proceed
      { s with main := .join 0 }
  | join (i : Nat) (hpc : s.main = .join i) (hi : i < N) (he : (s.lanes ⟨i, hi⟩).pc = .ended) :
      MainMove cfg s .proceed { s with main := .join (i + 1) }
  | joined (i : Nat) (hpc : s.main = .join i) (hi : N ≤ i) : MainMove cfg s .proceed
      { s with main := .report }
  | joinFails (i : Nat) (hpc : s.main = .join i) (hi : i < N) : MainMove cfg s .fail
      { s with main := .cleanUp (.joinFailure i)
                 ((ExitPath.joinFailure i).releases N cfg.logsFilesFlag) }
  | report (hpc : s.main = .report) : MainMove cfg s .proceed
      { s with main := .cleanUp .shutDown (ExitPath.shutDown.releases N cfg.logsFilesFlag) }
  | release (path : ExitPath) (op : CleanUp N) (ops : List (CleanUp N))
      (hpc : s.main = .cleanUp path (op :: ops)) : MainMove cfg s .proceed
      { s.release op with main := .cleanUp path ops }
  | exit (path : ExitPath) (hpc : s.main = .cleanUp path []) : MainMove cfg s .proceed
      { s with main := .exited path }

theorem received_datagram (s : State N) (d : List UInt8) :
    s.received (.datagram d) =
      if sizeofProtoSensorData ≤ d.length then
        { s with buffer := s.buffer.recvfrom d, main := .allocate, current := d }
      else { s with buffer := s.buffer.recvfrom d }.next ⟨.datagram d, false⟩ := by
  unfold State.received
  split_ifs with hd
  · rw [(receiveFromSocket_success s.buffer _ _).mpr ⟨d, rfl, hd, rfl⟩]
  · have hst : (receiveFromSocket s.buffer (.datagram d)).1 ≠ .success := by
      intro he
      obtain ⟨d', hd', hle, -⟩ := (receiveFromSocket_success s.buffer
        (receiveFromSocket s.buffer (.datagram d)).2 _).mp (Prod.ext he rfl)
      cases hd'
      exact hd hle
    have hbuf : (receiveFromSocket s.buffer (.datagram d)).2 = s.buffer.recvfrom d := by
      unfold receiveFromSocket
      dsimp only
      split_ifs <;> rfl
    have hpair : receiveFromSocket s.buffer (.datagram d) =
        ((receiveFromSocket s.buffer (.datagram d)).1, s.buffer.recvfrom d) := Prod.ext rfl hbuf
    rw [hpair]
    generalize (receiveFromSocket s.buffer (.datagram d)).1 = st at hst ⊢
    cases st with
    | success => exact absurd rfl hst
    | _ => rfl

theorem mainStep_move {cfg : Config} {s s' : State N} {c : MainChoice}
    (h : mainStep cfg s c = some s') : MainMove cfg s c s' := by
  unfold mainStep at h
  split at h
  case h_1 i hpc =>
    split at h
    · rename_i hi
      cases h
      exact .create i hpc hi
    · rename_i hi
      cases h
      exact .created i hpc (by omega)
  case h_2 i hpc =>
    split at h
    · rename_i hi
      cases h
      exact .createFails i hpc hi
    · cases h
  case h_3 hpc =>
    cases h
    by_cases hk : s.keepRunning = true
    · rw [if_pos hk]
      exact .goOn hpc hk
    · rw [if_neg hk]
      exact .stop hpc (by simpa using hk)
  case h_4 hpc => cases h; exact .receive hpc
  case h_5 e hpc =>
    split at h
    · rename_i d ds hs
      cases h
      rw [received_datagram]
      split_ifs with hd
      · exact .message e d ds hpc hs hd
      · exact .short e d ds hpc hs (by omega)
    · cases h
  case h_6 hpc => cases h; exact .interrupted hpc
  case h_7 e hpc => cases h; exact .recvError e hpc
  case h_8 hpc => cases h; exact .allocate hpc
  case h_9 hpc => cases h; exact .allocateFails hpc
  case h_10 b hpc => cases h; exact .deserialize b hpc
  case h_11 b hpc =>
    split at h
    · rename_i ht
      cases h
      exact .wrongType b hpc ht
    · rename_i ht
      cases h
      exact .rightType b hpc (not_not.mp ht)
  case h_12 b hpc =>
    split at h
    · rename_i hi
      cases h
      exact .wrongSensor b hpc hi
    · rename_i hi
      cases h
      exact .rightSensor b hpc (by omega)
  case h_13 b hpc => cases h; exact .reject b hpc
  case h_14 b i hpc =>
    split at h
    · cases h
    · rename_i hfree
      cases h
      exact .insert b i hpc (by simpa using hfree)
  case h_15 hpc => cases h; exact .clear hpc
  case h_16 hpc => cases h; exact .storeDone hpc
  case h_17 i hpc =>
    split at h
    · rename_i hi
      split at h
      · cases h
      · rename_i hfree
        cases h
        exact .broadcast i hpc hi (by simpa using hfree)
    · rename_i hi
      cases h
      exact .broadcasted i hpc (by omega)
  case h_18 i hpc =>
    split at h
    · rename_i hi
      split at h
      · rename_i he
        cases h
        exact .join i hpc hi he
      · cases h
    · rename_i hi
      cases h
      exact .joined i hpc (by omega)
  case h_19 i hpc =>
    split at h
    · rename_i hi
      cases h
      exact .joinFails i hpc hi
    · cases h
  case h_20 hpc => cases h; exact .report hpc
  case h_21 path hpc => cases h; exact .exit path hpc
  case h_22 path op ops hpc => cases h; exact .release path op ops hpc
  case h_23 => cases h

/-! ## the process -/

/-- the transitions of `step` -/
inductive Move (cfg : Config) (s : State N) : Action N → State N → Prop
  | main (c : MainChoice) (s' : State N) (h : MainMove cfg s c s') : Move cfg s (.main c) s'
  | worker (i : Fin N) (c : WorkerChoice) (l : Lane) (fr : List Addr)
      (h : WorkerMove cfg s.done s.heap (UInt32.ofNat i) (s.lanes i) l fr) :
      Move cfg s (.worker i c) { s.onLane i (fun _ => l) with freed := s.freed ++ fr }
  | wake (i : Fin N) (h : (s.lanes i).pc = .asleep) : Move cfg s (.wake i) (s.onLane i Lane.wake)
  | arrive (d : List UInt8) : Move cfg s (.arrive d) { s with socket := s.socket ++ [d] }
  | signal (sig : Signal) (t : Thread N) (h : s.takes sig t = true) :
      Move cfg s (.signal sig t) (s.signalHandler t)

theorem step_move {cfg : Config} {s s' : State N} {a : Action N}
    (h : step cfg s a = some s') : Move cfg s a s' := by
  unfold step at h
  split at h
  · cases h
  · cases a with
    | main c => exact .main c s' (mainStep_move h)
    | worker i c =>
      obtain ⟨⟨l, fr⟩, hl, rfl⟩ := Option.map_eq_some_iff.mp h
      exact .worker i c l fr (handleClient_move hl)
    | wake i =>
      dsimp only at h
      split at h
      · rename_i hw
        cases h
        exact .wake i hw
      · cases h
    | arrive d => cases h; exact .arrive d
    | signal sig t =>
      dsimp only at h
      split at h
      · rename_i ht
        cases h
        exact .signal sig t ht
      · cases h

theorem Reachable.after {cfg : Config} {s s' : State N} {a : Action N} (h : Reachable cfg s)
    (hs : step cfg s a = some s') : Reachable cfg s' := by
  obtain ⟨as, hrun⟩ := h
  exact ⟨as ++ [a], Runs.exec_append_some.mpr ⟨s, hrun, Runs.exec_single hs⟩⟩

/-- what every move from a reachable state keeps, every reachable state has -/
theorem reachable_invariant {cfg : Config} {I : State N → Prop} (h0 : I (init N))
    (hI : ∀ s a s', Reachable cfg s → I s → Move cfg s a s' → I s') {s : State N}
    (h : Reachable cfg s) : I s := by
  obtain ⟨as, hrun⟩ := h
  refine Runs.exec_invariant_with (J := Reachable cfg) (fun s a s' hr hs => hr.after hs) ?_ hrun
    ⟨[], rfl⟩ h0
  exact fun s a s' hr hs hstep => hI s a s' hr hs (step_move hstep)

/-! ## lanes -/

namespace WorkerPc

@[simp] theorem woken_eq_notCreated (pc : WorkerPc) : pc.woken = notCreated ↔ pc = notCreated := by
  cases pc <;> simp [woken]

@[simp] theorem woken_eq_ended (pc : WorkerPc) : pc.woken = ended ↔ pc = ended := by
  cases pc <;> simp [woken]

@[simp] theorem woken_eq_readDone (pc : WorkerPc) (n : UInt32) :
    pc.woken = readDone n ↔ pc = readDone n := by
  cases pc <;> simp [woken]

@[simp] theorem woken_eq_log (pc : WorkerPc) (b : Addr) : pc.woken = log b ↔ pc = log b := by
  cases pc <;> simp [woken]

@[simp] theorem woken_ne_asleep (pc : WorkerPc) : pc.woken ≠ asleep := by
  cases pc <;> simp [woken]

@[simp] theorem left_woken (pc : WorkerPc) : pc.woken.left = pc.left := by
  cases pc <;> rfl

@[simp] theorem held_woken (pc : WorkerPc) : pc.woken.held = pc.held := by
  cases pc <;> rfl

@[simp] theorem held_ite (flag : Bool) (b : Addr) :
    (if flag = true then log b else count b).held = some b := by
  cases flag <;> rfl

end WorkerPc

theorem WorkerMove.running {cfg : Config} {done : Bool} {heap : Addr → PackedData} {id : UInt32}
    {l l' : Lane} {fr : List Addr} (h : WorkerMove cfg done heap id l l' fr) :
    l.pc.running = true ∧ l'.pc ≠ .notCreated := by
  cases h
  case unlock b hpc =>
    refine ⟨by rw [hpc]; rfl, ?_⟩
    show (if cfg.logsFilesFlag then WorkerPc.log b else .count b) ≠ .notCreated
    split <;> exact WorkerPc.noConfusion
  all_goals
    rename_i hpc
    exact ⟨by simp [*, WorkerPc.running], WorkerPc.noConfusion⟩

@[simp] theorem onLane_self (s : State N) (i : Fin N) (f : Lane → Lane) :
    (s.onLane i f).lanes i = f (s.lanes i) := Function.update_self _ _ _

@[simp] theorem onLane_main (s : State N) (i : Fin N) (f : Lane → Lane) :
    (s.onLane i f).main = s.main := rfl
@[simp] theorem onLane_allocated (s : State N) (i : Fin N) (f : Lane → Lane) :
    (s.onLane i f).allocated = s.allocated := rfl
@[simp] theorem onLane_freed (s : State N) (i : Fin N) (f : Lane → Lane) :
    (s.onLane i f).freed = s.freed := rfl

theorem onLane_of_ne (s : State N) (i j : Fin N) (f : Lane → Lane) (h : j ≠ i) :
    (s.onLane i f).lanes j = s.lanes j := Function.update_of_ne h _ _

/-- what holds of the changed lane and of the others holds of all -/
theorem onLane_forall {P : Fin N → Lane → Prop} (s : State N) (i : Fin N) (f : Lane → Lane)
    (hi : P i (f (s.lanes i))) (hj : ∀ j, j ≠ i → P j (s.lanes j)) :
    ∀ j, P j ((s.onLane i f).lanes j) := by
  intro j
  by_cases h : j = i
  · subst h
    rw [onLane_self]
    exact hi
  · rw [onLane_of_ne s i j f h]
    exact hj j h

/-- a release touches nothing of a lane but its two flags -/
theorem release_lane (s : State N) (op : CleanUp N) (j : Fin N) :
    ∃ c d, (s.release op).lanes j =
      { s.lanes j with logsFileClosed := c, queueDestroyed := d } := by
  cases op with
  | cmdlineParserFree => exact ⟨_, _, rfl⟩
  | closeSocket => exact ⟨_, _, rfl⟩
  | closeLogsFile i =>
    by_cases h : j = i
    · subst h
      exact ⟨true, _, onLane_self s j Lane.closeLogsFile⟩
    · exact ⟨_, _, onLane_of_ne s i j Lane.closeLogsFile h⟩
  | destroyQueue i =>
    by_cases h : j = i
    · subst h
      exact ⟨_, true, onLane_self s j Lane.destroyQueue⟩
    · exact ⟨_, _, onLane_of_ne s i j Lane.destroyQueue h⟩

end Server
end SensorSimulator
