import SensorSimulator.Server.Moves

/-!
# One lane of the process, and what main has behind it

* `MainPc.stored`, `created`, `broadcasted`, `joined`   how far main has come;
* `View`       this much of main's progress as it concerns one lane;
* `LaneMove`   what a move of the process can be for one lane: eight cases;
* `Move.lane`  every move of the process is one of them, for every lane;
* `LaneReach`  the pairs of a view and a lane that such moves lead to;
* `State.CountsElements`, `State.Blocking`   what the library is relied on for in a run: no queue is
               ever longer than the list of the records inserted in it.

The facts about a worker and its queue are proved by induction on `LaneReach`.
-/

namespace SensorSimulator
namespace Server

variable {N : Nat}

/-! ## how far main has come -/

namespace MainPc

/-- main has stored `main_thread_done` -/
def stored : MainPc N → Bool
  | broadcast _ | join _ | report => true
  | cleanUp (.joinFailure _) _ | cleanUp .shutDown _ => true
  | exited (.joinFailure _) | exited .shutDown => true
  | _ => false

/-- the number of threads created -/
def created : MainPc N → Nat
  | create k | cleanUp (.createFailure k) _ | exited (.createFailure k) => k
  | _ => N

/-- the number of queues whose condition variable has had its broadcast -/
def broadcasted : MainPc N → Nat
  | broadcast k => k
  | join _ | report => N
  | cleanUp (.joinFailure _) _ | cleanUp .shutDown _ => N
  | exited (.joinFailure _) | exited .shutDown => N
  | _ => 0

/-- the number of threads joined -/
def joined : MainPc N → Nat
  | join k | cleanUp (.joinFailure k) _ | exited (.joinFailure k) => k
  | report | cleanUp .shutDown _ | exited .shutDown => N
  | _ => 0

/-- the handler leaves main where it is, but for the note that `recvfrom` is interrupted -/
theorem interrupt_cases (m : MainPc N) :
    m.interrupt = m ∨ ∃ e, m = .blocked e ∧ m.interrupt = .blocked true := by
  cases m with
  | blocked e => exact Or.inr ⟨e, rfl, rfl⟩
  | _ => exact Or.inl rfl

end MainPc

theorem done_eq_stored {cfg : Config} {s : State N} (h : Reachable cfg s) :
    s.done = s.main.stored := by
  refine reachable_invariant (I := fun s : State N => s.done = s.main.stored) rfl ?_ h
  intro s a s' _ hs hm
  cases hm with
  | main c s' hm =>
    cases hm
    case storeDone hpc => rfl
    case release path op ops hpc =>
      rw [hpc] at hs
      have hd : (s.release op).done = s.done := by cases op <;> rfl
      show (s.release op).done = _
      rw [hd, hs]
      cases path <;> rfl
    case exit path hpc =>
      rw [hpc] at hs
      cases path <;> exact hs
    all_goals simp [*, State.onLane, State.next, MainPc.stored]
  | worker i c l fr hw => exact hs
  | wake i hw => exact hs
  | arrive d => exact hs
  | signal sig t ht =>
    show s.done = (if t = .main then s.main.interrupt else s.main).stored
    rw [hs]
    split
    · rcases s.main.interrupt_cases with h | ⟨e, he, h⟩
      · rw [h]
      · rw [h, he]
        rfl
    · rfl

/-! ## the moves of a lane -/

/-- what lane `i` sees of main: the flag, and whether main has created, broadcast to and joined
its worker -/
structure View where
  done : Bool
  created : Bool
  broadcasted : Bool
  joined : Bool

def viewOf (done : Bool) (m : MainPc N) (i : Nat) : View where
  done := done
  created := i.blt m.created
  broadcasted := i.blt m.broadcasted
  joined := i.blt m.joined

def State.view (s : State N) (i : Fin N) : View := viewOf s.done s.main i

theorem blt_congr {i k i' k' : Nat} (h : i < k ↔ i' < k') : i.blt k = i'.blt k' := by
  rw [Bool.eq_iff_iff, Nat.blt_eq, Nat.blt_eq]
  exact h

theorem blt_self (i : Nat) : i.blt i = false := by
  rw [Bool.eq_false_iff, ne_eq, Nat.blt_eq]
  exact Nat.lt_irrefl i

theorem blt_succ (i k : Nat) : i.blt (k + 1) = if i = k then true else i.blt k := by
  split_ifs with h
  · rw [Nat.blt_eq]
    omega
  · exact blt_congr (by omega)

theorem viewOf_create_succ (done : Bool) (i k : Nat) :
    viewOf done (.create (k + 1) : MainPc N) i =
      if i = k then { viewOf done (.create k : MainPc N) i with created := true }
      else viewOf done (.create k : MainPc N) i := by
  unfold viewOf MainPc.created
  dsimp only
  rw [blt_succ]
  split_ifs <;> rfl

theorem viewOf_broadcast_succ (done : Bool) (i k : Nat) :
    viewOf done (.broadcast (k + 1) : MainPc N) i =
      if i = k then { viewOf done (.broadcast k : MainPc N) i with broadcasted := true }
      else viewOf done (.broadcast k : MainPc N) i := by
  unfold viewOf MainPc.broadcasted
  dsimp only
  rw [blt_succ]
  split_ifs <;> rfl

theorem viewOf_join_succ (done : Bool) (i k : Nat) :
    viewOf done (.join (k + 1) : MainPc N) i =
      if i = k then { viewOf done (.join k : MainPc N) i with joined := true }
      else viewOf done (.join k : MainPc N) i := by
  unfold viewOf MainPc.joined
  dsimp only
  rw [blt_succ]
  split_ifs <;> rfl

inductive LaneMove (cfg : Config) : View → Lane → View → Lane → Prop
  | quiet (v : View) (l : Lane) (c d : Bool) :
      LaneMove cfg v l v { l with logsFileClosed := c, queueDestroyed := d }
  | create (v : View) (l : Lane) (h : v.created = false) :
      LaneMove cfg v l { v with created := true } { l with pc := .mask }
  | insert (v : View) (l : Lane) (b : Addr) (r : ProtoSensorData) (hd : v.done = false)
      (hfree : l.pc.locked = false) : LaneMove cfg v l v (l.insert cfg.lib b r)
  | store (v : View) (l : Lane) : LaneMove cfg v l { v with done := true } l
  | broadcast (v : View) (l : Lane) (hd : v.done = true) (hfree : l.pc.locked = false) :
      LaneMove cfg v l { v with broadcasted := true } l.wake
  | join (v : View) (l : Lane) (he : l.pc = .ended) : LaneMove cfg v l { v with joined := true } l
  | worker (v : View) (l l' : Lane) (heap : Addr → PackedData) (id : UInt32) (fr : List Addr)
      (h : WorkerMove cfg v.done heap id l l' fr) : LaneMove cfg v l v l'
  | wake (v : View) (l : Lane) (h : l.pc = .asleep) : LaneMove cfg v l v l.wake

theorem WorkerMove.inserted {cfg : Config} {done : Bool} {heap : Addr → PackedData} {id : UInt32}
    {l l' : Lane} {fr : List Addr} (h : WorkerMove cfg done heap id l l' fr) :
    l'.inserted = l.inserted := by
  cases h <;> rfl

theorem WorkerMove.queue_le {cfg : Config} {done : Bool} {heap : Addr → PackedData} {id : UInt32}
    {l l' : Lane} {fr : List Addr} (h : WorkerMove cfg done heap id l l' fr) :
    l'.queue.length ≤ l.queue.length := by
  cases h
  case take b q hpc hq hm =>
    rw [hq]
    exact Nat.le_succ q.length
  all_goals exact Nat.le_refl _

theorem LaneMove.inserted_le {cfg : Config} {v v' : View} {l l' : Lane}
    (h : LaneMove cfg v l v' l') : l.inserted.length ≤ l'.inserted.length := by
  cases h with
  | insert b r hd hfree => exact (List.prefix_append l.inserted [r]).length_le
  | worker _ heap id fr hw => exact (congrArg List.length hw.inserted).ge
  | _ => exact Nat.le_refl _

theorem LaneMove.same {cfg : Config} {v v' : View} {l l' : Lane} (hv : v' = v) (hl : l' = l) :
    LaneMove cfg v l v' l' := by
  subst hv hl
  exact .quiet v' l' l'.logsFileClosed l'.queueDestroyed

/-- only one lane changes: for it the move is given, for the others the view is the same -/
theorem LaneMove.onLane {cfg : Config} (s s' : State N) (i : Fin N) (f : Lane → Lane)
    (hl : s'.lanes = (s.onLane i f).lanes)
    (hi : LaneMove cfg (s.view i) (s.lanes i) (s'.view i) (f (s.lanes i)))
    (hv : ∀ j, j ≠ i → s'.view j = s.view j) (j : Fin N) :
    LaneMove cfg (s.view j) (s.lanes j) (s'.view j) (s'.lanes j) := by
  rw [hl]
  by_cases h : j = i
  · subst h
    rw [onLane_self]
    exact hi
  · exact .same (hv j h) (onLane_of_ne s i j f h)

theorem MainMove.lane {cfg : Config} {s s' : State N} {c : MainChoice}
    (hs : s.done = s.main.stored) (h : MainMove cfg s c s') (j : Fin N) :
    LaneMove cfg (s.view j) (s.lanes j) (s'.view j) (s'.lanes j) := by
  have hall : ∀ i : Nat, N ≤ i → (j : Nat).blt N = (j : Nat).blt i :=
    fun i hi => blt_congr (by omega)
  cases h
  case create i hpc hi =>
    refine LaneMove.onLane s _ ⟨i, hi⟩ (fun l => { l with pc := .mask }) ?_ ?_ (fun k hk => ?_) j
    · rfl
    · show LaneMove cfg (viewOf s.done s.main i) _ (viewOf s.done (.create (i + 1)) i) _
      rw [viewOf_create_succ, if_pos rfl, hpc]
      exact .create _ _ (blt_self i)
    · show viewOf s.done (.create (i + 1)) k = viewOf s.done s.main k
      rw [viewOf_create_succ, if_neg (fun e => hk (Fin.ext e)), hpc]
  case insert b i hpc hfree =>
    rw [hpc] at hs
    refine LaneMove.onLane s _ i (fun l => l.insert cfg.lib b (recordIn cfg s.heap b)) ?_ ?_
      (fun k _ => ?_) j
    · rfl
    · show LaneMove cfg (viewOf s.done s.main i) _ (viewOf s.done .clear i) _
      rw [hpc]
      exact .insert _ _ b _ hs hfree
    · show viewOf s.done .clear k = viewOf s.done s.main k
      rw [hpc]
      rfl
  case storeDone hpc =>
    show LaneMove cfg (viewOf s.done s.main j) _ (viewOf true (.broadcast 0) j) _
    rw [hpc]
    exact .store _ _
  case broadcast i hpc hi hfree =>
    rw [hpc] at hs
    refine LaneMove.onLane s _ ⟨i, hi⟩ Lane.wake ?_ ?_ (fun k hk => ?_) j
    · rfl
    · show LaneMove cfg (viewOf s.done s.main i) _ (viewOf s.done (.broadcast (i + 1)) i) _
      rw [viewOf_broadcast_succ, if_pos rfl, hpc]
      exact .broadcast _ _ hs hfree
    · show viewOf s.done (.broadcast (i + 1)) k = viewOf s.done s.main k
      rw [viewOf_broadcast_succ, if_neg (fun e => hk (Fin.ext e)), hpc]
  case join i hpc hi he =>
    show LaneMove cfg (viewOf s.done s.main j) _ (viewOf s.done (.join (i + 1)) j) _
    rw [viewOf_join_succ, hpc]
    split_ifs with hj
    · have e : j = ⟨i, hi⟩ := Fin.ext hj
      exact .join _ _ (by rw [e]; exact he)
    · exact .same rfl rfl
  case release path op ops hpc =>
    have hv : State.view { s.release op with main := .cleanUp path ops } j = s.view j := by
      have hd : (s.release op).done = s.done := by cases op <;> rfl
      show viewOf (s.release op).done (.cleanUp path ops) j = viewOf s.done s.main j
      rw [hd, hpc]
      cases path <;> rfl
    obtain ⟨c, d, hl⟩ := release_lane s op j
    rw [hv, show State.lanes { s.release op with main := .cleanUp path ops } j = _ from hl]
    exact .quiet _ _ c d
  case exit path hpc =>
    refine .same ?_ rfl
    show viewOf s.done (.exited path) j = viewOf s.done s.main j
    rw [hpc]
    cases path <;> rfl
  case created i hpc hi =>
    refine .same ?_ rfl
    simp only [State.view, viewOf, hpc, MainPc.created, MainPc.broadcasted, MainPc.joined,
      hall i hi]
  case broadcasted i hpc hi =>
    refine .same ?_ rfl
    simp only [State.view, viewOf, hpc, MainPc.created, MainPc.broadcasted, MainPc.joined,
      hall i hi]
  case joined i hpc hi =>
    refine .same ?_ rfl
    simp only [State.view, viewOf, hpc, MainPc.created, MainPc.broadcasted, MainPc.joined,
      hall i hi]
  all_goals
    refine .same ?_ rfl
    simp [*, State.view, viewOf, State.next, MainPc.created, MainPc.broadcasted, MainPc.joined]

theorem view_signalHandler (s : State N) (t : Thread N) (i : Fin N) :
    (s.signalHandler t).view i = s.view i := by
  show viewOf s.done (if t = .main then s.main.interrupt else s.main) i = viewOf s.done s.main i
  split
  · rcases s.main.interrupt_cases with h | ⟨e, he, h⟩
    · rw [h]
    · rw [h, he]
      rfl
  · rfl

theorem Move.lane {cfg : Config} {s s' : State N} {a : Action N} (hs : s.done = s.main.stored)
    (h : Move cfg s a s') (j : Fin N) :
    LaneMove cfg (s.view j) (s.lanes j) (s'.view j) (s'.lanes j) := by
  cases h with
  | main c s' hm => exact hm.lane hs j
  | worker i c l fr hw =>
    refine LaneMove.onLane s _ i (fun _ => l) ?_ ?_ (fun k _ => ?_) j
    · rfl
    · exact .worker _ _ l s.heap (UInt32.ofNat i) fr hw
    · rfl
  | wake i hw =>
    refine LaneMove.onLane s _ i Lane.wake ?_ ?_ (fun k _ => ?_) j
    · rfl
    · exact .wake _ _ hw
    · rfl
  | arrive d => exact .same rfl rfl
  | signal sig t ht => exact .same (view_signalHandler s t j) rfl

/-! ## what the moves of a lane lead to -/

inductive LaneReach (cfg : Config) : View → Lane → Prop
  | start : LaneReach cfg ⟨false, false, false, false⟩ Lane.start
  | move {v v' : View} {l l' : Lane} (hl : LaneReach cfg v l) (h : LaneMove cfg v l v' l') :
      LaneReach cfg v' l'

theorem Reachable.lane {cfg : Config} {s : State N} (h : Reachable cfg s) (i : Fin N) :
    LaneReach cfg (s.view i) (s.lanes i) :=
  reachable_invariant (I := fun s => LaneReach cfg (s.view i) (s.lanes i)) .start
    (fun _ _ _ hr hs hm => hs.move (hm.lane (done_eq_stored hr) i)) h

namespace LaneReach

variable {cfg : Config} {v : View} {l : Lane}

/-- the workers there are, are those that main has created -/
theorem notCreated_iff (h : LaneReach cfg v l) : l.pc = .notCreated ↔ v.created = false := by
  induction h with
  | start => exact ⟨fun _ => rfl, fun _ => rfl⟩
  | move _ hm ih =>
    cases hm with
    | create h => exact ⟨fun h => WorkerPc.noConfusion h, fun h => Bool.noConfusion h⟩
    | insert b r hd hfree => exact (WorkerPc.woken_eq_notCreated _).trans ih
    | broadcast hd hfree => exact (WorkerPc.woken_eq_notCreated _).trans ih
    | wake h => exact (WorkerPc.woken_eq_notCreated _).trans ih
    | worker _ heap id fr hw =>
      obtain ⟨hrun, hpc'⟩ := hw.running
      refine ⟨fun he => absurd he hpc', fun hc => ?_⟩
      rw [ih.mpr hc] at hrun
      cases hrun
    | _ => exact ih

theorem joined_ended (h : LaneReach cfg v l) (hj : v.joined = true) : l.pc = .ended := by
  induction h with
  | start => cases hj
  | move hl hm ih =>
    cases hm with
    | create h =>
      -- a worker that main has joined was created
      have hnot := hl.notCreated_iff.mpr h
      rw [ih hj] at hnot
      cases hnot
    | insert b r hd hfree => exact (WorkerPc.woken_eq_ended _).mpr (ih hj)
    | broadcast hd hfree => exact (WorkerPc.woken_eq_ended _).mpr (ih hj)
    | wake h => exact (WorkerPc.woken_eq_ended _).mpr (ih hj)
    | join he => exact he
    | worker _ heap id fr hw =>
      have hrun := hw.running.1
      rw [ih hj] at hrun
      cases hrun
    | _ => exact ih hj

/-- the size that the worker has read is the size of the queue: main inserts when the mutex is
free, and the worker has it -/
theorem size_read (h : LaneReach cfg v l) (n : UInt32) (hpc : l.pc = .readDone n) :
    n = cfg.lib.numberOfElements l.queue := by
  induction h with
  | start => cases hpc
  | move _ hm ih =>
    cases hm with
    | create h => cases hpc
    | insert b r hd hfree =>
      rw [(WorkerPc.woken_eq_readDone _ _).mp hpc] at hfree
      cases hfree
    | broadcast hd hfree => exact ih ((WorkerPc.woken_eq_readDone _ _).mp hpc)
    | wake h => exact ih ((WorkerPc.woken_eq_readDone _ _).mp hpc)
    | worker _ heap id fr hw =>
      cases hw
      case readSize hr =>
        cases hpc
        rfl
      case unlock b hu =>
        change (if cfg.logsFilesFlag then WorkerPc.log b else .count b) = _ at hpc
        split at hpc <;> cases hpc
      all_goals cases hpc
    | _ => exact ih hpc

theorem queue_le (h : LaneReach cfg v l) : l.queue.length ≤ l.inserted.length := by
  induction h with
  | start => exact Nat.le_refl 0
  | move hl hm ih =>
    cases hm with
    | insert b r hd hfree =>
      rw [Lane.insert_eq, List.length_append, List.length_append]
      exact Nat.add_le_add_right ih 1
    | worker _ heap id fr hw =>
      rw [hw.inserted]
      exact hw.queue_le.trans ih
    | _ => exact ih

/-- a worker that has left its loop has left an empty queue, after main's last insert -/
theorem left_loop (hlib : cfg.lib.CountsElements l.inserted.length) (h : LaneReach cfg v l)
    (hleft : l.pc.left = true) : l.queue = [] ∧ v.done = true := by
  induction h with
  | start => cases hleft
  | move hl hm ih =>
    replace ih := ih (hlib.mono hm.inserted_le)
    cases hm with
    | create h => cases hleft
    | insert b r hd hfree =>
      -- the flag is stored after the last insert
      obtain ⟨-, hdone⟩ := ih ((WorkerPc.left_woken _).symm.trans hleft)
      rw [hd] at hdone
      cases hdone
    | store => exact ⟨(ih hleft).1, rfl⟩
    | broadcast hd hfree => exact ih ((WorkerPc.left_woken _).symm.trans hleft)
    | wake h => exact ih ((WorkerPc.left_woken _).symm.trans hleft)
    | worker _ heap id fr hw =>
      cases hw
      case exit hr hd =>
        have hsize := hl.size_read 0 hr
        exact ⟨(hlib _ hl.queue_le).mp hsize.symm, hd⟩
      case leave hpc => exact ih (by rw [hpc]; rfl)
      case unlock b hu =>
        change (if cfg.logsFilesFlag then WorkerPc.log b else .count b).left = true at hleft
        split at hleft <;> cases hleft
      all_goals cases hleft
    | _ => exact ih hleft

end LaneReach

theorem Reachable.joined_ended {cfg : Config} {s : State N} (h : Reachable cfg s) {i : Fin N}
    (hj : (i : Nat) < s.main.joined) : (s.lanes i).pc = .ended :=
  (h.lane i).joined_ended (Nat.blt_eq.mpr hj)

theorem Reachable.left_loop {cfg : Config} {s : State N} (h : Reachable cfg s) (i : Fin N)
    (hlib : cfg.lib.CountsElements (s.lanes i).inserted.length)
    (hleft : (s.lanes i).pc.left = true) :
    (s.lanes i).queue = [] ∧ s.main.stored = true := by
  obtain ⟨hq, hd⟩ := (h.lane i).left_loop hlib hleft
  exact ⟨hq, (done_eq_stored h).symm.trans hd⟩

/-! ## what has been inserted -/

/-- behind the store of the flag nothing is inserted -/
theorem LaneMove.inserted {cfg : Config} {v v' : View} {l l' : Lane}
    (h : LaneMove cfg v l v' l') (hd : v.done = true) :
    v'.done = true ∧ l'.inserted = l.inserted := by
  cases h with
  | insert b r hfalse hfree =>
    rw [hd] at hfalse
    cases hfalse
  | worker _ heap id fr hw => exact ⟨hd, hw.inserted⟩
  | store => exact ⟨rfl, rfl⟩
  | _ => exact ⟨hd, rfl⟩

theorem Reachable.inserted_final {cfg : Config} {s t : State N} (h : Reachable cfg s) (i : Fin N)
    (hd : s.done = true) {as : List (Action N)} (hrun : Runs.exec (step cfg) s as = some t) :
    (t.lanes i).inserted = (s.lanes i).inserted := by
  have hfinal : t.done = true ∧ (t.lanes i).inserted = (s.lanes i).inserted := by
    refine Runs.exec_invariant_with (J := Reachable cfg)
      (I := fun t => t.done = true ∧ (t.lanes i).inserted = (s.lanes i).inserted)
      (fun s a s' hr hs => hr.after hs) ?_ hrun h ⟨hd, rfl⟩
    rintro t a t' hr ⟨hdone, hins⟩ hstep
    obtain ⟨hdone', hins'⟩ := ((step_move hstep).lane (done_eq_stored hr) i).inserted hdone
    exact ⟨hdone', hins'.trans hins⟩
  exact hfinal.2

theorem Reachable.inserted_le {cfg : Config} {s s' : State N} {a : Action N} (h : Reachable cfg s)
    (hstep : step cfg s a = some s') (i : Fin N) :
    (s.lanes i).inserted.length ≤ (s'.lanes i).inserted.length :=
  ((step_move hstep).lane (done_eq_stored h) i).inserted_le

/-- the library counts the elements of queues as long as those of `s` can have been -/
def State.CountsElements (s : State N) (lib : QueueLibrary) : Prop :=
  ∀ i, lib.CountsElements (s.lanes i).inserted.length

/-- its remove does what it should with such queues -/
def State.Blocking (s : State N) (lib : QueueLibrary) : Prop :=
  ∀ i, lib.Blocking (s.lanes i).inserted.length

theorem State.Blocking.congr {s s' : State N} {lib : QueueLibrary}
    (h : ∀ i, (s'.lanes i).inserted = (s.lanes i).inserted) (hlib : s.Blocking lib) :
    s'.Blocking lib := by
  intro i
  rw [h i]
  exact hlib i

/-- what the library is relied on for behind the store of the flag is so in the whole run -/
theorem Reachable.countsElements_final {cfg : Config} {s s' : State N} {a : Action N}
    (h : Reachable cfg s) (hd : s.done = true) (hcount : s.CountsElements cfg.lib)
    (hstep : step cfg s a = some s') : s'.CountsElements cfg.lib := by
  intro i
  rw [h.inserted_final i hd (Runs.exec_single hstep)]
  exact hcount i

theorem Reachable.blocking_final {cfg : Config} {s s' : State N} {a : Action N}
    (h : Reachable cfg s) (hd : s.done = true) (hlib : s.Blocking cfg.lib)
    (hstep : step cfg s a = some s') : s'.Blocking cfg.lib :=
  hlib.congr fun i => h.inserted_final i hd (Runs.exec_single hstep)

theorem State.countsElements {s : State N}
    (h : ∀ i, (s.lanes i).inserted.length < 4294967296) : s.CountsElements queueLibrary :=
  fun i => queueLibrary_countsElements (h i)

theorem State.blocking (s : State N) : s.Blocking queueLibrary :=
  fun i => queueLibrary_blocking (s.lanes i).inserted.length

end Server
end SensorSimulator
