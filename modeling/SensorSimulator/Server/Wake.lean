import SensorSimulator.Server.Lanes
import SensorSimulator.Lib.Places

/-!
# Wake-ups: nobody sleeps past the end, and the workers come to theirs

* `LaneReach.asleep`   a worker that sleeps has an empty queue, and main has not broadcast to it;
* `Lane.work`          how many steps a worker can still take once the flag is set;
* `no_lost_wakeup`     behind the broadcasts every worker that has not ended can step, the workers
                       take finitely many steps, and then all have ended and main's join completes.
-/

namespace SensorSimulator
namespace Server

variable {N : Nat}

/-! ## sleeping -/

namespace LaneReach

variable {cfg : Config} {v : View} {l : Lane}

theorem broadcasted_done (h : LaneReach cfg v l) (hb : v.broadcasted = true) : v.done = true := by
  induction h with
  | start => cases hb
  | move _ hm ih =>
    cases hm with
    | store => rfl
    | broadcast hd hfree => exact hd
    | _ => exact ih hb

/-- every window in which the flag changes under a worker is closed: it sleeps only if it found
the flag unset, with the mutex, so main's broadcast is still to come -/
theorem asleep (hlib : cfg.lib.Blocking l.inserted.length) (h : LaneReach cfg v l)
    (hpc : l.pc = .asleep) : l.queue = [] ∧ v.broadcasted = false := by
  induction h with
  | start => cases hpc
  | move hl hm ih =>
    replace ih := ih (hlib.mono hm.inserted_le)
    cases hm with
    | create h => cases hpc
    | insert b r hd hfree => exact absurd hpc (WorkerPc.woken_ne_asleep _)
    | broadcast hd hfree => exact absurd hpc (WorkerPc.woken_ne_asleep _)
    | wake h => exact absurd hpc (WorkerPc.woken_ne_asleep _)
    | worker _ heap id fr hw =>
      cases hw
      case wait hr hwait =>
        obtain ⟨hq, hd⟩ := (hlib.wait _ hl.queue_le _).mp hwait
        refine ⟨hq, ?_⟩
        by_contra hb
        have hdone := hl.broadcasted_done (by simpa using hb)
        rw [hd] at hdone
        cases hdone
      case unlock b hu =>
        change (if cfg.logsFilesFlag then WorkerPc.log b else .count b) = _ at hpc
        split at hpc <;> cases hpc
      all_goals cases hpc
    | _ => exact ih hpc

end LaneReach

/-! ## behind the broadcasts -/

/-- main has finished its broadcasts, and the process is there: with the last of them made it
may still stand before the test that ends their loop -/
def MainPc.broadcastsDone : MainPc N → Bool
  | broadcast i => decide (N ≤ i)
  | join _ | report | cleanUp (.joinFailure _) _ | cleanUp .shutDown _ => true
  | _ => false

theorem MainPc.progress_of_broadcastsDone {m : MainPc N} (h : m.broadcastsDone = true) :
    m.stored = true ∧ m.created = N ∧ N ≤ m.broadcasted := by
  cases m with
  | broadcast k => exact ⟨rfl, rfl, of_decide_eq_true h⟩
  | join k => exact ⟨rfl, rfl, Nat.le_refl N⟩
  | report => exact ⟨rfl, rfl, Nat.le_refl N⟩
  | cleanUp path ops =>
    cases path with
    | createFailure k => cases h
    | joinFailure k => exact ⟨rfl, rfl, Nat.le_refl N⟩
    | shutDown => exact ⟨rfl, rfl, Nat.le_refl N⟩
  | _ => cases h

theorem done_of_broadcastsDone {cfg : Config} {s : State N} (hr : Reachable cfg s)
    (h : s.main.broadcastsDone = true) : s.done = true :=
  (done_eq_stored hr).trans (MainPc.progress_of_broadcastsDone h).1

theorem view_broadcastsDone {s : State N} (h : s.main.broadcastsDone = true) (i : Fin N) :
    (s.view i).created = true ∧ (s.view i).broadcasted = true := by
  obtain ⟨-, hc, hb⟩ := MainPc.progress_of_broadcastsDone h
  constructor
  · show (i : Nat).blt s.main.created = true
    rw [hc, Nat.blt_eq]
    exact i.isLt
  · show (i : Nat).blt s.main.broadcasted = true
    rw [Nat.blt_eq]
    exact Nat.lt_of_lt_of_le i.isLt hb

/-- main stays behind its broadcasts until the process exits -/
theorem MainMove.broadcastsDone {cfg : Config} {s s' : State N} {c : MainChoice}
    (h : MainMove cfg s c s') (hb : s.main.broadcastsDone = true) :
    s'.main.broadcastsDone = true ∨ s'.main.isExited = true := by
  cases h
  case release path op ops hpc =>
    rw [hpc] at hb
    cases path with
    | createFailure k => cases hb
    | joinFailure k => exact Or.inl rfl
    | shutDown => exact Or.inl rfl
  case exit path hpc => exact Or.inr rfl
  case join => exact Or.inl rfl
  case joined => exact Or.inl rfl
  case joinFails => exact Or.inl rfl
  case report => exact Or.inl rfl
  case broadcasted => exact Or.inl rfl
  case broadcast k hpc hk hfree =>
    rw [hpc] at hb
    exact absurd (of_decide_eq_true hb) (Nat.not_le.mpr hk)
  all_goals
    simp_all [MainPc.broadcastsDone]

theorem Move.broadcastsDone {cfg : Config} {s s' : State N} {a : Action N} (h : Move cfg s a s')
    (hb : s.main.broadcastsDone = true) :
    s'.main.broadcastsDone = true ∨ s'.main.isExited = true := by
  cases h with
  | main c s' hm => exact hm.broadcastsDone hb
  | signal sig t ht =>
    refine Or.inl ?_
    show (if t = .main then s.main.interrupt else s.main).broadcastsDone = true
    split
    · rcases s.main.interrupt_cases with h | ⟨e, he, h⟩
      · rw [h]
        exact hb
      · rw [he] at hb
        cases hb
    · exact hb
  | _ => exact Or.inl hb

/-! ## the work that is left -/

/-- how many steps a worker can still take once the flag is set, bounded from above: eight for
each element of the queue, and the way to the end of the loop -/
def Lane.work (l : Lane) : Nat :=
  8 * l.queue.length +
    match l.pc with
    | .ended => 0
    | .leave => 1
    | .readDone _ => 2
    | .readSize => 3
    | .lock => 4
    | .mask => 5
    | .unlock none => 5
    | .free _ => 5
    | .count _ => 6
    | .log _ => 7
    | .unlock (some _) => 8
    | .remove => if l.queue = [] then 6 else 1
    | .awake => 7
    | .asleep | .notCreated => 8

theorem WorkerMove.work_lt {cfg : Config} {v : View} {heap : Addr → PackedData} {id : UInt32}
    {l l' : Lane} {fr : List Addr} (hcount : cfg.lib.CountsElements l.inserted.length)
    (hlib : cfg.lib.Blocking l.inserted.length) (hl : LaneReach cfg v l) (hd : v.done = true)
    (h : WorkerMove cfg v.done heap id l l' fr) :
    l'.work < l.work := by
  unfold Lane.work
  cases h
  case goOn n hpc hn =>
    -- the worker has read a size that is not 0, and still has the mutex
    have hq : l.queue ≠ [] := by
      intro hq
      have hsize := hl.size_read n hpc
      exact hn hd (hsize.trans ((hcount _ hl.queue_le).mpr hq))
    simp [hpc, hq]
  case take b q hpc hq hm =>
    simp [hpc, hq]
    omega
  case null hpc hm =>
    have hq := ((hlib.null _ hl.queue_le _).mp hm).1
    simp [hpc, hq]
  case wait hpc hm =>
    have hfalse := ((hlib.wait _ hl.queue_le _).mp hm).2
    rw [hd] at hfalse
    cases hfalse
  case awake hpc =>
    simp only [hpc]
    split <;> omega
  case unlock b hpc =>
    simp only [hpc]
    cases cfg.logsFilesFlag <;> simp
  all_goals simp [*]

theorem handleClient_enabled {cfg : Config} {l : Lane} (hlib : cfg.lib.Blocking l.queue.length)
    (done : Bool) (heap : Addr → PackedData) (id : UInt32) (hrun : l.pc.running = true)
    (hnot : l.pc ≠ .asleep) : ∃ c, (handleClient cfg done heap id l c).isSome = true := by
  cases hpc : l.pc with
  | notCreated => rw [hpc] at hrun; cases hrun
  | ended => rw [hpc] at hrun; cases hrun
  | asleep => exact absurd hpc hnot
  | remove =>
    cases hq : l.queue with
    | nil =>
      cases done with
      | true =>
        have hnull : cfg.lib.mayNull [] true = true :=
          (hlib.null _ (Nat.zero_le _) _).mpr ⟨rfl, rfl⟩
        exact ⟨.null, by simp [handleClient, hpc, hq, hnull]⟩
      | false =>
        have hwait : cfg.lib.mayWait [] false = true :=
          (hlib.wait _ (Nat.zero_le _) _).mpr ⟨rfl, rfl⟩
        exact ⟨.wait, by simp [handleClient, hpc, hq, hwait]⟩
    | cons b q =>
      have htake : cfg.lib.mayTake (b :: q) done = true :=
        (hlib.take _ (congrArg List.length hq).ge _).mpr (List.cons_ne_nil b q)
      exact ⟨.take, by simp [handleClient, hpc, hq, htake]⟩
  | unlock b => cases b <;> exact ⟨.go, by simp [handleClient, hpc]⟩
  | log b =>
    let out : LogOutcome := ⟨⟨true, true, .error ""⟩, true, true⟩
    rcases logServerSensorData_status l.logsFile (recordIn cfg heap b) id out with ⟨file, h⟩ | h
    · exact ⟨.log out, by simp [handleClient, hpc, h]⟩
    · exact ⟨.log out, by simp [handleClient, hpc, h]⟩
  | _ => exact ⟨.go, by simp [handleClient, hpc]⟩

theorem WorkerPc.locked_running {pc : WorkerPc} (h : pc.locked = true) :
    pc.running = true ∧ pc ≠ .asleep := by
  cases pc <;>
    first
    | exact Bool.noConfusion h
    | exact ⟨rfl, WorkerPc.noConfusion⟩

theorem workerStep_enabled {cfg : Config} {s : State N} (hr : Reachable cfg s)
    (hlib : s.Blocking cfg.lib) (hx : s.main.isExited = false) (i : Fin N)
    (hrun : (s.lanes i).pc.running = true) (hnot : (s.lanes i).pc ≠ .asleep) :
    ∃ c s', step cfg s (.worker i c) = some s' := by
  obtain ⟨c, hsome⟩ := handleClient_enabled ((hlib i).mono (hr.lane i).queue_le) s.done s.heap
    (UInt32.ofNat i) hrun hnot
  obtain ⟨r, hres⟩ := Option.isSome_iff_exists.mp hsome
  have hstep : (step cfg s (.worker i c)).isSome = true := by
    unfold step workerStep
    simp [hx, hres]
  exact ⟨c, Option.isSome_iff_exists.mp hstep⟩

/-! ## runs behind the broadcasts -/

def State.work (s : State N) : Nat := ∑ i, (s.lanes i).work

def Action.isWorker : Action N → Bool
  | .worker _ _ => true
  | _ => false

theorem not_exited {cfg : Config} {s s' : State N} {a : Action N}
    (h : step cfg s a = some s') : s.main.isExited = false := by
  unfold step at h
  split at h
  · cases h
  · rename_i hx
    simpa using hx

theorem not_asleep {cfg : Config} {s : State N} (hr : Reachable cfg s) (hlib : s.Blocking cfg.lib)
    (hb : s.main.broadcastsDone = true) (i : Fin N) : (s.lanes i).pc ≠ .asleep := by
  intro hpc
  have hfalse := ((hr.lane i).asleep (hlib i) hpc).2
  rw [(view_broadcastsDone hb i).2] at hfalse
  cases hfalse

/-- a reachable state behind the broadcasts, or one in which the process is gone, with a library
that can be relied on -/
structure Drained (cfg : Config) (s : State N) : Prop where
  reachable : Reachable cfg s
  past : s.main.broadcastsDone = true ∨ s.main.isExited = true
  counts : s.CountsElements cfg.lib
  blocking : s.Blocking cfg.lib

theorem Drained.broadcastsDone {cfg : Config} {s : State N} (h : Drained cfg s)
    (hx : s.main.isExited = false) : s.main.broadcastsDone = true := by
  rcases h.past with hb | hx'
  · exact hb
  · rw [hx] at hx'
    cases hx'

theorem Drained.after {cfg : Config} {s s' : State N} {a : Action N} (h : Drained cfg s)
    (hstep : step cfg s a = some s') : Drained cfg s' := by
  have hb := h.broadcastsDone (not_exited hstep)
  have hd : s.done = true := done_of_broadcastsDone h.reachable hb
  exact ⟨h.reachable.after hstep, (step_move hstep).broadcastsDone hb,
    h.reachable.countsElements_final hd h.counts hstep,
    h.reachable.blocking_final hd h.blocking hstep⟩

theorem worker_work_lt {cfg : Config} {s s' : State N} {a : Action N} (h : Drained cfg s)
    (hstep : step cfg s a = some s') (ha : a.isWorker = true) : s'.work < s.work := by
  have hb := h.broadcastsDone (not_exited hstep)
  cases step_move hstep with
  | worker i c l fr hw =>
    have hd : (s.view i).done = true := done_of_broadcastsDone h.reachable hb
    have hlt := WorkerMove.work_lt (h.counts i) (h.blocking i) (h.reachable.lane i) hd hw
    have hsum : (∑ j, ((s.onLane i fun _ => l).lanes j).work) + (s.lanes i).work =
        (∑ j, (s.lanes j).work) + l.work := Places.sum_update Lane.work s.lanes i l
    show (∑ j, ((s.onLane i fun _ => l).lanes j).work) < ∑ j, (s.lanes j).work
    omega
  | _ => cases ha

theorem other_work_le {cfg : Config} {s s' : State N} {a : Action N} (h : Drained cfg s)
    (hstep : step cfg s a = some s') (ha : a.isWorker = false) : s'.work ≤ s.work := by
  have hb := h.broadcastsDone (not_exited hstep)
  cases step_move hstep with
  | worker i c l fr hw => cases ha
  | wake i hw => exact absurd hw (not_asleep h.reachable h.blocking hb i)
  | arrive d => exact Nat.le_refl _
  | signal sig t ht => exact Nat.le_refl _
  | main c s' hm =>
    have hsame : ∀ i, (s'.lanes i).work = (s.lanes i).work := fun i => by
      cases hm
      case release path op ops hpc =>
        obtain ⟨c, d, hl⟩ := release_lane s op i
        show ((s.release op).lanes i).work = _
        rw [hl]
        rfl
      case create k hpc hk => rw [hpc] at hb; cases hb
      case insert b k hpc hfree => rw [hpc] at hb; cases hb
      case broadcast k hpc hk hfree =>
        rw [hpc] at hb
        exact absurd (of_decide_eq_true hb) (Nat.not_le.mpr hk)
      all_goals rfl
    exact Nat.le_of_eq (Finset.sum_congr rfl fun i _ => hsame i)

theorem worker_enabled {cfg : Config} {s : State N} (hr : Reachable cfg s)
    (hlib : s.Blocking cfg.lib) (hb : s.main.broadcastsDone = true) (i : Fin N)
    (hi : (s.lanes i).pc ≠ .ended) : ∃ c s', step cfg s (.worker i c) = some s' := by
  have hc := (view_broadcastsDone hb i).1
  have hcreated : (s.lanes i).pc ≠ .notCreated := by
    intro h
    rw [(hr.lane i).notCreated_iff.mp h] at hc
    cases hc
  have hrun : (s.lanes i).pc.running = true := by
    cases hpc : (s.lanes i).pc with
    | notCreated => exact absurd hpc hcreated
    | ended => exact absurd hpc hi
    | _ => rfl
  have hx : s.main.isExited = false := by
    cases hm : s.main with
    | exited path => rw [hm] at hb; cases hb
    | _ => rfl
  exact workerStep_enabled hr hlib hx i hrun (not_asleep hr hlib hb i)

theorem step_ended {cfg : Config} {s : State N} {i : Fin N} (hi : (s.lanes i).pc = .ended)
    (c : WorkerChoice) : step cfg s (.worker i c) = none := by
  rw [Option.eq_none_iff_forall_ne_some]
  intro s' hstep
  cases step_move hstep with
  | worker i c l fr hw =>
    have hrun := hw.running.1
    rw [hi] at hrun
    cases hrun

theorem join_completes (cfg : Config) (s : State N) (hended : ∀ i, (s.lanes i).pc = .ended)
    (k : Nat) (hpc : s.main = .join k) :
    ∃ n t, Runs.exec (step cfg) s (List.replicate n (.main .proceed)) = some t ∧
      t.main = .report := by
  induction hn : N - k generalizing s k with
  | zero =>
    have hk : ¬ k < N := by omega
    refine ⟨1, { s with main := .report }, Runs.exec_single ?_, rfl⟩
    simp [step, mainStep, hpc, MainPc.isExited, hk]
  | succ n ih =>
    have hk : k < N := by omega
    obtain ⟨m, t, hrun, ht⟩ := ih { s with main := .join (k + 1) } hended (k + 1) rfl (by omega)
    refine ⟨m + 1, t, Runs.exec_cons_some.mpr ⟨_, ?_, hrun⟩, ht⟩
    simp [step, mainStep, hpc, MainPc.isExited, hk, hended]

theorem workers_end {cfg : Config} {s : State N} (h : Drained cfg s)
    (hb : s.main.broadcastsDone = true) :
    ∃ as t, (∀ a ∈ as, a.isWorker = true) ∧ Runs.exec (step cfg) s as = some t ∧
      ∀ i, (t.lanes i).pc = .ended := by
  have hprog : ∀ s : State N, (Drained cfg s ∧ s.main.broadcastsDone = true) →
      ¬ (∀ i, (s.lanes i).pc = .ended) → ∃ a s', Action.isWorker a = true ∧
        step cfg s a = some s' ∧ (Drained cfg s' ∧ s'.main.broadcastsDone = true) ∧
        s'.work < s.work := by
    rintro s ⟨h, hb⟩ hnot
    obtain ⟨i, hi⟩ := not_forall.mp hnot
    obtain ⟨c, s', hstep⟩ := worker_enabled h.reachable h.blocking hb i hi
    refine ⟨.worker i c, s', rfl, hstep, ⟨h.after hstep, ?_⟩, worker_work_lt h hstep rfl⟩
    cases step_move hstep with
    | worker i c l fr hw => exact hb
  obtain ⟨as, t, hp, hrun, -, hended⟩ := Runs.exec_reaches hprog s ⟨h, hb⟩
  exact ⟨as, t, hp, hrun, hended⟩

/-- **No lost wake-up and no deadlock.**  A worker sleeps only on an empty queue to which main has
not broadcast.  Behind the broadcasts every worker that has not ended can step, there are only
finitely many worker steps in any run, and in a state of the process in which no worker can step
all have ended, all queues are empty and main's join completes; the workers alone lead to such a
state. -/
theorem no_lost_wakeup {cfg : Config} {s : State N} (hr : Reachable cfg s)
    (hcount : s.CountsElements cfg.lib) (hlib : s.Blocking cfg.lib) :
    (∀ i, (s.lanes i).pc = .asleep → (s.lanes i).queue = [] ∧ s.main.broadcasted ≤ i) ∧
    (s.main.broadcastsDone = true →
      (∀ i, (s.lanes i).pc ≠ .ended → ∃ c s', step cfg s (.worker i c) = some s') ∧
      (∃ bound, ∀ as t, Runs.exec (step cfg) s as = some t →
        as.countP Action.isWorker ≤ bound) ∧
      (∀ as t, Runs.exec (step cfg) s as = some t → t.main.isExited = false →
        (∀ i c, step cfg t (.worker i c) = none) →
        (∀ i, (t.lanes i).pc = .ended ∧ (t.lanes i).queue = []) ∧
        ∀ k, t.main = .join k → ∃ n t',
          Runs.exec (step cfg) t (List.replicate n (.main .proceed)) = some t' ∧
            t'.main = .report) ∧
      ∃ as t, (∀ a ∈ as, a.isWorker = true) ∧ Runs.exec (step cfg) s as = some t ∧
        ∀ i, (t.lanes i).pc = .ended) := by
  constructor
  · intro i hpc
    obtain ⟨hq, hfalse⟩ := (hr.lane i).asleep (hlib i) hpc
    refine ⟨hq, ?_⟩
    have hnot : ¬ (i : Nat) < s.main.broadcasted := by
      rw [← Nat.blt_eq, Bool.not_eq_true]
      exact hfalse
    omega
  intro hb
  have hdrained : Drained cfg s := ⟨hr, Or.inl hb, hcount, hlib⟩
  refine ⟨fun i hi => worker_enabled hr hlib hb i hi, ?_, ?_, workers_end hdrained hb⟩
  · refine ⟨s.work, ?_⟩
    intro as t hrun
    have hcountP := Runs.exec_count_le (J := Drained cfg) (μ := State.work)
      (p := Action.isWorker) (fun _ _ _ h hs => h.after hs)
      (fun _ _ _ h hs ha => worker_work_lt h hs ha)
      (fun _ _ _ h hs ha => other_work_le h hs ha) hrun hdrained
    omega
  · intro as t hrun hx hnone
    have ht : Drained cfg t := Runs.exec_invariant (fun _ _ _ h hs => h.after hs) hrun hdrained
    have hended : ∀ i, (t.lanes i).pc = .ended := by
      intro i
      by_contra hi
      obtain ⟨c, t', hstep⟩ :=
        worker_enabled ht.reachable ht.blocking (ht.broadcastsDone hx) i hi
      rw [hnone i c] at hstep
      cases hstep
    refine ⟨fun i => ⟨hended i, 
      (ht.reachable.left_loop i (ht.counts i) (by rw [hended i]; rfl)).1⟩, ?_⟩
    exact fun k hpc => join_completes cfg t hended k hpc

/-- the worker has found its queue empty and waits -/
def workerAsleep : State 1 := (Runs.exec (step oneSensor) (init 1)
  (.main .proceed :: List.replicate 4 (.worker (Fin.last 0) .go) ++
    [.worker (Fin.last 0) .wait])).get (by decide)

/-- a worker with nothing to do sleeps; with main in its join and one message in the queue the worker
can step, comes to its end by itself, and there the queue is empty and the join completes -/
theorem no_lost_wakeup_messageQueued :
    ((workerAsleep.lanes 0).pc = .asleep ∧ (workerAsleep.lanes 0).queue = []) ∧
    messageQueued.main = .join 0 ∧ (messageQueued.lanes 0).queue = [0] ∧
    (∃ c s', step oneSensor messageQueued (.worker 0 c) = some s') ∧
    (∃ bound, ∀ as t, Runs.exec (step oneSensor) messageQueued as = some t →
      as.countP Action.isWorker ≤ bound) ∧
    (∃ as t, (∀ a ∈ as, Action.isWorker a = true) ∧
      Runs.exec (step oneSensor) messageQueued as = some t ∧ ∀ i, (t.lanes i).pc = .ended) ∧
    (afterOneMessage.lanes 0).queue = [] ∧ ∃ n t',
      Runs.exec (step oneSensor) afterOneMessage (List.replicate n (.main .proceed)) = some t' ∧
        t'.main = .report := by
  have hasleep : (workerAsleep.lanes 0).pc = .asleep := by decide
  have hempty := (no_lost_wakeup (reachable_get oneSensor _ _)
    (State.countsElements (s := workerAsleep) (by decide)) (State.blocking _)).1 0 hasleep
  obtain ⟨henabled, hbound, hlast, hend⟩ := (no_lost_wakeup reachable_messageQueued
    (State.countsElements (by decide)) (State.blocking _)).2 (by decide)
  have hrun : Runs.exec (step oneSensor) messageQueued (oneMessage.drop 17) =
      some afterOneMessage := by
    have hall : Runs.exec (step oneSensor) (init 1) (oneMessage.take 17 ++ oneMessage.drop 17) =
        some afterOneMessage := (Option.some_get _).symm
    have hqueued : Runs.exec (step oneSensor) (init 1) (oneMessage.take 17) = some messageQueued :=
      (Option.some_get _).symm
    obtain ⟨s, hs, hrest⟩ := Runs.exec_append_some.mp hall
    exact Option.some.inj (hs.symm.trans hqueued) ▸ hrest
  have hended : ∀ i c, step oneSensor afterOneMessage (.worker i c) = none := fun i c =>
    step_ended (by rw [Fin.fin_one_eq_zero i]; decide) c
  obtain ⟨hqueues, hjoin⟩ := hlast _ afterOneMessage hrun (by decide) hended
  exact ⟨⟨hasleep, hempty.1⟩, by decide, by decide, henabled 0 (by decide), hbound, hend,
    (hqueues 0).2, hjoin 0 (by decide)⟩

end Server
end SensorSimulator
