import SensorSimulator.Lib.Termination
import SensorSimulator.Server.Drain
import SensorSimulator.Server.TearDown
import SensorSimulator.Server.Wake

/-!
# The way out: from the store of the flag to the exit of the process

* `MainPc.toExit`, `State.toExit`   how many steps main, and the process, are from the exit;
* `shutDown_terminates`             every step of main and of a worker, and every spurious wake-up, is
                                    one of them, and until the exit there is one to take;
* `Released`                        what main has behind it of its list of releases;
* `shut_down_completes`             if no join fails the process ends, and what it leaves behind.
-/

namespace SensorSimulator
namespace Server

variable {N : Nat}

/-! ## how far it is -/

/-- the length of the two lists of releases behind the joins -/
def releasesLeft (N : Nat) (logsFilesFlag : Bool) : Nat :=
  (ExitPath.shutDown.releases N logsFilesFlag).length

/-- the steps that main has still to take once it has stored the flag -/
def MainPc.toExit (logsFilesFlag : Bool) : MainPc N → Nat
  | broadcast i => (N - i) + N + releasesLeft N logsFilesFlag + 4
  | join i => (N - i) + releasesLeft N logsFilesFlag + 3
  | report => releasesLeft N logsFilesFlag + 2
  | cleanUp _ ops => ops.length + 1
  | _ => 0

def State.toExit (cfg : Config) (s : State N) : Nat := s.main.toExit cfg.logsFilesFlag + s.work

/-- main is on the way out of a failure -/
def MainPc.failed : MainPc N → Bool
  | cleanUp path _ | exited path => decide (path ≠ .shutDown)
  | _ => false

/-- only a failing call of main leads there -/
theorem Move.notFailed {cfg : Config} {s s' : State N} {a : Action N} (hs : s.main.failed = false)
    (ha : a ≠ .main .fail) (h : Move cfg s a s') : s'.main.failed = false := by
  cases h with
  | main c s' hm =>
    have hc : c ≠ .fail := fun he => ha (congrArg _ he)
    cases hm
    case createFails => exact absurd rfl hc
    case joinFails => exact absurd rfl hc
    case release path op ops hpc =>
      rw [hpc] at hs
      exact hs
    case exit path hpc =>
      rw [hpc] at hs
      exact hs
    all_goals rfl
  | signal sig t ht =>
    show (if t = .main then s.main.interrupt else s.main).failed = false
    split
    · rcases s.main.interrupt_cases with h | ⟨e, he, h⟩
      · rw [h]
        exact hs
      · rw [h]
        rfl
    · exact hs
  | _ => exact hs

theorem MainPc.exited_of_notFailed {pc : MainPc N} (hx : pc.isExited = true)
    (hs : pc.failed = false) : pc = .exited .shutDown := by
  cases pc with
  | exited path => rw [of_not_not (of_decide_eq_false hs)]
  | _ => cases hx

/-- a step of main or of a worker, or a spurious wake-up: what the process does by itself -/
def Action.isOwn : Action N → Bool
  | .main _ | .worker _ _ | .wake _ => true
  | .arrive _ | .signal _ _ => false

/-- main has stored the flag, and the library can be relied on -/
structure Closing (cfg : Config) (s : State N) : Prop where
  reachable : Reachable cfg s
  stored : s.main.stored = true
  counts : s.CountsElements cfg.lib
  blocking : s.Blocking cfg.lib

theorem MainMove.stored {cfg : Config} {s s' : State N} {c : MainChoice}
    (h : MainMove cfg s c s') (hs : s.main.stored = true) : s'.main.stored = true := by
  cases h
  case release path op ops hpc =>
    rw [hpc] at hs
    cases path <;> exact hs
  case exit path hpc =>
    rw [hpc] at hs
    cases path <;> exact hs
  case broadcast => rfl
  case broadcasted => rfl
  case join => rfl
  case joined => rfl
  case joinFails => rfl
  case report => rfl
  all_goals simp_all [MainPc.stored]

theorem Closing.after {cfg : Config} {s s' : State N} {a : Action N} (h : Closing cfg s)
    (hstep : step cfg s a = some s') : Closing cfg s' := by
  have hd : s.done = true := (done_eq_stored h.reachable).trans h.stored
  refine ⟨h.reachable.after hstep, ?_, h.reachable.countsElements_final hd h.counts hstep,
    h.reachable.blocking_final hd h.blocking hstep⟩
  have hs := h.stored
  cases step_move hstep with
  | main c s' hm => exact hm.stored hs
  | signal sig t ht =>
    show (if t = .main then s.main.interrupt else s.main).stored = true
    split
    · rcases s.main.interrupt_cases with h | ⟨e, he, -⟩
      · rw [h]
        exact hs
      · rw [he] at hs
        cases hs
    · exact hs
  | _ => exact hs

/-- a wake-up does not make work, and a spurious one takes some -/
theorem wake_work (l : Lane) : l.wake.work ≤ l.work ∧ (l.pc = .asleep → l.wake.work < l.work) := by
  unfold Lane.wake Lane.work
  cases hpc : l.pc with
  | asleep =>
    constructor
    · show 8 * l.queue.length + 7 ≤ 8 * l.queue.length + 8
      omega
    · intro _
      show 8 * l.queue.length + 7 < 8 * l.queue.length + 8
      omega
  | _ => exact ⟨Nat.le_refl _, fun h => WorkerPc.noConfusion h⟩

theorem onLane_work (s : State N) (i : Fin N) (f : Lane → Lane) :
    (s.onLane i f).work + (s.lanes i).work = s.work + (f (s.lanes i)).work :=
  Places.sum_update Lane.work s.lanes i (f (s.lanes i))

theorem MainMove.toExit_lt {cfg : Config} {s s' : State N} {c : MainChoice}
    (h : MainMove cfg s c s') (hs : s.main.stored = true) :
    s'.main.toExit cfg.logsFilesFlag < s.main.toExit cfg.logsFilesFlag ∧ s'.work ≤ s.work := by
  cases h
  case broadcast i hpc hi hfree =>
    constructor
    · simp only [hpc, MainPc.toExit]
      omega
    · have hsum := onLane_work s ⟨i, hi⟩ Lane.wake
      have hwake := (wake_work (s.lanes ⟨i, hi⟩)).1
      show (s.onLane ⟨i, hi⟩ Lane.wake).work ≤ s.work
      omega
  case broadcasted i hpc hi =>
    refine ⟨?_, Nat.le_refl _⟩
    simp only [hpc, MainPc.toExit]
    omega
  case join i hpc hi he =>
    refine ⟨?_, Nat.le_refl _⟩
    simp only [hpc, MainPc.toExit]
    omega
  case joined i hpc hi =>
    refine ⟨?_, Nat.le_refl _⟩
    simp only [hpc, MainPc.toExit]
    omega
  case joinFails i hpc hi =>
    refine ⟨?_, Nat.le_refl _⟩
    have hlength : ((ExitPath.joinFailure i).releases N cfg.logsFilesFlag).length =
        releasesLeft N cfg.logsFilesFlag := rfl
    simp only [hpc, MainPc.toExit, hlength]
    omega
  case report hpc =>
    refine ⟨?_, Nat.le_refl _⟩
    simp only [hpc, MainPc.toExit, releasesLeft]
    omega
  case release path op ops hpc =>
    constructor
    · simp only [hpc, MainPc.toExit, List.length_cons]
      omega
    · refine (Finset.sum_congr rfl fun i _ => ?_).le
      obtain ⟨c, d, hl⟩ := release_lane s op i
      show ((s.release op).lanes i).work = _
      rw [hl]
      rfl
  case exit path hpc =>
    refine ⟨?_, Nat.le_refl _⟩
    simp only [hpc, MainPc.toExit]
    omega
  all_goals simp_all [MainPc.stored]

theorem Closing.toExit_lt {cfg : Config} {s s' : State N} {a : Action N} (h : Closing cfg s)
    (hstep : step cfg s a = some s') (ha : a.isOwn = true) : s'.toExit cfg < s.toExit cfg := by
  unfold State.toExit
  cases step_move hstep with
  | main c s' hm =>
    obtain ⟨hlt, hle⟩ := hm.toExit_lt h.stored
    omega
  | worker i c l fr hw =>
    have hd : (s.view i).done = true := (done_eq_stored h.reachable).trans h.stored
    have hlt : l.work < (s.lanes i).work :=
      WorkerMove.work_lt (h.counts i) (h.blocking i) (h.reachable.lane i) hd hw
    have hsum := onLane_work s i fun _ => l
    show s.main.toExit cfg.logsFilesFlag + (s.onLane i fun _ => l).work < _
    omega
  | wake i hw =>
    have hlt := (wake_work (s.lanes i)).2 hw
    have hsum := onLane_work s i Lane.wake
    show s.main.toExit cfg.logsFilesFlag + (s.onLane i Lane.wake).work < _
    omega
  | arrive d => cases ha
  | signal sig t ht => cases ha

theorem Closing.toExit_le {cfg : Config} {s s' : State N} {a : Action N} (h : Closing cfg s)
    (hstep : step cfg s a = some s') (ha : a.isOwn = false) : s'.toExit cfg ≤ s.toExit cfg := by
  have hs := h.stored
  cases step_move hstep with
  | main c s' hm => cases ha
  | worker i c l fr hw => cases ha
  | wake i hw => cases ha
  | arrive d => exact Nat.le_refl _
  | signal sig t ht =>
    have hm : (s.signalHandler t).main = s.main := by
      show (if t = .main then s.main.interrupt else s.main) = s.main
      split
      · rcases s.main.interrupt_cases with h | ⟨e, he, -⟩
        · exact h
        · rw [he] at hs
          cases hs
      · rfl
    unfold State.toExit
    rw [hm]
    exact Nat.le_refl _

/-- until the exit main can go on, or a worker that main waits for can -/
theorem Closing.progress {cfg : Config} {s : State N} (h : Closing cfg s)
    (hx : s.main.isExited = false) :
    ∃ a s', Action.isOwn a = true ∧ a ≠ .main .fail ∧ step cfg s a = some s' := by
  have hmain : (mainStep cfg s .proceed).isSome = true →
      ∃ a s', Action.isOwn a = true ∧ a ≠ .main .fail ∧ step cfg s a = some s' := by
    intro hsome
    obtain ⟨s', hstep⟩ := Option.isSome_iff_exists.mp hsome
    refine ⟨.main .proceed, s', rfl, by simp, ?_⟩
    unfold step
    rw [hx]
    exact hstep
  have hworker : ∀ i : Fin N, (∃ c s', step cfg s (.worker i c) = some s') →
      ∃ a s', Action.isOwn a = true ∧ a ≠ .main .fail ∧ step cfg s a = some s' :=
    fun i ⟨c, s', hstep⟩ => ⟨.worker i c, s', rfl, by simp, hstep⟩
  cases hpc : s.main with
  | broadcast i =>
    by_cases hi : i < N
    · cases hlock : (s.lanes ⟨i, hi⟩).pc.locked with
      | false => exact hmain (by simp [mainStep, hpc, hi, hlock])
      | true =>
        obtain ⟨hrun, hawake⟩ := WorkerPc.locked_running hlock
        exact hworker ⟨i, hi⟩ (workerStep_enabled h.reachable h.blocking hx _ hrun hawake)
    · exact hmain (by simp [mainStep, hpc, hi])
  | join i =>
    by_cases hi : i < N
    · by_cases he : (s.lanes ⟨i, hi⟩).pc = .ended
      · exact hmain (by simp [mainStep, hpc, hi, he])
      · have hb : s.main.broadcastsDone = true := by
          rw [hpc]
          rfl
        exact hworker ⟨i, hi⟩ (worker_enabled h.reachable h.blocking hb _ he)
    · exact hmain (by simp [mainStep, hpc, hi])
  | report => exact hmain (by simp [mainStep, hpc])
  | cleanUp path ops =>
    cases ops with
    | nil => exact hmain (by simp [mainStep, hpc])
    | cons op ops => exact hmain (by simp [mainStep, hpc])
  | exited path => rw [hpc] at hx; cases hx
  | _ =>
    have hs := h.stored
    rw [hpc] at hs
    cases hs

theorem shutDown_terminates (N : Nat) (cfg : Config) :
    Runs.Terminates (step (N := N) cfg) (Closing cfg) (fun s => s.main.isExited = true)
      (State.toExit cfg) Action.isOwn (fun _ => false) 0 where
  inv _ _ _ h hstep := h.after hstep
  lt _ _ _ h hstep ha := h.toExit_lt hstep ha
  add _ _ _ _ _ ha := Bool.noConfusion ha
  le _ _ _ h hstep ha _ := h.toExit_le hstep ha
  progress _ h hx := by
    obtain ⟨a, s', ha, -, hstep⟩ := h.progress (Bool.eq_false_of_not_eq_true hx)
    exact ⟨a, s', ha, hstep⟩

/-! ## what is left behind -/

/-- the flag that a release leaves in a lane -/
def CleanUp.Done (s : State N) : CleanUp N → Prop
  | .closeLogsFile i => (s.lanes i).logsFileClosed = true
  | .destroyQueue i => (s.lanes i).queueDestroyed = true
  | .cmdlineParserFree | .closeSocket => True

/-- what main has behind it of its list of releases -/
def Released (cfg : Config) (s : State N) : Prop :=
  match s.main with
  | .cleanUp path ops => ∃ before, path.releases N cfg.logsFilesFlag = before ++ ops ∧
      ∀ op ∈ before, op.Done s
  | .exited path => ∀ op ∈ path.releases N cfg.logsFilesFlag, op.Done s
  | _ => True

/-- no flag is taken back -/
def FlagsKept (l l' : Lane) : Prop :=
  (l.logsFileClosed = true → l'.logsFileClosed = true) ∧
    (l.queueDestroyed = true → l'.queueDestroyed = true)

theorem FlagsKept.refl (l : Lane) : FlagsKept l l := ⟨id, id⟩

theorem CleanUp.Done.kept {s s' : State N} (h : ∀ i, FlagsKept (s.lanes i) (s'.lanes i))
    (op : CleanUp N) (hop : op.Done s) : op.Done s' := by
  cases op with
  | closeLogsFile i => exact (h i).1 hop
  | destroyQueue i => exact (h i).2 hop
  | _ => trivial

theorem release_flagsKept (s : State N) (op : CleanUp N) (i : Fin N) :
    FlagsKept (s.lanes i) ((s.release op).lanes i) := by
  cases op with
  | closeLogsFile j =>
    exact onLane_forall (P := fun k l => FlagsKept (s.lanes k) l) s j Lane.closeLogsFile
      ⟨fun _ => rfl, id⟩ (fun k _ => .refl _) i
  | destroyQueue j =>
    exact onLane_forall (P := fun k l => FlagsKept (s.lanes k) l) s j Lane.destroyQueue
      ⟨id, fun _ => rfl⟩ (fun k _ => .refl _) i
  | _ => exact .refl _

theorem release_done (s : State N) (op : CleanUp N) : op.Done (s.release op) := by
  cases op with
  | closeLogsFile i =>
    show ((s.onLane i Lane.closeLogsFile).lanes i).logsFileClosed = true
    rw [onLane_self]
    rfl
  | destroyQueue i =>
    show ((s.onLane i Lane.destroyQueue).lanes i).queueDestroyed = true
    rw [onLane_self]
    rfl
  | _ => trivial

theorem Released.frame {cfg : Config} {s s' : State N} (hs : Released cfg s)
    (hm : s'.main = s.main) (hflags : ∀ i, FlagsKept (s.lanes i) (s'.lanes i)) :
    Released cfg s' := by
  unfold Released at *
  rw [hm]
  cases hpc : s.main with
  | cleanUp path ops =>
    rw [hpc] at hs
    obtain ⟨before, hsplit, hdone⟩ := hs
    exact ⟨before, hsplit, fun op hmem => .kept hflags op (hdone op hmem)⟩
  | exited path =>
    rw [hpc] at hs
    exact fun op hmem => .kept hflags op (hs op hmem)
  | _ => trivial

theorem MainMove.released {cfg : Config} {s s' : State N} {c : MainChoice}
    (hs : Released cfg s) (h : MainMove cfg s c s') : Released cfg s' := by
  cases h
  case createFails i hpc hi => exact ⟨[], rfl, fun op hmem => absurd hmem List.not_mem_nil⟩
  case joinFails i hpc hi => exact ⟨[], rfl, fun op hmem => absurd hmem List.not_mem_nil⟩
  case report hpc => exact ⟨[], rfl, fun op hmem => absurd hmem List.not_mem_nil⟩
  case release path op ops hpc =>
    unfold Released at hs
    rw [hpc] at hs
    obtain ⟨before, hsplit, hdone⟩ := hs
    refine ⟨before ++ [op], by rw [hsplit]; simp, fun op' hmem => ?_⟩
    rcases List.mem_append.mp hmem with hbefore | hlast
    · exact CleanUp.Done.kept (release_flagsKept s op) op' (hdone op' hbefore)
    · rw [List.mem_singleton.mp hlast]
      exact release_done s op
  case exit path hpc =>
    unfold Released at hs
    rw [hpc] at hs
    obtain ⟨before, hsplit, hdone⟩ := hs
    intro op hmem
    rw [hsplit, List.append_nil] at hmem
    exact hdone op hmem
  all_goals trivial

theorem Reachable.released {cfg : Config} {s : State N} (h : Reachable cfg s) :
    Released cfg s := by
  refine reachable_invariant (I := Released cfg) trivial ?_ h
  intro s a s' _ hs hm
  cases hm with
  | main c s' hmain => exact hmain.released hs
  | worker i c l fr hw =>
    refine hs.frame rfl (onLane_forall (P := fun j l' => FlagsKept (s.lanes j) l') s i (fun _ => l)
      ?_ fun j _ => .refl _)
    unfold FlagsKept
    rw [hw.flags.1, hw.flags.2]
    exact ⟨id, id⟩
  | wake i hw =>
    exact hs.frame rfl (onLane_forall (P := fun j l' => FlagsKept (s.lanes j) l') s i Lane.wake
      ⟨id, id⟩ fun j _ => .refl _)
  | arrive d => exact hs.frame rfl fun i => .refl _
  | signal sig t ht =>
    -- main is in `recvfrom`, or the handler leaves it where it is
    have hcases : (s.signalHandler t).main = s.main ∨ (s.signalHandler t).main = .blocked true := by
      show (if t = .main then s.main.interrupt else s.main) = _ ∨
        (if t = .main then s.main.interrupt else s.main) = _
      split
      · exact s.main.interrupt_cases.imp_right fun ⟨_, _, h⟩ => h
      · exact Or.inl rfl
    rcases hcases with h | h
    · exact hs.frame h fun i => .refl _
    · unfold Released
      rw [h]
      trivial

theorem Reachable.freed_all {cfg : Config} {s : State N} (h : Reachable cfg s)
    (hlib : s.CountsElements cfg.lib) (hheld : s.main.held = [])
    (hended : ∀ i, (s.lanes i).pc = .ended) :
    s.freed.Perm (List.range s.allocated) := by
  rw [List.perm_iff_count]
  intro b
  rw [List.nodup_range.count]
  simp only [List.mem_range]
  split
  case isTrue hb => exact h.freed_once hlib hheld hended hb
  case isFalse hb =>
    have hocc := h.occurrences b
    rw [if_neg hb] at hocc
    unfold State.occurrences at hocc
    omega

theorem Reachable.exited_shutDown {cfg : Config} {t : State N} (h : Reachable cfg t)
    (hcount : t.CountsElements cfg.lib) (hpc : t.main = .exited .shutDown) :
    t.freed.Perm (List.range t.allocated) ∧ ∀ i, (t.lanes i).pc = .ended ∧
      (t.lanes i).queue = [] ∧ (t.lanes i).inserted = (t.lanes i).finished ∧
      (t.lanes i).queueDestroyed = true ∧
      (cfg.logsFilesFlag = true → (t.lanes i).logsFileClosed = true) := by
  have hended : ∀ i, (t.lanes i).pc = .ended := fun i => h.joined_ended (by
    rw [hpc]
    exact i.isLt)
  have hreleased := h.released
  unfold Released at hreleased
  rw [hpc] at hreleased
  refine ⟨h.freed_all hcount (by rw [hpc]; rfl) hended, fun i => ?_⟩
  have hleft : (t.lanes i).pc.left = true := by
    rw [hended i]
    rfl
  refine ⟨hended i, (h.left_loop i (hcount i) hleft).1, h.left_finished i (hcount i) hleft, ?_, ?_⟩
  · exact hreleased (.destroyQueue i) (by simp [ExitPath.releases, destroyServerQueues])
  · intro hon
    exact hreleased (.closeLogsFile i) (by simp [ExitPath.releases, closeLogsFiles, hon])

/-- **The process comes to its end when no join fails.**  Once main has stored the flag, a run in which
no `pthread_join` fails has a bounded number of steps of main, of workers and of spurious wake-ups, it
stands still only when the process has exited the normal way, and it can be brought there.  Then
every worker has finished all that was inserted, every block has been freed once, and everything is
released. -/
theorem shut_down_completes {cfg : Config} {s : State N} (hr : Reachable cfg s)
    (hcount : s.CountsElements cfg.lib) (hlib : s.Blocking cfg.lib)
    (hstored : s.main.stored = true) (hfailed : s.main.failed = false) :
    (∀ as t, Action.main .fail ∉ as → Runs.exec (step cfg) s as = some t →
      as.countP Action.isOwn ≤ s.toExit cfg ∧
      ((∀ a, Action.isOwn a = true → a ≠ .main .fail → step cfg t a = none) →
        t.main = .exited .shutDown) ∧
      (t.main = .exited .shutDown →
        t.freed.Perm (List.range t.allocated) ∧ ∀ i, (t.lanes i).pc = .ended ∧
          (t.lanes i).queue = [] ∧ (t.lanes i).inserted = (t.lanes i).finished ∧
          (t.lanes i).queueDestroyed = true ∧
          (cfg.logsFilesFlag = true → (t.lanes i).logsFileClosed = true))) ∧
    ∃ as t, (∀ a ∈ as, Action.isOwn a = true ∧ a ≠ .main .fail) ∧
      Runs.exec (step cfg) s as = some t ∧ t.main = .exited .shutDown := by
  have hterm := shutDown_terminates N cfg
  have hclosing : Closing cfg s := ⟨hr, hstored, hcount, hlib⟩
  have hnormal : ∀ as t, Action.main .fail ∉ as → Runs.exec (step cfg) s as = some t →
      t.main.failed = false := by
    intro as t hno hrun
    have hall : ∀ a ∈ as, a ≠ Action.main .fail := fun a ha he => hno (he ▸ ha)
    exact Runs.exec_invariant_of (I := fun s : State N => s.main.failed = false)
      (fun _ _ _ hs hok hstep => (step_move hstep).notFailed hs hok) hrun
      (Runs.meets_of_forall hall s) hfailed
  refine ⟨fun as t hno hrun => ⟨?_, fun hnone => ?_, fun hpc => ?_⟩, ?_⟩
  · have hbound := hterm.bounded hclosing hrun
    omega
  · have ht : Closing cfg t := Runs.exec_invariant hterm.inv hrun hclosing
    refine MainPc.exited_of_notFailed ?_ (hnormal as t hno hrun)
    by_contra hx
    obtain ⟨a, t', hown, hnot, hstep⟩ := ht.progress (Bool.eq_false_of_not_eq_true hx)
    rw [hnone a hown hnot] at hstep
    cases hstep
  · have ht : Closing cfg t := Runs.exec_invariant hterm.inv hrun hclosing
    exact ht.reachable.exited_shutDown ht.counts hpc
  · obtain ⟨as, t, hown, hrun, -, hx⟩ := hterm.completes_by (g := fun a => a ≠ Action.main .fail)
      (fun s hs hx => by
        obtain ⟨a, s', hown, hnot, hstep⟩ := hs.progress (Bool.eq_false_of_not_eq_true hx)
        exact ⟨a, s', ⟨hown, hnot⟩, hstep⟩) hclosing
    have hno : Action.main .fail ∉ as := fun hmem => (hown _ hmem).2 rfl
    exact ⟨as, t, hown, hrun, MainPc.exited_of_notFailed hx (hnormal as t hno hrun)⟩

def afterExit : State 1 :=
  (Runs.exec (step oneSensor) afterOneMessage (List.replicate 7 (.main .proceed))).get (by decide)

theorem shut_down_completes_oneMessage : afterExit.main = .exited .shutDown ∧
    afterExit.freed.Perm (List.range afterExit.allocated) ∧
    (afterExit.lanes 0).queueDestroyed = true := by
  obtain ⟨hruns, -⟩ := shut_down_completes reachable_afterOneMessage
    (State.countsElements (by decide)) (State.blocking _) (by decide) (by decide)
  obtain ⟨-, hmaximal, hlast⟩ := hruns _ afterExit
    (fun h => absurd (List.eq_of_mem_replicate h) (by simp)) (Option.some_get _).symm
  have hexit : afterExit.main = .exited .shutDown := by
    refine hmaximal fun a _ _ => if_pos ?_
    decide
  exact ⟨hexit, (hlast hexit).1, ((hlast hexit).2 0).2.2.2.1⟩

end Server
end SensorSimulator
