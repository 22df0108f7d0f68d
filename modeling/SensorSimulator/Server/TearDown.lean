import SensorSimulator.Server.Lanes

/-!
# Tear-down: what is in use while main cleans up

On the normal way out main joins all workers before it closes and destroys anything.  The two ways
out for a failure do not: when `pthread_create` or `pthread_join` fails, main goes on to close the
log files and destroy the queues of workers that are running.

* `State.inUse`           a queue or a log file that is gone while its worker runs;
* `State.failsQuietly`    a thread call fails only when no worker is running;
* `tearDown_safe`         in runs whose failures are so, nothing in use is torn down;
* `torn_of_not_failsQuietly`  every other failure leads to a torn-down queue in use.
-/

namespace SensorSimulator
namespace Server

variable {N : Nat}

/-- the queue or the log file of a running worker has been destroyed or closed -/
def State.inUse (s : State N) (i : Fin N) : Prop :=
  (s.lanes i).pc.running = true ∧
    ((s.lanes i).queueDestroyed = true ∨ (s.lanes i).logsFileClosed = true)

instance (s : State N) (i : Fin N) : Decidable (s.inUse i) :=
  inferInstanceAs (Decidable (_ ∧ (_ ∨ _)))

def State.quiet (s : State N) : Prop := ∀ i, (s.lanes i).pc.running = false

instance (s : State N) : Decidable s.quiet :=
  inferInstanceAs (Decidable (∀ i, (s.lanes i).pc.running = false))

/-- a `pthread_create` or `pthread_join` fails only when no worker is running -/
def State.failsQuietly (s : State N) : Action N → Bool
  | .main .fail =>
    match s.main with
    | .create _ | .join _ => decide s.quiet
    | _ => true
  | _ => true

/-! ## the invariant -/

def MainPc.leaving : MainPc N → Bool
  | cleanUp _ _ | exited _ => true
  | _ => false

/-- nothing is torn down before main leaves, and no worker runs when it does -/
structure TearDown (s : State N) : Prop where
  whole : s.main.leaving = false → ∀ i,
    (s.lanes i).queueDestroyed = false ∧ (s.lanes i).logsFileClosed = false
  quiet : s.main.leaving = true → s.quiet

theorem TearDown.not_inUse {s : State N} (h : TearDown s) (i : Fin N) : ¬ s.inUse i := by
  rintro ⟨hrun, htorn⟩
  cases hm : s.main.leaving with
  | false =>
    obtain ⟨hq, hl⟩ := h.whole hm i
    rw [hq, hl] at htorn
    rcases htorn with h | h <;> cases h
  | true =>
    rw [h.quiet hm i] at hrun
    cases hrun

theorem WorkerMove.flags {cfg : Config} {done : Bool} {heap : Addr → PackedData} {id : UInt32}
    {l l' : Lane} {fr : List Addr} (h : WorkerMove cfg done heap id l l' fr) :
    l'.queueDestroyed = l.queueDestroyed ∧ l'.logsFileClosed = l.logsFileClosed := by
  cases h <;> exact ⟨rfl, rfl⟩

theorem MainMove.tearDown {cfg : Config} {s s' : State N} {c : MainChoice}
    (hr : Reachable cfg s) (hs : TearDown s) (hok : s.failsQuietly (.main c) = true)
    (h : MainMove cfg s c s') : TearDown s' := by
  have hflags : ∀ (i : Fin N) (f : Lane → Lane), s.main.leaving = false →
      ((f (s.lanes i)).queueDestroyed = (s.lanes i).queueDestroyed ∧
        (f (s.lanes i)).logsFileClosed = (s.lanes i).logsFileClosed) →
      ∀ j, ((s.onLane i f).lanes j).queueDestroyed = false ∧
        ((s.onLane i f).lanes j).logsFileClosed = false := by
    intro i f hm hf
    refine onLane_forall (P := fun _ l => l.queueDestroyed = false ∧ l.logsFileClosed = false) s i f
      ?_ fun j _ => hs.whole hm j
    rw [hf.1, hf.2]
    exact hs.whole hm i
  cases h
  case createFails i hpc hi =>
    have hq : s.quiet := by simpa [State.failsQuietly, hpc] using hok
    exact ⟨fun h => Bool.noConfusion h, fun _ => hq⟩
  case joinFails i hpc hi =>
    have hq : s.quiet := by simpa [State.failsQuietly, hpc] using hok
    exact ⟨fun h => Bool.noConfusion h, fun _ => hq⟩
  case report hpc =>
    refine ⟨fun h => Bool.noConfusion h, ?_⟩
    intro _ i
    have hended := hr.joined_ended (i := i) (by
      rw [hpc]
      exact i.isLt)
    show (s.lanes i).pc.running = false
    rw [hended]
    rfl
  case release path op ops hpc =>
    refine ⟨fun h => Bool.noConfusion h, ?_⟩
    intro _ i
    obtain ⟨c, d, hl⟩ := release_lane s op i
    show ((s.release op).lanes i).pc.running = false
    rw [hl]
    exact hs.quiet (by rw [hpc]; rfl) i
  case exit path hpc =>
    exact ⟨fun h => Bool.noConfusion h, fun _ => hs.quiet (by rw [hpc]; rfl)⟩
  case create i hpc hi =>
    exact ⟨fun _ => hflags ⟨i, hi⟩ (fun l => { l with pc := .mask }) (by rw [hpc]; rfl) ⟨rfl, rfl⟩,
      fun h => Bool.noConfusion h⟩
  case insert b i hpc hfree =>
    exact ⟨fun _ => hflags i (fun l => l.insert cfg.lib b (recordIn cfg s.heap b)) (by rw [hpc]; rfl)
      ⟨rfl, rfl⟩, fun h => Bool.noConfusion h⟩
  case broadcast i hpc hi hfree =>
    exact ⟨fun _ => hflags ⟨i, hi⟩ Lane.wake (by rw [hpc]; rfl) ⟨rfl, rfl⟩,
      fun h => Bool.noConfusion h⟩
  all_goals
    refine ⟨fun _ => hs.whole ?_, fun h => Bool.noConfusion h⟩
    simp [MainPc.leaving, *]

theorem Move.tearDown {cfg : Config} {s s' : State N} {a : Action N} (hr : Reachable cfg s)
    (hs : TearDown s) (hok : s.failsQuietly a = true) (h : Move cfg s a s') : TearDown s' := by
  cases h with
  | main c s' hm => exact hm.tearDown hr hs hok
  | worker i c l fr hw =>
    constructor
    · intro hm
      refine onLane_forall (P := fun _ l => l.queueDestroyed = false ∧ l.logsFileClosed = false) s i
        (fun _ => l) ?_ fun j _ => hs.whole hm j
      rw [hw.flags.1, hw.flags.2]
      exact hs.whole hm i
    · -- a worker that moves is running
      intro hm
      have hrun := hw.running.1
      rw [hs.quiet hm i] at hrun
      cases hrun
  | wake i hw =>
    constructor
    · intro hm
      exact onLane_forall (P := fun _ l => l.queueDestroyed = false ∧ l.logsFileClosed = false) s i
        Lane.wake (hs.whole hm i) fun j _ => hs.whole hm j
    · intro hm
      have hrun := hs.quiet hm i
      rw [hw] at hrun
      cases hrun
  | arrive d => exact ⟨hs.whole, hs.quiet⟩
  | signal sig t ht =>
    have hm : (s.signalHandler t).main.leaving = s.main.leaving := by
      show (if t = .main then s.main.interrupt else s.main).leaving = s.main.leaving
      split
      · cases s.main <;> rfl
      · rfl
    exact ⟨fun h => hs.whole (hm.symm.trans h), fun h => hs.quiet (hm.symm.trans h)⟩

/-! ## every run -/

/-- **Nothing in use is torn down in the runs whose thread calls fail only while no worker is
running.** -/
theorem tearDown_safe {cfg : Config} {s : State N} {as : List (Action N)}
    (hrun : Runs.exec (step cfg) (init N) as = some s)
    (hok : Runs.Meets (step cfg) (fun s a => s.failsQuietly a = true) (init N) as) (i : Fin N) :
    ¬ s.inUse i := by
  have hboth : Reachable cfg s ∧ TearDown s := by
    refine Runs.exec_invariant_of (I := fun s => Reachable cfg s ∧ TearDown s) ?_ hrun hok
      ⟨⟨[], rfl⟩, fun _ _ => ⟨rfl, rfl⟩, fun h => Bool.noConfusion h⟩
    rintro s a s' ⟨hr, hs⟩ hok hstep
    exact ⟨hr.after hstep, (step_move hstep).tearDown hr hs hok⟩
  exact hboth.2.not_inUse i

/-- in the run of one message main joins the worker, and then destroys its queue -/
theorem tearDown_safe_oneMessage :
    (afterTearDown.lanes 0).queueDestroyed = true ∧ ¬ afterTearDown.inUse 0 :=
  ⟨by decide, tearDown_safe (Option.some_get _).symm (by decide) 0⟩

/-- of two workers the second cannot be created: main destroys the queue of the first one -/
theorem torn_while_running : ∃ (as : List (Action 2)) (s : State 2),
    Runs.exec (step oneSensor) (init 2) as = some s ∧ s.main.isExited = false ∧ s.inUse 0 :=
  ⟨[.main .proceed, .main .fail, .main .proceed, .main .proceed, .main .proceed], _, rfl, rfl,
    by decide⟩

/-! ## the other failures -/

/-- the releases of a way out are carried out whatever the workers do -/
theorem cleanUp_destroys (cfg : Config) (i : Fin N) (path : ExitPath) (ops : List (CleanUp N)) :
    ∀ s : State N, s.main = .cleanUp path ops → .destroyQueue i ∈ ops →
      ∃ n u, Runs.exec (step cfg) s (List.replicate n (.main .proceed)) = some u ∧
        (u.lanes i).queueDestroyed = true ∧ (u.lanes i).pc = (s.lanes i).pc := by
  induction ops with
  | nil => exact fun s _ hmem => absurd hmem List.not_mem_nil
  | cons op ops ih =>
    intro s hpc hmem
    have hstep : step cfg s (.main .proceed) =
        some { s.release op with main := .cleanUp path ops } := by
      simp [step, mainStep, hpc, MainPc.isExited]
    by_cases hop : op = .destroyQueue i
    · refine ⟨1, _, Runs.exec_single hstep, ?_⟩
      subst hop
      show ((s.onLane i Lane.destroyQueue).lanes i).queueDestroyed = true ∧
        ((s.onLane i Lane.destroyQueue).lanes i).pc = _
      rw [onLane_self]
      exact ⟨rfl, rfl⟩
    · have hmem' : .destroyQueue i ∈ ops := by
        rcases List.mem_cons.mp hmem with h | h
        · exact absurd h.symm hop
        · exact h
      obtain ⟨n, u, hrun, hd, hpcu⟩ := ih { s.release op with main := .cleanUp path ops } rfl hmem'
      refine ⟨n + 1, u, Runs.exec_cons_some.mpr ⟨_, hstep, hrun⟩, hd, ?_⟩
      obtain ⟨c, d, hl⟩ := release_lane s op i
      rw [hpcu]
      show ((s.release op).lanes i).pc = _
      rw [hl]

/-- a thread call that fails while a worker is running leads to a queue in use destroyed -/
theorem torn_of_not_failsQuietly {cfg : Config} {s s' : State N} {a : Action N}
    (hbad : s.failsQuietly a = false) (hstep : step cfg s a = some s') :
    ∃ n u i, Runs.exec (step cfg) s' (List.replicate n (.main .proceed)) = some u ∧ u.inUse i := by
  have hall : ∀ (path : ExitPath) (i : Fin N),
      .destroyQueue i ∈ path.releases N cfg.logsFilesFlag := by
    intro path i
    cases path <;> simp [ExitPath.releases, destroyServerQueues]
  have hdestroy : ∀ path, ¬ s.quiet → s'.lanes = s.lanes →
      s'.main = .cleanUp path (path.releases N cfg.logsFilesFlag) → ∃ n u i,
        Runs.exec (step cfg) s' (List.replicate n (.main .proceed)) = some u ∧ u.inUse i := by
    intro path hnot hl hpc
    obtain ⟨i, hi⟩ := not_forall.mp hnot
    obtain ⟨n, u, hrun, hd, hpcu⟩ := cleanUp_destroys cfg i path _ s' hpc (hall path i)
    refine ⟨n, u, i, hrun, ?_, Or.inl hd⟩
    rw [hpcu, hl]
    simpa using hi
  cases step_move hstep with
  | main c s' hm =>
    cases hm
    case createFails i hpc hi =>
      have hnot : ¬ s.quiet := by simpa [State.failsQuietly, hpc] using hbad
      exact hdestroy (.createFailure i) hnot rfl rfl
    case joinFails i hpc hi =>
      have hnot : ¬ s.quiet := by simpa [State.failsQuietly, hpc] using hbad
      exact hdestroy (.joinFailure i) hnot rfl rfl
    all_goals simp_all [State.failsQuietly]
  | _ => cases hbad

end Server
end SensorSimulator
