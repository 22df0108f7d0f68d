import SensorSimulator.Lib.Stations
import SensorSimulator.Server.Logged
import SensorSimulator.Server.Refine

/-!
# The server as a row of stations

What the process is for, said without threads, queues, blocks or locks: for each sensor it accepts
records, and settles them in order, counted or not (`Lib.Stations`).

* `Ledger`, `Lane.ledger`   what a lane shows of itself: a record is settled when its log call has
                            come back, or, with logging off, when the worker lets go of the mutex;
* `Action.label`            the steps that change it, and what they are for the stations;
* `stationsSimulation`      every run of the process is a run of the stations;
* `refines_stations`          that, and what the stations accept;
* `summed_of_logResults`      with logging on, which records are counted.
-/

namespace SensorSimulator
namespace Server
open Stations

variable {N : Nat}

/-! ## what a lane shows -/

namespace WorkerPc

/-- the block in hand whose record is not settled -/
def unsettled : WorkerPc → Option Addr
  | unlock b => b
  | log b => some b
  | _ => none

/-- the block in hand whose record is settled -/
def settled : WorkerPc → Option Addr
  | count b | free b => some b
  | _ => none

@[simp] theorem unsettled_woken (pc : WorkerPc) : pc.woken.unsettled = pc.unsettled := by
  cases pc <;> rfl

@[simp] theorem settled_woken (pc : WorkerPc) : pc.woken.settled = pc.settled := by
  cases pc <;> rfl

end WorkerPc

structure Ledger where
  waiting : List ProtoSensorData
  settled : List ProtoSensorData
  counted : List UInt32
  finished : Bool

/-- a record that is settled and about to be counted is shown as counted -/
def Lane.ledger (cfg : Config) (heap : Addr → PackedData) (l : Lane) : Ledger where
  waiting := l.pc.unsettled.toList.map (recordIn cfg heap) ++ l.queue.map (recordIn cfg heap)
  settled := l.finished ++ l.pc.settled.toList.map (recordIn cfg heap)
  counted := l.summed ++ l.pc.toCount.toList.map fun b => (recordIn cfg heap b).data
  finished := l.pc.left

/-- a station with these books -/
structure Ledger.Shows (g : Ledger) (st : Station ProtoSensorData) : Prop where
  waiting : st.waiting = g.waiting
  settled : st.settled.map Prod.fst = g.settled
  counted : (st.settled.filter Prod.snd).map (fun p => p.1.data) = g.counted
  finished : st.finished = g.finished

structure Abstracts (cfg : Config) (s : State N) (t : Row (Fin N) ProtoSensorData) : Prop where
  closed : t.closed = s.done
  lanes : ∀ i, ((s.lanes i).ledger cfg s.heap).Shows (t.station i)

/-! ## the steps that count -/

/-- what a step of worker `i` is for its station -/
def Lane.label (cfg : Config) (done : Bool) (i : Fin N) (l : Lane) (c : WorkerChoice) :
    List (Act (Fin N) ProtoSensorData) :=
  match l.pc, c with
  | .readDone n, _ => if done && n == 0 then [.finish i] else []
  | .unlock (some _), _ => if cfg.logsFilesFlag then [] else [.settle i true]
  | .log _, .log out => [.settle i out.clock.text.isSome]
  | _, _ => []

/-- a step that is not the settling of a record or the way out of the loop does not show -/
theorem Lane.label_eq_nil {cfg : Config} {done : Bool} {i : Fin N} {l : Lane} {c : WorkerChoice}
    (hlog : ∀ b, l.pc ≠ .log b) (hexit : l.pc = .readDone 0 → done = false)
    (hunlock : ∀ b, l.pc = .unlock (some b) → cfg.logsFilesFlag = true) :
    l.label cfg done i c = [] := by
  unfold Lane.label
  cases hpc : l.pc with
  | readDone n =>
    refine if_neg fun hn => ?_
    obtain ⟨hd, hn⟩ := Bool.and_eq_true_iff.mp hn
    rw [eq_of_beq hn] at hpc
    exact Bool.noConfusion ((hexit hpc).symm.trans hd)
  | unlock b =>
    cases b with
    | none => rfl
    | some b => exact if_pos (hunlock b hpc)
  | log b => exact absurd hpc (hlog b)
  | _ => rfl

/-- what a step of the process is for the stations -/
def Action.label (cfg : Config) (s : State N) : Action N → List (Act (Fin N) ProtoSensorData)
  | .main .proceed =>
    match s.main with
    | .insert b i => [.accept i (recordIn cfg s.heap b)]
    | .storeDone => [.close]
    | _ => []
  | .worker i c => (s.lanes i).label cfg s.done i c
  | _ => []

/-! ## one step -/

theorem Lane.ledger_congr {cfg : Config} {heap heap' : Addr → PackedData} {l : Lane}
    (h : ∀ b ∈ l.blocks, heap' b = heap b) : l.ledger cfg heap' = l.ledger cfg heap := by
  have hrec : ∀ b ∈ l.blocks, recordIn cfg heap' b = recordIn cfg heap b := by
    intro b hb
    unfold recordIn
    rw [h b hb]
  have hqueue : l.queue.map (recordIn cfg heap') = l.queue.map (recordIn cfg heap) :=
    List.map_congr_left fun b hb => hrec b (List.mem_append_left _ hb)
  have hhand : ∀ b, l.pc.held = some b → recordIn cfg heap' b = recordIn cfg heap b :=
    fun b hb => hrec b (List.mem_append_right _ (by rw [hb]; exact List.mem_singleton_self b))
  unfold Lane.ledger
  rw [hqueue]
  cases hpc : l.pc with
  | unlock c =>
    cases c with
    | none => rfl
    | some b => simp [WorkerPc.unsettled, WorkerPc.settled, WorkerPc.toCount,
        hhand b (by rw [hpc]; rfl)]
  | log b => simp [WorkerPc.unsettled, WorkerPc.settled, WorkerPc.toCount,
      hhand b (by rw [hpc]; rfl)]
  | count b => simp [WorkerPc.unsettled, WorkerPc.settled, WorkerPc.toCount,
      hhand b (by rw [hpc]; rfl)]
  | free b => simp [WorkerPc.unsettled, WorkerPc.settled, WorkerPc.toCount,
      hhand b (by rw [hpc]; rfl)]
  | _ => rfl

@[simp] theorem ledger_wake (cfg : Config) (heap : Addr → PackedData) (l : Lane) :
    l.wake.ledger cfg heap = l.ledger cfg heap := by
  simp [Lane.ledger, Lane.wake]

/-- the steps of a worker that do not show -/
theorem WorkerMove.ledger {cfg : Config} {done : Bool} {heap : Addr → PackedData} {id : UInt32}
    {l l' : Lane} {fr : List Addr} (h : WorkerMove cfg done heap id l l' fr)
    (hlog : ∀ b, l.pc ≠ .log b) (hexit : l.pc = .readDone 0 → done = false)
    (hunlock : ∀ b, l.pc = .unlock (some b) → cfg.logsFilesFlag = true) :
    l'.ledger cfg heap = l.ledger cfg heap := by
  unfold Lane.ledger
  cases h
  case exit hpc hd => exact Bool.noConfusion ((hexit hpc).symm.trans hd)
  case take b q hpc hq hm =>
    rw [hpc, hq]
    rfl
  case unlock b hpc =>
    rw [hpc, hunlock b hpc]
    rfl
  case logged b out file hpc hl => exact absurd hpc (hlog b)
  case logFails b out hpc hl => exact absurd hpc (hlog b)
  case count b hpc =>
    rw [hpc]
    simp [WorkerPc.unsettled, WorkerPc.settled, WorkerPc.toCount, WorkerPc.left]
  case free b hpc =>
    rw [hpc]
    simp [WorkerPc.unsettled, WorkerPc.settled, WorkerPc.toCount, WorkerPc.left]
  all_goals simp [WorkerPc.unsettled, WorkerPc.settled, WorkerPc.toCount, WorkerPc.left, *]

/-- one record is settled: the first that waits -/
theorem Ledger.Shows.settle {g g' : Ledger} {t : Row (Fin N) ProtoSensorData} {i : Fin N}
    {r : ProtoSensorData} {counted : Bool} (hs : g.Shows (t.station i))
    (hwaiting : g.waiting = r :: g'.waiting) (hsettled : g'.settled = g.settled ++ [r])
    (hcounted : g'.counted = g.counted ++ if counted then [r.data] else [])
    (hfinished : g'.finished = g.finished) :
    ∃ t', Runs.exec Stations.step t [.settle i counted] = some t' ∧ t'.closed = t.closed ∧
      g'.Shows (t'.station i) ∧ ∀ j, j ≠ i → t'.station j = t.station j := by
  let st : Station ProtoSensorData :=
    { t.station i with waiting := g'.waiting
                       settled := (t.station i).settled ++ [(r, counted)] }
  have hstep : Stations.step t (.settle i counted) = some (t.set i st) := by
    simp only [Stations.step, hs.waiting, hwaiting]
    rfl
  refine ⟨t.set i st, Runs.exec_single hstep, rfl, ?_, fun j hj => set_station_of_ne t st hj⟩
  rw [set_station]
  constructor
  · rfl
  · rw [hsettled, ← hs.settled]
    exact List.map_append
  · rw [hcounted, ← hs.counted]
    show (((t.station i).settled ++ [(r, counted)]).filter Prod.snd).map _ = _
    rw [List.filter_append, List.map_append]
    cases counted <;> rfl
  · exact hs.finished.trans hfinished.symm

/-- the station finishes: nothing waits there any more -/
theorem Ledger.Shows.finish {g g' : Ledger} {t : Row (Fin N) ProtoSensorData} {i : Fin N}
    (hs : g.Shows (t.station i)) (hclosed : t.closed = true) (hnone : g.waiting = [])
    (hg : g' = { g with finished := true }) :
    ∃ t', Runs.exec Stations.step t [.finish i] = some t' ∧ t'.closed = t.closed ∧
      g'.Shows (t'.station i) ∧ ∀ j, j ≠ i → t'.station j = t.station j := by
  have hstep : Stations.step t (.finish i) =
      some (t.set i { t.station i with finished := true }) := by
    simp [Stations.step, hclosed, hs.waiting, hnone]
  refine ⟨_, Runs.exec_single hstep, rfl, ?_, fun j hj => set_station_of_ne t _ hj⟩
  rw [set_station, hg]
  exact ⟨hs.waiting, hs.settled, hs.counted, rfl⟩

/-- what a worker does: nothing that shows, or one action of its station -/
theorem handleClient_shows {cfg : Config} {done : Bool} {heap : Addr → PackedData} {id : UInt32}
    {i : Fin N} {l l' : Lane} (hlib : cfg.lib.CountsElements l.queue.length) {c : WorkerChoice}
    {fr : List Addr} (h : handleClient cfg done heap id l c = some (l', fr))
    (hread : ∀ n, l.pc = .readDone n → n = cfg.lib.numberOfElements l.queue)
    {t : Row (Fin N) ProtoSensorData} (hclosed : t.closed = done)
    (hs : (l.ledger cfg heap).Shows (t.station i)) :
    ∃ t', Runs.exec Stations.step t (l.label cfg done i c) = some t' ∧ t'.closed = t.closed ∧
      (l'.ledger cfg heap).Shows (t'.station i) ∧ ∀ j, j ≠ i → t'.station j = t.station j := by
  have hw := handleClient_move h
  by_cases hlog : ∃ b, l.pc = .log b
  · obtain ⟨b, hpc⟩ := hlog
    obtain ⟨out, rfl, hcall⟩ := handleClient_logCall hpc h
    have hlabel : l.label cfg done i (.log out) = [.settle i out.clock.text.isSome] := by
      unfold Lane.label
      rw [hpc]
    rw [hlabel]
    refine hs.settle (r := recordIn cfg heap b) ?_ ?_ ?_ ?_
    all_goals
      rcases hcall with ⟨line, -, -, -, htext, rfl⟩ | ⟨htext, rfl⟩
      all_goals simp [Lane.ledger, WorkerPc.unsettled, WorkerPc.settled, WorkerPc.toCount,
        WorkerPc.left, hpc, htext]
  by_cases hunlock : ∃ b, l.pc = .unlock (some b) ∧ cfg.logsFilesFlag = false
  · obtain ⟨b, hpc, hoff⟩ := hunlock
    have hlabel : l.label cfg done i c = [.settle i true] := by
      unfold Lane.label
      rw [hpc, hoff]
      rfl
    have hl : l' = { l with pc := .count b } := by
      cases hw
      case unlock b' hpc' =>
        cases hpc.symm.trans hpc'
        rw [hoff]
        rfl
      case unlockNull hpc' => cases hpc.symm.trans hpc'
      all_goals exact WorkerPc.noConfusion (hpc.symm.trans ‹_›)
    rw [hlabel, hl]
    refine hs.settle (r := recordIn cfg heap b) ?_ ?_ ?_ ?_
    all_goals simp [Lane.ledger, WorkerPc.unsettled, WorkerPc.settled, WorkerPc.toCount,
      WorkerPc.left, hpc]
  by_cases hexit : l.pc = .readDone 0 ∧ done = true
  · obtain ⟨hpc, hd⟩ := hexit
    have hlabel : l.label cfg done i c = [.finish i] := by
      unfold Lane.label
      rw [hpc, hd]
      rfl
    have hl : l' = { l with pc := .leave } := by
      cases hw
      case goOn n hpc' hn =>
        cases hpc.symm.trans hpc'
        exact absurd rfl (hn hd)
      case exit => rfl
      all_goals exact WorkerPc.noConfusion (hpc.symm.trans ‹_›)
    have hqueue : l.queue = [] := (hlib _ (Nat.le_refl _)).mp (hread 0 hpc).symm
    rw [hlabel, hl]
    refine hs.finish (hclosed.trans hd) ?_ ?_
    all_goals simp [Lane.ledger, WorkerPc.unsettled, WorkerPc.settled, WorkerPc.toCount,
      WorkerPc.left, hpc, hqueue]
  -- nothing that shows
  have hon : ∀ b, l.pc = .unlock (some b) → cfg.logsFilesFlag = true := by
    intro b hpc
    cases hf : cfg.logsFilesFlag with
    | true => rfl
    | false => exact absurd ⟨b, hpc, hf⟩ hunlock
  have hstay : l.pc = .readDone 0 → done = false := by
    intro hpc
    cases hd : done with
    | false => rfl
    | true => exact absurd ⟨hpc, hd⟩ hexit
  have hsilent : ∀ b, l.pc ≠ .log b := fun b hpc => hlog ⟨b, hpc⟩
  rw [Lane.label_eq_nil hsilent hstay hon, hw.ledger hsilent hstay hon]
  exact ⟨t, rfl, rfl, hs, fun j _ => rfl⟩

/-- main's steps that do not show -/
theorem MainMove.ledger {cfg : Config} {s s' : State N} {c : MainChoice} (hr : Reachable cfg s)
    (h : MainMove cfg s c s') (hinsert : ∀ b i, s.main ≠ .insert b i) (i : Fin N)
    (heap : Addr → PackedData) :
    (s'.lanes i).ledger cfg heap = (s.lanes i).ledger cfg heap := by
  cases h
  case create k hpc hk =>
    have hnew : (s.lanes ⟨k, hk⟩).pc = .notCreated := by
      rw [(hr.lane ⟨k, hk⟩).notCreated_iff, State.view, hpc]
      exact blt_self k
    refine onLane_forall (P := fun j l => l.ledger cfg heap = (s.lanes j).ledger cfg heap) s
      ⟨k, hk⟩ (fun l => { l with pc := .mask }) ?_ (fun j _ => rfl) i
    unfold Lane.ledger
    rw [hnew]
    rfl
  case insert b k hpc hfree => exact absurd hpc (hinsert b k)
  case broadcast k hpc hk hfree =>
    exact onLane_forall (P := fun j l => l.ledger cfg heap = (s.lanes j).ledger cfg heap) s
      ⟨k, hk⟩ Lane.wake (ledger_wake cfg heap _) (fun j _ => rfl) i
  case release path op ops hpc =>
    obtain ⟨c, d, hl⟩ := release_lane s op i
    show ((s.release op).lanes i).ledger cfg heap = _
    rw [hl]
    rfl
  all_goals rfl

theorem ledger_insert (cfg : Config) (heap : Addr → PackedData) (l : Lane) (b : Addr) :
    (l.insert cfg.lib b (recordIn cfg heap b)).ledger cfg heap =
      { l.ledger cfg heap with
        waiting := (l.ledger cfg heap).waiting ++ [recordIn cfg heap b] } := by
  simp [Lane.ledger, Lane.insert_eq]

theorem MainMove.done {cfg : Config} {s s' : State N} {c : MainChoice} (h : MainMove cfg s c s')
    (hstore : s.main ≠ .storeDone) : s'.done = s.done := by
  cases h
  case storeDone hpc => exact absurd hpc hstore
  case release path op ops hpc => cases op <;> rfl
  all_goals rfl

theorem MainMove.abstracts {cfg : Config} {s s' : State N} {c : MainChoice}
    {t : Row (Fin N) ProtoSensorData} (hr : Reachable cfg s) (hs : Abstracts cfg s t)
    (h : MainMove cfg s c s') :
    ∃ t', Runs.exec Stations.step t ((Action.main c).label cfg s) = some t' ∧
      t'.closed = s'.done ∧ ∀ i, ((s'.lanes i).ledger cfg s.heap).Shows (t'.station i) := by
  by_cases hinsert : ∃ b i, s.main = .insert b i
  · obtain ⟨b, i, hpc⟩ := hinsert
    cases h
    case insert b' i' hpc' hfree =>
      cases hpc.symm.trans hpc'
      have hopen : t.closed = false := by
        rw [hs.closed, done_eq_stored hr, hpc]
        rfl
      let st : Station ProtoSensorData :=
        { t.station i with waiting := (t.station i).waiting ++ [recordIn cfg s.heap b] }
      have hstep : Runs.exec Stations.step t ((Action.main .proceed).label cfg s) =
          some (t.set i st) := by
        unfold Action.label
        rw [hpc]
        apply Runs.exec_single
        simp only [Stations.step, hopen]
        rfl
      refine ⟨t.set i st, hstep, hs.closed, ?_⟩
      refine onLane_forall (P := fun j l => (l.ledger cfg s.heap).Shows ((t.set i st).station j))
        s i (fun l => l.insert cfg.lib b (recordIn cfg s.heap b)) ?_ fun j hj => ?_
      · rw [set_station, ledger_insert]
        obtain ⟨hwaiting, hsettled, hcounted, hfinished⟩ := hs.lanes i
        exact ⟨congrArg (· ++ [_]) hwaiting, hsettled, hcounted, hfinished⟩
      · rw [set_station_of_ne t st hj]
        exact hs.lanes j
    all_goals cases hpc.symm.trans ‹_›
  have hlanes : ∀ i, ((s'.lanes i).ledger cfg s.heap).Shows (t.station i) := by
    intro i
    rw [h.ledger hr (fun b i hpc => hinsert ⟨b, i, hpc⟩) i s.heap]
    exact hs.lanes i
  by_cases hstore : s.main = .storeDone
  · cases h
    case storeDone hpc =>
      have hopen : t.closed = false := by
        rw [hs.closed, done_eq_stored hr, hpc]
        rfl
      refine ⟨{ t with closed := true }, ?_, rfl, hlanes⟩
      unfold Action.label
      rw [hpc]
      apply Runs.exec_single
      simp only [Stations.step, hopen]
      rfl
    all_goals cases hstore.symm.trans ‹_›
  have hlabel : (Action.main c).label cfg s = [] := by
    unfold Action.label
    cases c with
    | proceed =>
      cases hpc : s.main with
      | insert b i => exact absurd ⟨b, i, hpc⟩ hinsert
      | storeDone => exact absurd hpc hstore
      | _ => rfl
    | _ => rfl
  rw [hlabel]
  exact ⟨t, rfl, hs.closed.trans (h.done hstore).symm, hlanes⟩

/-- what main writes is in no lane yet -/
theorem MainMove.ledger_heap {cfg : Config} {s s' : State N} {c : MainChoice}
    (hr : Reachable cfg s) (h : MainMove cfg s c s') (i : Fin N) :
    (s'.lanes i).ledger cfg s'.heap = (s'.lanes i).ledger cfg s.heap := by
  have hkept := hr.record_kept (.main c s' h) i
  cases h
  case allocate hpc => exact Lane.ledger_congr hkept
  case deserialize b hpc => exact Lane.ledger_congr hkept
  case release path op ops hpc => cases op <;> rfl
  all_goals rfl

theorem step_abstracts {cfg : Config} {s s' : State N} {a : Action N}
    {t : Row (Fin N) ProtoSensorData} (hr : Reachable cfg s) (hlib : s.CountsElements cfg.lib)
    (hs : Abstracts cfg s t) (h : step cfg s a = some s') :
    ∃ t', Runs.exec Stations.step t (a.label cfg s) = some t' ∧ Abstracts cfg s' t' := by
  have hm := step_move h
  cases a with
  | main c =>
    cases hm with
    | main _ _ hmain =>
      obtain ⟨t', hrun, hclosed, hlanes⟩ := hmain.abstracts hr hs
      refine ⟨t', hrun, hclosed, fun i => ?_⟩
      rw [hmain.ledger_heap hr i]
      exact hlanes i
  | worker i c =>
    unfold step at h
    split at h
    · cases h
    · obtain ⟨⟨l, fr⟩, hc, rfl⟩ := Option.map_eq_some_iff.mp h
      obtain ⟨t', hrun, hclosed, hi, hj⟩ := handleClient_shows
        ((hlib i).mono (hr.lane i).queue_le) hc (fun n hpc => (hr.lane i).size_read n hpc) hs.closed
        (hs.lanes i)
      refine ⟨t', hrun, hclosed.trans hs.closed, ?_⟩
      refine onLane_forall (P := fun j l => (l.ledger cfg s.heap).Shows (t'.station j)) s i
        (fun _ => l) hi fun j hne => ?_
      rw [hj j hne]
      exact hs.lanes j
  | wake i =>
    cases hm with
    | wake _ hpc =>
      refine ⟨t, rfl, hs.closed, onLane_forall
        (P := fun j l => (l.ledger cfg s.heap).Shows (t.station j)) s i Lane.wake ?_
        fun j _ => hs.lanes j⟩
      rw [ledger_wake]
      exact hs.lanes i
  | arrive d =>
    cases hm
    exact ⟨t, rfl, hs.closed, hs.lanes⟩
  | signal sig u =>
    cases hm with
    | signal _ _ hu => exact ⟨t, rfl, hs.closed, hs.lanes⟩

/-! ## every run -/

/-- the process as a row of stations, for as many records as the library can count -/
def stationsSimulation (N : Nat) (cfg : Config) :
    Runs.Simulation (step (N := N) cfg)
      (Stations.step : Row (Fin N) ProtoSensorData → Act (Fin N) ProtoSensorData → _) where
  inv := Reachable cfg
  within s := s.CountsElements cfg.lib
  rel := Abstracts cfg
  label s a := a.label cfg s
  inv_step _ _ _ hr h := hr.after h
  within_step _ _ _ hr h hlib i := (hlib i).mono (hr.inserted_le h i)
  rel_step _ _ _ _ hr hlib hs h := step_abstracts hr hlib hs h

/-- what a run of the process is for the stations -/
def behaviour (cfg : Config) (as : List (Action N)) : List (Act (Fin N) ProtoSensorData) :=
  Runs.labels (step cfg) (fun s a => a.label cfg s) (init N) as

theorem init_abstracts (cfg : Config) : Abstracts cfg (init N) Stations.init :=
  ⟨rfl, fun _ => ⟨rfl, rfl, rfl, rfl⟩⟩

/-- the log calls of worker `i` in a run: whether they got the time -/
def logResult (i : Fin N) : Action N → Option Bool
  | .worker j (.log out) => if j = i then some out.clock.text.isSome else none
  | _ => none

theorem verdicts_label {cfg : Config} (hon : cfg.logsFilesFlag = true) (i : Fin N)
    {s s' : State N} {a : Action N} (h : step cfg s a = some s') :
    (a.label cfg s).filterMap (verdictAt i) = (logResult i a).toList := by
  cases a with
  | main c =>
    cases c with
    | proceed =>
      unfold Action.label
      cases s.main <;> rfl
    | _ => rfl
  | worker j c =>
    unfold step at h
    split at h
    · cases h
    obtain ⟨⟨l, fr⟩, hc, -⟩ := Option.map_eq_some_iff.mp h
    show ((s.lanes j).label cfg s.done j c).filterMap (verdictAt i) = _
    by_cases hlog : ∃ b, (s.lanes j).pc = .log b
    · obtain ⟨b, hpc⟩ := hlog
      obtain ⟨out, rfl, -⟩ := handleClient_logCall hpc hc
      unfold Lane.label
      rw [hpc]
      exact Lists.filterMap_singleton _ _
    · have hnone : logResult i (.worker j c) = none := by
        cases c with
        | log out => exact absurd (handleClient_log_pc hc) hlog
        | _ => rfl
      rw [hnone]
      unfold Lane.label
      cases hpc : (s.lanes j).pc with
      | readDone n =>
        dsimp only
        split_ifs <;> rfl
      | unlock b =>
        cases b with
        | none => rfl
        | some b => exact congrArg _ (if_pos hon)
      | log b => exact absurd ⟨b, hpc⟩ hlog
      | _ => rfl
  | _ => rfl

theorem verdicts_of_logs {cfg : Config} (hon : cfg.logsFilesFlag = true) (i : Fin N)
    {s : State N} {as : List (Action N)} (h : Runs.exec (step cfg) (init N) as = some s) :
    (behaviour cfg as).filterMap (verdictAt i) = as.filterMap (logResult i) := by
  unfold behaviour
  exact Runs.labels_filterMap (J := fun _ => True) (g := logResult i) (fun _ _ _ _ _ => trivial)
    (fun s a s' _ hstep => verdicts_label hon i hstep) h trivial

/-- what is settled and what waits is all that has been inserted -/
theorem Lane.Fifo.ledger {cfg : Config} {heap : Addr → PackedData} {l : Lane}
    (h : l.Fifo cfg heap) :
    (l.ledger cfg heap).settled ++ (l.ledger cfg heap).waiting = l.inserted := by
  have hheld : l.pc.settled.toList.map (recordIn cfg heap) ++
      l.pc.unsettled.toList.map (recordIn cfg heap) =
        l.pc.held.toList.map (recordIn cfg heap) := by
    cases l.pc <;> rfl
  rw [h, Lane.pending, ← hheld]
  simp [Lane.ledger]

theorem behaviour_abstracts {cfg : Config} {s : State N} {as : List (Action N)}
    (h : Runs.exec (step cfg) (init N) as = some s) (hlib : s.CountsElements cfg.lib) :
    ∃ t, Runs.exec Stations.step Stations.init (behaviour cfg as) = some t ∧
      Abstracts cfg s t ∧
      ∀ i, (behaviour cfg as).filterMap (acceptedAt i) = s.history.filterMap (accepted N i) := by
  obtain ⟨t, hrun, habs⟩ := (stationsSimulation N cfg).exec h ⟨[], rfl⟩ hlib (init_abstracts cfg)
  refine ⟨t, hrun, habs, fun i => ?_⟩
  have hr : Reachable cfg s := ⟨as, h⟩
  have hrecords := (exec_books hrun i).records
  rw [(habs.lanes i).settled, (habs.lanes i).waiting, Lane.Fifo.ledger (hr.fifo i),
    hr.inserted_eq i] at hrecords
  exact hrecords.symm

theorem counted_of_verdicts {cfg : Config} {s : State N} {as : List (Action N)}
    (h : Runs.exec (step cfg) (init N) as = some s) (hlib : s.CountsElements cfg.lib) (i : Fin N) :
    ((s.lanes i).ledger cfg s.heap).counted =
        (((s.history.filterMap (accepted N i)).zip
          ((behaviour cfg as).filterMap (verdictAt i))).filter Prod.snd).map (fun p => p.1.data) ∧
    ((s.lanes i).pc.left = true →
      ((behaviour cfg as).filterMap (verdictAt i)).length =
        (s.history.filterMap (accepted N i)).length) := by
  obtain ⟨t, hrun, habs, hacc⟩ := behaviour_abstracts h hlib
  have hbooks := exec_books hrun i
  constructor
  · rw [← (habs.lanes i).counted, hbooks.settled_eq, hacc i]
  · intro hleft
    have hnone := (hbooks.finished ((habs.lanes i).finished.trans hleft)).2
    have hrecords := congrArg List.length hbooks.records
    rw [hnone, List.append_nil, List.length_map, hacc i] at hrecords
    rw [← hbooks.verdicts, List.length_map, hrecords]

/-- the words counted are those of some of the records settled -/
def Ledger.CountsSettled (g : Ledger) : Prop := g.counted.Sublist (g.settled.map (·.data))

theorem Ledger.CountsSettled.settle {g g' : Ledger} (hg : g.CountsSettled) (r : ProtoSensorData)
    (counted : Bool) (hsettled : g'.settled = g.settled ++ [r])
    (hcounted : g'.counted = g.counted ++ if counted then [r.data] else []) :
    g'.CountsSettled := by
  unfold Ledger.CountsSettled at *
  rw [hsettled, hcounted, List.map_append]
  refine hg.append ?_
  cases counted with
  | true => exact List.Sublist.refl _
  | false => exact List.nil_sublist _

theorem WorkerMove.countsSettled {cfg : Config} {done : Bool} {heap : Addr → PackedData}
    {id : UInt32} {l l' : Lane} {fr : List Addr} (h : WorkerMove cfg done heap id l l' fr)
    (hl : (l.ledger cfg heap).CountsSettled) : (l'.ledger cfg heap).CountsSettled := by
  cases h
  case unlock b hpc =>
    cases hon : cfg.logsFilesFlag with
    | true =>
      simpa [Ledger.CountsSettled, Lane.ledger, WorkerPc.settled, WorkerPc.toCount, hpc] using hl
    | false =>
      refine hl.settle (recordIn cfg heap b) true ?_ ?_
      all_goals simp [Lane.ledger, WorkerPc.settled, WorkerPc.toCount, hpc]
  case logged b out file hpc hcall =>
    refine hl.settle (recordIn cfg heap b) true ?_ ?_
    all_goals simp [Lane.ledger, WorkerPc.settled, WorkerPc.toCount, hpc]
  case logFails b out hpc hcall =>
    refine hl.settle (recordIn cfg heap b) false ?_ ?_
    all_goals simp [Lane.ledger, WorkerPc.settled, WorkerPc.toCount, hpc]
  all_goals
    simpa [Ledger.CountsSettled, Lane.ledger, WorkerPc.settled, WorkerPc.toCount, *] using hl

theorem countsSettled_kept (cfg : Config) :
    KeptByLanes cfg (fun heap l => (l.ledger cfg heap).CountsSettled) where
  start heap := List.nil_sublist _
  congr heap heap' l hl h := by
    rw [Lane.ledger_congr h]
    exact hl
  create heap l hl hpc := by
    unfold Lane.ledger at *
    rw [hpc] at hl
    exact hl
  insert heap l b hl := by
    rw [ledger_insert]
    exact hl
  wake heap l hl := by
    rw [ledger_wake]
    exact hl
  release heap l c d hl := hl
  worker heap l l' done id fr hl hw := hw.countsSettled hl

theorem Reachable.counted_sublist {cfg : Config} {s : State N} (h : Reachable cfg s) (i : Fin N) :
    ((s.lanes i).ledger cfg s.heap).counted.Sublist ((s.lanes i).inserted.map (·.data)) := by
  refine (h.kept (countsSettled_kept cfg) i).trans ?_
  rw [← Lane.Fifo.ledger (h.fifo i)]
  exact (List.sublist_append_left _ _).map _

theorem Reachable.summed_sublist {cfg : Config} {s : State N} (h : Reachable cfg s) (i : Fin N) :
    (s.lanes i).summed.Sublist ((s.lanes i).inserted.map (·.data)) :=
  (List.sublist_append_left _ _).trans (h.counted_sublist i)

/-- **The server is a row of stations.**  Whatever the threads do, in whatever order, and whether
records are logged or not: a run of the process is a run of the stations, which accept the records
that the datagrams call for and settle them in order; what a lane shows are the books of its
station.  The queues are those of a library whose insert appends, and which can count what has been
inserted. -/
theorem refines_stations {cfg : Config} {s : State N} {as : List (Action N)}
    (h : Runs.exec (step cfg) (init N) as = some s) (hlib : s.CountsElements cfg.lib) :
    ∃ t, Runs.exec Stations.step Stations.init (behaviour cfg as) = some t ∧
      Abstracts cfg s t ∧
      ∀ i, (behaviour cfg as).filterMap (acceptedAt i) = s.history.filterMap (accepted N i) :=
  behaviour_abstracts h hlib

/-- the run of one message is: accept, close, settle, finish -/
theorem refines_stations_oneMessage :
    behaviour oneSensor oneMessage =
        [.accept 0 ⟨⟨0, 0, 0⟩, 0⟩, .close, .settle 0 true, .finish 0] ∧
      ∃ t, Runs.exec Stations.step Stations.init (behaviour oneSensor oneMessage) = some t ∧
        Abstracts oneSensor afterOneMessage t := by
  have hrun : Runs.exec (step oneSensor) (init 1) oneMessage = some afterOneMessage :=
    (Option.some_get _).symm
  obtain ⟨t, ht, habs, -⟩ := refines_stations hrun (State.countsElements (by decide))
  exact ⟨by decide, t, ht, habs⟩

theorem State.ledger_counted (cfg : Config) (s : State N) (i : Fin N) :
    ((s.lanes i).ledger cfg s.heap).counted =
      (s.lanes i).summed ++ (s.toCount cfg i).map (·.data) := by
  unfold Lane.ledger State.toCount
  cases (s.lanes i).pc.toCount <;> rfl

theorem State.toCount_left {cfg : Config} {s : State N} {i : Fin N}
    (hleft : (s.lanes i).pc.left = true) : s.toCount cfg i = [] := by
  unfold State.toCount
  cases hpc : (s.lanes i).pc with
  | count b =>
    rw [hpc] at hleft
    cases hleft
  | _ => rfl

/-- **With logging on, what is counted is what the log calls decide.**  The words added to the sum
of a worker, with the one it is about to add, are those of the records accepted for it whose log call
got the time, the n-th call being for the n-th record; when the worker has left its loop, there has
been one call for each record. -/
theorem summed_of_logResults {cfg : Config} (hon : cfg.logsFilesFlag = true) {s : State N}
    {as : List (Action N)} (h : Runs.exec (step cfg) (init N) as = some s)
    (hlib : s.CountsElements cfg.lib) (i : Fin N) :
    (s.lanes i).summed ++ (s.toCount cfg i).map (·.data) =
        (((s.history.filterMap (accepted N i)).zip (as.filterMap (logResult i))).filter
          Prod.snd).map (fun p => p.1.data) ∧
    ((s.lanes i).pc.left = true →
      (as.filterMap (logResult i)).length = (s.history.filterMap (accepted N i)).length ∧
      (s.lanes i).counter = UInt32.ofNat ((as.filterMap (logResult i)).count true)) := by
  have hr : Reachable cfg s := ⟨as, h⟩
  obtain ⟨hcounted, hleft⟩ := counted_of_verdicts h hlib i
  rw [verdicts_of_logs hon i h] at hcounted hleft
  have hsummed := (State.ledger_counted cfg s i).symm.trans hcounted
  refine ⟨hsummed, fun hl => ⟨hleft hl, ?_⟩⟩
  rw [State.toCount_left hl, List.map_nil, List.append_nil] at hsummed
  rw [(hr.counter_sum i).1, hsummed, List.length_map, Lists.length_filter_zip (hleft hl).le]

/-- the disk is full, the call has got the time: the record is counted -/
theorem summed_of_logResults_diskFull :
    (afterDiskFull.lanes 0).pc = .ended ∧ (afterDiskFull.lanes 0).summed = [0] ∧
    (afterDiskFull.lanes 0).counter = UInt32.ofNat
      (((oneMessageLogged diskFull).filterMap (logResult 0)).count true) := by
  have hrun : Runs.exec (step oneSensorLogged) (init 1) (oneMessageLogged diskFull) =
      some afterDiskFull := (Option.some_get _).symm
  exact ⟨by decide, by decide,
    ((summed_of_logResults rfl hrun (State.countsElements (by decide)) 0).2 (by decide)).2⟩

end Server
end SensorSimulator
