import SensorSimulator.Server.Lanes
import SensorSimulator.Lib.Places

/-!
# The blocks that main allocates, and who has them

A block is held by main, in a queue, held by a worker, or freed (`Place`).  `occurrences` counts a
block over all places; a move takes a block from one place to another (`Move.occurrences`), so
every allocated block is counted once and no other block at all.

* `step_reads`, `Move.writes`, `Move.frees`   a step reads, writes, frees and inserts only blocks it
                                              touches (`State.touched`);
* `blocks_owned`                              unique ownership, and no block left at the end.
-/

namespace SensorSimulator
namespace Server

variable {N : Nat}

/-! ## places -/

/-- the block in main's `data`, while main is responsible for it -/
def MainPc.held : MainPc N → List Addr
  | deserialize b | checkType b | checkSensor b | reject b | insert b _ => [b]
  | _ => []

inductive Place (N : Nat) where
  | main
  | freed
  | queue (i : Fin N)
  | worker (i : Fin N)

def State.blocks (s : State N) : Place N → List Addr
  | .main => s.main.held
  | .freed => s.freed
  | .queue i => (s.lanes i).queue
  | .worker i => (s.lanes i).pc.held.toList

def Place.equiv : Bool ⊕ (Fin N ⊕ Fin N) ≃ Place N where
  toFun
    | .inl b => if b then .main else .freed
    | .inr (.inl i) => .queue i
    | .inr (.inr i) => .worker i
  invFun
    | .main => .inl true
    | .freed => .inl false
    | .queue i => .inr (.inl i)
    | .worker i => .inr (.inr i)
  left_inv := by rintro ((_ | _) | i | i) <;> rfl
  right_inv := by rintro (_ | _ | i | i) <;> rfl

instance : Fintype (Place N) := Fintype.ofEquiv _ Place.equiv

theorem sum_places (f : Place N → Nat) :
    ∑ p, f p = f .main + f .freed + ∑ i, (f (.queue i) + f (.worker i)) := by
  rw [← Equiv.sum_comp Place.equiv f, Fintype.sum_sum_type, Fintype.sum_sum_type,
    Fintype.sum_bool, Finset.sum_add_distrib]
  rfl

/-! ## one step -/

def Lane.blocks (l : Lane) : List Addr := l.queue ++ l.pc.held.toList

def State.occurrences (s : State N) (b : Addr) : Nat :=
  s.main.held.count b + s.freed.count b + ∑ i, (s.lanes i).blocks.count b

theorem occurrences_eq_sum (s : State N) (b : Addr) :
    s.occurrences b = ∑ p, (s.blocks p).count b := by
  rw [sum_places]
  simp [State.occurrences, State.blocks, Lane.blocks]

theorem WorkerMove.blocks {cfg : Config} {done : Bool} {heap : Addr → PackedData} {id : UInt32}
    {l l' : Lane} {fr : List Addr} (h : WorkerMove cfg done heap id l l' fr) (b : Addr) :
    l'.blocks.count b + fr.count b = l.blocks.count b := by
  cases h
  case take c q hpc hq hm =>
    simp only [Lane.blocks, hpc, hq, WorkerPc.held, Option.toList_some, Option.toList_none,
      List.count_append, List.count_cons, List.count_nil]
    omega
  case unlock c hpc =>
    show List.count b (l.queue ++ Option.toList (WorkerPc.held _)) + 0 = _
    rw [WorkerPc.held_ite]
    simp [Lane.blocks, hpc, WorkerPc.held]
  all_goals simp [Lane.blocks, WorkerPc.held, *]

theorem onLane_blocks (s : State N) (i : Fin N) (f : Lane → Lane) (b : Addr) :
    (∑ j, ((s.onLane i f).lanes j).blocks.count b) + (s.lanes i).blocks.count b =
      (∑ j, (s.lanes j).blocks.count b) + (f (s.lanes i)).blocks.count b :=
  Places.sum_update (fun l : Lane => l.blocks.count b) s.lanes i (f (s.lanes i))

theorem onLane_blocks_same (s : State N) (i : Fin N) (f : Lane → Lane) (b : Addr)
    (h : (f (s.lanes i)).blocks = (s.lanes i).blocks) :
    (∑ j, ((s.onLane i f).lanes j).blocks.count b) = ∑ j, (s.lanes j).blocks.count b :=
  Places.sum_update_same (fun l : Lane => l.blocks.count b) s.lanes i (f (s.lanes i))
    (congrArg (List.count b) h)

@[simp] theorem wake_blocks (l : Lane) : l.wake.blocks = l.blocks := by
  simp [Lane.wake, Lane.blocks]

theorem insert_blocks (lib : QueueLibrary) (l : Lane) (c : Addr) (r : ProtoSensorData) (b : Addr) :
    (l.insert lib c r).blocks.count b = l.blocks.count b + [c].count b := by
  simp only [Lane.insert_eq, Lane.blocks, WorkerPc.held_woken, List.count_append]
  omega

/-- main's moves take a block from one place to another, but for the allocation -/
theorem MainMove.occurrences {cfg : Config} {s s' : State N} {c : MainChoice}
    (hr : Reachable cfg s) (h : MainMove cfg s c s') (b : Addr) :
    s'.occurrences b = s.occurrences b +
      (if s'.allocated = s.allocated then 0 else if b = s.allocated then 1 else 0) := by
  cases h
  case create i hpc hi =>
    have hnew : (s.lanes ⟨i, hi⟩).pc = .notCreated := by
      rw [(hr.lane ⟨i, hi⟩).notCreated_iff, State.view, hpc]
      exact blt_self i
    have hl := onLane_blocks_same s ⟨i, hi⟩ (fun l => { l with pc := .mask }) b
      (by simp [Lane.blocks, hnew, WorkerPc.held])
    simpa [State.occurrences, hpc, MainPc.held] using hl
  case allocate hpc =>
    have hc : [s.allocated].count b = if b = s.allocated then 1 else 0 := by
      by_cases h : b = s.allocated
      · rw [if_pos h, h]
        exact List.count_singleton_self
      · rw [if_neg h]
        exact List.count_eq_zero.mpr (by simpa using h)
    simp only [State.occurrences, hpc, MainPc.held, hc, List.count_nil]
    rw [if_neg (Nat.succ_ne_self s.allocated)]
    omega
  case reject c hpc =>
    simp only [State.occurrences, State.next, hpc, MainPc.held, List.count_append, List.count_nil]
    simp
    omega
  case insert c i hpc hfree =>
    have hl := onLane_blocks s i (fun l => l.insert cfg.lib c (recordIn cfg s.heap c)) b
    rw [insert_blocks] at hl
    simp only [State.occurrences, State.next, hpc, MainPc.held, List.count_nil, onLane_freed,
      onLane_allocated, if_true]
    omega
  case broadcast i hpc hi hfree =>
    have hl := onLane_blocks_same s ⟨i, hi⟩ Lane.wake b (wake_blocks _)
    simpa [State.occurrences, hpc, MainPc.held] using hl
  case release path op ops hpc =>
    have hl : ∀ j, ((s.release op).lanes j).blocks = (s.lanes j).blocks := fun j => by
      obtain ⟨c, d, hj⟩ := release_lane s op j
      rw [hj]
      rfl
    have hf : (s.release op).freed = s.freed ∧ (s.release op).allocated = s.allocated := by
      cases op <;> exact ⟨rfl, rfl⟩
    simp [State.occurrences, hpc, MainPc.held, hl, hf.1, hf.2]
  all_goals simp [State.occurrences, State.next, MainPc.held, *]

theorem MainPc.held_interrupt (m : MainPc N) : m.interrupt.held = m.held := by
  cases m <;> rfl

theorem Move.occurrences {cfg : Config} {s s' : State N} {a : Action N} (hr : Reachable cfg s)
    (h : Move cfg s a s') (b : Addr) :
    s'.occurrences b = s.occurrences b +
      (if s'.allocated = s.allocated then 0 else if b = s.allocated then 1 else 0) := by
  cases h with
  | main c s' hm => exact hm.occurrences hr b
  | worker i c l fr hw =>
    have hl := onLane_blocks s i (fun _ => l) b
    have hb := hw.blocks b
    simp only [State.occurrences, onLane_main, onLane_allocated, List.count_append, if_true]
    omega
  | wake i hw =>
    have hl := onLane_blocks_same s i Lane.wake b (wake_blocks _)
    simp only [State.occurrences, onLane_main, onLane_freed, onLane_allocated, hl, if_true]
    rfl
  | arrive d => simp [State.occurrences]
  | signal sig t ht =>
    have hheld : (s.signalHandler t).main.held = s.main.held := by
      show (if t = .main then s.main.interrupt else s.main).held = s.main.held
      split
      · exact s.main.held_interrupt
      · rfl
    unfold State.occurrences
    rw [hheld]
    show _ = _ + if s.allocated = s.allocated then 0 else _
    rw [if_pos rfl]
    rfl

theorem Move.allocated {cfg : Config} {s s' : State N} {a : Action N} (h : Move cfg s a s') :
    s'.allocated = s.allocated ∨ s'.allocated = s.allocated + 1 := by
  cases h with
  | main c s' hm =>
    cases hm
    case allocate hpc => exact Or.inr rfl
    case release path op ops hpc => exact Or.inl (by cases op <;> rfl)
    all_goals exact Or.inl rfl
  | _ => exact Or.inl rfl

/-- an allocated block is in one place, once; no other block is anywhere -/
theorem Reachable.occurrences {cfg : Config} {s : State N} (h : Reachable cfg s) (b : Nat) :
    s.occurrences b = if b < s.allocated then 1 else 0 := by
  refine reachable_invariant
    (I := fun s : State N => s.occurrences b = if b < s.allocated then 1 else 0) ?_ ?_ h
  · simp [State.occurrences, init, MainPc.held, Lane.blocks, Lane.start, WorkerPc.held]
  · intro s a s' hr hs hm
    rw [hm.occurrences hr b, hs]
    rcases hm.allocated with ha | ha
    · rw [ha, if_pos rfl, Nat.add_zero]
    · rw [ha, if_neg (Nat.succ_ne_self _)]
      by_cases hb : b = s.allocated
      · rw [if_pos hb, if_neg (by omega), if_pos (by omega)]
      · rw [if_neg hb, Nat.add_zero]
        exact if_congr (by omega) rfl rfl

/-! ## what a step touches -/

/-- the blocks that a step reads, writes, inserts or frees -/
def State.touched (s : State N) : Action N → List Addr
  | .main _ => s.main.held
  | .worker i _ =>
    match (s.lanes i).pc with
    | .log b | .count b | .free b => [b]
    | _ => []
  | _ => []

theorem Move.writes {cfg : Config} {s s' : State N} {a : Action N} (h : Move cfg s a s')
    (b : Addr) (hb : b ∉ s.touched a) (hlt : b < s.allocated) : s'.heap b = s.heap b := by
  cases h with
  | main c s' hm =>
    cases hm
    case allocate hpc => exact Function.update_of_ne (Nat.ne_of_lt hlt) _ _
    case deserialize c hpc =>
      refine Function.update_of_ne ?_ _ _
      rintro rfl
      exact hb (by simp [State.touched, hpc, MainPc.held])
    case release path op ops hpc => cases op <;> rfl
    all_goals rfl
  | _ => rfl

theorem Move.frees {cfg : Config} {s s' : State N} {a : Action N} (h : Move cfg s a s') :
    ∃ fr, s'.freed = s.freed ++ fr ∧ ∀ b ∈ fr, b ∈ s.touched a := by
  have hnil : s.freed = s.freed ++ [] ∧ ∀ b ∈ ([] : List Addr), b ∈ s.touched a :=
    ⟨(List.append_nil _).symm, fun b hb => absurd hb List.not_mem_nil⟩
  cases h with
  | main c s' hm =>
    cases hm
    case reject b hpc => exact ⟨[b], rfl, by simp [State.touched, hpc, MainPc.held]⟩
    case release path op ops hpc => exact ⟨[], by cases op <;> exact hnil.1, hnil.2⟩
    all_goals exact ⟨[], hnil⟩
  | worker i c l fr hw =>
    refine ⟨fr, rfl, ?_⟩
    cases hw
    case free b hpc => simp [State.touched, hpc]
    all_goals exact fun b hb => absurd hb List.not_mem_nil
  | _ => exact ⟨[], hnil⟩

/-- a state without what is in its blocks -/
def State.forgetHeap (s : State N) : State N := { s with heap := fun _ => PackedData.zero }

theorem handleClient_reads (cfg : Config) (done : Bool) (heap heap' : Addr → PackedData)
    (id : UInt32) (l : Lane) (c : WorkerChoice)
    (h : ∀ b, (l.pc = .log b ∨ l.pc = .count b ∨ l.pc = .free b) → heap' b = heap b) :
    handleClient cfg done heap' id l c = handleClient cfg done heap id l c := by
  have hrec : ∀ b, (l.pc = .log b ∨ l.pc = .count b ∨ l.pc = .free b) →
      recordIn cfg heap' b = recordIn cfg heap b := fun b hb => by
    unfold recordIn
    rw [h b hb]
  unfold handleClient
  split
  case h_12 b out hpc => rw [hrec b (Or.inl hpc)]
  case h_13 b hpc => rw [hrec b (Or.inr (Or.inl hpc))]
  case h_14 b hpc => rw [hrec b (Or.inr (Or.inr hpc))]
  all_goals rfl

theorem mainStep_reads (cfg : Config) (s : State N) (c : MainChoice) (heap' : Addr → PackedData)
    (h : ∀ b ∈ s.main.held, heap' b = s.heap b) :
    (mainStep cfg { s with heap := heap' } c).map State.forgetHeap =
      (mainStep cfg s c).map State.forgetHeap := by
  have hread : ∀ b ∈ s.main.held, recordIn cfg heap' b = recordIn cfg s.heap b := fun b hb => by
    unfold recordIn
    rw [h b hb]
  clear h
  obtain ⟨main, done, keepRunning, buffer, socket, heap, allocated, freed, lanes, history,
    current⟩ := s
  change ∀ b ∈ main.held, recordIn cfg heap' b = recordIn cfg heap b at hread
  cases main <;> cases c <;> first | rfl | skip
  -- the positions at which the next one is not fixed
  case create.proceed i => simp only [mainStep]; split <;> rfl
  case create.fail i => simp only [mainStep]; split <;> rfl
  case blocked.proceed e =>
    cases socket with
    | nil => rfl
    | cons d ds =>
      simp only [mainStep, received_datagram, Option.map_some]
      split <;> rfl
  case blocked.eintr e => cases e <;> rfl
  case checkType.proceed b =>
    simp only [mainStep, hread b (List.mem_singleton.mpr rfl)]
    split <;> rfl
  case checkSensor.proceed b =>
    simp only [mainStep, hread b (List.mem_singleton.mpr rfl)]
    split <;> rfl
  case insert.proceed b i =>
    simp only [mainStep, hread b (List.mem_singleton.mpr rfl)]
    split <;> rfl
  case broadcast.proceed i =>
    simp only [mainStep]
    split
    · split <;> rfl
    · rfl
  case join.proceed i =>
    simp only [mainStep]
    split
    · split <;> rfl
    · rfl
  case join.fail i => simp only [mainStep]; split <;> rfl
  case cleanUp.proceed path ops =>
    cases ops with
    | nil => rfl
    | cons op ops => cases op <;> rfl
  all_goals
    rename_i ops
    cases ops <;> rfl

/-- what a step does, but for the blocks, depends on the blocks it touches only -/
theorem step_reads (cfg : Config) (s : State N) (a : Action N) (heap' : Addr → PackedData)
    (h : ∀ b ∈ s.touched a, heap' b = s.heap b) :
    (step cfg { s with heap := heap' } a).map State.forgetHeap =
      (step cfg s a).map State.forgetHeap := by
  unfold step
  dsimp only
  split
  · rfl
  · cases a with
    | worker i c =>
      show (workerStep cfg { s with heap := heap' } i c).map _ = (workerStep cfg s i c).map _
      unfold workerStep
      have hread := handleClient_reads cfg s.done s.heap heap' (UInt32.ofNat i) (s.lanes i) c
        fun b hb => h b (by rcases hb with hb | hb | hb <;> simp [State.touched, hb])
      rw [show handleClient cfg s.done heap' (UInt32.ofNat i) (s.lanes i) c = _ from hread]
      cases handleClient cfg s.done s.heap (UInt32.ofNat i) (s.lanes i) c <;> rfl
    | main c =>
      exact mainStep_reads cfg s c heap' h
    | wake i =>
      dsimp only
      split <;> rfl
    | arrive d => rfl
    | signal sig t =>
      have ht : State.takes { s with heap := heap' } sig t = s.takes sig t := by cases t <;> rfl
      dsimp only
      rw [ht]
      split <;> rfl

/-! ## unique ownership -/

def MainPc.leftLoop : MainPc N → Bool
  | storeDone => true
  | m => m.stored

theorem held_of_leftLoop (m : MainPc N) (h : m.leftLoop = true) : m.held = [] := by
  cases m <;> first | rfl | cases h

theorem not_freed_of_touched {cfg : Config} {s : State N} (h : Reachable cfg s) (a : Action N)
    (b : Addr) (hb : b ∈ s.touched a) : b ∉ s.freed := by
  intro hf
  have hocc := h.occurrences b
  have hfreed : 1 ≤ s.freed.count b := List.count_pos_iff.mpr hf
  have hle : s.occurrences b ≤ 1 := by
    rw [hocc]
    split <;> omega
  unfold State.occurrences at hle
  cases a with
  | main c =>
    have hheld : 1 ≤ s.main.held.count b := List.count_pos_iff.mpr hb
    omega
  | worker i c =>
    have hmem : b ∈ (s.lanes i).blocks := by
      apply List.mem_append_right
      unfold State.touched at hb
      dsimp only at hb
      split at hb
      case h_4 => exact absurd hb List.not_mem_nil
      all_goals
        rename_i c' hpc
        rw [hpc]
        exact hb
    have hlane : 1 ≤ (s.lanes i).blocks.count b := List.count_pos_iff.mpr hmem
    have hsum := Finset.single_le_sum (fun j _ => Nat.zero_le ((s.lanes j).blocks.count b))
      (Finset.mem_univ i)
    omega
  | wake i => cases hb
  | arrive d => cases hb
  | signal sig t => cases hb

theorem Reachable.not_held {cfg : Config} {s : State N} (h : Reachable cfg s) (i : Fin N)
    (b : Addr) (hb : b ∈ (s.lanes i).blocks) : b ∉ s.main.held ∧ b < s.allocated := by
  have hocc := h.occurrences b
  have hlane : 1 ≤ (s.lanes i).blocks.count b := List.count_pos_iff.mpr hb
  have hsum := Finset.single_le_sum (fun j _ => Nat.zero_le ((s.lanes j).blocks.count b))
    (Finset.mem_univ i)
  unfold State.occurrences at hocc
  constructor
  · intro hheld
    have : 1 ≤ s.main.held.count b := List.count_pos_iff.mpr hheld
    split at hocc <;> omega
  · by_contra hlt
    rw [if_neg hlt] at hocc
    omega

/-- no step writes to a block of a lane -/
theorem Reachable.record_kept {cfg : Config} {s s' : State N} {a : Action N}
    (h : Reachable cfg s) (hm : Move cfg s a s') (i : Fin N) (b : Addr)
    (hb : b ∈ (s.lanes i).blocks) : s'.heap b = s.heap b := by
  obtain ⟨hheld, hlt⟩ := h.not_held i b hb
  cases hm with
  | main c s' hmain => exact Move.writes (.main c s' hmain) b hheld hlt
  | _ => rfl

/-! ## invariants of a lane and its records -/

/-- `P` looks at a lane and the records in its blocks, and what can happen to a lane keeps it -/
structure KeptByLanes (cfg : Config) (P : (Addr → PackedData) → Lane → Prop) : Prop where
  start : ∀ heap, P heap Lane.start
  congr : ∀ heap heap' l, P heap l → (∀ b ∈ l.blocks, heap' b = heap b) → P heap' l
  create : ∀ heap l, P heap l → l.pc = .notCreated → P heap { l with pc := .mask }
  insert : ∀ heap l b, P heap l → P heap (l.insert cfg.lib b (recordIn cfg heap b))
  wake : ∀ heap l, P heap l → P heap l.wake
  release : ∀ heap l c d, P heap l → P heap { l with logsFileClosed := c, queueDestroyed := d }
  worker : ∀ heap l l' done id fr, P heap l → WorkerMove cfg done heap id l l' fr → P heap l'

theorem MainMove.kept {cfg : Config} {P : (Addr → PackedData) → Lane → Prop}
    (hP : KeptByLanes cfg P) {s s' : State N} {c : MainChoice} (hr : Reachable cfg s)
    (h : MainMove cfg s c s') (hs : ∀ i, P s.heap (s.lanes i)) (i : Fin N) :
    P s'.heap (s'.lanes i) := by
  have hkept : ∀ i, P s'.heap (s.lanes i) := fun i =>
    hP.congr _ _ _ (hs i) (hr.record_kept (.main c s' h) i)
  cases h
  case create k hpc hk =>
    have hnew : (s.lanes ⟨k, hk⟩).pc = .notCreated := by
      rw [(hr.lane ⟨k, hk⟩).notCreated_iff, State.view, hpc]
      exact blt_self k
    exact onLane_forall (P := fun _ => P s.heap) s ⟨k, hk⟩ (fun l => { l with pc := .mask })
      (hP.create _ _ (hs _) hnew) (fun j _ => hs j) i
  case insert b k hpc hfree =>
    exact onLane_forall (P := fun _ => P s.heap) s k
      (fun l => l.insert cfg.lib b (recordIn cfg s.heap b)) (hP.insert _ _ b (hs k))
      (fun j _ => hs j) i
  case broadcast k hpc hk hfree =>
    exact onLane_forall (P := fun _ => P s.heap) s ⟨k, hk⟩ Lane.wake (hP.wake _ _ (hs _))
      (fun j _ => hs j) i
  case release path op ops hpc =>
    obtain ⟨c, d, hl⟩ := release_lane s op i
    show P _ ((s.release op).lanes i)
    rw [hl]
    exact hP.release _ _ c d (hkept i)
  all_goals exact hkept i

/-- such a `P` holds of every lane in every reachable state -/
theorem Reachable.kept {cfg : Config} {P : (Addr → PackedData) → Lane → Prop}
    (hP : KeptByLanes cfg P) {s : State N} (h : Reachable cfg s) (i : Fin N) :
    P s.heap (s.lanes i) := by
  refine reachable_invariant (I := fun s : State N => ∀ i, P s.heap (s.lanes i))
    (fun i => hP.start _) ?_ h i
  intro s a s' hr hs hm
  cases hm with
  | main c s' hmain => exact hmain.kept hP hr hs
  | worker i c l fr hw =>
    exact onLane_forall (P := fun _ => P s.heap) s i (fun _ => l)
      (hP.worker _ _ _ _ _ _ (hs i) hw) fun j _ => hs j
  | wake i hw =>
    exact onLane_forall (P := fun _ => P s.heap) s i Lane.wake (hP.wake _ _ (hs i)) fun j _ => hs j
  | arrive d => exact hs
  | signal sig t ht => exact hs

/-! ## every run -/

/-- once main holds no block and all workers have ended, every block has been freed once -/
theorem Reachable.freed_once {cfg : Config} {s : State N} (h : Reachable cfg s)
    (hlib : s.CountsElements cfg.lib) (hheld : s.main.held = [])
    (hended : ∀ i, (s.lanes i).pc = .ended) {b : Addr} (hb : b < s.allocated) :
    s.freed.count b = 1 := by
  have hempty : ∀ i, (s.lanes i).blocks = [] := fun i => by
    obtain ⟨hq, -⟩ := h.left_loop i (hlib i) (by rw [hended i]; rfl)
    rw [Lane.blocks, hq, hended i]
    rfl
  have hocc := h.occurrences b
  rw [if_pos hb] at hocc
  simpa [State.occurrences, hheld, hempty] using hocc

/-- **Unique ownership of message memory.**  Every allocated block is at exactly one position of
exactly one place, and no other block is in any; what a step reads, writes, inserts or frees has
not been freed before; and once main has left its loop and all workers have ended, every block has
been freed exactly once. -/
theorem blocks_owned {cfg : Config} {s : State N} (h : Reachable cfg s) :
    (∀ b < s.allocated, ∃! p : Place N × Nat, (s.blocks p.1)[p.2]? = some b) ∧
    (∀ p, ∀ b ∈ s.blocks p, b < s.allocated) ∧
    (∀ a s', step cfg s a = some s' →
      (∀ b ∈ s.touched a, b ∉ s.freed) ∧
      ∃ fr, s'.freed = s.freed ++ fr ∧ ∀ b ∈ fr, b ∈ s.touched a) ∧
    (s.CountsElements cfg.lib → s.main.leftLoop = true → (∀ i, (s.lanes i).pc = .ended) →
      ∀ b < s.allocated, s.freed.count b = 1) := by
  refine ⟨?_, ?_, ?_, ?_⟩
  · intro b hb
    apply Places.existsUnique_place
    rw [← occurrences_eq_sum, h.occurrences b, if_pos hb]
  · intro p b hb
    by_contra hlt
    have hocc := h.occurrences b
    rw [if_neg hlt, occurrences_eq_sum] at hocc
    exact List.count_eq_zero.mp (Finset.sum_eq_zero_iff.mp hocc p (Finset.mem_univ p)) hb
  · intro a s' hstep
    exact ⟨fun b hb => not_freed_of_touched h a b hb, (step_move hstep).frees⟩
  · intro hlib hleft hended b hb
    exact h.freed_once hlib (held_of_leftLoop _ hleft) hended hb

/-- in the run of one message its block has been freed, once -/
theorem blocks_owned_oneMessage :
    afterOneMessage.allocated = 1 ∧ afterOneMessage.freed.count 0 = 1 :=
  ⟨by decide, (blocks_owned reachable_afterOneMessage).2.2.2 (State.countsElements (by decide))
    (by decide) (by decide) 0 (by decide)⟩

end Server
end SensorSimulator
