import SensorSimulator.Server.Drain

/-!
# The totals: what a worker adds to counter and sum

* `Reachable.counter_sum`   the two fields, from the words added: their number modulo 2^32, and
                            their floats added up in order;
* `Reachable.summed`        with logging off every record that the worker is done with has been
                            added, once and in order;
* `Reachable.summed_prefix`, `summed_all`   so the words added are those of the first records
                            inserted, and of all of them when the worker has ended.
-/

namespace SensorSimulator
namespace Server

variable {N : Nat}

/-- `counter` and `sum` are those of the words added -/
def Lane.CounterSum (l : Lane) : Prop :=
  l.counter = UInt32.ofNat l.summed.length ∧
  l.sum = l.summed.foldl (fun sum word => sum + Float32.ofBits word) 0

theorem counterSum_kept (cfg : Config) : KeptByLanes cfg (fun _ l => l.CounterSum) where
  start heap := ⟨rfl, rfl⟩
  congr heap heap' l hl h := hl
  create heap l hl hpc := hl
  insert heap l b hl := hl
  wake heap l hl := hl
  release heap l c d hl := hl
  worker heap l l' done id fr hl hw := by
    obtain ⟨hcounter, hsum⟩ := hl
    cases hw
    case count b hpc =>
      constructor
      · show l.counter + 1 = UInt32.ofNat (l.summed ++ [_]).length
        rw [List.length_append, List.length_singleton, UInt32.ofNat_add, ← hcounter]
        rfl
      · show l.sum + getFloatValue _ = (l.summed ++ [_]).foldl _ 0
        rw [List.foldl_append, ← hsum]
        rfl
    all_goals exact ⟨hcounter, hsum⟩

theorem Reachable.counter_sum {cfg : Config} {s : State N} (h : Reachable cfg s) (i : Fin N) :
    (s.lanes i).counter = UInt32.ofNat (s.lanes i).summed.length ∧
    (s.lanes i).sum = (s.lanes i).summed.foldl (fun sum word => sum + Float32.ofBits word) 0 :=
  h.kept (counterSum_kept cfg) i

/-! ## with logging off -/

/-- the block whose record has been added and which is not freed yet -/
def WorkerPc.added : WorkerPc → Option Addr
  | free b => some b
  | _ => none

@[simp] theorem WorkerPc.added_woken (pc : WorkerPc) : pc.woken.added = pc.added := by
  cases pc <;> rfl

/-- no record is in the log branch, and those behind the sum are the words added -/
def Lane.Summed (cfg : Config) (heap : Addr → PackedData) (l : Lane) : Prop :=
  (∀ b, l.pc ≠ .log b) ∧
  l.summed = (l.finished ++ l.pc.added.toList.map (recordIn cfg heap)).map (·.data)

theorem WorkerMove.summed {cfg : Config} (hoff : cfg.logsFilesFlag = false) {done : Bool}
    {heap : Addr → PackedData} {id : UInt32} {l l' : Lane} {fr : List Addr}
    (h : WorkerMove cfg done heap id l l' fr) (hl : l.Summed cfg heap) : l'.Summed cfg heap := by
  obtain ⟨hlog, hsummed⟩ := hl
  unfold Lane.Summed
  cases h
  case unlock b hpc =>
    rw [hpc] at hsummed
    have hnext : (if cfg.logsFilesFlag = true then WorkerPc.log b else .count b) = .count b := by
      rw [hoff]
      rfl
    dsimp only
    rw [hnext]
    exact ⟨fun c => WorkerPc.noConfusion, hsummed⟩
  case logged b out file hpc h => exact absurd hpc (hlog b)
  case logFails b out hpc h => exact absurd hpc (hlog b)
  case count b hpc =>
    rw [hpc] at hsummed
    refine ⟨fun c => WorkerPc.noConfusion, ?_⟩
    show l.summed ++ [_] = _
    rw [hsummed]
    simp [WorkerPc.added]
  case free b hpc =>
    rw [hpc] at hsummed
    refine ⟨fun c => WorkerPc.noConfusion, ?_⟩
    rw [hsummed]
    simp [WorkerPc.added]
  all_goals
    rename_i hpc
    refine ⟨fun c => WorkerPc.noConfusion, ?_⟩
    rw [hsummed]
    simp [WorkerPc.added, *]

/-- a wake-up, with or without a record, leaves the sum alone -/
theorem Lane.Summed.woken {cfg : Config} {heap : Addr → PackedData} {l l' : Lane}
    (hl : l.Summed cfg heap) (hpc : l'.pc = l.pc.woken) (hsum : l'.summed = l.summed)
    (hfin : l'.finished = l.finished) : l'.Summed cfg heap := by
  obtain ⟨hlog, hsummed⟩ := hl
  refine ⟨fun b hb => hlog b ?_, ?_⟩
  · rwa [hpc, WorkerPc.woken_eq_log] at hb
  · rw [hsum, hfin, hpc, WorkerPc.added_woken, hsummed]

theorem summed_kept {cfg : Config} (hoff : cfg.logsFilesFlag = false) :
    KeptByLanes cfg (fun heap l => l.Summed cfg heap) where
  start heap := ⟨fun b => WorkerPc.noConfusion, rfl⟩
  congr heap heap' l hl h := by
    obtain ⟨hlog, hsummed⟩ := hl
    refine ⟨hlog, ?_⟩
    rw [hsummed]
    congr 2
    apply List.map_congr_left
    intro b hb
    have hmem : b ∈ l.blocks := by
      apply List.mem_append_right
      cases hpc : l.pc with
      | free c => rw [hpc] at hb; exact hb
      | _ => rw [hpc] at hb; exact absurd hb List.not_mem_nil
    unfold recordIn
    rw [h b hmem]
  create heap l hl hpc := by
    refine ⟨fun b => WorkerPc.noConfusion, ?_⟩
    rw [show l.summed = _ from hl.2, hpc]
    rfl
  insert heap l b hl := hl.woken rfl rfl rfl
  wake heap l hl := hl.woken rfl rfl rfl
  release heap l c d hl := hl
  worker heap l l' done id fr hl hw := hw.summed hoff hl

theorem Reachable.summed {cfg : Config} (hoff : cfg.logsFilesFlag = false) {s : State N}
    (h : Reachable cfg s) (i : Fin N) : (s.lanes i).summed =
      ((s.lanes i).finished ++ (s.lanes i).pc.added.toList.map (recordIn cfg s.heap)).map
        (·.data) :=
  (h.kept (summed_kept hoff) i).2

theorem Reachable.summed_prefix {cfg : Config} (hoff : cfg.logsFilesFlag = false) {s : State N}
    (h : Reachable cfg s) (i : Fin N) :
    (s.lanes i).summed <+: (s.lanes i).inserted.map (·.data) := by
  rw [h.summed hoff i, h.fifo i]
  apply List.IsPrefix.map
  rw [List.prefix_append_right_inj]
  -- what has been added and not freed is in the worker's hand
  refine List.IsPrefix.trans ?_ (List.prefix_append _ _)
  cases (s.lanes i).pc with
  | free b => exact List.prefix_rfl
  | _ => exact List.nil_prefix

/-- a worker that has ended has added the word of every record inserted -/
theorem Reachable.summed_all {cfg : Config} (hoff : cfg.logsFilesFlag = false)
    {s : State N} (h : Reachable cfg s) (i : Fin N)
    (hlib : cfg.lib.CountsElements (s.lanes i).inserted.length)
    (hended : (s.lanes i).pc = .ended) :
    (s.lanes i).summed = (s.lanes i).inserted.map (·.data) := by
  rw [h.summed hoff i, h.left_finished i hlib (by rw [hended]; rfl), hended]
  exact congrArg (List.map _) (List.append_nil _)

end Server
end SensorSimulator
