import SensorSimulator.Server.Memory

/-!
# The drain: every inserted record is finished once, in order

* `Lane.pending`       the records of a lane that have been inserted and not finished: the one the
                       worker holds, then those in the queue;
* `Reachable.fifo`     inserted = finished ++ pending, in every reachable state;
* `drain_exactly_once` with it, what holds when a worker has left its loop, and when main has
                       joined the workers.

The records are read from the heap: that no block of a lane is written behind its back is
`Reachable.record_kept`, and `KeptByLanes` says what is left to show.
-/

namespace SensorSimulator
namespace Server

variable {N : Nat}

/-- the records in the worker's hand and in its queue -/
def Lane.pending (cfg : Config) (heap : Addr → PackedData) (l : Lane) : List ProtoSensorData :=
  l.pc.held.toList.map (recordIn cfg heap) ++ l.queue.map (recordIn cfg heap)

/-- the invariant of one lane -/
def Lane.Fifo (cfg : Config) (heap : Addr → PackedData) (l : Lane) : Prop :=
  l.inserted = l.finished ++ l.pending cfg heap

/-! ## one step -/

/-- a step of a worker moves a record from the queue to its hand, or from there to the finished -/
theorem WorkerMove.fifo {cfg : Config} {done : Bool} {heap : Addr → PackedData} {id : UInt32}
    {l l' : Lane} {fr : List Addr} (h : WorkerMove cfg done heap id l l' fr)
    (hl : l.Fifo cfg heap) : l'.Fifo cfg heap := by
  unfold Lane.Fifo Lane.pending at *
  cases h
  case take b q hpc hq hm =>
    rw [hl, hpc, hq]
    rfl
  case unlock b hpc =>
    rw [WorkerPc.held_ite, hl, hpc]
    rfl
  case free b hpc =>
    rw [hl, hpc]
    show _ = (l.finished ++ [recordIn cfg heap b]) ++ _
    rw [List.append_assoc]
    rfl
  all_goals
    rw [hl]
    simp [WorkerPc.held, *]

theorem Lane.Fifo.congr {cfg : Config} {heap heap' : Addr → PackedData} {l : Lane}
    (hl : l.Fifo cfg heap) (h : ∀ b ∈ l.blocks, heap' b = heap b) : l.Fifo cfg heap' := by
  have hrec : ∀ b ∈ l.blocks, recordIn cfg heap' b = recordIn cfg heap b := fun b hb => by
    unfold recordIn
    rw [h b hb]
  unfold Lane.Fifo Lane.pending at *
  rw [hl, List.map_congr_left fun b hb => hrec b (List.mem_append_right _ hb),
    List.map_congr_left fun b hb => hrec b (List.mem_append_left _ hb)]

theorem fifo_kept (cfg : Config) : KeptByLanes cfg (fun heap l => l.Fifo cfg heap) where
  start heap := rfl
  congr heap heap' l hl h := hl.congr h
  create heap l hl hpc := by
    unfold Lane.Fifo Lane.pending at *
    rw [hpc] at hl
    exact hl
  insert heap l b hl := by
    unfold Lane.Fifo Lane.pending at *
    rw [Lane.insert_eq, hl, WorkerPc.held_woken, List.map_append]
    simp only [List.append_assoc]
    rfl
  wake heap l hl := by
    unfold Lane.Fifo Lane.pending Lane.wake at *
    rw [WorkerPc.held_woken]
    exact hl
  release heap l c d hl := hl
  worker heap l l' done id fr hl hw := hw.fifo hl

/-! ## every run -/

theorem Reachable.fifo {cfg : Config} {s : State N} (h : Reachable cfg s) (i : Fin N) :
    (s.lanes i).inserted = (s.lanes i).finished ++ (s.lanes i).pending cfg s.heap :=
  h.kept (fifo_kept cfg) i

theorem Reachable.left_finished {cfg : Config} {s : State N} (h : Reachable cfg s) (i : Fin N)
    (hlib : cfg.lib.CountsElements (s.lanes i).inserted.length)
    (hleft : (s.lanes i).pc.left = true) : (s.lanes i).inserted = (s.lanes i).finished := by
  have hfifo := h.fifo i
  have hheld : (s.lanes i).pc.held = none := by
    cases hpc : (s.lanes i).pc with
    | leave => rfl
    | ended => rfl
    | _ => rw [hpc] at hleft; cases hleft
  rw [Lane.pending, (h.left_loop i hlib hleft).1, hheld] at hfifo
  simpa using hfifo

/-- **Exactly once, in order.**  In every reachable state and for every sensor, the records ever
inserted are those the worker has finished, then the one it holds, then those in the queue.  A
worker that has left its loop has left its queue empty and everything inserted finished, and no
run from there inserts any more.  Once main has joined a worker, that is so. -/
theorem drain_exactly_once {cfg : Config} {s : State N} (h : Reachable cfg s) (i : Fin N) :
    (s.lanes i).inserted = (s.lanes i).finished ++
      ((s.lanes i).pc.held.toList.map (recordIn cfg s.heap) ++
        (s.lanes i).queue.map (recordIn cfg s.heap)) ∧
    (cfg.lib.CountsElements (s.lanes i).inserted.length → (s.lanes i).pc.left = true →
      s.main.stored = true ∧ (s.lanes i).queue = [] ∧
      (s.lanes i).inserted = (s.lanes i).finished ∧
      ∀ as t, Runs.exec (step cfg) s as = some t →
        (t.lanes i).inserted = (s.lanes i).inserted) ∧
    ((i : Nat) < s.main.joined → (s.lanes i).pc = .ended) := by
  refine ⟨h.fifo i, ?_, ?_⟩
  · intro hlib hleft
    obtain ⟨hq, hstored⟩ := h.left_loop i hlib hleft
    refine ⟨hstored, hq, h.left_finished i hlib hleft, ?_⟩
    intro as t hrun
    exact h.inserted_final i ((done_eq_stored h).trans hstored) hrun
  · exact h.joined_ended

theorem drain_exactly_once_oneMessage :
    (afterOneMessage.lanes 0).finished = [⟨⟨0, 0, 0⟩, 0⟩] ∧
    (afterOneMessage.lanes 0).inserted = (afterOneMessage.lanes 0).finished :=
  ⟨by decide, ((drain_exactly_once reachable_afterOneMessage 0).2.1
    (queueLibrary_countsElements (by decide)) (by decide)).2.2.1⟩

end Server
end SensorSimulator
