import SensorSimulator.Common
import SensorSimulator.Lib.Links
import SensorSimulator.Server.Queues

/-!
# server_queues.c: a queue printed

* `Heap α`             what the nodes point to; `none` is `NULL`;
* `printServerQueue`   `print_server_queue`, with fuel for its loop;
* `Prints`             it returns with a status after a line for each of some nodes;
* `printLoop_returned`   the loop returns exactly when `next` comes back to the base, and has then
                         visited the nodes on the way;
* `printServerQueue_statuses`   what it does with any list;
* `RecognisesExactly`  the status tells the well-formed lists from all others; `recognises_iff`
                       says for which lists it does.
-/

namespace SensorSimulator
open Links

/-- the fields of `doubly_node_t`; `element` is the record behind the pointer, for the base it is
not read -/
structure Heap (α : Type) where
  previous : α → Option α
  next : α → Option α
  element : α → ProtoSensorData

structure UnorderedCircularDoublyListWithBase (α : Type) where
  baseNode : Option α
  numberOfElements : UInt32

structure QueueThreadSafe (α : Type) where
  elements : Option (UnorderedCircularDoublyListWithBase α)

structure NodeLine (α : Type) where
  index : UInt32
  sensorId : UInt32
  value : Float32
  previous : Option α
  node : α
  next : Option α

/-- `nullDereference`: the loop has come to `NULL` and reads there; `running`: the fuel is used up -/
inductive PrintOutcome (α : Type) where
  | returned (status : ServerQueuesStatus) (lines : List (NodeLine α))
  | nullDereference
  | running

variable {α : Type}

def PrintOutcome.print (line : NodeLine α) : PrintOutcome α → PrintOutcome α
  | returned status lines => returned status (line :: lines)
  | outcome => outcome

def Heap.line (heap : Heap α) (aux : UInt32) (current : α) : NodeLine α where
  index := aux
  sensorId := (heap.element current).hdr.sensorId
  value := getFloatValue (heap.element current)
  previous := heap.previous current
  node := current
  next := heap.next current

section
variable [DecidableEq α]

def printLoop (heap : Heap α) (base : α) : Nat → UInt32 → Option α → PrintOutcome α
  | 0, _, _ => .running
  | fuel + 1, aux, current =>
    if current = some base then .returned .success []
    else
      match current with
      | none => .nullDereference
      | some current =>
        (printLoop heap base fuel (aux + 1) (heap.next current)).print (heap.line aux current)

def printServerQueue (heap : Heap α) (queue : QueueThreadSafe α) (fuel : Nat) : PrintOutcome α :=
  match queue.elements with
  | none => .returned .printServerQueueNullListError []
  | some list =>
    match list.baseNode with
    | none => .returned .printServerQueueNullBaseNodeError []
    | some base =>
      if list.numberOfElements = 0 ∧ heap.next base ≠ some base ∧ heap.previous base ≠ some base then
        .returned .printServerQueueCorruptedListError []
      else if list.numberOfElements < 1 then .returned .success []
      else printLoop heap base fuel 0 (heap.next base)

/-! ## the loop -/

/-- the lines of the nodes, beginning with the index `aux` -/
def Heap.lines (heap : Heap α) : UInt32 → List α → List (NodeLine α)
  | _, [] => []
  | aux, a :: nodes => heap.line aux a :: heap.lines (aux + 1) nodes

omit [DecidableEq α] in
theorem Heap.lines_node (heap : Heap α) (aux : UInt32) (nodes : List α) :
    (heap.lines aux nodes).map (·.node) = nodes := by
  induction nodes generalizing aux with
  | nil => rfl
  | cons a nodes ih => exact congrArg (a :: ·) (ih (aux + 1))

omit [DecidableEq α] in
theorem PrintOutcome.print_eq_returned {line : NodeLine α} {outcome : PrintOutcome α}
    {status : ServerQueuesStatus} {lines : List (NodeLine α)} :
    outcome.print line = .returned status lines ↔
      ∃ rest, outcome = .returned status rest ∧ lines = line :: rest := by
  cases outcome with
  | returned status' rest =>
    constructor
    · intro h
      cases h
      exact ⟨rest, rfl, rfl⟩
    · rintro ⟨rest', h, rfl⟩
      cases h
      rfl
  | _ => exact ⟨nofun, nofun⟩

/-- the loop returns exactly when `next` leads to the base, one turn for each node on the way -/
theorem printLoop_returned (heap : Heap α) (base : α) (fuel : Nat) (aux : UInt32)
    (current : Option α) (status : ServerQueuesStatus) (lines : List (NodeLine α)) :
    printLoop heap base fuel aux current = .returned status lines ↔
      status = .success ∧ ∃ nodes, Leads heap.next current nodes base ∧ base ∉ nodes ∧
        nodes.length < fuel ∧ lines = heap.lines aux nodes := by
  induction fuel generalizing aux current lines with
  | zero => exact ⟨nofun, fun ⟨_, _, _, _, hlt, _⟩ => absurd hlt (Nat.not_lt_zero _)⟩
  | succ fuel ih =>
    unfold printLoop
    split
    · rename_i hbase
      constructor
      · intro h
        cases h
        exact ⟨rfl, [], hbase, List.not_mem_nil, Nat.succ_pos fuel, rfl⟩
      · rintro ⟨rfl, nodes, hleads, hnot, -, rfl⟩
        have hnil : Leads heap.next current [] base := hbase
        cases hleads.unique hnil hnot List.not_mem_nil
        rfl
    · rename_i hbase
      cases current with
      | none =>
        refine ⟨nofun, ?_⟩
        rintro ⟨-, nodes, hleads, -⟩
        cases nodes with
        | nil => cases hleads
        | cons a nodes => cases hleads.1
      | some a =>
        dsimp only
        rw [PrintOutcome.print_eq_returned]
        constructor
        · rintro ⟨rest, hrest, rfl⟩
          obtain ⟨hstatus, nodes, hleads, hnot, hlt, rfl⟩ := (ih _ _ _).mp hrest
          refine ⟨hstatus, a :: nodes, ⟨rfl, hleads⟩, ?_, Nat.succ_lt_succ hlt, rfl⟩
          intro hmem
          rcases List.mem_cons.mp hmem with he | hmem
          · exact hbase (congrArg some he.symm)
          · exact hnot hmem
        · rintro ⟨hstatus, nodes, hleads, hnot, hlt, rfl⟩
          cases nodes with
          | nil => exact absurd hleads hbase
          | cons b nodes =>
            cases hleads.1
            exact ⟨_, (ih _ _ _).mpr ⟨hstatus, nodes, hleads.2,
              fun hmem => hnot (List.mem_cons_of_mem a hmem), Nat.lt_of_succ_lt_succ hlt, rfl⟩, rfl⟩

/-! ## the queue -/

/-- a queue whose list and base are not `NULL` -/
def queueAt (base : α) (numberOfElements : UInt32) : QueueThreadSafe α where
  elements := some { baseNode := some base, numberOfElements := numberOfElements }

/-- `print_server_queue` returns `status` and has visited `nodes`, in this order -/
def Prints (heap : Heap α) (queue : QueueThreadSafe α) (status : ServerQueuesStatus)
    (nodes : List α) : Prop :=
  ∃ fuel lines, printServerQueue heap queue fuel = .returned status lines ∧
    lines.map (·.node) = nodes

/-- the base is linked to itself in neither direction -/
def Heap.Unlinked (heap : Heap α) (base : α) : Prop :=
  heap.next base ≠ some base ∧ heap.previous base ≠ some base

theorem printServerQueue_empty (heap : Heap α) (base : α) (fuel : Nat) :
    printServerQueue heap (queueAt base 0) fuel =
      if heap.next base ≠ some base ∧ heap.previous base ≠ some base then
        .returned .printServerQueueCorruptedListError []
      else .returned .success [] := by
  unfold printServerQueue queueAt
  simp only [true_and]
  split <;> rfl

theorem printServerQueue_nonempty (heap : Heap α) (base : α) {n : UInt32} (hn : n ≠ 0)
    (fuel : Nat) :
    printServerQueue heap (queueAt base n) fuel = printLoop heap base fuel 0 (heap.next base) := by
  have hlt : ¬ n < 1 := by
    intro h
    apply hn
    rw [← UInt32.toNat_inj]
    exact Nat.lt_one_iff.mp (UInt32.lt_iff_toNat_lt.mp h)
  unfold printServerQueue queueAt
  dsimp only
  rw [if_neg (fun h => hn h.1), if_neg hlt]

theorem prints_empty (heap : Heap α) (base : α) (status : ServerQueuesStatus) (nodes : List α) :
    Prints heap (queueAt base 0) status nodes ↔ nodes = [] ∧
      ((heap.Unlinked base ∧ status = .printServerQueueCorruptedListError) ∨
        (¬ heap.Unlinked base ∧ status = .success)) := by
  unfold Prints Heap.Unlinked
  simp only [printServerQueue_empty]
  split
  · rename_i h
    constructor
    · rintro ⟨fuel, lines, hret, rfl⟩
      cases hret
      exact ⟨rfl, Or.inl ⟨h, rfl⟩⟩
    · rintro ⟨rfl, ⟨-, rfl⟩ | ⟨hnot, -⟩⟩
      · exact ⟨0, [], rfl, rfl⟩
      · exact absurd h hnot
  · rename_i h
    constructor
    · rintro ⟨fuel, lines, hret, rfl⟩
      cases hret
      exact ⟨rfl, Or.inr ⟨h, rfl⟩⟩
    · rintro ⟨rfl, ⟨hun, -⟩ | ⟨-, rfl⟩⟩
      · exact absurd hun h
      · exact ⟨0, [], rfl, rfl⟩

theorem prints_nonempty (heap : Heap α) (base : α) {n : UInt32} (hn : n ≠ 0)
    (status : ServerQueuesStatus) (nodes : List α) :
    Prints heap (queueAt base n) status nodes ↔
      status = .success ∧ Leads heap.next (heap.next base) nodes base ∧ base ∉ nodes := by
  unfold Prints
  simp only [printServerQueue_nonempty heap base hn, printLoop_returned]
  constructor
  · rintro ⟨fuel, lines, ⟨rfl, nodes', hleads, hnot, -, rfl⟩, rfl⟩
    rw [heap.lines_node]
    exact ⟨rfl, hleads, hnot⟩
  · rintro ⟨rfl, hleads, hnot⟩
    exact ⟨nodes.length + 1, heap.lines 0 nodes,
      ⟨rfl, nodes, hleads, hnot, Nat.lt_succ_self _, rfl⟩, heap.lines_node 0 nodes⟩

/-! ## the well-formed lists -/

/-- the links are a ring of the base and `nodes`, as many as the list says -/
def Heap.WellFormed (heap : Heap α) (base : α) (n : UInt32) (nodes : List α) : Prop :=
  Ring heap.next heap.previous base nodes ∧ nodes.length = n.toNat

theorem Heap.WellFormed.prints {heap : Heap α} {base : α} {n : UInt32} {nodes : List α}
    (h : heap.WellFormed base n nodes) : Prints heap (queueAt base n) .success nodes := by
  obtain ⟨hring, hlength⟩ := h
  by_cases hn : n = 0
  · subst hn
    cases List.length_eq_zero_iff.mp hlength
    rw [prints_empty]
    exact ⟨rfl, Or.inr ⟨fun hun => hun.1 (ring_nil.mp hring).1, rfl⟩⟩
  · rw [prints_nonempty heap base hn]
    exact ⟨rfl, hring.leads, hring.not_mem⟩

/-- What `print_server_queue` does with any list: it visits the nodes of a well-formed one; it
tests an empty one only, and reports it when its base is linked to itself in neither direction; any
other one it walks until it is back at the base, and never reports. -/
theorem printServerQueue_statuses (heap : Heap α) (base : α) (n : UInt32) :
    (∀ nodes, heap.WellFormed base n nodes → Prints heap (queueAt base n) .success nodes) ∧
    (n = 0 → ∃ status, Prints heap (queueAt base n) status []) ∧
    (n = 0 → heap.Unlinked base →
      Prints heap (queueAt base n) .printServerQueueCorruptedListError []) ∧
    (n ≠ 0 → ∀ status nodes, Prints heap (queueAt base n) status nodes ↔
      status = .success ∧ Leads heap.next (heap.next base) nodes base ∧ (base :: nodes).Nodup) := by
  refine ⟨fun nodes h => h.prints, ?_, ?_, ?_⟩
  · rintro rfl
    by_cases hun : heap.Unlinked base
    · exact ⟨_, (prints_empty heap base _ _).mpr ⟨rfl, Or.inl ⟨hun, rfl⟩⟩⟩
    · exact ⟨_, (prints_empty heap base _ _).mpr ⟨rfl, Or.inr ⟨hun, rfl⟩⟩⟩
  · rintro rfl hun
    exact (prints_empty heap base _ _).mpr ⟨rfl, Or.inl ⟨hun, rfl⟩⟩
  · intro hn status nodes
    rw [prints_nonempty heap base hn, List.nodup_cons]
    constructor
    · rintro ⟨hstatus, hleads, hnot⟩
      exact ⟨hstatus, hleads, hnot, hleads.nodup hnot⟩
    · rintro ⟨hstatus, hleads, hnot, -⟩
      exact ⟨hstatus, hleads, hnot⟩

/-! ## exact recognition -/

/-- it returns for the list; if this is well-formed, with success and after its nodes, and if not,
with the status for a corrupted list -/
structure RecognisesExactly (heap : Heap α) (base : α) (n : UInt32) : Prop where
  returns : ∃ status nodes, Prints heap (queueAt base n) status nodes
  wellFormed : ∀ nodes, heap.WellFormed base n nodes → Prints heap (queueAt base n) .success nodes
  corrupted : (¬ ∃ nodes, heap.WellFormed base n nodes) →
    ∃ nodes, Prints heap (queueAt base n) .printServerQueueCorruptedListError nodes

theorem recognises_iff (heap : Heap α) (base : α) (n : UInt32) :
    RecognisesExactly heap base n ↔
      (∃ nodes, heap.WellFormed base n nodes) ∨ (n = 0 ∧ heap.Unlinked base) := by
  constructor
  · intro h
    by_cases hwell : ∃ nodes, heap.WellFormed base n nodes
    · exact Or.inl hwell
    · obtain ⟨nodes, hprints⟩ := h.corrupted hwell
      by_cases hn : n = 0
      · subst hn
        obtain ⟨-, ⟨hun, -⟩ | ⟨-, hstatus⟩⟩ := (prints_empty heap base _ _).mp hprints
        · exact Or.inr ⟨rfl, hun⟩
        · cases hstatus
      · cases ((prints_nonempty heap base hn _ _).mp hprints).1
  · rintro (⟨nodes, hwell⟩ | ⟨rfl, hun⟩)
    · exact ⟨⟨_, _, hwell.prints⟩, fun nodes h => h.prints, fun hnot => absurd ⟨nodes, hwell⟩ hnot⟩
    · have hprints := (prints_empty heap base _ _).mpr ⟨rfl, Or.inl ⟨hun, rfl⟩⟩
      exact ⟨⟨_, _, hprints⟩, fun nodes h => h.prints, fun _ => ⟨_, hprints⟩⟩

end

/-- a ring of the base `false` and one node -/
def twoNodes : Heap Bool where
  previous a := some !a
  next a := some !a
  element _ := PackedData.zero.view .little

/-- the list says two elements and has one: it is printed, and not reported -/
theorem printServerQueue_miscounted :
    Prints twoNodes (queueAt false 2) .success [true] ∧ ¬ RecognisesExactly twoNodes false 2 := by
  have hleads : Leads twoNodes.next (twoNodes.next false) [true] false := ⟨rfl, rfl⟩
  refine ⟨(prints_nonempty twoNodes false (by decide) _ _).mpr ⟨rfl, hleads, by decide⟩, ?_⟩
  rw [recognises_iff]
  rintro (⟨nodes, hring, hlength⟩ | ⟨hzero, -⟩)
  · cases hleads.unique hring.leads (by decide) hring.not_mem
    cases hlength
  · cases hzero

end SensorSimulator
