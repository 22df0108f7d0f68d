import SensorSimulator.Server.Moves

/-!
# The receive loop inside the process

Main's steps from one test of the loop to the next are one `receiveIteration`, with other threads
in between.  `State.Sees` says, at each position, what main knows of the datagram under way;
`Reachable.inserted_eq` then gives the records of each queue from the history of finished
iterations, and `refines_receiveLoop` that they are those of `receiveLoop` on that history.
-/

namespace SensorSimulator
namespace Server

variable {N : Nat}

/-- what main has checked of the datagram under way, and where it has it -/
def State.Sees (cfg : Config) (s : State N) : Prop :=
  match s.main with
  | .allocate | .deserialize _ => sizeofProtoSensorData ≤ s.current.length ∧
      decodeMessage s.buffer.bytes = decodeMessage s.current
  | .checkType b => sizeofProtoSensorData ≤ s.current.length ∧
      recordIn cfg s.heap b = decodeMessage s.current
  | .checkSensor b => sizeofProtoSensorData ≤ s.current.length ∧
      recordIn cfg s.heap b = decodeMessage s.current ∧
      (decodeMessage s.current).hdr.type = protoSensorData
  | .insert b i => sizeofProtoSensorData ≤ s.current.length ∧
      recordIn cfg s.heap b = decodeMessage s.current ∧
      (decodeMessage s.current).hdr.type = protoSensorData ∧
      (decodeMessage s.current).hdr.sensorId.toNat = i
  | .reject _ => (decodeMessage s.current).hdr.type ≠ protoSensorData ∨
      N ≤ (decodeMessage s.current).hdr.sensorId.toNat
  | _ => True

/-- the records of the queues are those of the finished iterations -/
structure Received (cfg : Config) (s : State N) : Prop where
  sees : s.Sees cfg
  inserted : ∀ i, (s.lanes i).inserted = s.history.filterMap (accepted N i)

theorem recordIn_update (cfg : Config) (heap : Addr → PackedData) (b : Addr)
    (m : MessageBuffer) :
    recordIn cfg (Function.update heap b (deserialized cfg.host m)) b = decodeMessage m.1 := by
  unfold recordIn
  rw [Function.update_self, deserialized_view]

theorem Received.skip {cfg : Config} {s : State N} (hs : Received cfg s) (it : Iteration)
    (h : ∀ i : Fin N, accepted N i it = none) (i : Fin N) :
    (s.lanes i).inserted = (s.history ++ [it]).filterMap (accepted N i) := by
  rw [hs.inserted i, List.filterMap_append, Lists.filterMap_singleton, h i]
  exact (List.append_nil _).symm

theorem MainMove.received {cfg : Config} {s s' : State N} {c : MainChoice}
    (hs : Received cfg s) (h : MainMove cfg s c s') : Received cfg s' := by
  have hsees := hs.sees
  unfold State.Sees at hsees
  cases h
  case message e d ds hpc hsock hd =>
    exact ⟨⟨hd, decodeMessage_recvfrom s.buffer d hd⟩, hs.inserted⟩
  case short e d ds hpc hsock hd =>
    refine ⟨trivial, hs.skip _ fun i => ?_⟩
    exact if_neg fun hacc => absurd hacc.1 (Nat.not_le_of_lt hd)
  case interrupted hpc => exact ⟨trivial, hs.skip _ fun i => rfl⟩
  case recvError e hpc => exact ⟨trivial, hs.skip _ fun i => rfl⟩
  case allocate hpc =>
    rw [hpc] at hsees
    exact ⟨hsees, hs.inserted⟩
  case allocateFails hpc =>
    refine ⟨trivial, hs.skip _ fun i => ?_⟩
    exact if_neg fun hacc => Bool.noConfusion hacc.2.2.2.2
  case deserialize b hpc =>
    rw [hpc] at hsees
    exact ⟨⟨hsees.1, (recordIn_update cfg s.heap b s.buffer.message).trans hsees.2⟩, hs.inserted⟩
  case wrongType b hpc ht =>
    rw [hpc] at hsees
    exact ⟨Or.inl (hsees.2 ▸ ht), hs.inserted⟩
  case rightType b hpc ht =>
    rw [hpc] at hsees
    exact ⟨⟨hsees.1, hsees.2, hsees.2 ▸ ht⟩, hs.inserted⟩
  case wrongSensor b hpc hi =>
    rw [hpc] at hsees
    exact ⟨Or.inr (hsees.2.1 ▸ hi), hs.inserted⟩
  case rightSensor b hpc hi =>
    rw [hpc] at hsees
    exact ⟨⟨hsees.1, hsees.2.1, hsees.2.2, by rw [← hsees.2.1]⟩, hs.inserted⟩
  case reject b hpc =>
    rw [hpc] at hsees
    refine ⟨trivial, hs.skip _ fun i => ?_⟩
    refine if_neg fun hacc => ?_
    rcases hsees with ht | hi
    · exact ht hacc.2.1
    · have := i.isLt
      omega
  case insert b k hpc hfree =>
    rw [hpc] at hsees
    obtain ⟨hd, hrec, ht, hi⟩ := hsees
    let it : Iteration := ⟨.datagram s.current, true⟩
    refine ⟨trivial, ?_⟩
    refine onLane_forall (P := fun i l => l.inserted =
      (s.history ++ [it]).filterMap (accepted N i)) s k
      (fun l => l.insert cfg.lib b (recordIn cfg s.heap b)) ?_ fun j hj => ?_
    · have hacc : accepted N k it = some (decodeMessage s.current) := by
        unfold accepted
        exact if_pos ⟨hd, ht, hi, k.isLt, rfl⟩
      show (s.lanes k).inserted ++ [recordIn cfg s.heap b] = _
      rw [hs.inserted k, List.filterMap_append, Lists.filterMap_singleton, hacc, hrec]
      rfl
    · have hacc : accepted N j it = none :=
        if_neg fun h => hj (Fin.ext (h.2.2.1.symm.trans hi))
      rw [hs.inserted j, List.filterMap_append, Lists.filterMap_singleton, hacc]
      exact (List.append_nil _).symm
  case create k hpc hk =>
    refine ⟨trivial, onLane_forall (P := fun i l => l.inserted =
      s.history.filterMap (accepted N i)) s ⟨k, hk⟩ (fun l => { l with pc := .mask })
      (hs.inserted _) fun j _ => hs.inserted j⟩
  case broadcast k hpc hk hfree =>
    refine ⟨trivial, onLane_forall (P := fun i l => l.inserted =
      s.history.filterMap (accepted N i)) s ⟨k, hk⟩ Lane.wake
      (hs.inserted _) fun j _ => hs.inserted j⟩
  case release path op ops hpc =>
    have hh : (s.release op).history = s.history := by cases op <;> rfl
    refine ⟨trivial, ?_⟩
    intro i
    obtain ⟨c, d, hl⟩ := release_lane s op i
    show ((s.release op).lanes i).inserted = (s.release op).history.filterMap _
    rw [hl, hh]
    exact hs.inserted i
  all_goals exact ⟨trivial, hs.inserted⟩

theorem Reachable.received {cfg : Config} {s : State N} (h : Reachable cfg s) :
    Received cfg s := by
  refine reachable_invariant (I := Received cfg) ⟨trivial, fun i => rfl⟩ ?_ h
  intro s a s' _ hs hm
  cases hm with
  | main c s' hmain => exact hmain.received hs
  | worker i c l fr hw =>
    refine ⟨hs.sees, onLane_forall (P := fun i l => l.inserted =
      s.history.filterMap (accepted N i)) s i (fun _ => l) ?_ fun j _ => hs.inserted j⟩
    have hins : l.inserted = (s.lanes i).inserted := by cases hw <;> rfl
    rw [hins]
    exact hs.inserted i
  | wake i hw =>
    exact ⟨hs.sees, onLane_forall (P := fun i l => l.inserted =
      s.history.filterMap (accepted N i)) s i Lane.wake (hs.inserted i) fun j _ => hs.inserted j⟩
  | arrive d => exact ⟨hs.sees, hs.inserted⟩
  | signal sig t ht =>
    refine ⟨?_, hs.inserted⟩
    -- the handler runs where main knows of no datagram, or leaves main where it is
    by_cases hmain : t = .main
    · have hsees := hs.sees
      unfold State.Sees State.signalHandler at *
      rw [if_pos hmain]
      cases hpc : s.main <;> rw [hpc] at hsees <;> exact hsees
    · have he : s.signalHandler t = { s with keepRunning := false } := by
        unfold State.signalHandler
        rw [if_neg hmain]
      rw [he]
      exact hs.sees

/-- the records inserted in queue `i` are those the finished iterations call for, in order -/
theorem Reachable.inserted_eq {cfg : Config} {s : State N} (h : Reachable cfg s) (i : Fin N) :
    (s.lanes i).inserted = s.history.filterMap (accepted N i) :=
  h.received.inserted i

/-- in every run, whatever the workers do, the queues get what the receive loop alone inserts on
the same datagrams -/
theorem refines_receiveLoop {cfg : Config} {s : State N} (h : Reachable cfg s) (buffer : Buffer)
    (i : Fin N) : (s.lanes i).inserted =
      insertedIn i (receiveLoop cfg.host N buffer s.history).2 :=
  (h.inserted_eq i).trans (receiveLoop_inserted cfg.host N i s.history buffer).symm

/-! ## no datagram is lost or made up -/

/-- the datagram of the iteration under way -/
def State.inHand (s : State N) : List (List UInt8) :=
  match s.main with
  | .allocate | .deserialize _ | .checkType _ | .checkSensor _ | .reject _ | .insert _ _ =>
    [s.current]
  | _ => []

def State.receivedDatagrams (s : State N) : List (List UInt8) :=
  s.history.filterMap Iteration.datagram

theorem Reachable.inserted_sublist {cfg : Config} {s : State N} (h : Reachable cfg s)
    (i : Fin N) : ((s.lanes i).inserted.map (·.data)).Sublist
      (s.receivedDatagrams.filterMap (wordFor i)) := by
  rw [h.inserted_eq i, List.map_filterMap, State.receivedDatagrams, List.filterMap_filterMap]
  simp only [accepted_data N i i.isLt]
  rw [← List.filterMap_filter]
  exact List.filter_sublist.filterMap _

/-- if no `calloc` has failed, the words inserted are those of all messages received for the sensor -/
theorem Reachable.inserted_all {cfg : Config} {s : State N} (h : Reachable cfg s)
    (hcalloc : ∀ it ∈ s.history, it.callocFailed = false) (i : Fin N) :
    (s.lanes i).inserted.map (·.data) = s.receivedDatagrams.filterMap (wordFor i) := by
  rw [h.inserted_eq i, List.map_filterMap, State.receivedDatagrams, List.filterMap_filterMap]
  apply List.filterMap_congr
  intro it hit
  exact accepted_data_of_calloc N i i.isLt it (hcalloc it hit)

/-- every datagram that has reached the process, in order -/
def State.arrived (s : State N) : List (List UInt8) :=
  s.receivedDatagrams ++ (s.inHand ++ s.socket)

/-- the words for sensor `i` among them -/
def State.arrivedFor (s : State N) (i : Nat) : List UInt32 := s.arrived.filterMap (wordFor i)

theorem Reachable.inserted_le_arrived {cfg : Config} {s : State N} (h : Reachable cfg s) (i : Fin N) :
    (s.lanes i).inserted.length ≤ (s.arrivedFor i).length := by
  have hle := (h.inserted_sublist i).length_le
  rw [List.length_map] at hle
  exact hle.trans ((List.sublist_append_left _ _).filterMap _).length_le

theorem arrived_next (s : State N) (it : Iteration) :
    (s.next it).arrived = s.receivedDatagrams ++ (it.datagram.toList ++ s.socket) := by
  show (s.history ++ [it]).filterMap Iteration.datagram ++ s.socket = _
  rw [List.filterMap_append, Lists.filterMap_singleton, List.append_assoc]
  rfl

theorem MainMove.arrived {cfg : Config} {s s' : State N} {c : MainChoice}
    (h : MainMove cfg s c s') : s'.arrived = s.arrived := by
  cases h
  case short e d ds hpc hs hd =>
    rw [arrived_next, State.arrived, State.inHand, hpc, hs]
    rfl
  case interrupted hpc =>
    rw [arrived_next, State.arrived, State.inHand, hpc]
    rfl
  case recvError e hpc =>
    rw [arrived_next, State.arrived, State.inHand, hpc]
    rfl
  case allocateFails hpc =>
    rw [arrived_next, State.arrived, State.inHand, hpc]
    rfl
  case reject b hpc =>
    rw [arrived_next, State.arrived, State.inHand, hpc]
    rfl
  case insert b i hpc hfree =>
    show (s.next ⟨.datagram s.current, true⟩).arrived = _
    rw [arrived_next, State.arrived, State.inHand, hpc]
    rfl
  case release path op ops hpc =>
    have hk : (s.release op).history = s.history ∧ (s.release op).socket = s.socket := by
      cases op <;> exact ⟨rfl, rfl⟩
    simp [State.arrived, State.receivedDatagrams, State.inHand, hpc, hk.1, hk.2]
  all_goals simp [State.arrived, State.receivedDatagrams, State.inHand, State.onLane, *]

/-- what the socket brings is all that reaches the process -/
theorem Move.arrived {cfg : Config} {s s' : State N} {a : Action N} (h : Move cfg s a s') :
    s'.arrived = s.arrived ++ (match a with | .arrive d => [d] | _ => []) := by
  cases h with
  | main c s' hm => exact hm.arrived.trans (List.append_nil _).symm
  | arrive d => simp [State.arrived, State.receivedDatagrams, State.inHand]
  | signal sig t ht =>
    have hhand : (s.signalHandler t).inHand = s.inHand := by
      unfold State.inHand State.signalHandler
      split_ifs
      · cases s.main <;> rfl
      · rfl
    rw [List.append_nil, State.arrived, hhand]
    rfl
  | _ => exact (List.append_nil _).symm

end Server
end SensorSimulator
