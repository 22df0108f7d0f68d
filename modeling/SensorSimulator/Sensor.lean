import SensorSimulator.Client
import SensorSimulator.Receive

/-!
# A sensor thread in steps

`handleServer` runs a thread to its end; among other threads it moves in steps, from one system
call that others can see to the next: `sendto` on one side, the log and the sleep on the other.

* `Sensor.step`        one such step, and what it puts on the network;
* `Sensor.InLoop`      where the thread stands, as what is left of its `handleServer`;
* `Sensor.Sends`       what is on the network of the words it packed and sent.
-/

namespace SensorSimulator

/-- a thread between two steps: `logging` is its `data` from a successful send to the log, and
`sentData` the history of the words that it packed and sent with a successful `sendto` -/
structure Sensor where
  thread : ClientThread
  logging : Option PackedData
  sentData : List UInt32

inductive SensorChoice where
  | send (out : SendOutcome)
  | log (out : LogOutcome)

def Sensor.start (params : ClientThreadParams) : Sensor where
  thread := .start params []
  logging := none
  sentData := []

def Sensor.step (o : ByteOrder) (params : ClientThreadParams) (t : Sensor) (c : SensorChoice) :
    Option (Sensor × List (List UInt8)) :=
  match t.logging, c with
  | none, .send out =>
    if t.thread.packetsPerThread = 0 then none
    else
      let r := sendPhase o params out
      some ({ thread := t.thread.sent r.2
              logging := r.1
              sentData := t.sentData ++ (r.1.map fun data => (data.view o).data).toList },
            networkOf r.2)
  | some data, .log out =>
    some ({ t with thread := logPhase o params out data t.thread, logging := none }, [])
  | _, _ => none

/-- the transitions of `Sensor.step` -/
inductive SensorMove (o : ByteOrder) (params : ClientThreadParams) (t : Sensor) :
    Sensor → List (List UInt8) → Prop
  | sent (out : SendOutcome) (number : UInt32) (hpc : t.logging = none)
      (hp : t.thread.packetsPerThread ≠ 0)
      (hs : sendPhase o params out = (some (PackedData.ofRecord o (reading params.id number)),
        [.sendto .success [wireBytes (reading params.id number)]])) :
      SensorMove o params t
        { thread := t.thread.sent [.sendto .success [wireBytes (reading params.id number)]]
          logging := some (PackedData.ofRecord o (reading params.id number))
          sentData := t.sentData ++ [number] } [wireBytes (reading params.id number)]
  | failed (out : SendOutcome) (events : List ClientEvent) (hpc : t.logging = none)
      (hp : t.thread.packetsPerThread ≠ 0) (hs : sendPhase o params out = (none, events))
      (hnone : sentOf events = [])
      (hshort : ∀ d ∈ networkOf events, d.length < sizeofProtoSensorData) :
      SensorMove o params t
        { thread := t.thread.sent events, logging := none, sentData := t.sentData }
        (networkOf events)
  | log (out : LogOutcome) (data : PackedData) (hpc : t.logging = some data) :
      SensorMove o params t
        { t with thread := logPhase o params out data t.thread, logging := none } []

theorem Sensor.step_move {o : ByteOrder} {params : ClientThreadParams} {t t' : Sensor}
    {c : SensorChoice} {ds : List (List UInt8)} (h : t.step o params c = some (t', ds)) :
    SensorMove o params t t' ds := by
  unfold Sensor.step at h
  split at h
  · rename_i out hpc
    split at h
    · cases h
    · rename_i hp
      have hsend := sendPhase_spec o params out
      cases hn : out.number with
      | some number =>
        rw [hn] at hsend
        rw [show sendPhase o params out = _ from hsend] at h
        dsimp only at h
        rw [Option.map_some, PackedData.view_ofRecord] at h
        cases h
        exact .sent out number hpc hp hsend
      | none =>
        rw [hn] at hsend
        obtain ⟨events, he, hnone, hshort⟩ := hsend
        rw [he] at h
        cases h
        dsimp only
        rw [Option.map_none, Option.toList_none, List.append_nil]
        exact .failed out events hpc hp he hnone hshort
  · rename_i data out hpc
    cases h
    exact .log out data hpc
  · cases h

/-! ## the thread runs handle_server -/

/-- the loop from its start, on the outcomes so far and any others, goes on as from here: with the
next iteration, or with the log of this one -/
def Sensor.InLoop (o : ByteOrder) (params : ClientThreadParams) (t : Sensor) : Prop :=
  match t.logging with
  | none => ∃ outs, ∀ rest, handleServer o params (.start params []) (outs ++ rest) =
      handleServer o params t.thread rest
  | some data => ∃ outs send, ∀ log rest,
      handleServer o params (.start params []) (outs ++ ⟨send, log⟩ :: rest) =
        handleServer o params (logPhase o params log data t.thread) rest

theorem handleServer_cons (o : ByteOrder) (params : ClientThreadParams) (out : IterationOutcome)
    (outs : List IterationOutcome) (t : ClientThread) (h : t.packetsPerThread ≠ 0) :
    handleServer o params t (out :: outs) =
      handleServer o params (handleServerIteration o params out t) outs := if_neg h

theorem SensorMove.inLoop {o : ByteOrder} {params : ClientThreadParams} {t t' : Sensor}
    {ds : List (List UInt8)} (h : SensorMove o params t t' ds) (ht : t.InLoop o params) :
    t'.InLoop o params := by
  unfold Sensor.InLoop at ht
  cases h with
  | sent out number hpc hp hs =>
    rw [hpc] at ht
    obtain ⟨outs, hrun⟩ := ht
    refine ⟨outs, out, ?_⟩
    intro log rest
    rw [hrun, handleServer_cons _ _ _ _ _ hp, handleServerIteration, hs]
  | failed out events hpc hp hs =>
    rw [hpc] at ht
    obtain ⟨outs, hrun⟩ := ht
    -- the log of an iteration that does not reach it can be anything
    let noLog : LogOutcome := ⟨⟨false, false, .error ""⟩, false, false⟩
    refine ⟨outs ++ [⟨out, noLog⟩], ?_⟩
    intro rest
    rw [List.append_assoc, hrun, List.singleton_append, handleServer_cons _ _ _ _ _ hp,
      handleServerIteration, hs]
  | log out data hpc =>
    rw [hpc] at ht
    obtain ⟨outs, send, hrun⟩ := ht
    refine ⟨outs ++ [⟨send, out⟩], ?_⟩
    intro rest
    rw [List.append_assoc, List.singleton_append, hrun]

theorem Sensor.start_inLoop (o : ByteOrder) (params : ClientThreadParams) :
    (Sensor.start params).InLoop o params := ⟨[], fun _ => rfl⟩

/-- a thread whose counter is down at the top of the loop has run `handleServer` -/
theorem Sensor.InLoop.returned {o : ByteOrder} {params : ClientThreadParams} {t : Sensor}
    (h : t.InLoop o params) (hpc : t.logging = none) (h0 : t.thread.packetsPerThread = 0) :
    ∃ outs, handleServer o params (.start params []) outs = some t.thread := by
  unfold Sensor.InLoop at h
  rw [hpc] at h
  obtain ⟨outs, hrun⟩ := h
  refine ⟨outs, ?_⟩
  have hend := hrun []
  rw [List.append_nil] at hend
  rw [hend]
  exact if_pos h0

/-! ## what it has put on the network -/

/-- the successful sends are the words packed, on the wire; nothing else that the thread has put on
the network is a message for anyone -/
structure Sensor.Sends (params : ClientThreadParams) (t : Sensor) : Prop where
  sent : sentOf t.thread.trace = t.sentData.map fun word => wireBytes (reading params.id word)
  words : ∀ i, (networkOf t.thread.trace).filterMap (wordFor i) =
    if params.id.toNat = i then t.sentData else []

theorem wordFor_reading (id word : UInt32) (i : Nat) :
    wordFor i (wireBytes (reading id word)) = if id.toNat = i then some word else none := by
  unfold wordFor
  rw [length_wireBytes, decodeMessage_wireBytes]
  exact if_congr ⟨fun h => h.2.2, fun h => ⟨Nat.le_refl 14, rfl, h⟩⟩ rfl rfl

theorem networkOf_append (a b : List ClientEvent) :
    networkOf (a ++ b) = networkOf a ++ networkOf b := List.flatMap_append

theorem sentOf_sublist (trace : List ClientEvent) : (sentOf trace).Sublist (networkOf trace) := by
  induction trace with
  | nil => exact List.Sublist.refl _
  | cons e trace ih =>
    unfold sentOf networkOf at *
    rw [List.flatMap_cons, List.flatMap_cons]
    refine List.Sublist.append ?_ ih
    cases e with
    | sendto st network => cases st <;> first | exact List.Sublist.refl _ | exact List.nil_sublist _
    | nanosleep n => exact List.Sublist.refl _

theorem logPhase_trace (o : ByteOrder) (params : ClientThreadParams) (out : LogOutcome)
    (data : PackedData) (t : ClientThread) :
    sentOf (logPhase o params out data t).trace = sentOf t.trace ∧
    networkOf (logPhase o params out data t).trace = networkOf t.trace := by
  have hsleep : ∀ n, sentOf (t.trace ++ [.nanosleep n]) = sentOf t.trace ∧
      networkOf (t.trace ++ [.nanosleep n]) = networkOf t.trace := fun n => by
    rw [sentOf_append, networkOf_append]
    exact ⟨List.append_nil _, List.append_nil _⟩
  unfold logPhase
  dsimp only
  split
  · split
    · exact hsleep _
    · exact ⟨rfl, rfl⟩
  · exact hsleep _

theorem SensorMove.network {o : ByteOrder} {params : ClientThreadParams} {t t' : Sensor}
    {ds : List (List UInt8)} (h : SensorMove o params t t' ds) :
    networkOf t'.thread.trace = networkOf t.thread.trace ++ ds := by
  cases h with
  | sent out number hpc hp hs => exact networkOf_append _ _
  | failed out events hpc hp hs => exact networkOf_append _ _
  | log out data hpc =>
    rw [List.append_nil]
    exact (logPhase_trace o params out data t.thread).2

theorem SensorMove.sends {o : ByteOrder} {params : ClientThreadParams} {t t' : Sensor}
    {ds : List (List UInt8)} (h : SensorMove o params t t' ds) (ht : t.Sends params) :
    t'.Sends params := by
  have hnetwork := h.network
  cases h with
  | sent out number hpc hp hs =>
    constructor
    · show sentOf (t.thread.trace ++ _) = _
      rw [sentOf_append, ht.sent, List.map_append]
      rfl
    · intro i
      rw [hnetwork, List.filterMap_append, ht.words i]
      rw [Lists.filterMap_singleton, wordFor_reading]
      split_ifs <;> rfl
  | failed out events hpc hp hs hnone hshort =>
    constructor
    · show sentOf (t.thread.trace ++ _) = _
      rw [sentOf_append, hnone, List.append_nil]
      exact ht.sent
    · intro i
      have hnothing : (networkOf events).filterMap (wordFor i) = [] :=
        List.filterMap_eq_nil_iff.mpr fun d hd => wordFor_short i d (hshort d hd)
      rw [hnetwork, List.filterMap_append, ht.words i, hnothing, List.append_nil]
  | log out data hpc =>
    constructor
    · exact (logPhase_trace o params out data t.thread).1.trans ht.sent
    · intro i
      rw [hnetwork, List.append_nil]
      exact ht.words i

theorem Sensor.start_sends (params : ClientThreadParams) : (Sensor.start params).Sends params where
  sent := rfl
  words i := by
    split <;> rfl

end SensorSimulator
