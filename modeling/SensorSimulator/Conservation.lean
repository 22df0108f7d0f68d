import SensorSimulator.WholeSystem

/-!
# Every packet is somewhere

Where a packet for sensor `i` can be: still to be sent by a thread of a client, on the network, lost
there, in the server's socket or in main's hand, given up for want of memory, in the queue or in the
hand of worker `i`, or added to its sum.

* `Sensor.toSend`            what a thread has still to send;
* `Server.State.noMemory`    what main has given up, `Server.Lane.toAdd` what the worker has before it;
* `Reachable.received_words` what main has received is one of these or added;
* `packets_somewhere`        what is asked for is in one of these places, and what is sent in one
                             behind the first.
-/

namespace SensorSimulator

/-! ## what a thread has still to send -/

def Sensor.toSend (t : Sensor) : Nat :=
  t.thread.packetsPerThread.toNat - (if t.logging.isSome then 1 else 0)

theorem Sensor.OnCount.toSend {params : ClientThreadParams} {t : Sensor} (h : t.OnCount params)
    (hoff : params.logsFilesFlag = false) :
    params.packetsPerSensor.toNat = t.toSend + (sentOf t.thread.trace).length := by
  have hcount := h.count hoff
  have hnonneg := h.counting.nonneg
  have hpos := h.counting.pos
  unfold Sensor.toSend
  split at hcount
  · rename_i hlog
    have := hpos hlog
    rw [if_pos hlog]
    omega
  · rename_i hlog
    rw [if_neg hlog]
    omega

/-! ## what main has received -/

namespace Server

variable {N : Nat}

/-- the messages for sensor `i` for which there was no memory -/
def State.noMemory (s : State N) (i : Nat) : List UInt32 :=
  s.history.filterMap fun it => if it.callocFailed then it.datagram.bind (wordFor i) else none

/-- the block in hand whose record has not been added -/
def WorkerPc.unadded : WorkerPc → Option Addr
  | unlock b => b
  | log b | count b => some b
  | _ => none

/-- the words that the worker has still to add -/
def Lane.toAdd (cfg : Config) (heap : Addr → PackedData) (l : Lane) : List UInt32 :=
  (l.pc.unadded.toList ++ l.queue).map fun b => (recordIn cfg heap b).data

theorem datagram_word (n i : Nat) (hi : i < n) (it : Iteration) :
    (it.datagram.bind (wordFor i)).toList = ((accepted n i it).map (·.data)).toList ++
      (if it.callocFailed then it.datagram.bind (wordFor i) else none).toList := by
  cases hf : it.callocFailed with
  | false =>
    rw [accepted_data_of_calloc n i hi it hf]
    exact (List.append_nil _).symm
  | true =>
    have hcalloc : it.calloc = false := by
      unfold Iteration.callocFailed at hf
      split at hf
      · simpa using (Bool.and_eq_true_iff.mp hf).2
      · cases hf
    rw [accepted_data n i hi it, hcalloc]
    rfl

variable {cfg : Config} {s : State N}

/-- what main has received for sensor `i` has been inserted in its queue, or given up -/
theorem Reachable.received_words (h : Reachable cfg s) (i : Fin N) :
    (↑(s.receivedDatagrams.filterMap (wordFor i)) : Multiset UInt32) =
      ↑((s.lanes i).inserted.map (·.data)) + ↑(s.noMemory i) := by
  rw [h.inserted_eq i, List.map_filterMap, State.receivedDatagrams, List.filterMap_filterMap]
  exact Network.filterMap_split (datagram_word N i i.isLt) s.history

/-- what has been inserted has been added, or the worker has it before it -/
theorem Reachable.inserted_words (hoff : cfg.logsFilesFlag = false) (h : Reachable cfg s)
    (i : Fin N) : (s.lanes i).inserted.map (·.data) =
      (s.lanes i).summed ++ (s.lanes i).toAdd cfg s.heap := by
  have hheld : (s.lanes i).pc.held.toList =
      (s.lanes i).pc.added.toList ++ (s.lanes i).pc.unadded.toList := by
    cases (s.lanes i).pc with
    | unlock b => cases b <;> rfl
    | _ => rfl
  rw [h.summed hoff i, h.fifo i]
  unfold Lane.pending Lane.toAdd
  rw [hheld]
  simp [Function.comp_def]

end Server

namespace WholeSystem

variable {P N : Nat} {cfg : Server.Config} {clients : Fin P → ClientProcess}

/-! ## the whole system -/

def wordsFor (i : Nat) (ds : List (List UInt8)) : Multiset UInt32 := ↑(ds.filterMap (wordFor i))

def toSend (s : WholeSystem P N) (i : Fin N) : Nat := ∑ k, ((s.clients k).lanes i).sensor.toSend

/-- **Every packet is in one place.**  In every state that is reached, by any number of clients that
do not log, any network that delays, reorders and drops, and a server that does not log: what the
clients have been asked for is what they have still to send and what they have sent, and the words
sent for a sensor are, each as often, those on the network, those lost there, those that main has in
its hand or has still to receive, those it had no memory for, those that the worker has before it
and those it has added.  A library whose insert has no memory would be one more place: here it
appends. -/
theorem packets_somewhere (hoff : cfg.logsFilesFlag = false)
    (hclients : ∀ k, (clients k).logsFilesFlag = false ∧ 0 ≤ (clients k).packetsPerSensor)
    (hN : N ≤ 4294967296) {s : WholeSystem P N} (h : Reachable cfg clients s) (i : Fin N) :
    asked clients = s.toSend i + s.sensorSystem.sends clients i ∧
    s.sensorSystem.sentData clients i =
      (wordsFor i s.network.inFlight + wordsFor i s.network.dropped) +
      (wordsFor i (s.server.inHand ++ s.server.socket) + ↑(s.server.noMemory i)) +
      (↑((s.server.lanes i).toAdd cfg s.server.heap) + ↑(s.server.lanes i).summed) := by
  have hs := h.sensorSystem.accounted
  constructor
  · rw [sends_eq hN]
    unfold asked toSend
    rw [← Finset.sum_add_distrib]
    apply Finset.sum_congr rfl
    intro k _
    have hclient := h.clientSound (fun k => (hclients k).2) k
    exact (hclient.onCount i).toSend (hclients k).1
  · have hreceived := hs.server.received_words i
    rw [hs.server.inserted_words hoff i, ← Multiset.coe_add] at hreceived
    have hnetwork : s.sensorSystem.network.contents =
        ↑s.network.inFlight + ↑s.network.dropped := rfl
    rw [hs.sentData_eq i, hs.datagrams, hnetwork, Server.State.arrived, Multiset.filterMap_add,
      Multiset.filterMap_add, Multiset.filterMap_coe, Multiset.filterMap_coe,
      Multiset.filterMap_coe, List.filterMap_append, ← Multiset.coe_add, hreceived]
    unfold wordsFor
    show _ + (_ + _ + _ + _) = _
    ac_rfl

theorem packets_somewhere_onePacket : asked oneClient = 0 + 1 ∧
    afterOnePacket.sensorSystem.sentData oneClient 0 = ↑(afterOnePacket.server.lanes 0).summed := by
  have hreach : Reachable Server.oneSensor oneClient afterOnePacket :=
    ⟨onePacket, (Option.some_get _).symm⟩
  obtain ⟨hasked, hsent⟩ := packets_somewhere rfl (fun _ => ⟨rfl, Int.one_nonneg⟩) (by decide)
    hreach 0
  have hcounts : afterOnePacket.toSend 0 = 0 ∧ afterOnePacket.sensorSystem.sends oneClient 0 = 1 := by
    decide
  exact ⟨hasked.trans (congrArg₂ (· + ·) hcounts.1 hcounts.2), hsent.trans (by decide)⟩

end WholeSystem
end SensorSimulator
