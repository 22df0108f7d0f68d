import SensorSimulator.Sensor
import SensorSimulator.Server.Refine
import SensorSimulator.Server.Totals
import SensorSimulator.Lib.Network

/-!
# From the sensors to the totals

Any number of client processes with a thread for each of `N` sensors, a network that delays,
reorders and drops, and one server process with logging off; their steps come in any order.

* `System`, `System.step`   the parties and the datagrams between them;
* `System.Accounted`        the invariant: what the threads have put on the network is what is in
                            flight, dropped, or has arrived at the server; each thread runs
                            `handleServer`, and the server is in one of its own runs;
* `readings_reach_totals`   every word a worker adds to its sum is one that was packed and sent for
                            its sensor, and no word more than once; all of them if all arrive.
-/

namespace SensorSimulator

/-- a client process: its host and its arguments -/
structure ClientProcess where
  host : ByteOrder
  logsFilesFlag : Bool
  packetsPerSensor : Int
  sensorRate : Nat

/-- what `init_client_threads` gives to thread `i` -/
def ClientProcess.threadParams (p : ClientProcess) (i : Nat) : ClientThreadParams where
  id := UInt32.ofNat i
  logsFilesFlag := p.logsFilesFlag
  packetsPerSensor := p.packetsPerSensor
  sensorRate := p.sensorRate

structure System (P N : Nat) where
  sensors : Fin P × Fin N → Sensor
  network : Network (List UInt8)
  server : Server.State N

inductive SystemAction (P N : Nat) where
  | sensor (t : Fin P × Fin N) (c : SensorChoice)
  | deliver (k : Nat)
  | drop (k : Nat)
  | server (a : Server.Action N)

namespace System

variable {P N : Nat}

/-- thread `t.2` of process `t.1` -/
def params (clients : Fin P → ClientProcess) (t : Fin P × Fin N) : ClientThreadParams :=
  (clients t.1).threadParams t.2

def init (clients : Fin P → ClientProcess) : System P N where
  sensors t := Sensor.start (params clients t)
  network := Network.empty
  server := Server.init N

/-- a datagram arrives at the server when the network delivers it, and in no other way -/
def step (cfg : Server.Config) (clients : Fin P → ClientProcess) (s : System P N)
    (a : SystemAction P N) : Option (System P N) :=
  match a with
  | .sensor t c =>
    ((s.sensors t).step (clients t.1).host (params clients t) c).map fun r =>
      { s with sensors := Function.update s.sensors t r.1, network := s.network.send r.2 }
  | .deliver k =>
    (s.network.deliver k).bind fun r =>
      (Server.step cfg s.server (.arrive r.1)).map fun server =>
        { s with network := r.2, server := server }
  | .drop k => (s.network.drop k).map fun network => { s with network := network }
  | .server (.arrive _) => none
  | .server a => (Server.step cfg s.server a).map fun server => { s with server := server }

def Reachable (cfg : Server.Config) (clients : Fin P → ClientProcess) (s : System P N) : Prop :=
  ∃ as, Runs.exec (step cfg clients) (init clients) as = some s

/-! ## the accounts -/

/-- all that the threads have put on the network -/
def sent (s : System P N) : Multiset (List UInt8) :=
  ∑ t, ↑(networkOf (s.sensors t).thread.trace)

/-- the words that the threads with id `i` have packed and sent with a successful `sendto` -/
def sentData (clients : Fin P → ClientProcess) (s : System P N) (i : Nat) : Multiset UInt32 :=
  ∑ t with (params clients t).id.toNat = i, ↑(s.sensors t).sentData

/-- the number of their successful sends -/
def sends (clients : Fin P → ClientProcess) (s : System P N) (i : Nat) : Nat :=
  ∑ t with (params clients t).id.toNat = i, (sentOf (s.sensors t).thread.trace).length

/-- every message sent has been received by the loop of the server -/
def AllReceived (s : System P N) : Prop :=
  ∑ t, (↑(sentOf (s.sensors t).thread.trace) : Multiset (List UInt8)) ≤
    ↑s.server.receivedDatagrams

structure Accounted (cfg : Server.Config) (clients : Fin P → ClientProcess) (s : System P N) :
    Prop where
  server : Server.Reachable cfg s.server
  datagrams : s.sent = s.network.contents + ↑s.server.arrived
  sends : ∀ t, (s.sensors t).Sends (params clients t)
  loops : ∀ t, (s.sensors t).InLoop (clients t.1).host (params clients t)

theorem init_accounted (cfg : Server.Config) (clients : Fin P → ClientProcess) :
    (init clients : System P N).Accounted cfg clients where
  server := ⟨[], rfl⟩
  datagrams := Finset.sum_eq_zero fun _ _ => rfl
  sends _ := Sensor.start_sends _
  loops _ := Sensor.start_inLoop _ _

theorem Accounted.sensor {cfg : Server.Config} {clients : Fin P → ClientProcess} {s : System P N}
    (hs : s.Accounted cfg clients) (t : Fin P × Fin N) {t' : Sensor} {ds : List (List UInt8)}
    (h : SensorMove (clients t.1).host (params clients t) (s.sensors t) t' ds) :
    Accounted cfg clients
      { s with sensors := Function.update s.sensors t t', network := s.network.send ds } where
  server := hs.server
  datagrams := by
    have hsum := Places.sum_update_add
      (fun x : Sensor => (↑(networkOf x.thread.trace) : Multiset (List UInt8)))
      s.sensors t t' ↑ds (by rw [h.network, Multiset.coe_add])
    show ∑ j, _ = (s.network.send ds).contents + ↑s.server.arrived
    rw [hsum, Network.contents_send, add_right_comm]
    exact congrArg (· + _) hs.datagrams
  sends := (Function.forall_update_iff s.sensors fun j x => x.Sends (params clients j)).mpr
    ⟨h.sends (hs.sends t), fun j _ => hs.sends j⟩
  loops := (Function.forall_update_iff s.sensors
      fun j x => x.InLoop (clients j.1).host (params clients j)).mpr
    ⟨h.inLoop (hs.loops t), fun j _ => hs.loops j⟩

theorem Accounted.ownStep {cfg : Server.Config} {clients : Fin P → ClientProcess} {s : System P N}
    (hs : s.Accounted cfg clients) {a : Server.Action N} {server : Server.State N}
    (h : Server.step cfg s.server a = some server) (ha : server.arrived = s.server.arrived) :
    Accounted cfg clients { s with server := server } where
  server := hs.server.after h
  datagrams := hs.datagrams.trans (by rw [← ha])
  sends := hs.sends
  loops := hs.loops

theorem Accounted.step {cfg : Server.Config} {clients : Fin P → ClientProcess}
    {s s' : System P N} {a : SystemAction P N} (hs : s.Accounted cfg clients)
    (h : step cfg clients s a = some s') : s'.Accounted cfg clients := by
  cases a with
  | sensor t c =>
    obtain ⟨⟨t', ds⟩, ht, rfl⟩ := Option.map_eq_some_iff.mp h
    exact hs.sensor t (Sensor.step_move ht)
  | deliver k =>
    obtain ⟨⟨d, network⟩, hd, h⟩ := Option.bind_eq_some_iff.mp h
    obtain ⟨server, hserver, rfl⟩ := Option.map_eq_some_iff.mp h
    refine ⟨hs.server.after hserver, ?_, hs.sends, hs.loops⟩
    have harr : server.arrived = s.server.arrived ++ [d] :=
      (Server.step_move hserver).arrived
    show s.sent = network.contents + ↑server.arrived
    rw [hs.datagrams, ← Network.contents_deliver hd, harr, ← Multiset.coe_add,
      Multiset.coe_singleton, add_assoc, add_comm ({d} : Multiset (List UInt8))]
  | drop k =>
    obtain ⟨network, hd, rfl⟩ := Option.map_eq_some_iff.mp h
    refine ⟨hs.server, ?_, hs.sends, hs.loops⟩
    show s.sent = network.contents + _
    rw [Network.contents_drop hd]
    exact hs.datagrams
  | server a =>
    cases a with
    | arrive d => cases h
    | _ =>
      obtain ⟨server, hserver, rfl⟩ := Option.map_eq_some_iff.mp h
      exact hs.ownStep hserver ((Server.step_move hserver).arrived.trans (List.append_nil _))

theorem Reachable.accounted {cfg : Server.Config} {clients : Fin P → ClientProcess}
    {s : System P N} (h : Reachable cfg clients s) : s.Accounted cfg clients := by
  obtain ⟨as, hrun⟩ := h
  exact Runs.exec_invariant (fun _ _ _ hs hstep => hs.step hstep) hrun (init_accounted cfg clients)

/-- a client thread that has returned to the top of its loop with its counter down has run
`handleServer` -/
theorem Reachable.handleServer_returned {cfg : Server.Config} {clients : Fin P → ClientProcess}
    {s : System P N} (h : Reachable cfg clients s) (t : Fin P × Fin N)
    (hpc : (s.sensors t).logging = none) (h0 : (s.sensors t).thread.packetsPerThread = 0) :
    ∃ outs, handleServer (clients t.1).host (params clients t) (.start (params clients t) []) outs =
      some (s.sensors t).thread := (h.accounted.loops t).returned hpc h0

/-! ## the words -/

theorem Accounted.sentData_eq {cfg : Server.Config} {clients : Fin P → ClientProcess}
    {s : System P N} (hs : s.Accounted cfg clients) (i : Nat) :
    s.sentData clients i = s.sent.filterMap (wordFor i) := by
  unfold sentData sent
  rw [Network.filterMap_sum, Finset.sum_filter]
  apply Finset.sum_congr rfl
  intro t _
  rw [Multiset.filterMap_coe, (hs.sends t).words i]
  split_ifs <;> rfl

theorem Accounted.sentData_eq_sentOf {cfg : Server.Config} {clients : Fin P → ClientProcess}
    {s : System P N} (hs : s.Accounted cfg clients) (i : Nat) :
    s.sentData clients i = (∑ t, (↑(sentOf (s.sensors t).thread.trace) :
      Multiset (List UInt8))).filterMap (wordFor i) := by
  unfold sentData
  rw [Network.filterMap_sum, Finset.sum_filter]
  apply Finset.sum_congr rfl
  intro t _
  rw [Multiset.filterMap_coe, (hs.sends t).sent, List.filterMap_map]
  simp only [Function.comp_def, wordFor_reading]
  split_ifs
  · rw [List.filterMap_some]
  · rw [List.filterMap_none]
    rfl

theorem Accounted.sends_eq {cfg : Server.Config} {clients : Fin P → ClientProcess}
    {s : System P N} (hs : s.Accounted cfg clients) (i : Nat) :
    s.sends clients i = (s.sentData clients i).card := by
  unfold System.sends sentData
  rw [Multiset.card_sum]
  apply Finset.sum_congr rfl
  intro t _
  rw [(hs.sends t).sent, List.length_map, Multiset.coe_card]

theorem Accounted.arrivedFor_le {cfg : Server.Config} {clients : Fin P → ClientProcess}
    {s : System P N} (hs : s.Accounted cfg clients) (i : Nat) :
    (↑(s.server.arrivedFor i) : Multiset UInt32) ≤ s.sentData clients i := by
  rw [hs.sentData_eq, hs.datagrams, Server.State.arrivedFor, ← Multiset.filterMap_coe]
  exact Multiset.filterMap_le_filterMap _ (Multiset.le_add_left _ _)

theorem Accounted.received_le {cfg : Server.Config} {clients : Fin P → ClientProcess}
    {s : System P N} (hs : s.Accounted cfg clients) (i : Nat) :
    (↑(s.server.receivedDatagrams.filterMap (wordFor i)) : Multiset UInt32) ≤
      s.sentData clients i := by
  refine le_trans (Multiset.coe_le.mpr ?_) (hs.arrivedFor_le i)
  exact ((List.sublist_append_left _ _).filterMap _).subperm

/-- **From the sensors to the totals.**  In every reachable state the words worker `i` has added to
its sum are, as a multiset, among those that threads with id `i` have packed and sent.  If every
message sent has been received and no `calloc` has failed, then once the worker has ended they are
all of them, and its counter is the number of the sends modulo 2^32. -/
theorem readings_reach_totals {cfg : Server.Config} (hoff : cfg.logsFilesFlag = false)
    {clients : Fin P → ClientProcess} {s : System P N} (h : Reachable cfg clients s) (i : Fin N) :
    (↑(s.server.lanes i).summed : Multiset UInt32) ≤ s.sentData clients i ∧
    (cfg.lib.CountsElements (s.server.lanes i).inserted.length → s.AllReceived →
      (∀ it ∈ s.server.history, it.callocFailed = false) → (s.server.lanes i).pc = .ended →
      (↑(s.server.lanes i).summed : Multiset UInt32) = s.sentData clients i ∧
      (s.server.lanes i).counter = UInt32.ofNat (s.sends clients i)) := by
  have hs := h.accounted
  have hinserted : (↑(s.server.lanes i).summed : Multiset UInt32) ≤ s.sentData clients i := by
    refine le_trans (Multiset.coe_le.mpr ?_) (hs.received_le i)
    exact ((hs.server.summed_prefix hoff i).sublist.trans (hs.server.inserted_sublist i)).subperm
  refine ⟨hinserted, ?_⟩
  intro hlib hall hcalloc hended
  have hsummed : (s.server.lanes i).summed = s.server.receivedDatagrams.filterMap (wordFor i) :=
    (hs.server.summed_all hoff i hlib hended).trans (hs.server.inserted_all hcalloc i)
  have heq : (↑(s.server.lanes i).summed : Multiset UInt32) = s.sentData clients i := by
    apply le_antisymm hinserted
    rw [hs.sentData_eq_sentOf, hsummed, ← Multiset.filterMap_coe]
    exact Multiset.filterMap_le_filterMap _ hall
  refine ⟨heq, ?_⟩
  rw [(hs.server.counter_sum i).1, hs.sends_eq, ← heq, Multiset.coe_card]

/-- one process with one sensor, which is asked for one packet -/
def oneClient : Fin 1 → ClientProcess := fun _ =>
  { host := .little, logsFilesFlag := false, packetsPerSensor := 1, sensorRate := 10000 }

/-- the sensor sends the word 7 and ends; the rest is the server's run of one message -/
def oneReading : List (SystemAction 1 1) :=
  let t : Fin 1 × Fin 1 := (Fin.last 0, Fin.last 0)
  let noLog : LogOutcome := ⟨⟨false, false, .error ""⟩, false, false⟩
  [.sensor t (.send ⟨some 7, .success, .sent (Fin.last _)⟩), .sensor t (.log noLog)] ++
    Server.oneMessage.map fun
      | .arrive _ => .deliver 0
      | a => .server a

def afterOneReading : System 1 1 :=
  (Runs.exec (step Server.oneSensor oneClient) (init oneClient) oneReading).get (by decide)

theorem reachable_afterOneReading : Reachable Server.oneSensor oneClient afterOneReading :=
  ⟨oneReading, (Option.some_get _).symm⟩

/-- the one word sent has been added and counted -/
theorem readings_reach_totals_oneReading :
    afterOneReading.sentData oneClient 0 = {7} ∧
    (↑(afterOneReading.server.lanes 0).summed : Multiset UInt32) =
      afterOneReading.sentData oneClient 0 ∧
    (afterOneReading.server.lanes 0).counter = UInt32.ofNat (afterOneReading.sends oneClient 0) :=
  ⟨by decide, (readings_reach_totals rfl reachable_afterOneReading 0).2
    (Server.queueLibrary_countsElements (by decide)) (by unfold AllReceived; decide) (by decide)
    (by decide)⟩

end System
end SensorSimulator
