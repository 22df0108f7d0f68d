import SensorSimulator.Averages
import SensorSimulator.ClientEnds
import SensorSimulator.Server.Report

/-!
# The whole system: the client processes, the network and the server process

* `WholeSystem`, `WholeSystem.step`   the parties with all their threads, main of the clients included;
* `WholeSystem.sensorSystem`, `sensorSimulation`   without it, a run is one of the sensors, the network
                              and the server;
* `Sensor.OnCount`            without a log, what a thread has sent and has still to send is what it was
                              asked for;
* `asked_reaches_report`      what the client processes are asked for is what the server reports.
-/

namespace SensorSimulator

/-! ## a thread that does not log -/

structure Sensor.OnCount (params : ClientThreadParams) (t : Sensor) : Prop where
  counting : t.Counting
  count : params.logsFilesFlag = false → ((sentOf t.thread.trace).length : Int) +
    t.thread.packetsPerThread = params.packetsPerSensor + (if t.logging.isSome then 1 else 0)

theorem Sensor.start_onCount (params : ClientThreadParams) (hpos : 0 ≤ params.packetsPerSensor) :
    (Sensor.start params).OnCount params where
  counting := ⟨hpos, fun h => Bool.noConfusion h⟩
  count _ := by
    show (0 : Int) + params.packetsPerSensor = params.packetsPerSensor + 0
    omega

theorem Sensor.step_onCount {o : ByteOrder} {params : ClientThreadParams} {t t' : Sensor}
    {c : SensorChoice} {ds : List (List UInt8)} (ht : t.OnCount params)
    (h : t.step o params c = some (t', ds)) : t'.OnCount params := by
  refine ⟨(Sensor.step_work ht.counting h).1, fun hoff => ?_⟩
  have hcount := ht.count hoff
  cases Sensor.step_move h with
  | sent out number hpc hp hs =>
    rw [hpc] at hcount
    have hlength : (sentOf (t.thread.trace ++
        [.sendto .success [wireBytes (reading params.id number)]])).length =
          (sentOf t.thread.trace).length + 1 := by
      rw [sentOf_append, List.length_append]
      rfl
    show ((sentOf (t.thread.trace ++ _)).length : Int) + t.thread.packetsPerThread = _ + 1
    rw [hlength]
    push_cast
    simp only [Option.isSome_none, Bool.false_eq_true, if_false] at hcount
    omega
  | failed out events hpc hp hs hnone hshort =>
    rw [hpc] at hcount
    show ((sentOf (t.thread.trace ++ events)).length : Int) + t.thread.packetsPerThread = _
    rw [sentOf_append, hnone, List.append_nil]
    exact hcount
  | log out data hpc =>
    rw [hpc] at hcount
    have hcounter := logPhase_counter o params out data t.thread
    rw [hoff] at hcounter
    show ((sentOf (logPhase o params out data t.thread).trace).length : Int) + _ = _ + 0
    rw [(logPhase_trace o params out data t.thread).1, hcounter]
    simp only [Option.isSome_some, Bool.not_false, Bool.true_or, if_true] at hcount ⊢
    omega

theorem Sensor.OnCount.sent_le {params : ClientThreadParams} {t : Sensor} (h : t.OnCount params)
    (hoff : params.logsFilesFlag = false) :
    ((sentOf t.thread.trace).length : Int) ≤ params.packetsPerSensor := by
  have hcount := h.count hoff
  have hnonneg := h.counting.nonneg
  have hpos := h.counting.pos
  split at hcount
  · rename_i hlog
    have := hpos hlog
    omega
  · omega

theorem Sensor.OnCount.sent_eq {params : ClientThreadParams} {t : Sensor} (h : t.OnCount params)
    (hoff : params.logsFilesFlag = false) (hlog : t.logging = none)
    (h0 : t.thread.packetsPerThread = 0) :
    ((sentOf t.thread.trace).length : Int) = params.packetsPerSensor := by
  have hcount := h.count hoff
  rw [hlog, h0] at hcount
  simpa using hcount

/-! ## the system -/

structure WholeSystem (P N : Nat) where
  clients : Fin P → Client.State N
  network : Network (List UInt8)
  server : Server.State N

inductive WholeAction (P N : Nat) where
  | client (k : Fin P) (a : Client.Action N)
  | deliver (k : Nat)
  | drop (k : Nat)
  | server (a : Server.Action N)

namespace WholeSystem

variable {P N : Nat}

def init (clients : Fin P → ClientProcess) : WholeSystem P N where
  clients k := Client.init (clients k) N
  network := Network.empty
  server := Server.init N

def step (cfg : Server.Config) (clients : Fin P → ClientProcess) (s : WholeSystem P N)
    (a : WholeAction P N) : Option (WholeSystem P N) :=
  match a with
  | .client k a =>
    (Client.send (clients k) (s.clients k) a).map fun r =>
      { s with clients := Function.update s.clients k r.1, network := s.network.send r.2 }
  | .deliver k =>
    (s.network.deliver k).bind fun r =>
      (Server.step cfg s.server (.arrive r.1)).map fun server =>
        { s with network := r.2, server := server }
  | .drop k => (s.network.drop k).map fun network => { s with network := network }
  | .server (.arrive _) => none
  | .server a => (Server.step cfg s.server a).map fun server => { s with server := server }

def Reachable (cfg : Server.Config) (clients : Fin P → ClientProcess) (s : WholeSystem P N) :
    Prop := ∃ as, Runs.exec (step cfg clients) (init clients) as = some s

/-! ## the sensors in it -/

/-- the sensors, the network and the server: what main of the clients does is left out -/
def sensorSystem (s : WholeSystem P N) : System P N where
  sensors t := ((s.clients t.1).lanes t.2).sensor
  network := s.network
  server := s.server

/-- what an action is for the sensors -/
def sensorLabel : WholeAction P N → List (SystemAction P N)
  | .client k (.thread i (.call c)) => [.sensor (k, i) c]
  | .client _ _ => []
  | .deliver k => [.deliver k]
  | .drop k => [.drop k]
  | .server a => [.server a]

theorem send_nil {δ : Type} (n : Network δ) : n.send [] = n := by
  unfold Network.send
  rw [List.append_nil]

theorem sensorSystem_same (s : WholeSystem P N) (k : Fin P) (u : Client.State N)
    (h : ∀ i, (u.lanes i).sensor = ((s.clients k).lanes i).sensor) :
    sensorSystem { s with clients := Function.update s.clients k u, network := s.network.send [] } =
      s.sensorSystem := by
  have hsensors : ∀ t : Fin P × Fin N, ((Function.update s.clients k u t.1).lanes t.2).sensor =
      ((s.clients t.1).lanes t.2).sensor := by
    intro t
    by_cases hk : t.1 = k
    · rw [hk, Function.update_self, h]
    · rw [Function.update_of_ne hk]
  unfold sensorSystem
  rw [send_nil]
  congr 1
  funext t
  exact hsensors t

theorem sensorSystem_call (s : WholeSystem P N) (k : Fin P) (i : Fin N) (t : Sensor)
    (ds : List (List UInt8)) :
    sensorSystem { s with
      clients := Function.update s.clients k ((s.clients k).onLane i (Client.Lane.call t))
      network := s.network.send ds } =
    { s.sensorSystem with
      sensors := Function.update s.sensorSystem.sensors (k, i) t, network := s.network.send ds } := by
  unfold sensorSystem
  congr 1
  funext ⟨k', i'⟩
  by_cases hk : k' = k
  · subst hk
    by_cases hi : i' = i
    · subst hi
      simp [Client.State.onLane, Client.Lane.call]
    · have hne : (k', i') ≠ (k', i) := fun h => hi (Prod.mk.inj h).2
      simp [Client.State.onLane, hi, hne]
  · have hne : (k', i') ≠ (k, i) := fun h => hk (Prod.mk.inj h).1
    simp [hk, hne]

theorem step_sensorSystem {cfg : Server.Config} {clients : Fin P → ClientProcess}
    {s s' : WholeSystem P N} {a : WholeAction P N} (h : step cfg clients s a = some s') :
    Runs.exec (System.step cfg clients) s.sensorSystem (sensorLabel a) = some s'.sensorSystem := by
  cases a with
  | client k a =>
    obtain ⟨⟨u, ds⟩, hsend, rfl⟩ := Option.map_eq_some_iff.mp h
    cases Client.send_move hsend with
    | main c u hm => exact congrArg some (sensorSystem_same s k u hm.sensors).symm
    | call i c t ds hpc hx ht =>
      apply Runs.exec_single
      rw [sensorSystem_call s k i t ds]
      show ((s.sensorSystem.sensors (k, i)).step _ _ c).map _ = _
      rw [show (s.sensorSystem.sensors (k, i)).step (clients k).host
        (System.params clients (k, i)) c = some (t, ds) from ht]
      rfl
    | ret i hpc hx hlog h0 =>
      refine congrArg some (sensorSystem_same s k _ ?_).symm
      exact (Function.forall_update_iff (s.clients k).lanes fun j l =>
        l.sensor = ((s.clients k).lanes j).sensor).mpr ⟨rfl, fun _ _ => rfl⟩
  | deliver k =>
    obtain ⟨r, hd, h⟩ := Option.bind_eq_some_iff.mp h
    obtain ⟨server, hserver, rfl⟩ := Option.map_eq_some_iff.mp h
    apply Runs.exec_single
    show (s.network.deliver k).bind _ = _
    rw [hd]
    show (Server.step cfg s.server (.arrive r.1)).map _ = _
    rw [hserver]
    rfl
  | drop k =>
    obtain ⟨network, hd, rfl⟩ := Option.map_eq_some_iff.mp h
    apply Runs.exec_single
    show (s.network.drop k).map _ = _
    rw [hd]
    rfl
  | server a =>
    cases a with
    | arrive d => cases h
    | _ =>
      obtain ⟨server, hserver, rfl⟩ := Option.map_eq_some_iff.mp h
      apply Runs.exec_single
      show (Server.step cfg s.server _).map _ = _
      rw [hserver]
      rfl

/-- the sensors are in a run of theirs -/
def sensorSimulation (P N : Nat) (cfg : Server.Config) (clients : Fin P → ClientProcess) :
    Runs.Simulation (step (N := N) cfg clients) (System.step (N := N) cfg clients) where
  inv _ := True
  within _ := True
  rel s t := s.sensorSystem = t
  label _ := sensorLabel
  inv_step _ _ _ _ _ := trivial
  within_step _ _ _ _ _ _ := trivial
  rel_step _ _ _ _ _ _ hr h := ⟨_, hr ▸ step_sensorSystem h, rfl⟩

theorem Reachable.sensorSystem {cfg : Server.Config} {clients : Fin P → ClientProcess}
    {s : WholeSystem P N} (h : Reachable cfg clients s) :
    System.Reachable cfg clients s.sensorSystem := by
  obtain ⟨as, hrun⟩ := h
  obtain ⟨t, hlabels, rfl⟩ := (sensorSimulation P N cfg clients).exec hrun trivial trivial rfl
  exact ⟨_, hlabels⟩

/-! ## the client processes in it -/

/-- each process is in a run of its own, and its threads are on their count -/
structure ClientSound (p : ClientProcess) (s : Client.State N) : Prop where
  sound : Client.Sound p s
  onCount : ∀ i, (s.lanes i).sensor.OnCount (p.threadParams i)

theorem ClientSound.after {p : ClientProcess} {s s' : Client.State N} {a : Client.Action N}
    {ds : List (List UInt8)} (hs : ClientSound p s) (h : Client.Move p s a s' ds) :
    ClientSound p s' := by
  refine ⟨h.sound hs.sound, fun j => ?_⟩
  cases h with
  | main c s' hm =>
    rw [hm.sensors j]
    exact hs.onCount j
  | call i c t ds hpc hx ht =>
    exact (Function.forall_update_iff s.lanes fun j l => l.sensor.OnCount (p.threadParams j)).mpr
      ⟨Sensor.step_onCount (hs.onCount i) ht, fun k _ => hs.onCount k⟩ j
  | ret i =>
    refine (Function.forall_update_iff s.lanes fun j l => l.sensor.OnCount (p.threadParams j)).mpr
      ⟨?_, fun k _ => hs.onCount k⟩ j
    exact hs.onCount i

theorem Reachable.clientSound {cfg : Server.Config} {clients : Fin P → ClientProcess}
    (hpos : ∀ k, 0 ≤ (clients k).packetsPerSensor) {s : WholeSystem P N}
    (h : Reachable cfg clients s) (k : Fin P) : ClientSound (clients k) (s.clients k) := by
  obtain ⟨as, hrun⟩ := h
  refine Runs.exec_invariant (I := fun s : WholeSystem P N =>
    ∀ k, ClientSound (clients k) (s.clients k)) ?_ hrun
    (fun k => ⟨Client.init_sound _, fun i => Sensor.start_onCount _ (hpos k)⟩) k
  intro s a s' hs hstep
  cases a with
  | client k a =>
    obtain ⟨⟨u, ds⟩, hsend, rfl⟩ := Option.map_eq_some_iff.mp hstep
    exact (Function.forall_update_iff s.clients fun k u => ClientSound (clients k) u).mpr
      ⟨(hs k).after (Client.send_move hsend), fun k _ => hs k⟩
  | deliver k =>
    obtain ⟨r, -, hstep⟩ := Option.bind_eq_some_iff.mp hstep
    obtain ⟨server, -, rfl⟩ := Option.map_eq_some_iff.mp hstep
    exact hs
  | drop k =>
    obtain ⟨network, -, rfl⟩ := Option.map_eq_some_iff.mp hstep
    exact hs
  | server a =>
    cases a with
    | arrive d => cases hstep
    | _ =>
      obtain ⟨server, -, rfl⟩ := Option.map_eq_some_iff.mp hstep
      exact hs

/-! ## from what is asked for to what is reported -/

/-- the packets that the processes are asked to send for each sensor -/
def asked (clients : Fin P → ClientProcess) : Nat := ∑ k, (clients k).packetsPerSensor.toNat

/-- the threads with id `i` are the threads `i` -/
theorem sends_eq (hN : N ≤ 4294967296) (clients : Fin P → ClientProcess) (s : WholeSystem P N)
    (i : Fin N) : s.sensorSystem.sends clients i =
      ∑ k, (sentOf ((s.clients k).lanes i).sensor.thread.trace).length := by
  have hid : ∀ t : Fin P × Fin N, (System.params clients t).id.toNat = i ↔ t.2 = i := by
    intro t
    have ht := t.2.isLt
    show (UInt32.ofNat t.2).toNat = i ↔ _
    rw [UInt32.toNat_ofNat', Fin.ext_iff]
    omega
  unfold System.sends
  rw [Finset.sum_filter, Fintype.sum_prod_type]
  apply Finset.sum_congr rfl
  intro k _
  simp only [hid, Finset.sum_ite_eq', Finset.mem_univ, if_true]
  rfl

theorem Reachable.sends_le {cfg : Server.Config} {clients : Fin P → ClientProcess}
    (hclients : ∀ k, (clients k).logsFilesFlag = false ∧ 0 ≤ (clients k).packetsPerSensor)
    (hN : N ≤ 4294967296) {s : WholeSystem P N} (h : Reachable cfg clients s) (i : Fin N) :
    s.sensorSystem.sends clients i ≤ asked clients := by
  rw [sends_eq hN]
  refine Finset.sum_le_sum fun k _ => ?_
  have hclient := h.clientSound (fun k => (hclients k).2) k
  have hsent := (hclient.onCount i).sent_le (hclients k).1
  show _ ≤ (clients k).packetsPerSensor.toNat
  replace hsent : _ ≤ (clients k).packetsPerSensor := hsent
  omega

/-- when all clients have exited with success and all has been received, each worker has counted what
was asked for -/
theorem Reachable.counts_asked {cfg : Server.Config} {clients : Fin P → ClientProcess}
    (hclients : ∀ k, (clients k).logsFilesFlag = false ∧ 0 ≤ (clients k).packetsPerSensor)
    (hN : N ≤ 4294967296) {s : WholeSystem P N} (h : Reachable cfg clients s)
    (hoff : cfg.logsFilesFlag = false) (hlib : s.server.CountsElements cfg.lib)
    (hexit : ∀ k, (s.clients k).main = .exited .shutDown)
    (hall : s.sensorSystem.Complete) (i : Fin N) :
    (s.server.lanes i).summed.length = asked clients := by
  have hlength : (s.server.lanes i).summed.length = s.sensorSystem.sends clients i :=
    (h.sensorSystem.accounted.mean_eq hoff hlib hall i).2
  rw [hlength, sends_eq hN]
  apply Finset.sum_congr rfl
  intro k _
  have hclient := h.clientSound (fun k => (hclients k).2) k
  have hlane := hclient.sound.lanes i
  rw [hexit k] at hlane
  obtain ⟨hlog, h0⟩ := hlane.returned (hlane.joined i.isLt)
  have hsent := (hclient.onCount i).sent_eq (hclients k).1 hlog h0
  replace hsent : _ = (clients k).packetsPerSensor := hsent
  omega

theorem Reachable.reports_asked {cfg : Server.Config} {clients : Fin P → ClientProcess}
    {s : WholeSystem P N} (h : Reachable cfg clients s)
    (heach : ∀ i, (s.server.lanes i).summed.length = asked clients) :
    Server.ReportExact (fun _ : Fin N => asked clients) (fun i => (s.server.lanes i).sum)
        (Server.report s.server.threadParams) ↔
      N * asked clients < 2147483648 := by
  have hreport := h.sensorSystem.accounted.server.reportExact_iff
  rw [show (fun i => (s.sensorSystem.server.lanes i).summed.length) = fun _ : Fin N => asked clients
    from funext heach, Fin.sum_const, smul_eq_mul] at hreport
  exact hreport

/-- **What the clients are asked for is what the server reports.**  Any number of client processes
that do not log, all interleavings of their mains and threads with the server's, any network that
delays, reorders and drops: no worker ever counts more messages than have been asked for.  If every
client has exited with success, all that was sent has been received, no `calloc` for a message has
failed and the workers of a server that does not log have ended, each has counted as many, and the
report says so exactly when they are less than 2^31 in all.  The library's insert appends, and it can
count what has been inserted. -/
theorem asked_reaches_report {cfg : Server.Config} {clients : Fin P → ClientProcess}
    (hclients : ∀ k, (clients k).logsFilesFlag = false ∧ 0 ≤ (clients k).packetsPerSensor)
    (hN : N ≤ 4294967296) {s : WholeSystem P N} (h : Reachable cfg clients s) :
    (∀ i, (s.server.lanes i).summed.length ≤ asked clients) ∧
    (cfg.logsFilesFlag = false → s.server.CountsElements cfg.lib →
      (∀ k, (s.clients k).main = .exited .shutDown) →
      s.sensorSystem.Complete → (∀ i, (s.server.lanes i).summed.length = asked clients) ∧
      (Server.ReportExact (fun _ : Fin N => asked clients) (fun i => (s.server.lanes i).sum)
        (Server.report s.server.threadParams) ↔
        N * asked clients < 2147483648)) := by
  have hs := h.sensorSystem.accounted
  refine ⟨fun i => ?_, fun hoff hlib hexit hall => ?_⟩
  · have hle : (s.server.lanes i).summed.length ≤ s.sensorSystem.sends clients i := by
      rw [hs.sends_eq]
      exact Multiset.card_le_card (hs.summed_le i)
    exact hle.trans (h.sends_le hclients hN i)
  · have heach := h.counts_asked hclients hN hoff hlib hexit hall
    exact ⟨heach, h.reports_asked heach⟩

/-- one process is asked for one packet; its exit, and the server's run of one message -/
def onePacket : List (WholeAction 1 1) :=
  Client.onePacket.map (.client (Fin.last 0)) ++
    Server.oneMessage.map fun
      | .arrive _ => .deliver 0
      | a => .server a

def oneClient : Fin 1 → ClientProcess := fun _ => Client.oneSensor

def afterOnePacket : WholeSystem 1 1 :=
  (Runs.exec (step Server.oneSensor oneClient) (init oneClient) onePacket).get (by decide)

theorem asked_reaches_report_onePacket :
    Server.ReportExact (fun _ : Fin 1 => 1) (fun i => (afterOnePacket.server.lanes i).sum)
      (Server.report afterOnePacket.server.threadParams) := by
  have hreach : Reachable Server.oneSensor oneClient afterOnePacket :=
    ⟨onePacket, (Option.some_get _).symm⟩
  have hall : afterOnePacket.sensorSystem.Complete :=
    ⟨by unfold System.AllReceived; decide, by decide, by decide⟩
  obtain ⟨-, hreport⟩ := asked_reaches_report (fun _ => ⟨rfl, Int.one_nonneg⟩) (by decide) hreach
  exact (hreport rfl (Server.State.countsElements (by decide)) (by decide) hall).2.mpr (by decide)

end WholeSystem
end SensorSimulator
