import SensorSimulator.ClientExits
import SensorSimulator.Server.Serve
import SensorSimulator.WholeSystem

/-!
# The whole system can come to its end

* `WholeSystem.Intact`    nothing has been lost on the network, no call that matters has failed, and
                          the server has not been asked to stop;
* `Intact.clients_exit`   the clients come to their exits;
* `Intact.delivered`      what is in flight reaches the server;
* `can_complete`          then the server, and what it has counted.
-/

namespace SensorSimulator

/-! ## the clients -/

namespace Client

variable {N : Nat} {p : ClientProcess}

theorem Move.failing {s s' : State N} {a : Action N} {ds : List (List UInt8)}
    (h : Move p s a s' ds) (ha : a ≠ .main .fail) : s'.main.failing = s.main.failing := by
  cases h with
  | main c s' hm =>
    have hc : c ≠ .fail := fun hc => ha (congrArg Action.main hc)
    rw [hm.failing, decide_eq_false hc, Bool.or_false]
  | call => rfl
  | ret => rfl

theorem MainPc.exited_shutDown {m : MainPc} (hx : m.isExited = true) (hf : m.failing = false) :
    m = .exited .shutDown := by
  cases m with
  | exited path =>
    cases path with
    | shutDown => rfl
    | _ => cases hf
  | _ => cases hx

end Client

/-- no main has a call fail, and no datagram is lost -/
def WholeAction.isSmooth {P N : Nat} : WholeAction P N → Bool
  | .client _ (.main .fail) | .drop _ => false
  | .server a => a.isSmooth
  | _ => true

namespace WholeSystem

variable {P N : Nat} {cfg : Server.Config} {clients : Fin P → ClientProcess}

/-! ## nothing is lost -/

structure Intact (s : WholeSystem P N) : Prop where
  clients : ∀ k, (s.clients k).main.failing = false
  dropped : s.network.dropped = []
  server : s.server.Unharmed
  running : s.server.keepRunning = true

theorem init_intact (clients : Fin P → ClientProcess) :
    (init clients : WholeSystem P N).Intact where
  clients _ := rfl
  dropped := rfl
  server := Server.init_unharmed N
  running := rfl

theorem Reachable.after {s s' : WholeSystem P N} {a : WholeAction P N}
    (h : Reachable cfg clients s) (hstep : step cfg clients s a = some s') :
    Reachable cfg clients s' := by
  obtain ⟨as, hrun⟩ := h
  exact ⟨as ++ [a], Runs.exec_append_some.mpr ⟨s, hrun, Runs.exec_single hstep⟩⟩

theorem Intact.serves {s : WholeSystem P N} (h : s.Intact) (hr : Reachable cfg clients s) :
    s.server.main.serves = true :=
  hr.sensorSystem.accounted.server.serves h.server h.running

theorem Reachable.running (hpos : ∀ k, 0 ≤ (clients k).packetsPerSensor) {s : WholeSystem P N}
    (hr : Reachable cfg clients s) (k : Fin P) : Client.Running (clients k) (s.clients k) where
  sound := (hr.clientSound hpos k).sound
  counting i := ((hr.clientSound hpos k).onCount i).counting

/-! ## the clients exit -/

/-- every client that has not exited can step, so all of them can come to their exits -/
theorem Intact.clients_exit (hpos : ∀ k, 0 ≤ (clients k).packetsPerSensor) {s : WholeSystem P N}
    (h : s.Intact) (hr : Reachable cfg clients s) :
    ∃ as t, (∀ a ∈ as, WholeAction.isSmooth a = true) ∧
      Runs.exec (step cfg clients) s as = some t ∧ (Reachable cfg clients t ∧ t.Intact) ∧
      ∀ k, (t.clients k).main = .exited .shutDown := by
  refine Runs.exec_reaches (μ := fun s => ∑ k, (s.clients k).toExit) ?_ s ⟨hr, h⟩
  rintro s ⟨hr, hs⟩ hnot
  obtain ⟨k, hk⟩ := not_forall.mp hnot
  have hx : (s.clients k).main.isExited = false := by
    by_contra hx
    exact hk (Client.MainPc.exited_shutDown (by simpa using hx) (hs.clients k))
  obtain ⟨a, u, hgets, hfail, hstep⟩ := (hr.running hpos k).progress hx
  have hlt := ((hr.running hpos k).toExit hstep).1 hgets
  obtain ⟨⟨u, ds⟩, hsend, rfl⟩ := Option.map_eq_some_iff.mp hstep
  let s' : WholeSystem P N :=
    { s with clients := Function.update s.clients k u, network := s.network.send ds }
  have hwhole : step cfg clients s (.client k a) = some s' :=
    Option.map_eq_some_iff.mpr ⟨(u, ds), hsend, rfl⟩
  have hsmooth : WholeAction.isSmooth (.client k a : WholeAction P N) = true := by
    cases a with
    | main c => cases c <;> first | rfl | exact absurd rfl hfail
    | thread i c => rfl
  have hintact : s'.Intact := by
    refine ⟨?_, hs.dropped, hs.server, hs.running⟩
    refine (Function.forall_update_iff s.clients fun _ u => u.main.failing = false).mpr
      ⟨?_, fun k _ => hs.clients k⟩
    exact ((Client.send_move hsend).failing hfail).trans (hs.clients k)
  refine ⟨.client k a, s', hsmooth, hwhole, ⟨hr.after hwhole, hintact⟩, ?_⟩
  have hsum := Places.sum_update Client.State.toExit s.clients k u
  show ∑ j, (Function.update s.clients k u j).toExit < ∑ j, (s.clients j).toExit
  replace hlt : u.toExit < (s.clients k).toExit := hlt
  omega

/-! ## what is in flight arrives -/

theorem Intact.delivered {s : WholeSystem P N} (h : s.Intact) (hr : Reachable cfg clients s) :
    ∃ as t, (∀ a ∈ as, WholeAction.isSmooth a = true) ∧
      Runs.exec (step cfg clients) s as = some t ∧
      (Reachable cfg clients t ∧ t.Intact ∧ t.clients = s.clients) ∧ t.network.inFlight = [] := by
  refine Runs.exec_reaches (J := fun t => Reachable cfg clients t ∧ t.Intact ∧ t.clients = s.clients)
    (μ := fun s => s.network.inFlight.length) ?_ s ⟨hr, h, rfl⟩
  rintro t ⟨hr, ht, hclients⟩ hflight
  obtain ⟨d, ds, hd⟩ := List.exists_cons_of_ne_nil hflight
  have hx := Server.MainPc.not_exited (ht.serves hr)
  let t' : WholeSystem P N :=
    { t with network := { t.network with inFlight := ds }
             server := { t.server with socket := t.server.socket ++ [d] } }
  have hstep : step cfg clients t (.deliver 0) = some t' := by
    simp [step, Network.deliver, hd, Server.step, hx, t']
  refine ⟨.deliver 0, t', rfl, hstep, ⟨hr.after hstep, ?_, hclients⟩, ?_⟩
  · exact ⟨ht.clients, ht.dropped, ⟨ht.server.calloc, ht.server.path⟩, ht.running⟩
  · show ds.length < t.network.inFlight.length
    rw [hd]
    exact Nat.lt_succ_self _

/-! ## the server exits -/

theorem Reachable.arrivedFor_le
    (hclients : ∀ k, (clients k).logsFilesFlag = false ∧ 0 ≤ (clients k).packetsPerSensor)
    (hN : N ≤ 4294967296) {s : WholeSystem P N} (h : Reachable cfg clients s) (i : Fin N) :
    (s.server.arrivedFor i).length ≤ asked clients := by
  have hs := h.sensorSystem.accounted
  have hle := Multiset.card_le_card (hs.arrivedFor_le i)
  rw [Multiset.coe_card, ← hs.sends_eq] at hle
  exact hle.trans (h.sends_le hclients hN i)

theorem exec_server {s : WholeSystem P N} {as : List (Server.Action N)} {t : Server.State N}
    (has : ∀ a ∈ as, Server.Action.isSmooth a = true)
    (h : Runs.exec (Server.step cfg) s.server as = some t) :
    Runs.exec (step cfg clients) s (as.map .server) = some { s with server := t } := by
  refine Runs.exec_map (f := fun server => { s with server := server }) ?_ h
  intro u a u' ha hstep
  cases a with
  | arrive d => exact absurd (has _ ha) Bool.false_ne_true
  | _ =>
    show (Server.step cfg u _).map _ = _
    rw [hstep]
    rfl

theorem Reachable.allReceived {s : WholeSystem P N} (hr : Reachable cfg clients s)
    (hflight : s.network.inFlight = []) (hdropped : s.network.dropped = [])
    (harrived : s.server.receivedDatagrams = s.server.arrived) : s.sensorSystem.AllReceived := by
  have hsent := hr.sensorSystem.accounted.datagrams
  have hnone : s.sensorSystem.network.contents = 0 := by
    show (↑s.network.inFlight : Multiset (List UInt8)) + ↑s.network.dropped = 0
    rw [hflight, hdropped]
    rfl
  unfold System.AllReceived
  rw [show s.sensorSystem.server.receivedDatagrams = _ from harrived]
  rw [hnone, zero_add] at hsent
  refine le_trans ?_ hsent.le
  exact Finset.sum_le_sum fun t _ => Multiset.coe_le.mpr (sentOf_sublist _).subperm

/-- **The system can always come to its end.**  In every state that is reached with nothing lost, no
call of a main failed and no stop asked for, clients and server can go on, without any of that
happening, to their exits with success; every worker has then counted what the clients were asked
for, and the report says so exactly when that is less than 2^31 in all.  The library's insert appends,
and its count and its remove can be relied on for as many elements as a sensor is asked for. -/
theorem can_complete (hcount : cfg.lib.CountsElements (asked clients))
    (hlib : cfg.lib.Blocking (asked clients)) (hoff : cfg.logsFilesFlag = false)
    (hclients : ∀ k, (clients k).logsFilesFlag = false ∧ 0 ≤ (clients k).packetsPerSensor)
    (hN : N ≤ 4294967296) {s : WholeSystem P N} (hr : Reachable cfg clients s) (hs : s.Intact) :
    ∃ as t, (∀ a ∈ as, WholeAction.isSmooth a = true) ∧
      Runs.exec (step cfg clients) s as = some t ∧
      (∀ k, (t.clients k).main = .exited .shutDown) ∧ t.server.main = .exited .shutDown ∧
      (∀ i, (t.server.lanes i).summed.length = asked clients) ∧
      (Server.ReportExact (fun _ : Fin N => asked clients) (fun i => (t.server.lanes i).sum)
        (Server.report t.server.threadParams) ↔
        N * asked clients < 2147483648) := by
  obtain ⟨as, s1, has, hrun1, ⟨hr1, hs1⟩, hexit⟩ :=
    hs.clients_exit (fun k => (hclients k).2) hr
  obtain ⟨bs, s2, hbs, hrun2, ⟨hr2, hs2, hsame⟩, hflight⟩ := hs1.delivered hr1
  have hle := hr2.arrivedFor_le hclients hN
  have hserving : Server.Serving cfg s2.server := ⟨hr2.sensorSystem.accounted.server, hs2.server,
    hs2.running, fun i => hcount.mono (hle i), fun i => hlib.mono (hle i)⟩
  obtain ⟨cs, server, hcs, hrun3, hunharmed, hpc, hreceived⟩ := hserving.completes
  have hserver : Runs.exec (step cfg clients) s2 (cs.map .server) =
      some { s2 with server := server } := exec_server hcs hrun3
  have hrun := Runs.exec_append_some.mpr
    ⟨s1, hrun1, Runs.exec_append_some.mpr ⟨s2, hrun2, hserver⟩⟩
  have hrt : Reachable cfg clients { s2 with server := server } := by
    obtain ⟨before, hbefore⟩ := hr
    exact ⟨before ++ _, Runs.exec_append_some.mpr ⟨s, hbefore, hrun⟩⟩
  have hexit' : ∀ k, (s2.clients k).main = .exited .shutDown := by
    rw [hsame]
    exact hexit
  have hended : ∀ i, (server.lanes i).pc = .ended := fun i =>
    hrt.sensorSystem.accounted.server.joined_ended (by
      show (i : Nat) < server.main.joined
      rw [hpc]
      exact i.isLt)
  have hall : System.Complete (sensorSystem { s2 with server := server }) := by
    refine ⟨hrt.allReceived hflight hs2.dropped ?_, hunharmed.calloc, hended⟩
    show server.receivedDatagrams = server.arrived
    rw [hreceived, Server.exec_arrived hrun3 hcs]
  have hcounts : server.CountsElements cfg.lib := fun i => hcount.mono
    ((hrt.sensorSystem.accounted.server.inserted_le_arrived i).trans
      (hrt.arrivedFor_le hclients hN i))
  have heach := hrt.counts_asked hclients hN hoff hcounts hexit' hall
  refine ⟨_, _, ?_, hrun, hexit', hpc, heach, hrt.reports_asked heach⟩
  intro a ha
  rcases List.mem_append.mp ha with h | h
  · exact has a h
  rcases List.mem_append.mp h with h | h
  · exact hbs a h
  · obtain ⟨b, hb, rfl⟩ := List.mem_map.mp h
    exact hcs b hb

/-- two clients, three sensors, at the start -/
def twoClients : Fin 2 → ClientProcess := fun _ =>
  { host := .little, logsFilesFlag := false, packetsPerSensor := 5, sensorRate := 10 }

theorem can_complete_twoClients : ∃ as t,
    Runs.exec (step Server.oneSensor twoClients) (init twoClients : WholeSystem 2 3) as = some t ∧
      ∀ i, (t.server.lanes i).summed.length = 10 := by
  have hr : Reachable (P := 2) (N := 3) Server.oneSensor twoClients (init twoClients) := ⟨[], rfl⟩
  obtain ⟨as, t, -, hrun, -, -, heach, -⟩ := can_complete
    (Server.queueLibrary_countsElements (by decide)) (Server.queueLibrary_blocking _) rfl
    (fun _ => ⟨rfl, Int.le.intro 5 rfl⟩) (by decide) hr (init_intact twoClients)
  exact ⟨as, t, hrun, heach⟩

end WholeSystem
end SensorSimulator
