import Mathlib.Data.Bool.Count
import SensorSimulator.EndToEnd
import SensorSimulator.Server.Sums

/-!
# From the sensors to the averages

The system of `EndToEnd`, with sensors that get their words from `generate_random_float`, and with
logging on or off.

* `System.RandomWords`       the sends of a run pack what `generate_random_float` made;
* `System.serverRun`         what the run is for the server, one of its own runs;
* `averages_of_sensors`      the averages that the server prints are those of what was sent, up to the
                             roundings;
* `sends_counted_or_failed`  with logging on, what is sent is counted or has its log call failed.
-/

namespace SensorSimulator

variable {P N : Nat}

theorem Sensor.step_sentData {o : ByteOrder} {params : ClientThreadParams} {t t' : Sensor}
    {c : SensorChoice} {ds : List (List UInt8)} (h : t.step o params c = some (t', ds)) :
    t'.sentData = t.sentData ++ (match c with | .send out => out.number | .log _ => none).toList := by
  unfold Sensor.step at h
  split at h
  · rename_i out hpc
    split at h
    · cases h
    · have hsend := sendPhase_spec o params out
      cases hn : out.number with
      | some number =>
        rw [hn] at hsend
        rw [show sendPhase o params out = _ from hsend] at h
        cases h
        dsimp only
        rw [hn, Option.map_some, PackedData.view_ofRecord]
        rfl
      | none =>
        rw [hn] at hsend
        obtain ⟨events, he, -⟩ := hsend
        rw [he] at h
        cases h
        dsimp only
        rw [hn]
        rfl
  · cases h
    exact (List.append_nil _).symm
  · cases h

theorem SendOutcome.random_of_number {out : SendOutcome} {word : UInt32}
    (h : out.number = some word) : out.random = some word := by
  unfold SendOutcome.number at h
  split at h
  · exact h
  · cases h

/-- the word of this send, if there is one, has been made by `generate_random_float` -/
def SystemAction.Random : SystemAction P N → Prop
  | .sensor _ (.send out) => ∀ word, out.random = some word →
      ∃ randMax rand, Rand randMax rand ∧ randomWord randMax rand = some word
  | _ => True

namespace System
open Floats Server

/-! ## the server's share of a run -/

/-- what an action of the system is for the server -/
def serverLabel (s : System P N) : SystemAction P N → List (Server.Action N)
  | .server a => [a]
  | .deliver k => ((s.network.deliver k).map fun r => .arrive r.1).toList
  | _ => []

theorem step_server {cfg : Server.Config} {clients : Fin P → ClientProcess} {s s' : System P N}
    {a : SystemAction P N} (h : step cfg clients s a = some s') :
    Runs.exec (Server.step cfg) s.server (serverLabel s a) = some s'.server := by
  cases a with
  | sensor t c =>
    obtain ⟨r, -, rfl⟩ := Option.map_eq_some_iff.mp h
    rfl
  | deliver k =>
    obtain ⟨r, hd, h⟩ := Option.bind_eq_some_iff.mp h
    obtain ⟨server, hserver, rfl⟩ := Option.map_eq_some_iff.mp h
    dsimp only [serverLabel]
    rw [hd]
    exact Runs.exec_single hserver
  | drop k =>
    obtain ⟨network, -, rfl⟩ := Option.map_eq_some_iff.mp h
    rfl
  | server a =>
    cases a with
    | arrive d => cases h
    | _ =>
      obtain ⟨server, hserver, rfl⟩ := Option.map_eq_some_iff.mp h
      exact Runs.exec_single hserver

/-- the server is in a run of its own -/
def serverSimulation (P N : Nat) (cfg : Server.Config) (clients : Fin P → ClientProcess) :
    Runs.Simulation (step (N := N) cfg clients) (Server.step (N := N) cfg) where
  inv _ := True
  within _ := True
  rel s t := s.server = t
  label := serverLabel
  inv_step _ _ _ _ _ := trivial
  within_step _ _ _ _ _ _ := trivial
  rel_step _ _ _ _ _ _ hr h := ⟨_, hr ▸ step_server h, rfl⟩

def serverRun (cfg : Server.Config) (clients : Fin P → ClientProcess)
    (as : List (SystemAction P N)) : List (Server.Action N) :=
  Runs.labels (step cfg clients) serverLabel (init clients) as

theorem exec_serverRun {cfg : Server.Config} {clients : Fin P → ClientProcess} {s : System P N}
    {as : List (SystemAction P N)} (h : Runs.exec (step cfg clients) (init clients) as = some s) :
    Runs.exec (Server.step cfg) (Server.init N) (serverRun cfg clients as) = some s.server := by
  obtain ⟨t, hrun, rfl⟩ := (serverSimulation P N cfg clients).exec h trivial trivial rfl
  exact hrun

def logResult (i : Fin N) : SystemAction P N → Option Bool
  | .server a => Server.logResult i a
  | _ => none

theorem logResults_serverRun {cfg : Server.Config} {clients : Fin P → ClientProcess}
    {s : System P N} {as : List (SystemAction P N)} (i : Fin N)
    (h : Runs.exec (step cfg clients) (init clients) as = some s) :
    (serverRun cfg clients as).filterMap (Server.logResult i) = as.filterMap (logResult i) := by
  unfold serverRun
  refine Runs.labels_filterMap (J := fun _ => True) (g := logResult i)
    (fun _ _ _ _ _ => trivial) ?_ h trivial
  intro s a s' _ hstep
  cases a with
  | server a => exact Lists.filterMap_singleton _ _
  | deliver k =>
    show ((s.network.deliver k).map _).toList.filterMap _ = _
    cases s.network.deliver k <;> rfl
  | _ => rfl

/-! ## what is counted has been sent -/

theorem Accounted.summed_le {cfg : Server.Config} {clients : Fin P → ClientProcess}
    {s : System P N} (hs : s.Accounted cfg clients) (i : Fin N) :
    (↑(s.server.lanes i).summed : Multiset UInt32) ≤ s.sentData clients i := by
  refine le_trans (Multiset.coe_le.mpr ?_) (hs.received_le i)
  exact ((hs.server.summed_sublist i).trans (hs.server.inserted_sublist i)).subperm

theorem Accounted.inserted_eq {cfg : Server.Config} {clients : Fin P → ClientProcess}
    {s : System P N} (hs : s.Accounted cfg clients) (hall : s.AllReceived)
    (hcalloc : ∀ it ∈ s.server.history, it.callocFailed = false) (i : Fin N) :
    (↑((s.server.lanes i).inserted.map (·.data)) : Multiset UInt32) = s.sentData clients i := by
  rw [hs.server.inserted_all hcalloc i]
  apply le_antisymm (hs.received_le i)
  rw [hs.sentData_eq_sentOf, ← Multiset.filterMap_coe]
  exact Multiset.filterMap_le_filterMap _ hall

/-- **With logging on, a reading is counted or its log call has failed.**  In every run the words that
worker `i` adds are among those sent for sensor `i`.  If every message sent has been received and no
`calloc` has failed, then once the worker has ended the number of the sends is the number of the
words added and of the log calls that did not get the time. -/
theorem sends_counted_or_failed {cfg : Server.Config} (hon : cfg.logsFilesFlag = true)
    {clients : Fin P → ClientProcess} {s : System P N}
    {as : List (SystemAction P N)} (h : Runs.exec (step cfg clients) (init clients) as = some s)
    (i : Fin N) :
    (↑(s.server.lanes i).summed : Multiset UInt32) ≤ s.sentData clients i ∧
    (s.server.CountsElements cfg.lib → s.AllReceived →
      (∀ it ∈ s.server.history, it.callocFailed = false) → (s.server.lanes i).pc = .ended →
      s.sends clients i =
        (s.server.lanes i).summed.length + (as.filterMap (logResult i)).count false) := by
  have hs : s.Accounted cfg clients := Reachable.accounted ⟨as, h⟩
  refine ⟨hs.summed_le i, fun hlib hall hcalloc hended => ?_⟩
  have hrun := exec_serverRun h
  have hleft : (s.server.lanes i).pc.left = true := by
    rw [hended]
    rfl
  obtain ⟨hcounted, hlength⟩ := counted_of_verdicts hrun hlib i
  rw [verdicts_of_logs hon i hrun, logResults_serverRun i h] at hcounted hlength
  have hsummed : (s.server.lanes i).summed.length = (as.filterMap (logResult i)).count true := by
    have hledger : ((s.server.lanes i).ledger cfg s.server.heap).counted =
        (s.server.lanes i).summed := by
      simp [Lane.ledger, hended, WorkerPc.toCount]
    rw [← hledger, hcounted, List.length_map, Lists.length_filter_zip (hlength hleft).le]
  have hsent : s.sends clients i = (s.server.history.filterMap (accepted N i)).length := by
    rw [hs.sends_eq, ← hs.inserted_eq hall hcalloc i, Multiset.coe_card, List.length_map,
      hs.server.inserted_eq i]
  rw [hsent, ← hlength hleft, hsummed, List.count_true_add_count_false]

/-- one sensor sends a word, the datagram is delivered, and the server goes on as in `server` -/
def oneSend (word : UInt32) (server : List (Server.Action 1)) : List (SystemAction 1 1) :=
  let t : Fin 1 × Fin 1 := (Fin.last 0, Fin.last 0)
  [.sensor t (.send ⟨some word, .success, .sent (Fin.last _)⟩), .sensor t (.log clockFails)] ++
    server.map fun
      | .arrive _ => .deliver 0
      | a => .server a
where
  clockFails : LogOutcome := ⟨⟨false, false, .error ""⟩, false, false⟩

/-- the server cannot get the time for its log -/
def sendNotLogged : List (SystemAction 1 1) :=
  oneSend 7 (Server.oneMessage.take 23 ++
    .worker (Fin.last 0) (.log oneSend.clockFails) :: Server.oneMessage.drop 24)

def afterSendNotLogged : System 1 1 :=
  (Runs.exec (step Server.oneSensorLogged oneClient) (init oneClient) sendNotLogged).get (by decide)

theorem sends_counted_or_failed_sendNotLogged :
    (afterSendNotLogged.server.lanes 0).summed = [] ∧
    afterSendNotLogged.sends oneClient 0 = 0 + (sendNotLogged.filterMap (logResult 0)).count false := by
  have hrun : Runs.exec (step Server.oneSensorLogged oneClient) (init oneClient) sendNotLogged =
      some afterSendNotLogged := (Option.some_get _).symm
  exact ⟨by decide, (sends_counted_or_failed rfl hrun 0).2
    (State.countsElements (by decide)) (by unfold AllReceived; decide) (by decide) (by decide)⟩

/-! ## the words are readings -/

/-- the sends of the run pack what `generate_random_float` has made -/
def RandomWords (as : List (SystemAction P N)) : Prop := ∀ a ∈ as, SystemAction.Random a

theorem sent_readings {cfg : Server.Config} {clients : Fin P → ClientProcess} {s : System P N}
    {as : List (SystemAction P N)} (h : Runs.exec (step cfg clients) (init clients) as = some s)
    (hrand : RandomWords as) (t : Fin P × Fin N) :
    ∀ word ∈ (s.sensors t).sentData, IsReading word := by
  have hinv := Runs.exec_invariant_acts (I := fun s before =>
    RandomWords before → ∀ t, ∀ word ∈ (s.sensors t).sentData, IsReading word) ?_ [] h
    (fun _ _ word hword => absurd hword List.not_mem_nil)
  · exact hinv hrand t
  intro s before a s' hs hstep hrand
  have hbefore := hs fun b hb => hrand b (List.mem_append_left _ hb)
  have ha : a.Random := hrand a (List.mem_append_right _ (List.mem_singleton_self a))
  cases a with
  | sensor t c =>
    obtain ⟨⟨t', ds⟩, ht, rfl⟩ := Option.map_eq_some_iff.mp hstep
    refine (Function.forall_update_iff s.sensors
      fun _ x => ∀ word ∈ x.sentData, IsReading word).mpr ⟨?_, fun j _ => hbefore j⟩
    intro word hword
    rw [Sensor.step_sentData ht] at hword
    rcases List.mem_append.mp hword with hold | hnew
    · exact hbefore t word hold
    · cases c with
      | send out =>
        have hnumber : out.number = some word := by simpa using hnew
        obtain ⟨randMax, rand, hr, hw⟩ := ha word (out.random_of_number hnumber)
        rw [randomWord_eq] at hw
        cases hw
        exact hr.isReading
      | log out => exact absurd hnew List.not_mem_nil
  | deliver k =>
    obtain ⟨r, -, hstep⟩ := Option.bind_eq_some_iff.mp hstep
    obtain ⟨server, -, rfl⟩ := Option.map_eq_some_iff.mp hstep
    exact hbefore
  | drop k =>
    obtain ⟨network, -, rfl⟩ := Option.map_eq_some_iff.mp hstep
    exact hbefore
  | server a =>
    cases a with
    | arrive d => cases hstep
    | _ =>
      obtain ⟨server, -, rfl⟩ := Option.map_eq_some_iff.mp hstep
      exact hbefore

theorem inserted_readings {cfg : Server.Config} {clients : Fin P → ClientProcess} {s : System P N}
    {as : List (SystemAction P N)} (h : Runs.exec (step cfg clients) (init clients) as = some s)
    (hrand : RandomWords as) : s.server.Fed := by
  have hs : s.Accounted cfg clients := Reachable.accounted ⟨as, h⟩
  intro i r hr
  have hword : r.data ∈ s.server.receivedDatagrams.filterMap (wordFor i) :=
    (hs.server.inserted_sublist i).subset (List.mem_map_of_mem hr)
  have hsent : r.data ∈ s.sentData clients i :=
    Multiset.mem_of_le (hs.received_le i) (Multiset.mem_coe.mpr hword)
  obtain ⟨t, -, ht⟩ := Multiset.mem_sum.mp hsent
  exact sent_readings h hrand t r.data (Multiset.mem_coe.mp ht)

/-! ## the averages -/

def sentMean (clients : Fin P → ClientProcess) (s : System P N) (i : Nat) : ℚ :=
  ((s.sentData clients i).map wordVal).sum / s.sends clients i

/-- all that was sent has been received, with memory for each message, and added -/
structure Complete (s : System P N) : Prop where
  received : s.AllReceived
  calloc : ∀ it ∈ s.server.history, it.callocFailed = false
  ended : ∀ i, (s.server.lanes i).pc = .ended

theorem Accounted.mean_eq {cfg : Server.Config} (hoff : cfg.logsFilesFlag = false)
    {clients : Fin P → ClientProcess} {s : System P N} (hs : s.Accounted cfg clients)
    (hlib : s.server.CountsElements cfg.lib) (hall : s.Complete) (i : Fin N) :
    mean (s.server.lanes i).summed = s.sentMean clients i ∧
      (s.server.lanes i).summed.length = s.sends clients i := by
  have hsent : (↑(s.server.lanes i).summed : Multiset UInt32) = s.sentData clients i := by
    rw [hs.server.summed_all hoff i (hlib i) (hall.ended i)]
    exact hs.inserted_eq hall.received hall.calloc i
  have hlength : (s.server.lanes i).summed.length = s.sends clients i := by
    rw [hs.sends_eq, ← hsent, Multiset.coe_card]
  refine ⟨?_, hlength⟩
  unfold mean sentMean exactSum
  rw [hlength, ← hsent, Multiset.map_coe, Multiset.sum_coe]

/-- **The server prints the averages of what the sensors sent.**  Any number of client processes,
with words from `generate_random_float`, logging on or off, any order of steps: as long as less than
2^32 words have been added, each average in the report is a number, and `Near` the mean of the words
that its worker has added: up to one rounding for each, and for as long as this says something up to
2^-23 of it for each.  If logging is off, all that was sent has been received, no `calloc` for a
message has failed and the workers have ended, that is the mean of what was sent for the sensor. -/
theorem averages_of_sensors {cfg : Server.Config} {clients : Fin P → ClientProcess}
    {s : System P N} {as : List (SystemAction P N)}
    (h : Runs.exec (step cfg clients) (init clients) as = some s) (hrand : RandomWords as)
    (hcount : s.server.allSummed.length < 4294967296) :
    (report s.server.threadParams).average.Near (mean s.server.allSummed)
        (s.server.allSummed.length + N + 1) ∧
    ∀ i : Fin N, ∃ line, (report s.server.threadParams).threads[i.val]? = some line ∧
      line.average.Near (mean (s.server.lanes i).summed)
        ((s.server.lanes i).summed.length + 1) ∧
      (cfg.logsFilesFlag = false → s.server.CountsElements cfg.lib → s.Complete →
        line.average.Near (s.sentMean clients i) (s.sends clients i + 1)) := by
  have hs : s.Accounted cfg clients := Reachable.accounted ⟨as, h⟩
  obtain ⟨hthreads, htotal⟩ := report_near hs.server (inserted_readings h hrand) hcount
  refine ⟨htotal, fun i => ?_⟩
  obtain ⟨line, hline, hnear, -⟩ := hthreads i
  refine ⟨line, hline, hnear, fun hoff hlib hall => ?_⟩
  obtain ⟨hmean, hlength⟩ := hs.mean_eq hoff hlib hall i
  rw [← hmean, ← hlength]
  exact hnear

/-- the sensor sends the word of 100 -/
def afterHundred : System 1 1 :=
  (Runs.exec (step Server.oneSensor oneClient) (init oneClient)
    (oneSend 1120403456 Server.oneMessage)).get (by decide)

theorem randomWords_oneSend {word : UInt32} (server : List (Server.Action 1))
    (h : ∃ randMax rand, Rand randMax rand ∧ randomWord randMax rand = some word) :
    RandomWords (oneSend word server) := by
  intro a ha
  rcases List.mem_append.mp ha with hsensor | hserver
  · rcases List.mem_cons.mp hsensor with rfl | hlog
    · intro word' hword
      cases hword
      exact h
    · rw [List.mem_singleton.mp hlog]
      exact trivial
  · obtain ⟨b, -, rfl⟩ := List.mem_map.mp hserver
    cases b <;> exact trivial

/-- one word is sent, and the average is the number it stands for up to 3 * 2^-23 of it -/
theorem averages_of_sensors_hundred : afterHundred.sends oneClient 0 = 1 ∧
    ∃ line, (report afterHundred.server.threadParams).threads[0]? = some line ∧
      |val line.average.value - afterHundred.sentMean oneClient 0| ≤
        (1 + 1 + 1 : ℕ) / 2 ^ 23 * afterHundred.sentMean oneClient 0 := by
  have hrun : Runs.exec (step Server.oneSensor oneClient) (init oneClient)
      (oneSend 1120403456 Server.oneMessage) = some afterHundred := (Option.some_get _).symm
  have hrand : RandomWords (oneSend 1120403456 Server.oneMessage) := randomWords_oneSend _
    ⟨2147483647, 2147483647, ⟨by decide, by decide, by decide⟩, by decide⟩
  have hsends : afterHundred.sends oneClient 0 = 1 := by decide
  have hall : afterHundred.Complete := ⟨by unfold AllReceived; decide, by decide, by decide⟩
  obtain ⟨-, hthreads⟩ := averages_of_sensors hrun hrand (by decide)
  obtain ⟨line, hline, -, hnear⟩ := hthreads 0
  have hsent := hnear rfl (State.countsElements (by decide)) hall
  rw [show afterHundred.sends oneClient ((0 : Fin 1) : Nat) = 1 from hsends] at hsent
  exact ⟨hsends, line, hline, hsent.error (by decide)⟩

end System
end SensorSimulator
