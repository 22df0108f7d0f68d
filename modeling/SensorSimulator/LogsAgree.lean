import SensorSimulator.Averages
import SensorSimulator.LogText

/-!
# The log files of the two programs

What the clients have logged as sent, and what the server has logged as received.

* `Sensor.Lines`           the file of a client's thread: a line for each word sent, but for the log
                           calls that have left none;
* `Server.loggedValues`    the file of a worker: a line for some of its records, or for all of them;
* `System.logs_agree`      what the server has logged has been sent, and if nothing is lost on the
                           way or at a log call, the two sides have logged the same values.
-/

namespace SensorSimulator

/-! ## a client's file -/

/-- the word of a datagram that has been sent and not come to the log call yet -/
def Sensor.unlogged (o : ByteOrder) (t : Sensor) : List UInt32 :=
  (t.logging.map fun data => (data.view o).data).toList

/-- a log call that leaves no line in the file -/
def LogOutcome.noLine (out : LogOutcome) : Bool := !(out.clock.text.isSome && out.written)

/-- a thread comes by the log call without a line -/
def SensorChoice.noLine (params : ClientThreadParams) : SensorChoice → Bool
  | .send _ => false
  | .log out => !params.logsFilesFlag || out.noLine

/-- the lines are those of the words sent, but for `lost` of them -/
structure Sensor.Lines (o : ByteOrder) (params : ClientThreadParams) (t : Sensor) (lost : Nat) :
    Prop where
  logging : ∀ data, t.logging = some data →
    ∃ number, data = PackedData.ofRecord o (reading params.id number)
  ids : ∀ line ∈ t.thread.logsFile, line.threadId = params.id ∧ line.sensorId = params.id
  values : ∃ words, t.sentData = words ++ t.unlogged o ∧
    (t.thread.logsFile.map LogLine.value).Sublist words ∧
    words.length = t.thread.logsFile.length + lost

theorem Sensor.start_lines (o : ByteOrder) (params : ClientThreadParams) :
    (Sensor.start params).Lines o params 0 where
  logging _ h := nomatch h
  ids _ h := nomatch h
  values := ⟨[], rfl, .slnil, rfl⟩

theorem logPhase_line (o : ByteOrder) (params : ClientThreadParams) (out : LogOutcome)
    (number : UInt32) (t : ClientThread) :
    (logPhase o params out (PackedData.ofRecord o (reading params.id number)) t).logsFile =
        t.logsFile ∧ (SensorChoice.log out).noLine params = true ∨
      ∃ line : LogLine, (logPhase o params out
        (PackedData.ofRecord o (reading params.id number)) t).logsFile = t.logsFile ++ [line] ∧
        line.threadId = params.id ∧ line.sensorId = params.id ∧
        line.value = number ∧ (SensorChoice.log out).noLine params = false := by
  have hfile := (logPhase_spec o params out number t).2.1
  unfold SensorChoice.noLine LogOutcome.noLine
  cases hf : params.logsFilesFlag with
  | false =>
    rw [hf] at hfile
    exact Or.inl ⟨hfile.trans (List.append_nil _), rfl⟩
  | true =>
    rw [hf, if_pos rfl] at hfile
    unfold LogOutcome.line at hfile
    cases hw : out.written with
    | false =>
      rw [hw] at hfile
      exact Or.inl ⟨hfile.trans (List.append_nil _), by simp [hw]⟩
    | true =>
      rw [hw, if_pos rfl] at hfile
      cases ht : out.clock.text with
      | none =>
        rw [ht] at hfile
        exact Or.inl ⟨hfile.trans (List.append_nil _), by simp [ht]⟩
      | some time =>
        rw [ht] at hfile
        exact Or.inr ⟨_, hfile, rfl, rfl, rfl, by simp [ht, hw]⟩

theorem noData (o : ByteOrder) (params : ClientThreadParams) (data : PackedData)
    (h : (none : Option PackedData) = some data) :
    ∃ number, data = PackedData.ofRecord o (reading params.id number) := by
  cases h

theorem Sensor.Lines.log {o : ByteOrder} {params : ClientThreadParams} {t : Sensor} {lost : Nat}
    (ht : t.Lines o params lost) {number : UInt32}
    (hpc : t.logging = some (PackedData.ofRecord o (reading params.id number))) (out : LogOutcome) :
    Sensor.Lines o params
      { t with thread := logPhase o params out (PackedData.ofRecord o (reading params.id number)) t.thread
               logging := none }
      (lost + if (SensorChoice.log out).noLine params then 1 else 0) := by
  obtain ⟨words, hsent, hsub, hlength⟩ := ht.values
  rw [Sensor.unlogged, hpc, Option.map_some, Option.toList_some, PackedData.view_ofRecord] at hsent
  have hwords : t.sentData = (words ++ [number]) ++ [] := hsent.trans (List.append_nil _).symm
  rcases logPhase_line o params out number t.thread with
    ⟨hfile, hno⟩ | ⟨line, hfile, hthread, hsensor, hvalue, hno⟩
  · refine ⟨noData o params, fun line hline => ht.ids line (hfile ▸ hline), words ++ [number],
      hwords, ?_, ?_⟩
    · dsimp only
      rw [hfile]
      exact hsub.trans (List.sublist_append_left _ _)
    · dsimp only
      rw [hfile, hno, List.length_append, hlength]
      rfl
  · refine ⟨noData o params, fun line' hline => ?_, words ++ [number], hwords, ?_, ?_⟩
    · rcases List.mem_append.mp (hfile ▸ hline) with hold | hnew
      · exact ht.ids line' hold
      · rw [List.mem_singleton.mp hnew]
        exact ⟨hthread, hsensor⟩
    · dsimp only
      rw [hfile, List.map_append, List.map_singleton, hvalue]
      exact hsub.append (List.Sublist.refl _)
    · dsimp only
      rw [hfile, hno, List.length_append, List.length_append, hlength, List.length_singleton,
        List.length_singleton, Nat.add_right_comm]
      rfl

theorem Sensor.Lines.step {o : ByteOrder} {params : ClientThreadParams} {t t' : Sensor}
    {c : SensorChoice} {ds : List (List UInt8)} {lost : Nat} (ht : t.Lines o params lost)
    (h : t.step o params c = some (t', ds)) :
    t'.Lines o params (lost + if c.noLine params then 1 else 0) := by
  cases hpc : t.logging with
  | none =>
    obtain ⟨words, hsent, hsub, hlength⟩ := ht.values
    rw [Sensor.unlogged, hpc, Option.map_none, Option.toList_none, List.append_nil] at hsent
    have hsend : c.noLine params = false := by
      cases c with
      | send out => rfl
      | log out => simp [Sensor.step, hpc] at h
    rw [hsend]
    cases Sensor.step_move h with
    | sent out number _ hp hs =>
      refine ⟨fun data hdata => ⟨number, (Option.some.inj hdata).symm⟩, ht.ids,
        words, ?_, hsub, hlength⟩
      show t.sentData ++ [number] = words ++
        [((PackedData.ofRecord o (reading params.id number)).view o).data]
      rw [hsent, PackedData.view_ofRecord]
      rfl
    | failed out events _ hp hs hnone hshort =>
      exact ⟨noData o params, ht.ids, words, hsent.trans (List.append_nil _).symm, hsub, hlength⟩
    | log out data hlogging => cases hpc.symm.trans hlogging
  | some data =>
    obtain ⟨number, rfl⟩ := ht.logging data hpc
    cases c with
    | send out => simp [Sensor.step, hpc] at h
    | log out =>
      have hstep : t.step o params (.log out) = some ({ t with
          thread := logPhase o params out (PackedData.ofRecord o (reading params.id number)) t.thread
          logging := none }, []) := by
        simp only [Sensor.step, hpc]
      rw [hstep] at h
      cases h
      exact ht.log hpc out

/-! ## the server's file -/

namespace Server

variable {N : Nat}

/-- a log call of worker `i` that leaves no line in the file -/
def Action.noLine (i : Fin N) : Action N → Bool
  | .worker j (.log out) => decide (j = i) && out.noLine
  | _ => false

theorem Action.losesLine_of_line {i : Fin N} {a : Action N} (hline : Action.noLine i a = false) :
    Action.losesLine i a = false := by
  cases a with
  | worker j c =>
    cases c with
    | log out =>
      simp only [Action.noLine, LogOutcome.noLine] at hline
      simp only [Action.losesLine]
      grind
    | _ => rfl
  | _ => rfl

theorem logResult_of_line {i : Fin N} {a : Action N} {v : Bool}
    (hline : Action.noLine i a = false) (hresult : logResult i a = some v) : v = true := by
  cases a with
  | worker j c =>
    cases c with
    | log out =>
      simp only [logResult, Action.noLine, LogOutcome.noLine] at hresult hline
      simp_all
    | _ => cases hresult
  | _ => cases hresult

/-- the values in the file of worker `i` are those of some of its records, in order; and of all of
them when it has left its loop and all its log calls have left their lines -/
theorem loggedValues {cfg : Config} (hon : cfg.logsFilesFlag = true) {s : State N}
    {as : List (Action N)} (h : Runs.exec (step cfg) (init N) as = some s) (i : Fin N) :
    ((s.lanes i).logsFile.map LogLine.value).Sublist
        ((s.lanes i).inserted.map (·.data)) ∧
    (s.CountsElements cfg.lib → (s.lanes i).pc.left = true →
      (∀ a ∈ as, Action.noLine i a = false) →
      (s.lanes i).logsFile.map LogLine.value = (s.lanes i).inserted.map (·.data)) := by
  have hr : Reachable cfg s := ⟨as, h⟩
  have hnoted := logHistory_noted hon h i
  have hvalues : (s.lanes i).logsFile.map LogLine.value =
      (logHistory cfg i as).lined.map (·.data) := by
    have hlines := congrArg (List.map fun l => l.2.2) hnoted.lines
    rw [List.map_map, List.map_map] at hlines
    exact hlines
  have hcounted : ((logHistory cfg i as).added ++ s.toCount cfg i).map (·.data) =
      ((s.lanes i).ledger cfg s.heap).counted := by
    rw [State.ledger_counted, List.map_append, ← hnoted.summed]
  rw [hvalues]
  refine ⟨?_, fun hlib hleft hlines => ?_⟩
  · refine List.Sublist.trans ?_ (hr.counted_sublist i)
    rw [← hcounted]
    exact hnoted.sublist.map _
  · -- no log call has failed, so each record is counted and has its line
    have hlost : as.countP (Action.losesLine i) = 0 := by
      rw [List.countP_eq_zero]
      intro a ha
      rw [Action.losesLine_of_line (hlines a ha)]
      exact Bool.false_ne_true
    have htrue : ∀ v ∈ as.filterMap (logResult i), v = true := by
      intro v hv
      obtain ⟨a, ha, hresult⟩ := List.mem_filterMap.mp hv
      exact logResult_of_line (hlines a ha) hresult
    obtain ⟨hverdicts, hlength⟩ := counted_of_verdicts h hlib i
    rw [verdicts_of_logs hon i h] at hverdicts hlength
    rw [hnoted.records_iff.mpr hlost, hcounted, hverdicts, hr.inserted_eq i]
    conv_rhs => rw [← Lists.map_fst_filter_zip (hlength hleft) htrue]
    rw [List.map_map]
    rfl

end Server

namespace System
open Server

variable {P N : Nat}

/-! ## both sides -/

def lostBy (clients : Fin P → ClientProcess) (t : Fin P × Fin N) : SystemAction P N → Bool
  | .sensor t' c => decide (t' = t) && c.noLine (params clients t')
  | _ => false

/-- a log call for sensor `i` without a line, of a client's thread or of the server's worker -/
def noLine (clients : Fin P → ClientProcess) (i : Fin N) : SystemAction P N → Bool
  | .sensor t c => decide ((params clients t).id.toNat = i) && c.noLine (params clients t)
  | .server a => a.noLine i
  | _ => false

/-- the values in the files of the threads with id `i` -/
def clientValues (clients : Fin P → ClientProcess) (s : System P N) (i : Nat) : Multiset UInt32 :=
  ∑ t with (params clients t).id.toNat = i, ↑((s.sensors t).thread.logsFile.map LogLine.value)

theorem sensor_lines {cfg : Server.Config} {clients : Fin P → ClientProcess} {s : System P N}
    {as : List (SystemAction P N)} (h : Runs.exec (step cfg clients) (init clients) as = some s)
    (t : Fin P × Fin N) :
    (s.sensors t).Lines (clients t.1).host (params clients t) (as.countP (lostBy clients t)) := by
  refine Runs.exec_invariant_acts (I := fun s before => (s.sensors t).Lines (clients t.1).host
    (params clients t) (before.countP (lostBy clients t))) ?_ [] h (Sensor.start_lines _ _)
  intro s before a s' hs hstep
  rw [List.countP_append, List.countP_singleton]
  cases a with
  | sensor t' c =>
    obtain ⟨⟨x, ds⟩, hx, rfl⟩ := Option.map_eq_some_iff.mp hstep
    by_cases ht : t' = t
    · subst ht
      show Sensor.Lines _ _ (Function.update s.sensors t' x t') _
      rw [Function.update_self]
      have hlost : lostBy clients t' (.sensor t' c) = c.noLine (params clients t') := by
        simp [lostBy]
      rw [hlost]
      exact hs.step hx
    · show Sensor.Lines _ _ (Function.update s.sensors t' x t) _
      rw [Function.update_of_ne (Ne.symm ht)]
      have hlost : lostBy clients t (.sensor t' c) = false := by
        simp [lostBy, ht]
      rw [hlost]
      exact hs
  | deliver k =>
    obtain ⟨r, -, hstep⟩ := Option.bind_eq_some_iff.mp hstep
    obtain ⟨server, -, rfl⟩ := Option.map_eq_some_iff.mp hstep
    exact hs
  | drop k =>
    obtain ⟨network, -, rfl⟩ := Option.map_eq_some_iff.mp hstep
    exact hs
  | server a =>
    cases a with
    | arrive d => cases hstep
    | _ =>
      obtain ⟨server, -, rfl⟩ := Option.map_eq_some_iff.mp hstep
      exact hs

/-- if no log call for sensor `i` is without a line, the files of its threads hold all they sent -/
theorem clientValues_eq {cfg : Server.Config} {clients : Fin P → ClientProcess} {s : System P N}
    {as : List (SystemAction P N)} (h : Runs.exec (step cfg clients) (init clients) as = some s)
    (i : Fin N) (hlines : ∀ a ∈ as, noLine clients i a = false)
    (hlogged : ∀ t, (params clients t).id.toNat = i → (s.sensors t).logging = none) :
    s.clientValues clients i = s.sentData clients i := by
  unfold clientValues sentData
  apply Finset.sum_congr rfl
  intro t ht
  have hid : (params clients t).id.toNat = i := (Finset.mem_filter.mp ht).2
  obtain ⟨words, hsent, hsub, hlength⟩ := (sensor_lines h t).values
  have hlost : as.countP (lostBy clients t) = 0 := by
    rw [List.countP_eq_zero]
    intro a ha hlost
    have hline := hlines a ha
    cases a with
    | sensor t' c =>
      simp only [lostBy, Bool.and_eq_true, decide_eq_true_eq] at hlost
      obtain ⟨rfl, hlost⟩ := hlost
      simp only [noLine, hid, hlost] at hline
      simp at hline
    | _ => cases hlost
  rw [hlost, Nat.add_zero] at hlength
  rw [Sensor.unlogged, hlogged t hid, Option.map_none, Option.toList_none, List.append_nil] at hsent
  have hvalues := hsub.eq_of_length (by rw [List.length_map, hlength])
  rw [hvalues, hsent]

/-- **The logs of the two sides.**  In every run each line that the server has logged for a sensor
names that sensor and its thread; its values are, as a multiset, among those sent for the sensor, and
the lines of a client's thread name it and hold values that it sent, in order, each by its bits.  If
all that was sent has been received, no `calloc` has failed, every log call for the sensor has left
its line, and its threads and its worker are done with what they have, then the two sides have logged
the same values, each as often. -/
theorem logs_agree {cfg : Server.Config} (hon : cfg.logsFilesFlag = true)
    {clients : Fin P → ClientProcess} {s : System P N}
    {as : List (SystemAction P N)} (h : Runs.exec (step cfg clients) (init clients) as = some s)
    (i : Fin N) :
    (∀ line ∈ (s.server.lanes i).logsFile,
      line.threadId = UInt32.ofNat i ∧ line.sensorId = UInt32.ofNat i) ∧
    (↑((s.server.lanes i).logsFile.map LogLine.value) : Multiset UInt32) ≤ s.sentData clients i ∧
    (∀ t, (∀ line ∈ (s.sensors t).thread.logsFile, line.threadId = (params clients t).id ∧
        line.sensorId = (params clients t).id) ∧
      ((s.sensors t).thread.logsFile.map LogLine.value).Sublist (s.sensors t).sentData) ∧
    (s.server.CountsElements cfg.lib → s.AllReceived →
      (∀ it ∈ s.server.history, it.callocFailed = false) →
      (s.server.lanes i).pc = .ended → (∀ a ∈ as, noLine clients i a = false) →
      (∀ t, (params clients t).id.toNat = i → (s.sensors t).logging = none) →
      (↑((s.server.lanes i).logsFile.map LogLine.value) : Multiset UInt32) =
        s.clientValues clients i) := by
  have hs : s.Accounted cfg clients := Reachable.accounted ⟨as, h⟩
  obtain ⟨hsub, hall⟩ := loggedValues hon (exec_serverRun h) i
  refine ⟨fun line hline => (hs.server.logsFile_ids i line hline).2, ?_, fun t => ?_, ?_⟩
  · have hinserted : (↑((s.server.lanes i).inserted.map (·.data)) : Multiset UInt32) ≤
        s.sentData clients i :=
      le_trans (Multiset.coe_le.mpr (hs.server.inserted_sublist i).subperm) (hs.received_le i)
    exact le_trans (Multiset.coe_le.mpr hsub.subperm) hinserted
  · have ht := sensor_lines h t
    obtain ⟨words, hsent, hwords, -⟩ := ht.values
    refine ⟨ht.ids, hwords.trans ?_⟩
    rw [hsent]
    exact List.sublist_append_left _ _
  · intro hlib hreceived hcalloc hended hlines hlogged
    have hserver : ∀ a ∈ serverRun cfg clients as, Server.Action.noLine i a = false := by
      intro a ha
      obtain ⟨s', a', hmem, hlabel⟩ := Runs.mem_labels ha
      cases a' with
      | server b =>
        rw [List.mem_singleton.mp hlabel]
        exact hlines _ hmem
      | deliver k =>
        obtain ⟨r, -, rfl⟩ := Option.map_eq_some_iff.mp (Option.mem_toList.mp hlabel)
        rfl
      | _ => cases hlabel
    have hleft : (s.server.lanes i).pc.left = true := by
      rw [hended]
      rfl
    rw [hall hlib hleft hserver, hs.inserted_eq hreceived hcalloc i,
      clientValues_eq h i hlines hlogged]

/-- one sensor sends a word, and both sides log it -/
def bothLogged : List (SystemAction 1 1) :=
  (oneSend 7 (Server.oneMessageLogged Server.lineWritten)).set 1
    (.sensor (Fin.last 0, Fin.last 0) (.log Server.lineWritten))

def oneClientLogged : Fin 1 → ClientProcess := fun k => { oneClient k with logsFilesFlag := true }

def afterBothLogged : System 1 1 :=
  (Runs.exec (step Server.oneSensorLogged oneClientLogged) (init oneClientLogged) bothLogged).get
    (by decide)

theorem logs_agree_bothLogged : (afterBothLogged.server.lanes 0).logsFile.length = 1 ∧
    (↑((afterBothLogged.server.lanes 0).logsFile.map LogLine.value) : Multiset UInt32) =
      afterBothLogged.clientValues oneClientLogged 0 := by
  have hrun : Runs.exec (step Server.oneSensorLogged oneClientLogged) (init oneClientLogged)
      bothLogged = some afterBothLogged := (Option.some_get _).symm
  exact ⟨by decide, (logs_agree rfl hrun 0).2.2.2 (State.countsElements (by decide))
    (by unfold AllReceived; decide) (by decide) (by decide) (by decide) (by decide)⟩

end System

end SensorSimulator
