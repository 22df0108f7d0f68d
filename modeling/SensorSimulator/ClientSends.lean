import SensorSimulator.Client

/-!
# How much a sensor thread sends, and what it logs

The thread is asked for `packetsPerSensor` datagrams and, with logging on, for one line for each.
The counter is stepped behind the log call, so a datagram whose log call fails is sent and not
counted, and the loop sends another one; a line that `fprintf` or `fflush` loses is lost.

* `SendsWhatWasAsked`           what the thread was asked for;
* `handleServer_sent_length`    a run sends one datagram more for every failed log call;
* `handleServer_sends_iff`      what was asked for is done exactly when no log call behind a
                                successful send fails in any way.
-/

namespace SensorSimulator

/-- exactly `packetsPerSensor` datagrams, and exactly one line for each with the bits of its value,
in order -/
def SendsWhatWasAsked (params : ClientThreadParams) (file : List LogLine) (t : ClientThread) :
    Prop :=
  ((sentOf t.trace).length : Int) = params.packetsPerSensor ∧
  (params.logsFilesFlag = true → ∃ lines, t.logsFile = file ++ lines ∧
    lines.map (·.value) = (sentOf t.trace).map fun d => floatBits (decodeMessage d))

/-! ## the count -/

/-- every datagram that was sent and not counted is one too many -/
theorem handleServer_sent_length (o : ByteOrder) (params : ClientThreadParams)
    (file : List LogLine) (outs : List IterationOutcome) (t : ClientThread)
    (h : handleServer o params (.start params file) outs = some t) :
    ((sentOf t.trace).length : Int) = params.packetsPerSensor +
      outs.countP fun out => out.send.number.isSome && !counted params out := by
  obtain ⟨hp, -, hs⟩ := handleServer_effects o params outs _ t h
  have hlen : (sentOf t.trace).length = outs.countP fun out => out.send.number.isSome := by
    rw [hs]
    show (List.filterMap (sentBy params) outs).length = _
    rw [List.length_filterMap_eq_countP]
    apply List.countP_congr
    intro out _
    simp [sentBy]
  have hsplit := Lists.countP_split (fun out => out.send.number.isSome) (counted params) outs
    fun out _ hc => by unfold counted at hc; exact (Bool.and_eq_true_iff.mp hc).1
  rw [hlen, hsplit, show params.packetsPerSensor = _ from hp]
  push_cast
  rfl

theorem handleServer_sent_length_of_no_logs (o : ByteOrder) (params : ClientThreadParams)
    (file : List LogLine) (outs : List IterationOutcome) (t : ClientThread)
    (hf : params.logsFilesFlag = false)
    (h : handleServer o params (.start params file) outs = some t) :
    ((sentOf t.trace).length : Int) = params.packetsPerSensor := by
  rw [handleServer_sent_length o params file outs t h, List.countP_eq_zero.mpr]
  · exact Int.add_zero _
  · intro out _
    unfold counted
    rw [hf]
    cases out.send.number.isSome <;> simp

theorem loggedBy_isSome (params : ClientThreadParams) (out : IterationOutcome)
    (hf : params.logsFilesFlag = true) : (loggedBy params out).isSome =
      (out.send.number.isSome && (out.log.clock.text.isSome && out.log.written)) := by
  unfold loggedBy LogOutcome.line
  rw [if_pos hf]
  cases out.send.number with
  | none => rfl
  | some number =>
    cases out.log.written <;> simp

theorem loggedBy_value (params : ClientThreadParams) (out : IterationOutcome)
    (h : out.send.number.isSome = true → (loggedBy params out).isSome = true) :
    (loggedBy params out).map (·.value) =
      (sentBy params out).map fun d => floatBits (decodeMessage d) := by
  unfold loggedBy sentBy LogOutcome.line at *
  cases hn : out.send.number with
  | none => simp
  | some number =>
    rw [hn] at h
    rw [Option.map_some, Option.map_some, decodeMessage_wireBytes]
    split at h
    · rename_i hf
      rw [if_pos hf]
      cases hw : out.log.written with
      | false => simp [hw] at h
      | true =>
        cases ht : out.log.clock.text with
        | none => simp [hw, ht] at h
        | some time => simp [reading, floatBits]
    · simp at h

/-- **What was asked for is done exactly when no log call behind a successful send fails:** not in
`get_current_time`, which sends one datagram too many, and not in `fprintf` or `fflush`, which
loses a line. -/
theorem handleServer_sends_iff (o : ByteOrder) (params : ClientThreadParams)
    (file : List LogLine) (outs : List IterationOutcome) (t : ClientThread)
    (h : handleServer o params (.start params file) outs = some t) :
    SendsWhatWasAsked params file t ↔
      (params.logsFilesFlag = true → ∀ out ∈ outs, out.send.number.isSome = true →
        out.log.clock.text.isSome = true ∧ out.log.fprintf = true ∧ out.log.fflush = true) := by
  obtain ⟨-, hl, hs⟩ := handleServer_effects o params outs _ t h
  change t.logsFile = file ++ _ at hl
  change sentOf t.trace = outs.filterMap (sentBy params) at hs
  have hwritten : ∀ out : IterationOutcome, out.log.written = true ↔
      out.log.fprintf = true ∧ out.log.fflush = true := fun out => by simp [LogOutcome.written]
  constructor
  · -- as many lines as datagrams: no iteration that sent is without a line
    rintro ⟨-, hlog⟩ hf
    obtain ⟨lines, hfile, hvalues⟩ := hlog hf
    have hlines : lines = outs.filterMap (loggedBy params) := by
      rw [hl] at hfile
      exact (List.append_cancel_left hfile).symm
    have hlen := congrArg List.length hvalues
    rw [List.length_map, List.length_map, hlines, hs, List.length_filterMap_eq_countP,
      List.length_filterMap_eq_countP] at hlen
    intro out hout hsent
    have hsome := Lists.imp_of_countP_eq
      (fun x _ hx => by
        rw [loggedBy_isSome params x hf] at hx
        simpa [sentBy] using (Bool.and_eq_true_iff.mp hx).1)
      hlen.symm out hout (by simpa [sentBy] using hsent)
    rw [loggedBy_isSome params out hf, Bool.and_eq_true, Bool.and_eq_true, hwritten] at hsome
    exact hsome.2
  · intro hok
    constructor
    · cases hf : params.logsFilesFlag with
      | false => exact handleServer_sent_length_of_no_logs o params file outs t hf h
      | true =>
        rw [handleServer_sent_length o params file outs t h, List.countP_eq_zero.mpr]
        · exact Int.add_zero _
        · intro out hout
          cases hn : out.send.number.isSome with
          | false => simp
          | true => simp [counted, hn, (hok hf out hout hn).1]
    · intro hf
      refine ⟨_, hl, ?_⟩
      rw [hs, List.map_filterMap, List.map_filterMap]
      apply List.filterMap_congr
      intro out hout
      apply loggedBy_value
      intro hn
      obtain ⟨hc, hw⟩ := hok hf out hout hn
      rw [loggedBy_isSome params out hf, hn, hc, (hwritten out).mpr hw]
      rfl

theorem handleServer_sends_iff_two :
    let good : IterationOutcome :=
      ⟨⟨some 7, .success, .sent 14⟩, ⟨⟨true, true, .ok "now"⟩, true, true⟩⟩
    ∃ t, handleServer .little ⟨3, true, 2, 10000⟩ (.start ⟨3, true, 2, 10000⟩ []) [good, good]
      = some t ∧ SendsWhatWasAsked ⟨3, true, 2, 10000⟩ [] t := by
  intro good
  refine ⟨_, rfl, (handleServer_sends_iff .little ⟨3, true, 2, 10000⟩ [] [good, good] _ rfl).mpr ?_⟩
  intro _ out hout _
  have hgood : out = good := by simpa using hout
  rw [hgood]
  decide

/-- asked for one datagram, the thread sends two when the first one's log call finds no time -/
theorem handleServer_sends_twice :
    ∃ (params : ClientThreadParams) (outs : List IterationOutcome) (t : ClientThread),
      0 < params.packetsPerSensor ∧
      handleServer .little params (.start params []) outs = some t ∧
      ¬ SendsWhatWasAsked params [] t := by
  refine ⟨⟨3, true, 1, 10000⟩,
    [⟨⟨some 7, .success, .sent 14⟩, ⟨⟨true, true, .error ""⟩, true, true⟩⟩,
      ⟨⟨some 8, .success, .sent 14⟩, ⟨⟨true, true, .ok "now"⟩, true, true⟩⟩],
    _, by decide, rfl, ?_⟩
  rintro ⟨hlen, -⟩
  revert hlen
  decide

end SensorSimulator
