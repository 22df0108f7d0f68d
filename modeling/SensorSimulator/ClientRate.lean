import SensorSimulator.ClientLoop
import SensorSimulator.Lib.Gaps

/-!
# The pace of a sensor thread

Behind each packet that is counted the thread sleeps for `DELAY_MS` milliseconds, which is
`SENSOR_RATE` turned into a period in whole milliseconds.

* `RespectsRate`        what the rate asks of the sends and sleeps of a thread;
* `iterationEvents`     what one iteration adds to the trace; `gapsFrom_run` reads off what is
                        requested between the sends of a run;
* `respectsRate_iff`    the rate is respected exactly when it divides 1000, no request is for a whole
                        second, and no log call fails between two sends.
-/

namespace SensorSimulator
open Gaps

/-! ## what the rate asks for -/

def ClientEvent.isSend : ClientEvent → Bool
  | .sendto .success _ => true
  | _ => false

/-- the nanoseconds that are requested -/
def ClientEvent.requested : ClientEvent → ℕ
  | .nanosleep nsec => nsec
  | .sendto _ _ => 0

/-- between two consecutive successful sends at least the sampling period is slept, and every
request is a valid `timespec` -/
def RespectsRate (sensorRate : ℕ) (trace : List ClientEvent) : Prop :=
  (∀ pre first mid second post, trace = pre ++ first :: (mid ++ second :: post) →
    first.isSend = true → second.isSend = true → (∀ e ∈ mid, e.isSend = false) →
    1000000000 ≤ sensorRate * (mid.map ClientEvent.requested).sum) ∧
  ∀ nsec, ClientEvent.nanosleep nsec ∈ trace → nsec < 1000000000

theorem respectsRate_gaps (sensorRate : ℕ) (trace : List ClientEvent) :
    RespectsRate sensorRate trace ↔
      (∀ g ∈ gaps ClientEvent.isSend ClientEvent.requested trace,
        1000000000 ≤ sensorRate * g) ∧
      ∀ nsec, ClientEvent.nanosleep nsec ∈ trace → nsec < 1000000000 := by
  unfold RespectsRate
  refine and_congr_left fun _ => ?_
  simp only [mem_gaps, IsGap, Closes, Nat.zero_add]
  constructor
  · rintro h g ⟨pre, first, rest, rfl, hfirst, mid, second, post, rfl, hquiet, hsecond, rfl⟩
    exact h pre first mid second post rfl hfirst hsecond hquiet
  · intro h pre first mid second post htrace hfirst hsecond hquiet
    exact h _ ⟨pre, first, _, htrace, hfirst, mid, second, post, rfl, hquiet, hsecond, rfl⟩

/-! ## what an iteration adds -/

def sends (out : IterationOutcome) : Bool := out.send.number.isSome

/-- what is slept behind a successful send -/
def sleptBy (params : ClientThreadParams) (out : IterationOutcome) : ℕ :=
  if counted params out then params.delayNsec else 0

/-- the sleep of an iteration that is counted -/
def sleepEvents (params : ClientThreadParams) (out : IterationOutcome) : List ClientEvent :=
  if counted params out then [.nanosleep params.delayNsec] else []

def iterationEvents (o : ByteOrder) (params : ClientThreadParams) (out : IterationOutcome) :
    List ClientEvent :=
  (sendPhase o params out.send).2 ++ sleepEvents params out

theorem counted_of_not_sends {params : ClientThreadParams} {out : IterationOutcome}
    (h : sends out = false) : counted params out = false := by
  unfold counted
  rw [show out.send.number.isSome = false from h]
  rfl

theorem logPhase_sleeps (o : ByteOrder) (params : ClientThreadParams) (out : LogOutcome)
    (number : UInt32) (t : ClientThread) :
    (logPhase o params out (PackedData.ofRecord o (reading params.id number)) t).trace =
      t.trace ++ if !params.logsFilesFlag || out.clock.text.isSome then
        [.nanosleep params.delayNsec] else [] := by
  unfold logPhase
  cases params.logsFilesFlag with
  | false => rfl
  | true =>
    rw [PackedData.view_ofRecord]
    unfold logClientSensorData
    rw [logSensorData_some]
    cases out.clock.text with
    | none => exact (List.append_nil _).symm
    | some time => rfl

theorem handleServerIteration_trace (o : ByteOrder) (params : ClientThreadParams)
    (out : IterationOutcome) (t : ClientThread) :
    (handleServerIteration o params out t).trace = t.trace ++ iterationEvents o params out := by
  have hsend := sendPhase_spec o params out.send
  unfold handleServerIteration iterationEvents sleepEvents counted
  cases hn : out.send.number with
  | none =>
    rw [hn] at hsend
    obtain ⟨events, he, -⟩ := hsend
    rw [he]
    simp [ClientThread.sent]
  | some number =>
    rw [hn] at hsend
    rw [show sendPhase o params out.send = _ from hsend]
    exact (logPhase_sleeps o params out.log number _).trans (List.append_assoc _ _ _)

theorem sendPhase_failed {o : ByteOrder} {params : ClientThreadParams} {out : SendOutcome}
    (h : out.number = none) : ∀ e ∈ (sendPhase o params out).2,
      e.isSend = false ∧ e.requested = 0 := by
  have hst : ∀ (st : ClientSocketStatus) (d : List (List UInt8)), st ≠ .success →
      (ClientEvent.sendto st d).isSend = false := by
    intro st d hst
    cases st with
    | success => exact absurd rfl hst
    | _ => rfl
  have hspec := sendPhase_spec o params out
  rw [h] at hspec
  obtain ⟨events, he, -⟩ := hspec
  have hnone : (sendPhase o params out).1 = none := congrArg Prod.fst he
  revert hnone
  unfold sendPhase
  split
  · dsimp only
    split
    · simp
    · split
      · rename_i hfail
        intro _ e he
        rw [List.mem_singleton.mp he]
        exact ⟨hst _ _ hfail, rfl⟩
      · intro hnone
        cases hnone
  · simp

theorem sendPhase_sendto (o : ByteOrder) (params : ClientThreadParams) (out : SendOutcome) :
    ∀ e ∈ (sendPhase o params out).2, ∃ st d, e = .sendto st d := by
  intro e
  unfold sendPhase
  dsimp only
  split
  · split
    · intro he
      exact absurd he List.not_mem_nil
    · split <;> exact fun he => ⟨_, _, List.mem_singleton.mp he⟩
  · intro he
    exact absurd he List.not_mem_nil

theorem exec_trace {o : ByteOrder} {params : ClientThreadParams} {outs : List IterationOutcome}
    {t t' : ClientThread} (h : Runs.exec (handleServerStep o params) t outs = some t') :
    t'.trace = t.trace ++ outs.flatMap (iterationEvents o params) := by
  induction outs generalizing t with
  | nil =>
    cases h
    exact (List.append_nil _).symm
  | cons out outs ih =>
    obtain ⟨s, hs, hrest⟩ := Runs.exec_cons_some.mp h
    unfold handleServerStep at hs
    split at hs
    · cases hs
    · cases hs
      rw [ih hrest, handleServerIteration_trace, List.append_assoc, List.flatMap_cons]

/-! ## what is slept between two sends -/

theorem gapsFrom_not_sends {o : ByteOrder} {params : ClientThreadParams} {out : IterationOutcome}
    (h : sends out = false) (cur : Option ℕ) (l : List ClientEvent) :
    gapsFrom ClientEvent.isSend ClientEvent.requested cur (iterationEvents o params out ++ l) =
      gapsFrom ClientEvent.isSend ClientEvent.requested cur l := by
  unfold iterationEvents sleepEvents
  rw [counted_of_not_sends h, if_neg nofun, List.append_nil]
  have hnone : out.send.number = none := by simpa [sends] using h
  exact gapsFrom_quiet (sendPhase_failed hnone) cur l

theorem gapsFrom_sends {o : ByteOrder} {params : ClientThreadParams} {out : IterationOutcome}
    (h : sends out = true) (cur : Option ℕ) (l : List ClientEvent) :
    gapsFrom ClientEvent.isSend ClientEvent.requested cur (iterationEvents o params out ++ l) =
      cur.toList ++
        gapsFrom ClientEvent.isSend ClientEvent.requested (some (sleptBy params out)) l := by
  obtain ⟨number, hn⟩ := Option.isSome_iff_exists.mp h
  have hsend := sendPhase_spec o params out.send
  rw [hn] at hsend
  unfold iterationEvents sleepEvents sleptBy
  rw [show sendPhase o params out.send = _ from hsend, List.append_assoc, List.singleton_append,
    gapsFrom_mark rfl]
  split
  · rw [List.singleton_append, gapsFrom_cons_quiet rfl]
    simp [ClientEvent.requested]
  · rfl

/-- between the sends of a run each one's own sleep is requested, and behind the last one nothing
is closed -/
theorem gapsFrom_run (o : ByteOrder) (params : ClientThreadParams) (outs : List IterationOutcome)
    (cur : Option ℕ) :
    gapsFrom ClientEvent.isSend ClientEvent.requested cur
        (outs.flatMap (iterationEvents o params)) =
      (cur.toList ++ (outs.filter sends).map (sleptBy params)).dropLast := by
  induction outs generalizing cur with
  | nil => cases cur <;> rfl
  | cons out outs ih =>
    rw [List.flatMap_cons]
    cases h : sends out with
    | false => rw [gapsFrom_not_sends h, ih, List.filter_cons_of_neg (by simp [h])]
    | true =>
      rw [gapsFrom_sends h, ih, List.filter_cons_of_pos h, List.map_cons,
        List.dropLast_append_of_ne_nil (List.cons_ne_nil _ _)]
      rfl

/-! ## the two integer steps of the delay -/

/-- rate and delay make up the period when nothing is cut off -/
theorem period_le_iff (sensorRate : ℕ) :
    1000000000 ≤ sensorRate * (1000 / sensorRate * 1000000) ↔ sensorRate ∣ 1000 := by
  have hle := Nat.mul_div_le 1000 sensorRate
  rw [← Nat.mul_assoc]
  constructor
  · intro h
    exact Dvd.intro (1000 / sensorRate) (by omega)
  · intro h
    rw [Nat.mul_div_cancel' h]

/-- one second is one nanosecond too many -/
theorem delay_lt_iff (sensorRate : ℕ) :
    1000 / sensorRate * 1000000 < 1000000000 ↔ sensorRate ≠ 1 := by
  constructor
  · rintro h rfl
    exact absurd h (by decide)
  · intro h
    have hlt : 1000 / sensorRate < 1000 := by
      rcases Nat.eq_zero_or_pos sensorRate with rfl | hpos
      · decide
      · exact Nat.div_lt_self (by decide) (by omega)
    omega

/-! ## every run -/

/-- what is requested at all is requested by the iterations that are counted -/
theorem nanosleep_mem_run (o : ByteOrder) (params : ClientThreadParams)
    (outs : List IterationOutcome) (nsec : ℕ) :
    .nanosleep nsec ∈ outs.flatMap (iterationEvents o params) ↔
      (∃ out ∈ outs, counted params out = true) ∧ nsec = params.delayNsec := by
  have hone : ∀ out, .nanosleep nsec ∈ iterationEvents o params out ↔
      counted params out = true ∧ nsec = params.delayNsec := by
    intro out
    have hnot : ClientEvent.nanosleep nsec ∉ (sendPhase o params out.send).2 := by
      intro hmem
      obtain ⟨st, d, he⟩ := sendPhase_sendto o params out.send _ hmem
      cases he
    unfold iterationEvents sleepEvents
    rw [List.mem_append, or_iff_right hnot]
    cases counted params out <;> simp
  simp only [List.mem_flatMap, hone]
  constructor
  · rintro ⟨out, hout, hc, hn⟩
    exact ⟨⟨out, hout, hc⟩, hn⟩
  · rintro ⟨⟨out, hout, hc⟩, hn⟩
    exact ⟨out, hout, hc, hn⟩

/-- **Exactly when the sensor rate is respected.**  In every run of the loop, for every rate: the
sends of a thread are a period apart and its requests are valid if and only if every send that
another one follows is logged without an error and the rate divides 1000, and the rate is not 1 or
nothing is counted. -/
theorem respectsRate_iff (o : ByteOrder) (params : ClientThreadParams) (file : List LogLine)
    (outs : List IterationOutcome) (t : ClientThread)
    (h : Runs.exec (handleServerStep o params) (.start params file) outs = some t) :
    RespectsRate params.sensorRate t.trace ↔
      (∀ out ∈ (outs.filter sends).dropLast, params.sensorRate ∣ 1000 ∧
        (params.logsFilesFlag = true → out.log.clock.text.isSome = true)) ∧
      ((∃ out ∈ outs, counted params out = true) → params.sensorRate ≠ 1) := by
  have htrace : t.trace = outs.flatMap (iterationEvents o params) := exec_trace h
  rw [respectsRate_gaps, htrace, gaps, gapsFrom_run, Option.toList_none, List.nil_append,
    ← List.map_dropLast]
  refine and_congr ?_ ?_
  · rw [List.forall_mem_map]
    refine forall₂_congr fun out hout => ?_
    have hsends : sends out = true := List.of_mem_filter (List.mem_of_mem_dropLast hout)
    change out.send.number.isSome = true at hsends
    unfold sleptBy counted
    rw [hsends, Bool.true_and]
    by_cases hlog : params.logsFilesFlag = true → out.log.clock.text.isSome = true
    · rw [if_pos (by cases hf : params.logsFilesFlag <;> simp_all)]
      exact (period_le_iff params.sensorRate).trans (and_iff_left hlog).symm
    · rw [if_neg (by cases hf : params.logsFilesFlag <;> simp_all), Nat.mul_zero]
      exact iff_of_false (by decide) fun h => hlog h.2
  · simp only [nanosleep_mem_run]
    constructor
    · intro hvalid hcounted
      exact (delay_lt_iff params.sensorRate).mp (hvalid _ ⟨hcounted, rfl⟩)
    · rintro hne nsec ⟨hcounted, rfl⟩
      exact (delay_lt_iff params.sensorRate).mpr (hne hcounted)

/-- a rate of 500 with logging on: the second of three datagrams is not sent -/
theorem respectsRate_iff_three :
    let outs : List IterationOutcome := [.sent 14, .error, .sent 14].map fun r =>
      ⟨⟨some 7, .success, r⟩, ⟨⟨true, true, .ok "now"⟩, true, true⟩⟩
    ∃ t, Runs.exec (handleServerStep .little ⟨3, true, 2, 500⟩) (.start ⟨3, true, 2, 500⟩ []) outs
      = some t ∧ RespectsRate 500 t.trace := by
  intro outs
  exact ⟨_, rfl, (respectsRate_iff .little ⟨3, true, 2, 500⟩ [] outs _ rfl).mpr (by decide)⟩

/-- the rate the program is built with: two datagrams are sent and nothing is slept in between -/
theorem shipped_rate_not_respected :
    ∃ (outs : List IterationOutcome) (t : ClientThread),
      handleServer .little ⟨3, false, 2, 10000⟩ (.start ⟨3, false, 2, 10000⟩ []) outs = some t ∧
      ¬ RespectsRate 10000 t.trace := by
  let sent : IterationOutcome := ⟨⟨some 7, .success, .sent 14⟩, ⟨⟨true, true, .error ""⟩, true, true⟩⟩
  refine ⟨[sent, sent], _, rfl, fun h => ?_⟩
  have hgap := h.1 [] _ [.nanosleep 0] _ [.nanosleep 0] rfl rfl rfl (by simp [ClientEvent.isSend])
  exact absurd hgap (by decide)

end SensorSimulator
