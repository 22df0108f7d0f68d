import SensorSimulator.Client
import SensorSimulator.Lib.Streams

/-!
# When the send loop of a sensor thread ends

* `handleServerStep`   one turn of the loop, if the counter lets it run;
* `noCallFails`        pack, serialize, send and, with logging on, log all return success;
* `handleServer_terminates_iff`   on an infinite stream of outcomes the loop ends exactly behind the
                       last of the asked-for iterations in which no call fails, if they are so many.
-/

namespace SensorSimulator

def handleServerStep (o : ByteOrder) (params : ClientThreadParams) (t : ClientThread)
    (out : IterationOutcome) : Option ClientThread :=
  if t.packetsPerThread = 0 then none else some (handleServerIteration o params out t)

/-- `handle_server` returns where its turns have led to a counter of 0 -/
theorem handleServer_eq_exec (o : ByteOrder) (params : ClientThreadParams)
    (outs : List IterationOutcome) (t t' : ClientThread) :
    handleServer o params t outs = some t' ↔
      Runs.exec (handleServerStep o params) t outs = some t' ∧ t'.packetsPerThread = 0 := by
  induction outs generalizing t with
  | nil =>
    unfold handleServer Runs.exec
    constructor
    · intro h
      split at h
      · rename_i h0
        cases h
        exact ⟨rfl, h0⟩
      · cases h
    · rintro ⟨h, h0⟩
      cases h
      exact if_pos h0
  | cons out outs ih =>
    unfold handleServer
    rw [Runs.exec_cons, handleServerStep]
    split
    · simp
    · exact ih _

/-- no call of the iteration fails: the statuses that the loop asks for -/
def noCallFails (o : ByteOrder) (params : ClientThreadParams) (out : IterationOutcome) : Bool :=
  let packed := packSensorData o PackedData.zero params.id out.send.random
  let serialized := (serializeSensorData o packed.2 PackedData.zero).2
  let logged := logClientSensorData (some []) (some (packed.2.view o)) params.id out.log
  decide (packed.1 = .success) && decide (out.send.serialize = .success) &&
    decide ((sendToSocket serialized out.send.sendto).1 = .success) &&
    (!params.logsFilesFlag || decide (logged.1 = .success))

theorem noCallFails_eq_counted (o : ByteOrder) (params : ClientThreadParams)
    (out : IterationOutcome) : noCallFails o params out = counted params out := by
  obtain ⟨⟨random, serialize, sendto⟩, log⟩ := out
  unfold noCallFails counted SendOutcome.number
  cases random with
  | none =>
    have hnone : (if serialize = .success ∧ sendto = .sent 14 then (none : Option UInt32)
        else none) = none := ite_self none
    dsimp only
    rw [hnone]
    rfl
  | some number =>
    have hlog : ∀ data : ProtoSensorData,
        decide ((logClientSensorData (some []) (some data) params.id log).1 = .success) =
          log.clock.text.isSome := by
      intro data
      unfold logClientSensorData
      rw [logSensorData_some]
      cases log.clock.text <;> rfl
    dsimp only
    rw [hlog, packSensorData_some, decide_eq_true rfl, Bool.true_and]
    simp only [sendToSocket_success]
    by_cases hser : serialize = .success
    · by_cases hsend : sendto = .sent 14
      · simp [hser, hsend]
      · simp [hsend]
    · simp [hser]

theorem handleServer_countdown (o : ByteOrder) (params : ClientThreadParams) :
    Runs.Countdown (handleServerStep o params) (·.packetsPerThread) (noCallFails o params) where
  stops t out h := if_pos h
  goes t out h := by
    refine ⟨_, if_neg h, ?_⟩
    rw [noCallFails_eq_counted]
    exact (handleServerIteration_spec o params out t).1

def intMax : Int := 2147483647

/-- **Exactly when the send loop ends.**  For every number of packets and every infinite stream of
outcomes: the loop ends if and only if in so many iterations no call fails, just behind the last of
them; it never stops otherwise; and its counter is always what is left, between 0 and the number
asked for. -/
theorem handleServer_terminates_iff (o : ByteOrder) (params : ClientThreadParams)
    (file : List LogLine) (outs : ℕ → IterationOutcome) (hpos : 0 < params.packetsPerSensor)
    (hmax : params.packetsPerSensor ≤ intMax) :
    let good := fun k => noCallFails o params (outs k) = true
    let reached := fun k => Runs.after (handleServerStep o params) (.start params file) outs k
    let returns := fun k => (handleServer o params (.start params file)
      ((List.range k).map outs)).isSome = true
    ((∃ k, returns k) ↔ ∃ k, params.packetsPerSensor ≤ Nat.count good k) ∧
    (∀ k, returns k ↔ ∃ j, k = j + 1 ∧ good j ∧ Nat.count good k = params.packetsPerSensor) ∧
    ((∀ k, Nat.count good k < params.packetsPerSensor) → ∀ k, (reached k).isSome = true) ∧
    ∀ k t, reached k = some t →
      t.packetsPerThread = params.packetsPerSensor - Nat.count good k ∧
      0 ≤ t.packetsPerThread ∧ t.packetsPerThread ≤ params.packetsPerSensor ∧
      t.packetsPerThread ≤ intMax := by
  intro good reached returns
  obtain ⟨n, hn⟩ := Int.eq_ofNat_of_zero_le (Int.le_of_lt hpos)
  have hloop := handleServer_countdown o params
  have hstart : (ClientThread.start params file).packetsPerThread = n := hn
  have hreturns : ∀ k, returns k ↔ ∃ t, reached k = some t ∧ t.packetsPerThread = 0 := by
    intro k
    show Option.isSome _ = true ↔ _
    rw [Option.isSome_iff_exists]
    simp only [handleServer_eq_exec, ← Runs.after_eq_exec]
    rfl
  refine ⟨?_, ?_, ?_, ?_⟩
  · simp only [hreturns, hn, Nat.cast_le]
    exact hloop.terminates_iff outs hstart
  · intro k
    rw [hreturns, hn]
    simp only [Nat.cast_inj]
    exact hloop.returns_iff outs hstart (by omega) k
  · intro hfew k
    rw [Option.isSome_iff_exists]
    refine (hloop.after_isSome_iff outs hstart k).mpr fun j _ => ?_
    have := hfew j
    rw [hn, Nat.cast_lt] at this
    exact this
  · intro k t ht
    obtain ⟨hcounter, hle⟩ := hloop.after_counter outs hstart ht
    rw [hn] at hmax ⊢
    have : (Nat.count good k : ℤ) ≤ n := Nat.cast_le.mpr hle
    exact ⟨hcounter, by omega, by omega, by omega⟩

/-- two packets are asked for, the second iteration fails to send -/
theorem handleServer_terminates_iff_two :
    let outs : ℕ → IterationOutcome := fun k =>
      ⟨⟨some 7, .success, if k = 1 then .error else .sent 14⟩, ⟨⟨true, true, .ok "now"⟩, true, true⟩⟩
    (0 : Int) < 2 ∧ (2 : Int) ≤ intMax ∧
      ∃ k, (handleServer .little ⟨3, true, 2, 10000⟩ (.start ⟨3, true, 2, 10000⟩ [])
        ((List.range k).map outs)).isSome = true := by
  intro outs
  refine ⟨by decide, by decide, ?_⟩
  refine ((handleServer_terminates_iff .little ⟨3, true, 2, 10000⟩ [] outs (by decide)
    (by decide)).1).mpr ⟨3, ?_⟩
  decide

end SensorSimulator
