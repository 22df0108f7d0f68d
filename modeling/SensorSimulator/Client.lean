import SensorSimulator.Codec
import SensorSimulator.Log
import SensorSimulator.Lib.Lists

/-!
# The client: one sensor thread, handle_server

* `packSensorData`, `sendToSocket`   `pack_sensor_data` and `send_to_socket`;
* `sendPhase`, `logPhase`            the two halves of an iteration of `handle_server`: up to the
                                     `sendto`, and from the log to the end of the body;
* `handleServer`                     the loop over a list of outcomes, defined when the loop
                                     returns at the end of the list;
* `sentBy`, `counted`, `loggedBy`    what an iteration's outcomes mean: the datagram it sends,
                                     whether it is counted, the line it leaves in the file.

`handleServer_effects` gives the whole effect of a run that returns in these words.
-/

namespace SensorSimulator
open ByteOrder

/-! ## client_socket.c -/

/-- the random word is `none` when `generate_random_float` fails -/
def packSensorData (o : ByteOrder) (data : PackedData) (sensorId : UInt32)
    (random : Option UInt32) : ClientSocketStatus × PackedData :=
  let data := data.set o .type protoSensorData.toNat
  let data := data.set o .sensorId sensorId.toNat
  let data := data.set o .len sizeofFloat
  match random with
  | none => (.packSensorDataRandomFloatError, data)
  | some number => (.success, data.set o .data number.toNat)

/-- what `sendto` comes back with: -1, or the number of bytes sent -/
inductive SendtoResult where
  | error
  | sent (k : Fin (sizeofProtoSensorData + 1))
  deriving DecidableEq

/-- the status, and what the call put on the network: the bytes that `sendto` took are a datagram
even if they are not the whole message -/
def sendToSocket (data : PackedData) (r : SendtoResult) :
    ClientSocketStatus × List (List UInt8) :=
  match r with
  | .error => (.sendToSocketSendtoError, [])
  | .sent k =>
    if k.val = 0 then (.sendToSocketNoBytesSent, [])
    else if k.val ≠ sizeofProtoSensorData then
      (.sendToSocketIncompleteSend, [data.bytes.take k.val])
    else (.success, [data.bytes.take k.val])

/-! ## handle_server -/

/-- `client_thread_params_s`, with the compile-time `SENSOR_RATE` -/
structure ClientThreadParams where
  id : UInt32
  logsFilesFlag : Bool
  packetsPerSensor : Int
  sensorRate : Nat

/-- `DELAY_MS` -/
def ClientThreadParams.delayMs (params : ClientThreadParams) : Nat := 1000 / params.sensorRate

def ClientThreadParams.delayNsec (params : ClientThreadParams) : Nat := params.delayMs * 1000000

/-- the outcomes of the calls up to `sendto`.  `serialize_sensor_data` only ever returns success,
but the loop asks, and is modelled for every answer. -/
structure SendOutcome where
  random : Option UInt32
  serialize : ClientSocketStatus
  sendto : SendtoResult
  deriving DecidableEq

structure IterationOutcome where
  send : SendOutcome
  log : LogOutcome
  deriving DecidableEq

/-- what a sensor thread does to the outside, besides its log file -/
inductive ClientEvent where
  | sendto (st : ClientSocketStatus) (network : List (List UInt8))
  | nanosleep (nsec : Nat)

/-- the datagrams of the successful sends, in order -/
def sentOf (trace : List ClientEvent) : List (List UInt8) :=
  trace.flatMap fun
    | .sendto .success network => network
    | _ => []

/-- everything that went out on the network, in order -/
def networkOf (trace : List ClientEvent) : List (List UInt8) :=
  trace.flatMap fun
    | .sendto _ network => network
    | .nanosleep _ => []

structure ClientThread where
  packetsPerThread : Int
  logsFile : List LogLine
  trace : List ClientEvent

/-- from the top of the body to the test of `send_to_socket`: the record if the body goes on, and
what has been sent -/
def sendPhase (o : ByteOrder) (params : ClientThreadParams) (out : SendOutcome) :
    Option PackedData × List ClientEvent :=
  match packSensorData o PackedData.zero params.id out.random with
  | (.success, data) =>
    let serializedData := (serializeSensorData o data PackedData.zero).2
    if out.serialize ≠ .success then (none, [])
    else
      let res := sendToSocket serializedData out.sendto
      if res.1 ≠ .success then (none, [.sendto res.1 res.2])
      else (some data, [.sendto res.1 res.2])
  | _ => (none, [])

def ClientThread.sent (t : ClientThread) (events : List ClientEvent) : ClientThread :=
  { t with trace := t.trace ++ events }

def logPhase (o : ByteOrder) (params : ClientThreadParams) (out : LogOutcome) (data : PackedData)
    (t : ClientThread) : ClientThread :=
  let sleep (t : ClientThread) : ClientThread :=
    { t with trace := t.trace ++ [.nanosleep params.delayNsec]
             packetsPerThread := t.packetsPerThread - 1 }
  if params.logsFilesFlag then
    match logClientSensorData (some t.logsFile) (some (data.view o)) params.id out with
    | (.success, some file) => sleep { t with logsFile := file }
    -- the datagram has been sent, but the counter stays
    | _ => t
  else sleep t

def handleServerIteration (o : ByteOrder) (params : ClientThreadParams) (out : IterationOutcome)
    (t : ClientThread) : ClientThread :=
  match sendPhase o params out.send with
  | (some data, events) => logPhase o params out.log data (t.sent events)
  | (none, events) => t.sent events

/-- the loop, defined when it returns just at the end of the outcomes -/
def handleServer (o : ByteOrder) (params : ClientThreadParams) :
    ClientThread → List IterationOutcome → Option ClientThread
  | t, [] => if t.packetsPerThread = 0 then some t else none
  | t, out :: outs =>
    if t.packetsPerThread = 0 then none
    else handleServer o params (handleServerIteration o params out t) outs

def ClientThread.start (params : ClientThreadParams) (file : List LogLine) : ClientThread where
  packetsPerThread := params.packetsPerSensor
  logsFile := file
  trace := []

/-! ## what an iteration does -/

def reading (id : UInt32) (number : UInt32) : ProtoSensorData where
  hdr := { type := protoSensorData, sensorId := id, len := 4 }
  data := number

/-- the word that goes out in an iteration, if its send succeeds -/
def SendOutcome.number (out : SendOutcome) : Option UInt32 :=
  if out.serialize = .success ∧ out.sendto = .sent 14 then out.random else none

/-- the line an iteration that reaches its log call leaves in the file -/
def LogOutcome.line (out : LogOutcome) (id : UInt32) (number : UInt32) : Option LogLine :=
  if out.written then
    out.clock.text.map fun time =>
      { format := "[%s] Thread %d sent data from sensor %d. Value: %f\n", time := time,
        threadId := id, sensorId := id, value := number }
  else none

def sentBy (params : ClientThreadParams) (out : IterationOutcome) : Option (List UInt8) :=
  out.send.number.map fun number => wireBytes (reading params.id number)

def counted (params : ClientThreadParams) (out : IterationOutcome) : Bool :=
  out.send.number.isSome && (!params.logsFilesFlag || out.log.clock.text.isSome)

def loggedBy (params : ClientThreadParams) (out : IterationOutcome) : Option LogLine :=
  if params.logsFilesFlag then out.send.number.bind (out.log.line params.id) else none

theorem packSensorData_some (o : ByteOrder) (id : UInt32) (number : UInt32) :
    packSensorData o PackedData.zero id (some number) =
      (.success, PackedData.ofRecord o (reading id number)) := rfl

theorem sendToSocket_success (data : PackedData) (r : SendtoResult) :
    (sendToSocket data r).1 = .success ↔ r = .sent 14 := by
  cases r with
  | error => simp [sendToSocket]
  | sent k =>
    have hk : k.val = 14 ↔ SendtoResult.sent k = .sent 14 := by
      rw [SendtoResult.sent.injEq, Fin.ext_iff]
      rfl
    have h14 : sizeofProtoSensorData = 14 := rfl
    refine Iff.trans ?_ hk
    unfold sendToSocket
    by_cases h0 : k.val = 0
    · simp [h0]
    · by_cases hk14 : k.val = 14
      · simp [hk14, h14]
      · simp [h0, hk14, h14]

theorem sendToSocket_network (data : PackedData) :
    sendToSocket data (.sent 14) = (.success, [data.bytes]) := by
  have h : data.bytes.take 14 = data.bytes := List.take_of_length_le (by rw [data.size]; decide)
  show (ClientSocketStatus.success, [data.bytes.take 14]) = _
  rw [h]

theorem sendToSocket_short (data : PackedData) (r : SendtoResult) (h : r ≠ .sent 14) :
    ∀ d ∈ (sendToSocket data r).2, d.length < sizeofProtoSensorData := by
  have h14 : sizeofProtoSensorData = 14 := rfl
  cases r with
  | error => simp [sendToSocket]
  | sent k =>
    have hk : k.val ≠ 14 := by
      intro hk
      exact h (congrArg SendtoResult.sent (Fin.ext hk))
    have hlt : k.val < 14 := by
      have := k.isLt
      omega
    unfold sendToSocket
    by_cases h0 : k.val = 0
    · simp [h0]
    · simp [h0, hk, h14, hlt]

theorem sentOf_append (a b : List ClientEvent) : sentOf (a ++ b) = sentOf a ++ sentOf b :=
  List.flatMap_append

/-- what the first half of an iteration does: a successful send puts the reading on the wire, any
other outcome at most a part of it -/
theorem sendPhase_spec (o : ByteOrder) (params : ClientThreadParams) (out : SendOutcome) :
    match out.number with
    | some number => sendPhase o params out =
        (some (PackedData.ofRecord o (reading params.id number)),
          [.sendto .success [wireBytes (reading params.id number)]])
    | none => ∃ events, sendPhase o params out = (none, events) ∧ sentOf events = [] ∧
        ∀ d ∈ networkOf events, d.length < sizeofProtoSensorData := by
  obtain ⟨random, serialize, sendto⟩ := out
  cases random with
  | none =>
    have hn : SendOutcome.number ⟨none, serialize, sendto⟩ = none := by
      unfold SendOutcome.number
      split <;> rfl
    rw [hn]
    exact ⟨[], rfl, rfl, by simp [networkOf]⟩
  | some number =>
    unfold sendPhase SendOutcome.number
    simp only [packSensorData_some]
    by_cases hser : serialize = .success
    · by_cases hsend : sendto = .sent 14
      · rw [if_pos ⟨hser, hsend⟩, hsend, sendToSocket_network, serializeSensorData_bytes,
          PackedData.view_ofRecord]
        simp [hser]
      · rw [if_neg (fun h => hsend h.2)]
        have hst : (sendToSocket (serializeSensorData o (PackedData.ofRecord o
            (reading params.id number)) PackedData.zero).2 sendto).1 ≠ .success :=
          fun h => hsend ((sendToSocket_success _ _).mp h)
        refine ⟨_, by simp only [hser, ne_eq, not_true_eq_false, if_false]; rw [if_pos hst], ?_, ?_⟩
        · cases hr : (sendToSocket (serializeSensorData o (PackedData.ofRecord o
            (reading params.id number)) PackedData.zero).2 sendto).1 with
          | success => exact absurd hr hst
          | _ => rfl
        · simpa [networkOf] using sendToSocket_short _ sendto hsend
    · rw [if_neg (fun h => hser h.1)]
      exact ⟨[], by simp [hser], rfl, by simp [networkOf]⟩

theorem logPhase_spec (o : ByteOrder) (params : ClientThreadParams) (out : LogOutcome)
    (number : UInt32) (t : ClientThread) :
    let t' := logPhase o params out (PackedData.ofRecord o (reading params.id number)) t
    t'.packetsPerThread = t.packetsPerThread -
      (if !params.logsFilesFlag || out.clock.text.isSome then 1 else 0) ∧
    t'.logsFile = t.logsFile ++
      (if params.logsFilesFlag then out.line params.id number else none).toList ∧
    sentOf t'.trace = sentOf t.trace := by
  unfold logPhase
  cases hf : params.logsFilesFlag with
  | false => simp [sentOf]
  | true =>
    rw [PackedData.view_ofRecord]
    unfold logClientSensorData LogOutcome.line
    rw [logSensorData_some]
    cases ht : out.clock.text with
    | none => simp
    | some time =>
      cases hw : out.written with
      | false => simp [sentOf]
      | true => simp [sentOf, reading, floatBits]

theorem handleServerIteration_spec (o : ByteOrder) (params : ClientThreadParams)
    (out : IterationOutcome) (t : ClientThread) :
    let t' := handleServerIteration o params out t
    t'.packetsPerThread = t.packetsPerThread - (if counted params out then 1 else 0) ∧
    t'.logsFile = t.logsFile ++ (loggedBy params out).toList ∧
    sentOf t'.trace = sentOf t.trace ++ (sentBy params out).toList := by
  have hsend := sendPhase_spec o params out.send
  unfold handleServerIteration counted loggedBy sentBy
  cases hn : out.send.number with
  | none =>
    rw [hn] at hsend
    obtain ⟨events, he, hs, -⟩ := hsend
    rw [he]
    simp [ClientThread.sent, sentOf_append, hs]
  | some number =>
    rw [hn] at hsend
    rw [show sendPhase o params out.send = _ from hsend]
    obtain ⟨hp, hl, hs⟩ := logPhase_spec o params out.log number
      (t.sent [.sendto .success [wireBytes (reading params.id number)]])
    refine ⟨?_, ?_, ?_⟩
    · simpa [ClientThread.sent] using hp
    · simpa [ClientThread.sent] using hl
    · show sentOf (logPhase _ _ _ _ _).trace = _
      rw [hs, ClientThread.sent, sentOf_append]
      rfl

/-! ## what a run that returns does -/

/-- a run that returns has counted every packet, and sent and logged what its iterations say -/
theorem handleServer_effects (o : ByteOrder) (params : ClientThreadParams)
    (outs : List IterationOutcome) : ∀ t t' : ClientThread,
    handleServer o params t outs = some t' →
      t.packetsPerThread = outs.countP (counted params) ∧
      t'.logsFile = t.logsFile ++ outs.filterMap (loggedBy params) ∧
      sentOf t'.trace = sentOf t.trace ++ outs.filterMap (sentBy params) := by
  induction outs with
  | nil =>
    intro t t' h
    unfold handleServer at h
    split at h
    · rename_i h0
      cases h
      simpa using h0
    · cases h
  | cons out outs ih =>
    intro t t' h
    unfold handleServer at h
    split at h
    · cases h
    · obtain ⟨hp, hl, hs⟩ := handleServerIteration_spec o params out t
      obtain ⟨hp', hl', hs'⟩ := ih _ _ h
      refine ⟨?_, ?_, ?_⟩
      · rw [List.countP_cons]
        rw [hp] at hp'
        split at hp'
        · rename_i hc
          rw [if_pos hc]
          push_cast
          omega
        · rename_i hc
          rw [if_neg hc]
          omega
      · rw [hl', hl, List.append_assoc, Lists.filterMap_cons_toList]
      · rw [hs', hs, List.append_assoc, Lists.filterMap_cons_toList]

end SensorSimulator
