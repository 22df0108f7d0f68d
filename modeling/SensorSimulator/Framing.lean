import SensorSimulator.Client
import SensorSimulator.Receive

/-!
# The client's messages against the server's acceptance

What the server asks of a datagram is its size, its type and its sensor id; the length field
travels with the message and is read by nobody.  `packSensorData_accepted`: what the client sends
for a known sensor is always taken.
-/

namespace SensorSimulator

theorem packSensorData_bytes (o : ByteOrder) (id number : UInt32) (ser : PackedData) :
    (serializeSensorData o (packSensorData o PackedData.zero id (some number)).2 ser).2.bytes =
      wireBytes (reading id number) := by
  rw [packSensorData_some, serializeSensorData_bytes, PackedData.view_ofRecord]

theorem packSensorData_accepted (client server : ByteOrder) (n : Nat) (buffer : Buffer)
    (id number : UInt32) (ser : PackedData) (hid : id.toNat < n) :
    (receiveIteration server n buffer ⟨.datagram (serializeSensorData client
      (packSensorData client PackedData.zero id (some number)).2 ser).2.bytes, true⟩).2 =
      some (id, reading id number) := by
  rw [packSensorData_bytes, receiveIteration_inserts]
  refine ⟨_, rfl, ?_, ?_, rfl, rfl, hid, rfl⟩
  · rw [length_wireBytes]
    decide
  · rw [decodeMessage_wireBytes]

/-- **What the server accepts.**  After any history a datagram is inserted exactly when it holds a
whole message with the known type and a known sensor id and there is memory for it; the record is
decoded from its own bytes, so its four data bytes are among those behind the header.  Everything
the client can send for a known sensor is inserted, and says so in its length field. -/
theorem receiveIteration_framing (client server : ByteOrder) (n : Nat) (b : Buffer)
    (history : List Iteration) (ser : PackedData) :
    let buffer := (receiveLoop server n b history).1
    (∀ (d : List UInt8) (calloc : Bool) (x : UInt32 × ProtoSensorData),
      (receiveIteration server n buffer ⟨.datagram d, calloc⟩).2 = some x ↔
        sizeofProtoHdr + sizeofFloat ≤ d.length ∧ x.2 = decodeMessage d ∧
        x.2.hdr.type = protoSensorData ∧ x.1 = x.2.hdr.sensorId ∧ x.1.toNat < n ∧
        calloc = true) ∧
    (∀ id number : UInt32, id.toNat < n →
      (receiveIteration server n buffer ⟨.datagram (serializeSensorData client
        (packSensorData client PackedData.zero id (some number)).2 ser).2.bytes, true⟩).2 =
        some (id, reading id number) ∧
      (reading id number).hdr.len.toNat = sizeofFloat) := by
  intro buffer
  constructor
  · intro d calloc x
    rw [receiveIteration_inserts]
    constructor
    · rintro ⟨d', hd', h⟩
      cases hd'
      exact h
    · intro h
      exact ⟨d, rfl, h⟩
  · intro id number hid
    exact ⟨packSensorData_accepted client server n buffer id number ser hid, rfl⟩

/-- a datagram that announces 65535 bytes of data and brings four is inserted -/
theorem receiveIteration_any_len :
    let d : List UInt8 := [0, 0, 0, 0, 0, 0, 0, 0, 255, 255, 1, 2, 3, 4]
    ∃ x, (receiveIteration .little 5 Buffer.zero ⟨.datagram d, true⟩).2 = some x ∧
      ¬ (x.2.hdr.len.toNat = sizeofFloat ∧ x.2.hdr.len.toNat ≤ d.length - sizeofProtoHdr) := by
  intro d
  refine ⟨((decodeMessage d).hdr.sensorId, decodeMessage d), ?_, by decide⟩
  rw [receiveIteration_inserts]
  exact ⟨d, rfl, by decide, rfl, by decide, rfl, by decide, rfl⟩

end SensorSimulator
