import SensorSimulator.Common

/-!
# The wire codec: serialize_sensor_data (client) and deserialize_sensor_data (server)

Both work in place on the packed struct, in the memory of their own host.

* `serializeSensorData_bytes`   the client's bytes are `wireBytes`, the big-endian fields one after
                                the other, whatever the client's byte order;
* `deserialized_view`           the server sees `decodeMessage` of the buffer's first 14 bytes,
                                whatever its byte order and whatever was in the struct;
* `decodeMessage_wireBytes`, `wireBytes_decodeMessage`   the two directions of the round trip.
-/

namespace SensorSimulator
open ByteOrder Mem

/-- a buffer from which a whole message can be read -/
abbrev MessageBuffer := { bs : List UInt8 // sizeofProtoSensorData ≤ bs.length }

/-- `memcpy(p_data_out, buffer, sizeof(proto_sensor_data_s))` -/
def memcpyMessage (buffer : MessageBuffer) : PackedData where
  bytes := buffer.1.take sizeofProtoSensorData
  size := by rw [List.length_take, Nat.min_eq_left buffer.2]

/-- the struct after the copy and the four conversions in place -/
def deserialized (o : ByteOrder) (buffer : MessageBuffer) : PackedData :=
  let p := memcpyMessage buffer
  let p := p.convert o .type (ntohl o)
  let p := p.convert o .sensorId (ntohl o)
  let p := p.convert o .len (ntohs o)
  p.convert o .data (ntohl o)

/-- `none` stands for a `NULL` argument -/
def deserializeSensorData (o : ByteOrder) (buffer : Option MessageBuffer)
    (pDataOut : Option PackedData) : ServerSocketStatus × Option PackedData :=
  match buffer, pDataOut with
  | some buffer, some _ => (.success, some (deserialized o buffer))
  | _, _ => (.deserializeSensorDataNullPointer, pDataOut)

def serializeSensorData (o : ByteOrder) (data serializedData : PackedData) :
    ClientSocketStatus × PackedData :=
  let p := serializedData.set o .type (htonl o (data.get o .type))
  let p := p.set o .sensorId (htonl o (data.get o .sensorId))
  let p := p.set o .len (htons o (data.get o .len))
  let p := p.set o .data (htonl o (data.get o .data))
  (.success, p)

/-! ## the format -/

/-- the 14 bytes of a record on the wire -/
def wireBytes (r : ProtoSensorData) : List UInt8 :=
  big.encode 4 r.hdr.type.toNat ++ (big.encode 4 r.hdr.sensorId.toNat ++
    (big.encode 2 r.hdr.len.toNat ++ big.encode 4 r.data.toNat))

/-- bytes 0-3, 4-7, 8-9 and 10-13 as big-endian type, sensor id, length and data -/
def decodeMessage (d : List UInt8) : ProtoSensorData where
  hdr := { type := UInt32.ofNat (big.decode (slice 0 4 d))
           sensorId := UInt32.ofNat (big.decode (slice 4 4 d))
           len := UInt16.ofNat (big.decode (slice 8 2 d)) }
  data := UInt32.ofNat (big.decode (slice 10 4 d))

@[simp] theorem length_wireBytes (r : ProtoSensorData) :
    (wireBytes r).length = sizeofProtoSensorData := by
  simp [wireBytes, sizeofProtoSensorData]

theorem decodeMessage_take (d : List UInt8) (n : Nat) (h : sizeofProtoSensorData ≤ n) :
    decodeMessage (d.take n) = decodeMessage d := by
  have hn : 14 ≤ n := h
  unfold decodeMessage
  rw [slice_take 0 4 n d (by omega), slice_take 4 4 n d (by omega), slice_take 8 2 n d (by omega),
    slice_take 10 4 n d (by omega)]

theorem decodeMessage_append (d t : List UInt8) (h : sizeofProtoSensorData ≤ d.length) :
    decodeMessage (d ++ t) = decodeMessage d := by
  have hd : 14 ≤ d.length := h
  unfold decodeMessage
  rw [slice_append_left 0 4 d t (by omega), slice_append_left 4 4 d t (by omega),
    slice_append_left 8 2 d t (by omega), slice_append_left 10 4 d t (by omega)]

theorem decodeMessage_wireBytes (r : ProtoSensorData) : decodeMessage (wireBytes r) = r := by
  have s1 : slice 0 4 (wireBytes r) = big.encode 4 r.hdr.type.toNat :=
    slice_append_self 4 _ _ (length_encode _ _ _)
  have s2 : slice 4 4 (wireBytes r) = big.encode 4 r.hdr.sensorId.toNat := by
    unfold wireBytes
    rw [slice_append_right 4 4 _ _ (by simp), length_encode,
      slice_append_self 4 _ _ (length_encode _ _ _)]
  have s3 : slice 8 2 (wireBytes r) = big.encode 2 r.hdr.len.toNat := by
    unfold wireBytes
    rw [slice_append_right 8 2 _ _ (by simp), length_encode, slice_append_right _ 2 _ _ (by simp),
      length_encode, slice_append_self 2 _ _ (length_encode _ _ _)]
  have s4 : slice 10 4 (wireBytes r) = big.encode 4 r.data.toNat := by
    unfold wireBytes
    rw [slice_append_right 10 4 _ _ (by simp), length_encode, slice_append_right _ 4 _ _ (by simp),
      length_encode, slice_append_right _ 4 _ _ (by simp), length_encode]
    exact List.take_of_length_le (by simp)
  have h1 : r.hdr.type.toNat < 256 ^ 4 := r.hdr.type.toNat_lt
  have h2 : r.hdr.sensorId.toNat < 256 ^ 4 := r.hdr.sensorId.toNat_lt
  have h3 : r.hdr.len.toNat < 256 ^ 2 := r.hdr.len.toNat_lt
  have h4 : r.data.toNat < 256 ^ 4 := r.data.toNat_lt
  unfold decodeMessage
  rw [s1, s2, s3, s4, decode_encode _ _ _ h1, decode_encode _ _ _ h2, decode_encode _ _ _ h3,
    decode_encode _ _ _ h4, UInt32.ofNat_toNat, UInt32.ofNat_toNat, UInt16.ofNat_toNat,
    UInt32.ofNat_toNat]

theorem encode_ofNat32 (bs : List UInt8) (h : bs.length = 4) :
    big.encode 4 (UInt32.ofNat (big.decode bs)).toNat = bs := by
  have hlt := big.decode_lt bs
  rw [h] at hlt
  have hmod : (UInt32.ofNat (big.decode bs)).toNat = big.decode bs := by
    rw [UInt32.toNat_ofNat']
    exact Nat.mod_eq_of_lt hlt
  have hround := big.encode_decode bs
  rw [h] at hround
  rw [hmod, hround]

theorem encode_ofNat16 (bs : List UInt8) (h : bs.length = 2) :
    big.encode 2 (UInt16.ofNat (big.decode bs)).toNat = bs := by
  have hlt := big.decode_lt bs
  rw [h] at hlt
  have hmod : (UInt16.ofNat (big.decode bs)).toNat = big.decode bs := by
    rw [UInt16.toNat_ofNat']
    exact Nat.mod_eq_of_lt hlt
  have hround := big.encode_decode bs
  rw [h] at hround
  rw [hmod, hround]

theorem wireBytes_decodeMessage (d : List UInt8) (h : sizeofProtoSensorData ≤ d.length) :
    wireBytes (decodeMessage d) = d.take sizeofProtoSensorData := by
  have hd : 14 ≤ d.length := h
  show big.encode 4 (UInt32.ofNat _).toNat ++ (big.encode 4 (UInt32.ofNat _).toNat ++
    (big.encode 2 (UInt16.ofNat _).toNat ++ big.encode 4 (UInt32.ofNat _).toNat)) = _
  rw [encode_ofNat32 _ (length_slice 0 4 d (by omega)),
    encode_ofNat32 _ (length_slice 4 4 d (by omega)),
    encode_ofNat16 _ (length_slice 8 2 d (by omega)),
    encode_ofNat32 _ (length_slice 10 4 d (by omega)),
    slice_append_slice 8 2 4 d, slice_append_slice 4 4 6 d, slice_append_slice 0 4 10 d]
  rfl

/-! ## the two programs against the format -/

theorem serializeSensorData_field (o : ByteOrder) (data ser : PackedData) (f : Field) :
    (serializeSensorData o data ser).2.fieldBytes f = big.encode f.size (data.get o f) := by
  unfold serializeSensorData
  cases f with
  | type =>
    rw [PackedData.fieldBytes_set_of_ne _ .data .type _ _ nofun,
      PackedData.fieldBytes_set_of_ne _ .len .type _ _ nofun,
      PackedData.fieldBytes_set_of_ne _ .sensorId .type _ _ nofun,
      PackedData.fieldBytes_set_self]
    exact encode_hton o 4 _
  | sensorId =>
    rw [PackedData.fieldBytes_set_of_ne _ .data .sensorId _ _ nofun,
      PackedData.fieldBytes_set_of_ne _ .len .sensorId _ _ nofun,
      PackedData.fieldBytes_set_self]
    exact encode_hton o 4 _
  | len =>
    rw [PackedData.fieldBytes_set_of_ne _ .data .len _ _ nofun,
      PackedData.fieldBytes_set_self]
    exact encode_hton o 2 _
  | data =>
    rw [PackedData.fieldBytes_set_self]
    exact encode_hton o 4 _

/-- what a host stored in a field and sees there, as a word of the record -/
theorem view_toNat (o : ByteOrder) (m : PackedData) :
    (m.view o).hdr.type.toNat = m.get o .type ∧ (m.view o).hdr.sensorId.toNat = m.get o .sensorId ∧
    (m.view o).hdr.len.toNat = m.get o .len ∧ (m.view o).data.toNat = m.get o .data := by
  refine ⟨?_, ?_, ?_, ?_⟩
  · exact UInt32.toNat_ofNat_of_lt (m.get_lt o .type)
  · exact UInt32.toNat_ofNat_of_lt (m.get_lt o .sensorId)
  · exact UInt16.toNat_ofNat_of_lt (m.get_lt o .len)
  · exact UInt32.toNat_ofNat_of_lt (m.get_lt o .data)

theorem serializeSensorData_bytes (o : ByteOrder) (data ser : PackedData) :
    (serializeSensorData o data ser).2.bytes = wireBytes (data.view o) := by
  obtain ⟨h1, h2, h3, h4⟩ := view_toNat o data
  rw [PackedData.bytes_eq_fields, serializeSensorData_field, serializeSensorData_field,
    serializeSensorData_field, serializeSensorData_field]
  unfold wireBytes
  rw [h1, h2, h3, h4]
  rfl

theorem get_memcpyMessage (o : ByteOrder) (buffer : MessageBuffer) (f : Field) :
    ntoh o f.size ((memcpyMessage buffer).get o f) = big.decode (slice f.off f.size buffer.1) := by
  have hlen := (memcpyMessage buffer).length_fieldBytes f
  have h := ntoh_decode o ((memcpyMessage buffer).fieldBytes f)
  rw [hlen] at h
  have hslice : (memcpyMessage buffer).fieldBytes f = slice f.off f.size buffer.1 :=
    slice_take _ _ _ _ f.fits
  show ntoh o f.size (o.decode ((memcpyMessage buffer).fieldBytes f)) = _
  rw [h, hslice]

theorem get_deserialized (o : ByteOrder) (buffer : MessageBuffer) (f : Field) :
    (deserialized o buffer).get o f = big.decode (slice f.off f.size buffer.1) := by
  have hget := get_memcpyMessage o buffer f
  have hlt := ntoh_lt o f.size _ ((memcpyMessage buffer).get_lt o f)
  unfold deserialized
  cases f with
  | type =>
    rw [PackedData.get_convert_of_ne _ .data .type _ _ nofun,
      PackedData.get_convert_of_ne _ .len .type _ _ nofun,
      PackedData.get_convert_of_ne _ .sensorId .type _ _ nofun,
      PackedData.get_convert_self _ _ (ntohl o) _ hlt]
    exact hget
  | sensorId =>
    rw [PackedData.get_convert_of_ne _ .data .sensorId _ _ nofun,
      PackedData.get_convert_of_ne _ .len .sensorId _ _ nofun,
      PackedData.get_convert_self, PackedData.get_convert_of_ne _ .type .sensorId _ _ nofun]
    · exact hget
    · rw [PackedData.get_convert_of_ne _ .type .sensorId _ _ nofun]
      exact hlt
  | len =>
    rw [PackedData.get_convert_of_ne _ .data .len _ _ nofun, PackedData.get_convert_self,
      PackedData.get_convert_of_ne _ .sensorId .len _ _ nofun,
      PackedData.get_convert_of_ne _ .type .len _ _ nofun]
    · exact hget
    · rw [PackedData.get_convert_of_ne _ .sensorId .len _ _ nofun,
        PackedData.get_convert_of_ne _ .type .len _ _ nofun]
      exact hlt
  | data =>
    rw [PackedData.get_convert_self, PackedData.get_convert_of_ne _ .len .data _ _ nofun,
      PackedData.get_convert_of_ne _ .sensorId .data _ _ nofun,
      PackedData.get_convert_of_ne _ .type .data _ _ nofun]
    · exact hget
    · rw [PackedData.get_convert_of_ne _ .len .data _ _ nofun,
        PackedData.get_convert_of_ne _ .sensorId .data _ _ nofun,
        PackedData.get_convert_of_ne _ .type .data _ _ nofun]
      exact hlt

theorem deserialized_view (o : ByteOrder) (buffer : MessageBuffer) :
    (deserialized o buffer).view o = decodeMessage buffer.1 := by
  unfold PackedData.view decodeMessage
  rw [get_deserialized, get_deserialized, get_deserialized, get_deserialized]
  rfl

/-! ## the round trip -/

/-- **The codec round trip on any pair of hosts.**  The bytes a client serializes are the
big-endian fields of its record, the server reads that record back from them whatever follows,
with the float of the same bits, and serializing a deserialized record gives back the buffer's message. -/
theorem codec_round_trip (client server : ByteOrder) (r : ProtoSensorData) (t : List UInt8)
    (ser old : PackedData) :
    let sent := (serializeSensorData client (PackedData.ofRecord client r) ser).2.bytes
    sent = big.encode 4 r.hdr.type.toNat ++ (big.encode 4 r.hdr.sensorId.toNat ++
        (big.encode 2 r.hdr.len.toNat ++ big.encode 4 r.data.toNat)) ∧
    (∃ h : sizeofProtoSensorData ≤ (sent ++ t).length, ∃ got : PackedData,
      deserializeSensorData server (some ⟨sent ++ t, h⟩) (some old) = (.success, some got) ∧
      got.view server = r ∧ floatBits (got.view server) = r.data ∧
      getFloatValue (got.view server) = Float32.ofBits r.data) ∧
    (∀ buffer : MessageBuffer, ∃ got : PackedData,
      deserializeSensorData server (some buffer) (some old) = (.success, some got) ∧
      (serializeSensorData client (PackedData.ofRecord client (got.view server)) ser).2.bytes
        = buffer.1.take sizeofProtoSensorData) := by
  have hsent : (serializeSensorData client (PackedData.ofRecord client r) ser).2.bytes
      = wireBytes r := by
    rw [serializeSensorData_bytes, PackedData.view_ofRecord]
  intro sent
  have e : sent = wireBytes r := hsent
  have hlen : sizeofProtoSensorData ≤ (sent ++ t).length := by
    rw [e, List.length_append, length_wireBytes]
    omega
  have hview : (deserialized server ⟨sent ++ t, hlen⟩).view server = r := by
    rw [deserialized_view]
    show decodeMessage (sent ++ t) = r
    rw [e, decodeMessage_append _ _ (by rw [length_wireBytes]), decodeMessage_wireBytes]
  refine ⟨e, ⟨hlen, _, rfl, hview, ?_, ?_⟩, ?_⟩
  · rw [hview]
    rfl
  · rw [hview]
    rfl
  · intro buffer
    refine ⟨_, rfl, ?_⟩
    rw [serializeSensorData_bytes, PackedData.view_ofRecord, deserialized_view,
      wireBytes_decodeMessage _ buffer.2]

end SensorSimulator
