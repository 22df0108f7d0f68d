import SensorSimulator.Lib.Bytes

/-!
# common.h: the message, its packed memory, the status codes

* `ProtoSensorData`   the fields of `proto_sensor_data_s`;
* `PackedData`        the 14 bytes of the packed struct in the memory of a host;
* `Field`             the four fields with their offsets and sizes (`__attribute__((packed))`:
                      they follow each other without gaps, `Field.off_add_size`);
* `PackedData.get`, `PackedData.set`   a field read or written in place, by a host of byte order `o`;
* `PackedData.view`   the field values that such a host sees;
* `htonl`, `htons`, `ntohl`, `ntohs`   the conversions of that host.
-/

namespace SensorSimulator
open ByteOrder Mem

/-! ## constants -/

def maxBufferSize : Nat := 1024
/-- `PROTO_SENSOR_DATA` -/
def protoSensorData : UInt32 := 0
def sizeofProtoHdr : Nat := 10
def sizeofProtoSensorData : Nat := 14
def sizeofFloat : Nat := 4

/-! ## status codes -/

/-- `STATUS_ERROR`, `STATUS_SUCCESS` -/
inductive Status where
  | error
  | success
  deriving DecidableEq, Repr

def Status.code : Status → Int
  | .error => -1
  | .success => 0

/-- `server_socket_status_e` -/
inductive ServerSocketStatus where
  | success
  | initServerSocketSocketError
  | initServerSocketReuseaddrError
  | initServerSocketRcvbufError
  | initServerSocketBindError
  | initServerSocketSetsockoptError
  | receiveFromSocketInteruptedBySignal
  | receiveFromSocketRecvfromError
  | receiveFromSocketEmptyPacket
  | receiveFromSocketTruncatedPacket
  | deserializeSensorDataNullPointer
  deriving DecidableEq, Repr

def ServerSocketStatus.code : ServerSocketStatus → Int
  | .success => 0
  | .initServerSocketSocketError => -101
  | .initServerSocketReuseaddrError => -102
  | .initServerSocketRcvbufError => -103
  | .initServerSocketBindError => -104
  | .initServerSocketSetsockoptError => -105
  | .receiveFromSocketInteruptedBySignal => -201
  | .receiveFromSocketRecvfromError => -202
  | .receiveFromSocketEmptyPacket => -203
  | .receiveFromSocketTruncatedPacket => -204
  | .deserializeSensorDataNullPointer => -301

/-- `client_socket_status_e` -/
inductive ClientSocketStatus where
  | success
  | initClientSocketSocketError
  | initClientSocketSetsockoptError
  | initClientSocketGetaddrinfoError
  | packSensorDataRandomFloatError
  | sendToSocketSendtoError
  | sendToSocketNoBytesSent
  | sendToSocketIncompleteSend
  deriving DecidableEq, Repr

def ClientSocketStatus.code : ClientSocketStatus → Int
  | .success => 0
  | .initClientSocketSocketError => -101
  | .initClientSocketSetsockoptError => -102
  | .initClientSocketGetaddrinfoError => -103
  | .packSensorDataRandomFloatError => -201
  | .sendToSocketSendtoError => -301
  | .sendToSocketNoBytesSent => -302
  | .sendToSocketIncompleteSend => -303

/-- success is zero and nothing else is, so the tests against the success code in the source are
tests against the success constructor here -/
theorem ServerSocketStatus.code_eq_zero (st : ServerSocketStatus) :
    st.code = 0 ↔ st = .success := by
  cases st <;> simp [code]

theorem ClientSocketStatus.code_eq_zero (st : ClientSocketStatus) :
    st.code = 0 ↔ st = .success := by
  cases st <;> simp [code]

/-! ## the message -/

/-- `proto_hdr_s` -/
structure ProtoHdr where
  type : UInt32
  sensorId : UInt32
  len : UInt16
  deriving DecidableEq, Repr

/-- `proto_sensor_data_s` -/
structure ProtoSensorData where
  hdr : ProtoHdr
  data : UInt32
  deriving DecidableEq, Repr

/-- the bytes that `get_float_value` copies into its `float`, as a word of the host -/
def floatBits (data : ProtoSensorData) : UInt32 := data.data

/-- `get_float_value`: the data word taken as the bits of a `float` -/
def getFloatValue (data : ProtoSensorData) : Float32 := Float32.ofBits (floatBits data)

/-! ## host and network order -/

def htonl (o : ByteOrder) (n : Nat) : Nat := hton o 4 n
def htons (o : ByteOrder) (n : Nat) : Nat := hton o 2 n
def ntohl (o : ByteOrder) (n : Nat) : Nat := ntoh o 4 n
def ntohs (o : ByteOrder) (n : Nat) : Nat := ntoh o 2 n

/-! ## the packed struct in memory -/

inductive Field where
  | type
  | sensorId
  | len
  | data
  deriving DecidableEq, Repr

namespace Field

def off : Field → Nat
  | .type => 0
  | .sensorId => 4
  | .len => 8
  | .data => 10

def size : Field → Nat
  | .type => 4
  | .sensorId => 4
  | .len => 2
  | .data => 4

theorem fits (f : Field) : f.off + f.size ≤ sizeofProtoSensorData := by
  cases f <;> decide

/-- the header ends where the data begins, and the data where the struct ends -/
theorem off_add_size : Field.type.off + Field.type.size = Field.sensorId.off ∧
    Field.sensorId.off + Field.sensorId.size = Field.len.off ∧
    Field.len.off + Field.len.size = sizeofProtoHdr ∧ sizeofProtoHdr = Field.data.off ∧
    Field.data.off + Field.data.size = sizeofProtoSensorData := by
  decide

theorem disjoint (f g : Field) (h : f ≠ g) : g.off + g.size ≤ f.off ∨ f.off + f.size ≤ g.off := by
  cases f <;> cases g <;> simp [off, size] at h ⊢

end Field

/-- the memory of a `proto_sensor_data_s` -/
structure PackedData where
  bytes : List UInt8
  size : bytes.length = sizeofProtoSensorData
  deriving DecidableEq

namespace PackedData

/-- `memset(&data, 0, sizeof(proto_sensor_data_s))`, and what `calloc` returns -/
def zero : PackedData := ⟨List.replicate sizeofProtoSensorData 0, List.length_replicate⟩

/-- the bytes of a field -/
def fieldBytes (f : Field) (m : PackedData) : List UInt8 := slice f.off f.size m.bytes

def get (o : ByteOrder) (f : Field) (m : PackedData) : Nat := o.decode (m.fieldBytes f)

def set (o : ByteOrder) (f : Field) (n : Nat) (m : PackedData) : PackedData where
  bytes := store o f.off f.size n m.bytes
  size := by
    rw [length_store _ _ _ _ _ (by rw [m.size]; exact f.fits), m.size]

/-- the field values that a host of byte order `o` sees -/
def view (o : ByteOrder) (m : PackedData) : ProtoSensorData where
  hdr := { type := UInt32.ofNat (m.get o .type)
           sensorId := UInt32.ofNat (m.get o .sensorId)
           len := UInt16.ofNat (m.get o .len) }
  data := UInt32.ofNat (m.get o .data)

theorem ext {m m' : PackedData} (h : m.bytes = m'.bytes) : m = m' := by
  cases m; cases m'; cases h; rfl

theorem length_fieldBytes (f : Field) (m : PackedData) : (m.fieldBytes f).length = f.size :=
  length_slice _ _ _ (by rw [m.size]; exact f.fits)

theorem get_lt (o : ByteOrder) (f : Field) (m : PackedData) : m.get o f < 256 ^ f.size := by
  have hfits : f.off + f.size ≤ m.bytes.length := by rw [m.size]; exact f.fits
  exact load_lt o f.off f.size m.bytes hfits

@[simp] theorem fieldBytes_set_self (o : ByteOrder) (f : Field) (n : Nat) (m : PackedData) :
    (m.set o f n).fieldBytes f = o.encode f.size n :=
  slice_store_self _ _ _ _ _ (by rw [m.size]; exact Nat.le_of_add_right_le f.fits)

theorem fieldBytes_set_of_ne (o : ByteOrder) (f g : Field) (n : Nat) (m : PackedData)
    (h : f ≠ g) : (m.set o f n).fieldBytes g = m.fieldBytes g := by
  have hf : f.off + f.size ≤ m.bytes.length := by rw [m.size]; exact f.fits
  rcases f.disjoint g h with hd | hd
  · exact slice_store_before _ _ _ _ _ _ _ (by omega) hd
  · exact slice_store_after _ _ _ _ _ _ _ hf hd

theorem get_set_self (o : ByteOrder) (f : Field) (n : Nat) (m : PackedData)
    (h : n < 256 ^ f.size) : (m.set o f n).get o f = n := by
  have hoff : f.off ≤ m.bytes.length := by
    rw [m.size]
    exact Nat.le_of_add_right_le f.fits
  exact load_store o f.off f.size n m.bytes hoff h

theorem get_set_of_ne (o o' : ByteOrder) (f g : Field) (n : Nat) (m : PackedData) (h : f ≠ g) :
    (m.set o f n).get o' g = m.get o' g := by
  unfold get
  rw [fieldBytes_set_of_ne _ _ _ _ _ h]

/-- `p->f = c(p->f)` -/
def convert (o : ByteOrder) (f : Field) (c : Nat → Nat) (m : PackedData) : PackedData :=
  m.set o f (c (m.get o f))

theorem get_convert_self (o : ByteOrder) (f : Field) (c : Nat → Nat) (m : PackedData)
    (h : c (m.get o f) < 256 ^ f.size) : (m.convert o f c).get o f = c (m.get o f) :=
  get_set_self _ _ _ _ h

theorem get_convert_of_ne (o : ByteOrder) (f g : Field) (c : Nat → Nat) (m : PackedData)
    (h : f ≠ g) : (m.convert o f c).get o g = m.get o g :=
  get_set_of_ne _ _ _ _ _ _ h

/-- the struct is its four fields, in order -/
theorem bytes_eq_fields (m : PackedData) : m.bytes =
    m.fieldBytes .type ++ (m.fieldBytes .sensorId ++ (m.fieldBytes .len ++ m.fieldBytes .data)) := by
  have h1 : m.fieldBytes .len ++ m.fieldBytes .data = slice 8 6 m.bytes :=
    slice_append_slice 8 2 4 m.bytes
  have h2 : m.fieldBytes .sensorId ++ slice 8 6 m.bytes = slice 4 10 m.bytes :=
    slice_append_slice 4 4 6 m.bytes
  have h3 : m.fieldBytes .type ++ slice 4 10 m.bytes = slice 0 14 m.bytes :=
    slice_append_slice 0 4 10 m.bytes
  have h4 := slice_all m.bytes
  rw [m.size] at h4
  rw [h1, h2, h3]
  exact h4.symm

/-- the memory in which a host of byte order `o` keeps the record `r` -/
def ofRecord (o : ByteOrder) (r : ProtoSensorData) : PackedData :=
  (((zero.set o .type r.hdr.type.toNat).set o .sensorId r.hdr.sensorId.toNat).set o .len
    r.hdr.len.toNat).set o .data r.data.toNat

theorem view_ofRecord (o : ByteOrder) (r : ProtoSensorData) : (ofRecord o r).view o = r := by
  have h1 : r.hdr.type.toNat < 256 ^ Field.type.size := r.hdr.type.toNat_lt
  have h2 : r.hdr.sensorId.toNat < 256 ^ Field.sensorId.size := r.hdr.sensorId.toNat_lt
  have h3 : r.hdr.len.toNat < 256 ^ Field.len.size := r.hdr.len.toNat_lt
  have h4 : r.data.toNat < 256 ^ Field.data.size := r.data.toNat_lt
  unfold view ofRecord
  rw [get_set_of_ne _ _ .data .type _ _ nofun, get_set_of_ne _ _ .len .type _ _ nofun,
    get_set_of_ne _ _ .sensorId .type _ _ nofun, get_set_self _ _ _ _ h1,
    get_set_of_ne _ _ .data .sensorId _ _ nofun,
    get_set_of_ne _ _ .len .sensorId _ _ nofun, get_set_self _ _ _ _ h2,
    get_set_of_ne _ _ .data .len _ _ nofun, get_set_self _ _ _ _ h3,
    get_set_self _ _ _ _ h4, UInt32.ofNat_toNat, UInt32.ofNat_toNat, UInt16.ofNat_toNat,
    UInt32.ofNat_toNat]

end PackedData

end SensorSimulator
