import SensorSimulator.Codec
import SensorSimulator.Lib.Lists

/-!
# The server's receive loop, one datagram at a time

`receiveFromSocket` and `receiveIteration` are `receive_from_socket` and the body of main's loop on
the reused 1024-byte buffer; what the outside decides (what `recvfrom` returns, whether `calloc`
succeeds) is in `Iteration`.  `receiveLoop` runs a list of iterations.

The loop's purpose is `accepted`: a function of the datagram alone.  `receiveIteration_inserts`
says that an iteration inserts exactly what `accepted` says, from every buffer, and
`receiveLoop_routes` carries this over all histories.
-/

namespace SensorSimulator
open ByteOrder Mem

/-- `uint8_t buffer[MAX_BUFFER_SIZE]` -/
structure Buffer where
  bytes : List UInt8
  size : bytes.length = maxBufferSize

namespace Buffer

/-- `memset(buffer, 0, sizeof(buffer))` -/
def zero : Buffer := ⟨List.replicate maxBufferSize 0, List.length_replicate⟩

def message (b : Buffer) : MessageBuffer := ⟨b.bytes, by rw [b.size]; decide⟩

end Buffer

/-- the bytes of a datagram that `recvfrom` stores: one byte of the buffer is kept free -/
def storedBytes (d : List UInt8) : List UInt8 := d.take (maxBufferSize - 1)

theorem length_storedBytes_le (d : List UInt8) : (storedBytes d).length ≤ maxBufferSize := by
  unfold storedBytes maxBufferSize
  rw [List.length_take]
  omega

/-- `recvfrom` overwrites a prefix of the buffer and leaves the rest as it was -/
def Buffer.recvfrom (b : Buffer) (d : List UInt8) : Buffer where
  bytes := storedBytes d ++ b.bytes.drop (storedBytes d).length
  size := by
    have h := length_storedBytes_le d
    rw [List.length_append, List.length_drop, b.size]
    omega

inductive Received where
  | interrupted
  | error
  | datagram (d : List UInt8)
  deriving DecidableEq

def receiveFromSocket (buffer : Buffer) (r : Received) : ServerSocketStatus × Buffer :=
  match r with
  | .interrupted => (.receiveFromSocketInteruptedBySignal, buffer)
  | .error => (.receiveFromSocketRecvfromError, buffer)
  | .datagram d =>
    let bytesRead := (storedBytes d).length
    let buffer := buffer.recvfrom d
    if bytesRead = 0 then (.receiveFromSocketEmptyPacket, buffer)
    else if bytesRead < sizeofProtoSensorData then (.receiveFromSocketTruncatedPacket, buffer)
    else (.success, buffer)

/-- what the outside decides in one pass of the loop -/
structure Iteration where
  recv : Received
  calloc : Bool
  deriving DecidableEq

/-- one pass of the loop for `n` sensors: the buffer after it, and the index and the record of
the insertion, if there is one -/
def receiveIteration (o : ByteOrder) (n : Nat) (buffer : Buffer) (it : Iteration) :
    Buffer × Option (UInt32 × ProtoSensorData) :=
  match receiveFromSocket buffer it.recv with
  | (.success, buffer) =>
    if it.calloc = false then (buffer, none)
    else
      match deserializeSensorData o (some buffer.message) (some PackedData.zero) with
      | (.success, some data) =>
        let data := data.view o
        if data.hdr.type ≠ protoSensorData then (buffer, none)
        else if data.hdr.sensorId.toNat ≥ n then (buffer, none)
        else (Buffer.zero, some (data.hdr.sensorId, data))
      | _ => (buffer, none)
  | (_, buffer) => (buffer, none)

def receiveLoop (o : ByteOrder) (n : Nat) (buffer : Buffer) :
    List Iteration → Buffer × List (UInt32 × ProtoSensorData)
  | [] => (buffer, [])
  | it :: its =>
    let next := receiveIteration o n buffer it
    let rest := receiveLoop o n next.1 its
    (rest.1, next.2.toList ++ rest.2)

def insertedIn (i : Nat) (ins : List (UInt32 × ProtoSensorData)) : List ProtoSensorData :=
  ins.filterMap fun x => if x.1.toNat = i then some x.2 else none

/-! ## what the loop is for -/

/-- the record that an iteration owes to queue `i`, read off the datagram alone -/
def accepted (n i : Nat) (it : Iteration) : Option ProtoSensorData :=
  match it.recv with
  | .datagram d =>
    if 14 ≤ d.length ∧ (decodeMessage d).hdr.type = 0 ∧ (decodeMessage d).hdr.sensorId.toNat = i ∧
      i < n ∧ it.calloc = true then some (decodeMessage d) else none
  | _ => none

def Iteration.datagram (it : Iteration) : Option (List UInt8) :=
  match it.recv with
  | .datagram d => some d
  | _ => none

/-- the iteration had a message and no memory for it -/
def Iteration.callocFailed (it : Iteration) : Bool :=
  match it.recv with
  | .datagram d => decide (14 ≤ d.length) && !it.calloc
  | _ => false

/-- the word that a datagram carries for sensor `i`, if it is a message for it -/
def wordFor (i : Nat) (d : List UInt8) : Option UInt32 :=
  if 14 ≤ d.length ∧ (decodeMessage d).hdr.type = 0 ∧ (decodeMessage d).hdr.sensorId.toNat = i then
    some (decodeMessage d).data
  else none

theorem wordFor_short (i : Nat) (d : List UInt8) (h : d.length < sizeofProtoSensorData) :
    wordFor i d = none := if_neg fun hd => absurd hd.1 (Nat.not_le_of_lt h)

theorem accepted_data (n i : Nat) (hi : i < n) (it : Iteration) :
    (accepted n i it).map (·.data) =
      if it.calloc then it.datagram.bind (wordFor i) else none := by
  obtain ⟨recv, calloc⟩ := it
  cases recv with
  | datagram d =>
    cases calloc with
    | true => simp [accepted, Iteration.datagram, wordFor, hi, apply_ite]
    | false => simp [accepted]
  | _ => simp [accepted, Iteration.datagram]

theorem accepted_data_of_calloc (n i : Nat) (hi : i < n) (it : Iteration)
    (h : it.callocFailed = false) :
    (accepted n i it).map (·.data) = it.datagram.bind (wordFor i) := by
  rw [accepted_data n i hi it]
  obtain ⟨recv, calloc⟩ := it
  cases calloc with
  | true => rfl
  | false =>
    cases recv with
    | datagram d =>
      have hd : d.length < 14 := by simpa [Iteration.callocFailed] using h
      exact (wordFor_short i d hd).symm
    | _ => rfl

/-! ## one iteration -/

theorem receiveFromSocket_success (buffer b : Buffer) (r : Received) :
    receiveFromSocket buffer r = (.success, b) ↔
      ∃ d, r = .datagram d ∧ sizeofProtoSensorData ≤ d.length ∧ b = buffer.recvfrom d := by
  have hlen : ∀ d : List UInt8, (storedBytes d).length = min 1023 d.length :=
    fun d => List.length_take
  cases r with
  | interrupted => simp [receiveFromSocket]
  | error => simp [receiveFromSocket]
  | datagram d =>
    have h14 : sizeofProtoSensorData = 14 := rfl
    unfold receiveFromSocket
    simp only [hlen, h14]
    constructor
    · intro h
      split at h
      · cases h
      · split at h
        · cases h
        · cases h
          exact ⟨d, rfl, by omega, rfl⟩
    · rintro ⟨d', hd, hle, rfl⟩
      cases hd
      rw [if_neg (by omega), if_neg (by omega)]

/-- the message in the buffer is the datagram's own first 14 bytes: no older byte shows -/
theorem decodeMessage_recvfrom (b : Buffer) (d : List UInt8)
    (h : sizeofProtoSensorData ≤ d.length) :
    decodeMessage (b.recvfrom d).bytes = decodeMessage d := by
  have hd : 14 ≤ d.length := h
  have hstored : sizeofProtoSensorData ≤ (storedBytes d).length := by
    show 14 ≤ (d.take 1023).length
    rw [List.length_take]
    omega
  show decodeMessage (storedBytes d ++ _) = _
  rw [decodeMessage_append _ _ hstored]
  exact decodeMessage_take d 1023 (by decide)

theorem receiveIteration_datagram (o : ByteOrder) (n : Nat) (buffer : Buffer) (d : List UInt8)
    (calloc : Bool) (h : sizeofProtoSensorData ≤ d.length) :
    receiveIteration o n buffer ⟨.datagram d, calloc⟩ =
      if calloc = true ∧ (decodeMessage d).hdr.type = protoSensorData ∧
          (decodeMessage d).hdr.sensorId.toNat < n then
        (Buffer.zero, some ((decodeMessage d).hdr.sensorId, decodeMessage d))
      else (buffer.recvfrom d, none) := by
  have hrecv := (receiveFromSocket_success buffer _ _).mpr ⟨d, rfl, h, rfl⟩
  have hview : (deserialized o (buffer.recvfrom d).message).view o = decodeMessage d := by
    rw [deserialized_view]
    exact decodeMessage_recvfrom buffer d h
  unfold receiveIteration
  simp only [hrecv, deserializeSensorData, hview]
  cases calloc with
  | false => simp
  | true =>
    by_cases ht : (decodeMessage d).hdr.type = protoSensorData
    · by_cases hs : (decodeMessage d).hdr.sensorId.toNat < n
      · simp [ht, hs]
      · simp [ht, hs]
    · simp [ht]

theorem receiveIteration_rejected (o : ByteOrder) (n : Nat) (buffer : Buffer) (it : Iteration)
    (h : ∀ b, receiveFromSocket buffer it.recv ≠ (.success, b)) :
    (receiveIteration o n buffer it).2 = none := by
  unfold receiveIteration
  split
  · rename_i b hb
    exact absurd hb (h b)
  · rfl

theorem receiveIteration_inserts (o : ByteOrder) (n : Nat) (buffer : Buffer) (it : Iteration)
    (x : UInt32 × ProtoSensorData) :
    (receiveIteration o n buffer it).2 = some x ↔
      ∃ d, it.recv = .datagram d ∧ 14 ≤ d.length ∧ x.2 = decodeMessage d ∧
        x.2.hdr.type = 0 ∧ x.1 = x.2.hdr.sensorId ∧ x.1.toNat < n ∧ it.calloc = true := by
  obtain ⟨recv, calloc⟩ := it
  constructor
  · intro h
    by_cases hs : ∃ b, receiveFromSocket buffer recv = (.success, b)
    · obtain ⟨b, hb⟩ := hs
      obtain ⟨d, rfl, hd, -⟩ := (receiveFromSocket_success buffer b recv).mp hb
      rw [receiveIteration_datagram o n buffer d calloc hd] at h
      split at h
      · rename_i hc
        cases h
        exact ⟨d, rfl, hd, rfl, hc.2.1, rfl, hc.2.2, hc.1⟩
      · cases h
    · rw [receiveIteration_rejected o n buffer _ (fun b hb => hs ⟨b, hb⟩)] at h
      cases h
  · rintro ⟨d, rfl, hd, hx, ht, hi, hn, rfl⟩
    rw [hx] at ht hi
    rw [hi] at hn
    rw [receiveIteration_datagram o n buffer d true hd, if_pos ⟨rfl, ht, hn⟩, ← hi, ← hx]

theorem receiveIteration_buffer (o : ByteOrder) (n : Nat) (b b' : Buffer) (it : Iteration) :
    (receiveIteration o n b it).2 = (receiveIteration o n b' it).2 := by
  apply Option.ext
  intro x
  rw [receiveIteration_inserts, receiveIteration_inserts]

theorem insertedIn_iteration (o : ByteOrder) (n : Nat) (buffer : Buffer) (it : Iteration)
    (i : Nat) : insertedIn i (receiveIteration o n buffer it).2.toList = (accepted n i it).toList := by
  cases h : (receiveIteration o n buffer it).2 with
  | some x =>
    obtain ⟨d, hr, hd, hx, ht, hi, hn, hc⟩ := (receiveIteration_inserts o n buffer it x).mp h
    rw [hx] at ht hi
    by_cases he : x.1.toNat = i
    · have hacc : accepted n i it = some x.2 := by
        unfold accepted
        rw [hr]
        show (if _ then _ else _) = _
        rw [if_pos ⟨hd, ht, by rw [← hi, he], by omega, hc⟩, hx]
      simp [insertedIn, he, hacc]
    · have hacc : accepted n i it = none := by
        unfold accepted
        rw [hr]
        show (if _ then _ else _) = _
        rw [if_neg (fun hcon => he (by rw [hi]; exact hcon.2.2.1))]
      simp [insertedIn, he, hacc]
  | none =>
    have hacc : accepted n i it = none := by
      unfold accepted
      split
      · rename_i d hr
        rw [if_neg]
        rintro ⟨hd, ht, hs, hn, hc⟩
        have hins := (receiveIteration_inserts o n buffer it
          ((decodeMessage d).hdr.sensorId, decodeMessage d)).mpr
          ⟨d, hr, hd, rfl, ht, rfl, by show (decodeMessage d).hdr.sensorId.toNat < n; omega, hc⟩
        rw [h] at hins
        cases hins
      · rfl
    rw [hacc]
    rfl

/-! ## the loop -/

theorem receiveLoop_cons (o : ByteOrder) (n : Nat) (buffer : Buffer) (it : Iteration)
    (its : List Iteration) :
    (receiveLoop o n buffer (it :: its)).2 = (receiveIteration o n buffer it).2.toList ++
      (receiveLoop o n (receiveIteration o n buffer it).1 its).2 := rfl

theorem insertedIn_append (i : Nat) (a b : List (UInt32 × ProtoSensorData)) :
    insertedIn i (a ++ b) = insertedIn i a ++ insertedIn i b := List.filterMap_append

theorem receiveLoop_inserted (o : ByteOrder) (n : Nat) (i : Nat) (its : List Iteration) :
    ∀ buffer : Buffer,
      insertedIn i (receiveLoop o n buffer its).2 = its.filterMap (accepted n i) := by
  induction its with
  | nil => intro buffer; rfl
  | cons it its ih =>
    intro buffer
    rw [receiveLoop_cons, insertedIn_append, insertedIn_iteration, ih,
      Lists.filterMap_cons_toList]

theorem receiveLoop_index (o : ByteOrder) (n : Nat) (its : List Iteration) :
    ∀ buffer : Buffer, ∀ x ∈ (receiveLoop o n buffer its).2, x.1.toNat < n := by
  induction its with
  | nil => intro buffer x hx; exact absurd hx List.not_mem_nil
  | cons it its ih =>
    intro buffer x hx
    rw [receiveLoop_cons] at hx
    rcases List.mem_append.mp hx with h | h
    · obtain ⟨d, _, _, _, _, _, hn, _⟩ :=
        (receiveIteration_inserts o n buffer it x).mp (Option.mem_toList.mp h)
      exact hn
    · exact ih _ x h

/-- **The receive loop is a per-datagram filter and router.**  From every initial buffer and over
every history, queue `i` gets exactly the accepted datagrams for sensor `i`, decoded from their own
bytes, in order and once each; every index is below `n`; and no iteration's decision or record
depends on what the buffer held before it. -/
theorem receiveLoop_routes (o : ByteOrder) (n : Nat) (buffer : Buffer) (its : List Iteration) :
    (∀ i, insertedIn i (receiveLoop o n buffer its).2 = its.filterMap (accepted n i)) ∧
    (∀ x ∈ (receiveLoop o n buffer its).2, x.1.toNat < n) ∧
    (∀ (b b' : Buffer) (it : Iteration),
      (receiveIteration o n b it).2 = (receiveIteration o n b' it).2) :=
  ⟨fun i => receiveLoop_inserted o n i its buffer, receiveLoop_index o n its buffer,
    receiveIteration_buffer o n⟩

end SensorSimulator
