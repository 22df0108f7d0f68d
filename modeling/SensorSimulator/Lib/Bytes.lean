import Mathlib.Data.List.Basic
import Mathlib.Tactic.Ring

/-!
# Bytes: machine words in byte memory, for both byte orders

A memory is a list of bytes; a word of `k` bytes is a number below `256^k`.

* `ByteOrder.encode o k n`   the `k` bytes in which a host of byte order `o` stores the word `n`;
* `ByteOrder.decode o bs`    the word that such a host reads from the bytes `bs`;
* `hton o k n`, `ntoh o k n` the conversions between the host's order and the big-endian network
                             order, as the host does them (a byte swap, or nothing);
* `Mem.slice off k mem`      `k` bytes of a memory from the offset `off`;
* `Mem.load`, `Mem.store`    a word read or written in place.

`encode_hton`, `ntoh_decode`: whatever the host, the bytes stored after `hton` are the big-endian
bytes of the word, and reading followed by `ntoh` gives the big-endian word.  `slice_store_self`,
`slice_store_before`, `slice_store_after`: a store changes its own bytes and no others.
-/

inductive ByteOrder where
  | little
  | big
  deriving DecidableEq, Repr

namespace ByteOrder

/-! ## words as bytes, lowest byte first -/

def leBytes : Nat → Nat → List UInt8
  | 0, _ => []
  | k + 1, n => UInt8.ofNat n :: leBytes k (n / 256)

def leValue : List UInt8 → Nat
  | [] => 0
  | b :: bs => b.toNat + 256 * leValue bs

theorem leBytes_succ (k n : Nat) : leBytes (k + 1) n = UInt8.ofNat n :: leBytes k (n / 256) := rfl
theorem leValue_cons (b : UInt8) (bs : List UInt8) :
    leValue (b :: bs) = b.toNat + 256 * leValue bs := rfl

@[simp] theorem length_leBytes (k n : Nat) : (leBytes k n).length = k := by
  induction k generalizing n with
  | zero => rfl
  | succ k ih => rw [leBytes_succ, List.length_cons, ih]

theorem leValue_lt (bs : List UInt8) : leValue bs < 256 ^ bs.length := by
  induction bs with
  | nil => simp [leValue]
  | cons b bs ih =>
    have hb : b.toNat < 256 := b.toNat_lt
    rw [leValue_cons, List.length_cons, pow_succ]
    omega

theorem leValue_leBytes (k n : Nat) (h : n < 256 ^ k) : leValue (leBytes k n) = n := by
  induction k generalizing n with
  | zero =>
    have h0 : n = 0 := by simpa using h
    rw [h0]; rfl
  | succ k ih =>
    have hq : n / 256 < 256 ^ k := by
      rw [pow_succ] at h
      exact Nat.div_lt_of_lt_mul (by rwa [Nat.mul_comm])
    rw [leBytes_succ, leValue_cons, ih _ hq, UInt8.toNat_ofNat']
    omega

theorem leBytes_leValue (bs : List UInt8) : leBytes bs.length (leValue bs) = bs := by
  induction bs with
  | nil => rfl
  | cons b bs ih =>
    have hb : b.toNat < 256 := b.toNat_lt
    have hlow : UInt8.ofNat (b.toNat + 256 * leValue bs) = b := by
      apply UInt8.toNat_inj.mp
      rw [UInt8.toNat_ofNat']
      omega
    have hrest : (b.toNat + 256 * leValue bs) / 256 = leValue bs := by omega
    rw [List.length_cons, leBytes_succ, leValue_cons, hlow, hrest, ih]

/-! ## words as a host stores them -/

def encode (o : ByteOrder) (k n : Nat) : List UInt8 :=
  match o with
  | little => leBytes k n
  | big => (leBytes k n).reverse

def decode (o : ByteOrder) (bs : List UInt8) : Nat :=
  match o with
  | little => leValue bs
  | big => leValue bs.reverse

@[simp] theorem length_encode (o : ByteOrder) (k n : Nat) : (o.encode k n).length = k := by
  cases o <;> simp [encode]

theorem decode_lt (o : ByteOrder) (bs : List UInt8) : o.decode bs < 256 ^ bs.length := by
  cases o with
  | little => exact leValue_lt bs
  | big =>
    have h := leValue_lt bs.reverse
    rwa [List.length_reverse] at h

theorem decode_encode (o : ByteOrder) (k n : Nat) (h : n < 256 ^ k) :
    o.decode (o.encode k n) = n := by
  cases o with
  | little => exact leValue_leBytes k n h
  | big =>
    show leValue (leBytes k n).reverse.reverse = n
    rw [List.reverse_reverse, leValue_leBytes k n h]

theorem encode_decode (o : ByteOrder) (bs : List UInt8) :
    o.encode bs.length (o.decode bs) = bs := by
  cases o with
  | little => exact leBytes_leValue bs
  | big =>
    show (leBytes bs.length (leValue bs.reverse)).reverse = bs
    rw [← List.length_reverse, leBytes_leValue, List.reverse_reverse]

/-! ## host order and network order -/

/-- the word with its `k` bytes in the opposite order -/
def byteSwap (k n : Nat) : Nat := leValue (leBytes k n).reverse

/-- host to network order, on a host of byte order `o` -/
def hton (o : ByteOrder) (k n : Nat) : Nat :=
  match o with
  | little => byteSwap k n
  | big => n

/-- network to host order: the same byte swap, or nothing -/
def ntoh (o : ByteOrder) (k n : Nat) : Nat := hton o k n

theorem byteSwap_lt (k n : Nat) : byteSwap k n < 256 ^ k := by
  have h := leValue_lt (leBytes k n).reverse
  rwa [List.length_reverse, length_leBytes] at h

theorem hton_lt (o : ByteOrder) (k n : Nat) (h : n < 256 ^ k) : hton o k n < 256 ^ k := by
  cases o with
  | little => exact byteSwap_lt k n
  | big => exact h

theorem ntoh_lt (o : ByteOrder) (k n : Nat) (h : n < 256 ^ k) : ntoh o k n < 256 ^ k :=
  hton_lt o k n h

/-- the bytes a host stores after `hton` are the big-endian bytes of the word -/
theorem encode_hton (o : ByteOrder) (k n : Nat) : o.encode k (hton o k n) = big.encode k n := by
  cases o with
  | little =>
    show leBytes k (leValue (leBytes k n).reverse) = (leBytes k n).reverse
    have h := leBytes_leValue (leBytes k n).reverse
    rwa [List.length_reverse, length_leBytes] at h
  | big => rfl

/-- a host that reads `k` bytes and then applies `ntoh` gets the big-endian word -/
theorem ntoh_decode (o : ByteOrder) (bs : List UInt8) :
    ntoh o bs.length (o.decode bs) = big.decode bs := by
  cases o with
  | little =>
    show leValue (leBytes bs.length (leValue bs)).reverse = leValue bs.reverse
    rw [leBytes_leValue]
  | big => rfl

end ByteOrder

/-! ## bytes of a memory -/

namespace Mem

/-- `k` bytes from the offset `off` -/
def slice (off k : Nat) (mem : List UInt8) : List UInt8 := (mem.drop off).take k

theorem length_slice (off k : Nat) (mem : List UInt8) (h : off + k ≤ mem.length) :
    (slice off k mem).length = k := by
  unfold slice
  rw [List.length_take, List.length_drop]
  omega

theorem slice_append_slice (off k k' : Nat) (mem : List UInt8) :
    slice off k mem ++ slice (off + k) k' mem = slice off (k + k') mem := by
  unfold slice
  rw [← List.drop_drop, List.take_add]

theorem slice_all (mem : List UInt8) : slice 0 mem.length mem = mem := by
  unfold slice
  rw [List.drop_zero, List.take_length]

theorem slice_append_left (off k : Nat) (mem rest : List UInt8) (h : off + k ≤ mem.length) :
    slice off k (mem ++ rest) = slice off k mem := by
  unfold slice
  rw [List.drop_append_of_le_length (by omega), List.take_append_of_le_length]
  rw [List.length_drop]
  omega

theorem slice_append_right (off k : Nat) (mem rest : List UInt8) (h : mem.length ≤ off) :
    slice off k (mem ++ rest) = slice (off - mem.length) k rest := by
  unfold slice
  rw [List.drop_append, List.drop_of_length_le h, List.nil_append]

theorem slice_append_self (k : Nat) (mem rest : List UInt8) (h : mem.length = k) :
    slice 0 k (mem ++ rest) = mem := by
  unfold slice
  rw [List.drop_zero, ← h, List.take_left]

theorem slice_take (off k n : Nat) (mem : List UInt8) (h : off + k ≤ n) :
    slice off k (mem.take n) = slice off k mem := by
  unfold slice
  rw [List.drop_take, List.take_take, Nat.min_eq_left (by omega)]

/-! ## loads and stores -/

def load (o : ByteOrder) (off k : Nat) (mem : List UInt8) : Nat := o.decode (slice off k mem)

def store (o : ByteOrder) (off k n : Nat) (mem : List UInt8) : List UInt8 :=
  mem.take off ++ (o.encode k n ++ mem.drop (off + k))

theorem load_lt (o : ByteOrder) (off k : Nat) (mem : List UInt8) (h : off + k ≤ mem.length) :
    load o off k mem < 256 ^ k := by
  have hd := o.decode_lt (slice off k mem)
  rwa [length_slice off k mem h] at hd

theorem length_store (o : ByteOrder) (off k n : Nat) (mem : List UInt8)
    (h : off + k ≤ mem.length) : (store o off k n mem).length = mem.length := by
  unfold store
  simp only [List.length_append, List.length_take, List.length_drop, ByteOrder.length_encode]
  omega

theorem slice_store_self (o : ByteOrder) (off k n : Nat) (mem : List UInt8)
    (h : off ≤ mem.length) : slice off k (store o off k n mem) = o.encode k n := by
  unfold slice store
  have hlen : (mem.take off).length = off := by rw [List.length_take]; omega
  rw [List.drop_append_of_le_length (by omega), List.drop_of_length_le (by omega),
    List.nil_append, List.take_append_of_le_length (by simp), List.take_of_length_le (by simp)]

theorem slice_store_before (o : ByteOrder) (off k n off' k' : Nat) (mem : List UInt8)
    (h : off ≤ mem.length) (hd : off' + k' ≤ off) :
    slice off' k' (store o off k n mem) = slice off' k' mem := by
  unfold store
  have hlen : (mem.take off).length = off := by rw [List.length_take]; omega
  rw [slice_append_left _ _ _ _ (by omega), slice_take _ _ _ _ hd]

theorem slice_store_after (o : ByteOrder) (off k n off' k' : Nat) (mem : List UInt8)
    (h : off + k ≤ mem.length) (hd : off + k ≤ off') :
    slice off' k' (store o off k n mem) = slice off' k' mem := by
  have hlen : (mem.take off ++ o.encode k n).length = off + k := by
    rw [List.length_append, List.length_take, ByteOrder.length_encode]
    omega
  have hdrop : (store o off k n mem).drop off' = mem.drop off' := by
    unfold store
    rw [← List.append_assoc, List.drop_append, hlen, List.drop_of_length_le (by omega),
      List.nil_append, List.drop_drop]
    congr 1
    omega
  unfold slice
  rw [hdrop]

theorem load_store (o : ByteOrder) (off k n : Nat) (mem : List UInt8) (h : off ≤ mem.length)
    (hn : n < 256 ^ k) : load o off k (store o off k n mem) = n := by
  unfold load
  rw [slice_store_self o off k n mem h, ByteOrder.decode_encode o k n hn]

end Mem
