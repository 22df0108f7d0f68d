import Mathlib.Algebra.Order.Ring.Nat
import Mathlib.Data.List.Basic
import Mathlib.Tactic.Common

/-!
# Texts that are printed by a format, and read back

A format is read as a list of characters and conversions; the texts for the conversions come in their
order.

* `items`, `fill`     a format, and what it prints;
* `Clear`             no text holds the character that follows its conversion;
* `fill_inj`          so the texts can be read back, whatever follows;
* `flatMap_inj`       and so can a whole file of such lines;
* `natText`, `padded`, `intText`, `fixedText`   numbers in decimal, and what they are made of;
                      different numbers have different texts.
-/

namespace Texts

/-! ## formats -/

inductive Item where
  | lit (c : Char)
  | conv (k : Char)
  deriving DecidableEq

/-- `%%` is a percent sign, and so is one at the end -/
def items : List Char → List Item
  | [] => []
  | '%' :: '%' :: cs => .lit '%' :: items cs
  | '%' :: k :: cs => .conv k :: items cs
  | c :: cs => .lit c :: items cs

def conversions : List Item → List Char
  | [] => []
  | .lit _ :: its => conversions its
  | .conv k :: its => k :: conversions its

/-- what is printed, if there are as many texts as conversions -/
def fill : List Item → List (List Char) → Option (List Char)
  | [], [] => some []
  | .lit c :: its, ts => (fill its ts).map (c :: ·)
  | .conv _ :: its, t :: ts => (fill its ts).map (t ++ ·)
  | _, _ => none

/-- each conversion is followed by a character that its text does not hold -/
def Clear : List Item → List (List Char) → Prop
  | .lit _ :: its, ts => Clear its ts
  | .conv _ :: .lit c :: its, t :: ts => c ∉ t ∧ Clear its ts
  | [], _ => True
  | _, _ => False

theorem append_cons_inj {α : Type} {c : α} {a b x y : List α} (ha : c ∉ a) (hb : c ∉ b)
    (h : a ++ c :: x = b ++ c :: y) : a = b ∧ x = y := by
  induction a generalizing b with
  | nil =>
    cases b with
    | nil => exact ⟨rfl, (List.cons.inj h).2⟩
    | cons d b => exact absurd ((List.cons.inj h).1 ▸ List.mem_cons_self) hb
  | cons d a ih =>
    cases b with
    | nil => exact absurd ((List.cons.inj h).1 ▸ List.mem_cons_self) ha
    | cons e b =>
      obtain ⟨hde, hrest⟩ := List.cons.inj h
      obtain ⟨hab, hxy⟩ := ih (fun hc => ha (List.mem_cons_of_mem d hc))
        (fun hc => hb (List.mem_cons_of_mem e hc)) hrest
      exact ⟨by rw [hde, hab], hxy⟩

theorem fill_lit {c : Char} {its : List Item} {ts : List (List Char)} {t : List Char}
    (h : fill (.lit c :: its) ts = some t) : ∃ t', fill its ts = some t' ∧ t = c :: t' := by
  unfold fill at h
  obtain ⟨t', ht', rfl⟩ := Option.map_eq_some_iff.mp h
  exact ⟨t', ht', rfl⟩

theorem fill_conv {k : Char} {its : List Item} {u : List Char} {ts : List (List Char)}
    {t : List Char} (h : fill (.conv k :: its) (u :: ts) = some t) :
    ∃ t', fill its ts = some t' ∧ t = u ++ t' := by
  unfold fill at h
  obtain ⟨t', ht', rfl⟩ := Option.map_eq_some_iff.mp h
  exact ⟨t', ht', rfl⟩

/-- as many texts as conversions are printed -/
theorem fill_isSome (its : List Item) (ts : List (List Char))
    (h : ts.length = (conversions its).length) : (fill its ts).isSome = true := by
  induction its generalizing ts with
  | nil =>
    rw [List.length_eq_zero_iff.mp h]
    rfl
  | cons it its ih =>
    cases it with
    | lit c =>
      unfold fill
      rw [Option.isSome_map]
      exact ih ts h
    | conv k =>
      cases ts with
      | nil => cases h
      | cons t ts =>
        unfold fill
        rw [Option.isSome_map]
        exact ih ts (Nat.succ.inj h)

/-- what has been printed can be read back: the texts, and what follows -/
theorem fill_inj {its : List Item} {ts us : List (List Char)} {t u r r' : List Char}
    (ht : fill its ts = some t) (hu : fill its us = some u) (hts : Clear its ts)
    (hus : Clear its us) (h : t ++ r = u ++ r') : ts = us ∧ r = r' := by
  induction its, ts using Clear.induct generalizing us t u with
  | case1 c its ts ih =>
    obtain ⟨t', ht', rfl⟩ := fill_lit ht
    obtain ⟨u', hu', rfl⟩ := fill_lit hu
    exact ih ht' hu' hts hus (List.cons.inj h).2
  | case2 k c its v ts ih =>
    cases us with
    | nil => exact False.elim hus
    | cons w us =>
      obtain ⟨t1, ht1, rfl⟩ := fill_conv ht
      obtain ⟨t', ht', rfl⟩ := fill_lit ht1
      obtain ⟨u1, hu1, rfl⟩ := fill_conv hu
      obtain ⟨u', hu', rfl⟩ := fill_lit hu1
      rw [List.append_assoc, List.append_assoc] at h
      obtain ⟨hvw, hrest⟩ := append_cons_inj hts.1 hus.1 h
      obtain ⟨htsus, hr⟩ := ih ht' hu' hts.2 hus.2 hrest
      exact ⟨by rw [hvw, htsus], hr⟩
  | case3 ts =>
    cases ts <;> cases us <;> cases ht <;> cases hu
    exact ⟨rfl, h⟩
  | case4 its ts h1 h2 h3 =>
    rw [Clear.eq_4 its ts h1 h3 h2] at hts
    exact False.elim hts

/-- a file of lines of one kind determines its lines -/
theorem flatMap_inj {α β : Type} {text : α → List Char} {shown : α → β} {P : α → Prop}
    (hne : ∀ a, P a → text a ≠ [])
    (hline : ∀ a b r r', P a → P b → text a ++ r = text b ++ r' → shown a = shown b ∧ r = r')
    {as bs : List α} (ha : ∀ a ∈ as, P a) (hb : ∀ b ∈ bs, P b)
    (h : as.flatMap text = bs.flatMap text) : as.map shown = bs.map shown := by
  induction as generalizing bs with
  | nil =>
    cases bs with
    | nil => rfl
    | cons b bs =>
      rw [List.flatMap_nil, List.flatMap_cons] at h
      exact absurd (List.append_eq_nil_iff.mp h.symm).1 (hne b (hb b List.mem_cons_self))
  | cons a as ih =>
    cases bs with
    | nil =>
      rw [List.flatMap_nil, List.flatMap_cons] at h
      exact absurd (List.append_eq_nil_iff.mp h).1 (hne a (ha a List.mem_cons_self))
    | cons b bs =>
      rw [List.flatMap_cons, List.flatMap_cons] at h
      obtain ⟨hshown, hrest⟩ := hline a b _ _ (ha a List.mem_cons_self) (hb b List.mem_cons_self) h
      rw [List.map_cons, List.map_cons, hshown,
        ih (fun c hc => ha c (List.mem_cons_of_mem a hc))
          (fun c hc => hb c (List.mem_cons_of_mem b hc)) hrest]

/-! ## numbers -/

def natText (n : Nat) : List Char := Nat.toDigits 10 n

/-- with zeros in front, up to `k` digits -/
def padded (k n : Nat) : List Char := List.replicate (k - (natText n).length) '0' ++ natText n

/-- a minus sign for a negative number -/
def signed (neg : Bool) (t : List Char) : List Char := if neg then '-' :: t else t

def intText (x : Int) : List Char := signed (decide (x < 0)) (natText x.natAbs)

/-- a number of millionths, with six digits behind the point -/
def fixedText (n : Nat) : List Char := natText (n / 1000000) ++ '.' :: padded 6 (n % 1000000)

theorem isDigit_natText {n : Nat} {c : Char} (hc : c ∈ natText n) : c.isDigit = true :=
  Nat.isDigit_of_mem_toDigits (by decide) (by decide) hc

theorem isDigit_padded {k n : Nat} {c : Char} (hc : c ∈ padded k n) : c.isDigit = true := by
  rcases List.mem_append.mp hc with h | h
  · rw [(List.mem_replicate.mp h).2]
    rfl
  · exact isDigit_natText h

theorem notMem_natText {n : Nat} {c : Char} (hc : c.isDigit = false) : c ∉ natText n :=
  fun h => Bool.false_ne_true (hc.symm.trans (isDigit_natText h))

theorem notMem_padded {k n : Nat} {c : Char} (hc : c.isDigit = false) : c ∉ padded k n :=
  fun h => Bool.false_ne_true (hc.symm.trans (isDigit_padded h))

theorem notMem_signed {neg : Bool} {t : List Char} {c : Char} (hc : c ≠ '-') (ht : c ∉ t) :
    c ∉ signed neg t := by
  cases neg with
  | false => exact ht
  | true => exact fun h => (List.mem_cons.mp h).elim hc ht

theorem notMem_intText {x : Int} {c : Char} (hc : c.isDigit = false) (hminus : c ≠ '-') :
    c ∉ intText x := notMem_signed hminus (notMem_natText hc)

theorem notMem_fixedText {n : Nat} {c : Char} (hc : c.isDigit = false) (hpoint : c ≠ '.') :
    c ∉ fixedText n := by
  intro h
  rcases List.mem_append.mp h with h | h
  · exact notMem_natText hc h
  · rcases List.mem_cons.mp h with h | h
    · exact hpoint h
    · exact notMem_padded hc h

theorem ofDigitChars_padded (k n : Nat) : Nat.ofDigitChars 10 (padded k n) 0 = n := by
  unfold padded
  induction k - (natText n).length with
  | zero => exact Nat.ofDigitChars_ten_toDigits
  | succ j ih => exact ih

theorem padded_inj {k j m n : Nat} (h : padded k m = padded j n) : m = n := by
  rw [← ofDigitChars_padded k m, h, ofDigitChars_padded]

theorem natText_inj {m n : Nat} (h : natText m = natText n) : m = n := by
  have hzero : ∀ n, natText n = padded 0 n := fun n => by simp [padded]
  rw [hzero, hzero] at h
  exact padded_inj h

theorem length_padded {k n : Nat} (hk : 0 < k) (hn : n < 10 ^ k) : (padded k n).length = k := by
  have hle : (natText n).length ≤ k := (Nat.length_toDigits_le_iff (by decide) hk).mpr hn
  unfold padded
  rw [List.length_append, List.length_replicate]
  omega

theorem signed_inj {neg neg' : Bool} {t t' : List Char} (ht : '-' ∉ t) (ht' : '-' ∉ t')
    (h : signed neg t = signed neg' t') : neg = neg' ∧ t = t' := by
  cases neg <;> cases neg'
  · exact ⟨rfl, h⟩
  · exact absurd (show '-' ∈ t from (show t = '-' :: t' from h) ▸ List.mem_cons_self) ht
  · exact absurd (show '-' ∈ t' from (show '-' :: t = t' from h) ▸ List.mem_cons_self) ht'
  · exact ⟨rfl, (List.cons.inj h).2⟩

theorem length_intText_le_iff {k : Nat} (hk : 0 < k) (x : Int) :
    (intText x).length ≤ k + 1 ↔ -(10 : Int) ^ k < x ∧ x < 10 ^ (k + 1) := by
  have hdigits : ∀ j, 0 < j → ((natText x.natAbs).length ≤ j ↔ (x.natAbs : Int) < 10 ^ j) := by
    intro j hj
    rw [natText, Nat.length_toDigits_le_iff (by decide) hj]
    exact_mod_cast Iff.rfl
  have hpos : ∀ j, 0 < (10 : Int) ^ j := fun _ => Int.pow_pos (by decide)
  have hk0 := hpos k
  have hk1 := hpos (k + 1)
  unfold intText signed
  by_cases hneg : x < 0
  · rw [if_pos (decide_eq_true hneg), List.length_cons, Nat.add_le_add_iff_right, hdigits k hk]
    omega
  · rw [if_neg (by simpa using hneg), hdigits (k + 1) k.succ_pos]
    omega

theorem intText_inj {x y : Int} (h : intText x = intText y) : x = y := by
  obtain ⟨hneg, habs⟩ := signed_inj (notMem_natText rfl) (notMem_natText rfl) h
  have := natText_inj habs
  have hiff : x < 0 ↔ y < 0 := by simpa using hneg
  omega

end Texts
