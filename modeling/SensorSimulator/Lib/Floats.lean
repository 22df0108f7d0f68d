import Mathlib
import SensorSimulator.Lib.Rounding

/-!
# Floats with a positive sign, as rounded rational numbers

Lean's own model of a float packs a mantissa and an exponent into bits and rounds with a round bit
and a sticky bit.  Here it is tied to `Rounding`: the operations of the model round the exact result
to nearest.

* `value`, `IsNumber`      the number a float stands for; the floats that are numbers with a positive
                           sign, and as packing expects them;
* `Reads`                  what a mantissa with its two bits says about the number behind it;
* `roundWithAccuracy_spec` the rounding of the model is `Precision.roundTo`;
* `unpack_pack`            packing a number loses nothing;
* `Number`, `val`          the same for `Float32`, with the values of `+`, `/` and conversions.
-/

namespace Floats
open Rounding Float.Model Float.Model.UnpackedFloat

variable {spec : Format}

/-! ## numbers -/

def precision (spec : Format) : Precision where
  digits := spec.mantissaBits
  minExponent := spec.minExponent
  digits_pos := by
    unfold Format.mantissaBits
    omega

def value : UnpackedFloat → ℚ
  | .finite .positive m e _ => m * 2 ^ e
  | _ => 0

/-- the exponent is the one that packing expects, and has room in the format -/
structure Canonical (spec : Format) (m : ℕ) (e : ℤ) : Prop where
  target : e = spec.targetExponent (totalExponent m e)
  room : e + spec.exponentBias + spec.mantissaBitsWithoutImplicit + 1 < 2 ^ spec.exponentBits

inductive IsNumber (spec : Format) : UnpackedFloat → Prop
  | zero : IsNumber spec (.zero .positive)
  | finite (m : ℕ) (e : ℤ) (h : 0 < m) (hc : Canonical spec m e) :
      IsNumber spec (.finite .positive m e h)

theorem value_nonneg (x : UnpackedFloat) : 0 ≤ value x := by
  unfold value
  split
  · exact mul_nonneg (Nat.cast_nonneg _) (Precision.two_zpow_pos _).le
  · exact le_refl _

/-! ## the mantissa with its two bits -/

/-- the mantissa is the integer part of `x`, and the bits tell whether the fraction is 0, 1/2,
below or above 1/2 -/
structure Reads (em : ExtendedMantissa) (x : ℚ) : Prop where
  nonneg : 0 ≤ x
  mantissa : em.mantissa = ⌊x⌋₊
  roundBit : em.roundBit = true ↔ 1 / 2 ≤ x - ⌊x⌋₊
  stickyBit : em.stickyBit = true ↔ x - ⌊x⌋₊ ≠ 0 ∧ x - ⌊x⌋₊ ≠ 1 / 2

theorem Reads.shiftRightOne {em : ExtendedMantissa} {x : ℚ} (h : Reads em x) :
    Reads em.shiftRightOne (x / 2) := by
  have hfloor : ⌊x / 2⌋₊ = ⌊x⌋₊ / 2 := Nat.floor_div_ofNat x 2
  have hlow := Nat.floor_le h.nonneg
  have hhigh := Nat.lt_floor_add_one x
  have hsplit : (⌊x⌋₊ : ℚ) = 2 * ((⌊x⌋₊ / 2 : ℕ) : ℚ) + ((⌊x⌋₊ % 2 : ℕ) : ℚ) := by
    exact_mod_cast (Nat.div_add_mod ⌊x⌋₊ 2).symm
  refine ⟨div_nonneg h.nonneg zero_le_two, ?_, ?_, ?_⟩
  · show em.mantissa / 2 = _
    rw [h.mantissa, hfloor]
  · show (em.mantissa % 2 != 0) = true ↔ _
    rw [h.mantissa, hfloor, bne_iff_ne]
    rcases Nat.mod_two_eq_zero_or_one ⌊x⌋₊ with h0 | h1
    · rw [h0] at hsplit ⊢
      push_cast at hsplit
      refine ⟨fun hne => absurd rfl hne, fun hle => ?_⟩
      linarith
    · rw [h1] at hsplit ⊢
      push_cast at hsplit
      refine ⟨fun _ => ?_, fun _ => Nat.one_ne_zero⟩
      linarith
  · show (em.roundBit || em.stickyBit) = true ↔ _
    -- a bit is lost exactly when the fraction is not 0
    have hbits : (em.roundBit || em.stickyBit) = true ↔ x - ⌊x⌋₊ ≠ 0 := by
      rw [Bool.or_eq_true, h.roundBit, h.stickyBit]
      constructor
      · rintro (hle | hne)
        · intro h0
          linarith
        · exact hne.1
      · intro h0
        by_cases hhalf : x - ⌊x⌋₊ = 1 / 2
        · exact Or.inl hhalf.ge
        · exact Or.inr ⟨h0, hhalf⟩
    rw [hbits, hfloor]
    rcases Nat.mod_two_eq_zero_or_one ⌊x⌋₊ with h0 | h1
    · rw [h0] at hsplit
      push_cast at hsplit
      constructor
      · intro hne
        exact ⟨fun he => hne (by linarith), fun he => by linarith⟩
      · rintro ⟨hne, -⟩ he
        exact hne (by linarith)
    · rw [h1] at hsplit
      push_cast at hsplit
      constructor
      · intro hne
        exact ⟨fun he => by linarith, fun he => hne (by linarith)⟩
      · rintro ⟨-, hne⟩ he
        exact hne (by linarith)

theorem Reads.shiftRight {em : ExtendedMantissa} {x : ℚ} (h : Reads em x) (k : ℕ) :
    Reads (em >>> k) (x / 2 ^ k) := by
  induction k with
  | zero =>
    rw [pow_zero, div_one]
    exact h
  | succ k ih =>
    rw [pow_succ, ← div_div]
    exact ih.shiftRightOne

theorem Reads.rounded {em : ExtendedMantissa} {x : ℚ} (h : Reads em x) :
    em.roundedMantissa = nearest x := by
  obtain ⟨m, roundBit, stickyBit⟩ := em
  obtain ⟨hx, hm, hr, hs⟩ := h
  have hlow := Nat.floor_le hx
  change m = ⌊x⌋₊ at hm
  subst hm
  unfold nearest
  cases roundBit with
  | false =>
    have hlt : x - ⌊x⌋₊ < 1 / 2 := not_le.mp fun hle => Bool.noConfusion (hr.mpr hle)
    rw [if_pos hlt]
    cases stickyBit <;> rfl
  | true =>
    have hle : 1 / 2 ≤ x - ⌊x⌋₊ := hr.mp rfl
    rw [if_neg (not_lt.mpr hle)]
    cases stickyBit with
    | false =>
      have hhalf : x - ⌊x⌋₊ = 1 / 2 := by
        by_contra hne
        have hbit := hs.mpr ⟨fun h0 => by linarith, hne⟩
        cases hbit
      rw [if_pos hhalf]
      rfl
    | true =>
      rw [if_neg (hs.mp rfl).2]
      rfl

theorem reads_exact (m : ℕ) : Reads (ExtendedMantissa.ofMantissaAndAccuracy m .exact) m := by
  refine ⟨Nat.cast_nonneg m, (Nat.floor_natCast m).symm, ?_, ?_⟩
  · rw [Nat.floor_natCast, sub_self]
    refine ⟨fun h => Bool.noConfusion h, fun h => ?_⟩
    norm_num at h
  · rw [Nat.floor_natCast, sub_self]
    exact ⟨fun h => Bool.noConfusion h, fun h => absurd rfl h.1⟩

/-- the quotient of a division with rest, with what its rest says -/
theorem reads_fraction (a b : ℕ) (hb : 0 < b) :
    Reads (ExtendedMantissa.ofMantissaAndAccuracy (a / b) (accuracyOfFraction (a % b) b))
      ((a : ℚ) / b) := by
  have hbq : (0 : ℚ) < b := Nat.cast_pos.mpr hb
  have hfloor : ⌊(a : ℚ) / b⌋₊ = a / b := Nat.floor_div_eq_div a b
  have hfrac : (a : ℚ) / b - ((a / b : ℕ) : ℚ) = ((a % b : ℕ) : ℚ) / b := by
    have h : (a : ℚ) = b * ((a / b : ℕ) : ℚ) + ((a % b : ℕ) : ℚ) := by
      exact_mod_cast (Nat.div_add_mod a b).symm
    rw [eq_div_iff hbq.ne', sub_mul, div_mul_cancel₀ _ hbq.ne']
    linarith
  have hhalf : (1 : ℚ) / 2 ≤ ((a % b : ℕ) : ℚ) / b ↔ b ≤ 2 * (a % b) := by
    rw [div_le_div_iff₀ two_pos hbq, one_mul]
    exact ⟨fun h => by exact_mod_cast (h.trans_eq (mul_comm _ _)), fun h => by
      rw [mul_comm]
      exact_mod_cast h⟩
  have hhalf_eq : ((a % b : ℕ) : ℚ) / b = 1 / 2 ↔ 2 * (a % b) = b := by
    rw [div_eq_div_iff hbq.ne' two_ne_zero, one_mul, mul_comm]
    exact_mod_cast Iff.rfl
  have hzero : ((a % b : ℕ) : ℚ) / b = 0 ↔ a % b = 0 := by
    rw [div_eq_zero_iff, or_iff_left hbq.ne', Nat.cast_eq_zero]
  unfold accuracyOfFraction
  refine ⟨div_nonneg (Nat.cast_nonneg a) hbq.le, ?_, ?_, ?_⟩
  · rw [hfloor]
    split_ifs
    · rfl
    · cases compare (2 * (a % b)) b <;> rfl
  · rw [hfloor, hfrac, hhalf]
    split_ifs with h0
    · refine ⟨fun h => Bool.noConfusion h, fun h => ?_⟩
      omega
    · cases hc : compare (2 * (a % b)) b with
      | lt =>
        have := Nat.compare_eq_lt.mp hc
        exact ⟨fun h => Bool.noConfusion h, fun h => by omega⟩
      | eq =>
        have := Nat.compare_eq_eq.mp hc
        exact ⟨fun _ => by omega, fun _ => rfl⟩
      | gt =>
        have := Nat.compare_eq_gt.mp hc
        exact ⟨fun _ => by omega, fun _ => rfl⟩
  · rw [hfloor, hfrac, ne_eq, ne_eq, hzero, hhalf_eq]
    split_ifs with h0
    · exact ⟨fun h => Bool.noConfusion h, fun h => absurd h0 h.1⟩
    · cases hc : compare (2 * (a % b)) b with
      | lt =>
        have := Nat.compare_eq_lt.mp hc
        exact ⟨fun _ => ⟨h0, by omega⟩, fun _ => rfl⟩
      | eq =>
        have := Nat.compare_eq_eq.mp hc
        exact ⟨fun h => Bool.noConfusion h, fun h => absurd this h.2⟩
      | gt =>
        have := Nat.compare_eq_gt.mp hc
        exact ⟨fun _ => ⟨h0, by omega⟩, fun _ => rfl⟩

/-! ## the exponent -/

theorem log_scaled {m : ℕ} {x : ℚ} (e : ℤ) (hm : 0 < m) (hx : 0 ≤ x) (hfloor : ⌊x⌋₊ = m) :
    Int.log 2 (x * 2 ^ e) = m.log2 + e := by
  have hlow : (m : ℚ) ≤ x := hfloor ▸ Nat.floor_le hx
  have hhigh : x < m + 1 := hfloor ▸ Nat.lt_floor_add_one x
  have hpos : (0 : ℚ) < x * 2 ^ e :=
    mul_pos ((Nat.cast_pos.mpr hm).trans_le hlow) (Precision.two_zpow_pos e)
  have hpow : ((2 ^ m.log2 : ℕ) : ℚ) ≤ m := Nat.cast_le.mpr (Nat.log2_self_le hm.ne')
  have hpow' : (m : ℚ) + 1 ≤ ((2 ^ (m.log2 + 1) : ℕ) : ℚ) := by
    exact_mod_cast Nat.lt_log2_self (n := m)
  apply le_antisymm
  · rw [← Int.lt_add_one_iff, ← Int.lt_zpow_iff_log_lt (by omega) hpos]
    push_cast
    calc x * 2 ^ e < ((2 ^ (m.log2 + 1) : ℕ) : ℚ) * 2 ^ e :=
          mul_lt_mul_of_pos_right (hhigh.trans_le hpow') (Precision.two_zpow_pos e)
      _ = 2 ^ ((m.log2 : ℤ) + e + 1) := by
          push_cast
          rw [← zpow_natCast, ← Precision.two_zpow_add]
          congr 1
          push_cast
          ring
  · rw [← Int.zpow_le_iff_le_log (by omega) hpos]
    push_cast
    calc (2 : ℚ) ^ ((m.log2 : ℤ) + e) = ((2 ^ m.log2 : ℕ) : ℚ) * 2 ^ e := by
          push_cast
          rw [← zpow_natCast, ← Precision.two_zpow_add]
      _ ≤ x * 2 ^ e :=
          mul_le_mul_of_nonneg_right (hpow.trans hlow) (Precision.two_zpow_pos e).le

/-- the target exponent of the model is the exponent that `Precision` rounds to -/
theorem exponent_scaled {m : ℕ} {x : ℚ} (e : ℤ) (hm : 0 < m) (hx : 0 ≤ x) (hfloor : ⌊x⌋₊ = m) :
    (precision spec).exponent (x * 2 ^ e) = spec.targetExponent (totalExponent m e) := by
  unfold Precision.exponent Format.targetExponent totalExponent
  rw [log_scaled e hm hx hfloor]
  show max ((m.log2 : ℤ) + e + 1 - spec.mantissaBits) spec.minExponent = _
  congr 2
  ring

theorem mantissa_ofMantissaAndAccuracy (m : ℕ) (acc : Accuracy) :
    (ExtendedMantissa.ofMantissaAndAccuracy m acc).mantissa = m := by
  cases acc with
  | exact => rfl
  | inexact o => cases o <;> rfl

/-! ## the rounding of the model -/

theorem mantissa_shiftRight (m k : ℕ) :
    (ExtendedMantissa.ofMantissaAndAccuracy m .exact >>> k).mantissa = m / 2 ^ k := by
  have h := ((reads_exact m).shiftRight k).mantissa
  rw [h]
  have hcast : ((m : ℚ) / 2 ^ k) = (m : ℚ) / ((2 ^ k : ℕ) : ℚ) := by
    push_cast
    rfl
  rw [hcast, Nat.floor_div_eq_div]

/-- the second shift, which only takes in an overflow of the mantissa: `n` has at most one digit
too many -/
theorem shift_again (n : ℕ) (e : ℤ) (hn : 0 < n) (hle : n ≤ 2 ^ spec.mantissaBits)
    (hmin : spec.minExponent ≤ e) :
    ∃ m e', 0 < m ∧ (shiftToTargetExponent spec n e .exact).1.mantissa = m ∧
      (shiftToTargetExponent spec n e .exact).2 = e' ∧ (m : ℚ) * 2 ^ e' = n * 2 ^ e ∧
      m < 2 ^ spec.mantissaBits ∧ (e' = e ∧ m = n ∨
        m = 2 ^ spec.mantissaBitsWithoutImplicit ∧ spec.minExponent ≤ e') := by
  have hbits : spec.mantissaBits = spec.mantissaBitsWithoutImplicit + 1 := Nat.add_comm _ _
  have hshift : shiftToTargetExponent spec n e .exact =
      (ExtendedMantissa.ofMantissaAndAccuracy n .exact >>>
        (spec.targetExponent (totalExponent n e) - e).toNat,
        e + (spec.targetExponent (totalExponent n e) - e).toNat) := rfl
  rw [hshift]
  rcases hle.eq_or_lt with he | hlt
  · -- all digits have carried over
    have hlog : n.log2 = spec.mantissaBits := by
      rw [he, Nat.log2_two_pow]
    have hk : (spec.targetExponent (totalExponent n e) - e).toNat = 1 := by
      unfold Format.targetExponent totalExponent
      rw [hlog]
      omega
    rw [hk]
    refine ⟨2 ^ spec.mantissaBitsWithoutImplicit, e + 1, Nat.two_pow_pos _, ?_, rfl, ?_, ?_, ?_⟩
    · rw [mantissa_shiftRight, he, hbits, pow_one, pow_succ, Nat.mul_div_cancel _ two_pos]
    · rw [he, hbits, Precision.two_zpow_add]
      push_cast
      ring
    · rw [hbits]
      exact Nat.pow_lt_pow_right (by omega) (by omega)
    · exact Or.inr ⟨rfl, by omega⟩
  · have hlog : n.log2 < spec.mantissaBits := (Nat.log2_lt hn.ne').mpr hlt
    have hk : (spec.targetExponent (totalExponent n e) - e).toNat = 0 := by
      unfold Format.targetExponent totalExponent
      omega
    rw [hk]
    refine ⟨n, e, hn, ?_, ?_, rfl, hlt, Or.inl ⟨rfl, rfl⟩⟩
    · rw [mantissa_shiftRight, pow_zero, Nat.div_one]
    · show e + ((0 : ℕ) : ℤ) = e
      omega

/-- the exponents of a format end here -/
def limit (spec : Format) : ℤ := 2 ^ (spec.exponentBits - 1)

theorem canonical_of_lt {m : ℕ} {e : ℤ} (hspec : 2 ≤ spec.exponentBits)
    (hm : 0 < m) (ht : e = spec.targetExponent (totalExponent m e))
    (hlt : (m : ℚ) * 2 ^ e < 2 ^ limit spec) : Canonical spec m e := by
  refine ⟨ht, ?_⟩
  have hlog : (m.log2 : ℤ) + e < limit spec := by
    have h := log_scaled (x := (m : ℚ)) e hm (Nat.cast_nonneg m) (Nat.floor_natCast m)
    rw [← h, ← Int.lt_zpow_iff_log_lt (by omega)
      (mul_pos (Nat.cast_pos.mpr hm) (Precision.two_zpow_pos e))]
    exact_mod_cast hlt
  have hpow : (2 : ℤ) ^ spec.exponentBits = 2 * 2 ^ (spec.exponentBits - 1) := by
    rw [← pow_succ']
    congr 1
    omega
  have hpow2 : (2 : ℤ) ≤ 2 ^ (spec.exponentBits - 1) :=
    le_self_pow₀ (by omega) (by omega)
  have hbias : (spec.exponentBias : ℤ) = 2 ^ (spec.exponentBits - 1) - 1 := by
    unfold Format.exponentBias
    rw [Nat.cast_sub Nat.one_le_two_pow]
    push_cast
    rfl
  unfold limit at hlog
  unfold Format.targetExponent totalExponent Format.mantissaBits Format.minExponent
    Format.mantissaBits at ht
  push_cast at ht
  rw [hbias, hpow]
  generalize (2 : ℤ) ^ (spec.exponentBits - 1) = b at *
  omega

/-- **The rounding of the model** is rounding to nearest, ties to even, of the number that the
mantissa and its accuracy stand for; below the limit the result is a number of the format. -/
theorem roundWithAccuracy_spec (spec : Format) {m : ℕ} {e : ℤ} {acc : Accuracy} {x : ℚ} (hm : 0 < m)
    (hx : Reads (ExtendedMantissa.ofMantissaAndAccuracy m acc) x)
    (he : e ≤ spec.targetExponent (totalExponent m e)) :
    value (roundWithAccuracy spec .positive m e acc) = (precision spec).roundTo (x * 2 ^ e) ∧
    (2 ≤ spec.exponentBits → (precision spec).roundTo (x * 2 ^ e) < 2 ^ limit spec →
      IsNumber spec (roundWithAccuracy spec .positive m e acc)) := by
  have hfloor : ⌊x⌋₊ = m := hx.mantissa.symm.trans (mantissa_ofMantissaAndAccuracy m acc)
  have hexp : (precision spec).exponent (x * 2 ^ e) = spec.targetExponent (totalExponent m e) :=
    exponent_scaled e hm hx.nonneg hfloor
  have hpos : (0 : ℚ) < x * 2 ^ e := by
    have hle := Nat.floor_le hx.nonneg
    rw [hfloor] at hle
    exact mul_pos ((Nat.cast_pos.mpr hm).trans_le hle) (Precision.two_zpow_pos e)
  have hbits : spec.mantissaBits = spec.mantissaBitsWithoutImplicit + 1 := Nat.add_comm _ _
  obtain ⟨k, hk⟩ := Int.le.dest he
  have htoNat : (spec.targetExponent (totalExponent m e) - e).toNat = k := by omega
  -- the first shift, and the mantissa rounded there
  have hscaled : x * 2 ^ e / 2 ^ (precision spec).exponent (x * 2 ^ e) = x / 2 ^ k := by
    rw [hexp, ← hk, Precision.two_zpow_add, zpow_natCast,
      mul_comm ((2 : ℚ) ^ e), mul_div_mul_right _ _ (Precision.two_zpow_pos e).ne']
  have hrounded : (shiftToTargetExponent spec m e acc).1.roundedMantissa = nearest (x / 2 ^ k) := by
    show (ExtendedMantissa.ofMantissaAndAccuracy m acc >>>
      (spec.targetExponent (totalExponent m e) - e).toNat).roundedMantissa = _
    rw [htoNat]
    exact (hx.shiftRight k).rounded
  have hsecond : (shiftToTargetExponent spec m e acc).2 =
      (precision spec).exponent (x * 2 ^ e) := by
    show e + ((spec.targetExponent (totalExponent m e) - e).toNat : ℤ) = _
    rw [htoNat, hk, hexp]
  have hle : nearest (x / 2 ^ k) ≤ 2 ^ spec.mantissaBits := by
    rw [← hscaled]
    exact nearest_le (Precision.scaled_lt (F := precision spec) _).le
  have hroundTo : (precision spec).roundTo (x * 2 ^ e) =
      nearest (x / 2 ^ k) * 2 ^ (precision spec).exponent (x * 2 ^ e) := by
    rw [← hscaled]
    rfl
  have hmin := (precision spec).minExponent_le (x * 2 ^ e)
  have hlarge : (precision spec).minExponent < (precision spec).exponent (x * 2 ^ e) →
      2 ^ spec.mantissaBitsWithoutImplicit ≤ nearest (x / 2 ^ k) := by
    intro hlt
    have h := Precision.le_scaled hpos hlt
    have hdigits : (precision spec).digits - 1 = spec.mantissaBitsWithoutImplicit := by
      show spec.mantissaBits - 1 = _
      omega
    rw [hscaled, hdigits] at h
    exact le_nearest h
  unfold roundWithAccuracy
  rw [show shiftToTargetExponent spec m e acc =
    ((shiftToTargetExponent spec m e acc).1, (shiftToTargetExponent spec m e acc).2) from rfl]
  dsimp only
  rw [hrounded, hsecond, hroundTo]
  generalize (precision spec).exponent (x * 2 ^ e) = t at *
  generalize nearest (x / 2 ^ k) = n at *
  rcases Nat.eq_zero_or_pos n with rfl | hn
  · have hzero : (shiftToTargetExponent spec 0 t .exact).1.mantissa = 0 := by
      show (ExtendedMantissa.ofMantissaAndAccuracy 0 .exact >>>
        (spec.targetExponent (totalExponent 0 t) - t).toNat).mantissa = 0
      rw [mantissa_shiftRight, Nat.zero_div]
    rw [dif_pos hzero, Nat.cast_zero, zero_mul]
    exact ⟨rfl, fun _ _ => .zero⟩
  · obtain ⟨m', e', hm', hfst, hsnd, hval, hlt', hcase⟩ := shift_again n t hn hle hmin
    rw [dif_neg (by rw [hfst]; exact hm'.ne')]
    have hvalue : value (.finite .positive (shiftToTargetExponent spec n t .exact).1.mantissa
        (shiftToTargetExponent spec n t .exact).2
        (by rw [hfst]; exact hm')) = n * 2 ^ t := by
      show ((shiftToTargetExponent spec n t .exact).1.mantissa : ℚ) *
        2 ^ (shiftToTargetExponent spec n t .exact).2 = _
      rw [hfst, hsnd, hval]
    refine ⟨hvalue, ?_⟩
    intro hspec hlimit
    have hcan : Canonical spec (shiftToTargetExponent spec n t .exact).1.mantissa
        (shiftToTargetExponent spec n t .exact).2 := by
      rw [hfst, hsnd]
      refine canonical_of_lt hspec hm' ?_ (hval.trans_lt hlimit)
      have hmin' : spec.minExponent ≤ t := hmin
      unfold Format.targetExponent totalExponent
      rcases hcase with ⟨rfl, rfl⟩ | ⟨rfl, hmin''⟩
      · have hlog : m'.log2 < spec.mantissaBits := (Nat.log2_lt hm'.ne').mpr hlt'
        rcases hmin'.eq_or_lt with heq | hlt
        · omega
        · have hfull := (Nat.le_log2 hm'.ne').mpr (hlarge hlt)
          omega
      · rw [Nat.log2_two_pow]
        omega
    exact .finite _ _ _ hcan

theorem log2_shiftLeft {m : ℕ} (hm : 0 < m) (k : ℕ) :
    0 < m <<< k ∧ (m <<< k).log2 = m.log2 + k := by
  induction k with
  | zero => exact ⟨hm, rfl⟩
  | succ k ih =>
    rw [Nat.shiftLeft_succ, Nat.log2_two_mul ih.1.ne', ih.2]
    exact ⟨Nat.mul_pos two_pos ih.1, rfl⟩

theorem round_spec (spec : Format) {m : ℕ} (e : ℤ) (hm : 0 < m) :
    value (UnpackedFloat.round spec .positive m e) = (precision spec).roundTo ((m : ℚ) * 2 ^ e) ∧
    (2 ≤ spec.exponentBits → (precision spec).roundTo ((m : ℚ) * 2 ^ e) < 2 ^ limit spec →
      IsNumber spec (UnpackedFloat.round spec .positive m e)) := by
  obtain ⟨k, hk⟩ : ∃ k, k = (e - spec.targetExponent (totalExponent m e)).toNat := ⟨_, rfl⟩
  obtain ⟨hpos, hlog⟩ := log2_shiftLeft hm k
  have htotal : totalExponent (m <<< k) (e - k) = totalExponent m e := by
    unfold totalExponent
    rw [hlog]
    push_cast
    ring
  have hvalue : ((m <<< k : ℕ) : ℚ) * 2 ^ (e - k) = m * 2 ^ e := by
    rw [Nat.shiftLeft_eq]
    push_cast
    rw [mul_assoc, ← zpow_natCast (2 : ℚ) k, ← Precision.two_zpow_add]
    congr 2
    ring
  have h := roundWithAccuracy_spec spec (e := e - k) hpos (reads_exact _) (by
    rw [htotal]
    omega)
  rw [hvalue] at h
  show value (roundWithAccuracy spec .positive
      (m <<< (e - spec.targetExponent (totalExponent m e)).toNat)
      (e - (e - spec.targetExponent (totalExponent m e)).toNat) .exact) = _ ∧
    (_ → _ → IsNumber spec (roundWithAccuracy spec .positive
      (m <<< (e - spec.targetExponent (totalExponent m e)).toNat)
      (e - (e - spec.targetExponent (totalExponent m e)).toNat) .exact))
  rw [← hk]
  exact h

/-! ## the operations -/

theorem Canonical.representable {m : ℕ} {e : ℤ} (h : Canonical spec m e) (hm : 0 < m) :
    (precision spec).Representable ((m : ℚ) * 2 ^ e) := by
  have ht := h.target
  unfold Format.targetExponent totalExponent at ht
  refine ⟨m, e, (Nat.log2_lt hm.ne').mp ?_, ?_, rfl⟩
  · show m.log2 < spec.mantissaBits
    omega
  · show spec.minExponent ≤ e
    omega

theorem IsNumber.representable {x : UnpackedFloat} (h : IsNumber spec x) :
    (precision spec).Representable (value x) := by
  cases h with
  | zero =>
    exact ⟨0, spec.minExponent, Nat.two_pow_pos _, le_refl _, by rw [Nat.cast_zero, zero_mul]; rfl⟩
  | finite m e h hc => exact hc.representable h

/-- a number is a multiple of the smallest place -/
theorem Representable.multiple {F : Precision} {x : ℚ} (h : F.Representable x) :
    ∃ n : ℕ, x = n * 2 ^ F.minExponent := by
  obtain ⟨m, e, -, he, rfl⟩ := h
  obtain ⟨k, rfl⟩ := Int.le.dest he
  refine ⟨m * 2 ^ k, ?_⟩
  push_cast
  rw [Precision.two_zpow_add, zpow_natCast]
  ring

/-- a sum loses no digit at the lower end -/
theorem graded_add {x y : UnpackedFloat} (hx : IsNumber spec x) (hy : IsNumber spec y) :
    (precision spec).Graded (value x + value y) := by
  obtain ⟨m, hm⟩ := Representable.multiple hx.representable
  obtain ⟨n, hn⟩ := Representable.multiple hy.representable
  refine Or.inr ⟨m + n, ?_⟩
  rw [hm, hn]
  push_cast
  ring

theorem value_shiftLeft (m : ℕ) (e t : ℤ) (ht : t ≤ e) :
    ((m <<< (e - t).toNat : ℕ) : ℚ) * 2 ^ t = m * 2 ^ e := by
  obtain ⟨k, rfl⟩ := Int.le.dest ht
  have hk : (t + k - t).toNat = k := by omega
  rw [hk, Nat.shiftLeft_eq, Precision.two_zpow_add, zpow_natCast]
  push_cast
  ring

theorem normalize_natCast (m : ℕ) (e : ℤ) (hm : 0 < m) (s : Sign) :
    UnpackedFloat.normalize spec (m : ℤ) e s = UnpackedFloat.round spec .positive m e := by
  have hc : compare (m : ℤ) 0 = .gt := Int.compare_eq_gt.mpr (by omega)
  unfold UnpackedFloat.normalize
  rw [hc]
  rfl

theorem add_spec {x y : UnpackedFloat} (hx : IsNumber spec x) (hy : IsNumber spec y) :
    value (add spec x y) = (precision spec).roundTo (value x + value y) ∧
    (2 ≤ spec.exponentBits → (precision spec).roundTo (value x + value y) < 2 ^ limit spec →
      IsNumber spec (add spec x y)) := by
  have hself : ∀ {z : UnpackedFloat}, IsNumber spec z →
      value z = (precision spec).roundTo (value z) := fun hz =>
    (Precision.roundTo_of_representable hz.representable).symm
  cases hx with
  | zero =>
    rw [show value (.zero .positive) = 0 from rfl, zero_add]
    cases hy with
    | zero => exact ⟨hself .zero, fun _ _ => .zero⟩
    | finite m e h hc => exact ⟨hself (.finite m e h hc), fun _ _ => .finite m e h hc⟩
  | finite m e h hc =>
    cases hy with
    | zero =>
      rw [show value (.zero .positive) = 0 from rfl, add_zero]
      exact ⟨hself (.finite m e h hc), fun _ _ => .finite m e h hc⟩
    | finite m' e' h' hc' =>
      have hpos : 0 < m <<< (e - min e e').toNat + m' <<< (e' - min e e').toNat :=
        Nat.add_pos_left (log2_shiftLeft h _).1 _
      have hadd : add spec (.finite .positive m e h) (.finite .positive m' e' h') =
          UnpackedFloat.round spec .positive
            (m <<< (e - min e e').toNat + m' <<< (e' - min e e').toNat) (min e e') := by
        rw [← normalize_natCast _ _ hpos .positive, Nat.cast_add]
        rfl
      have hvalue : ((m <<< (e - min e e').toNat + m' <<< (e' - min e e').toNat : ℕ) : ℚ) *
          2 ^ min e e' = value (.finite .positive m e h) + value (.finite .positive m' e' h') := by
        rw [Nat.cast_add, add_mul, value_shiftLeft m e _ (min_le_left e e'),
          value_shiftLeft m' e' _ (min_le_right e e')]
        rfl
      rw [hadd, ← hvalue]
      exact round_spec spec (min e e') hpos

theorem ofNat_spec (n : ℕ) :
    value (UnpackedFloat.ofNat spec n) = (precision spec).roundTo (n : ℚ) ∧
    (2 ≤ spec.exponentBits → (precision spec).roundTo (n : ℚ) < 2 ^ limit spec →
      IsNumber spec (UnpackedFloat.ofNat spec n)) := by
  rcases Nat.eq_zero_or_pos n with rfl | hn
  · rw [Nat.cast_zero, Precision.roundTo_zero]
    exact ⟨rfl, fun _ _ => .zero⟩
  · have h := round_spec spec 0 hn
    rw [zpow_zero, mul_one] at h
    show value (UnpackedFloat.normalize spec (n : ℤ) 0 .positive) = _ ∧ _
    unfold UnpackedFloat.ofNat UnpackedFloat.ofInt
    rw [normalize_natCast n 0 hn]
    exact h

/-- a quotient that is not below the smallest place -/
theorem div_spec {x y : UnpackedFloat} (hx : IsNumber spec x) (hy : IsNumber spec y)
    (hy0 : value y ≠ 0) (hge : value x = 0 ∨ (2 : ℚ) ^ spec.minExponent ≤ value x / value y) :
    value (UnpackedFloat.div spec x y) = (precision spec).roundTo (value x / value y) ∧
    (2 ≤ spec.exponentBits → (precision spec).roundTo (value x / value y) < 2 ^ limit spec →
      IsNumber spec (UnpackedFloat.div spec x y)) := by
  cases hy with
  | zero => exact absurd rfl hy0
  | finite m' e' h' hc' =>
    cases hx with
    | zero =>
      rw [show value (.zero .positive) = 0 from rfl, zero_div, Precision.roundTo_zero]
      exact ⟨rfl, fun _ _ => .zero⟩
    | finite m e h hc =>
      have hmq : (0 : ℚ) < m := Nat.cast_pos.mpr h
      have hmq' : (0 : ℚ) < m' := Nat.cast_pos.mpr h'
      have hge : (2 : ℚ) ^ spec.minExponent ≤ (m : ℚ) * 2 ^ e / (m' * 2 ^ e') := by
        rcases hge with h0 | hge
        · exact absurd h0 (mul_pos hmq (Precision.two_zpow_pos e)).ne'
        · exact hge
      -- the exponent that the quotient is computed with
      obtain ⟨t, ht⟩ : ∃ t, t = min (e - e')
        (spec.targetExponent (totalExponent m e - totalExponent m' e')) := ⟨_, rfl⟩
      have hscaled : ((m <<< (e - e' - t).toNat : ℕ) : ℚ) / m' * 2 ^ t =
          (m : ℚ) * 2 ^ e / (m' * 2 ^ e') := by
        rw [div_mul_eq_mul_div, value_shiftLeft m (e - e') t (by omega), zpow_sub₀ two_ne_zero,
          mul_div_assoc', div_div, mul_comm (m' : ℚ)]
      obtain ⟨a, ha⟩ : ∃ a, a = m <<< (e - e' - t).toNat := ⟨_, rfl⟩
      rw [← ha] at hscaled
      have hlog := log_scaled (x := (m : ℚ)) e h hmq.le (Nat.floor_natCast m)
      have hlog' := log_scaled (x := (m' : ℚ)) e' h' hmq'.le (Nat.floor_natCast m')
      have hxpos := mul_pos hmq (Precision.two_zpow_pos e)
      have hypos := mul_pos hmq' (Precision.two_zpow_pos e')
      have hqpos : (0 : ℚ) < (m : ℚ) * 2 ^ e / (m' * 2 ^ e') := div_pos hxpos hypos
      -- the quotient starts where the difference of the exponents says, or a digit before
      have hstart : (m.log2 : ℤ) + e - (m'.log2 + e') - 1 ≤
          Int.log 2 ((m : ℚ) * 2 ^ e / (m' * 2 ^ e')) := by
        rw [← Int.zpow_le_iff_le_log (by omega) hqpos, le_div_iff₀ hypos]
        push_cast
        have hlow := Int.zpow_log_le_self (b := 2) (by omega) hxpos
        have hhigh := Int.lt_zpow_succ_log_self (b := 2) (by omega) ((m' : ℚ) * 2 ^ e')
        rw [hlog] at hlow
        rw [hlog'] at hhigh
        push_cast at hlow hhigh
        calc (2 : ℚ) ^ ((m.log2 : ℤ) + e - (m'.log2 + e') - 1) * (m' * 2 ^ e')
            ≤ 2 ^ ((m.log2 : ℤ) + e - (m'.log2 + e') - 1) * 2 ^ ((m'.log2 : ℤ) + e' + 1) :=
              mul_le_mul_of_nonneg_left hhigh.le (Precision.two_zpow_pos _).le
          _ = 2 ^ ((m.log2 : ℤ) + e) := by
              rw [← Precision.two_zpow_add]
              congr 1
              ring
          _ ≤ m * 2 ^ e := hlow
      have hquot : 0 < a / m' := by
        -- otherwise the quotient would be below its last place
        apply Nat.div_pos _ h'
        have hge' : (2 : ℚ) ^ t ≤ (a : ℚ) / m' * 2 ^ t := by
          rw [hscaled]
          have hlarge : (2 : ℚ) ^ ((m.log2 : ℤ) + e - (m'.log2 + e') - 1) ≤
              (m : ℚ) * 2 ^ e / (m' * 2 ^ e') := by
            have hh := (Int.zpow_le_iff_le_log (b := 2) (by omega) hqpos).mpr hstart
            exact_mod_cast hh
          rcases le_total (spec.minExponent)
            ((m.log2 : ℤ) + e - (m'.log2 + e') - spec.mantissaBits) with hn | hn
          · refine (Precision.two_zpow_le ?_).trans hlarge
            unfold Format.targetExponent totalExponent at ht
            have hbits : 1 ≤ spec.mantissaBits := by
              unfold Format.mantissaBits
              omega
            omega
          · refine (Precision.two_zpow_le ?_).trans hge
            unfold Format.targetExponent totalExponent at ht
            omega
        have hone : (1 : ℚ) ≤ (a : ℚ) / m' :=
          le_of_mul_le_mul_right (by rw [one_mul]; exact hge') (Precision.two_zpow_pos t)
        rw [one_le_div hmq'] at hone
        exact_mod_cast hone
      have hfloor : ⌊(a : ℚ) / m'⌋₊ = a / m' := Nat.floor_div_eq_div a m'
      have htotal := log_scaled t hquot (div_nonneg (Nat.cast_nonneg a) hmq'.le) hfloor
      rw [hscaled] at htotal
      have hspec := roundWithAccuracy_spec spec (e := t) hquot (reads_fraction a m' h')
        (by
          unfold Format.targetExponent totalExponent at ht ⊢
          omega)
      rw [hscaled] at hspec
      have hdiv : UnpackedFloat.div spec (.finite .positive m e h) (.finite .positive m' e' h') =
          roundWithAccuracy spec .positive (a / m') t (accuracyOfFraction (a % m') m') := by
        rw [ha, ht]
        rfl
      rw [hdiv]
      exact hspec

/-- the product of two numbers that packing expects has digits enough, or a small exponent -/
theorem le_targetExponent_mul {m m' : ℕ} {e e' : ℤ} (hc : Canonical spec m e)
    (hc' : Canonical spec m' e') (h : 0 < m) (h' : 0 < m') :
    e + e' ≤ spec.targetExponent (totalExponent (m * m') (e + e')) := by
  have hlog : m.log2 ≤ (m * m').log2 :=
    (Nat.le_log2 (Nat.mul_pos h h').ne').mpr
      ((Nat.log2_self_le h.ne').trans (Nat.le_mul_of_pos_right m h'))
  have hlog' : m'.log2 ≤ (m * m').log2 :=
    (Nat.le_log2 (Nat.mul_pos h h').ne').mpr
      ((Nat.log2_self_le h'.ne').trans (Nat.le_mul_of_pos_left m' h))
  have hpow : (1 : ℤ) ≤ 2 ^ (spec.exponentBits - 1) := one_le_pow₀ (by omega)
  have hbits := spec.hm
  have ht := hc.target
  have ht' := hc'.target
  unfold Format.targetExponent totalExponent Format.minExponent Format.mantissaBits at *
  push_cast at *
  generalize (2 : ℤ) ^ (spec.exponentBits - 1) = b at *
  omega

theorem mul_spec {x y : UnpackedFloat} (hx : IsNumber spec x) (hy : IsNumber spec y) :
    value (UnpackedFloat.mul spec x y) = (precision spec).roundTo (value x * value y) ∧
    (2 ≤ spec.exponentBits → (precision spec).roundTo (value x * value y) < 2 ^ limit spec →
      IsNumber spec (UnpackedFloat.mul spec x y)) := by
  cases hx with
  | zero =>
    rw [show value (.zero .positive) = 0 from rfl, zero_mul, Precision.roundTo_zero]
    cases hy <;> exact ⟨rfl, fun _ _ => .zero⟩
  | finite m e h hc =>
    cases hy with
    | zero =>
      rw [show value (.zero .positive) = 0 from rfl, mul_zero, Precision.roundTo_zero]
      exact ⟨rfl, fun _ _ => .zero⟩
    | finite m' e' h' hc' =>
      have hvalue : ((m * m' : ℕ) : ℚ) * 2 ^ (e + e') =
          value (.finite .positive m e h) * value (.finite .positive m' e' h') := by
        show _ = (m : ℚ) * 2 ^ e * (m' * 2 ^ e')
        rw [Precision.two_zpow_add]
        push_cast
        ring
      rw [← hvalue]
      exact roundWithAccuracy_spec spec (Nat.mul_pos h h') (reads_exact _)
        (le_targetExponent_mul hc hc' h h')

/-! ## packing -/

/-- unpacking gives back a number that has been packed -/
theorem unpack_pack {x : UnpackedFloat} (h : IsNumber spec x) :
    UnpackedFloat.unpack spec (UnpackedFloat.pack spec x) = x := by
  have hzero : (BitVec.ofNat spec.exponentBits 0) ≠ -BitVec.ofNat spec.exponentBits 1 := by
    intro he
    have hn := congrArg BitVec.toNat he
    have hpow : 2 ≤ 2 ^ spec.exponentBits := le_self_pow₀ (by omega) (Nat.pos_iff_ne_zero.mp spec.he)
    rw [BitVec.neg_one_eq_allOnes, BitVec.toNat_allOnes, BitVec.toNat_ofNat, Nat.zero_mod] at hn
    omega
  cases h with
  | zero =>
    show UnpackedFloat.unpack spec (packComponents spec .positive 0 0) = _
    unfold UnpackedFloat.unpack
    simp only [unpackExponent_packComponents, unpackMantissa_packComponents,
      unpackSign_packComponents, Sign.ofBitVec_toBitVec]
    exact (if_neg hzero).trans (if_pos rfl)
  | finite m e hm hc =>
    obtain ⟨ht, hroom⟩ := hc
    have hpow : 1 ≤ 2 ^ (spec.exponentBits - 1) := Nat.one_le_two_pow
    have hbias : (spec.exponentBias : ℤ) = 2 ^ (spec.exponentBits - 1) - 1 := by
      unfold Format.exponentBias
      rw [Nat.cast_sub hpow]
      push_cast
      rfl
    unfold Format.targetExponent totalExponent Format.mantissaBits Format.minExponent
      Format.mantissaBits at ht
    push_cast at ht
    have hlower : 1 ≤ e + spec.exponentBias + spec.mantissaBitsWithoutImplicit := by
      rw [hbias]
      omega
    obtain ⟨b, hb⟩ := Int.eq_ofNat_of_zero_le
      (show 0 ≤ e + spec.exponentBias + spec.mantissaBitsWithoutImplicit by omega)
    have hbtoNat : (e + spec.exponentBias + spec.mantissaBitsWithoutImplicit).toNat = b := by omega
    have hroom' : b + 1 < 2 ^ spec.exponentBits := by
      rw [hb] at hroom
      exact_mod_cast hroom
    have hpack : UnpackedFloat.pack spec (.finite .positive m e hm) =
        if m.log2 + 1 = spec.mantissaBits then
          packComponents spec .positive (BitVec.ofNat _ b) (BitVec.ofNat _ m)
        else packComponents spec .positive 0#_ (BitVec.ofNat _ m) := by
      rw [← hbtoNat]
      exact if_neg (by omega)
    by_cases hfull : m.log2 + 1 = spec.mantissaBits
    · -- the implicit bit is dropped and comes back
      have hne : BitVec.ofNat spec.exponentBits b ≠ -BitVec.ofNat spec.exponentBits 1 := by
        intro he
        have hn := congrArg BitVec.toNat he
        rw [BitVec.neg_one_eq_allOnes, BitVec.toNat_allOnes, BitVec.toNat_ofNat,
          Nat.mod_eq_of_lt (by omega)] at hn
        omega
      have hne0 : BitVec.ofNat spec.exponentBits b ≠ BitVec.ofNat spec.exponentBits 0 := by
        intro he
        have hn := congrArg BitVec.toNat he
        rw [BitVec.toNat_ofNat, BitVec.toNat_ofNat, Nat.mod_eq_of_lt (by omega),
          Nat.zero_mod] at hn
        omega
      have hlog : m.log2 = spec.mantissaBitsWithoutImplicit := by
        unfold Format.mantissaBits at hfull
        omega
      obtain ⟨hlow, hhigh⟩ := (Nat.log2_eq_iff hm.ne').mp hlog
      have hmod : m % 2 ^ spec.mantissaBitsWithoutImplicit =
          m - 2 ^ spec.mantissaBitsWithoutImplicit := by
        rw [pow_succ] at hhigh
        rw [Nat.mod_eq_sub_mod hlow, Nat.mod_eq_of_lt (by omega)]
      have hmantissa : (1#1 ++ BitVec.ofNat spec.mantissaBitsWithoutImplicit m).toNat = m := by
        rw [BitVec.toNat_append, BitVec.toNat_ofNat, BitVec.toNat_ofNat, hmod,
          Nat.shiftLeft_eq, ← Nat.shiftLeft_eq,
          ← Nat.shiftLeft_add_eq_or_of_lt (by rw [pow_succ] at hhigh; omega), Nat.shiftLeft_eq]
        omega
      have hexp : ((BitVec.ofNat spec.exponentBits b).toNat : ℤ) -
          (spec.exponentBias + spec.mantissaBitsWithoutImplicit) = e := by
        rw [BitVec.toNat_ofNat, Nat.mod_eq_of_lt (by omega)]
        omega
      rw [hpack, if_pos hfull]
      unfold UnpackedFloat.unpack
      simp only [unpackExponent_packComponents, unpackMantissa_packComponents,
        unpackSign_packComponents, if_neg hne, if_neg hne0, Sign.ofBitVec_toBitVec, hmantissa, hexp]
    · -- a subnormal number has the smallest exponent
      have hlog : m.log2 < spec.mantissaBitsWithoutImplicit := by
        unfold Format.mantissaBits at hfull
        omega
      have hlt : m < 2 ^ spec.mantissaBitsWithoutImplicit := (Nat.log2_lt hm.ne').mp hlog
      have hmantissa : (BitVec.ofNat spec.mantissaBitsWithoutImplicit m).toNat = m := by
        rw [BitVec.toNat_ofNat, Nat.mod_eq_of_lt hlt]
      have hne0 : BitVec.ofNat spec.mantissaBitsWithoutImplicit m ≠ 0#_ := by
        intro he
        have hn := congrArg BitVec.toNat he
        rw [hmantissa, BitVec.toNat_ofNat, Nat.zero_mod] at hn
        omega
      have hexp : ((BitVec.ofNat spec.exponentBits 0).toNat : ℤ) -
          (spec.exponentBias + spec.mantissaBitsWithoutImplicit) + 1 = e := by
        rw [BitVec.toNat_ofNat, Nat.zero_mod]
        omega
      rw [hpack, if_neg hfull]
      unfold UnpackedFloat.unpack
      simp only [unpackExponent_packComponents, unpackMantissa_packComponents,
        unpackSign_packComponents, if_neg hzero, if_true, dif_neg hne0, Sign.ofBitVec_toBitVec,
        hmantissa, hexp]

/-! ## `Float32` -/

def val (x : Float32) : ℚ := value x.toModel.unpack

/-- neither infinite nor `NaN`, and with a positive sign -/
def Number (x : Float32) : Prop := ∃ u, IsNumber .binary32 u ∧ x = .ofModel (.pack u)

theorem val_nonneg (x : Float32) : 0 ≤ val x := value_nonneg _

theorem Number.isNumber {x : Float32} (h : Number x) : IsNumber .binary32 x.toModel.unpack := by
  obtain ⟨u, hu, rfl⟩ := h
  rw [show (Float32.ofModel (Float32.Model.pack u)).toModel.unpack = u from unpack_pack hu]
  exact hu

theorem Number.representable {x : Float32} (h : Number x) :
    (precision .binary32).Representable (val x) := h.isNumber.representable

theorem limit_binary32 {q : ℚ} (h0 : 0 ≤ q) (h : q ≤ 2 ^ (127 : ℤ)) :
    (precision .binary32).roundTo q < 2 ^ limit .binary32 := by
  have hrep : (precision .binary32).Representable ((2 : ℚ) ^ (127 : ℤ)) :=
    Precision.representable_two_zpow (by decide)
  exact (Precision.roundTo_le h0 h hrep).trans_lt (zpow_lt_zpow_right₀ one_lt_two (by decide))

theorem number_ofModel {x : UnpackedFloat} {q : ℚ}
    (h : value x = (precision .binary32).roundTo q ∧ (2 ≤ Format.binary32.exponentBits →
      (precision .binary32).roundTo q < 2 ^ limit .binary32 → IsNumber .binary32 x))
    (h0 : 0 ≤ q) (hq : q ≤ 2 ^ (127 : ℤ)) :
    Number (Float32.ofModel (Float32.Model.pack x)) ∧
      val (Float32.ofModel (Float32.Model.pack x)) = (precision .binary32).roundTo q := by
  have hx := h.2 (by decide) (limit_binary32 h0 hq)
  refine ⟨⟨x, hx, rfl⟩, ?_⟩
  unfold val
  rw [show (Float32.ofModel (Float32.Model.pack x)).toModel.unpack = x from unpack_pack hx]
  exact h.1

theorem Number.add {x y : Float32} (hx : Number x) (hy : Number y)
    (h : val x + val y ≤ 2 ^ (127 : ℤ)) :
    Number (x + y) ∧ val (x + y) = (precision .binary32).roundTo (val x + val y) :=
  number_ofModel (add_spec hx.isNumber hy.isNumber) (add_nonneg (val_nonneg x) (val_nonneg y)) h

theorem Number.div {x y : Float32} (hx : Number x) (hy : Number y) (hy0 : val y ≠ 0)
    (hge : val x = 0 ∨ (2 : ℚ) ^ (-149 : ℤ) ≤ val x / val y) (h : val x / val y ≤ 2 ^ (127 : ℤ)) :
    Number (x / y) ∧ val (x / y) = (precision .binary32).roundTo (val x / val y) :=
  number_ofModel (div_spec hx.isNumber hy.isNumber hy0 hge) (div_nonneg (val_nonneg x) (val_nonneg y)) h

theorem number_toFloat32 (n : UInt32) :
    Number n.toFloat32 ∧ val n.toFloat32 = (precision .binary32).roundTo (n.toNat : ℚ) := by
  refine number_ofModel (ofNat_spec n.toNat) (Nat.cast_nonneg _) ?_
  have hn : (n.toNat : ℚ) ≤ ((2 ^ 32 : ℕ) : ℚ) := Nat.cast_le.mpr n.toNat_lt.le
  calc (n.toNat : ℚ) ≤ ((2 ^ 32 : ℕ) : ℚ) := hn
    _ = 2 ^ (32 : ℤ) := by norm_num
    _ ≤ 2 ^ (127 : ℤ) := Precision.two_zpow_le (by decide)

/-! ## `Float`, and the conversions -/

def val64 (x : Float) : ℚ := value x.toModel.unpack

def Number64 (x : Float) : Prop := IsNumber .binary64 x.toModel.unpack

theorem number64_ofModel {x : UnpackedFloat} {q : ℚ}
    (h : value x = (precision .binary64).roundTo q ∧ (2 ≤ Format.binary64.exponentBits →
      (precision .binary64).roundTo q < 2 ^ limit .binary64 → IsNumber .binary64 x))
    (h0 : 0 ≤ q) (hq : q ≤ 2 ^ (1023 : ℤ)) :
    Number64 (Float.ofModel (Float.Model.pack x)) ∧
      val64 (Float.ofModel (Float.Model.pack x)) = (precision .binary64).roundTo q := by
  have hrep : (precision .binary64).Representable ((2 : ℚ) ^ (1023 : ℤ)) :=
    Precision.representable_two_zpow (by decide)
  have hx := h.2 (by decide) ((Precision.roundTo_le h0 hq hrep).trans_lt
    (zpow_lt_zpow_right₀ one_lt_two (by decide)))
  unfold Number64 val64
  rw [show (Float.ofModel (Float.Model.pack x)).toModel.unpack = x from unpack_pack hx]
  exact ⟨hx, h.1⟩

theorem Number64.mul {x y : Float} (hx : Number64 x) (hy : Number64 y)
    (h : val64 x * val64 y ≤ 2 ^ (1023 : ℤ)) :
    Number64 (x * y) ∧ val64 (x * y) = (precision .binary64).roundTo (val64 x * val64 y) :=
  number64_ofModel (mul_spec hx hy) (mul_nonneg (value_nonneg _) (value_nonneg _)) h

/-- a `float` taken as a `double` -/
def widen (x : Float32) : Float :=
  match x.toModel.unpack with
  | .finite s m e _ => .ofModel (.pack (UnpackedFloat.round .binary64 s m e))
  | u => .ofModel (.pack u)

/-- a `double` rounded to a `float` -/
def narrow (x : Float) : Float32 :=
  match x.toModel.unpack with
  | .finite s m e _ => .ofModel (.pack (UnpackedFloat.round .binary32 s m e))
  | u => .ofModel (.pack u)

theorem representable_widen {x : ℚ} (h : (precision .binary32).Representable x) :
    (precision .binary64).Representable x := by
  obtain ⟨m, e, hm, he, rfl⟩ := h
  refine ⟨m, e, hm.trans (by decide), ?_, rfl⟩
  exact le_trans (by decide) he

theorem Number.widen {x : Float32} (hx : Number x) (h : val x ≤ 2 ^ (127 : ℤ)) :
    Number64 (widen x) ∧ val64 (widen x) = val x := by
  have hrep := representable_widen hx.representable
  replace hx := hx.isNumber
  unfold val at *
  unfold Floats.widen
  cases hu : x.toModel.unpack with
  | finite s m e hm =>
    rw [hu] at hx h hrep
    cases hx with
    | finite _ _ _ hc =>
      have hround := number64_ofModel (round_spec _ e hm)
        (value_nonneg (.finite .positive m e hm))
        (h.trans (Precision.two_zpow_le (by decide)))
      exact ⟨hround.1, hround.2.trans (Precision.roundTo_of_representable hrep)⟩
  | zero s =>
    rw [hu] at hx
    cases hx
    have hzero : Number64 (Float.ofModel (Float.Model.pack (.zero .positive))) ∧
        val64 (Float.ofModel (Float.Model.pack (.zero .positive))) = 0 := by
      unfold Number64 val64
      rw [show (Float.ofModel (Float.Model.pack (.zero .positive))).toModel.unpack =
        .zero .positive from unpack_pack .zero]
      exact ⟨.zero, rfl⟩
    exact hzero
  | notANumber => rw [hu] at hx; cases hx
  | infinity s => rw [hu] at hx; cases hx

theorem Number64.narrow {x : Float} (hx : Number64 x) (h : val64 x ≤ 2 ^ (127 : ℤ)) :
    Number (narrow x) ∧ val (narrow x) = (precision .binary32).roundTo (val64 x) := by
  unfold Number64 val64 at *
  unfold Floats.narrow
  cases hu : x.toModel.unpack with
  | finite s m e hm =>
    rw [hu] at hx h
    cases hx with
    | finite _ _ _ hc =>
      exact number_ofModel (round_spec _ e hm) (value_nonneg (.finite .positive m e hm)) h
  | zero s =>
    rw [hu] at hx
    cases hx
    have hzero : value (.zero .positive) = (precision .binary32).roundTo 0 :=
      Precision.roundTo_zero.symm
    exact number_ofModel ⟨hzero, fun _ _ => .zero⟩ le_rfl (Precision.two_zpow_pos _).le
  | notANumber => rw [hu] at hx; cases hx
  | infinity s => rw [hu] at hx; cases hx

theorem number_zero : Number 0 ∧ val 0 = 0 := by
  refine ⟨⟨.zero .positive, .zero, by rfl⟩, ?_⟩
  have h : (0 : Float32).toModel.unpack = .zero .positive := by rfl
  unfold val
  rw [h]
  rfl

end Floats
