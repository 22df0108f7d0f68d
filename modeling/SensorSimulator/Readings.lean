import SensorSimulator.Client
import SensorSimulator.Lib.FloatSums

/-!
# The readings: generate_random_float

* `generateRandomFloat`   the function, for a `RAND_MAX` and what `rand` returns;
* `IsReading`             the words that sensors send: numbers from 0 to 100;
* `generateRandomFloat_spec`   what the function makes is one, and within the error of three roundings
                          of `100 * rand / RAND_MAX`;
* `Rand.mono`             a larger `rand` never makes a smaller reading.
-/

namespace SensorSimulator
open Floats Rounding

/-- `((float)rand() / RAND_MAX) * 100.0`: a `float` by a `float`, then times a `double` and back -/
def randomFloat (randMax rand : UInt32) : Float32 :=
  narrow (widen (rand.toFloat32 / randMax.toFloat32) * 100.0)

/-- `none` stands for a `NULL` pointer -/
def generateRandomFloat (randMax : UInt32) (floatOut : Option Float32) (rand : UInt32) :
    Status × Option Float32 :=
  match floatOut with
  | none => (.error, none)
  | some _ => (.success, some (randomFloat randMax rand))

/-- the word that `pack_sensor_data` gets -/
def randomWord (randMax rand : UInt32) : Option UInt32 :=
  match generateRandomFloat randMax (some 0) rand with
  | (.success, some number) => some number.toBits
  | _ => none

/-- `RAND_MAX` is an `int`, and `rand` does not return more -/
structure Rand (randMax rand : UInt32) : Prop where
  pos : 0 < randMax.toNat
  int : randMax.toNat < 2147483648
  le : rand.toNat ≤ randMax.toNat

/-- a number up to 100, and if it is not 0 no less than the smallest that `rand` leads to -/
structure IsReading (word : UInt32) : Prop where
  number : Number (Float32.ofBits word)
  le : val (Float32.ofBits word) ≤ 100
  zero_or_ge : val (Float32.ofBits word) = 0 ∨ (2 : ℚ) ^ (-25 : ℤ) ≤ val (Float32.ofBits word)

/-! ## the three steps -/

section
variable {randMax rand : UInt32}

theorem number_hundred : Number64 100.0 ∧ val64 100.0 = 100 := by
  have h : (100.0 : Float).toModel.unpack =
      .finite .positive (100 * 2 ^ 46) (-46) (by decide) := by rfl
  unfold Number64 val64
  rw [h]
  refine ⟨.finite _ _ _ ⟨by decide, by decide⟩, ?_⟩
  show ((100 * 2 ^ 46 : ℕ) : ℚ) * 2 ^ (-46 : ℤ) = 100
  norm_num

theorem Rand.floats (h : Rand randMax rand) :
    0 < val randMax.toFloat32 ∧ val randMax.toFloat32 ≤ 2 ^ (31 : ℤ) ∧
      val rand.toFloat32 ≤ val randMax.toFloat32 := by
  have hmax : (randMax.toNat : ℚ) ≤ 2 ^ (31 : ℤ) := by
    have hlt : randMax.toNat ≤ 2 ^ 31 := h.int.le
    exact_mod_cast hlt
  have hpos : (0 : ℚ) < randMax.toNat := Nat.cast_pos.mpr h.pos
  have hle : (rand.toNat : ℚ) ≤ randMax.toNat := Nat.cast_le.mpr h.le
  have hrep : (precision .binary32).Representable ((2 : ℚ) ^ (31 : ℤ)) :=
    Precision.representable_two_zpow (by decide)
  refine ⟨?_, ?_, ?_⟩
  · exact (mul_pos (by linarith [unit32_bounds.2]) hpos).trans_le (toFloat32_bounds randMax).1
  · rw [(number_toFloat32 randMax).2]
    exact Precision.roundTo_le hpos.le hmax hrep
  · rw [(number_toFloat32 randMax).2, (number_toFloat32 rand).2]
    exact Precision.roundTo_mono (Nat.cast_nonneg _) hle

theorem one_le_toFloat32 (h0 : rand.toNat ≠ 0) : 1 ≤ val rand.toFloat32 := by
  have hone : (1 : ℚ) ≤ rand.toNat := by exact_mod_cast Nat.one_le_iff_ne_zero.mpr h0
  have hrep : (precision .binary32).Representable (1 : ℚ) := by
    have h := Precision.representable_two_zpow (K := ℚ) (F := precision .binary32) (e := 0)
      (by decide)
    rwa [zpow_zero] at h
  rw [(number_toFloat32 rand).2]
  exact Precision.le_roundTo zero_le_one hone hrep

theorem val_toFloat32_zero (h0 : rand.toNat = 0) : val rand.toFloat32 = 0 := by
  rw [(number_toFloat32 rand).2, h0, Nat.cast_zero, Precision.roundTo_zero]

theorem Rand.quotient (h : Rand randMax rand) :
    Number (rand.toFloat32 / randMax.toFloat32) ∧
    val (rand.toFloat32 / randMax.toFloat32) =
      (precision .binary32).roundTo (val rand.toFloat32 / val randMax.toFloat32) ∧
    val (rand.toFloat32 / randMax.toFloat32) ≤ 1 ∧
    (val rand.toFloat32 = 0 ∨
      (2 : ℚ) ^ (-31 : ℤ) ≤ val rand.toFloat32 / val randMax.toFloat32) := by
  obtain ⟨hpos, hmax, hle⟩ := h.floats
  have hone : val rand.toFloat32 / val randMax.toFloat32 ≤ 1 := div_le_one_of_le₀ hle hpos.le
  have hlow : val rand.toFloat32 = 0 ∨
      (2 : ℚ) ^ (-31 : ℤ) ≤ val rand.toFloat32 / val randMax.toFloat32 := by
    by_cases h0 : rand.toNat = 0
    · exact Or.inl (val_toFloat32_zero h0)
    · apply Or.inr
      rw [le_div_iff₀ hpos]
      calc (2 : ℚ) ^ (-31 : ℤ) * val randMax.toFloat32 ≤ 2 ^ (-31 : ℤ) * 2 ^ (31 : ℤ) :=
            mul_le_mul_of_nonneg_left hmax (Precision.two_zpow_pos _).le
        _ = 1 := by rw [← Precision.two_zpow_add]; rfl
        _ ≤ val rand.toFloat32 := one_le_toFloat32 h0
  obtain ⟨hnumber, hval⟩ := (number_toFloat32 rand).1.div (number_toFloat32 randMax).1 hpos.ne'
    (hlow.imp_right fun hq => (Precision.two_zpow_le (by omega)).trans hq)
    (hone.trans (one_le_zpow₀ one_le_two (by omega)))
  refine ⟨hnumber, hval, ?_, hlow⟩
  have hrep : (precision .binary32).Representable (1 : ℚ) := by
    have hr := Precision.representable_two_zpow (K := ℚ) (F := precision .binary32) (e := 0)
      (by decide)
    rwa [zpow_zero] at hr
  rw [hval]
  exact Precision.roundTo_le (div_nonneg (val_nonneg _) hpos.le) hone hrep

/-- a `double` has room for the product -/
theorem representable_times_hundred {x : ℚ} (h : (precision .binary32).Representable x) :
    (precision .binary64).Representable (x * 100) := by
  obtain ⟨m, e, hm, he, rfl⟩ := h
  refine ⟨m * 100, e, ?_, le_trans (by decide) he, ?_⟩
  · have hm' : m < 2 ^ 24 := hm
    show m * 100 < 2 ^ 53
    omega
  · push_cast
    ring

/-- the last two steps round once -/
theorem Rand.randomFloat_eq (h : Rand randMax rand) :
    Number (randomFloat randMax rand) ∧ val (randomFloat randMax rand) =
      (precision .binary32).roundTo (val (rand.toFloat32 / randMax.toFloat32) * 100) := by
  obtain ⟨hnumber, -, hone, -⟩ := h.quotient
  obtain ⟨hwide, hwideval⟩ := hnumber.widen (hone.trans (one_le_zpow₀ one_le_two (by omega)))
  have hlarge : (100 : ℚ) ≤ 2 ^ (127 : ℤ) := by norm_num
  have hprod : val (rand.toFloat32 / randMax.toFloat32) * 100 ≤ 100 := by linarith
  obtain ⟨hmul, hmulval⟩ := hwide.mul number_hundred.1 (by
    rw [hwideval, number_hundred.2]
    exact (hprod.trans hlarge).trans (Precision.two_zpow_le (by omega)))
  rw [hwideval, number_hundred.2,
    Precision.roundTo_of_representable (representable_times_hundred hnumber.representable)] at hmulval
  have hnarrow := hmul.narrow (by
    rw [hmulval]
    exact hprod.trans hlarge)
  rw [hmulval] at hnarrow
  exact hnarrow

/-- what is not 0 is far from the smallest places -/
theorem Rand.lower (h : Rand randMax rand) : rand = 0 ∧ val (randomFloat randMax rand) = 0 ∨
    rand ≠ 0 ∧ (2 : ℚ) ^ (-31 : ℤ) ≤ val rand.toFloat32 / val randMax.toFloat32 ∧
      (2 : ℚ) ^ (-31 : ℤ) ≤ val (rand.toFloat32 / randMax.toFloat32) ∧
      (2 : ℚ) ^ (-25 : ℤ) ≤ val (randomFloat randMax rand) := by
  obtain ⟨-, hq, -, hlow⟩ := h.quotient
  have hv := h.randomFloat_eq.2
  by_cases h0 : rand.toNat = 0
  · refine Or.inl ⟨UInt32.toNat_inj.mp h0, ?_⟩
    rw [hv, hq, val_toFloat32_zero h0, zero_div, Precision.roundTo_zero, zero_mul,
      Precision.roundTo_zero]
  · have hne : val rand.toFloat32 ≠ 0 := (zero_lt_one.trans_le (one_le_toFloat32 h0)).ne'
    have hquot := hlow.resolve_left hne
    have hquot' : (2 : ℚ) ^ (-31 : ℤ) ≤ val (rand.toFloat32 / randMax.toFloat32) := by
      rw [hq]
      exact Precision.le_roundTo (Precision.two_zpow_pos _).le hquot
        (Precision.representable_two_zpow (by decide))
    refine Or.inr ⟨fun he => h0 (congrArg UInt32.toNat he), hquot, hquot', ?_⟩
    rw [hv]
    refine Precision.le_roundTo (Precision.two_zpow_pos _).le ?_
      (Precision.representable_two_zpow (by decide))
    calc (2 : ℚ) ^ (-25 : ℤ) ≤ 2 ^ (-31 : ℤ) * 100 := by norm_num
      _ ≤ val (rand.toFloat32 / randMax.toFloat32) * 100 := by linarith

theorem Rand.le_hundred (h : Rand randMax rand) : val (randomFloat randMax rand) ≤ 100 := by
  have hone := h.quotient.2.2.1
  rw [h.randomFloat_eq.2]
  refine Precision.roundTo_le (mul_nonneg (val_nonneg _) (by norm_num)) (by linarith) ?_
  refine ⟨100, 0, by decide, by decide, ?_⟩
  norm_num

/-- the errors of the division, of the product and of the two conversions -/
theorem Rand.bounds (h : Rand randMax rand) :
    (1 - unit32) ^ 3 / (1 + unit32) * (100 * rand.toNat / randMax.toNat) ≤
      val (randomFloat randMax rand) ∧
    val (randomFloat randMax rand) ≤
      (1 + unit32) ^ 3 / (1 - unit32) * (100 * rand.toNat / randMax.toNat) := by
  obtain ⟨hu0, hu1⟩ := unit32_bounds
  obtain ⟨hpos, -, -⟩ := h.floats
  have hmax : (0 : ℚ) < randMax.toNat := Nat.cast_pos.mpr h.pos
  have hrand : (0 : ℚ) ≤ rand.toNat := Nat.cast_nonneg _
  rcases h.lower with ⟨rfl, hv⟩ | ⟨-, hquot, hquot', -⟩
  · rw [hv, show ((0 : UInt32).toNat : ℚ) = 0 from rfl, mul_zero, zero_div, mul_zero, mul_zero]
    exact ⟨le_refl _, le_refl _⟩
  obtain ⟨hr1, hr2⟩ := toFloat32_bounds rand
  obtain ⟨hm1, hm2⟩ := toFloat32_bounds randMax
  have hq := Precision.roundTo_bounds (F := precision .binary32)
    (div_nonneg (val_nonneg rand.toFloat32) hpos.le)
    (Precision.Graded.of_ge hquot (by decide))
  have hq0 := val_nonneg (rand.toFloat32 / randMax.toFloat32)
  have hprod : (2 : ℚ) ^ (-31 : ℤ) ≤ val (rand.toFloat32 / randMax.toFloat32) * 100 := by linarith
  have hv := Precision.roundTo_bounds (F := precision .binary32)
    (mul_nonneg hq0 (by norm_num : (0 : ℚ) ≤ 100)) (Precision.Graded.of_ge hprod (by decide))
  rw [← h.quotient.2.1, unit32_eq] at hq
  rw [← h.randomFloat_eq.2, unit32_eq] at hv
  have hlow : (1 - unit32) / (1 + unit32) * (rand.toNat / randMax.toNat) ≤
      val rand.toFloat32 / val randMax.toFloat32 := by
    rw [div_mul_div_comm]
    exact div_le_div₀ (val_nonneg _) hr1 hpos hm2
  have hhigh : val rand.toFloat32 / val randMax.toFloat32 ≤
      (1 + unit32) / (1 - unit32) * (rand.toNat / randMax.toNat) := by
    rw [div_mul_div_comm]
    exact div_le_div₀ (mul_nonneg (by linarith) hrand) hr2
      (mul_pos (by linarith) hmax) hm1
  constructor
  · calc (1 - unit32) ^ 3 / (1 + unit32) * (100 * rand.toNat / randMax.toNat)
        = (1 - unit32) * ((1 - unit32) *
            ((1 - unit32) / (1 + unit32) * (rand.toNat / randMax.toNat)) * 100) := by ring
      _ ≤ (1 - unit32) * ((1 - unit32) * (val rand.toFloat32 / val randMax.toFloat32) * 100) := by
          gcongr <;> linarith
      _ ≤ (1 - unit32) * (val (rand.toFloat32 / randMax.toFloat32) * 100) := by
          gcongr
          · linarith
          · exact hq.1
      _ ≤ val (randomFloat randMax rand) := hv.1
  · calc val (randomFloat randMax rand)
        ≤ (1 + unit32) * (val (rand.toFloat32 / randMax.toFloat32) * 100) := hv.2
      _ ≤ (1 + unit32) * ((1 + unit32) * (val rand.toFloat32 / val randMax.toFloat32) * 100) := by
          gcongr
          exact hq.2
      _ ≤ (1 + unit32) * ((1 + unit32) *
            ((1 + unit32) / (1 - unit32) * (rand.toNat / randMax.toNat)) * 100) := by
          gcongr
      _ = (1 + unit32) ^ 3 / (1 - unit32) * (100 * rand.toNat / randMax.toNat) := by ring

/-! ## what comes out -/

theorem Rand.isReading (h : Rand randMax rand) : IsReading (randomFloat randMax rand).toBits := by
  have hnumber := h.randomFloat_eq.1
  refine ⟨?_, ?_, ?_⟩ <;> rw [Float32.ofBits_toBits]
  · exact hnumber
  · exact h.le_hundred
  · exact h.lower.imp (fun h0 => h0.2) fun h0 => h0.2.2.2

theorem randomWord_eq (randMax rand : UInt32) :
    randomWord randMax rand = some (randomFloat randMax rand).toBits := rfl

theorem Rand.mono {rand' : UInt32} (h' : Rand randMax rand') (hle : rand ≤ rand') :
    val (randomFloat randMax rand) ≤ val (randomFloat randMax rand') := by
  have hle : rand.toNat ≤ rand'.toNat := hle
  have h : Rand randMax rand := ⟨h'.pos, h'.int, hle.trans h'.le⟩
  have hfloat : val rand.toFloat32 ≤ val rand'.toFloat32 := by
    rw [(number_toFloat32 rand).2, (number_toFloat32 rand').2]
    exact Precision.roundTo_mono (Nat.cast_nonneg _) (Nat.cast_le.mpr hle)
  have hquot : val (rand.toFloat32 / randMax.toFloat32) ≤
      val (rand'.toFloat32 / randMax.toFloat32) := by
    rw [h.quotient.2.1, h'.quotient.2.1]
    exact Precision.roundTo_mono (div_nonneg (val_nonneg _) h.floats.1.le)
      (div_le_div_of_nonneg_right hfloat h.floats.1.le)
  rw [h.randomFloat_eq.2, h'.randomFloat_eq.2]
  exact Precision.roundTo_mono (mul_nonneg (val_nonneg _) (by norm_num)) (by linarith)

/-- **A reading is a number from 0 to 100.**  Whatever `RAND_MAX` the library has and `rand` returns:
the word that is packed stands for a finite number of that range, 0 only for 0, which is
`100 * rand / RAND_MAX` up to the errors of the roundings and never smaller for a larger `rand`; and
a receiver that takes the word for a float has what `generate_random_float` stored. -/
theorem generateRandomFloat_spec (h : Rand randMax rand) :
    (∀ word, randomWord randMax rand = some word →
      Float32.ofBits word = randomFloat randMax rand ∧ IsReading word) ∧
    (val (randomFloat randMax rand) = 0 ↔ rand = 0) ∧
    (1 - unit32) ^ 3 / (1 + unit32) * (100 * rand.toNat / randMax.toNat) ≤
      val (randomFloat randMax rand) ∧
    val (randomFloat randMax rand) ≤
      (1 + unit32) ^ 3 / (1 - unit32) * (100 * rand.toNat / randMax.toNat) ∧
    ∀ rand' ≤ rand, val (randomFloat randMax rand') ≤ val (randomFloat randMax rand) := by
  refine ⟨?_, ?_, h.bounds.1, h.bounds.2, fun rand' hle => h.mono hle⟩
  · intro word hword
    cases hword
    exact ⟨Float32.ofBits_toBits _, h.isReading⟩
  · rcases h.lower with ⟨h0, hv⟩ | ⟨hne, -, -, hge⟩
    · exact ⟨fun _ => h0, fun _ => hv⟩
    · refine ⟨fun hv => ?_, fun h0 => absurd h0 hne⟩
      rw [hv] at hge
      exact absurd hge (not_le.mpr (Precision.two_zpow_pos _))

/-- the largest number of the library makes 100 -/
theorem generateRandomFloat_spec_max :
    randomWord 2147483647 2147483647 = some 1120403456 ∧ IsReading 1120403456 :=
  ⟨by decide, ((generateRandomFloat_spec ⟨by decide, by decide, by decide⟩).1 _
    (show randomWord 2147483647 2147483647 = some 1120403456 by decide)).2⟩

end

end SensorSimulator
