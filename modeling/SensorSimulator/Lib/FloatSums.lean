import Mathlib.Algebra.BigOperators.Group.List.Basic
import SensorSimulator.Lib.Floats

/-!
# Sums and averages of floats

* `unit32`              the relative error of one operation, `2 ^ -24`;
* `add_capped`          one addition: its error, and a power of two `2 ^ c` that it does not pass;
* `foldl_capped`        the same for a list of summands, added one after the other;
* `div_toFloat32`       a sum divided by a count;
* `Within a b x y`      `y` is `x` up to the errors of `a` operations and of `b` divisors.
-/

namespace Floats
open Rounding

/-- the relative error of one rounding -/
def unit32 : ℚ := 2 ^ (-24 : ℤ)

theorem unit32_eq : (precision .binary32).unit = unit32 := rfl

theorem unit32_bounds : 0 < unit32 ∧ unit32 < 1 / 2 := by
  unfold unit32
  norm_num

/-! ## one addition -/

/-- what is added up stays below `2 ^ c` -/
structure Capped (c : ℤ) (s : Float32) : Prop where
  number : Number s
  le : val s ≤ 2 ^ c

/-- small enough to be lost at `2 ^ c` -/
structure Small (c : ℤ) (y : Float32) : Prop where
  number : Number y
  lt : val y < 2 ^ (c - 24)

theorem Small.val_le {c : ℤ} {y : Float32} (hy : Small c y) : val y ≤ 2 ^ c :=
  hy.lt.le.trans (Precision.two_zpow_le (by omega))

section
variable {c : ℤ} (hlow : -126 ≤ c) (hhigh : c ≤ 125) {s y : Float32}
include hlow hhigh

theorem add_number (hs : Capped c s) (hy : Small c y) :
    Number (s + y) ∧ val (s + y) = (precision .binary32).roundTo (val s + val y) := by
  refine hs.number.add hy.number ?_
  calc val s + val y ≤ 2 ^ c + 2 ^ c := add_le_add hs.le hy.val_le
    _ = 2 ^ (c + 1) := by
        rw [Precision.two_zpow_add, zpow_one]
        ring
    _ ≤ 2 ^ (127 : ℤ) := Precision.two_zpow_le (by omega)

theorem add_capped (hs : Capped c s) (hy : Small c y) : Capped c (s + y) := by
  obtain ⟨hnumber, hval⟩ := add_number hlow hhigh hs hy
  refine ⟨hnumber, ?_⟩
  rw [hval]
  refine Precision.roundTo_add_le ?_ (val_nonneg s) hs.number.representable hs.le (val_nonneg y)
    hy.lt
  show (-149 : ℤ) + (24 : ℕ) - 1 ≤ c
  omega

theorem le_add (hs : Capped c s) (hy : Small c y) : val s ≤ val (s + y) := by
  rw [(add_number hlow hhigh hs hy).2]
  exact Precision.le_roundTo (val_nonneg s) (le_add_of_nonneg_right (val_nonneg y))
    hs.number.representable

theorem add_bounds (hs : Capped c s) (hy : Small c y) :
    (1 - unit32) * (val s + val y) ≤ val (s + y) ∧
      val (s + y) ≤ (1 + unit32) * (val s + val y) := by
  rw [(add_number hlow hhigh hs hy).2]
  exact Precision.roundTo_bounds (add_nonneg (val_nonneg s) (val_nonneg y))
    (graded_add hs.number.isNumber hy.number.isNumber)

/-! ## a list of summands -/

theorem foldl_capped (ys : List Float32) (hys : ∀ y ∈ ys, Small c y) :
    ∀ s, Capped c s → Capped c (ys.foldl (fun s y => s + y) s) ∧
      val s ≤ val (ys.foldl (fun s y => s + y) s) ∧
      (1 - unit32) ^ ys.length * (val s + (ys.map val).sum) ≤
        val (ys.foldl (fun s y => s + y) s) ∧
      val (ys.foldl (fun s y => s + y) s) ≤
        (1 + unit32) ^ ys.length * (val s + (ys.map val).sum) := by
  obtain ⟨hu0, hu1⟩ := unit32_bounds
  induction ys with
  | nil =>
    intro s hs
    refine ⟨hs, le_refl _, ?_, ?_⟩ <;> simp
  | cons y ys ih =>
    intro s hs
    have hy : Small c y := hys y List.mem_cons_self
    have hrest : 0 ≤ (ys.map val).sum := by
      apply List.sum_nonneg
      intro q hq
      obtain ⟨z, -, rfl⟩ := List.mem_map.mp hq
      exact val_nonneg z
    obtain ⟨hcap, hle, hlower, hupper⟩ := ih (fun z hz => hys z (List.mem_cons_of_mem _ hz))
      (s + y) (add_capped hlow hhigh hs hy)
    obtain ⟨hadd, hadd'⟩ := add_bounds hlow hhigh hs hy
    rw [List.foldl_cons, List.map_cons, List.sum_cons, List.length_cons, pow_succ, pow_succ]
    refine ⟨hcap, (le_add hlow hhigh hs hy).trans hle, ?_, ?_⟩
    · refine le_trans ?_ hlower
      rw [mul_assoc]
      refine mul_le_mul_of_nonneg_left ?_ (pow_nonneg (sub_nonneg.mpr (by linarith)) _)
      nlinarith
    · refine hupper.trans ?_
      rw [mul_assoc]
      refine mul_le_mul_of_nonneg_left ?_ (pow_nonneg (add_nonneg zero_le_one hu0.le) _)
      nlinarith

end

/-- a sum of numbers that are 0 or at least `x` is one -/
theorem foldl_zero_or_ge {c : ℤ} (hlow : -126 ≤ c) (hhigh : c ≤ 125) {x : ℚ} (ys : List Float32)
    (hys : ∀ y ∈ ys, Small c y) (hx : ∀ y ∈ ys, val y = 0 ∨ x ≤ val y) :
    ∀ s, Capped c s → (val s = 0 ∨ x ≤ val s) →
      (val (ys.foldl (fun s y => s + y) s) = 0 ∨ x ≤ val (ys.foldl (fun s y => s + y) s)) := by
  induction ys with
  | nil => exact fun s _ h => h
  | cons y ys ih =>
    intro s hs h
    have hy : Small c y := hys y List.mem_cons_self
    refine ih (fun z hz => hys z (List.mem_cons_of_mem _ hz))
      (fun z hz => hx z (List.mem_cons_of_mem _ hz)) (s + y) (add_capped hlow hhigh hs hy) ?_
    rcases h with h0 | hge
    · rcases hx y List.mem_cons_self with hy0 | hyge
      · apply Or.inl
        rw [(add_number hlow hhigh hs hy).2, h0, hy0, add_zero, Precision.roundTo_zero]
      · refine Or.inr (hyge.trans ?_)
        rw [(add_number hlow hhigh hs hy).2]
        exact Precision.le_roundTo (val_nonneg y) (le_add_of_nonneg_left (val_nonneg s))
          hy.number.representable
    · exact Or.inr (hge.trans (le_add hlow hhigh hs hy))

/-! ## an average -/

theorem toFloat32_bounds (n : UInt32) :
    (1 - unit32) * n.toNat ≤ val n.toFloat32 ∧ val n.toFloat32 ≤ (1 + unit32) * n.toNat := by
  have h0 : (0 : ℚ) ≤ n.toNat := Nat.cast_nonneg _
  rw [(number_toFloat32 n).2]
  refine Precision.roundTo_bounds h0 (Or.inr ⟨n.toNat <<< 149, ?_⟩)
  have hmultiple := value_shiftLeft n.toNat 0 (-149) (by omega)
  rw [zpow_zero, mul_one] at hmultiple
  exact hmultiple.symm

/-- a sum that is 0 or not too small, by a count that is not 0 -/
theorem div_toFloat32 {s : Float32} {n : UInt32} (hs : Capped 100 s)
    (hsmall : val s = 0 ∨ (2 : ℚ) ^ (-80 : ℤ) ≤ val s) (hn : n ≠ 0) :
    Number (s / n.toFloat32) ∧
    (1 - unit32) / (1 + unit32) * (val s / n.toNat) ≤ val (s / n.toFloat32) ∧
    val (s / n.toFloat32) ≤ (1 + unit32) / (1 - unit32) * (val s / n.toNat) := by
  obtain ⟨hu0, hu1⟩ := unit32_bounds
  obtain ⟨hlow, hhigh⟩ := toFloat32_bounds n
  have hnpos : (1 : ℚ) ≤ n.toNat := by
    have h : n.toNat ≠ 0 := fun h => hn (UInt32.toNat_inj.mp h)
    exact_mod_cast Nat.one_le_iff_ne_zero.mpr h
  have hnlt : (n.toNat : ℚ) ≤ 2 ^ (32 : ℤ) := by
    have h : (n.toNat : ℚ) ≤ ((2 ^ 32 : ℕ) : ℚ) := Nat.cast_le.mpr n.toNat_lt.le
    refine h.trans_eq ?_
    norm_num
  have hd0 : (0 : ℚ) < (1 - unit32) * n.toNat := mul_pos (by linarith) (by linarith)
  have hd : 0 < val n.toFloat32 := hd0.trans_le hlow
  have hd1 : (1 : ℚ) / 2 ≤ val n.toFloat32 := by nlinarith
  have hd2 : val n.toFloat32 ≤ 2 ^ (33 : ℤ) := by
    calc val n.toFloat32 ≤ (1 + unit32) * n.toNat := hhigh
      _ ≤ 2 * 2 ^ (32 : ℤ) := mul_le_mul (by linarith) hnlt (by linarith) two_pos.le
      _ = 2 ^ (33 : ℤ) := by norm_num
  have hs0 := val_nonneg s
  have hq0 : 0 ≤ val s / val n.toFloat32 := div_nonneg hs0 hd.le
  have hqhigh : val s / val n.toFloat32 ≤ 2 ^ (127 : ℤ) := by
    rw [div_le_iff₀ hd]
    calc val s ≤ 2 ^ (100 : ℤ) := hs.le
      _ ≤ 2 ^ (127 : ℤ) * (1 / 2) := by norm_num
      _ ≤ 2 ^ (127 : ℤ) * val n.toFloat32 :=
          mul_le_mul_of_nonneg_left hd1 (Precision.two_zpow_pos _).le
  -- the quotient keeps all its digits
  have hqlow : val s = 0 ∨ (2 : ℚ) ^ (-126 : ℤ) ≤ val s / val n.toFloat32 := by
    refine hsmall.imp_right fun h => ?_
    rw [le_div_iff₀ hd]
    calc (2 : ℚ) ^ (-126 : ℤ) * val n.toFloat32 ≤ 2 ^ (-126 : ℤ) * 2 ^ (33 : ℤ) :=
          mul_le_mul_of_nonneg_left hd2 (Precision.two_zpow_pos _).le
      _ = 2 ^ (-93 : ℤ) := by rw [← Precision.two_zpow_add]; rfl
      _ ≤ 2 ^ (-80 : ℤ) := Precision.two_zpow_le (by omega)
      _ ≤ val s := h
  have hgraded : (precision .binary32).Graded (val s / val n.toFloat32) := by
    rcases hqlow with h | h
    · exact Or.inr ⟨0, by rw [h, zero_div, Nat.cast_zero, zero_mul]⟩
    · exact Or.inl h
  obtain ⟨hnumber, hval⟩ := hs.number.div (number_toFloat32 n).1 hd.ne'
    (hqlow.imp_right fun h => (Precision.two_zpow_le (by omega)).trans h) hqhigh
  obtain ⟨hlower, hupper⟩ := Precision.roundTo_bounds hq0 hgraded
  rw [unit32_eq] at hlower hupper
  refine ⟨hnumber, ?_, ?_⟩
  · rw [hval]
    refine le_trans ?_ hlower
    rw [div_mul_div_comm, mul_div_assoc]
    refine mul_le_mul_of_nonneg_left ?_ (by linarith)
    exact div_le_div_of_nonneg_left hs0 hd hhigh
  · rw [hval]
    refine hupper.trans ?_
    rw [div_mul_div_comm, mul_div_assoc]
    refine mul_le_mul_of_nonneg_left ?_ (by linarith)
    exact div_le_div_of_nonneg_left hs0 hd0 hlow

/-! ## errors that add up -/

/-- `y` is `x` up to the errors of `a` roundings and of `b` divisors -/
structure Within (a b : ℕ) (x y : ℚ) : Prop where
  lower : (1 - unit32) ^ a / (1 + unit32) ^ b * x ≤ y
  upper : y ≤ (1 + unit32) ^ a / (1 - unit32) ^ b * x

namespace Within

variable {a b a' b' : ℕ} {x y z : ℚ}

theorem factor_pos (a b : ℕ) : 0 < (1 - unit32) ^ a / (1 + unit32) ^ b ∧
    0 < (1 + unit32) ^ a / (1 - unit32) ^ b := by
  obtain ⟨hu0, hu1⟩ := unit32_bounds
  have hlow : 0 < 1 - unit32 := by linarith
  have hhigh : 0 < 1 + unit32 := by linarith
  exact ⟨by positivity, by positivity⟩

theorem trans (h : Within a b x y) (h' : Within a' b' y z) : Within (a + a') (b + b') x z := by
  obtain ⟨hlow, hhigh⟩ := factor_pos a' b'
  constructor
  · calc (1 - unit32) ^ (a + a') / (1 + unit32) ^ (b + b') * x
        = (1 - unit32) ^ a' / (1 + unit32) ^ b' * ((1 - unit32) ^ a / (1 + unit32) ^ b * x) := by
          rw [pow_add, pow_add, mul_div_mul_comm]
          ring
      _ ≤ (1 - unit32) ^ a' / (1 + unit32) ^ b' * y := mul_le_mul_of_nonneg_left h.lower hlow.le
      _ ≤ z := h'.lower
  · calc z ≤ (1 + unit32) ^ a' / (1 - unit32) ^ b' * y := h'.upper
      _ ≤ (1 + unit32) ^ a' / (1 - unit32) ^ b' * ((1 + unit32) ^ a / (1 - unit32) ^ b * x) :=
          mul_le_mul_of_nonneg_left h.upper hhigh.le
      _ = (1 + unit32) ^ (a + a') / (1 - unit32) ^ (b + b') * x := by
          rw [pow_add, pow_add, mul_div_mul_comm]
          ring

theorem mono (h : Within a 0 x y) (hx : 0 ≤ x) (ha : a ≤ a') : Within a' 0 x y := by
  obtain ⟨hu0, hu1⟩ := unit32_bounds
  obtain ⟨hlower, hupper⟩ := h
  rw [pow_zero, div_one] at hlower hupper
  constructor
  · rw [pow_zero, div_one]
    refine (mul_le_mul_of_nonneg_right ?_ hx).trans hlower
    exact pow_le_pow_of_le_one (by linarith) (by linarith) ha
  · rw [pow_zero, div_one]
    refine hupper.trans (mul_le_mul_of_nonneg_right ?_ hx)
    exact pow_le_pow_right₀ (by linarith) ha

theorem zero (a b : ℕ) : Within a b 0 0 :=
  ⟨(mul_zero _).le, (mul_zero _).ge⟩

theorem add {x' y' : ℚ} (h : Within a b x y) (h' : Within a b x' y') :
    Within a b (x + x') (y + y') :=
  ⟨(mul_add _ _ _).le.trans (add_le_add h.lower h'.lower),
    (add_le_add h.upper h'.upper).trans (mul_add _ _ _).ge⟩

theorem div (h : Within a b x y) {d : ℚ} (hd : 0 ≤ d) : Within a b (x / d) (y / d) := by
  constructor
  · rw [← mul_div_assoc]
    exact div_le_div_of_nonneg_right h.lower hd
  · rw [← mul_div_assoc]
    exact div_le_div_of_nonneg_right h.upper hd

theorem list_sum {ι : Type} {f g : ι → ℚ} (l : List ι) (h : ∀ i ∈ l, Within a b (f i) (g i)) :
    Within a b (l.map f).sum (l.map g).sum := by
  induction l with
  | nil => exact zero a b
  | cons i l ih =>
    rw [List.map_cons, List.map_cons, List.sum_cons, List.sum_cons]
    exact (h i List.mem_cons_self).add (ih fun j hj => h j (List.mem_cons_of_mem _ hj))

theorem pow_mul_pow_le_one (k : ℕ) : (1 - unit32) ^ k * (1 + unit32) ^ k ≤ 1 := by
  obtain ⟨hu0, hu1⟩ := unit32_bounds
  rw [← mul_pow]
  refine pow_le_one₀ (mul_nonneg (by linarith) (by linarith)) ?_
  linarith [mul_pos hu0 hu0, show (1 - unit32) * (1 + unit32) = 1 - unit32 * unit32 by ring]

theorem one_sub_le_pow_mul_pow (a b : ℕ) :
    1 - ((a + b : ℕ) : ℚ) * unit32 ≤ (1 - unit32) ^ a * (1 - unit32) ^ b := by
  have hbernoulli := one_add_mul_le_pow
    (show (-2 : ℚ) ≤ -unit32 by linarith [unit32_bounds.2]) (a + b)
  rw [← sub_eq_add_neg, pow_add] at hbernoulli
  linarith

/-- while they are few the errors are a fraction of the number, two units each -/
theorem abs_sub_le (h : Within a b x y) (hx : 0 ≤ x) (hfew : ((a + b : ℕ) : ℚ) * unit32 ≤ 1 / 2) :
    |y - x| ≤ 2 * (((a + b : ℕ) : ℚ) * unit32) * x := by
  obtain ⟨hu0, hu1⟩ := unit32_bounds
  have hlow : 0 < 1 - unit32 := by linarith
  have hhigh : 0 < 1 + unit32 := by linarith
  have ht0 : 0 ≤ ((a + b : ℕ) : ℚ) * unit32 := mul_nonneg (Nat.cast_nonneg _) hu0.le
  have hpow := one_sub_le_pow_mul_pow a b
  generalize ((a + b : ℕ) : ℚ) * unit32 = t at *
  have hfactors : 1 - t ≤ (1 - unit32) ^ a / (1 + unit32) ^ b ∧
      (1 + unit32) ^ a / (1 - unit32) ^ b ≤ 1 + 2 * t := by
    constructor
    · rw [le_div_iff₀ (pow_pos hhigh b)]
      calc (1 - t) * (1 + unit32) ^ b
          ≤ (1 - unit32) ^ a * (1 - unit32) ^ b * (1 + unit32) ^ b :=
            mul_le_mul_of_nonneg_right hpow (pow_pos hhigh b).le
        _ = (1 - unit32) ^ a * ((1 - unit32) ^ b * (1 + unit32) ^ b) := mul_assoc _ _ _
        _ ≤ (1 - unit32) ^ a * 1 :=
            mul_le_mul_of_nonneg_left (pow_mul_pow_le_one b) (pow_pos hlow a).le
        _ = (1 - unit32) ^ a := mul_one _
    · rw [div_le_iff₀ (pow_pos hlow b)]
      refine le_of_mul_le_mul_left ?_ (pow_pos hlow a)
      calc (1 - unit32) ^ a * (1 + unit32) ^ a ≤ 1 := pow_mul_pow_le_one a
        _ ≤ (1 + 2 * t) * (1 - t) := by
            linarith [mul_nonneg ht0 (show 0 ≤ 1 - 2 * t by linarith),
              show (1 + 2 * t) * (1 - t) = 1 + t * (1 - 2 * t) by ring]
        _ ≤ (1 + 2 * t) * ((1 - unit32) ^ a * (1 - unit32) ^ b) :=
            mul_le_mul_of_nonneg_left hpow (by linarith)
        _ = (1 - unit32) ^ a * ((1 + 2 * t) * (1 - unit32) ^ b) := mul_left_comm _ _ _
  have hlower := (mul_le_mul_of_nonneg_right hfactors.1 hx).trans h.lower
  have hupper := h.upper.trans (mul_le_mul_of_nonneg_right hfactors.2 hx)
  have htx := mul_nonneg ht0 hx
  rw [abs_le]
  constructor <;> linarith

end Within

theorem foldl_within {c : ℤ} (hlow : -126 ≤ c) (hhigh : c ≤ 125) (ys : List Float32)
    (hys : ∀ y ∈ ys, Small c y) :
    Capped c (ys.foldl (fun s y => s + y) 0) ∧
    Within ys.length 0 (ys.map val).sum (val (ys.foldl (fun s y => s + y) 0)) := by
  have h0 : Capped c 0 := ⟨number_zero.1, number_zero.2.trans_le (Precision.two_zpow_pos c).le⟩
  obtain ⟨hcap, -, hlower, hupper⟩ := foldl_capped hlow hhigh ys hys 0 h0
  rw [number_zero.2, zero_add] at hlower hupper
  refine ⟨hcap, ?_, ?_⟩
  · rw [pow_zero, div_one]
    exact hlower
  · rw [pow_zero, div_one]
    exact hupper

theorem div_within {s : Float32} {n : UInt32} (hs : Capped 100 s)
    (hsmall : val s = 0 ∨ (2 : ℚ) ^ (-80 : ℤ) ≤ val s) (hn : n ≠ 0) :
    Number (s / n.toFloat32) ∧ Within 1 1 (val s / n.toNat) (val (s / n.toFloat32)) := by
  obtain ⟨hnumber, hlower, hupper⟩ := div_toFloat32 hs hsmall hn
  refine ⟨hnumber, ?_, ?_⟩
  · rw [pow_one, pow_one]
    exact hlower
  · rw [pow_one, pow_one]
    exact hupper

theorem Capped.mono {c d : ℤ} {s : Float32} (hs : Capped c s) (h : c ≤ d) : Capped d s :=
  ⟨hs.number, hs.le.trans (Precision.two_zpow_le h)⟩

end Floats
