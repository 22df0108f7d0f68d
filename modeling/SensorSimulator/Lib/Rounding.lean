import Mathlib.Data.Int.Log
import Mathlib.Algebra.Order.Floor.Semiring
import Mathlib.Tactic.Linarith
import Mathlib.Tactic.Ring
import Mathlib.Tactic.Positivity
import Mathlib.Tactic.NormNum

/-!
# Rounding to nearest, ties to even

* `nearest x`          the natural number nearest to `x ≥ 0`, the even one of two;
* `Precision`          a number of binary digits and a smallest exponent;
* `Precision.roundTo`  the number of that precision nearest to `x ≥ 0`, as `nearest` of a multiple;
* `roundTo_mono`, `roundTo_of_representable`   it is monotone and keeps what has the precision;
* `roundTo_error`      its relative error is at most `2 ^ -digits`;
* `roundTo_add_le`     a small summand does not take a sum past a power of two.
-/

set_option linter.unusedSectionVars false

namespace Rounding

variable {K : Type*} [Field K] [LinearOrder K] [IsStrictOrderedRing K] [FloorSemiring K]

/-! ## to a natural number -/

def nearest (x : K) : ℕ :=
  if x - ⌊x⌋₊ < 1 / 2 then ⌊x⌋₊
  else if x - ⌊x⌋₊ = 1 / 2 then ⌊x⌋₊ + ⌊x⌋₊ % 2
  else ⌊x⌋₊ + 1

theorem floor_le_nearest (x : K) : ⌊x⌋₊ ≤ nearest x := by
  unfold nearest
  split_ifs <;> omega

theorem nearest_le_floor_add_one (x : K) : nearest x ≤ ⌊x⌋₊ + 1 := by
  unfold nearest
  split_ifs <;> omega

@[simp] theorem nearest_natCast (n : ℕ) : nearest (n : K) = n := by
  have hhalf : (0 : K) < 1 / 2 := by positivity
  unfold nearest
  rw [Nat.floor_natCast, sub_self, if_pos hhalf]

@[simp] theorem nearest_zero : nearest (0 : K) = 0 := by
  have h := nearest_natCast (K := K) 0
  rwa [Nat.cast_zero] at h

theorem nearest_mono {x y : K} (h : x ≤ y) : nearest x ≤ nearest y := by
  rcases Nat.lt_or_ge ⌊x⌋₊ ⌊y⌋₊ with hlt | hge
  · calc nearest x ≤ ⌊x⌋₊ + 1 := nearest_le_floor_add_one x
      _ ≤ ⌊y⌋₊ := hlt
      _ ≤ nearest y := floor_le_nearest y
  · -- the same integer part: only the fractions are compared
    have he : ⌊x⌋₊ = ⌊y⌋₊ := le_antisymm (Nat.floor_mono h) hge
    unfold nearest
    rw [he]
    split_ifs with h1 h2 h3 h4 h5 h6
    all_goals first | omega | exfalso
    · linarith
    · linarith
    · exact h4 (by linarith)

theorem nearest_le {x : K} {n : ℕ} (h : x ≤ n) : nearest x ≤ n :=
  (nearest_mono h).trans_eq (nearest_natCast n)

theorem le_nearest {x : K} {n : ℕ} (h : (n : K) ≤ x) : n ≤ nearest x :=
  (nearest_natCast (K := K) n).symm.trans_le (nearest_mono h)

theorem abs_nearest_sub_le {x : K} (hx : 0 ≤ x) : |(nearest x : K) - x| ≤ 1 / 2 := by
  have hlow := Nat.floor_le hx
  have hhigh := Nat.lt_floor_add_one x
  rw [abs_le]
  unfold nearest
  split_ifs with h1 h2
  · constructor <;> linarith
  · rcases Nat.mod_two_eq_zero_or_one ⌊x⌋₊ with h | h
    all_goals
      rw [h]
      push_cast
      constructor <;> linarith
  · have h3 : 1 / 2 < x - ⌊x⌋₊ := lt_of_le_of_ne (not_lt.mp h1) (Ne.symm h2)
    push_cast
    constructor <;> linarith

/-! ## to a number of digits -/

/-- numbers of at most `digits` binary digits, whose last digit stands for `2 ^ minExponent` at
least -/
structure Precision where
  digits : ℕ
  minExponent : ℤ
  digits_pos : 0 < digits

namespace Precision

variable (F : Precision)

/-- the exponent of the last digit of what `x` is rounded to -/
def exponent (x : K) : ℤ := max (Int.log 2 x + 1 - F.digits) F.minExponent

def roundTo (x : K) : K := nearest (x / 2 ^ F.exponent x) * 2 ^ F.exponent x

def Representable (x : K) : Prop :=
  ∃ (m : ℕ) (e : ℤ), m < 2 ^ F.digits ∧ F.minExponent ≤ e ∧ x = m * 2 ^ e

/-- the half of the place behind the last digit of a number that starts with 1 -/
def unit : K := 2 ^ (-(F.digits : ℤ))

theorem two_zpow_pos (e : ℤ) : (0 : K) < 2 ^ e := zpow_pos two_pos e

theorem unit_pos : (0 : K) < F.unit := two_zpow_pos _

theorem two_zpow_add (a b : ℤ) : (2 : K) ^ (a + b) = 2 ^ a * 2 ^ b := zpow_add₀ two_ne_zero a b

theorem two_zpow_le {a b : ℤ} (h : a ≤ b) : (2 : K) ^ a ≤ 2 ^ b :=
  zpow_le_zpow_right₀ one_le_two h

theorem log_le (x : K) : Int.log 2 x + 1 ≤ F.exponent x + F.digits := by
  unfold exponent
  omega

theorem minExponent_le (x : K) : F.minExponent ≤ F.exponent x := le_max_right _ _

variable {F}

theorem exponent_mono {x y : K} (hx : 0 < x) (h : x ≤ y) : F.exponent x ≤ F.exponent y := by
  have hlog := Int.log_mono_right (b := 2) hx h
  unfold exponent
  omega

theorem scaled_lt (x : K) : x / 2 ^ F.exponent x < ((2 ^ F.digits : ℕ) : K) := by
  rw [div_lt_iff₀ (two_zpow_pos _)]
  push_cast
  rw [← zpow_natCast, ← two_zpow_add]
  calc x < 2 ^ (Int.log 2 x + 1) := by
        have h := Int.lt_zpow_succ_log_self (b := 2) (by omega) x
        exact_mod_cast h
    _ ≤ 2 ^ (((F.digits : ℕ) : ℤ) + F.exponent x) := two_zpow_le (by
        have := F.log_le x
        omega)

theorem le_scaled {x : K} (hx : 0 < x) (h : F.minExponent < F.exponent x) :
    ((2 ^ (F.digits - 1) : ℕ) : K) ≤ x / 2 ^ F.exponent x := by
  have hd := F.digits_pos
  have he : F.exponent x = Int.log 2 x + 1 - F.digits := by
    unfold exponent at h ⊢
    omega
  rw [le_div_iff₀ (two_zpow_pos _)]
  push_cast
  rw [← zpow_natCast, ← two_zpow_add]
  calc (2 : K) ^ (((F.digits - 1 : ℕ) : ℤ) + F.exponent x) = 2 ^ Int.log 2 x := by
        congr 1
        omega
    _ ≤ x := by
        have h := Int.zpow_log_le_self (b := 2) (by omega) hx
        exact_mod_cast h

theorem roundTo_nonneg (x : K) : 0 ≤ F.roundTo x :=
  mul_nonneg (Nat.cast_nonneg _) (two_zpow_pos _).le

@[simp] theorem roundTo_zero : F.roundTo (0 : K) = 0 := by
  unfold roundTo
  rw [zero_div, nearest_zero, Nat.cast_zero, zero_mul]

theorem roundTo_mono {x y : K} (hx : 0 ≤ x) (h : x ≤ y) : F.roundTo x ≤ F.roundTo y := by
  rcases hx.eq_or_lt with rfl | hx
  · rw [roundTo_zero]
    exact roundTo_nonneg y
  have hy : 0 < y := hx.trans_le h
  rcases (exponent_mono (F := F) hx h).eq_or_lt with he | hlt
  · unfold roundTo
    rw [he]
    have hscaled : x / 2 ^ F.exponent y ≤ y / 2 ^ F.exponent y :=
      div_le_div_of_nonneg_right h (two_zpow_pos _).le
    exact mul_le_mul_of_nonneg_right (Nat.cast_le.mpr (nearest_mono hscaled)) (two_zpow_pos _).le
  · -- a power of two lies between them
    have hd := F.digits_pos
    have hlow : 2 ^ (F.digits - 1) ≤ nearest (y / 2 ^ F.exponent y) :=
      le_nearest (le_scaled hy ((F.minExponent_le x).trans_lt hlt))
    have hhigh : nearest (x / 2 ^ F.exponent x) ≤ 2 ^ F.digits := nearest_le (scaled_lt x).le
    calc F.roundTo x ≤ ((2 ^ F.digits : ℕ) : K) * 2 ^ F.exponent x :=
          mul_le_mul_of_nonneg_right (Nat.cast_le.mpr hhigh) (two_zpow_pos _).le
      _ = 2 ^ ((F.digits : ℤ) + F.exponent x) := by
          push_cast
          rw [two_zpow_add, zpow_natCast]
      _ ≤ 2 ^ (((F.digits - 1 : ℕ) : ℤ) + F.exponent y) := two_zpow_le (by omega)
      _ = ((2 ^ (F.digits - 1) : ℕ) : K) * 2 ^ F.exponent y := by
          push_cast
          rw [two_zpow_add, zpow_natCast]
      _ ≤ F.roundTo y :=
          mul_le_mul_of_nonneg_right (Nat.cast_le.mpr hlow) (two_zpow_pos _).le

/-! ## what has the precision -/

/-- a multiple of its own last place is rounded to itself -/
theorem roundTo_of_multiple {x : K} {n : ℕ} (h : x = n * 2 ^ F.exponent x) : F.roundTo x = x := by
  have hscaled : x / 2 ^ F.exponent x = n := by
    rw [div_eq_iff (two_zpow_pos _).ne']
    exact h
  unfold roundTo
  rw [hscaled, nearest_natCast]
  exact h.symm

theorem exponent_le_of_representable {m : ℕ} {e : ℤ} (hm : m < 2 ^ F.digits)
    (he : F.minExponent ≤ e) (hpos : 0 < m) : F.exponent ((m : K) * 2 ^ e) ≤ e := by
  have hx : (0 : K) < m * 2 ^ e := mul_pos (Nat.cast_pos.mpr hpos) (two_zpow_pos e)
  have hlog : Int.log 2 ((m : K) * 2 ^ e) < F.digits + e := by
    rw [← Int.lt_zpow_iff_log_lt (by omega) hx]
    push_cast
    rw [two_zpow_add, zpow_natCast]
    refine mul_lt_mul_of_pos_right ?_ (two_zpow_pos e)
    exact_mod_cast hm
  unfold exponent
  omega

theorem roundTo_of_representable {x : K} (h : F.Representable x) : F.roundTo x = x := by
  obtain ⟨m, e, hm, he, rfl⟩ := h
  rcases Nat.eq_zero_or_pos m with rfl | hpos
  · rw [Nat.cast_zero, zero_mul, roundTo_zero]
  · have hle := exponent_le_of_representable (K := K) hm he hpos
    obtain ⟨k, hk⟩ := Int.le.dest hle
    refine roundTo_of_multiple (n := m * 2 ^ k) ?_
    push_cast
    rw [mul_assoc, ← zpow_natCast (2 : K) k, ← two_zpow_add, add_comm (k : ℤ), hk]

theorem representable_two_zpow {e : ℤ} (h : F.minExponent ≤ e) : F.Representable ((2 : K) ^ e) := by
  refine ⟨1, e, ?_, h, by rw [Nat.cast_one, one_mul]⟩
  exact Nat.one_lt_two_pow F.digits_pos.ne'

theorem roundTo_le {x y : K} (hx : 0 ≤ x) (h : x ≤ y) (hy : F.Representable y) :
    F.roundTo x ≤ y := (roundTo_mono hx h).trans_eq (roundTo_of_representable hy)

theorem le_roundTo {x y : K} (hx : 0 ≤ x) (h : x ≤ y) (hx' : F.Representable x) :
    x ≤ F.roundTo y := (roundTo_of_representable hx').symm.trans_le (roundTo_mono hx h)

/-! ## the error -/

theorem abs_roundTo_sub_le {x : K} (hx : 0 ≤ x) :
    |F.roundTo x - x| ≤ 1 / 2 * 2 ^ F.exponent x := by
  have hpos := two_zpow_pos (K := K) (F.exponent x)
  have hscaled : x = x / 2 ^ F.exponent x * 2 ^ F.exponent x := (div_mul_cancel₀ x hpos.ne').symm
  have hhalf := abs_nearest_sub_le (div_nonneg hx hpos.le)
  calc |F.roundTo x - x|
      = |(nearest (x / 2 ^ F.exponent x) - x / 2 ^ F.exponent x) * 2 ^ F.exponent x| := by
        unfold roundTo
        rw [sub_mul, ← hscaled]
    _ = |(nearest (x / 2 ^ F.exponent x) : K) - x / 2 ^ F.exponent x| * 2 ^ F.exponent x := by
        rw [abs_mul, abs_of_pos hpos]
    _ ≤ 1 / 2 * 2 ^ F.exponent x := mul_le_mul_of_nonneg_right hhalf hpos.le

/-- `x` has all digits, or is a multiple of the smallest place: no digit is lost at the lower end -/
def Graded (F : Precision) (x : K) : Prop :=
  (2 : K) ^ (F.minExponent + F.digits - 1) ≤ x ∨ ∃ m : ℕ, x = m * 2 ^ F.minExponent

theorem Graded.of_ge {x : K} {e : ℤ} (h : (2 : K) ^ e ≤ x)
    (he : F.minExponent + F.digits - 1 ≤ e) : F.Graded x :=
  Or.inl ((two_zpow_le he).trans h)

theorem roundTo_error {x : K} (hx : 0 ≤ x) (h : F.Graded x) :
    |F.roundTo x - x| ≤ F.unit * x := by
  have hd := F.digits_pos
  have hnormal : (2 : K) ^ (F.minExponent + F.digits - 1) ≤ x →
      |F.roundTo x - x| ≤ F.unit * x := by
    intro hge
    have hx : 0 < x := (two_zpow_pos _).trans_le hge
    have hlog : F.minExponent + F.digits - 1 ≤ Int.log 2 x := by
      rw [← Int.zpow_le_iff_le_log (by omega) hx]
      exact_mod_cast hge
    have he : F.exponent x = Int.log 2 x + 1 - F.digits := by
      unfold exponent
      omega
    calc |F.roundTo x - x| ≤ 1 / 2 * 2 ^ F.exponent x := abs_roundTo_sub_le hx.le
      _ = F.unit * 2 ^ Int.log 2 x := by
          unfold unit
          rw [he, ← two_zpow_add, one_div, ← zpow_neg_one, ← two_zpow_add]
          congr 1
          omega
      _ ≤ F.unit * x := by
          have hle := Int.zpow_log_le_self (b := 2) (by omega) hx
          exact mul_le_mul_of_nonneg_left (by exact_mod_cast hle) F.unit_pos.le
  rcases h with hge | ⟨m, rfl⟩
  · exact hnormal hge
  · by_cases hm : m < 2 ^ F.digits
    · rw [roundTo_of_representable ⟨m, F.minExponent, hm, le_refl _, rfl⟩, sub_self, abs_zero]
      exact mul_nonneg F.unit_pos.le hx
    · apply hnormal
      have hle : ((2 ^ F.digits : ℕ) : K) ≤ m := Nat.cast_le.mpr (not_lt.mp hm)
      calc (2 : K) ^ (F.minExponent + F.digits - 1) ≤ 2 ^ ((F.digits : ℤ) + F.minExponent) :=
            two_zpow_le (by omega)
        _ = ((2 ^ F.digits : ℕ) : K) * 2 ^ F.minExponent := by
            push_cast
            rw [two_zpow_add, zpow_natCast]
        _ ≤ m * 2 ^ F.minExponent := mul_le_mul_of_nonneg_right hle (two_zpow_pos _).le

theorem roundTo_bounds {x : K} (hx : 0 ≤ x) (h : F.Graded x) :
    (1 - F.unit) * x ≤ F.roundTo x ∧ F.roundTo x ≤ (1 + F.unit) * x := by
  have herr := abs_le.mp (roundTo_error hx h)
  constructor <;> linarith [herr.1, herr.2]

/-! ## sums that stand still -/

/-- half of a last place or less is lost at a power of two -/
theorem roundTo_absorbs {c : ℤ} {y : K} (hc : F.minExponent + F.digits - 1 ≤ c) (hy : 0 ≤ y)
    (hlt : y < 2 ^ (c - F.digits)) : F.roundTo (2 ^ c + y) = 2 ^ c := by
  have hd := F.digits_pos
  have hpos : (0 : K) < 2 ^ c + y := add_pos_of_pos_of_nonneg (two_zpow_pos c) hy
  have hlog : Int.log 2 (2 ^ c + y) = c := by
    apply le_antisymm
    · rw [← Int.lt_add_one_iff, ← Int.lt_zpow_iff_log_lt (by omega) hpos]
      have hle : (2 : K) ^ (c - F.digits) ≤ 2 ^ c := two_zpow_le (by omega)
      calc 2 ^ c + y < 2 ^ c + 2 ^ c := by linarith
        _ = ((2 : ℕ) : K) ^ (c + 1) := by
            push_cast
            rw [two_zpow_add, zpow_one]
            ring
    · rw [← Int.zpow_le_iff_le_log (by omega) hpos]
      push_cast
      linarith
  have he : F.exponent (2 ^ c + y) = c + 1 - F.digits := by
    unfold exponent
    omega
  obtain ⟨k, hk⟩ : ∃ k, F.digits = k + 1 := ⟨F.digits - 1, by omega⟩
  -- in units of the last place: a natural number, and less than one half
  have hunit : (2 : K) ^ (c - F.digits) / 2 ^ (c + 1 - F.digits) = 1 / 2 := by
    rw [← zpow_sub₀ two_ne_zero, show c - F.digits - (c + 1 - F.digits) = -1 by ring, zpow_neg_one,
      one_div]
  have hwhole : (2 : K) ^ c / 2 ^ (c + 1 - F.digits) = ((2 ^ k : ℕ) : K) := by
    rw [← zpow_sub₀ two_ne_zero, show c - (c + 1 - F.digits) = (k : ℤ) by omega, zpow_natCast]
    push_cast
    rfl
  have hy0 : 0 ≤ y / 2 ^ (c + 1 - F.digits) := div_nonneg hy (two_zpow_pos _).le
  have hy1 : y / 2 ^ (c + 1 - F.digits) < 1 / 2 := by
    rw [← hunit]
    exact div_lt_div_of_pos_right hlt (two_zpow_pos _)
  have hnearest : nearest (((2 ^ k : ℕ) : K) + y / 2 ^ (c + 1 - F.digits)) = 2 ^ k := by
    have hfloor : ⌊((2 ^ k : ℕ) : K) + y / 2 ^ (c + 1 - F.digits)⌋₊ = 2 ^ k := by
      rw [Nat.floor_eq_iff (add_nonneg (Nat.cast_nonneg _) hy0)]
      constructor <;> linarith
    unfold nearest
    rw [hfloor, if_pos (by linarith)]
  unfold roundTo
  rw [he, add_div, hwhole, hnearest, ← hwhole, div_mul_cancel₀ _ (two_zpow_pos _).ne']

/-- below a power of two there is a gap -/
theorem Representable.le_sub {x : K} {c : ℤ} (h : F.Representable x) (hlt : x < 2 ^ c) :
    x ≤ 2 ^ c - 2 ^ (c - F.digits) := by
  have hd := F.digits_pos
  obtain ⟨m, e, hm, he, rfl⟩ := h
  rcases le_or_gt (c - F.digits) e with hle | hgt
  · obtain ⟨k, rfl⟩ := Int.le.dest hle
    have hsplit : (m : K) * 2 ^ (c - F.digits + k) = ((m * 2 ^ k : ℕ) : K) * 2 ^ (c - F.digits) := by
      push_cast
      rw [two_zpow_add, zpow_natCast]
      ring
    have hone : (2 : K) ^ c = ((2 ^ F.digits : ℕ) : K) * 2 ^ (c - F.digits) := by
      push_cast
      rw [← zpow_natCast, ← two_zpow_add]
      congr 1
      ring
    rw [hsplit, hone] at hlt
    have hlt' : m * 2 ^ k + 1 ≤ 2 ^ F.digits := by
      exact_mod_cast lt_of_mul_lt_mul_right hlt (two_zpow_pos _).le
    have hcast : ((m * 2 ^ k : ℕ) : K) + 1 ≤ ((2 ^ F.digits : ℕ) : K) := by exact_mod_cast hlt'
    rw [hsplit, hone, ← sub_one_mul]
    exact mul_le_mul_of_nonneg_right (by linarith) (two_zpow_pos _).le
  · have hm' : (m : K) ≤ ((2 ^ F.digits : ℕ) : K) := Nat.cast_le.mpr hm.le
    have hhalf : (2 : K) ^ (c - 1) + 2 ^ (c - 1) = 2 ^ c := by
      rw [← two_mul, ← zpow_one_add₀ two_ne_zero]
      congr 1
      ring
    have hgap : (2 : K) ^ (c - F.digits) ≤ 2 ^ (c - 1) := two_zpow_le (by omega)
    calc (m : K) * 2 ^ e ≤ ((2 ^ F.digits : ℕ) : K) * 2 ^ e :=
          mul_le_mul_of_nonneg_right hm' (two_zpow_pos e).le
      _ = 2 ^ ((F.digits : ℤ) + e) := by
          push_cast
          rw [two_zpow_add, zpow_natCast]
      _ ≤ 2 ^ (c - 1) := two_zpow_le (by omega)
      _ ≤ 2 ^ c - 2 ^ (c - F.digits) := by linarith

/-- a power of two is not passed by summands of half its last place or less -/
theorem roundTo_add_le {c : ℤ} {x y : K} (hc : F.minExponent + F.digits - 1 ≤ c) (hx0 : 0 ≤ x)
    (hx : F.Representable x) (hxc : x ≤ 2 ^ c) (hy : 0 ≤ y) (hlt : y < 2 ^ (c - F.digits)) :
    F.roundTo (x + y) ≤ 2 ^ c := by
  rcases hxc.eq_or_lt with rfl | hxlt
  · exact (roundTo_absorbs hc hy hlt).le
  · have hgap := hx.le_sub hxlt
    have hd := F.digits_pos
    exact roundTo_le (add_nonneg hx0 hy) (by linarith) (representable_two_zpow (by omega))

end Precision

end Rounding
