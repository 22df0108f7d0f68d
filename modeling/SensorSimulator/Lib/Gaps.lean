import Mathlib.Data.List.Basic
import Mathlib.Algebra.BigOperators.Group.List.Basic
import Mathlib.Algebra.GroupWithZero.Nat
import Mathlib.Tactic.Common

/-!
# Gaps: what lies between consecutive marks of a list

* `IsGap mark weight l g`   the list can be cut at a marked element and the next one, with the
                         weight `g` between them;
* `gaps mark weight l`   all of them, in order (`mem_gaps`), by a scan with a register: a mark closes
                         the gap under way (`gapsFrom_mark`), another element adds to it.
-/

namespace Gaps

variable {α : Type} (mark : α → Bool) (weight : α → ℕ)

/-- the gaps closed in a list, with the weight since the last mark in `cur` -/
def gapsFrom : Option ℕ → List α → List ℕ
  | _, [] => []
  | cur, x :: l =>
    if mark x then cur.toList ++ gapsFrom (some 0) l
    else gapsFrom (cur.map (· + weight x)) l

def gaps (l : List α) : List ℕ := gapsFrom mark weight none l

variable {mark weight}

theorem gapsFrom_mark {x : α} (hx : mark x = true) (cur : Option ℕ) (l : List α) :
    gapsFrom mark weight cur (x :: l) = cur.toList ++ gapsFrom mark weight (some 0) l := by
  rw [gapsFrom, if_pos hx]

theorem gapsFrom_cons_quiet {x : α} (hx : mark x = false) (cur : Option ℕ) (l : List α) :
    gapsFrom mark weight cur (x :: l) = gapsFrom mark weight (cur.map (· + weight x)) l := by
  rw [gapsFrom, if_neg (by simp [hx])]

/-- a stretch without a mark and without weight does nothing -/
theorem gapsFrom_quiet {a : List α} (ha : ∀ x ∈ a, mark x = false ∧ weight x = 0) (cur : Option ℕ)
    (l : List α) : gapsFrom mark weight cur (a ++ l) = gapsFrom mark weight cur l := by
  induction a with
  | nil => rfl
  | cons x a ih =>
    obtain ⟨hmark, hweight⟩ := ha x List.mem_cons_self
    have hid : cur.map (· + 0) = cur := by cases cur <;> rfl
    rw [List.cons_append, gapsFrom_cons_quiet hmark, hweight, hid]
    exact ih fun y hy => ha y (List.mem_cons_of_mem x hy)

/-! ## gaps by cutting -/

variable (mark weight)

/-- the gap under way, with the weight `c` so far, is closed in `l` with the weight `g` -/
def Closes (c : ℕ) (l : List α) (g : ℕ) : Prop :=
  ∃ mid y post, l = mid ++ y :: post ∧ (∀ z ∈ mid, mark z = false) ∧ mark y = true ∧
    g = c + (mid.map weight).sum

/-- `l` cut at two consecutive marks, with the weight `g` between them -/
def IsGap (l : List α) (g : ℕ) : Prop :=
  ∃ pre x rest, l = pre ++ x :: rest ∧ mark x = true ∧ Closes mark weight 0 rest g

variable {mark weight}

theorem not_closes_nil (c g : ℕ) : ¬ Closes mark weight c [] g := by
  rintro ⟨mid, y, post, h, -⟩
  cases mid <;> cases h

theorem closes_cons_mark {x : α} (hx : mark x = true) (c : ℕ) (l : List α) (g : ℕ) :
    Closes mark weight c (x :: l) g ↔ g = c := by
  constructor
  · rintro ⟨mid, y, post, h, hquiet, -, hg⟩
    cases mid with
    | nil => exact hg
    | cons z mid =>
      cases h
      rw [hquiet x List.mem_cons_self] at hx
      cases hx
  · rintro rfl
    exact ⟨[], x, l, rfl, fun z hz => absurd hz List.not_mem_nil, hx, rfl⟩

theorem closes_cons_quiet {x : α} (hx : mark x = false) (c : ℕ) (l : List α) (g : ℕ) :
    Closes mark weight c (x :: l) g ↔ Closes mark weight (c + weight x) l g := by
  constructor
  · rintro ⟨mid, y, post, h, hquiet, hy, hg⟩
    cases mid with
    | nil =>
      cases h
      rw [hx] at hy
      cases hy
    | cons z mid =>
      cases h
      refine ⟨mid, y, post, rfl, fun z hz => hquiet z (List.mem_cons_of_mem x hz), hy, ?_⟩
      rw [hg, List.map_cons, List.sum_cons, Nat.add_assoc]
  · rintro ⟨mid, y, post, rfl, hquiet, hy, hg⟩
    refine ⟨x :: mid, y, post, rfl, ?_, hy, ?_⟩
    · intro z hz
      rcases List.mem_cons.mp hz with rfl | hz
      · exact hx
      · exact hquiet z hz
    · rw [hg, List.map_cons, List.sum_cons, Nat.add_assoc]

theorem isGap_cons (x : α) (l : List α) (g : ℕ) : IsGap mark weight (x :: l) g ↔
    (mark x = true ∧ Closes mark weight 0 l g) ∨ IsGap mark weight l g := by
  constructor
  · rintro ⟨pre, y, rest, h, hy, hrest⟩
    cases pre with
    | nil =>
      cases h
      exact Or.inl ⟨hy, hrest⟩
    | cons z pre =>
      cases h
      exact Or.inr ⟨pre, y, rest, rfl, hy, hrest⟩
  · rintro (⟨hx, hl⟩ | ⟨pre, y, rest, rfl, hy, hrest⟩)
    · exact ⟨[], x, l, rfl, hx, hl⟩
    · exact ⟨x :: pre, y, rest, rfl, hy, hrest⟩

theorem mem_gapsFrom (cur : Option ℕ) (l : List α) (g : ℕ) :
    g ∈ gapsFrom mark weight cur l ↔
      (∃ c ∈ cur, Closes mark weight c l g) ∨ IsGap mark weight l g := by
  induction l generalizing cur with
  | nil =>
    refine iff_of_false List.not_mem_nil ?_
    rintro (⟨c, -, hc⟩ | ⟨pre, x, rest, h, -⟩)
    · exact not_closes_nil c g hc
    · cases pre <;> cases h
  | cons x l ih =>
    cases hx : mark x with
    | true =>
      rw [gapsFrom_mark hx, List.mem_append, ih, isGap_cons]
      simp [closes_cons_mark hx, hx, eq_comm]
    | false =>
      rw [gapsFrom_cons_quiet hx, ih, isGap_cons]
      simp [closes_cons_quiet hx, hx]

theorem mem_gaps (l : List α) (g : ℕ) : g ∈ gaps mark weight l ↔ IsGap mark weight l g := by
  unfold gaps
  rw [mem_gapsFrom]
  simp

end Gaps
