import Mathlib.Algebra.BigOperators.Group.Finset.Basic
import Mathlib.Algebra.BigOperators.Group.Finset.Piecewise
import Mathlib.Algebra.Order.BigOperators.Group.Finset
import Mathlib.Algebra.BigOperators.Fin

/-!
# Places: things that are always in exactly one of finitely many places

The places are a finite family of lists `L i`; a thing that occurs once in all of them together
is at exactly one position of exactly one of them (`existsUnique_place`).  `sum_update` is the
bookkeeping: when one member of a family changes, so does the sum, by what that member held.
-/

namespace Places

variable {ι A M : Type} [Fintype ι] [DecidableEq ι]

/-- one member of a family changes: the sum of `g` over it changes by that member -/
theorem sum_update [AddCommMonoid M] (g : A → M) (L : ι → A) (i : ι) (x : A) :
    (∑ j, g (Function.update L i x j)) + g (L i) = (∑ j, g (L j)) + g x := by
  have hrest : ∑ j ∈ Finset.univ.erase i, g (Function.update L i x j)
      = ∑ j ∈ Finset.univ.erase i, g (L j) := by
    apply Finset.sum_congr rfl
    intro j hj
    rw [Function.update_of_ne (Finset.ne_of_mem_erase hj)]
  have hnew := Finset.sum_erase_add Finset.univ (fun j => g (Function.update L i x j))
    (Finset.mem_univ i)
  have hold := Finset.sum_erase_add Finset.univ (fun j => g (L j)) (Finset.mem_univ i)
  rw [hrest, Function.update_self] at hnew
  rw [← hnew, ← hold]
  exact add_right_comm _ _ _

theorem sum_update_same [AddCommMonoid M] (g : A → M) (L : ι → A) (i : ι) (x : A)
    (h : g x = g (L i)) : ∑ j, g (Function.update L i x j) = ∑ j, g (L j) := by
  apply Finset.sum_congr rfl
  intro j _
  by_cases hj : j = i
  · rw [hj, Function.update_self, h]
  · rw [Function.update_of_ne hj]

theorem sum_update_add [AddCancelCommMonoid M] (g : A → M) (L : ι → A) (i : ι) (x : A) (d : M)
    (h : g x = g (L i) + d) : ∑ j, g (Function.update L i x j) = (∑ j, g (L j)) + d := by
  have hsum := sum_update g L i x
  rw [h, ← add_assoc, add_right_comm] at hsum
  exact add_right_cancel hsum

section
variable {α : Type} [DecidableEq α]

theorem existsUnique_position (a : α) (l : List α) (h : l.count a = 1) :
    ∃! k : Nat, l[k]? = some a := by
  induction l with
  | nil => simp at h
  | cons x l ih =>
    by_cases hx : x = a
    · rw [hx, List.count_cons_self] at h
      have hnot : a ∉ l := List.count_eq_zero.mp (by omega)
      refine ⟨0, by simp [hx], ?_⟩
      intro k hk
      cases k with
      | zero => rfl
      | succ k => exact absurd (List.mem_of_getElem? (by simpa using hk)) hnot
    · rw [List.count_cons_of_ne hx] at h
      obtain ⟨k, hk, huniq⟩ := ih h
      refine ⟨k + 1, by simpa using hk, ?_⟩
      intro k' hk'
      cases k' with
      | zero => exact absurd (by simpa using hk') hx
      | succ k' => rw [huniq k' (by simpa using hk')]

omit [DecidableEq ι] in
/-- what occurs once in all places together is at one position of one place -/
theorem existsUnique_place (L : ι → List α) (a : α) (h : ∑ i, (L i).count a = 1) :
    ∃! p : ι × Nat, (L p.1)[p.2]? = some a := by
  classical
  obtain ⟨i, _, hi⟩ : ∃ i ∈ Finset.univ, (L i).count a ≠ 0 := by
    apply Finset.exists_ne_zero_of_sum_ne_zero
    omega
  have hsplit := Finset.sum_erase_add Finset.univ (fun j => (L j).count a) (Finset.mem_univ i)
  have hone : (L i).count a = 1 := by omega
  have hrest : ∑ j ∈ Finset.univ.erase i, (L j).count a = 0 := by omega
  have hother : ∀ j, j ≠ i → a ∉ L j := by
    intro j hj
    apply List.count_eq_zero.mp
    exact Finset.sum_eq_zero_iff.mp hrest j (Finset.mem_erase.mpr ⟨hj, Finset.mem_univ j⟩)
  obtain ⟨k, hk, huniq⟩ := existsUnique_position a (L i) hone
  refine ⟨(i, k), hk, ?_⟩
  rintro ⟨j, k'⟩ hk'
  by_cases hj : j = i
  · rw [hj] at hk' ⊢
    rw [huniq k' hk']
  · exact absurd (List.mem_of_getElem? hk') (hother j hj)

end

end Places
