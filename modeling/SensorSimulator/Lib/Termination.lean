import SensorSimulator.Lib.Runs

/-!
# Termination: systems that come to an end by themselves

Some actions are moves of the system itself, others are setbacks that it can meet with.

* `exec_count_le_add`       moves that lower a measure, against setbacks that raise it by `k` at most;
* `Terminates`              a system of this kind, which has a move of its own outside the goal;
* `Terminates.bounded`      a run has as many own moves at most as measure and setbacks allow;
* `Terminates.maximal`      one in which no own move is left is at the goal;
* `Terminates.completes`    and every run can go on to one that is.
-/

namespace Runs

variable {σ α : Type}

/-- the moves in `P` lower the measure, those in `F` raise it by `k` at most and the others do not: a
run has as many moves in `P` at most as the measure and its moves in `F` allow -/
theorem exec_count_le_add {step : σ → α → Option σ} {J : σ → Prop} {μ : σ → Nat} {P F : α → Bool}
    {k : Nat} (hJ : ∀ s a s', J s → step s a = some s' → J s')
    (hlt : ∀ s a s', J s → step s a = some s' → P a = true → μ s' < μ s)
    (hadd : ∀ s a s', J s → step s a = some s' → F a = true → μ s' ≤ μ s + k)
    (hle : ∀ s a s', J s → step s a = some s' → P a = false → F a = false → μ s' ≤ μ s)
    {s t : σ} {as : List α} (h : exec step s as = some t) (hs : J s) :
    as.countP P + μ t ≤ μ s + k * as.countP F := by
  induction as generalizing s with
  | nil =>
    cases h
    exact Nat.le_of_eq (Nat.add_comm _ _)
  | cons a as ih =>
    obtain ⟨s', h1, h2⟩ := exec_cons_some.mp h
    have hrest := ih h2 (hJ s a s' hs h1)
    rw [List.countP_cons, List.countP_cons, Nat.mul_add]
    cases hP : P a with
    | true =>
      have := hlt s a s' hs h1 hP
      simp only [if_true]
      omega
    | false =>
      cases hF : F a with
      | true =>
        have := hadd s a s' hs h1 hF
        simp only [if_true, Bool.false_eq_true, if_false]
        omega
      | false =>
        have := hle s a s' hs h1 hP hF
        simp only [Bool.false_eq_true, if_false]
        omega

/-- from the states in `J` the system comes to `goal` by its own moves: at most `μ` of them, and `k`
more for each setback -/
structure Terminates (step : σ → α → Option σ) (J goal : σ → Prop) (μ : σ → Nat)
    (own setback : α → Bool) (k : Nat) : Prop where
  inv : ∀ s a s', J s → step s a = some s' → J s'
  lt : ∀ s a s', J s → step s a = some s' → own a = true → μ s' < μ s
  add : ∀ s a s', J s → step s a = some s' → setback a = true → μ s' ≤ μ s + k
  le : ∀ s a s', J s → step s a = some s' → own a = false → setback a = false → μ s' ≤ μ s
  progress : ∀ s, J s → ¬ goal s → ∃ a s', own a = true ∧ step s a = some s'

namespace Terminates

variable {step : σ → α → Option σ} {J goal : σ → Prop} {μ : σ → Nat} {own setback : α → Bool}
  {k : Nat} (h : Terminates step J goal μ own setback k) {s t : σ} {as : List α}
include h

theorem bounded (hs : J s) (hrun : exec step s as = some t) :
    as.countP own ≤ μ s + k * as.countP setback :=
  Nat.le_of_add_right_le (exec_count_le_add h.inv h.lt h.add h.le hrun hs)

theorem maximal (hs : J s) (hrun : exec step s as = some t)
    (hnone : ∀ a, own a = true → step t a = none) : goal t := by
  by_contra hg
  obtain ⟨a, t', ha, hstep⟩ := h.progress t (exec_invariant h.inv hrun hs) hg
  rw [hnone a ha] at hstep
  cases hstep

/-- by such own moves only as are there whenever they are needed -/
theorem completes_by {g : α → Prop}
    (hgood : ∀ s, J s → ¬ goal s → ∃ a s', (own a = true ∧ g a) ∧ step s a = some s')
    (hs : J s) : ∃ as t, (∀ a ∈ as, own a = true ∧ g a) ∧ exec step s as = some t ∧ J t ∧ goal t :=
  exec_reaches (fun s hJ hg => by
    obtain ⟨a, s', ha, hstep⟩ := hgood s hJ hg
    exact ⟨a, s', ha, hstep, h.inv s a s' hJ hstep, h.lt s a s' hJ hstep ha.1⟩) s hs

theorem completes (hs : J s) :
    ∃ as t, (∀ a ∈ as, own a = true) ∧ exec step s as = some t ∧ J t ∧ goal t := by
  obtain ⟨as, t, hown, hrun, hJ, hg⟩ := h.completes_by (g := fun _ => True)
    (fun s hs hg => by
      obtain ⟨a, s', ha, hstep⟩ := h.progress s hs hg
      exact ⟨a, s', ⟨ha, trivial⟩, hstep⟩) hs
  exact ⟨as, t, fun a ha => (hown a ha).1, hrun, hJ, hg⟩

end Terminates

end Runs
