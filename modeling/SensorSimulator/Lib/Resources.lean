import Mathlib.Order.BooleanAlgebra.Set
import Mathlib.Tactic.Common

/-!
# Resources: what a run acquires and releases

A run is the list of its events: a resource is acquired, or its release is attempted.

* `of r tr`            what happens to `r`, in order;
* `Holds held tr`      behind `tr` the resources in `held` are acquired and nothing else has
                       happened to them; every other one has been left alone, or acquired and then
                       released, once;
* `Frees out tr`       `tr` releases every resource in `out` once, and does nothing else;
* `Touches own tr`     no event of `tr` is about a resource outside `own`;
* `ReleasedOnce tr`    nothing is held any more.

The rules put runs together: `Holds.acquire`, `Holds.append`, `Holds.frees`, `Frees.append`; a run
that ends by freeing what it holds has released everything once (`Holds.exit`).
-/

namespace Resources

variable {ρ : Type}

inductive Event (ρ : Type) where
  | acquire (r : ρ)
  | release (r : ρ)
  deriving DecidableEq

def Event.resource : Event ρ → ρ
  | .acquire r => r
  | .release r => r

variable [DecidableEq ρ]

/-! ## what happens to one resource -/

def of (r : ρ) (tr : List (Event ρ)) : List (Event ρ) :=
  tr.filter fun e => decide (e.resource = r)

@[simp] theorem of_nil (r : ρ) : of r ([] : List (Event ρ)) = [] := rfl

@[simp] theorem of_append (r : ρ) (a b : List (Event ρ)) : of r (a ++ b) = of r a ++ of r b :=
  List.filter_append a b

theorem of_cons (r : ρ) (e : Event ρ) (tr : List (Event ρ)) :
    of r (e :: tr) = (if e.resource = r then [e] else []) ++ of r tr := by
  unfold of
  rw [List.filter_cons]
  by_cases h : e.resource = r
  · rw [if_pos (decide_eq_true h), if_pos h]
    rfl
  · rw [if_neg (by simpa using h), if_neg h]
    rfl

theorem of_single_self (r : ρ) (e : Event ρ) (h : e.resource = r) : of r [e] = [e] := by
  rw [of_cons, if_pos h]
  rfl

theorem of_single_ne (r : ρ) (e : Event ρ) (h : e.resource ≠ r) : of r [e] = [] := by
  rw [of_cons, if_neg h]
  rfl

/-! ## what a run touches -/

def Touches (own : Set ρ) (tr : List (Event ρ)) : Prop := ∀ r, r ∉ own → of r tr = []

namespace Touches

theorem nil (own : Set ρ) : Touches own ([] : List (Event ρ)) := fun _ _ => rfl

theorem mono {own own' : Set ρ} {tr : List (Event ρ)} (h : Touches own tr) (hsub : own ⊆ own') :
    Touches own' tr := fun r hr => h r fun hown => hr (hsub hown)

theorem append {own : Set ρ} {a b : List (Event ρ)} (ha : Touches own a) (hb : Touches own b) :
    Touches own (a ++ b) := by
  intro r hr
  rw [of_append, ha r hr, hb r hr]
  rfl

theorem single {own : Set ρ} {e : Event ρ} (h : e.resource ∈ own) : Touches own [e] := by
  intro r hr
  exact of_single_ne r e fun he => hr (he ▸ h)

theorem union {a b : Set ρ} {tr tr' : List (Event ρ)} (ha : Touches a tr) (hb : Touches b tr') :
    Touches (a ∪ b) (tr ++ tr') :=
  (ha.mono Set.subset_union_left).append (hb.mono Set.subset_union_right)

theorem snoc {own : Set ρ} {tr : List (Event ρ)} (h : Touches own tr) (e : Event ρ) :
    Touches (own ∪ {e.resource}) (tr ++ [e]) := h.union (single rfl)

end Touches

/-! ## what a run frees -/

def Frees (out : Set ρ) (tr : List (Event ρ)) : Prop :=
  (∀ r ∈ out, of r tr = [.release r]) ∧ Touches out tr

namespace Frees

theorem nil : Frees (∅ : Set ρ) ([] : List (Event ρ)) := ⟨fun _ h => h.elim, Touches.nil _⟩

theorem single (r : ρ) : Frees {r} [.release r] := by
  constructor
  · rintro r' rfl
    exact of_single_self _ _ rfl
  · exact Touches.single rfl

theorem append {a b : Set ρ} {tr tr' : List (Event ρ)} (ha : Frees a tr) (hb : Frees b tr')
    (hnot : ∀ r, r ∈ a → r ∉ b) : Frees (a ∪ b) (tr ++ tr') := by
  constructor
  · rintro r (hr | hr)
    · rw [of_append, ha.1 r hr, hb.2 r (hnot r hr)]
      rfl
    · rw [of_append, ha.2 r fun h => hnot r h hr, hb.1 r hr]
      rfl
  · intro r hr
    rw [of_append, ha.2 r fun h => hr (Or.inl h), hb.2 r fun h => hr (Or.inr h)]
    rfl

/-- one more thing is freed -/
theorem snoc {a : Set ρ} {tr : List (Event ρ)} {r : ρ} (ha : Frees a tr) (hr : r ∉ a) :
    Frees (a ∪ {r}) (tr ++ [.release r]) :=
  ha.append (single r) fun _ hr' he => hr (Set.mem_singleton_iff.mp he ▸ hr')

end Frees

/-! ## what a run holds -/

structure Holds (held : Set ρ) (tr : List (Event ρ)) : Prop where
  keeps : ∀ r ∈ held, of r tr = [.acquire r]
  rest : ∀ r, r ∉ held → of r tr = [] ∨ of r tr = [.acquire r, .release r]

/-- everything that was acquired has been released exactly once, and nothing else -/
def ReleasedOnce (tr : List (Event ρ)) : Prop :=
  ∀ r, of r tr = [] ∨ of r tr = [.acquire r, .release r]

/-- what is acquired and not touched again has not been released -/
theorem Touches.not_releasedOnce {own : Set ρ} {tr : List (Event ρ)} {r : ρ} (ht : Touches own tr)
    (hr : r ∉ own) : ¬ ReleasedOnce (.acquire r :: tr) := by
  have hof : of r (.acquire r :: tr) = [.acquire r] := by
    rw [of_cons, ht r hr, List.append_nil]
    exact if_pos rfl
  intro hall
  rcases hall r with h0 | h2
  · exact absurd (hof.symm.trans h0) (List.cons_ne_nil _ _)
  · exact absurd (congrArg List.length (hof.symm.trans h2)) (by simp)

namespace Holds

variable {held : Set ρ} {tr : List (Event ρ)}

theorem nil : Holds (∅ : Set ρ) ([] : List (Event ρ)) := ⟨fun _ h => h.elim, fun _ _ => Or.inl rfl⟩

theorem releasedOnce (h : Holds (∅ : Set ρ) tr) : ReleasedOnce tr := fun r => h.rest r id

theorem of_releasedOnce (h : ReleasedOnce tr) : Holds (∅ : Set ρ) tr :=
  ⟨fun _ hr => hr.elim, fun r _ => h r⟩

theorem append {held' own own' : Set ρ} {tr' : List (Event ρ)} (h : Holds held tr)
    (h' : Holds held' tr') (ht : Touches own tr) (ht' : Touches own' tr')
    (hd : ∀ r, r ∈ own → r ∉ own') : Holds (held ∪ held') (tr ++ tr') := by
  have hnone : ∀ r, of r tr = [] ∨ of r tr' = [] := by
    intro r
    by_cases hr : r ∈ own
    · exact Or.inr (ht' r (hd r hr))
    · exact Or.inl (ht r hr)
  constructor
  · rintro r (hr | hr)
    · have hof := h.keeps r hr
      rw [of_append, hof, (hnone r).resolve_left (by simp [hof])]
      rfl
    · have hof := h'.keeps r hr
      rw [of_append, hof, (hnone r).resolve_right (by simp [hof])]
      rfl
  · intro r hr
    have h1 := h.rest r fun hin => hr (Or.inl hin)
    have h2 := h'.rest r fun hin => hr (Or.inr hin)
    rw [of_append]
    rcases hnone r with h0 | h0
    · rw [h0, List.nil_append]
      exact h2
    · rw [h0, List.append_nil]
      exact h1

theorem skip {own own' : Set ρ} {tr' : List (Event ρ)} (h : Holds held tr)
    (h' : ReleasedOnce tr') (ht : Touches own tr) (ht' : Touches own' tr')
    (hd : ∀ r, r ∈ own → r ∉ own') : Holds held (tr ++ tr') := by
  have hboth := h.append (of_releasedOnce h') ht ht' hd
  rwa [Set.union_empty] at hboth

theorem single (r : ρ) : Holds {r} [.acquire r] := by
  constructor
  · rintro r' rfl
    exact of_single_self _ _ rfl
  · intro r' hr'
    exact Or.inl (of_single_ne _ _ fun he => hr' he.symm)

theorem acquire {own : Set ρ} (h : Holds held tr) (ht : Touches own tr) {r : ρ} (hr : r ∉ own) :
    Holds (held ∪ {r}) (tr ++ [.acquire r]) :=
  h.append (single r) ht (Touches.single (Set.mem_singleton r)) fun _ hr' he => hr (he ▸ hr')

/-- a part of what is held is freed -/
theorem frees {out : Set ρ} {tr' : List (Event ρ)} (h : Holds held tr) (hf : Frees out tr')
    (hsub : out ⊆ held) : Holds (held \ out) (tr ++ tr') := by
  constructor
  · rintro r ⟨hr, hout⟩
    rw [of_append, h.keeps r hr, hf.2 r hout]
    rfl
  · intro r hr
    rw [of_append]
    by_cases hout : r ∈ out
    · rw [h.keeps r (hsub hout), hf.1 r hout]
      exact Or.inr rfl
    · rw [hf.2 r hout, List.append_nil]
      exact h.rest r fun hheld => hr ⟨hheld, hout⟩

/-- the run ends by freeing what it holds -/
theorem exit {tr' : List (Event ρ)} (h : Holds held tr) (hf : Frees held tr') :
    ReleasedOnce (tr ++ tr') := by
  have hempty := h.frees hf (Set.Subset.refl held)
  rw [Set.sdiff_self] at hempty
  exact hempty.releasedOnce

end Holds

end Resources
