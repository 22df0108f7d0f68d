import Mathlib.Data.List.Basic
import Mathlib.Tactic.Common

/-!
# Runs: executions of a system given by a partial step function

A system is `step : σ → α → Option σ`: the action `a` taken in the state `s`, or nothing if it
cannot be taken there.  All nondeterminism is in the choice of the action.

* `exec step s as`       the state after the actions `as`;
* `exec_invariant`, `exec_invariant_with`   what one step keeps, a run keeps;
* `Meets ok`, `exec_invariant_of`           the same for the runs whose steps all meet `ok`;
* `observe`, `observe_invariant`   what an observer notes of a run, and invariants about it;
* `exec_count_le`        a measure that the actions in `p` lower bounds their number in a run;
* `exec_reaches`         a measure that some action can always lower leads to a goal.
-/

namespace Runs

variable {σ α : Type}

/-- the state after a list of actions, if each of them can be taken -/
def exec (step : σ → α → Option σ) : σ → List α → Option σ
  | s, [] => some s
  | s, a :: as => (step s a).bind fun s' => exec step s' as

section
variable {step : σ → α → Option σ}

theorem exec_cons (s : σ) (a : α) (as : List α) :
    exec step s (a :: as) = (step s a).bind fun s' => exec step s' as := rfl

theorem exec_cons_some {s t : σ} {a : α} {as : List α} :
    exec step s (a :: as) = some t ↔ ∃ s', step s a = some s' ∧ exec step s' as = some t := by
  rw [exec_cons, Option.bind_eq_some_iff]

theorem exec_append (s : σ) (as bs : List α) :
    exec step s (as ++ bs) = (exec step s as).bind fun s' => exec step s' bs := by
  induction as generalizing s with
  | nil => rfl
  | cons a as ih =>
    rw [List.cons_append, exec_cons, exec_cons]
    cases step s a with
    | none => rfl
    | some s' => exact ih s'

theorem exec_append_some {s t : σ} {as bs : List α} :
    exec step s (as ++ bs) = some t ↔
      ∃ s', exec step s as = some s' ∧ exec step s' bs = some t := by
  rw [exec_append, Option.bind_eq_some_iff]

theorem exec_single {s t : σ} {a : α} (h : step s a = some t) : exec step s [a] = some t := by
  rw [exec_cons, h]
  rfl

/-! ## invariants -/

theorem exec_invariant {I : σ → Prop}
    (hI : ∀ s a s', I s → step s a = some s' → I s')
    {s t : σ} {as : List α} (h : exec step s as = some t) (hs : I s) : I t := by
  induction as generalizing s with
  | nil => exact Option.some.inj h ▸ hs
  | cons a as ih =>
    obtain ⟨s', h1, h2⟩ := exec_cons_some.mp h
    exact ih h2 (hI s a s' hs h1)

/-- an invariant proved with the help of another one -/
theorem exec_invariant_with {J I : σ → Prop}
    (hJ : ∀ s a s', J s → step s a = some s' → J s')
    (hI : ∀ s a s', J s → I s → step s a = some s' → I s')
    {s t : σ} {as : List α} (h : exec step s as = some t) (hJs : J s) (hs : I s) : I t := by
  have hboth : ∀ s a s', (J s ∧ I s) → step s a = some s' → (J s' ∧ I s') :=
    fun s a s' hs h => ⟨hJ s a s' hs.1 h, hI s a s' hs.1 hs.2 h⟩
  exact (exec_invariant hboth h ⟨hJs, hs⟩).2

/-- every step of the run meets `ok`, in the state in which it is taken -/
def Meets (step : σ → α → Option σ) (ok : σ → α → Prop) : σ → List α → Prop
  | _, [] => True
  | s, a :: as => ok s a ∧ ∀ s', step s a = some s' → Meets step ok s' as

/-- a run can be asked whether it meets a condition -/
instance decidableMeets {ok : σ → α → Prop} [∀ s a, Decidable (ok s a)] :
    ∀ (s : σ) (as : List α), Decidable (Meets step ok s as)
  | _, [] => isTrue trivial
  | s, a :: as =>
    match h : step s a with
    | none => decidable_of_iff (ok s a)
        ⟨fun hok => ⟨hok, fun _ hs' => nomatch h.symm.trans hs'⟩, And.left⟩
    | some s' =>
      have : Decidable (Meets step ok s' as) := decidableMeets s' as
      decidable_of_iff (ok s a ∧ Meets step ok s' as)
        ⟨fun hok => ⟨hok.1, fun _ ht => Option.some.inj (h.symm.trans ht) ▸ hok.2⟩,
          fun hm => ⟨hm.1, hm.2 s' h⟩⟩

theorem meets_of_forall {p : α → Prop} {as : List α} (h : ∀ a ∈ as, p a) (s : σ) :
    Meets step (fun _ a => p a) s as := by
  induction as generalizing s with
  | nil => trivial
  | cons a as ih =>
    exact ⟨h a List.mem_cons_self, fun s' _ => ih (fun b hb => h b (List.mem_cons_of_mem a hb)) s'⟩

theorem exec_invariant_of {ok : σ → α → Prop} {I : σ → Prop}
    (hI : ∀ s a s', I s → ok s a → step s a = some s' → I s')
    {s t : σ} {as : List α} (h : exec step s as = some t) (hok : Meets step ok s as)
    (hs : I s) : I t := by
  induction as generalizing s with
  | nil => exact Option.some.inj h ▸ hs
  | cons a as ih =>
    obtain ⟨s', h1, h2⟩ := exec_cons_some.mp h
    exact ih h2 (hok.2 s' h1) (hI s a s' hs hok.1 h1)

/-! ## histories -/

section
variable {η : Type}

/-- what an observer has noted of a run, beginning with `h` -/
def observe (step : σ → α → Option σ) (note : η → σ → σ → η) : η → σ → List α → η
  | h, _, [] => h
  | h, s, a :: as =>
    match step s a with
    | some s' => observe step note (note h s s') s' as
    | none => h

/-- an invariant of the state, what has been noted and the actions so far -/
theorem observe_invariant {note : η → σ → σ → η} {J : σ → Prop} {I : σ → η → List α → Prop}
    (hJ : ∀ s a s', J s → step s a = some s' → J s')
    (hI : ∀ s h before a s', J s → I s h before → step s a = some s' →
      I s' (note h s s') (before ++ [a]))
    {s t : σ} {h : η} {before as : List α} (hrun : exec step s as = some t) (hJs : J s)
    (hs : I s h before) : I t (observe step note h s as) (before ++ as) := by
  induction as generalizing s h before with
  | nil =>
    cases hrun
    rwa [List.append_nil]
  | cons a as ih =>
    obtain ⟨s', h1, h2⟩ := exec_cons_some.mp hrun
    unfold observe
    rw [h1, List.append_cons]
    exact ih h2 (hJ s a s' hJs h1) (hI s h before a s' hJs hs h1)

end

/-! ## measures -/

/-- every action in `p` lowers `μ` and no other action raises it: a run has at most `μ s`
actions in `p` -/
theorem exec_count_le {J : σ → Prop} {μ : σ → Nat} {p : α → Bool}
    (hJ : ∀ s a s', J s → step s a = some s' → J s')
    (hlt : ∀ s a s', J s → step s a = some s' → p a = true → μ s' < μ s)
    (hle : ∀ s a s', J s → step s a = some s' → p a = false → μ s' ≤ μ s)
    {s t : σ} {as : List α} (h : exec step s as = some t) (hs : J s) :
    as.countP p + μ t ≤ μ s := by
  induction as generalizing s with
  | nil =>
    have e : s = t := Option.some.inj h
    rw [List.countP_nil, Nat.zero_add]
    exact Nat.le_of_eq (congrArg μ e.symm)
  | cons a as ih =>
    obtain ⟨s', h1, h2⟩ := exec_cons_some.mp h
    have hrest := ih h2 (hJ s a s' hs h1)
    cases hp : p a with
    | true =>
      have := hlt s a s' hs h1 hp
      rw [List.countP_cons_of_pos hp]
      omega
    | false =>
      have := hle s a s' hs h1 hp
      rw [List.countP_cons_of_neg (by simp [hp])]
      omega

/-- if outside the goal some action in `p` can be taken that lowers `μ`, then a run of actions
in `p` reaches the goal -/
theorem exec_reaches {J goal : σ → Prop} {μ : σ → Nat} {p : α → Prop}
    (hprog : ∀ s, J s → ¬ goal s → ∃ a s', p a ∧ step s a = some s' ∧ J s' ∧ μ s' < μ s)
    (s : σ) (hs : J s) :
    ∃ as t, (∀ a ∈ as, p a) ∧ exec step s as = some t ∧ J t ∧ goal t := by
  induction hn : μ s using Nat.strongRecOn generalizing s with
  | ind n ih =>
    by_cases hg : goal s
    · exact ⟨[], s, by simp, rfl, hs, hg⟩
    · obtain ⟨a, s', hpa, hstep, hs', hlt⟩ := hprog s hs hg
      obtain ⟨as, t, hp, hrun, ht, hgt⟩ := ih (μ s') (hn ▸ hlt) s' hs' rfl
      refine ⟨a :: as, t, ?_, exec_cons_some.mpr ⟨s', hstep, hrun⟩, ht, hgt⟩
      intro b hb
      rcases List.mem_cons.mp hb with rfl | hb'
      · exact hpa
      · exact hp b hb'

end

end Runs
