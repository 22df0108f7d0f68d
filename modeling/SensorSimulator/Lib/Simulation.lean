import SensorSimulator.Lib.Lists
import SensorSimulator.Lib.Runs

/-!
# Simulations: the runs of one system as runs of another

* `exec_invariant_acts`   an invariant of the state and the actions so far;
* `exec_map`              a run of a part of a system;
* `labels`                what a run does, told in actions of another system;
* `mem_labels`            each of these belongs to one action of the run;
* `labels_filterMap`      what an observer picks from these, he can pick from the run;
* `Simulation`            each step within a bound is a run of the other system, the one its label says;
* `Simulation.exec`       so every run is one.
-/

namespace Runs

variable {σ τ α β γ : Type} {step : σ → α → Option σ} {step' : τ → β → Option τ}

theorem exec_invariant_acts {I : σ → List α → Prop}
    (hI : ∀ s before a s', I s before → step s a = some s' → I s' (before ++ [a]))
    (before : List α) {s t : σ} {as : List α} (h : exec step s as = some t) (hs : I s before) :
    I t (before ++ as) := by
  induction as generalizing s before with
  | nil =>
    cases h
    rwa [List.append_nil]
  | cons a as ih =>
    obtain ⟨s', h1, h2⟩ := exec_cons_some.mp h
    rw [List.append_cons]
    exact ih (before ++ [a]) h2 (hI s before a s' hs h1)

/-- a run of a part of a system is a run of the system, if each of its actions is -/
theorem exec_map {f : τ → σ} {g : β → α} {t t' : τ} {bs : List β}
    (hstep : ∀ t b t', b ∈ bs → step' t b = some t' → step (f t) (g b) = some (f t'))
    (h : exec step' t bs = some t') : exec step (f t) (bs.map g) = some (f t') := by
  induction bs generalizing t with
  | nil =>
    cases h
    rfl
  | cons b bs ih =>
    obtain ⟨t1, h1, h2⟩ := exec_cons_some.mp h
    refine exec_cons_some.mpr ⟨f t1, hstep t b t1 List.mem_cons_self h1, ?_⟩
    exact ih (fun t b t' hb => hstep t b t' (List.mem_cons_of_mem _ hb)) h2

/-- the labels of a run, one after the other -/
def labels (step : σ → α → Option σ) (label : σ → α → List β) : σ → List α → List β
  | _, [] => []
  | s, a :: as =>
    match step s a with
    | some s' => label s a ++ labels step label s' as
    | none => []

theorem labels_cons {label : σ → α → List β} {s s' : σ} {a : α} (as : List α)
    (h : step s a = some s') :
    labels step label s (a :: as) = label s a ++ labels step label s' as := by
  show (match step s a with | some s' => label s a ++ labels step label s' as | none => []) = _
  rw [h]

theorem mem_labels {label : σ → α → List β} {s : σ} {as : List α} {b : β}
    (h : b ∈ labels step label s as) : ∃ s a, a ∈ as ∧ b ∈ label s a := by
  induction as generalizing s with
  | nil => cases h
  | cons a as ih =>
    cases hstep : step s a with
    | none =>
      unfold labels at h
      rw [hstep] at h
      cases h
    | some s' =>
      rw [labels_cons as hstep] at h
      rcases List.mem_append.mp h with hhere | hrest
      · exact ⟨s, a, List.mem_cons_self, hhere⟩
      · obtain ⟨s1, a1, hmem, hlabel⟩ := ih hrest
        exact ⟨s1, a1, List.mem_cons_of_mem a hmem, hlabel⟩

/-- where `f` finds in each label what `g` finds in the action, it does so in whole runs -/
theorem labels_filterMap {label : σ → α → List β} {J : σ → Prop} {f : β → Option γ}
    {g : α → Option γ} (hJ : ∀ s a s', J s → step s a = some s' → J s')
    (hfg : ∀ s a s', J s → step s a = some s' → (label s a).filterMap f = (g a).toList)
    {s t : σ} {as : List α} (h : exec step s as = some t) (hs : J s) :
    (labels step label s as).filterMap f = as.filterMap g := by
  induction as generalizing s with
  | nil => rfl
  | cons a as ih =>
    obtain ⟨s', h1, h2⟩ := exec_cons_some.mp h
    rw [labels_cons as h1, List.filterMap_append, hfg s a s' hs h1, ih h2 (hJ s a s' hs h1),
      Lists.filterMap_cons_toList]

/-- what it takes to see one system as another: an invariant of the first, a relation, and for each
step the actions it stands for.  It may be limited to states `within` a bound that no run comes back
from beyond. -/
structure Simulation (step : σ → α → Option σ) (step' : τ → β → Option τ) where
  inv : σ → Prop
  within : σ → Prop
  rel : σ → τ → Prop
  label : σ → α → List β
  inv_step : ∀ s a s', inv s → step s a = some s' → inv s'
  within_step : ∀ s a s', inv s → step s a = some s' → within s' → within s
  rel_step : ∀ s a s' t, inv s → within s → rel s t → step s a = some s' →
    ∃ t', exec step' t (label s a) = some t' ∧ rel s' t'

/-- a run that ends within the bound began there -/
theorem Simulation.within_exec (sim : Simulation step step') {s s' : σ} {as : List α}
    (h : Runs.exec step s as = some s') (hs : sim.inv s) (hin : sim.within s') : sim.within s := by
  induction as generalizing s with
  | nil =>
    cases h
    exact hin
  | cons a as ih =>
    obtain ⟨s1, h1, h2⟩ := exec_cons_some.mp h
    exact sim.within_step s a s1 hs h1 (ih h2 (sim.inv_step s a s1 hs h1))

/-- every run that ends within the bound is a run of the other system, and ends in related states -/
theorem Simulation.exec (sim : Simulation step step') {s s' : σ} {t : τ} {as : List α}
    (h : Runs.exec step s as = some s') (hs : sim.inv s) (hin : sim.within s') (hr : sim.rel s t) :
    ∃ t', Runs.exec step' t (labels step sim.label s as) = some t' ∧ sim.rel s' t' := by
  induction as generalizing s t with
  | nil =>
    cases h
    exact ⟨t, rfl, hr⟩
  | cons a as ih =>
    obtain ⟨s1, h1, h2⟩ := exec_cons_some.mp h
    obtain ⟨t1, hrun, hr1⟩ := sim.rel_step s a s1 t hs (sim.within_exec h hs hin) hr h1
    obtain ⟨t', hrest, hr'⟩ := ih h2 (sim.inv_step s a s1 hs h1) hr1
    refine ⟨t', ?_, hr'⟩
    rw [labels_cons as h1]
    exact exec_append_some.mpr ⟨t1, hrun, hrest⟩

end Runs
