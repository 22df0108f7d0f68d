import SensorSimulator.Lib.Runs
import Mathlib.Data.Nat.Count

/-!
# Streams: a system driven by an infinite stream of outcomes

* `after step s as k`   the state behind the first `k` outcomes, if the system comes so far;
* `Countdown step μ good`   a loop that goes on as long as its counter `μ` is not 0, and lowers it
                        by one for a good outcome and not at all for a bad one;
* `Countdown.after_counter`, `after_isSome_iff`, `returns_iff`, `terminates_iff`   such a loop, from
                        a counter `n`: what the counter is behind `k` outcomes, how far it comes,
                        that it returns just behind the `n`-th good outcome, and whether it does.
-/

namespace Runs

variable {σ α : Type}

/-- the state behind the first `k` outcomes of a stream -/
def after (step : σ → α → Option σ) (s : σ) (as : ℕ → α) : ℕ → Option σ
  | 0 => some s
  | k + 1 => (after step s as k).bind fun s' => step s' (as k)

theorem after_eq_exec (step : σ → α → Option σ) (s : σ) (as : ℕ → α) (k : ℕ) :
    after step s as k = exec step s ((List.range k).map as) := by
  induction k with
  | zero => rfl
  | succ k ih =>
    rw [List.range_succ, List.map_append, exec_append, ← ih]
    show (after step s as k).bind _ = (after step s as k).bind fun s' => exec step s' [as k]
    cases after step s as k with
    | none => rfl
    | some s' =>
      show step s' (as k) = (step s' (as k)).bind fun s'' => some s''
      exact (Option.bind_fun_some _).symm

/-- the loop asks its counter only whether it is 0 -/
structure Countdown (step : σ → α → Option σ) (μ : σ → ℤ) (good : α → Bool) : Prop where
  stops : ∀ s a, μ s = 0 → step s a = none
  goes : ∀ s a, μ s ≠ 0 → ∃ s', step s a = some s' ∧ μ s' = μ s - if good a then 1 else 0

namespace Countdown

variable {step : σ → α → Option σ} {μ : σ → ℤ} {good : α → Bool}

theorem after_counter (h : Countdown step μ good) (as : ℕ → α) {s t : σ} {n k : ℕ} (hs : μ s = n)
    (ht : after step s as k = some t) :
    μ t = n - Nat.count (fun i => good (as i) = true) k ∧
      Nat.count (fun i => good (as i) = true) k ≤ n := by
  induction k generalizing t with
  | zero =>
    cases ht
    simp [hs]
  | succ k ih =>
    obtain ⟨s', hs', hstep⟩ := Option.bind_eq_some_iff.mp ht
    obtain ⟨hcounter, hle⟩ := ih hs'
    have hne : μ s' ≠ 0 := fun h0 => by simp [h.stops s' _ h0] at hstep
    obtain ⟨t', ht', hμ⟩ := h.goes s' (as k) hne
    cases hstep.symm.trans ht'
    rw [hμ, hcounter, Nat.count_succ]
    split_ifs <;> constructor <;> push_cast <;> omega

theorem after_isSome_iff (h : Countdown step μ good) (as : ℕ → α) {s : σ} {n : ℕ} (hs : μ s = n)
    (k : ℕ) : (∃ t, after step s as k = some t) ↔
      ∀ j < k, Nat.count (fun i => good (as i) = true) j < n := by
  induction k with
  | zero => exact iff_of_true ⟨s, rfl⟩ fun j hj => absurd hj (Nat.not_lt_zero j)
  | succ k ih =>
    constructor
    · rintro ⟨t, ht⟩ j hj
      obtain ⟨s', hs', hstep⟩ := Option.bind_eq_some_iff.mp ht
      obtain ⟨hcounter, hle⟩ := h.after_counter as hs hs'
      have hne : μ s' ≠ 0 := fun h0 => by simp [h.stops s' _ h0] at hstep
      rcases Nat.lt_succ_iff_lt_or_eq.mp hj with hlt | rfl
      · exact ih.mp ⟨s', hs'⟩ j hlt
      · omega
    · intro hall
      obtain ⟨s', hs'⟩ := ih.mpr fun j hj => hall j (Nat.lt_succ_of_lt hj)
      have hcounter := (h.after_counter as hs hs').1
      have hlt := hall k (Nat.lt_succ_self k)
      obtain ⟨t, ht, -⟩ := h.goes s' (as k) (by omega)
      exact ⟨t, Option.bind_eq_some_iff.mpr ⟨s', hs', ht⟩⟩

theorem returns_iff (h : Countdown step μ good) (as : ℕ → α) {s : σ} {n : ℕ} (hs : μ s = n)
    (hn : 0 < n) (k : ℕ) : (∃ t, after step s as k = some t ∧ μ t = 0) ↔
      ∃ j, k = j + 1 ∧ good (as j) = true ∧ Nat.count (fun i => good (as i) = true) k = n := by
  constructor
  · rintro ⟨t, ht, h0⟩
    obtain ⟨hcounter, hle⟩ := h.after_counter as hs ht
    have hcount : Nat.count (fun i => good (as i) = true) k = n := by omega
    cases k with
    | zero => exact absurd hcount (by simp; omega)
    | succ j =>
      refine ⟨j, rfl, ?_, hcount⟩
      -- before this outcome there had been fewer
      have hbefore := (h.after_isSome_iff as hs (j + 1)).mp ⟨t, ht⟩ j (Nat.lt_succ_self j)
      rw [← hcount, Nat.count_lt_count_succ_iff] at hbefore
      exact hbefore
  · rintro ⟨j, rfl, hgood, hcount⟩
    have hbelow : ∀ i < j + 1, Nat.count (fun i => good (as i) = true) i < n := by
      intro i hi
      rw [← hcount]
      calc Nat.count (fun i => good (as i) = true) i
          ≤ Nat.count (fun i => good (as i) = true) j := Nat.count_monotone _ (Nat.le_of_lt_succ hi)
        _ < Nat.count (fun i => good (as i) = true) (j + 1) := Nat.count_lt_count_succ_iff.mpr hgood
    obtain ⟨t, ht⟩ := (h.after_isSome_iff as hs (j + 1)).mpr hbelow
    have hcounter := (h.after_counter as hs ht).1
    exact ⟨t, ht, by omega⟩

/-- the loop returns if and only if there are `n` good outcomes -/
theorem terminates_iff (h : Countdown step μ good) (as : ℕ → α) {s : σ} {n : ℕ} (hs : μ s = n) :
    (∃ k t, after step s as k = some t ∧ μ t = 0) ↔
      ∃ k, n ≤ Nat.count (fun i => good (as i) = true) k := by
  constructor
  · rintro ⟨k, t, ht, h0⟩
    have hcounter := (h.after_counter as hs ht).1
    exact ⟨k, by omega⟩
  · intro hex
    -- the first position with so many of them
    have hk := Nat.find_spec hex
    obtain ⟨t, ht⟩ := (h.after_isSome_iff as hs (Nat.find hex)).mpr fun j hj => by
      have := Nat.find_min hex hj
      omega
    obtain ⟨hcounter, hle⟩ := h.after_counter as hs ht
    exact ⟨_, t, ht, by omega⟩

end Countdown

end Runs
