import SensorSimulator.Readings
import SensorSimulator.Server.Ledger
import SensorSimulator.Server.Report

/-!
# The sums and averages, when the words are readings

A worker adds floats to a float: each addition rounds, and the sum cannot grow for ever.

* `exactSum`, `mean`       of the words added, as numbers;
* `Fed`                    everything that has been inserted is a reading (`IsReading`);
* `sums_of_readings`       the sum of a worker: its error, the 2^31 it does not pass, and that it never
                           falls;
* `report_near`            the averages that main prints.
-/

namespace SensorSimulator
namespace Server
open Floats Rounding

variable {N : Nat}

def wordVal (word : UInt32) : ℚ := val (Float32.ofBits word)

def exactSum (words : List UInt32) : ℚ := (words.map wordVal).sum

def mean (words : List UInt32) : ℚ := exactSum words / words.length

/-- the records of the queues hold readings -/
def State.Fed (s : State N) : Prop := ∀ i, ∀ r ∈ (s.lanes i).inserted, IsReading r.data

theorem exactSum_nonneg (words : List UInt32) : 0 ≤ exactSum words := by
  refine List.sum_nonneg fun q hq => ?_
  obtain ⟨word, -, rfl⟩ := List.mem_map.mp hq
  exact val_nonneg _

/-! ## the sum of a worker -/

section
variable {words : List UInt32} (h : ∀ word ∈ words, IsReading word)
include h

theorem small_of_readings : ∀ y ∈ words.map Float32.ofBits, Small 31 y := by
  intro y hy
  obtain ⟨word, hword, rfl⟩ := List.mem_map.mp hy
  obtain ⟨hnumber, hle, -⟩ := h word hword
  refine ⟨hnumber, hle.trans_lt ?_⟩
  norm_num

theorem fold_of_readings {sum : Float32}
    (hsum : sum = words.foldl (fun sum word => sum + Float32.ofBits word) 0) :
    Capped 31 sum ∧ Within words.length 0 (exactSum words) (val sum) ∧
      (val sum = 0 ∨ (2 : ℚ) ^ (-25 : ℤ) ≤ val sum) := by
  have hsmall := small_of_readings h
  have hfold : sum = (words.map Float32.ofBits).foldl (fun s y => s + y) 0 := by
    rw [hsum, List.foldl_map]
  have hexact : exactSum words = ((words.map Float32.ofBits).map val).sum := by
    rw [List.map_map]
    rfl
  obtain ⟨hcap, hwithin⟩ := foldl_within (by omega) (by omega) _ hsmall
  rw [← hfold, ← hexact, List.length_map] at hwithin
  rw [← hfold] at hcap
  refine ⟨hcap, hwithin, ?_⟩
  rw [hfold]
  refine foldl_zero_or_ge (by omega) (by omega) _ hsmall ?_ 0
    ⟨number_zero.1, number_zero.2.trans_le (Precision.two_zpow_pos 31).le⟩ (Or.inl number_zero.2)
  intro y hy
  obtain ⟨word, hword, rfl⟩ := List.mem_map.mp hy
  exact (h word hword).zero_or_ge

end

theorem Reachable.summed_readings {cfg : Config} {s : State N} (h : Reachable cfg s) (hfed : s.Fed)
    (i : Fin N) :
    ∀ word ∈ (s.lanes i).summed, IsReading word := by
  intro word hword
  obtain ⟨r, hr, rfl⟩ := List.mem_map.mp ((h.summed_sublist i).subset hword)
  exact hfed i r hr

theorem Move.summed_grows {cfg : Config} {s s' : State N} {a : Action N} (hr : Reachable cfg s)
    (h : Move cfg s a s') (i : Fin N) : (s.lanes i).summed <+: (s'.lanes i).summed := by
  cases h with
  | main c s' hm =>
    rw [(hm.logFrame hr i).summed]
  | worker j c l fr hw =>
    refine onLane_forall (P := fun k l => (s.lanes k).summed <+: l.summed) s j (fun _ => l) ?_
      (fun k _ => List.prefix_rfl) i
    cases hw
    case count b hpc => exact List.prefix_append _ _
    all_goals exact List.prefix_rfl
  | wake j hw =>
    exact onLane_forall (P := fun k l => (s.lanes k).summed <+: l.summed) s j Lane.wake
      List.prefix_rfl (fun k _ => List.prefix_rfl) i
  | _ => exact List.prefix_rfl

theorem Reachable.summed_grows {cfg : Config} {s t : State N} (h : Reachable cfg s)
    {as : List (Action N)} (hrun : Runs.exec (step cfg) s as = some t) (i : Fin N) :
    (s.lanes i).summed <+: (t.lanes i).summed :=
  Runs.exec_invariant_with (J := Reachable cfg)
    (I := fun t => (s.lanes i).summed <+: (t.lanes i).summed)
    (fun _ _ _ hr hstep => hr.after hstep)
    (fun _ _ _ hr hs hstep => hs.trans ((step_move hstep).summed_grows hr i)) hrun h
    List.prefix_rfl

theorem Reachable.run {cfg : Config} {s t : State N} (h : Reachable cfg s) {as : List (Action N)}
    (hrun : Runs.exec (step cfg) s as = some t) : Reachable cfg t := by
  obtain ⟨as', hs⟩ := h
  exact ⟨as' ++ as, Runs.exec_append_some.mpr ⟨s, hs, hrun⟩⟩

theorem Reachable.sum_le {cfg : Config} {s t : State N} (h : Reachable cfg s)
    {as : List (Action N)} (hrun : Runs.exec (step cfg) s as = some t)
    (hfed : t.Fed) (i : Fin N) : val (s.lanes i).sum ≤ val (t.lanes i).sum := by
  have ht : Reachable cfg t := h.run hrun
  obtain ⟨more, hmore⟩ := h.summed_grows hrun i
  have hread := ht.summed_readings hfed i
  rw [← hmore] at hread
  have hbefore := fold_of_readings (fun w hw => hread w (List.mem_append_left _ hw))
    (h.counter_sum i).2
  have hsum : (t.lanes i).sum =
      (more.map Float32.ofBits).foldl (fun s y => s + y) (s.lanes i).sum := by
    rw [(ht.counter_sum i).2, ← hmore, List.foldl_append, ← (h.counter_sum i).2, List.foldl_map]
  rw [hsum]
  exact (foldl_capped (by omega) (by omega) _
    (small_of_readings fun w hw => hread w (List.mem_append_right _ hw)) _ hbefore.1).2.1

/-- **The sum of a worker that adds readings.**  In every run, with logging on or off: it is a number
up to 2^31, within one rounding for each word of their exact sum.  It never falls, so that it stands
still once it has come to 2^31. -/
theorem sums_of_readings {cfg : Config} {s : State N} (h : Reachable cfg s) (hfed : s.Fed)
    (i : Fin N) :
    Number (s.lanes i).sum ∧ val (s.lanes i).sum ≤ 2 ^ 31 ∧
    Within (s.lanes i).summed.length 0 (exactSum (s.lanes i).summed) (val (s.lanes i).sum) ∧
    ∀ as t, Runs.exec (step cfg) s as = some t → t.Fed →
      val (s.lanes i).sum ≤ val (t.lanes i).sum ∧
      (val (s.lanes i).sum = 2 ^ 31 → val (t.lanes i).sum = 2 ^ 31) := by
  obtain ⟨hcap, hwithin, -⟩ := fold_of_readings (h.summed_readings hfed i)
    (h.counter_sum i).2
  refine ⟨hcap.number, hcap.le, hwithin, fun as t hrun ht => ?_⟩
  have hle := h.sum_le hrun ht i
  have hreach : Reachable cfg t := h.run hrun
  refine ⟨hle, fun hfull => le_antisymm ?_ (hfull ▸ hle)⟩
  exact (fold_of_readings (hreach.summed_readings ht i) (hreach.counter_sum i).2).1.le

/-- the word of 100, which the largest `rand` leads to -/
theorem isReading_hundred : IsReading 1120403456 := by
  have hrand : Rand 2147483647 2147483647 := ⟨by decide, by decide, by decide⟩
  have hword : (randomFloat 2147483647 2147483647).toBits = 1120403456 := by decide
  exact hword ▸ hrand.isReading

/-- the run of `oneMessage`, with this word in the message -/
def hundredMessage : List (Action 1) := oneMessage.map fun
  | .arrive _ => .arrive (List.replicate 10 0 ++ [66, 200, 0, 0])
  | a => a

def afterHundred : State 1 :=
  (Runs.exec (step oneSensor) (init 1) hundredMessage).get (by decide)

theorem sums_of_readings_hundred : (afterHundred.lanes 0).summed = [1120403456] ∧
    Within 1 0 (exactSum [1120403456]) (val (afterHundred.lanes 0).sum) := by
  have hsummed : (afterHundred.lanes 0).summed = [1120403456] := by decide
  have hfed : afterHundred.Fed := by
    intro i r hr
    have hinserted : (afterHundred.lanes i).inserted = [⟨⟨0, 0, 0⟩, 1120403456⟩] := by
      rw [Fin.fin_one_eq_zero i]
      decide
    rw [hinserted, List.mem_singleton] at hr
    rw [hr]
    exact isReading_hundred
  have hreach : Reachable oneSensor afterHundred := reachable_get _ _ _
  have hwithin := (sums_of_readings hreach hfed 0).2.2.1
  rw [hsummed] at hwithin
  exact ⟨hsummed, hwithin⟩

/-! ## the averages -/

/-- an average as it is printed, of a sum that is `x` up to `a` roundings -/
theorem average_within {sum : Float32} {a n : ℕ} {x : ℚ} (hcap : Capped 100 sum)
    (hsmall : val sum = 0 ∨ (2 : ℚ) ^ (-80 : ℤ) ≤ val sum) (hx : Within a 0 x (val sum))
    (hn : n < 4294967296) :
    Number (average sum (UInt32.ofNat n)).value ∧
    Within (a + 1) 1 (x / n) (val (average sum (UInt32.ofNat n)).value) ∧
    val (average sum (UInt32.ofNat n)).value * n ≤ (1 + unit32) / (1 - unit32) * val sum := by
  have hofNat : (UInt32.ofNat n).toNat = n := by
    rw [UInt32.toNat_ofNat']
    omega
  obtain ⟨hu0, hu1⟩ := unit32_bounds
  have hfactor : 0 ≤ (1 + unit32) / (1 - unit32) := div_nonneg (by linarith) (by linarith)
  by_cases h0 : n = 0
  · have hvalue : (average sum (UInt32.ofNat n)).value = 0 := by
      rw [h0]
      rfl
    rw [hvalue, number_zero.2, h0, Nat.cast_zero, div_zero, mul_zero]
    exact ⟨number_zero.1, .zero _ _, mul_nonneg hfactor (val_nonneg sum)⟩
  · have hne : UInt32.ofNat n ≠ 0 := fun he => h0 (by rw [← hofNat, he]; rfl)
    have hvalue : (average sum (UInt32.ofNat n)).value = sum / (UInt32.ofNat n).toFloat32 := by
      have hpos : UInt32.ofNat n > 0 := by
        show 0 < (UInt32.ofNat n).toNat
        omega
      unfold average
      rw [if_pos hpos]
      rfl
    obtain ⟨hnumber, hwithin⟩ := div_within hcap hsmall hne
    rw [← hvalue, hofNat] at hwithin
    rw [← hvalue] at hnumber
    refine ⟨hnumber, (hx.div (Nat.cast_nonneg n)).trans hwithin, ?_⟩
    have hpos : (0 : ℚ) < n := Nat.cast_pos.mpr (Nat.pos_of_ne_zero h0)
    calc val (average sum (UInt32.ofNat n)).value * n
        ≤ (1 + unit32) ^ 1 / (1 - unit32) ^ 1 * (val sum / n) * n :=
          mul_le_mul_of_nonneg_right hwithin.upper hpos.le
      _ = (1 + unit32) / (1 - unit32) * val sum := by
          rw [pow_one, pow_one, mul_assoc, div_mul_cancel₀ _ hpos.ne']

def State.allSummed (s : State N) : List UInt32 :=
  (List.finRange N).flatMap fun i => (s.lanes i).summed

theorem length_allSummed (s : State N) :
    s.allSummed.length = ∑ i, (s.lanes i).summed.length := by
  rw [State.allSummed, List.length_flatMap, ← Fin.sum_univ_def]

theorem exactSum_allSummed (s : State N) :
    exactSum s.allSummed = ((List.finRange N).map fun i => exactSum (s.lanes i).summed).sum := by
  unfold State.allSummed
  generalize List.finRange N = l
  induction l with
  | nil => rfl
  | cons i l ih =>
    rw [List.flatMap_cons, List.map_cons, List.sum_cons, ← ih]
    unfold exactSum
    rw [List.map_append, List.sum_append]

theorem total_of_readings {cfg : Config} {s : State N} (h : Reachable cfg s) (hfed : s.Fed) :
    Capped 56 (totals s.threadParams).totalSum ∧
    Within (s.allSummed.length + N) 0 (exactSum s.allSummed)
      (val (totals s.threadParams).totalSum) ∧
    (val (totals s.threadParams).totalSum = 0 ∨
      (2 : ℚ) ^ (-25 : ℤ) ≤ val (totals s.threadParams).totalSum) := by
  have hlane := fun i => fold_of_readings (h.summed_readings hfed i) (h.counter_sum i).2
  have hsmall : ∀ y ∈ (List.finRange N).map fun i => (s.lanes i).sum, Small 56 y := by
    intro y hy
    obtain ⟨i, -, rfl⟩ := List.mem_map.mp hy
    refine ⟨(hlane i).1.number, (hlane i).1.le.trans_lt ?_⟩
    norm_num
  have htotal : (totals s.threadParams).totalSum =
      ((List.finRange N).map fun i => (s.lanes i).sum).foldl (fun s y => s + y) 0 :=
    totals_sum s.threadParams
  obtain ⟨hcap, hwithin⟩ := foldl_within (by omega) (by omega) _ hsmall
  have hparts : Within s.allSummed.length 0 (exactSum s.allSummed)
      (((List.finRange N).map fun i => (s.lanes i).sum).map val).sum := by
    rw [exactSum_allSummed, List.map_map]
    refine Within.list_sum _ fun i _ => (hlane i).2.1.mono (exactSum_nonneg _) ?_
    rw [length_allSummed]
    exact Finset.single_le_sum (f := fun i => (s.lanes i).summed.length)
      (fun _ _ => Nat.zero_le _) (Finset.mem_univ i)
  rw [List.length_map, List.length_finRange] at hwithin
  rw [htotal]
  refine ⟨hcap, hparts.trans hwithin, ?_⟩
  refine foldl_zero_or_ge (by omega) (by omega) _ hsmall ?_ 0
    ⟨number_zero.1, number_zero.2.trans_le (Precision.two_zpow_pos 56).le⟩ (Or.inl number_zero.2)
  intro y hy
  obtain ⟨i, -, rfl⟩ := List.mem_map.mp hy
  exact (hlane i).2.2

/-- what an average should be: the mean `x` up to the roundings, and while these are at most 2^23 up to
as many times 2^-23 of it -/
structure Average.Near (x : ℚ) (roundings : ℕ) (a : Average) : Prop where
  number : Number a.value
  near : Within roundings 1 x (val a.value)
  error : roundings + 1 ≤ 2 ^ 23 → |val a.value - x| ≤ (roundings + 1 : ℕ) / 2 ^ 23 * x

theorem mean_nonneg (words : List UInt32) : 0 ≤ mean words :=
  div_nonneg (exactSum_nonneg words) (Nat.cast_nonneg _)

theorem Average.Near.of_within {x : ℚ} {roundings : ℕ} {a : Average} (hx : 0 ≤ x)
    (hnumber : Number a.value) (hnear : Within roundings 1 x (val a.value)) :
    a.Near x roundings where
  number := hnumber
  near := hnear
  error hfew := by
    have hunit : unit32 = 1 / 2 / 2 ^ 23 := by
      unfold unit32
      norm_num
    have hcast : ((roundings + 1 : ℕ) : ℚ) ≤ 2 ^ 23 := by exact_mod_cast hfew
    refine (hnear.abs_sub_le hx ?_).trans_eq ?_
    · rw [hunit, mul_div_assoc', div_le_iff₀ (by norm_num)]
      linarith
    · rw [hunit]
      ring

theorem report_near {cfg : Config} {s : State N} (h : Reachable cfg s) (hfed : s.Fed)
    (hcount : s.allSummed.length < 4294967296) :
    (∀ i : Fin N, ∃ line, (report s.threadParams).threads[i.val]? = some line ∧
      line.average.Near (mean (s.lanes i).summed) ((s.lanes i).summed.length + 1) ∧
      val line.average.value * (s.lanes i).summed.length ≤
        (1 + unit32) / (1 - unit32) * 2 ^ 31) ∧
    (report s.threadParams).average.Near (mean s.allSummed) (s.allSummed.length + N + 1) := by
  obtain ⟨hu0, hu1⟩ := unit32_bounds
  have hsmallest : (2 : ℚ) ^ (-80 : ℤ) ≤ 2 ^ (-25 : ℤ) := Precision.two_zpow_le (by omega)
  obtain ⟨hthreads, htotal⟩ := report_eq (fun i => (s.lanes i).summed.length) s.threadParams
    fun i => (h.counter_sum i).1
  constructor
  · intro i
    obtain ⟨hcap, hwithin, hsmall⟩ := fold_of_readings (h.summed_readings hfed i)
      (h.counter_sum i).2
    have hle : (s.lanes i).summed.length ≤ s.allSummed.length := by
      rw [length_allSummed]
      exact Finset.single_le_sum (f := fun i => (s.lanes i).summed.length)
        (fun _ _ => Nat.zero_le _) (Finset.mem_univ i)
    obtain ⟨hnumber, hnear, hbound⟩ := average_within (hcap.mono (by omega))
      (hsmall.imp_right hsmallest.trans) hwithin (hle.trans_lt hcount)
    refine ⟨_, hthreads i, .of_within (mean_nonneg _) hnumber hnear, hbound.trans ?_⟩
    refine mul_le_mul_of_nonneg_left hcap.le (div_nonneg ?_ ?_) <;> linarith
  · obtain ⟨hcap, hwithin, hsmall⟩ := total_of_readings h hfed
    have haverage : (report s.threadParams).average =
        average (totals s.threadParams).totalSum (UInt32.ofNat s.allSummed.length) := by
      rw [length_allSummed, ← htotal]
      rfl
    obtain ⟨hnumber, hnear, -⟩ := average_within (hcap.mono (by omega))
      (hsmall.imp_right hsmallest.trans) hwithin hcount
    rw [← haverage] at hnumber hnear
    exact .of_within (mean_nonneg _) hnumber hnear

end Server
end SensorSimulator
