import Mathlib.Data.List.Basic
import Mathlib.Tactic.Common

/-!
# Lists: what a filter picks, and how often

* `filterMap_cons_toList`   one element's share of a `filterMap`;
* `length_filter_zip`       how much a list of verdicts picks from another list;
* `map_fst_filter_zip`      with a verdict for each element and none against, all of them;
* `countP_split`            a count over `p` split by a smaller predicate `q`;
* `imp_of_countP_eq`        two predicates with the same count, one below the other, agree.
-/

namespace Lists

variable {α β : Type}

theorem filterMap_cons_toList (f : α → Option β) (x : α) (l : List α) :
    (x :: l).filterMap f = (f x).toList ++ l.filterMap f := by
  cases h : f x with
  | none => rw [List.filterMap_cons_none h]; rfl
  | some y => rw [List.filterMap_cons_some h]; rfl

theorem filterMap_singleton (f : α → Option β) (x : α) : [x].filterMap f = (f x).toList := by
  rw [filterMap_cons_toList]
  exact List.append_nil _

theorem filterMap_concat_none {f : α → Option β} {x : α} {l : List α} (h : f x = none) :
    (l ++ [x]).filterMap f = l.filterMap f := by
  rw [List.filterMap_append, filterMap_singleton, h]
  exact List.append_nil _

/-- what a list of verdicts picks from a list that is long enough -/
theorem length_filter_zip {l : List α} {bs : List Bool} (h : bs.length ≤ l.length) :
    ((l.zip bs).filter Prod.snd).length = bs.count true := by
  induction bs generalizing l with
  | nil => rw [List.zip_nil_right]; rfl
  | cons b bs ih =>
    cases l with
    | nil => exact absurd h (Nat.not_succ_le_zero _)
    | cons x l =>
      have hrest := ih (Nat.le_of_succ_le_succ h)
      cases b with
      | true => rw [List.zip_cons_cons, List.filter_cons_of_pos rfl, List.length_cons, hrest,
          List.count_cons_self]
      | false => rw [List.zip_cons_cons, List.filter_cons_of_neg Bool.false_ne_true, hrest,
          List.count_cons_of_ne Bool.false_ne_true]

/-- with a verdict for each element and none against, all are picked -/
theorem map_fst_filter_zip {l : List α} {bs : List Bool} (hlength : bs.length = l.length)
    (htrue : ∀ b ∈ bs, b = true) : ((l.zip bs).filter Prod.snd).map Prod.fst = l := by
  induction l generalizing bs with
  | nil => rfl
  | cons x l ih =>
    cases bs with
    | nil => cases hlength
    | cons b bs =>
      rw [htrue b List.mem_cons_self, List.zip_cons_cons, List.filter_cons_of_pos rfl, List.map_cons,
        ih (Nat.succ.inj hlength) fun c hc => htrue c (List.mem_cons_of_mem _ hc)]

theorem countP_split (p q : α → Bool) (l : List α) (h : ∀ x ∈ l, q x → p x) :
    l.countP p = l.countP q + l.countP fun x => p x && !q x := by
  induction l with
  | nil => rfl
  | cons x l ih =>
    have ih := ih fun y hy => h y (List.mem_cons_of_mem x hy)
    have hx := h x List.mem_cons_self
    rw [List.countP_cons, List.countP_cons, List.countP_cons, ih]
    cases hp : p x <;> cases hq : q x <;> simp_all <;> omega

/-- two predicates with the same count, one below the other, agree on the list -/
theorem imp_of_countP_eq {p q : α → Bool} {l : List α} (hqp : ∀ x ∈ l, q x → p x)
    (h : l.countP p = l.countP q) : ∀ x ∈ l, p x → q x := by
  have hs := countP_split p q l hqp
  have h0 : (l.countP fun x => p x && !q x) = 0 := by omega
  intro x hx hp
  have hn := List.countP_eq_zero.mp h0 x hx
  simpa [hp] using hn

end Lists
