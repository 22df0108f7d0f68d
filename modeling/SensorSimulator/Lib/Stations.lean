import Mathlib.Logic.Function.Basic
import Mathlib.Data.List.Basic
import SensorSimulator.Lib.Lists
import SensorSimulator.Lib.Simulation

/-!
# Stations: records that are accepted, and settled one after the other

A finite or infinite family of stations.  A station accepts records until all of them are closed,
settles those waiting in the order of their arrival, and may finish when it is closed and none is
left.  A record is settled by being counted, or not.

* `Station`, `Row`, `Act`, `step`   the system;
* `acceptedAt`, `verdicts`               what a run accepts at a station, and how it settles;
* `Books`, `exec_books`                  the books of every run: accepted is settled and waiting.
-/

namespace Stations

variable {ι R : Type} [DecidableEq ι]

/-- the records waiting, and those settled with the verdict: counted or not -/
structure Station (R : Type) where
  waiting : List R
  settled : List (R × Bool)
  finished : Bool

structure Row (ι R : Type) where
  station : ι → Station R
  closed : Bool

inductive Act (ι R : Type) where
  | accept (i : ι) (r : R)
  | settle (i : ι) (counted : Bool)
  | close
  | finish (i : ι)
  deriving DecidableEq

def Station.empty : Station R := ⟨[], [], false⟩

def init : Row ι R := ⟨fun _ => .empty, false⟩

/-- station `i` becomes `st` -/
def Row.set (t : Row ι R) (i : ι) (st : Station R) : Row ι R :=
  { t with station := Function.update t.station i st }

def step (t : Row ι R) : Act ι R → Option (Row ι R)
  | .accept i r =>
    if t.closed then none
    else some (t.set i { t.station i with waiting := (t.station i).waiting ++ [r] })
  | .settle i counted =>
    match (t.station i).waiting with
    | r :: rest =>
      some (t.set i { t.station i with waiting := rest
                                       settled := (t.station i).settled ++ [(r, counted)] })
    | [] => none
  | .close => if t.closed then none else some { t with closed := true }
  | .finish i =>
    if t.closed && (t.station i).waiting.isEmpty then
      some (t.set i { t.station i with finished := true })
    else none

/-- a record accepted at station `i` -/
def acceptedAt (i : ι) : Act ι R → Option R
  | .accept j r => if j = i then some r else none
  | _ => none

/-- a verdict of station `i` -/
def verdictAt (i : ι) : Act ι R → Option Bool
  | .settle j counted => if j = i then some counted else none
  | _ => none

@[simp] theorem set_station (t : Row ι R) (i : ι) (st : Station R) :
    (t.set i st).station i = st := Function.update_self _ _ _

theorem set_station_of_ne (t : Row ι R) {i j : ι} (st : Station R) (h : j ≠ i) :
    (t.set i st).station j = t.station j := Function.update_of_ne h _ _

/-- the books of station `i` after the actions `as` -/
structure Books (i : ι) (t : Row ι R) (as : List (Act ι R)) : Prop where
  records : (t.station i).settled.map Prod.fst ++ (t.station i).waiting =
    as.filterMap (acceptedAt i)
  verdicts : (t.station i).settled.map Prod.snd = as.filterMap (verdictAt i)
  finished : (t.station i).finished = true → t.closed = true ∧ (t.station i).waiting = []

/-- an action at another station leaves the books alone -/
theorem Books.other {i j : ι} {t : Row ι R} {as : List (Act ι R)} (h : Books i t as)
    (hij : i ≠ j) (st : Station R) {a : Act ι R} (ha : acceptedAt i a = none)
    (hv : verdictAt i a = none) : Books i (t.set j st) (as ++ [a]) := by
  have hst : (t.set j st).station i = t.station i := set_station_of_ne t st hij
  constructor
  · rw [hst, Lists.filterMap_concat_none ha]
    exact h.records
  · rw [hst, Lists.filterMap_concat_none hv]
    exact h.verdicts
  · rw [hst]
    exact h.finished

theorem step_accept {t t' : Row ι R} {i : ι} {r : R} (h : step t (.accept i r) = some t') :
    t.closed = false ∧
    t' = t.set i { t.station i with waiting := (t.station i).waiting ++ [r] } := by
  dsimp only [step] at h
  cases hc : t.closed with
  | true =>
    rw [hc] at h
    cases h
  | false =>
    rw [hc] at h
    cases h
    exact ⟨rfl, rfl⟩

theorem step_settle {t t' : Row ι R} {i : ι} {counted : Bool}
    (h : step t (.settle i counted) = some t') :
    ∃ r rest, (t.station i).waiting = r :: rest ∧
      t' = t.set i { t.station i with waiting := rest
                                      settled := (t.station i).settled ++ [(r, counted)] } := by
  dsimp only [step] at h
  cases hw : (t.station i).waiting with
  | nil =>
    rw [hw] at h
    cases h
  | cons r rest =>
    rw [hw] at h
    cases h
    exact ⟨r, rest, rfl, rfl⟩

theorem step_close {t t' : Row ι R} (h : step t .close = some t') :
    t.closed = false ∧ t' = { t with closed := true } := by
  dsimp only [step] at h
  cases hc : t.closed with
  | true =>
    rw [hc] at h
    cases h
  | false =>
    rw [hc] at h
    cases h
    exact ⟨rfl, rfl⟩

theorem step_finish {t t' : Row ι R} {i : ι} (h : step t (.finish i) = some t') :
    t.closed = true ∧ (t.station i).waiting = [] ∧
    t' = t.set i { t.station i with finished := true } := by
  dsimp only [step] at h
  by_cases hready : (t.closed && (t.station i).waiting.isEmpty) = true
  · rw [if_pos hready] at h
    rw [Bool.and_eq_true, List.isEmpty_iff] at hready
    exact ⟨hready.1, hready.2, (Option.some.inj h).symm⟩
  · rw [if_neg hready] at h
    cases h

theorem Books.step {i : ι} {t t' : Row ι R} {as : List (Act ι R)} {a : Act ι R}
    (h : Books i t as) (hstep : step t a = some t') : Books i t' (as ++ [a]) := by
  cases a with
  | accept j r =>
    obtain ⟨hopen, rfl⟩ := step_accept hstep
    by_cases hj : j = i
    · subst hj
      constructor
      · simp only [set_station, List.filterMap_append, ← h.records, List.append_assoc]
        simp [acceptedAt]
      · simp only [set_station, List.filterMap_append, ← h.verdicts]
        simp [verdictAt]
      · intro hf
        rw [set_station] at hf
        rw [(h.finished hf).1] at hopen
        cases hopen
    · exact h.other (Ne.symm hj) _ (if_neg hj) rfl
  | settle j counted =>
    obtain ⟨r, rest, hw, rfl⟩ := step_settle hstep
    by_cases hj : j = i
    · subst hj
      have hrecords := h.records
      rw [hw] at hrecords
      constructor
      · simp only [set_station, List.filterMap_append, ← hrecords, List.map_append]
        simp [acceptedAt]
      · simp only [set_station, List.filterMap_append, ← h.verdicts, List.map_append]
        simp [verdictAt]
      · intro hf
        rw [set_station] at hf
        have hnil := (h.finished hf).2
        rw [hw] at hnil
        cases hnil
    · exact h.other (Ne.symm hj) _ rfl (if_neg hj)
  | close =>
    obtain ⟨hopen, rfl⟩ := step_close hstep
    constructor
    · rw [Lists.filterMap_concat_none rfl]
      exact h.records
    · rw [Lists.filterMap_concat_none rfl]
      exact h.verdicts
    · intro hf
      have hclosed := (h.finished hf).1
      rw [hopen] at hclosed
      cases hclosed
  | finish j =>
    obtain ⟨hclosed, hnone, rfl⟩ := step_finish hstep
    by_cases hj : j = i
    · subst hj
      constructor
      · rw [Lists.filterMap_concat_none rfl, set_station]
        exact h.records
      · rw [Lists.filterMap_concat_none rfl, set_station]
        exact h.verdicts
      · rw [set_station]
        exact fun _ => ⟨hclosed, hnone⟩
    · exact h.other (Ne.symm hj) _ rfl rfl

/-- the books of every run are right -/
theorem exec_books {t : Row ι R} {as : List (Act ι R)}
    (h : Runs.exec step (init : Row ι R) as = some t) (i : ι) : Books i t as := by
  have hinit : Books i (init : Row ι R) [] := ⟨rfl, rfl, fun hf => Bool.noConfusion hf⟩
  exact Runs.exec_invariant_acts (fun _ _ _ _ hs hstep => hs.step hstep) [] h hinit

/-- what is settled are the first records with the verdicts, in order -/
theorem Books.settled_eq {i : ι} {t : Row ι R} {as : List (Act ι R)} (h : Books i t as) :
    (t.station i).settled = (as.filterMap (acceptedAt i)).zip (as.filterMap (verdictAt i)) := by
  rw [← h.records, ← h.verdicts]
  generalize (t.station i).settled = settled
  generalize (t.station i).waiting = waiting
  induction settled with
  | nil => exact List.zip_nil_right.symm
  | cons p settled ih =>
    rw [List.map_cons, List.map_cons, List.cons_append, List.zip_cons_cons, ← ih]

end Stations
