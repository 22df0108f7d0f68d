import Mathlib.Data.Multiset.Filter
import Mathlib.Data.List.Perm.Basic
import Mathlib.Algebra.BigOperators.Group.Finset.Basic
import SensorSimulator.Lib.Lists

/-!
# A network that delays, reorders and drops datagrams, and does nothing else

What has been sent is in flight until it is delivered or dropped, in any order.  `contents` is
what is in flight or has been dropped: a send adds to it (`contents_send`), a delivery takes one
datagram out (`contents_deliver`), a drop changes nothing (`contents_drop`).  With an account of
what has been sent and of what has arrived these three give "nothing forged, altered or
duplicated".
-/

structure Network (δ : Type) where
  inFlight : List δ
  dropped : List δ

namespace Network

variable {δ : Type}

def empty : Network δ := ⟨[], []⟩

def send (n : Network δ) (ds : List δ) : Network δ := { n with inFlight := n.inFlight ++ ds }

def deliver (n : Network δ) (k : Nat) : Option (δ × Network δ) :=
  n.inFlight[k]?.map fun d => (d, { n with inFlight := n.inFlight.eraseIdx k })

def drop (n : Network δ) (k : Nat) : Option (Network δ) :=
  n.inFlight[k]?.map fun d =>
    { inFlight := n.inFlight.eraseIdx k, dropped := n.dropped ++ [d] }

def contents (n : Network δ) : Multiset δ := ↑n.inFlight + ↑n.dropped

theorem coe_eraseIdx (l : List δ) (k : Nat) (d : δ) (h : l[k]? = some d) :
    (↑(l.eraseIdx k) : Multiset δ) + {d} = ↑l := by
  obtain ⟨hk, rfl⟩ := List.getElem?_eq_some_iff.mp h
  rw [add_comm, Multiset.singleton_add, Multiset.cons_coe]
  exact Multiset.coe_eq_coe.mpr (List.getElem_cons_eraseIdx_perm hk)

theorem contents_send (n : Network δ) (ds : List δ) :
    (n.send ds).contents = n.contents + ↑ds := by
  show (↑(n.inFlight ++ ds) : Multiset δ) + ↑n.dropped = _
  rw [← Multiset.coe_add]
  exact add_right_comm _ _ _

theorem contents_deliver {n n' : Network δ} {k : Nat} {d : δ} (h : n.deliver k = some (d, n')) :
    n'.contents + {d} = n.contents := by
  obtain ⟨d', hk, he⟩ := Option.map_eq_some_iff.mp h
  cases he
  show (↑(n.inFlight.eraseIdx k) : Multiset δ) + ↑n.dropped + {d} = ↑n.inFlight + ↑n.dropped
  rw [add_right_comm, coe_eraseIdx _ k d hk]

theorem contents_drop {n n' : Network δ} {k : Nat} (h : n.drop k = some n') :
    n'.contents = n.contents := by
  obtain ⟨d, hk, rfl⟩ := Option.map_eq_some_iff.mp h
  show (↑(n.inFlight.eraseIdx k) : Multiset δ) + ↑(n.dropped ++ [d]) = ↑n.inFlight + ↑n.dropped
  rw [← Multiset.coe_add, ← coe_eraseIdx _ k d hk, Multiset.coe_singleton, ← add_assoc]
  exact add_right_comm _ _ _

/-- what one looks for in an account, in two parts -/
theorem filterMap_split {β : Type} {f g h : δ → Option β}
    (hsplit : ∀ x, (f x).toList = (g x).toList ++ (h x).toList) (l : List δ) :
    (↑(l.filterMap f) : Multiset β) = ↑(l.filterMap g) + ↑(l.filterMap h) := by
  induction l with
  | nil => rfl
  | cons x l ih =>
    rw [Lists.filterMap_cons_toList, Lists.filterMap_cons_toList g, Lists.filterMap_cons_toList h,
      ← Multiset.coe_add, ih, hsplit, ← Multiset.coe_add, ← Multiset.coe_add, ← Multiset.coe_add]
    exact add_add_add_comm _ _ _ _

/-- what one looks for in a family of accounts is the sum of what one finds in each -/
theorem filterMap_sum {ι β : Type} (f : δ → Option β) (s : Finset ι) (g : ι → Multiset δ) :
    Multiset.filterMap f (∑ i ∈ s, g i) = ∑ i ∈ s, Multiset.filterMap f (g i) :=
  map_sum (⟨⟨Multiset.filterMap f, Multiset.filterMap_zero f⟩, Multiset.filterMap_add f⟩ :
    Multiset δ →+ Multiset β) g s

end Network
