import Mathlib.Data.List.Basic
import Mathlib.Data.List.Nodup
import Mathlib.Tactic.Common

/-!
# Links: following the pointers of a graph

A pointer is an `Option α`, `none` is `NULL`; every node has one pointer, `next`.

* `Leads next p nodes stop`   from the pointer `p` on, `next` leads through `nodes` to `stop`; what
                              it leads through before it first meets `stop` is unique
                              (`Leads.unique`) and has no node twice (`Leads.nodup`);
* `Ring next previous base nodes`   `next` leads from `base` through `nodes` back to it, each node
                              once, and `previous` undoes each of these links.
-/

namespace Links

variable {α : Type}

def Leads (next : α → Option α) : Option α → List α → α → Prop
  | p, [], stop => p = some stop
  | p, a :: nodes, stop => p = some a ∧ Leads next (next a) nodes stop

structure Ring (next previous : α → Option α) (base : α) (nodes : List α) : Prop where
  leads : Leads next (next base) nodes base
  nodup : (base :: nodes).Nodup
  inverse : ∀ a ∈ base :: nodes, ∀ b, next a = some b → previous b = some a

section
variable {next : α → Option α} {stop : α}

/-- behind a node on the way lies the rest of the way -/
theorem Leads.rest {p : Option α} {before after : List α} {a : α}
    (h : Leads next p (before ++ a :: after) stop) : Leads next (next a) after stop := by
  induction before generalizing p with
  | nil => exact h.2
  | cons b before ih => exact ih h.2

theorem Leads.unique {p : Option α} {nodes nodes' : List α} (h : Leads next p nodes stop)
    (h' : Leads next p nodes' stop) (hstop : stop ∉ nodes) (hstop' : stop ∉ nodes') :
    nodes = nodes' := by
  induction nodes generalizing p nodes' with
  | nil =>
    cases nodes' with
    | nil => rfl
    | cons a nodes' =>
      cases h.symm.trans h'.1
      exact absurd List.mem_cons_self hstop'
  | cons a nodes ih =>
    cases nodes' with
    | nil =>
      cases h'.symm.trans h.1
      exact absurd List.mem_cons_self hstop
    | cons b nodes' =>
      cases h.1.symm.trans h'.1
      rw [ih h.2 h'.2 (fun hm => hstop (List.mem_cons_of_mem a hm))
        (fun hm => hstop' (List.mem_cons_of_mem a hm))]

/-- a node met twice would lead to `stop` in two ways -/
theorem Leads.nodup {p : Option α} {nodes : List α} (h : Leads next p nodes stop)
    (hstop : stop ∉ nodes) : nodes.Nodup := by
  induction nodes generalizing p with
  | nil => exact List.nodup_nil
  | cons a nodes ih =>
    have hrest : stop ∉ nodes := fun hm => hstop (List.mem_cons_of_mem a hm)
    refine List.nodup_cons.mpr ⟨?_, ih h.2 hrest⟩
    intro hmem
    obtain ⟨before, after, rfl⟩ := List.append_of_mem hmem
    have hafter : stop ∉ after := fun hm =>
      hrest (List.mem_append_right _ (List.mem_cons_of_mem a hm))
    have hsame := congrArg List.length (h.2.unique h.2.rest hrest hafter)
    rw [List.length_append, List.length_cons] at hsame
    omega

end

section
variable {next previous : α → Option α} {base : α} {nodes : List α}

theorem Ring.not_mem (h : Ring next previous base nodes) : base ∉ nodes :=
  (List.nodup_cons.mp h.nodup).1

/-- the ring of the base alone: it is linked to itself in both directions -/
theorem ring_nil : Ring next previous base [] ↔ next base = some base ∧ previous base = some base := by
  constructor
  · intro h
    exact ⟨h.leads, h.inverse base List.mem_cons_self base h.leads⟩
  · rintro ⟨hnext, hprevious⟩
    refine ⟨hnext, List.nodup_singleton base, ?_⟩
    intro a ha b hb
    cases List.mem_singleton.mp ha
    cases hnext.symm.trans hb
    exact hprevious

end

end Links
