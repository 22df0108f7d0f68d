import SensorSimulator.StartUp

/-!
# server_queues.c: the queues of the server, created and destroyed

* `createServerQueues`   with `_destroy_n_queues` when a create fails;
* `destroyNQueues`       `_destroy_n_queues`, and `destroy_server_queues` for all of them.

A queue is told by the turn of the loop that created it.
-/

namespace SensorSimulator
open Resources

/-- `server_queues_status_e` -/
inductive ServerQueuesStatus where
  | success
  | createServerQueuesError
  | printServerQueueNullListError
  | printServerQueueNullBaseNodeError
  | printServerQueueCorruptedListError
  deriving DecidableEq

def ServerQueuesStatus.code : ServerQueuesStatus → Int
  | .success => 0
  | .createServerQueuesError => -101
  | .printServerQueueNullListError => -201
  | .printServerQueueNullBaseNodeError => -202
  | .printServerQueueCorruptedListError => -203

/-- the array of pointers -/
abbrev Queues := Nat → Option Nat

def Queues.null : Queues := fun _ => none

/-- `queue_destroy_thread_safe`; `NULL` is not a queue -/
def queueDestroyThreadSafe : Option Nat → Trace
  | some q => [.release (.queue q)]
  | none => []

/-- `_destroy_n_queues`, after `n` turns -/
def destroyNQueues (queues : Queues) : Nat → Trace
  | 0 => []
  | i + 1 => destroyNQueues queues i ++ queueDestroyThreadSafe (queues i)

def destroyServerQueues (n : Nat) (queues : Queues) : Trace := destroyNQueues queues n

/-- the loop of `create_server_queues`, after `n` turns or when one of them has returned; `create`
is whether each `queue_create_thread_safe` gives a queue -/
def createServerQueues (create : Nat → Bool) (queues : Queues) :
    Nat → ServerQueuesStatus × Queues × Trace
  | 0 => (.success, queues, [])
  | i + 1 =>
    match createServerQueues create queues i with
    | (.success, queues, tr) =>
      let queue := if create i then some i else none
      let queues := Function.update queues i queue
      match queue with
      | none => (.createServerQueuesError, queues, tr ++ destroyNQueues queues i)
      | some q => (.success, queues, tr ++ [.acquire (.queue q)])
    | r => r

/-! ## what they hold and free -/

/-- a queue of the first `n` turns -/
def Resource.queueBelow (n : Nat) : Resource → Prop
  | .queue i => i < n
  | _ => False

def queuesBelow (n : Nat) : Set Resource := {r | r.queueBelow n}

@[simp] theorem mem_queuesBelow (n : Nat) (r : Resource) :
    r ∈ queuesBelow n ↔ r.queueBelow n := Iff.rfl

theorem queuesBelow_zero : queuesBelow 0 = ∅ := by
  ext r
  cases r <;> simp [Resource.queueBelow]

theorem queuesBelow_succ (n : Nat) : queuesBelow (n + 1) = queuesBelow n ∪ {.queue n} := by
  ext r
  cases r <;> simp [Resource.queueBelow]
  omega

theorem queuesBelow_mono {m n : Nat} (h : m ≤ n) : queuesBelow m ⊆ queuesBelow n := by
  intro r hr
  cases r with
  | queue i => exact Nat.lt_of_lt_of_le hr h
  | _ => exact hr

theorem destroyNQueues_frees (queues : Queues) (n : Nat) (hq : ∀ i < n, queues i = some i) :
    Frees (queuesBelow n) (destroyNQueues queues n) := by
  induction n with
  | zero =>
    rw [queuesBelow_zero]
    exact Frees.nil
  | succ n ih =>
    unfold destroyNQueues
    rw [queuesBelow_succ, hq n (Nat.lt_succ_self n)]
    exact (ih fun i hi => hq i (Nat.lt_succ_of_lt hi)).snoc (Nat.lt_irrefl n)

/-- all `n` queues are created, or none is left -/
theorem createServerQueues_spec (create : Nat → Bool) (n : Nat) :
    ∃ queues tr, Touches (queuesBelow n) tr ∧
      (((∀ i < n, create i = true) ∧ (∀ i < n, queues i = some i) ∧ Holds (queuesBelow n) tr ∧
          createServerQueues create .null n = (.success, queues, tr)) ∨
        ((∃ i < n, create i = false) ∧ ReleasedOnce tr ∧
          createServerQueues create .null n = (.createServerQueuesError, queues, tr))) := by
  induction n with
  | zero =>
    refine ⟨.null, [], Touches.nil _, Or.inl ⟨?_, ?_, ?_, rfl⟩⟩
    · exact fun i hi => absurd hi (Nat.not_lt_zero i)
    · exact fun i hi => absurd hi (Nat.not_lt_zero i)
    · rw [queuesBelow_zero]
      exact Holds.nil
  | succ n ih =>
    have hsub : queuesBelow n ⊆ queuesBelow (n + 1) := queuesBelow_mono (Nat.le_succ n)
    obtain ⟨queues, tr, htouch, ⟨hall, hq, hholds, h⟩ | ⟨⟨i, hi, hfail⟩, honce, h⟩⟩ := ih
    · have hkept : ∀ q, ∀ i < n, Function.update queues n q i = some i := by
        intro q i hi
        rw [Function.update_of_ne (Nat.ne_of_lt hi), hq i hi]
      unfold createServerQueues
      simp only [h]
      cases hcreate : create n with
      | false =>
        have hfrees := destroyNQueues_frees _ n (hkept none)
        exact ⟨_, _, (htouch.append hfrees.2).mono hsub,
          Or.inr ⟨⟨n, Nat.lt_succ_self n, hcreate⟩, hholds.exit hfrees, rfl⟩⟩
      | true =>
        refine ⟨_, _, ?_, Or.inl ⟨Nat.forall_lt_succ_right.mpr ⟨hall, hcreate⟩, ?_, ?_, rfl⟩⟩
        · rw [queuesBelow_succ]
          exact htouch.snoc (.acquire (.queue n))
        · intro i hi
          rcases Nat.lt_succ_iff_lt_or_eq.mp hi with hlt | rfl
          · exact hkept _ i hlt
          · exact Function.update_self _ _ _
        · rw [queuesBelow_succ]
          exact hholds.acquire htouch (Nat.lt_irrefl n)
    · unfold createServerQueues
      simp only [h]
      exact ⟨queues, tr, htouch.mono hsub,
        Or.inr ⟨⟨i, Nat.lt_succ_of_lt hi, hfail⟩, honce, rfl⟩⟩

end SensorSimulator
