import SensorSimulator.Server.Main
import SensorSimulator.Server.State

/-!
# The exits of the process are those of main

The process of `Server.State` begins at the first `pthread_create` and has a list of releases for
each of its ways out.  `serverMain` is main from its entry on, with what its calls come back with.

* `CleanUp.events`          what an entry of such a list releases;
* `ExitPath.Taken n out`    the way that the calls lead to;
* `serverMain_exitPath`     behind a start-up that holds everything, main releases what the list of
                            the way taken says, in its order.
-/

namespace SensorSimulator
namespace Server
open Resources

variable {n : Nat}

def CleanUp.events : CleanUp n → Trace
  | .cmdlineParserFree => [.release .args]
  | .closeSocket => [.release .socket]
  | .closeLogsFile i => [.release (.file i), .release (.filename i)]
  | .destroyQueue i => [.release (.queue i)]

/-- the thread at which `pthread_create` or `pthread_join` fails is the first -/
def ExitPath.Taken (n : Nat) (out : ServerOutcomes) : ExitPath → Prop
  | .createFailure i => i < n ∧ (∀ j < i, out.threadCreate j = true) ∧ out.threadCreate i = false
  | .joinFailure i => (∀ j < n, out.threadCreate j = true) ∧ i < n ∧
      (∀ j < i, out.join j = true) ∧ out.join i = false
  | .shutDown => (∀ j < n, out.threadCreate j = true) ∧ ∀ j < n, out.join j = true

/-! ## the lists -/

theorem flatMap_finRange {β : Type} (n : Nat) (f : Nat → List β) :
    (List.finRange n).flatMap (fun i : Fin n => f i) = (List.range n).flatMap f := by
  rw [← List.map_coe_finRange_eq_range, List.flatMap_map]

theorem closeLoop_trace (fclose : Nat → Bool) (t : LogsFiles) (n : Nat)
    (ht : ∀ i < n, t i = ⟨some i, some i⟩) : (closeLoop fclose t n).2.2 =
      (List.range n).flatMap fun i => [.release (.file i), .release (.filename i)] := by
  induction n with
  | zero => rfl
  | succ n ih =>
    have ht' : ∀ i < n, t i = ⟨some i, some i⟩ := fun i hi => ht i (Nat.lt_succ_of_lt hi)
    have hentry : (closeLoop fclose t n).2.1 n = ⟨some n, some n⟩ := by
      rw [(closeLoop_opened fclose t n ht').2.1, if_neg (Nat.lt_irrefl n),
        ht n (Nat.lt_succ_self n)]
    unfold closeLoop
    simp only [closeLogsFile_eq, hentry]
    rw [ih ht', List.range_succ, List.flatMap_append, List.flatMap_singleton]
    rfl

theorem closeLogsFiles_events (n : Nat) (flag : Bool) (logsFiles : Option LogsFiles)
    (h : flag = true → logsFiles = some (LogsFiles.opened n)) (fclose : Nat → Bool) :
    (SensorSimulator.closeLogsFiles n flag logsFiles fclose).trace =
      (closeLogsFiles n flag).flatMap CleanUp.events := by
  cases flag with
  | false => rfl
  | true =>
    rw [h rfl]
    show (closeLoop fclose (LogsFiles.opened n) n).2.2 =
      ((List.finRange n).map CleanUp.closeLogsFile).flatMap CleanUp.events
    rw [closeLoop_trace fclose _ n fun i hi => opened_below hi, ← flatMap_finRange,
      List.flatMap_map]
    rfl

theorem destroyServerQueues_events (n : Nat) (queues : Queues) (hq : ∀ i < n, queues i = some i) :
    SensorSimulator.destroyServerQueues n queues =
      (destroyServerQueues n).flatMap CleanUp.events := by
  have hrange : destroyNQueues queues n = (List.range n).flatMap fun i => [.release (.queue i)] := by
    induction n with
    | zero => rfl
    | succ n ih =>
      unfold destroyNQueues
      rw [ih fun i hi => hq i (Nat.lt_succ_of_lt hi), hq n (Nat.lt_succ_self n), List.range_succ,
        List.flatMap_append, List.flatMap_singleton]
      rfl
  show destroyNQueues queues n =
    ((List.finRange n).map CleanUp.destroyQueue).flatMap CleanUp.events
  rw [hrange, ← flatMap_finRange, List.flatMap_map]
  rfl

/-! ## the ways out -/

theorem turns_eq_false (call : Nat → Bool) (n : Nat) (h : turns call n = false) :
    ∃ i < n, (∀ j < i, call j = true) ∧ call i = false := by
  induction n with
  | zero => cases h
  | succ n ih =>
    cases hn : turns call n with
    | false =>
      obtain ⟨i, hi, hbefore, hfail⟩ := ih hn
      exact ⟨i, Nat.lt_succ_of_lt hi, hbefore, hfail⟩
    | true =>
      unfold turns at h
      rw [hn, Bool.true_and] at h
      exact ⟨n, Nat.lt_succ_self n, (turns_eq_true call n).mp hn, h⟩

theorem serverRun_exitPath (n : Nat) (out : ServerOutcomes) (logsFiles : Option LogsFiles)
    (queues : Queues) (hlogs : out.logsFilesFlag = true → logsFiles = some (LogsFiles.opened n))
    (hq : ∀ i < n, queues i = some i) : ∃ path : ExitPath, path.Taken n out ∧
      serverRun n out logsFiles queues =
        (path.releases n out.logsFilesFlag).flatMap CleanUp.events := by
  have hclose := closeLogsFiles_events n out.logsFilesFlag logsFiles hlogs out.fclose
  have hdestroy := destroyServerQueues_events n queues hq
  unfold serverRun
  cases hcreate : turns out.threadCreate n with
  | false =>
    obtain ⟨i, hi⟩ := turns_eq_false _ _ hcreate
    have hstatus : initServerThreads out.threadCreate n ≠ .success := by
      simp [initServerThreads, hcreate]
    refine ⟨.createFailure i, hi, ?_⟩
    rw [if_pos hstatus, hclose, hdestroy]
    simp [ExitPath.releases, CleanUp.events, closeSocket, cmdlineParserFree]
  | true =>
    have hall := (turns_eq_true _ _).mp hcreate
    have hstatus : initServerThreads out.threadCreate n = .success := if_pos hcreate
    rw [if_neg (not_not_intro hstatus), serverShutDown_trace, hclose, hdestroy]
    cases hjoin : turns out.join n with
    | false =>
      obtain ⟨i, hi⟩ := turns_eq_false _ _ hjoin
      refine ⟨.joinFailure i, ⟨hall, hi⟩, ?_⟩
      simp [ExitPath.releases, CleanUp.events]
    | true =>
      refine ⟨.shutDown, ⟨hall, (turns_eq_true _ _).mp hjoin⟩, ?_⟩
      simp [ExitPath.releases, CleanUp.events]

theorem serverMain_exitPath (n : Nat) (out : ServerOutcomes) (h : out.Starts n) :
    ∃ (tr : Trace) (path : ExitPath), Holds (serverHeld n out.logsFilesFlag) tr ∧
      path.Taken n out ∧
      (serverMain n out).2 = tr ++ (path.releases n out.logsFilesFlag).flatMap CleanUp.events := by
  obtain ⟨-, t, queues, tr, hholds, hlogs, hq, -, htrace⟩ | ⟨hnot, -⟩ := serverMain_startUp n out
  case inr => exact absurd h hnot
  obtain ⟨path, htaken, hrun⟩ := serverRun_exitPath n out t queues hlogs hq
  refine ⟨tr, path, hholds, htaken, ?_⟩
  rw [htrace, hrun]

end Server
end SensorSimulator
