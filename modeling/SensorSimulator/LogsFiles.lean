import SensorSimulator.Common
import SensorSimulator.Lib.Resources
import Mathlib.Logic.Function.Basic

/-!
# common.c: the log files, opened and closed

* `Resource`          what the two programs acquire on their way;
* `LogsFiles`         the table of `logs_file_s`, `NULL` being `none`;
* `openLogsFiles`     `_open_logs_files`, `openLogsFile` the body of its loop;
* `closeNLogsFiles`   `_close_n_logs_files`, `closeLogsFile` the body of its loop.

Each of them gives its status, the table behind it and the events in between.  `openLogsFiles_spec`
and `closeNLogsFiles_spec` say what a run of them holds and frees.
-/

namespace SensorSimulator
open Resources

/-! ## resources -/

/-- the parsed arguments, the socket, the address list of `getaddrinfo`; a log file, its name and a
queue are told apart by the turn of the loop that acquired them -/
inductive Resource where
  | args
  | socket
  | addrinfo
  | file (i : Nat)
  | filename (i : Nat)
  | queue (i : Nat)
  deriving DecidableEq

abbrev Trace := List (Event Resource)

/-- a log file or a file name of the first `n` turns -/
def Resource.logBelow (n : Nat) : Resource → Prop
  | .file i | .filename i => i < n
  | _ => False

def logsBelow (n : Nat) : Set Resource := {r | r.logBelow n}

@[simp] theorem mem_logsBelow (n : Nat) (r : Resource) : r ∈ logsBelow n ↔ r.logBelow n := Iff.rfl

theorem logsBelow_mono {m n : Nat} (h : m ≤ n) : logsBelow m ⊆ logsBelow n := by
  intro r hr
  cases r with
  | file i => exact Nat.lt_of_lt_of_le hr h
  | filename i => exact Nat.lt_of_lt_of_le hr h
  | _ => exact hr

theorem logsBelow_zero : logsBelow 0 = ∅ := by
  ext r
  cases r <;> simp [Resource.logBelow]

theorem logsBelow_succ (n : Nat) :
    logsBelow (n + 1) = logsBelow n ∪ {.filename n} ∪ {.file n} := by
  ext r
  cases r <;> simp [Resource.logBelow]
  all_goals omega

/-! ## the table -/

/-- `logs_file_s` -/
structure LogsFile where
  file : Option Nat
  filename : Option Nat
  deriving DecidableEq

abbrev LogsFiles := Nat → LogsFile

def LogsFiles.null : LogsFiles := fun _ => ⟨none, none⟩

def LogsFiles.opened (n : Nat) : LogsFiles := fun i =>
  if i < n then ⟨some i, some i⟩ else ⟨none, none⟩

/-- what the functions of this module come back with -/
structure LogsResult where
  status : Status
  table : Option LogsFiles
  trace : Trace

/-! ## closing -/

/-- the body of the loop of `_close_n_logs_files`: whether `error_flag` is set, the entry, and the
events -/
def closeLogsFile (fclose : Bool) (e : LogsFile) : Bool × LogsFile × Trace :=
  let (error, e, tr) : Bool × LogsFile × Trace :=
    match e.file with
    | some f => (!fclose, { e with file := none }, [.release (.file f)])
    | none => (false, e, [])
  match e.filename with
  | some m => (error, { e with filename := none }, tr ++ [.release (.filename m)])
  | none => (error, e, tr)

/-- the loop, after `n` turns -/
def closeLoop (fclose : Nat → Bool) (t : LogsFiles) : Nat → Bool × LogsFiles × Trace
  | 0 => (false, t, [])
  | i + 1 =>
    let (error, t, tr) := closeLoop fclose t i
    let (error', e, tr') := closeLogsFile (fclose i) (t i)
    (error || error', Function.update t i e, tr ++ tr')

/-- `none` stands for a `NULL` table; `fclose` is what the call for each entry comes back with -/
def closeNLogsFiles (logsFilesFlag : Bool) (logsFile : Option LogsFiles) (n : Nat)
    (fclose : Nat → Bool) : LogsResult :=
  if logsFilesFlag = false then ⟨.success, logsFile, []⟩
  else
    match logsFile with
    | none => ⟨.error, none, []⟩
    | some t =>
      let (error, t, tr) := closeLoop fclose t n
      ⟨if error then .error else .success, some t, tr⟩

/-- `n` is `NUMBER_OF_SENSORS` -/
def closeLogsFiles (n : Nat) (logsFilesFlag : Bool) (logsFile : Option LogsFiles)
    (fclose : Nat → Bool) : LogsResult :=
  closeNLogsFiles logsFilesFlag logsFile n fclose

/-! ## opening -/

/-- what the calls of `_open_logs_files` come back with in each turn of its loop: the first
`snprintf`, `calloc`, `fopen`, and the `fclose` of each entry when the loop gives up -/
structure OpenOutcomes where
  snprintf : Nat → Int
  calloc : Nat → Bool
  fopen : Nat → Bool
  fclose : Nat → Bool

/-- no call of the turn fails -/
def OpenOutcomes.opens (out : OpenOutcomes) (i : Nat) : Prop :=
  0 < out.snprintf i ∧ out.calloc i = true ∧ out.fopen i = true

/-- the body of the loop of `_open_logs_files`; the second `snprintf`, which nobody asks, writes the
text of the name -/
def openLogsFile (out : OpenOutcomes) (i : Nat) (t : LogsFiles) : LogsResult :=
  if out.snprintf i ≤ 0 then
    let r := closeNLogsFiles true (some t) i out.fclose
    ⟨.error, r.table, r.trace⟩
  else
    let filename := if out.calloc i then some i else none
    let t := Function.update t i { t i with filename := filename }
    match filename with
    | none =>
      let r := closeNLogsFiles true (some t) i out.fclose
      ⟨.error, r.table, r.trace⟩
    | some m =>
      let file := if out.fopen i then some i else none
      let t := Function.update t i { t i with file := file }
      match file with
      | none =>
        let r := closeNLogsFiles true (some t) i out.fclose
        -- the name of this turn is not among the entries that have been closed
        match r.table with
        | none => ⟨.error, none, .acquire (.filename m) :: r.trace⟩
        | some t =>
          match (t i).filename with
          | some m' =>
            ⟨.error, some (Function.update t i { t i with filename := none }),
              .acquire (.filename m) :: (r.trace ++ [.release (.filename m')])⟩
          | none => ⟨.error, some t, .acquire (.filename m) :: r.trace⟩
      | some f => ⟨.success, some t, [.acquire (.filename m), .acquire (.file f)]⟩

/-- the loop, after `n` turns or when one of them has returned -/
def openLoop (out : OpenOutcomes) (t : LogsFiles) : Nat → LogsResult
  | 0 => ⟨.success, some t, []⟩
  | i + 1 =>
    match openLoop out t i with
    | ⟨.success, some t, tr⟩ =>
      let r := openLogsFile out i t
      { r with trace := tr ++ r.trace }
    | r => r

def openLogsFiles (n : Nat) (logsFilesFlag : Bool) (logsFile : Option LogsFiles)
    (format : Option String) (out : OpenOutcomes) : LogsResult :=
  if logsFilesFlag = false then ⟨.success, logsFile, []⟩
  else
    match logsFile with
    | none => ⟨.error, none, []⟩
    | some t =>
      match format with
      | none => ⟨.error, some t, []⟩
      | some _ => openLoop out t n

def openServerLogsFiles (n : Nat) (logsFilesFlag : Bool) (logsFile : Option LogsFiles)
    (out : OpenOutcomes) : LogsResult :=
  openLogsFiles n logsFilesFlag logsFile (some "logs/srv/sensor_%u_server_logs.txt") out

def openClientLogsFiles (n : Nat) (logsFilesFlag : Bool) (logsFile : Option LogsFiles)
    (out : OpenOutcomes) : LogsResult :=
  openLogsFiles n logsFilesFlag logsFile (some "logs/cli/sensor_%u_client_logs.txt") out

/-! ## what closing does -/

theorem closeLogsFile_eq (fclose : Bool) (e : LogsFile) :
    closeLogsFile fclose e = (e.file.isSome && !fclose, ⟨none, none⟩,
      e.file.toList.map (fun f => .release (.file f)) ++
        e.filename.toList.map fun m => .release (.filename m)) := by
  obtain ⟨file, filename⟩ := e
  cases file <;> cases filename <;> rfl

/-- open entries are closed, each file and each name once, and the flag is set if an `fclose`
fails -/
theorem closeLoop_opened (fclose : Nat → Bool) (t : LogsFiles) (n : Nat)
    (ht : ∀ i < n, t i = ⟨some i, some i⟩) :
    let r := closeLoop fclose t n
    (r.1 = true ↔ ∃ i < n, fclose i = false) ∧
    (∀ i, r.2.1 i = if i < n then ⟨none, none⟩ else t i) ∧
    Frees (logsBelow n) r.2.2 := by
  induction n with
  | zero =>
    refine ⟨by simp [closeLoop], fun i => rfl, ?_⟩
    rw [logsBelow_zero]
    exact Frees.nil
  | succ n ih =>
    obtain ⟨herror, htable, hfrees⟩ := ih fun i hi => ht i (Nat.lt_succ_of_lt hi)
    have hentry : (closeLoop fclose t n).2.1 n = ⟨some n, some n⟩ := by
      rw [htable, if_neg (Nat.lt_irrefl n), ht n (Nat.lt_succ_self n)]
    unfold closeLoop
    simp only [closeLogsFile_eq, hentry]
    refine ⟨?_, ?_, ?_⟩
    · rw [Bool.or_eq_true, herror, Nat.exists_lt_succ_right]
      simp only [Option.isSome_some, Bool.true_and, Bool.not_eq_true']
    · intro i
      by_cases hi : i = n
      · rw [hi, Function.update_self, if_pos (Nat.lt_succ_self n)]
      · rw [Function.update_of_ne hi, htable]
        exact if_congr (by omega) rfl rfl
    · rw [logsBelow_succ, Set.union_right_comm]
      show Frees _ (_ ++ ([Event.release (Resource.file n)] ++ [Event.release (Resource.filename n)]))
      rw [← List.append_assoc]
      exact (hfrees.snoc (by simp [Resource.logBelow])).snoc (by simp [Resource.logBelow])

theorem closeLoop_null (fclose : Nat → Bool) (t : LogsFiles) (n : Nat)
    (ht : ∀ i < n, t i = ⟨none, none⟩) : closeLoop fclose t n = (false, t, []) := by
  induction n with
  | zero => rfl
  | succ n ih =>
    have hn := ht n (Nat.lt_succ_self n)
    unfold closeLoop
    rw [ih fun i hi => ht i (Nat.lt_succ_of_lt hi)]
    simp only [closeLogsFile_eq, hn]
    rw [← hn, Function.update_eq_self]
    rfl

theorem closeNLogsFiles_spec (fclose : Nat → Bool) (t : LogsFiles) (n : Nat)
    (ht : ∀ i < n, t i = ⟨some i, some i⟩) :
    ∃ status tr, closeNLogsFiles true (some t) n fclose =
        ⟨status, some fun i => if i < n then ⟨none, none⟩ else t i, tr⟩ ∧
      (status = .error ↔ ∃ i < n, fclose i = false) ∧ Frees (logsBelow n) tr := by
  obtain ⟨herror, htable, hfrees⟩ := closeLoop_opened fclose t n ht
  refine ⟨if (closeLoop fclose t n).1 then .error else .success, _, ?_, ?_, hfrees⟩
  · show LogsResult.mk _ (some (closeLoop fclose t n).2.1) _ = _
    rw [funext htable]
  · rw [← herror]
    cases (closeLoop fclose t n).1 <;> simp

/-! ## what opening does -/

theorem opened_below {i j : Nat} (h : j < i) : LogsFiles.opened i j = ⟨some j, some j⟩ := if_pos h

theorem opened_self (i : Nat) : LogsFiles.opened i i = ⟨none, none⟩ := if_neg (Nat.lt_irrefl i)

/-- the entries below `i` are closed again, whatever the turn has stored in entry `i` -/
theorem rollback_spec (out : OpenOutcomes) (i : Nat) (e : LogsFile) :
    ∃ status tr, closeNLogsFiles true (some (Function.update (LogsFiles.opened i) i e)) i
        out.fclose = ⟨status, some (Function.update LogsFiles.null i e), tr⟩ ∧
      Frees (logsBelow i) tr := by
  obtain ⟨status, tr, h, -, hfrees⟩ := closeNLogsFiles_spec out.fclose
    (Function.update (LogsFiles.opened i) i e) i fun j hj => by
      rw [Function.update_of_ne (Nat.ne_of_lt hj), opened_below hj]
  refine ⟨status, tr, ?_, hfrees⟩
  rw [h]
  congr 2
  funext j
  by_cases hj : j = i
  · rw [hj, if_neg (Nat.lt_irrefl i), Function.update_self, Function.update_self]
  · rw [Function.update_of_ne hj, Function.update_of_ne hj]
    unfold LogsFiles.opened LogsFiles.null
    split_ifs <;> rfl

/-- a turn that fails leaves nothing of the turns before it, nor of its own -/
theorem openLogsFile_spec (out : OpenOutcomes) (i : Nat) :
    (out.opens i ∧ openLogsFile out i (LogsFiles.opened i) =
      ⟨.success, some (LogsFiles.opened (i + 1)), [.acquire (.filename i), .acquire (.file i)]⟩) ∨
    (¬ out.opens i ∧ ∃ own tr, openLogsFile out i (LogsFiles.opened i) =
        ⟨.error, some LogsFiles.null, own ++ tr⟩ ∧
      ((own = [] ∧ Frees (logsBelow i) tr) ∨
        (own = [.acquire (.filename i)] ∧ Frees (logsBelow i ∪ {.filename i}) tr))) := by
  have hnull : Function.update LogsFiles.null i ⟨none, none⟩ = LogsFiles.null :=
    Function.update_eq_self i _
  unfold openLogsFile OpenOutcomes.opens
  by_cases hsize : out.snprintf i ≤ 0
  · right
    obtain ⟨status, tr, h, hfrees⟩ := rollback_spec out i ⟨none, none⟩
    rw [← opened_self i, Function.update_eq_self, opened_self, hnull] at h
    rw [if_pos hsize, h]
    exact ⟨fun hopens => absurd hopens.1 (by omega), [], tr, rfl, Or.inl ⟨rfl, hfrees⟩⟩
  · rw [if_neg hsize]
    cases hcalloc : out.calloc i with
    | false =>
      right
      obtain ⟨status, tr, h, hfrees⟩ := rollback_spec out i ⟨none, none⟩
      refine ⟨by simp, [], tr, ?_, Or.inl ⟨rfl, hfrees⟩⟩
      simp [opened_self, h, hnull]
    | true =>
      cases hfopen : out.fopen i with
      | false =>
        right
        obtain ⟨status, tr, h, hfrees⟩ := rollback_spec out i ⟨none, some i⟩
        refine ⟨by simp, [.acquire (.filename i)], tr ++ [.release (.filename i)], ?_,
          Or.inr ⟨rfl, ?_⟩⟩
        · simp [opened_self, h, hnull]
        · exact hfrees.snoc (by simp [Resource.logBelow])
      | true =>
        left
        refine ⟨⟨by omega, rfl, rfl⟩, ?_⟩
        have htable : Function.update (LogsFiles.opened i) i ⟨some i, some i⟩ =
            LogsFiles.opened (i + 1) := by
          funext j
          by_cases hj : j = i
          · rw [hj, Function.update_self, opened_below (Nat.lt_succ_self i)]
          · rw [Function.update_of_ne hj]
            exact if_congr (by omega) rfl rfl
        simp [htable]

/-- the loop opens all `n` entries, or it gives up and holds nothing -/
theorem openLoop_spec (out : OpenOutcomes) (n : Nat) :
    ∃ tr, Touches (logsBelow n) tr ∧
      (((∀ i < n, out.opens i) ∧ Holds (logsBelow n) tr ∧
          openLoop out .null n = ⟨.success, some (LogsFiles.opened n), tr⟩) ∨
        ((∃ i < n, ¬ out.opens i) ∧ ReleasedOnce tr ∧
          openLoop out .null n = ⟨.error, some LogsFiles.null, tr⟩)) := by
  induction n with
  | zero =>
    refine ⟨[], Touches.nil _, Or.inl ⟨fun i hi => absurd hi (Nat.not_lt_zero i), ?_, rfl⟩⟩
    rw [logsBelow_zero]
    exact Holds.nil
  | succ n ih =>
    have hsub : logsBelow n ⊆ logsBelow (n + 1) := logsBelow_mono (Nat.le_succ n)
    have hname : Resource.filename n ∉ logsBelow n := Nat.lt_irrefl n
    have hfile : Resource.file n ∉ logsBelow n ∪ {.filename n} := by simp [Resource.logBelow]
    obtain ⟨tr, htouch, ⟨hopens, hholds, hloop⟩ | ⟨⟨i, hi, hfail⟩, honce, hloop⟩⟩ := ih
    · unfold openLoop
      simp only [hloop]
      -- behind the `calloc` of this turn
      have hholds' := hholds.acquire htouch hname
      have htouch' := htouch.snoc (.acquire (.filename n))
      have hsub' : logsBelow n ∪ {.filename n} ⊆ logsBelow (n + 1) := by
        rw [logsBelow_succ]
        exact Set.subset_union_left
      rcases openLogsFile_spec out n with ⟨hturn, h⟩ | ⟨hturn, own, tr', h, hcase⟩
      · refine ⟨tr ++ [.acquire (.filename n)] ++ [.acquire (.file n)], ?_, Or.inl ⟨?_, ?_, ?_⟩⟩
        · rw [logsBelow_succ]
          exact htouch'.snoc (.acquire (.file n))
        · intro i hi
          rcases Nat.lt_succ_iff_lt_or_eq.mp hi with hlt | rfl
          · exact hopens i hlt
          · exact hturn
        · rw [logsBelow_succ]
          exact hholds'.acquire htouch' hfile
        · rw [h, List.append_assoc]
          rfl
      · refine ⟨tr ++ own ++ tr', ?_, Or.inr ⟨⟨n, Nat.lt_succ_self n, hturn⟩, ?_, ?_⟩⟩
        · rcases hcase with ⟨rfl, hfrees⟩ | ⟨rfl, hfrees⟩
          · rw [List.append_nil]
            exact (htouch.append hfrees.2).mono hsub
          · exact (htouch'.append hfrees.2).mono hsub'
        · rcases hcase with ⟨rfl, hfrees⟩ | ⟨rfl, hfrees⟩
          · rw [List.append_nil]
            exact hholds.exit hfrees
          · exact hholds'.exit hfrees
        · rw [h, List.append_assoc]
    · unfold openLoop
      simp only [hloop]
      exact ⟨tr, htouch.mono hsub, Or.inr ⟨⟨i, Nat.lt_succ_of_lt hi, hfail⟩, honce, rfl⟩⟩

theorem openLogsFiles_spec (out : OpenOutcomes) (n : Nat) (format : String) :
    ∃ tr, Touches (logsBelow n) tr ∧
      (((∀ i < n, out.opens i) ∧ Holds (logsBelow n) tr ∧
          openLogsFiles n true (some .null) (some format) out =
            ⟨.success, some (LogsFiles.opened n), tr⟩) ∨
        ((∃ i < n, ¬ out.opens i) ∧ ReleasedOnce tr ∧
          openLogsFiles n true (some .null) (some format) out =
            ⟨.error, some LogsFiles.null, tr⟩)) :=
  openLoop_spec out n

theorem closeLogsFiles_opened (n : Nat) (fclose : Nat → Bool) :
    ∃ status tr, closeLogsFiles n true (some (LogsFiles.opened n)) fclose =
        ⟨status, some LogsFiles.null, tr⟩ ∧
      (status = .error ↔ ∃ i < n, fclose i = false) ∧ Frees (logsBelow n) tr := by
  obtain ⟨status, tr, h, hstatus⟩ := closeNLogsFiles_spec fclose (LogsFiles.opened n) n
    fun i hi => opened_below hi
  refine ⟨status, tr, ?_, hstatus⟩
  unfold closeLogsFiles
  rw [h]
  congr 2
  funext i
  unfold LogsFiles.opened LogsFiles.null
  split_ifs <;> rfl

theorem closeLogsFiles_null (n : Nat) (fclose : Nat → Bool) :
    closeLogsFiles n true (some .null) fclose = ⟨.success, some LogsFiles.null, []⟩ := by
  unfold closeLogsFiles closeNLogsFiles
  simp only [closeLoop_null fclose LogsFiles.null n fun _ _ => rfl]
  rfl

/-- what is held behind a successful open -/
def logsHeld (logsFilesFlag : Bool) (n : Nat) : Set Resource :=
  {r | logsFilesFlag = true ∧ r.logBelow n}

@[simp] theorem mem_logsHeld (flag : Bool) (n : Nat) (r : Resource) :
    r ∈ logsHeld flag n ↔ flag = true ∧ r.logBelow n := Iff.rfl

theorem logsHeld_subset (flag : Bool) (n : Nat) : logsHeld flag n ⊆ logsBelow n := fun _ h => h.2

/-- the two functions as a caller with either flag sees them: the open holds what the close frees,
or it has failed and holds nothing -/
theorem logsFiles_contract (flag : Bool) (n : Nat) (format : String) (out : OpenOutcomes) :
    ∃ t tr, Touches (logsBelow n) tr ∧
      (((flag = true → (∀ i < n, out.opens i) ∧ t = some (LogsFiles.opened n)) ∧
          Holds (logsHeld flag n) tr ∧
          openLogsFiles n flag (some .null) (some format) out = ⟨.success, t, tr⟩ ∧
          ∀ fclose, Frees (logsHeld flag n) (closeLogsFiles n flag t fclose).trace ∧
            ((closeLogsFiles n flag t fclose).status = .error ↔
              flag = true ∧ ∃ i < n, fclose i = false)) ∨
        ((flag = true ∧ ∃ i < n, ¬ out.opens i) ∧ ReleasedOnce tr ∧
          openLogsFiles n flag (some .null) (some format) out = ⟨.error, t, tr⟩)) := by
  cases flag with
  | false =>
    have hnone : logsHeld false n = ∅ := by
      ext r
      simp
    refine ⟨some .null, [], Touches.nil _, Or.inl ⟨nofun, ?_, rfl, fun fclose => ⟨?_, ?_⟩⟩⟩
    · rw [hnone]
      exact Holds.nil
    · rw [hnone]
      exact Frees.nil
    · exact ⟨nofun, fun h => nomatch h.1⟩
  | true =>
    have hall : logsHeld true n = logsBelow n := by
      ext r
      simp
    rw [hall]
    obtain ⟨tr, htouch, ⟨hopens, hholds, h⟩ | ⟨hfail, honce, h⟩⟩ := openLogsFiles_spec out n format
    · refine ⟨_, tr, htouch, Or.inl ⟨fun _ => ⟨hopens, rfl⟩, hholds, h, fun fclose => ?_⟩⟩
      obtain ⟨status, tr', hclose, hstatus, hfrees⟩ := closeLogsFiles_opened n fclose
      rw [hclose]
      exact ⟨hfrees, by simpa using hstatus⟩
    · exact ⟨_, tr, htouch, Or.inr ⟨⟨rfl, hfail⟩, honce, h⟩⟩

/-! ## every sequence of outcomes -/

/-- **Opening is all or nothing, and closing always completes.**  For every number of sensors and
every outcome of each call: an open that fails has closed every file and freed every name once and
leaves the table all-`NULL`; one that succeeds leaves all entries open, and the close behind it
closes and frees all of them once, whatever the `fclose` calls say; a second close does nothing. -/
theorem openLogsFiles_all_or_nothing (n : Nat) (format : String) (out : OpenOutcomes)
    (fclose fclose' : Nat → Bool) :
    let opening := openLogsFiles n true (some LogsFiles.null) (some format) out
    let closing := closeLogsFiles n true opening.table fclose
    (opening.status = .error →
      opening.table = some LogsFiles.null ∧ ReleasedOnce opening.trace) ∧
    (opening.status = .success →
      (∃ t, opening.table = some t ∧ ∀ i < n, ∃ f m, t i = ⟨some f, some m⟩ ∧
        of (.file f) opening.trace = [.acquire (.file f)] ∧
        of (.filename m) opening.trace = [.acquire (.filename m)]) ∧
      closing.table = some LogsFiles.null ∧
      ReleasedOnce (opening.trace ++ closing.trace) ∧
      (closing.status = .error ↔ ∃ i < n, fclose i = false) ∧
      closeLogsFiles n true closing.table fclose' = ⟨.success, closing.table, []⟩) ∧
    ∀ t, openLogsFiles n false t (some format) out = ⟨.success, t, []⟩ ∧
      closeLogsFiles n false t fclose = ⟨.success, t, []⟩ := by
  intro opening closing
  obtain ⟨tr, -, ⟨-, hholds, hopen⟩ | ⟨-, honce, hopen⟩⟩ := openLogsFiles_spec out n format
  · have hopening : opening = ⟨.success, some (LogsFiles.opened n), tr⟩ := hopen
    obtain ⟨status, tr', hclose, hstatus, hfrees⟩ := closeLogsFiles_opened n fclose
    have hclosing : closing = ⟨status, some LogsFiles.null, tr'⟩ := by
      show closeLogsFiles n true opening.table fclose = _
      rw [hopening, hclose]
    refine ⟨fun h => ?_, fun _ => ⟨?_, ?_, ?_, ?_, ?_⟩, fun t => ⟨rfl, rfl⟩⟩
    · rw [hopening] at h
      cases h
    · rw [hopening]
      exact ⟨_, rfl, fun i hi => ⟨i, i, opened_below hi, hholds.keeps _ hi, hholds.keeps _ hi⟩⟩
    · rw [hclosing]
    · rw [hopening, hclosing]
      exact hholds.exit hfrees
    · rw [hclosing]
      exact hstatus
    · rw [hclosing]
      exact closeLogsFiles_null n fclose'
  · have hopening : opening = ⟨.error, some LogsFiles.null, tr⟩ := hopen
    refine ⟨fun _ => ?_, fun h => ?_, fun t => ⟨rfl, rfl⟩⟩
    · rw [hopening]
      exact ⟨rfl, honce⟩
    · rw [hopening] at h
      cases h

end SensorSimulator
