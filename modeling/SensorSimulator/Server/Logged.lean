import SensorSimulator.Server.Totals

/-!
# With logging on: the records counted and the lines of the log

A worker counts a record when its log call reports success.  The call reports what
`get_current_time` comes back with; `fprintf` and `fflush` are not asked.

* `LogHistory`          the records that have got a line in the file of a worker, and those added to
                        its `counter` and `sum`, noted along a run;
* `MatchesLog`          they are the same records in the same order;
* `Action.losesLine`    the log call reports success and its line is lost;
* `counters_match_log_iff`   they are the same exactly when no log call of the run loses its line.
-/

namespace SensorSimulator
namespace Server

variable {N : Nat}

/-! ## what is noted -/

structure LogHistory where
  lined : List ProtoSensorData
  added : List ProtoSensorData

def State.recordHeld (cfg : Config) (i : Fin N) (s : State N) : List ProtoSensorData :=
  ((s.lanes i).pc.held.map (recordIn cfg s.heap)).toList

/-- a step that makes the file longer has written a line for the record in the worker's hand, one
that changes the counter has added it -/
def LogHistory.note (cfg : Config) (i : Fin N) (h : LogHistory) (s s' : State N) : LogHistory where
  lined := h.lined ++
    if (s'.lanes i).logsFile.length = (s.lanes i).logsFile.length then [] else s.recordHeld cfg i
  added := h.added ++ if (s'.lanes i).counter = (s.lanes i).counter then [] else s.recordHeld cfg i

section
variable {cfg : Config} {i : Fin N} {s s' : State N}

theorem LogHistory.lined_note (h : LogHistory)
    (hne : (s'.lanes i).logsFile.length ≠ (s.lanes i).logsFile.length) :
    (h.note cfg i s s').lined = h.lined ++ s.recordHeld cfg i := by
  show h.lined ++ (if _ then _ else _) = _
  rw [if_neg hne]

theorem LogHistory.lined_note_same (h : LogHistory)
    (he : (s'.lanes i).logsFile.length = (s.lanes i).logsFile.length) :
    (h.note cfg i s s').lined = h.lined := by
  show h.lined ++ (if _ then _ else _) = _
  rw [if_pos he, List.append_nil]

theorem LogHistory.added_note (h : LogHistory)
    (hne : (s'.lanes i).counter ≠ (s.lanes i).counter) :
    (h.note cfg i s s').added = h.added ++ s.recordHeld cfg i := by
  show h.added ++ (if _ then _ else _) = _
  rw [if_neg hne]

theorem LogHistory.added_note_same (h : LogHistory)
    (he : (s'.lanes i).counter = (s.lanes i).counter) :
    (h.note cfg i s s').added = h.added := by
  show h.added ++ (if _ then _ else _) = _
  rw [if_pos he, List.append_nil]

end

/-- what there is to note of worker `i` in the run of `as` -/
def logHistory (cfg : Config) (i : Fin N) (as : List (Action N)) : LogHistory :=
  Runs.observe (step cfg) (LogHistory.note cfg i) ⟨[], []⟩ (init N) as

/-! ## what should hold -/

/-- the block whose log call is done and which has not been added yet -/
def WorkerPc.toCount : WorkerPc → Option Addr
  | count b => some b
  | _ => none

def State.toCount (cfg : Config) (i : Fin N) (s : State N) : List ProtoSensorData :=
  ((s.lanes i).pc.toCount.map (recordIn cfg s.heap)).toList

/-- `counter` and `sum` are those of the records added, and the file has one line for each record
with a line; these are the records added, but for the one the worker is about to add: when there is
none, the counter is the number of lines modulo 2^32 -/
structure MatchesLog (cfg : Config) (i : Fin N) (s : State N) (h : LogHistory) : Prop where
  counted : (s.lanes i).counter = UInt32.ofNat h.added.length
  summed : (s.lanes i).sum = h.added.foldl (fun sum r => sum + getFloatValue r) 0
  lines : (s.lanes i).logsFile.map (fun l => (l.threadId, l.sensorId, l.value)) =
    h.lined.map fun r => (UInt32.ofNat i, r.hdr.sensorId, floatBits r)
  records : h.lined = h.added ++ s.toCount cfg i
  counter : s.toCount cfg i = [] →
    (s.lanes i).counter = UInt32.ofNat (s.lanes i).logsFile.length

/-- a log call of worker `i` that reports success although its line has not come to the file -/
def Action.losesLine (i : Fin N) : Action N → Bool
  | .worker j (.log out) => decide (j = i) && (out.clock.text.isSome && !out.written)
  | _ => false

/-! ## what a run notes -/

/-- what ties the history to the state and to the actions so far -/
structure Noted (cfg : Config) (i : Fin N) (s : State N) (h : LogHistory) (as : List (Action N)) :
    Prop where
  sublist : h.lined.Sublist (h.added ++ s.toCount cfg i)
  lost : (h.added ++ s.toCount cfg i).length = h.lined.length + as.countP (Action.losesLine i)
  summed : (s.lanes i).summed = h.added.map (·.data)
  lines : (s.lanes i).logsFile.map (fun l => (l.threadId, l.sensorId, l.value)) =
    h.lined.map fun r => (UInt32.ofNat i, r.hdr.sensorId, floatBits r)

/-- what the history reads of a lane -/
structure LogFrame (l l' : Lane) : Prop where
  counter : l'.counter = l.counter
  summed : l'.summed = l.summed
  logsFile : l'.logsFile = l.logsFile
  toCount : l'.pc.toCount = l.pc.toCount

@[simp] theorem WorkerPc.toCount_woken (pc : WorkerPc) : pc.woken.toCount = pc.toCount := by
  cases pc <;> rfl

theorem LogFrame.refl (l : Lane) : LogFrame l l := ⟨rfl, rfl, rfl, rfl⟩

theorem LogFrame.wake (l : Lane) : LogFrame l l.wake :=
  ⟨rfl, rfl, rfl, WorkerPc.toCount_woken l.pc⟩

theorem MainMove.logFrame {cfg : Config} {s s' : State N} {c : MainChoice} (hr : Reachable cfg s)
    (h : MainMove cfg s c s') (i : Fin N) : LogFrame (s.lanes i) (s'.lanes i) := by
  cases h
  case create k hpc hk =>
    have hnew : (s.lanes ⟨k, hk⟩).pc = .notCreated := by
      rw [(hr.lane ⟨k, hk⟩).notCreated_iff, State.view, hpc]
      exact blt_self k
    refine onLane_forall (P := fun j l => LogFrame (s.lanes j) l) s ⟨k, hk⟩
      (fun l => { l with pc := .mask }) ?_ (fun j _ => .refl _) i
    exact ⟨rfl, rfl, rfl, by rw [hnew]; rfl⟩
  case insert b k hpc hfree =>
    exact onLane_forall (P := fun j l => LogFrame (s.lanes j) l) s k
      (fun l => l.insert cfg.lib b (recordIn cfg s.heap b))
      ⟨rfl, rfl, rfl, WorkerPc.toCount_woken _⟩ (fun j _ => .refl _) i
  case broadcast k hpc hk hfree =>
    exact onLane_forall (P := fun j l => LogFrame (s.lanes j) l) s ⟨k, hk⟩ Lane.wake (.wake _)
      (fun j _ => .refl _) i
  case release path op ops hpc =>
    obtain ⟨c, d, hl⟩ := release_lane s op i
    show LogFrame _ ((s.release op).lanes i)
    rw [hl]
    exact ⟨rfl, rfl, rfl, rfl⟩
  all_goals exact .refl _

theorem WorkerMove.logFrame {cfg : Config} (hon : cfg.logsFilesFlag = true) {done : Bool}
    {heap : Addr → PackedData} {id : UInt32} {l l' : Lane} {fr : List Addr}
    (h : WorkerMove cfg done heap id l l' fr) (hlog : ∀ b, l.pc ≠ .log b)
    (hcount : ∀ b, l.pc ≠ .count b) : LogFrame l l' := by
  cases h
  case unlock b hpc =>
    refine ⟨rfl, rfl, rfl, ?_⟩
    dsimp only
    rw [hon, hpc]
    rfl
  case logged b out file hpc h => exact absurd hpc (hlog b)
  case logFails b out hpc h => exact absurd hpc (hlog b)
  case count b hpc => exact absurd hpc (hcount b)
  all_goals
    rename_i hpc
    exact ⟨rfl, rfl, rfl, by simp [WorkerPc.toCount, *]⟩

/-! ## the two steps that are noted -/

theorem handleClient_log_pc {cfg : Config} {done : Bool} {heap : Addr → PackedData} {id : UInt32}
    {l : Lane} {out : LogOutcome} {r : Lane × List Addr}
    (h : handleClient cfg done heap id l (.log out) = some r) : ∃ b, l.pc = .log b := by
  unfold handleClient at h
  cases hpc : l.pc with
  | log b => exact ⟨b, rfl⟩
  | unlock b =>
    rw [hpc] at h
    cases b <;> cases h
  | _ =>
    rw [hpc] at h
    cases h

/-- the log call: success with or without a line, or an error -/
theorem handleClient_logCall {cfg : Config} {done : Bool} {heap : Addr → PackedData} {id : UInt32}
    {l l' : Lane} {c : WorkerChoice} {fr : List Addr} {b : Addr} (hpc : l.pc = .log b)
    (h : handleClient cfg done heap id l c = some (l', fr)) :
    ∃ out, c = .log out ∧
      ((∃ line, line.threadId = id ∧ line.sensorId = (recordIn cfg heap b).hdr.sensorId ∧
          line.value = floatBits (recordIn cfg heap b) ∧ out.clock.text.isSome = true ∧
          l' = { l with logsFile := if out.written then l.logsFile ++ [line] else l.logsFile
                        pc := .count b }) ∨
        (out.clock.text.isSome = false ∧ l' = { l with pc := .free b })) := by
  unfold handleClient at h
  rw [hpc] at h
  cases c with
  | log out =>
    refine ⟨out, rfl, ?_⟩
    dsimp only at h
    unfold logServerSensorData at h
    rw [logSensorData_some] at h
    cases ht : out.clock.text with
    | none =>
      rw [ht] at h
      cases h
      exact Or.inr ⟨rfl, rfl⟩
    | some time =>
      rw [ht] at h
      cases h
      exact Or.inl ⟨_, rfl, rfl, rfl, rfl, rfl⟩
  | _ => cases h

/-! ## one step -/

theorem State.toCount_eq {cfg : Config} {i : Fin N} {s : State N} {pc : WorkerPc}
    (h : (s.lanes i).pc = pc) :
    s.toCount cfg i = (pc.toCount.map (recordIn cfg s.heap)).toList := by
  rw [State.toCount, h]

theorem State.recordHeld_eq {cfg : Config} {i : Fin N} {s : State N} {pc : WorkerPc}
    (h : (s.lanes i).pc = pc) :
    s.recordHeld cfg i = (pc.held.map (recordIn cfg s.heap)).toList := by
  rw [State.recordHeld, h]

theorem LogFrame.toCount_eq {cfg : Config} {s s' : State N} {a : Action N} {i : Fin N}
    (h : LogFrame (s.lanes i) (s'.lanes i)) (hr : Reachable cfg s) (hm : Move cfg s a s') :
    s'.toCount cfg i = s.toCount cfg i := by
  unfold State.toCount
  rw [h.toCount]
  cases hc : (s.lanes i).pc.toCount with
  | none => rfl
  | some b =>
    have hpc : (s.lanes i).pc = .count b := by
      cases hpc : (s.lanes i).pc <;> rw [hpc] at hc <;> cases hc
      rfl
    have hmem : b ∈ (s.lanes i).blocks := by
      apply List.mem_append_right
      rw [hpc]
      exact List.mem_singleton_self b
    have hheap := hr.record_kept hm i b hmem
    unfold Option.map recordIn
    rw [hheap]

/-- where the history sees nothing, nothing is noted -/
theorem Noted.frame {cfg : Config} {i : Fin N} {s s' : State N} {h : LogHistory}
    {as : List (Action N)} {a : Action N} (hs : Noted cfg i s h as)
    (hf : LogFrame (s.lanes i) (s'.lanes i)) (hr : Reachable cfg s) (hm : Move cfg s a s')
    (ha : a.losesLine i = false) : Noted cfg i s' (h.note cfg i s s') (as ++ [a]) := by
  have hlined : (h.note cfg i s s').lined = h.lined := h.lined_note_same (by rw [hf.logsFile])
  have hadded : (h.note cfg i s s').added = h.added := h.added_note_same hf.counter
  constructor
  · rw [hlined, hadded, hf.toCount_eq hr hm]
    exact hs.sublist
  · rw [hlined, hadded, hf.toCount_eq hr hm, hs.lost, List.countP_append, List.countP_singleton,
      ha]
    rfl
  · rw [hadded, hf.summed]
    exact hs.summed
  · rw [hlined, hf.logsFile]
    exact hs.lines

/-- a log call that reports success: a record is about to be counted, with or without its line -/
theorem Noted.logged {cfg : Config} {i : Fin N} {s s' : State N} {h : LogHistory}
    {as : List (Action N)} {out : LogOutcome} {b : Addr} {line : LogLine}
    (hs : Noted cfg i s h as) (hpc : (s.lanes i).pc = .log b)
    (htext : out.clock.text.isSome = true) (hheap : s'.heap = s.heap)
    (hline : (line.threadId, line.sensorId, line.value) = (UInt32.ofNat i,
      (recordIn cfg s.heap b).hdr.sensorId, floatBits (recordIn cfg s.heap b)))
    (hlane : s'.lanes i = { s.lanes i with
      logsFile := if out.written then (s.lanes i).logsFile ++ [line] else (s.lanes i).logsFile
      pc := .count b }) :
    Noted cfg i s' (h.note cfg i s s') (as ++ [.worker i (.log out)]) := by
  have hbefore : s.toCount cfg i = [] := State.toCount_eq hpc
  have hcount : (s'.lanes i).pc = .count b := by rw [hlane]
  have hafter : s'.toCount cfg i = [recordIn cfg s.heap b] := by
    rw [State.toCount_eq hcount, hheap]
    rfl
  have hhand : s.recordHeld cfg i = [recordIn cfg s.heap b] := State.recordHeld_eq hpc
  have hadded : (h.note cfg i s s').added = h.added := h.added_note_same (by rw [hlane])
  have hlost := hs.lost
  have hsub := hs.sublist
  rw [hbefore, List.append_nil] at hlost hsub
  cases hw : out.written with
  | true =>
    have hfile : (s'.lanes i).logsFile = (s.lanes i).logsFile ++ [line] := by
      rw [hlane, hw]
      rfl
    have hlined : (h.note cfg i s s').lined = h.lined ++ [recordIn cfg s.heap b] := by
      rw [← hhand]
      exact h.lined_note (by rw [hfile]; simp)
    constructor
    · rw [hlined, hadded, hafter]
      exact hsub.append (List.Sublist.refl _)
    · rw [hlined, hadded, hafter]
      simp [Action.losesLine, htext, hw, hlost]
      omega
    · rw [hadded, hlane]
      exact hs.summed
    · rw [hlined, hfile, List.map_append, List.map_append, hs.lines, List.map_singleton, hline]
      rfl
  | false =>
    have hfile : (s'.lanes i).logsFile = (s.lanes i).logsFile := by
      rw [hlane, hw]
      rfl
    have hlined : (h.note cfg i s s').lined = h.lined := h.lined_note_same (by rw [hfile])
    constructor
    · rw [hlined, hadded, hafter]
      exact hsub.trans (List.sublist_append_left _ _)
    · rw [hlined, hadded, hafter]
      simp [Action.losesLine, htext, hw, hlost]
      omega
    · rw [hadded, hlane]
      exact hs.summed
    · rw [hlined, hfile]
      exact hs.lines

theorem Noted.counted {cfg : Config} {i : Fin N} {s s' : State N} {h : LogHistory}
    {as : List (Action N)} {a : Action N} {b : Addr} (hs : Noted cfg i s h as)
    (hpc : (s.lanes i).pc = .count b) (ha : a.losesLine i = false)
    (hcounter : (s'.lanes i).counter = (s.lanes i).counter + 1)
    (hsummed : (s'.lanes i).summed = (s.lanes i).summed ++ [(recordIn cfg s.heap b).data])
    (hfile : (s'.lanes i).logsFile = (s.lanes i).logsFile) (hfree : (s'.lanes i).pc = .free b) :
    Noted cfg i s' (h.note cfg i s s') (as ++ [a]) := by
  have hbefore : s.toCount cfg i = [recordIn cfg s.heap b] := State.toCount_eq hpc
  have hafter : s'.toCount cfg i = [] := State.toCount_eq hfree
  have hhand : s.recordHeld cfg i = [recordIn cfg s.heap b] := State.recordHeld_eq hpc
  have hne : (s'.lanes i).counter ≠ (s.lanes i).counter := by
    rw [hcounter]
    intro he
    have hnat := congrArg UInt32.toNat he
    rw [UInt32.toNat_add] at hnat
    have h1 : (1 : UInt32).toNat = 1 := rfl
    omega
  have hadded : (h.note cfg i s s').added = h.added ++ [recordIn cfg s.heap b] := by
    rw [← hhand]
    exact h.added_note hne
  have hlined : (h.note cfg i s s').lined = h.lined := h.lined_note_same (by rw [hfile])
  have hsub := hs.sublist
  have hlost := hs.lost
  rw [hbefore] at hsub hlost
  constructor
  · rw [hadded, hlined, hafter, List.append_nil]
    exact hsub
  · rw [hadded, hlined, hafter, List.append_nil, hlost, List.countP_append, List.countP_singleton,
      ha]
    rfl
  · rw [hadded, hsummed, hs.summed, List.map_append]
    rfl
  · rw [hlined, hfile]
    exact hs.lines

theorem Noted.worker {cfg : Config} (hon : cfg.logsFilesFlag = true) {i : Fin N}
    {s s' : State N} {h : LogHistory} {as : List (Action N)} {c : WorkerChoice} {l : Lane}
    {fr : List Addr} (hr : Reachable cfg s) (hs : Noted cfg i s h as)
    (hm : Move cfg s (.worker i c) s')
    (hc : handleClient cfg s.done s.heap (UInt32.ofNat i) (s.lanes i) c = some (l, fr))
    (hlane : s'.lanes i = l) (hheap : s'.heap = s.heap) :
    Noted cfg i s' (h.note cfg i s s') (as ++ [.worker i c]) := by
  have hw := handleClient_move hc
  by_cases hlog : ∃ b, (s.lanes i).pc = .log b
  · obtain ⟨b, hpc⟩ := hlog
    obtain ⟨out, rfl, ⟨line, hid, hsensor, hvalue, htext, hl⟩ | ⟨htext, hl⟩⟩ :=
      handleClient_logCall hpc hc
    · exact hs.logged hpc htext hheap (by rw [hid, hsensor, hvalue]) (hlane.trans hl)
    · -- the error leaves counter, sum and file alone
      refine hs.frame ?_ hr hm ?_
      · rw [hlane, hl]
        exact ⟨rfl, rfl, rfl, by rw [hpc]; rfl⟩
      · simp [Action.losesLine, htext]
  · have hnolog : ∀ out, c ≠ .log out := by
      intro out he
      rw [he] at hc
      exact hlog (handleClient_log_pc hc)
    have ha : (Action.worker i c).losesLine i = false := by
      cases c with
      | log out => exact absurd rfl (hnolog out)
      | _ => rfl
    by_cases hcount : ∃ b, (s.lanes i).pc = .count b
    · obtain ⟨b, hpc⟩ := hcount
      have hl : l = { s.lanes i with
          counter := (s.lanes i).counter + 1
          sum := (s.lanes i).sum + getFloatValue (recordIn cfg s.heap b)
          summed := (s.lanes i).summed ++ [(recordIn cfg s.heap b).data]
          pc := .free b } := by
        cases hw
        case count b' hpc' =>
          cases hpc.symm.trans hpc'
          rfl
        all_goals exact WorkerPc.noConfusion (hpc.symm.trans ‹_›)
      exact hs.counted hpc ha (by rw [hlane, hl]) (by rw [hlane, hl]) (by rw [hlane, hl])
        (by rw [hlane, hl])
    · refine hs.frame ?_ hr hm ha
      rw [hlane]
      exact hw.logFrame hon (fun b hb => hlog ⟨b, hb⟩) (fun b hb => hcount ⟨b, hb⟩)

theorem Noted.step {cfg : Config} (hon : cfg.logsFilesFlag = true) {i : Fin N} {s s' : State N}
    {h : LogHistory} {as : List (Action N)} {a : Action N} (hr : Reachable cfg s)
    (hs : Noted cfg i s h as) (hstep : step cfg s a = some s') :
    Noted cfg i s' (h.note cfg i s s') (as ++ [a]) := by
  have hm := step_move hstep
  cases a with
  | main c =>
    cases hm with
    | main _ _ hmain => exact hs.frame (hmain.logFrame hr i) hr (.main c s' hmain) rfl
  | worker j c =>
    unfold Server.step at hstep
    split at hstep
    · cases hstep
    · obtain ⟨⟨l, fr⟩, hc, rfl⟩ := Option.map_eq_some_iff.mp hstep
      by_cases hj : j = i
      · subst hj
        exact hs.worker hon hr hm hc (onLane_self s j (fun _ => l)) rfl
      · refine hs.frame ?_ hr hm ?_
        · show LogFrame (s.lanes i) ((s.onLane j fun _ => l).lanes i)
          rw [onLane_of_ne s j i _ (Ne.symm hj)]
          exact .refl _
        · cases c with
          | log out => simp [Action.losesLine, hj]
          | _ => rfl
  | wake j =>
    refine hs.frame ?_ hr hm rfl
    cases hm with
    | wake _ hpc =>
      exact onLane_forall (P := fun k l => LogFrame (s.lanes k) l) s j Lane.wake (.wake _)
        (fun k _ => .refl _) i
  | arrive d =>
    cases hm
    exact hs.frame (.refl _) hr (.arrive d) rfl
  | signal sig t =>
    cases hm with
    | signal _ _ ht => exact hs.frame (.refl _) hr (.signal sig t ht) rfl

/-! ## runs -/

theorem logHistory_noted {cfg : Config} (hon : cfg.logsFilesFlag = true) {s : State N} {as : List (Action N)}
    (h : Runs.exec (step cfg) (init N) as = some s) (i : Fin N) :
    Noted cfg i s (logHistory cfg i as) as := by
  have hinit : Noted cfg i (init N) ⟨[], []⟩ [] := ⟨.slnil, rfl, rfl, rfl⟩
  show Noted cfg i s (logHistory cfg i as) ([] ++ as)
  exact Runs.observe_invariant (J := Reachable cfg) (I := Noted cfg i)
    (fun s a s' hr hs => hr.after hs)
    (fun s h before a s' hr hs hstep => hs.step hon hr hstep) h ⟨[], rfl⟩ hinit

theorem losesLine_never {i : Fin N} {as : List (Action N)} :
    as.countP (Action.losesLine i) = 0 ↔
      ∀ out, Action.worker i (.log out) ∈ as → out.clock.text.isSome = true →
        out.fprintf = true ∧ out.fflush = true := by
  rw [List.countP_eq_zero]
  constructor
  · intro h out hmem htext
    have hnot := h _ hmem
    simpa [Action.losesLine, htext, LogOutcome.written] using hnot
  · intro h a hmem hloses
    unfold Action.losesLine at hloses
    split at hloses
    · rename_i j out
      rw [Bool.and_eq_true, decide_eq_true_eq, Bool.and_eq_true] at hloses
      obtain ⟨rfl, htext, hnot⟩ := hloses
      obtain ⟨hprintf, hflush⟩ := h out hmem htext
      simp [LogOutcome.written, hprintf, hflush] at hnot
    · cases hloses

/-- the records with a line are those added exactly when no line is lost -/
theorem Noted.records_iff {cfg : Config} {i : Fin N} {s : State N} {h : LogHistory}
    {as : List (Action N)} (hs : Noted cfg i s h as) :
    h.lined = h.added ++ s.toCount cfg i ↔ as.countP (Action.losesLine i) = 0 := by
  have hlost := hs.lost
  constructor
  · intro he
    rw [he] at hlost
    omega
  · intro h0
    exact hs.sublist.eq_of_length (by omega)

/-- In every run with logging on, counter and sum of a worker agree with its log exactly when each
of its log calls that has got the time has written and flushed the line. -/
theorem counters_match_log_iff {cfg : Config} (hon : cfg.logsFilesFlag = true) {s : State N}
    {as : List (Action N)} (h : Runs.exec (step cfg) (init N) as = some s) (i : Fin N) :
    MatchesLog cfg i s (logHistory cfg i as) ↔
      ∀ out, Action.worker i (.log out) ∈ as → out.clock.text.isSome = true →
        out.fprintf = true ∧ out.fflush = true := by
  have hn := logHistory_noted hon h i
  have hr : Reachable cfg s := ⟨as, h⟩
  obtain ⟨hcounter, hsum⟩ := hr.counter_sum i
  rw [hn.summed, List.length_map] at hcounter
  rw [hn.summed, List.foldl_map] at hsum
  rw [← losesLine_never, ← hn.records_iff]
  constructor
  · exact MatchesLog.records
  · intro hrecords
    refine ⟨hcounter, hsum, hn.lines, hrecords, ?_⟩
    intro hnone
    have hlength := congrArg List.length hn.lines
    rw [List.length_map, List.length_map, hrecords, hnone, List.append_nil] at hlength
    rw [hcounter, hlength]

/-! ## a line that is lost -/

def oneSensorLogged : Config := { oneSensor with logsFilesFlag := true }

/-- the run of `oneMessage` with the log call in it -/
def oneMessageLogged (out : LogOutcome) : List (Action 1) :=
  oneMessage.take 23 ++ .worker (Fin.last 0) (.log out) :: oneMessage.drop 23

def lineWritten : LogOutcome := ⟨⟨true, true, .ok "2024-01-01 00:00:00"⟩, true, true⟩

/-- the disk is full when the line is flushed -/
def diskFull : LogOutcome := ⟨⟨true, true, .ok "2024-01-01 00:00:00"⟩, true, false⟩

def afterLineWritten : State 1 :=
  (Runs.exec (step oneSensorLogged) (init 1) (oneMessageLogged lineWritten)).get (by decide)

def afterDiskFull : State 1 :=
  (Runs.exec (step oneSensorLogged) (init 1) (oneMessageLogged diskFull)).get (by decide)

theorem counters_match_log_iff_one :
    MatchesLog oneSensorLogged 0 afterLineWritten
        (logHistory oneSensorLogged 0 (oneMessageLogged lineWritten)) ∧
      (afterLineWritten.lanes 0).counter = 1 :=
  ⟨(counters_match_log_iff rfl (Option.some_get _).symm 0).mpr (losesLine_never.mp (by decide)),
    by decide⟩

/-- the record is counted and has no line -/
theorem counted_without_line :
    Runs.exec (step oneSensorLogged) (init 1) (oneMessageLogged diskFull) =
        some afterDiskFull ∧
      (afterDiskFull.lanes 0).pc = .ended ∧ (afterDiskFull.lanes 0).counter = 1 ∧
      (afterDiskFull.lanes 0).logsFile.length = 0 ∧
      ¬ MatchesLog oneSensorLogged 0 afterDiskFull
        (logHistory oneSensorLogged 0 (oneMessageLogged diskFull)) := by
  refine ⟨(Option.some_get _).symm, by decide, by decide, by decide, ?_⟩
  intro hmatch
  have hcounter := hmatch.counter (by decide)
  revert hcounter
  decide

end Server
end SensorSimulator
