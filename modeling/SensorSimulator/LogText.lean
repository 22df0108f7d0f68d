import SensorSimulator.Lib.Floats
import SensorSimulator.Lib.Texts
import SensorSimulator.Server.Ledger
import SensorSimulator.Server.Report

/-!
# The texts in the log files, and the files' names

* `Tm`, `strftime`        a broken-down time and its text; `get_current_time` has 20 bytes for it;
* `LogLine.text`          a line as `fprintf` writes it;
* `serverLogsFile`, `clientLogsFile`   the names that `_open_logs_files` makes with its two `snprintf`;
* `logsFiles_distinct`    no two sensors and no two programs share a log file;
* `currentTime_text`      the years that the buffer is large enough for, and the text is the time;
* `logsFile_readBack`     the text of a worker's file determines what has been logged.
-/

namespace SensorSimulator
open Texts

/-! ## the names -/

/-- `snprintf`: the length of the whole text, and what is in the buffer before the terminating null -/
def snprintf (size : Nat) (text : List Char) : Nat × List Char :=
  (text.length, text.take (size - 1))

/-- the name of the file of sensor `i`: its size first, then the name, in so many bytes and one -/
def logsFileName (format : String) (i : UInt32) : Option (List Char) :=
  (fill (items format.toList) [natText i.toNat]).map fun text =>
    (snprintf ((snprintf 0 text).1 + 1) text).2

def serverLogsFile (i : UInt32) : Option (List Char) :=
  logsFileName "logs/srv/sensor_%u_server_logs.txt" i

def clientLogsFile (i : UInt32) : Option (List Char) :=
  logsFileName "logs/cli/sensor_%u_client_logs.txt" i

/-- the second `snprintf` has room for the whole name -/
theorem logsFileName_eq (format : String) (i : UInt32) :
    logsFileName format i = fill (items format.toList) [natText i.toNat] := by
  unfold logsFileName snprintf
  have hid : (fun text : List Char => text.take (text.length + 1 - 1)) = id := by
    funext text
    exact List.take_length
  dsimp only
  rw [hid, Option.map_id, id_eq]

theorem serverLogsFile_eq (i : UInt32) : serverLogsFile i =
    some ("logs/srv/sensor_".toList ++ natText i.toNat ++ "_server_logs.txt".toList) := by
  unfold serverLogsFile
  rw [logsFileName_eq]
  rfl

theorem clientLogsFile_eq (i : UInt32) : clientLogsFile i =
    some ("logs/cli/sensor_".toList ++ natText i.toNat ++ "_client_logs.txt".toList) := by
  unfold clientLogsFile
  rw [logsFileName_eq]
  rfl

/-- **No log file is shared.**  For all sensors the names are different from each other and from those
of the other program, and the buffer holds the whole name. -/
theorem logsFiles_distinct (i j : UInt32) :
    (serverLogsFile i = serverLogsFile j ↔ i = j) ∧ (clientLogsFile i = clientLogsFile j ↔ i = j) ∧
    serverLogsFile i ≠ clientLogsFile j ∧
    ∀ format, logsFileName format i = fill (items format.toList) [natText i.toNat] := by
  have hinj : ∀ {a b : List Char}, a ++ natText i.toNat ++ b = a ++ natText j.toNat ++ b → i = j := by
    intro a b h
    have hdigits := List.append_cancel_left (List.append_cancel_right h)
    exact UInt32.toNat_inj.mp (natText_inj hdigits)
  refine ⟨⟨fun h => ?_, fun h => by rw [h]⟩, ⟨fun h => ?_, fun h => by rw [h]⟩, fun h => ?_,
    fun format => logsFileName_eq format i⟩
  · rw [serverLogsFile_eq, serverLogsFile_eq] at h
    exact hinj (Option.some.inj h)
  · rw [clientLogsFile_eq, clientLogsFile_eq] at h
    exact hinj (Option.some.inj h)
  · rw [serverLogsFile_eq, clientLogsFile_eq] at h
    simp at h

/-! ## the time -/

def timeBufferSize : Nat := 20

/-- a `struct tm` as `localtime_r` fills it, with `tm_mon + 1` and `tm_year + 1900`; a year may be
negative -/
structure Tm where
  mday : Nat
  mon : Nat
  year : Int
  hour : Nat
  min : Nat
  sec : Nat
  hmday : mday ≤ 31
  hmon : mon ≤ 12
  hhour : hour ≤ 23
  hmin : min ≤ 59
  hsec : sec ≤ 60              -- a leap second

/-- what `strftime` puts in for a conversion; it does not pad the year -/
def Tm.field (tm : Tm) : Char → List Char
  | 'd' => padded 2 tm.mday
  | 'm' => padded 2 tm.mon
  | 'Y' => intText tm.year
  | 'H' => padded 2 tm.hour
  | 'M' => padded 2 tm.min
  | 'S' => padded 2 tm.sec
  | _ => []

/-- the return value is 0 when the text and its terminating null do not fit; the buffer then holds
`left`, and nothing is said of that -/
def strftime (max : Nat) (format : String) (tm : Tm) (left : String) : Except String String :=
  let its := items format.toList
  match fill its ((conversions its).map tm.field) with
  | some text => if text.length < max then .ok (String.ofList text) else .error left
  | none => .error left

/-- the calls of `get_current_time` at the time `tm` -/
def Tm.clock (tm : Tm) (left : String) : Clock where
  time := true
  localtime := true
  strftime := SensorSimulator.strftime timeBufferSize "%d-%m-%Y %H:%M:%S" tm left

def timeItems : List Item := items "%d-%m-%Y %H:%M:%S".toList

def Tm.fields (tm : Tm) : List (List Char) := (conversions timeItems).map tm.field

theorem timeItems_eq : timeItems = [.conv 'd', .lit '-', .conv 'm', .lit '-', .conv 'Y', .lit ' ',
    .conv 'H', .lit ':', .conv 'M', .lit ':', .conv 'S'] := rfl

theorem Tm.fields_eq (tm : Tm) : tm.fields = [padded 2 tm.mday, padded 2 tm.mon, intText tm.year,
    padded 2 tm.hour, padded 2 tm.min, padded 2 tm.sec] := by
  unfold Tm.fields
  rw [timeItems_eq]
  rfl

def Tm.text (tm : Tm) : List Char :=
  padded 2 tm.mday ++ '-' :: (padded 2 tm.mon ++ '-' :: (intText tm.year ++ ' ' ::
    (padded 2 tm.hour ++ ':' :: (padded 2 tm.min ++ ':' :: padded 2 tm.sec))))

theorem Tm.fill_eq (tm : Tm) : fill timeItems tm.fields = some tm.text := by
  rw [timeItems_eq, Tm.fields_eq]
  simp [fill, Tm.text]

theorem Tm.length_text (tm : Tm) : tm.text.length = 15 + (intText tm.year).length := by
  have hfields := tm.hmday
  have hmon := tm.hmon
  have hhour := tm.hhour
  have hmin := tm.hmin
  have hsec := tm.hsec
  have htwo : ∀ n, n ≤ 60 → (padded 2 n).length = 2 :=
    fun n hn => length_padded (by decide) (by omega)
  unfold Tm.text
  simp only [List.length_append, List.length_cons]
  rw [htwo _ (by omega), htwo _ (by omega), htwo _ (by omega), htwo _ (by omega), htwo _ (by omega)]
  omega

/-- the text of the year has four characters at most -/
def Tm.Fits (tm : Tm) : Prop := -999 ≤ tm.year ∧ tm.year ≤ 9999

instance (tm : Tm) : Decidable tm.Fits := inferInstanceAs (Decidable (_ ∧ _))

theorem Tm.fits_iff (tm : Tm) : tm.Fits ↔ tm.text.length < timeBufferSize := by
  have hlength := tm.length_text
  have hyear := length_intText_le_iff (show 0 < 3 by decide) tm.year
  unfold Tm.Fits timeBufferSize
  omega

theorem Tm.clock_strftime (tm : Tm) (left : String) : (tm.clock left).strftime =
    if tm.Fits then .ok (String.ofList tm.text) else .error left := by
  have hfill : fill (items "%d-%m-%Y %H:%M:%S".toList)
      ((conversions (items "%d-%m-%Y %H:%M:%S".toList)).map tm.field) = some tm.text := tm.fill_eq
  show strftime timeBufferSize "%d-%m-%Y %H:%M:%S" tm left = _
  unfold strftime
  dsimp only
  rw [hfill]
  exact if_congr tm.fits_iff.symm rfl rfl

theorem Tm.clock_text (tm : Tm) (left : String) : (tm.clock left).text =
    if tm.Fits then some (String.ofList tm.text) else none := by
  show (if true = true ∧ true = true then (tm.clock left).strftime.toOption else none) = _
  rw [if_pos ⟨rfl, rfl⟩, tm.clock_strftime]
  split_ifs <;> rfl

/-- nothing else in it is a digit, a dash, a blank or a colon -/
theorem Tm.notMem_text {tm : Tm} {c : Char} (hc : c.isDigit = false) (hdash : c ≠ '-')
    (hblank : c ≠ ' ') (hcolon : c ≠ ':') : c ∉ tm.text := by
  unfold Tm.text
  simp only [List.mem_append, List.mem_cons, not_or]
  exact ⟨notMem_padded hc, hdash, notMem_padded hc, hdash, notMem_intText hc hdash, hblank,
    notMem_padded hc, hcolon, notMem_padded hc, hcolon, notMem_padded hc⟩

theorem Tm.text_inj {tm tm' : Tm} (h : tm.text = tm'.text) : tm = tm' := by
  -- with a bracket behind it each field ends before a character that it does not hold
  have hfill : ∀ tm : Tm, fill (timeItems ++ [.lit ']']) tm.fields = some (tm.text ++ [']']) := by
    intro tm
    rw [timeItems_eq, Tm.fields_eq]
    simp [fill, Tm.text]
  have hclear : ∀ tm : Tm, Clear (timeItems ++ [.lit ']']) tm.fields := by
    intro tm
    rw [timeItems_eq, Tm.fields_eq]
    exact ⟨notMem_padded rfl, notMem_padded rfl, notMem_intText rfl (by decide), notMem_padded rfl,
      notMem_padded rfl, notMem_padded rfl, trivial⟩
  have hend : (tm.text ++ [']']) ++ [] = (tm'.text ++ [']']) ++ [] := by rw [h]
  obtain ⟨hfields, -⟩ := fill_inj (hfill tm) (hfill tm') (hclear tm) (hclear tm') hend
  rw [Tm.fields_eq, Tm.fields_eq] at hfields
  injection hfields with hmday hfields
  injection hfields with hmon hfields
  injection hfields with hyear hfields
  injection hfields with hhour hfields
  injection hfields with hmin hfields
  injection hfields with hsec hfields
  cases tm
  cases tm'
  simp only [Tm.mk.injEq]
  exact ⟨padded_inj hmday, padded_inj hmon, intText_inj hyear, padded_inj hhour, padded_inj hmin,
    padded_inj hsec⟩

/-- **The time of a log line.**  `get_current_time` succeeds with its 20 bytes for a time of the years
from -999 to 9999, and for any other it fails, with whatever `strftime` has left in the buffer.  The
text fills the buffer when the year has four characters, and no two times have the same. -/
theorem currentTime_text (buffer left : String) (tm : Tm) :
    (getCurrentTime (some buffer) (tm.clock left) = if -999 ≤ tm.year ∧ tm.year ≤ 9999 then
      (.success, some (String.ofList tm.text)) else (.error, some left)) ∧
    (tm.text.length = 19 ↔
      1000 ≤ tm.year ∧ tm.year ≤ 9999 ∨ -999 ≤ tm.year ∧ tm.year ≤ -100) ∧
    ∀ tm' : Tm, tm.text = tm'.text ↔ tm = tm' := by
  refine ⟨?_, ?_, fun tm' => ⟨Tm.text_inj, fun h => by rw [h]⟩⟩
  · show _ = if tm.Fits then _ else _
    have hclock : tm.clock left =
        ⟨true, true, if tm.Fits then .ok (String.ofList tm.text) else .error left⟩ :=
      congrArg (Clock.mk true true) (tm.clock_strftime left)
    rw [hclock]
    split_ifs <;> rfl
  · have hfour := length_intText_le_iff (show 0 < 3 by decide) tm.year
    have hthree := length_intText_le_iff (show 0 < 2 by decide) tm.year
    have hlength := tm.length_text
    omega

/-! ## the lines -/

/-- `%f` of the float with these bits: its sign, also for what is no number, and six digits behind the
point -/
def valueText (bits : UInt32) : List Char :=
  let magnitude := bits &&& 0x7FFFFFFF
  signed (decide (bits ≥ 0x80000000))
    (if magnitude > 0x7F800000 then ['n', 'a', 'n']
    else if magnitude = 0x7F800000 then ['i', 'n', 'f']
    else fixedText (Rounding.nearest (Floats.val (Float32.ofBits magnitude) * 1000000)))

/-- `fprintf`, with the conversions that the arguments are for -/
def fprintf (format : String) (args : List (Char × List Char)) : Option (List Char) :=
  let its := items format.toList
  if conversions its = args.map Prod.fst then fill its (args.map Prod.snd) else none

/-- the line in the file; the two ids are given for `%d` -/
def LogLine.text (line : LogLine) : Option (List Char) :=
  fprintf line.format [('s', line.time.toList), ('d', intText (Server.printfD line.threadId)),
    ('d', intText (Server.printfD line.sensorId)), ('f', valueText line.value)]

theorem notMem_valueText {bits : UInt32} {c : Char} (hc : c.isDigit = false) (hminus : c ≠ '-')
    (hpoint : c ≠ '.') (hletters : c ∉ ['n', 'a', 'i', 'f']) : c ∉ valueText bits := by
  unfold valueText
  refine notMem_signed hminus ?_
  split_ifs
  · simp_all
  · simp_all
  · exact notMem_fixedText hc hpoint

theorem printfD_inj {x y : UInt32} (h : Server.printfD x = Server.printfD y) : x = y := by
  rw [Server.printfD_eq, Server.printfD_eq] at h
  have hx := x.toNat_lt
  have hy := y.toNat_lt
  apply UInt32.toNat_inj.mp
  split_ifs at h <;> omega

structure LogLine.Shown where
  time : String
  threadId : UInt32
  sensorId : UInt32
  value : List Char
  deriving DecidableEq

def LogLine.shown (line : LogLine) : LogLine.Shown where
  time := line.time
  threadId := line.threadId
  sensorId := line.sensorId
  value := valueText line.value

/-- a format for the four arguments that begins with a bracket, with a bracket, a blank, a point and
the end of the line behind its conversions -/
structure LogFormat (format : String) : Prop where
  conversions : conversions (items format.toList) = ['s', 'd', 'd', 'f']
  begins : ∃ its, items format.toList = .lit '[' :: its
  clear : ∀ time threadId sensorId value, ']' ∉ time → ' ' ∉ threadId → '.' ∉ sensorId →
    '\n' ∉ value → Clear (items format.toList) [time, threadId, sensorId, value]

theorem serverFormat : LogFormat "[%s] Thread %d received data from sensor %d. Value: %f\n" where
  conversions := rfl
  begins := ⟨_, rfl⟩
  clear _ _ _ _ htime hthread hsensor hvalue := ⟨htime, hthread, hsensor, hvalue, trivial⟩

/-- a line of a file with this format, with a time of `get_current_time` -/
structure LogLine.Of (format : String) (line : LogLine) : Prop where
  format : line.format = format
  time : ']' ∉ line.time.toList

/-- what these lines are in the file -/
def logText (file : List LogLine) : List Char := file.flatMap fun line => line.text.getD []

/-- the text of a log file: it is opened with mode `a`, behind what is in it -/
def logsFileText (before : List Char) (file : List LogLine) : List Char := before ++ logText file

/-- the texts for the conversions of a line -/
def LogLine.Shown.texts (line : LogLine.Shown) : List (List Char) :=
  [line.time.toList, intText (Server.printfD line.threadId),
    intText (Server.printfD line.sensorId), line.value]

theorem LogLine.Of.text_eq {format : String} (hf : LogFormat format) {line : LogLine}
    (h : line.Of format) : ∃ t, line.text = some t ∧ t ≠ [] ∧
      fill (items format.toList) line.shown.texts = some t ∧
      Clear (items format.toList) line.shown.texts := by
  obtain ⟨t, ht⟩ := Option.isSome_iff_exists.mp (fill_isSome (items format.toList) line.shown.texts
    (by rw [hf.conversions]; rfl))
  have htext : line.text = fill (items format.toList) line.shown.texts := by
    unfold LogLine.text fprintf
    rw [h.format]
    exact if_pos hf.conversions
  refine ⟨t, htext.trans ht, ?_, ht, ?_⟩
  · obtain ⟨its, hits⟩ := hf.begins
    rw [hits] at ht
    obtain ⟨t', -, rfl⟩ := fill_lit ht
    exact List.cons_ne_nil _ _
  · exact hf.clear _ _ _ _ h.time (notMem_intText rfl (by decide)) (notMem_intText rfl (by decide))
      (notMem_valueText rfl (by decide) (by decide) (by decide))

theorem LogLine.text_inj {format : String} (hf : LogFormat format) {line line' : LogLine}
    {r r' : List Char} (h : line.Of format) (h' : line'.Of format)
    (heq : line.text.getD [] ++ r = line'.text.getD [] ++ r') :
    line.shown = line'.shown ∧ r = r' := by
  obtain ⟨t, htext, -, hfill, hclear⟩ := h.text_eq hf
  obtain ⟨t', htext', -, hfill', hclear'⟩ := h'.text_eq hf
  rw [htext, htext'] at heq
  obtain ⟨htexts, hr⟩ := fill_inj hfill hfill' hclear hclear' heq
  refine ⟨?_, hr⟩
  injection htexts with htime htexts
  injection htexts with hthread htexts
  injection htexts with hsensor htexts
  injection htexts with hvalue htexts
  simp only [LogLine.shown, LogLine.Shown.mk.injEq]
  exact ⟨String.toList_inj.mp htime, printfD_inj (intText_inj hthread),
    printfD_inj (intText_inj hsensor), hvalue⟩

theorem logText_inj {format : String} (hf : LogFormat format) {file file' : List LogLine}
    (h : ∀ line ∈ file, line.Of format) (h' : ∀ line ∈ file', line.Of format)
    (heq : logText file = logText file') :
    file.map LogLine.shown = file'.map LogLine.shown := by
  refine flatMap_inj (fun line hline => ?_) (fun line line' r r' => LogLine.text_inj hf) h h' heq
  obtain ⟨t, htext, hne, -⟩ := hline.text_eq hf
  rw [htext]
  exact hne

theorem logText_eq {format : String} (hf : LogFormat format) {file : List LogLine}
    (h : ∀ line ∈ file, line.Of format) : logText file = (file.map LogLine.shown).flatMap fun line =>
      (fill (items format.toList) line.texts).getD [] := by
  unfold logText
  rw [List.flatMap_map]
  apply List.flatMap_congr
  intro line hline
  obtain ⟨t, htext, -, hfill, -⟩ := (h line hline).text_eq hf
  rw [htext, hfill]

/-! ## the server's files -/

namespace Server

variable {N : Nat}

/-- the log call gets no time, or one of `get_current_time`, and then writes its line -/
def Action.Written : Action N → Prop
  | .worker _ (.log out) => out.clock.text = none ∨
      (∃ (tm : Tm) (left : String), out.clock = tm.clock left) ∧ out.written = true
  | _ => True

/-- a log call of worker `i` that gets the time -/
def Action.timed (i : Fin N) : Action N → Bool
  | .worker j (.log out) => decide (j = i) && out.clock.text.isSome
  | _ => false

/-- a log call that has got no time, or not written its line -/
def WorkerChoice.Unwritten (c : WorkerChoice) : Prop :=
  ∀ out, c = .log out → out.clock.text = none ∨ out.written = false

theorem handleClient_logsFile {cfg : Config} {done : Bool} {heap : Addr → PackedData} {id : UInt32}
    {l l' : Lane} {c : WorkerChoice} {fr : List Addr}
    (h : handleClient cfg done heap id l c = some (l', fr)) :
    l'.logsFile = l.logsFile ∧ c.Unwritten ∨
      ∃ out line b, c = .log out ∧ l.pc = .log b ∧ l'.logsFile = l.logsFile ++ [line] ∧
        line.format = "[%s] Thread %d received data from sensor %d. Value: %f\n" ∧
        line.threadId = id ∧ line.sensorId = (recordIn cfg heap b).hdr.sensorId ∧
        out.clock.text = some line.time := by
  by_cases hlog : ∃ b, l.pc = .log b
  · obtain ⟨b, hpc⟩ := hlog
    unfold handleClient at h
    rw [hpc] at h
    cases c with
    | log out =>
      dsimp only at h
      unfold logServerSensorData at h
      rw [logSensorData_some] at h
      cases ht : out.clock.text with
      | none =>
        rw [ht] at h
        cases h
        exact Or.inl ⟨rfl, fun out' hc => Or.inl (WorkerChoice.log.inj hc ▸ ht)⟩
      | some time =>
        rw [ht] at h
        cases h
        cases hw : out.written with
        | false => exact Or.inl ⟨rfl, fun out' hc => Or.inr (WorkerChoice.log.inj hc ▸ hw)⟩
        | true => exact Or.inr ⟨out, _, b, rfl, hpc, rfl, rfl, rfl, rfl, ht⟩
    | _ => cases h
  · have hnot : ∀ out, c ≠ .log out := by
      rintro out rfl
      unfold handleClient at h
      cases hpc : l.pc with
      | log b => exact hlog ⟨b, hpc⟩
      | unlock b =>
        rw [hpc] at h
        cases b <;> cases h
      | _ =>
        rw [hpc] at h
        cases h
    have hunwritten : c.Unwritten := fun out hc => absurd hc (hnot out)
    cases handleClient_move h with
    | logged b out file hpc => exact absurd ⟨b, hpc⟩ hlog
    | _ => exact Or.inl ⟨rfl, hunwritten⟩

theorem Reachable.held_sensor {cfg : Config} {s : State N} (h : Reachable cfg s) {i : Fin N}
    {b : Addr} (hb : (s.lanes i).pc.held = some b) :
    (recordIn cfg s.heap b).hdr.sensorId = UInt32.ofNat i := by
  have hmem : recordIn cfg s.heap b ∈ (s.lanes i).inserted := by
    rw [h.fifo i]
    apply List.mem_append_right
    apply List.mem_append_left
    rw [hb]
    exact List.mem_singleton_self _
  rw [h.inserted_eq i] at hmem
  obtain ⟨it, -, hit⟩ := List.mem_filterMap.mp hmem
  unfold accepted at hit
  split at hit
  · split at hit
    · rename_i hd
      rw [← Option.some.inj hit, ← hd.2.2.1, UInt32.ofNat_toNat]
    · cases hit
  · cases hit

theorem step_logsFile {cfg : Config} {s s' : State N} {a : Action N} (hr : Reachable cfg s)
    (h : step cfg s a = some s') (i : Fin N) : (s'.lanes i).logsFile = (s.lanes i).logsFile ∧
        (∀ c, a = .worker i c → c.Unwritten) ∨
      ∃ out line, a = .worker i (.log out) ∧
        (s'.lanes i).logsFile = (s.lanes i).logsFile ++ [line] ∧
        line.format = "[%s] Thread %d received data from sensor %d. Value: %f\n" ∧
        line.threadId = UInt32.ofNat i ∧ line.sensorId = UInt32.ofNat i ∧
        out.clock.text = some line.time := by
  have hm := step_move h
  cases a with
  | main c =>
    cases hm with
    | main _ _ hmain => exact Or.inl ⟨(hmain.logFrame hr i).logsFile, fun _ h => by cases h⟩
  | worker j c =>
    unfold Server.step at h
    split at h
    · cases h
    · obtain ⟨⟨l, fr⟩, hc, rfl⟩ := Option.map_eq_some_iff.mp h
      by_cases hj : j = i
      · subst hj
        show ((s.onLane j fun _ => l).lanes j).logsFile = _ ∧ _ ∨
          ∃ out line, _ ∧ ((s.onLane j fun _ => l).lanes j).logsFile = _ ∧ _
        rw [onLane_self]
        rcases handleClient_logsFile hc with ⟨hsame, hunwritten⟩ |
          ⟨out, line, b, rfl, hpc, hfile, hformat, hthread, hsensor, htime⟩
        · refine Or.inl ⟨hsame, fun c' h => ?_⟩
          injection h with _ hc'
          exact hc' ▸ hunwritten
        · rw [hr.held_sensor (by rw [hpc]; rfl)] at hsensor
          exact Or.inr ⟨out, line, rfl, hfile, hformat, hthread, hsensor, htime⟩
      · left
        show ((s.onLane j fun _ => l).lanes i).logsFile = _ ∧ _
        rw [onLane_of_ne s j i _ (Ne.symm hj)]
        refine ⟨rfl, fun c' h => ?_⟩
        injection h with hi
        exact absurd hi hj
  | wake j =>
    cases hm with
    | wake _ hpc =>
      exact Or.inl ⟨onLane_forall (P := fun k l => l.logsFile = (s.lanes k).logsFile) s j Lane.wake
        rfl (fun k _ => rfl) i, fun _ h => by cases h⟩
  | arrive d =>
    cases hm
    exact Or.inl ⟨rfl, fun _ h => by cases h⟩
  | signal sig t =>
    cases hm
    exact Or.inl ⟨rfl, fun _ h => by cases h⟩

/-- the lines of worker `i` have its format and its id, for the thread and for the sensor -/
theorem Reachable.logsFile_ids {cfg : Config} {s : State N} (h : Reachable cfg s) (i : Fin N) :
    ∀ line ∈ (s.lanes i).logsFile,
      line.format = "[%s] Thread %d received data from sensor %d. Value: %f\n" ∧
        line.threadId = UInt32.ofNat i ∧ line.sensorId = UInt32.ofNat i := by
  obtain ⟨as, hrun⟩ := h
  refine Runs.exec_invariant_with (J := Reachable cfg) (I := fun s => ∀ line ∈ (s.lanes i).logsFile,
    line.format = "[%s] Thread %d received data from sensor %d. Value: %f\n" ∧
      line.threadId = UInt32.ofNat i ∧ line.sensorId = UInt32.ofNat i)
    (fun _ _ _ hr hstep => hr.after hstep) ?_ hrun ⟨[], rfl⟩
    (fun line hline => absurd hline List.not_mem_nil)
  intro s a s' hr hs hstep line hline
  rcases step_logsFile hr hstep i with ⟨hsame, -⟩ |
    ⟨out, new, -, hfile, hformat, hthread, hsensor, -⟩
  · rw [hsame] at hline
    exact hs line hline
  · rw [hfile] at hline
    rcases List.mem_append.mp hline with hold | hnew
    · exact hs line hold
    · rw [List.mem_singleton.mp hnew]
      exact ⟨hformat, hthread, hsensor⟩

theorem logsFile_lines {cfg : Config} {s : State N} {as : List (Action N)}
    (h : Runs.exec (step cfg) (init N) as = some s) (hwritten : ∀ a ∈ as, Action.Written a)
    (i : Fin N) : ∀ line ∈ (s.lanes i).logsFile,
      line.Of "[%s] Thread %d received data from sensor %d. Value: %f\n" := by
  have hinv := Runs.exec_invariant_acts (I := fun s before => Reachable cfg s ∧
    ((∀ a ∈ before, Action.Written a) → ∀ line ∈ (s.lanes i).logsFile,
      ']' ∉ line.time.toList)) ?_ [] h
    ⟨⟨[], rfl⟩, fun _ line hline => absurd hline List.not_mem_nil⟩
  · intro line hline
    exact ⟨(hinv.1.logsFile_ids i line hline).1, hinv.2 hwritten line hline⟩
  rintro s before a s' ⟨hr, hs⟩ hstep
  refine ⟨hr.after hstep, fun hwritten line hline => ?_⟩
  have hbefore := hs fun b hb => hwritten b (List.mem_append_left _ hb)
  have ha : a.Written := hwritten a (List.mem_append_right _ (List.mem_singleton_self a))
  rcases step_logsFile hr hstep i with ⟨hsame, -⟩ | ⟨out, line', rfl, hfile, -, -, -, htime⟩
  · rw [hsame] at hline
    exact hbefore line hline
  · rw [hfile] at hline
    rcases List.mem_append.mp hline with hold | hnew
    · exact hbefore line hold
    · rw [List.mem_singleton.mp hnew]
      rcases ha with hnone | ⟨⟨tm, left, htm⟩, -⟩
      · cases hnone.symm.trans htime
      · rw [htm, tm.clock_text] at htime
        split_ifs at htime
        rw [← Option.some.inj htime, String.toList_ofList]
        exact Tm.notMem_text rfl (by decide) (by decide) (by decide)

theorem length_logsFile {cfg : Config} {s : State N} {as : List (Action N)}
    (h : Runs.exec (step cfg) (init N) as = some s) (hwritten : ∀ a ∈ as, Action.Written a)
    (i : Fin N) : (s.lanes i).logsFile.length = as.countP (Action.timed i) := by
  have hinv := Runs.exec_invariant_acts (I := fun s before => Reachable cfg s ∧
    ((∀ a ∈ before, Action.Written a) →
      (s.lanes i).logsFile.length = before.countP (Action.timed i))) ?_ [] h ⟨⟨[], rfl⟩, fun _ => rfl⟩
  · exact hinv.2 hwritten
  rintro s before a s' ⟨hr, hs⟩ hstep
  refine ⟨hr.after hstep, fun hwritten => ?_⟩
  have hbefore := hs fun b hb => hwritten b (List.mem_append_left _ hb)
  have ha : a.Written := hwritten a (List.mem_append_right _ (List.mem_singleton_self a))
  rw [List.countP_append, List.countP_singleton, ← hbefore]
  rcases step_logsFile hr hstep i with ⟨hsame, hnot⟩ | ⟨out, line, rfl, hfile, -, -, -, htime⟩
  · have htimed : a.timed i = false := by
      by_contra htimed
      obtain ⟨out, rfl, htext⟩ : ∃ out, a = .worker i (.log out) ∧ out.clock.text.isSome = true := by
        unfold Action.timed at htimed
        split at htimed
        · rename_i j out
          simp only [Bool.not_eq_false, Bool.and_eq_true, decide_eq_true_eq] at htimed
          exact ⟨out, by rw [htimed.1], htimed.2⟩
        · exact absurd rfl htimed
      have hsome : out.clock.text ≠ none := fun h => by rw [h] at htext; cases htext
      have hline : out.written = true := (ha.resolve_left hsome).2
      cases hline.symm.trans ((hnot _ rfl out rfl).resolve_left hsome)
    rw [hsame, htimed]
    rfl
  · have htimed : (Action.worker i (.log out)).timed i = true := by
      simp [Action.timed, htime]
    rw [hfile, htimed, List.length_append]
    rfl

/-- **A log file can be read back.**  In every run whose log calls get the time of `get_current_time`,
or none, and write their lines, for every interleaving: the file of worker `i` has one line for each
log call that gets the time, and they name it as their thread and as their sensor.  Behind what was
in it before, the text of the file determines what they say, one after the other: their times,
threads and sensors, and their values with six digits behind the point. -/
theorem logsFile_readBack {cfg : Config} {s s' : State N} {as as' : List (Action N)}
    (h : Runs.exec (step cfg) (init N) as = some s) (hwritten : ∀ a ∈ as, Action.Written a)
    (h' : Runs.exec (step cfg) (init N) as' = some s') (hwritten' : ∀ a ∈ as', Action.Written a)
    (i j : Fin N) : (s.lanes i).logsFile.length = as.countP (Action.timed i) ∧
      (∀ line ∈ (s.lanes i).logsFile, line.threadId = UInt32.ofNat i ∧
        line.sensorId = UInt32.ofNat i) ∧
      ∀ before, logsFileText before (s.lanes i).logsFile = logsFileText before (s'.lanes j).logsFile ↔
        (s.lanes i).logsFile.map LogLine.shown = (s'.lanes j).logsFile.map LogLine.shown := by
  have hr : Reachable cfg s := ⟨as, h⟩
  have hlines := logsFile_lines h hwritten i
  have hlines' := logsFile_lines h' hwritten' j
  refine ⟨length_logsFile h hwritten i, fun line hline => (hr.logsFile_ids i line hline).2,
    fun before => ⟨fun heq => ?_, fun heq => ?_⟩⟩
  · exact logText_inj serverFormat hlines hlines' (List.append_cancel_left heq)
  · unfold logsFileText
    rw [logText_eq serverFormat hlines, logText_eq serverFormat hlines', heq]

/-- the first of January 2024, at noon -/
def noon : Tm where
  mday := 1
  mon := 1
  year := 2024
  hour := 12
  min := 0
  sec := 0
  hmday := by decide
  hmon := by decide
  hhour := by decide
  hmin := by decide
  hsec := by decide

def loggedAtNoon : List (Action 1) := oneMessageLogged ⟨noon.clock "", true, true⟩

def afterLoggedAtNoon : State 1 :=
  (Runs.exec (step oneSensorLogged) (init 1) loggedAtNoon).get (by decide)

theorem logsFile_readBack_noon : loggedAtNoon.countP (Action.timed 0) = 1 ∧
    (afterLoggedAtNoon.lanes 0).logsFile.length = 1 ∧
    ∀ line ∈ (afterLoggedAtNoon.lanes 0).logsFile, line.threadId = 0 ∧ line.sensorId = 0 := by
  have hrun : Runs.exec (step oneSensorLogged) (init 1) loggedAtNoon = some afterLoggedAtNoon :=
    (Option.some_get _).symm
  have hother : ∀ a ∈ oneMessage, Action.Written a := by
    simp [oneMessage, Action.Written]
  have hwritten : ∀ a ∈ loggedAtNoon, Action.Written a := by
    intro a ha
    rcases List.mem_append.mp ha with hbefore | hbehind
    · exact hother a (List.mem_of_mem_take hbefore)
    · rcases List.mem_cons.mp hbehind with rfl | hafter
      · exact Or.inr ⟨⟨noon, "", rfl⟩, rfl⟩
      · exact hother a (List.mem_of_mem_drop hafter)
  have htimed : loggedAtNoon.countP (Action.timed 0) = 1 := by decide
  obtain ⟨hlength, hids, -⟩ := logsFile_readBack hrun hwritten hrun hwritten 0 0
  exact ⟨htimed, hlength.trans htimed, hids⟩

end Server

end SensorSimulator
