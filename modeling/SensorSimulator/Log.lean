import SensorSimulator.Common

/-!
# common.c: the clock and the log of one sensor reading

* `getCurrentTime`   `get_current_time`, with what `time`, `localtime_r` and `strftime` come back
                     with in a `Clock`;
* `logSensorData`    `_log_sensor_data`; the server and the client call it with their own format;
* `Clock.text`, `LogOutcome.written`   what its result depends on (`logSensorData_some`): it fails
                     exactly when the clock does, and the line is in the file exactly when
                     `fprintf` and `fflush`, which nobody asks, have both done their work.
-/

namespace SensorSimulator

/-! ## the clock -/

/-- what the three calls of `get_current_time` come back with: `strftime` gives its text or, with the
return value 0, what it has left in the buffer, which is indeterminate -/
structure Clock where
  time : Bool
  localtime : Bool
  strftime : Except String String
  deriving DecidableEq

/-- `none` stands for a `NULL` buffer; a buffer is the text in it -/
def getCurrentTime (buffer : Option String) (c : Clock) : Status × Option String :=
  match buffer with
  | none => (.error, none)
  | some buffer =>
    if c.time = false then (.error, some buffer)
    else if c.localtime = false then (.error, some buffer)
    else
      match c.strftime with
      | .error left => (.error, some left)
      | .ok text => (.success, some text)

/-- the time that the clock gives, if it gives one -/
def Clock.text (c : Clock) : Option String :=
  if c.time = true ∧ c.localtime = true then c.strftime.toOption else none

/-- what is in the buffer when no time is given: only `strftime` writes to it -/
def Clock.left (c : Clock) (buffer : String) : String :=
  if c.time = true ∧ c.localtime = true then
    match c.strftime with
    | .error left => left
    | .ok _ => buffer
  else buffer

theorem getCurrentTime_some (buffer : String) (c : Clock) :
    getCurrentTime (some buffer) c =
      match c.text with
      | some text => (.success, some text)
      | none => (.error, some (c.left buffer)) := by
  obtain ⟨t, l, s⟩ := c
  cases t <;> cases l <;> cases s <;> rfl

/-! ## the log file -/

/-- one line of a log file: the format and what is printed with it; `value` is the bits of the float
for `%f` -/
structure LogLine where
  format : String
  time : String
  threadId : UInt32
  sensorId : UInt32
  value : UInt32

/-- what the calls inside `_log_sensor_data` come back with: the clock, and whether `fprintf` and
`fflush` brought the line to the file -/
structure LogOutcome where
  clock : Clock
  fprintf : Bool
  fflush : Bool
  deriving DecidableEq

def LogOutcome.written (out : LogOutcome) : Bool := out.fprintf && out.fflush

/-- `none` stands for a `NULL` argument.  A file is the list of the lines that were written to it as a
whole since it was opened: what was in it before, and the parts of a line that a failing `fprintf` or
`fflush` may have left, are not in the list. -/
def logSensorData (logsFile : Option (List LogLine)) (sensorData : Option ProtoSensorData)
    (threadId : UInt32) (format : Option String) (out : LogOutcome) :
    Status × Option (List LogLine) :=
  match logsFile with
  | none => (.error, none)
  | some file =>
    match sensorData with
    | none => (.error, some file)
    | some sensorData =>
      match format with
      | none => (.error, some file)
      | some format =>
        match getCurrentTime (some "") out.clock with
        | (.success, some time) =>
          let line := { format := format, time := time, threadId := threadId,
                        sensorId := sensorData.hdr.sensorId, value := floatBits sensorData }
          -- neither return value is looked at
          (.success, some (if out.written then file ++ [line] else file))
        | _ => (.error, some file)

def logServerSensorData (logsFile : Option (List LogLine)) (sensorData : Option ProtoSensorData)
    (threadId : UInt32) (out : LogOutcome) : Status × Option (List LogLine) :=
  logSensorData logsFile sensorData threadId
    (some "[%s] Thread %d received data from sensor %d. Value: %f\n") out

def logClientSensorData (logsFile : Option (List LogLine)) (sensorData : Option ProtoSensorData)
    (threadId : UInt32) (out : LogOutcome) : Status × Option (List LogLine) :=
  logSensorData logsFile sensorData threadId
    (some "[%s] Thread %d sent data from sensor %d. Value: %f\n") out

theorem logSensorData_some (file : List LogLine) (data : ProtoSensorData) (threadId : UInt32)
    (format : String) (out : LogOutcome) :
    logSensorData (some file) (some data) threadId (some format) out =
      match out.clock.text with
      | some time =>
        (.success, some (if out.written then
          file ++ [⟨format, time, threadId, data.hdr.sensorId, floatBits data⟩] else file))
      | none => (.error, some file) := by
  unfold logSensorData
  simp only [getCurrentTime_some]
  cases out.clock.text <;> rfl

theorem logSensorData_error (file : Option (List LogLine)) (data : Option ProtoSensorData)
    (threadId : UInt32) (format : Option String) (out : LogOutcome)
    (h : (logSensorData file data threadId format out).1 = .error) :
    (logSensorData file data threadId format out).2 = file := by
  cases file with
  | none => rfl
  | some file =>
    cases data with
    | none => rfl
    | some data =>
      cases format with
      | none => rfl
      | some format =>
        rw [logSensorData_some] at h ⊢
        cases ht : out.clock.text with
        | none => rfl
        | some time => rw [ht] at h; cases h

end SensorSimulator
