import Captions.Text.Decimal

/-!
# Dates

A configuration file may hold a date, alone or with a time of the day, and the
time may say how far its clock is ahead of universal time. No setting asks for
one. A date is written where a text would be, and refused where a number or a
text is needed.

Dates are those of the calendar in use, carried back to its first year, and
clocks know no leap seconds. Times with an offset name a point in time, and two
of them are the same when the points are, whatever their offsets. A time without
one is the same only as another without one.

## Main definitions

* `Date`, `TimeOfDay`, `Offset`: The parts.
* `Moment`: A date, alone or with a time.
* `Moment.Fault`: Why numbers are no moment.
* `Moment.literal`, `Moment.written`: The two texts of a moment.
* `Moment.same`: Whether two moments are one.
-/

namespace Captions

/-- Whether a year has a day more than others. -/
def isLeapYear (year : Nat) : Bool := year % 4 = 0 && (year % 100 ≠ 0 || year % 400 = 0)

/-- The number of days in a month. -/
def daysInMonth (year : Nat) : (month : Nat) → Nat
  | 2 => if isLeapYear year then 29 else 28
  | 4 | 6 | 9 | 11 => 30
  | _ => 31

/-- A day of the calendar. -/
structure Date where
  /-- The year. -/
  year : Nat
  /-- The month, beginning with one. -/
  month : Nat
  /-- The day of the month. -/
  day : Nat
  /-- Years have at most four digits, and none of them is zero. -/
  year_range : 1 ≤ year ∧ year ≤ 9999
  /-- There are twelve months. -/
  month_range : 1 ≤ month ∧ month ≤ 12
  /-- The month has the day. -/
  day_range : 1 ≤ day ∧ day ≤ daysInMonth year month
  deriving DecidableEq

/-- A time of the day. -/
structure TimeOfDay where
  /-- The hour. -/
  hour : Nat
  /-- The minute of the hour. -/
  minute : Nat
  /-- The second of the minute. -/
  second : Nat
  /-- The microseconds after the second. -/
  micros : Nat
  /-- A day has twenty-four hours. -/
  hour_lt : hour < 24
  /-- An hour has sixty minutes. -/
  minute_lt : minute < 60
  /-- A minute has sixty seconds. -/
  second_lt : second < 60
  /-- They make less than a second. -/
  micros_lt : micros < 1000000
  deriving DecidableEq

/-- How far a clock is ahead of universal time. -/
structure Offset where
  /-- The minutes, negative for a clock that is behind. -/
  minutes : Int
  /-- Clocks differ by less than a day. -/
  minutes_range : -1440 < minutes ∧ minutes < 1440
  deriving DecidableEq

/-- A date, alone or with a time. -/
inductive Moment where
  /-- A date. -/
  | date (d : Date)
  /-- A time on a date, with the offset of its clock if that is known. -/
  | time (d : Date) (t : TimeOfDay) (offset : Option Offset)
  deriving DecidableEq

namespace Moment

/-- A stretch of minutes as a literal: days, and the seconds after them. -/
def minutesLiteral (minutes : Int) : Text :=
  let days := minutes / 1440
  let seconds := minutes % 1440 * 60
  let parts : List Text :=
    (if days = 0 then [] else ["days=" ++ Text.ofInt days]) ++
      if seconds = 0 then [] else ["seconds=" ++ Text.ofInt seconds]
  "datetime.timedelta(" ++ (if parts = [] then ['0'] else Text.joinWith ", " parts) ++ ")"

/-- Why numbers are no moment. -/
inductive Fault where
  /-- There is no such year. -/
  | year (number : Nat)
  /-- There is no such month. -/
  | month
  /-- The month has no such day. -/
  | day
  /-- There is no such hour. -/
  | hour
  /-- There is no such minute. -/
  | minute
  /-- There is no such second. -/
  | second
  /-- No clock is this many minutes ahead. -/
  | offset (minutes : Int)
  deriving DecidableEq

/-- What is said about numbers that are no moment. -/
def Fault.message : Fault → Text
  | .year n => "year " ++ Text.digits n ++ " is out of range"
  | .month => "month must be in 1..12"
  | .day => "day is out of range for month"
  | .hour => "hour must be in 0..23"
  | .minute => "minute must be in 0..59"
  | .second => "second must be in 0..59"
  | .offset minutes =>
    "offset must be a timedelta strictly between -timedelta(hours=24) and " ++
      "timedelta(hours=24), not " ++ minutesLiteral minutes ++ "."

/-- The date with these numbers. -/
def dateOf (year month day : Nat) : Except Fault Date :=
  if hy : 1 ≤ year ∧ year ≤ 9999 then
    if hm : 1 ≤ month ∧ month ≤ 12 then
      if hd : 1 ≤ day ∧ day ≤ daysInMonth year month then .ok ⟨year, month, day, hy, hm, hd⟩
      else .error .day
    else .error .month
  else .error (.year year)

/-- The time with these numbers. -/
def timeOf (hour minute second micros : Nat) (hmicros : micros < 1000000) :
    Except Fault TimeOfDay :=
  if hh : hour < 24 then
    if hm : minute < 60 then
      if hs : second < 60 then .ok ⟨hour, minute, second, micros, hh, hm, hs, hmicros⟩
      else .error .second
    else .error .minute
  else .error .hour

/-- The offset of this many minutes. -/
def offsetOf (minutes : Int) : Except Fault Offset :=
  if h : -1440 < minutes ∧ minutes < 1440 then .ok ⟨minutes, h⟩ else .error (.offset minutes)

/-- The name of the kind of a moment. -/
def name : Moment → Text
  | .date _ => "date"
  | .time .. => "datetime"

/-- The numbers of a date as they stand in a literal. -/
def dateNumbers (d : Date) : List Text :=
  [Text.digits d.year, Text.digits d.month, Text.digits d.day]

/-- The numbers of a time as they stand in a literal. Seconds that are zero are
    left out if nothing follows them. -/
def timeNumbers (t : TimeOfDay) : List Text :=
  [Text.digits t.hour, Text.digits t.minute] ++
    (if t.second = 0 ∧ t.micros = 0 then [] else [Text.digits t.second]) ++
    if t.micros = 0 then [] else [Text.digits t.micros]

/-- An offset as a literal. -/
def offsetLiteral (o : Offset) : Text :=
  if o.minutes = 0 then "datetime.timezone.utc"
  else "datetime.timezone(" ++ minutesLiteral o.minutes ++ ")"

/-- A moment as a literal. -/
def literal : Moment → Text
  | .date d => "datetime.date(" ++ Text.joinWith ", " (dateNumbers d) ++ ")"
  | .time d t offset =>
    let zone : List Text := match offset with
      | none => []
      | some o => ["tzinfo=" ++ offsetLiteral o]
    "datetime.datetime(" ++ Text.joinWith ", " (dateNumbers d ++ timeNumbers t ++ zone) ++ ")"

/-- A date as it stands in running text. -/
def dateText (d : Date) : Text :=
  Text.padded 4 d.year ++ "-" ++ Text.padded 2 d.month ++ "-" ++ Text.padded 2 d.day

/-- A time as it stands in running text. -/
def timeText (t : TimeOfDay) : Text :=
  Text.padded 2 t.hour ++ ":" ++ Text.padded 2 t.minute ++ ":" ++ Text.padded 2 t.second ++
    if t.micros = 0 then [] else '.' :: Text.padded 6 t.micros

/-- An offset as it stands in running text. -/
def offsetText (o : Offset) : Text :=
  [if o.minutes < 0 then '-' else '+'] ++ Text.padded 2 (o.minutes.natAbs / 60) ++ ":" ++
    Text.padded 2 (o.minutes.natAbs % 60)

/-- A moment as it stands in running text. -/
def written : Moment → Text
  | .date d => dateText d
  | .time d t none => dateText d ++ " " ++ timeText t
  | .time d t (some o) => dateText d ++ " " ++ timeText t ++ offsetText o

/-- The number of days from the day before the calendar began. -/
def dayNumber (d : Date) : Nat :=
  let past := d.year - 1
  let past := past * 365 + past / 4 - past / 100 + past / 400
  let months := List.range (d.month - 1)
  months.foldl (fun days m => days + daysInMonth d.year (m + 1)) past + d.day

/-- The minutes of universal time, by a clock with an offset, since the day
    before the calendar began. -/
def universalMinutes (d : Date) (t : TimeOfDay) (o : Offset) : Int :=
  ((dayNumber d * 24 + t.hour) * 60 + t.minute : Nat) - o.minutes

/-- Whether two moments are one. -/
def same : Moment → Moment → Bool
  | .time d t (some o), .time d' t' (some o') =>
    universalMinutes d t o = universalMinutes d' t' o' && t.second = t'.second &&
      t.micros = t'.micros
  | a, b => a = b

end Moment

end Captions
