import Captions.Moment
import Captions.Yaml.Quoted

/-!
# Dates of configuration files

The form of a date: a year of four digits, a month and a day between hyphens,
and perhaps a time after it, which is set off by the letter `T` or by blanks. The
time may have places after the seconds, of which six count, and an offset or the
letter `Z` for universal time. A plain scalar is a date if it has this form, but
when there is no time, only if the month and the day have two digits each.

A scalar that has the form may still not be a date, because there is no such
day, time or offset.

## Main definitions

* `Yaml.DateForm`: The numbers of a scalar that has the form.
* `Yaml.dateForm?`: Reading them.
* `Yaml.momentValue`: The moment that a scalar denotes.
-/

namespace Captions

namespace Yaml

/-- What the end of a time says about its clock. -/
inductive Zone where
  /-- Nothing. -/
  | unknown
  /-- That it shows universal time. -/
  | universal
  /-- That it is ahead by hours and minutes, or behind. -/
  | shifted (behind : Bool) (hours minutes : Nat)

/-- The numbers of a time. -/
structure TimeForm where
  /-- The hour. -/
  hour : Nat
  /-- The minute. -/
  minute : Nat
  /-- The second. -/
  second : Nat
  /-- The digits after the point. -/
  places : List Nat
  /-- What is said about the clock. -/
  zone : Zone

/-- The numbers of a date, and of a time if there is one. -/
structure DateForm where
  /-- The year. -/
  year : Nat
  /-- The month. -/
  month : Nat
  /-- The day. -/
  day : Nat
  /-- The time. -/
  time : Option TimeForm

/-- The number of two digits, and what follows them. -/
def twoDigits? : Text → Option (Nat × Text)
  | a :: b :: t => do return (10 * (← digitBelow? 10 a) + (← digitBelow? 10 b), t)
  | _ => none

/-- The number of two digits or of one, and what follows. -/
def oneOrTwoDigits? (t : Text) : Option (Nat × Text) :=
  match twoDigits? t, t with
  | some found, _ => some found
  | none, a :: t => (digitBelow? 10 a).map (·, t)
  | none, [] => none

/-- Whether a character is a space or a tab. -/
def isSpacing (c : Char) : Bool := c = ' ' || c = '\t'

/-- What the end of a time says about its clock, if it is the end of one. -/
def zone? (t : Text) : Option Zone :=
  match t, t.dropWhile isSpacing with
  | [], _ => some .unknown
  | _, ['Z'] => some .universal
  | _, sign :: t => do
    guard (sign = '-' ∨ sign = '+')
    let (hours, t) ← oneOrTwoDigits? t
    match t with
    | [] => return .shifted (sign = '-') hours 0
    | ':' :: t =>
      let (minutes, t) ← twoDigits? t
      guard (t = [])
      return .shifted (sign = '-') hours minutes
    | _ => none
  | _, [] => none

/-- The digits after a point, if there is one, and what follows them. -/
def places : Text → List Nat × Text
  | '.' :: t =>
    let ds := t.takeWhile Char.isDigit
    (ds.filterMap (digitBelow? 10), t.drop ds.length)
  | t => ([], t)

/-- The numbers of a text that has the form of a time. -/
def timeForm? (t : Text) : Option TimeForm := do
  let (hour, t) ← oneOrTwoDigits? t
  let (minute, t) ← twoDigits? (← Text.afterPrefix? ":" t)
  let (second, t) ← twoDigits? (← Text.afterPrefix? ":" t)
  let zone ← zone? (places t).2
  return ⟨hour, minute, second, (places t).1, zone⟩

/-- The numbers of a text that has the form of a date. -/
def dateForm? (t : Text) : Option DateForm := do
  let (century, t) ← twoDigits? t
  let (year, t) ← twoDigits? t
  let (month, t) ← oneOrTwoDigits? (← Text.afterPrefix? "-" t)
  let (day, t) ← oneOrTwoDigits? (← Text.afterPrefix? "-" t)
  let found (time : Option TimeForm) : DateForm := ⟨100 * century + year, month, day, time⟩
  match t with
  | [] => return found none
  | c :: after =>
    if c = 'T' ∨ c = 't' then return found (some (← timeForm? after))
    else
      guard (isSpacing c)
      return found (some (← timeForm? (t.dropWhile isSpacing)))

/-- Whether a plain scalar is a date by its form. -/
def isDate (t : Text) : Bool :=
  match dateForm? t with
  | none => false
  -- Without a time, the form with single digits is that of a text.
  | some f => f.time.isSome || t.length = 10

/-- The microseconds that digits after a point denote. Six digits are below a
    million, so the remainder is what they denote. -/
def microsOf (ds : List Nat) : Nat :=
  Text.ofDigits ((ds ++ List.replicate 6 0).take 6) % 1000000

theorem microsOf_lt (ds : List Nat) : microsOf ds < 1000000 := Nat.mod_lt _ (by decide)

/-- The offset that the end of a time states. -/
def Zone.offset : Zone → Except Moment.Fault (Option Offset)
  | .unknown => .ok none
  | .universal => (Moment.offsetOf 0).map some
  | .shifted behind hours minutes =>
    let ahead : Int := (60 * hours + minutes : Nat)
    (Moment.offsetOf (if behind then -ahead else ahead)).map some

/-- The moment with these numbers. The offset is looked at before the date. -/
def DateForm.moment (f : DateForm) : Except Moment.Fault Moment :=
  match f.time with
  | none => do return .date (← Moment.dateOf f.year f.month f.day)
  | some t => do
    let offset ← t.zone.offset
    let date ← Moment.dateOf f.year f.month f.day
    let time ← Moment.timeOf t.hour t.minute t.second (microsOf t.places) (microsOf_lt t.places)
    return .time date time offset

/-- A text without the line feed that it ends with. -/
def withoutLineFeed (t : Text) : Text := if t.getLast? = some '\n' then t.dropLast else t

/-- The moment that a scalar denotes. -/
def momentValue (t : Text) : Except Fault Moment :=
  match dateForm? (withoutLineFeed t) with
  | none => .error .notMoment
  | some f =>
    match f.moment with
    | .ok m => .ok m
    | .error fault => .error (.noMoment fault)

end Yaml

end Captions
