import Captions.Number.Numeral
import Captions.Text.Quoted

/-!
# Timestamps

A cue gives its times as text: three numerals between colons, for hours,
minutes and seconds. A comma serves as well as a point in the seconds, blanks
around the text do not count, and the numerals are read as doubles, each of
which has to be finite. Nothing else is asked of them; minutes may exceed
sixty, and a field may be negative.

A malformed timestamp is reported with the text that was given and with the
first thing that is wrong with it.

## Main definitions

* `Timestamp.Malformed`: A timestamp and what is wrong with it.
* `Timestamp.fields`: The texts of the fields.
* `Timestamp.seconds`: The time in seconds.
-/

namespace Captions

namespace Timestamp

/-- What is wrong with a timestamp. -/
inductive Reason where
  /-- It is no text. -/
  | notText
  /-- It has this many fields and not three. -/
  | fieldCount (count : Nat)
  /-- A field is no number. -/
  | notNumber (field : Text)
  /-- A field is an infinity or not-a-number. -/
  | notFinite (field : Text)
  deriving DecidableEq

/-- A timestamp that could not be read. -/
structure Malformed where
  /-- The text as it was given. -/
  timestamp : Text
  /-- What is wrong. -/
  reason : Reason
  deriving DecidableEq

/-- What is wrong, in words. -/
def Reason.message : Reason → Text
  | .notText => "expected a string"
  | .fieldCount n => "expected 3 fields, got " ++ Text.digits n
  | .notNumber field => "field " ++ Text.quoted field ++ " is not a number"
  | .notFinite field => "field " ++ Text.quoted field ++ " is not finite"

/-- What is said about a malformed timestamp. -/
def Malformed.message (m : Malformed) : Text :=
  "Malformed timestamp " ++ Text.quoted m.timestamp ++ ": " ++ m.reason.message

/-- The texts between the colons, with every comma as a point. -/
def fields (t : Text) : List Text :=
  Text.cutAt (· = ':') (Text.swap ',' '.' (Text.trim t))

/-- The number in a field. -/
def field (part : Text) : Except Reason Binary64 :=
  match Numeral.double? part with
  | none => .error (.notNumber part)
  | some x => if x.isFinite then .ok x else .error (.notFinite part)

/-- The seconds in hours, minutes and seconds, each step rounded. -/
def total (hours minutes seconds : Binary64) : Binary64 :=
  ((hours.mul (Binary64.ofInt 3600)).add (minutes.mul (Binary64.ofInt 60))).add seconds

/-- The seconds that the three fields denote. -/
def ofFields : List Text → Except Reason Binary64
  | [h, m, s] => do
    let hours ← field h
    let minutes ← field m
    let seconds ← field s
    return total hours minutes seconds
  | parts => .error (.fieldCount parts.length)

/-- The time in seconds. -/
def seconds (t : Text) : Except Malformed Binary64 :=
  match ofFields (fields t) with
  | .ok x => .ok x
  | .error reason => .error ⟨t, reason⟩

/-- What is reported is the text as it was given. -/
theorem timestamp_of_seconds (t : Text) (m : Malformed) (h : seconds t = .error m) :
    m.timestamp = t := by
  unfold seconds at h
  split at h
  · exact absurd h (fun heq => nomatch heq)
  · rw [← Except.error.inj h]

end Timestamp

end Captions
