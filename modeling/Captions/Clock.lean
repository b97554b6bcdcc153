import Captions.Number

/-!
# Clock readings

Subtitle files and previews show times as hours, minutes, seconds and
milliseconds. The hours are written in full, with at least two digits; the
other fields have fixed widths. There is no reading before zero.

A reading of a number of milliseconds is exact. A reading of a number of
seconds takes each field from the number on its own, in double precision: the
hours and minutes by division with remainder, the seconds by dropping the
places after the point, the milliseconds by rounding those places. Rounding up
to a full second never carries; it stops at the last millisecond, so that the
whole second shown is always the one the number lies in.

## Main definitions

* `Clock`: A reading.
* `Clock.text`: The reading as it is written.
* `Clock.ofMillis`: The reading of a number of milliseconds.
* `Clock.ofSeconds?`: The reading of a number of seconds.
-/

namespace Captions

open Text (padded)

/-- A clock reading. -/
structure Clock where
  /-- Full hours, without a limit. -/
  hours : Nat
  /-- Minutes of the hour. -/
  minutes : Nat
  /-- Seconds of the minute. -/
  seconds : Nat
  /-- Milliseconds of the second. -/
  millis : Nat
  deriving DecidableEq

namespace Clock

/-- The reading as it is written. -/
def text (c : Clock) : Text :=
  padded 2 c.hours ++ ":" ++ padded 2 c.minutes ++ ":" ++ padded 2 c.seconds ++ "," ++
    padded 3 c.millis

/-- The reading at zero. -/
def zero : Clock := ⟨0, 0, 0, 0⟩

/-- The reading of a number of milliseconds; zero if it is negative. -/
def ofMillis (total : Int) : Clock :=
  let n := total.toNat
  ⟨n / 3600000, n / 60000 % 60, n / 1000 % 60, n % 1000⟩

/-- The reading of a whole number of seconds; zero if it is negative. -/
def ofWhole (total : Int) : Clock :=
  let n := total.toNat
  ⟨n / 3600, n / 60 % 60, n % 60, 0⟩

/-- The reading of a double that is not below zero, if it is finite. -/
def ofDouble? (x : Binary64) : Option Clock := do
  let hours ← x.floorQuotient? (Binary64.ofInt 3600)
  let minutes ← (x.remainder (Binary64.ofInt 3600)).floorQuotient? (Binary64.ofInt 60)
  let seconds ← (x.remainder (Binary64.ofInt 60)).truncate?
  let millis ← ((x.remainder (Binary64.ofInt 1)).mul (Binary64.ofInt 1000)).nearest?
  -- A rounding up to the full second stops here instead of carrying.
  return ⟨hours.toNat, minutes.toNat, seconds.toNat, min millis.toNat 999⟩

/-- What is said about a time that is not finite and so has no reading. -/
def notFiniteMessage : Text := "cannot convert float NaN to integer"

/-- The reading of a number of seconds, if it is finite or below zero. All
    numbers below zero read as zero. -/
def ofSeconds? (x : Number) : Option Clock :=
  if x.isBelow 0 then some zero
  else
    match x with
    | .whole n => some (ofWhole n)
    | .double d => ofDouble? d

end Clock

end Captions
