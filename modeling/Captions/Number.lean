import Captions.Number.Shortest

/-!
# Numbers

A number is whole or a double, and the difference shows: `36` and `36.0` are
written differently, and whole numbers are exact however large they are. Where
the two kinds meet, the whole number is first rounded to a double, which fails
beyond the doubles' range. Comparing with a whole number needs no rounding.

## Main definitions

* `Number`: A whole number or a double.
* `Number.add`, `Number.div`: Arithmetic, which may overflow.
* `Number.compare?`: The exact comparison with a whole number.
* `Number.same`: Whether two numbers have one value.
* `Number.written`: A number as text.
-/

namespace Captions

/-- A number as settings, instructions and cue lists may give it. -/
inductive Number where
  /-- An exact whole number. -/
  | whole (n : Int)
  /-- A double. -/
  | double (x : Binary64)
  deriving DecidableEq

namespace Number

/-- Why arithmetic on whole numbers fails where doubles are needed. -/
inductive Overflow where
  /-- A whole number lies beyond the doubles. -/
  | conversion
  /-- A quotient of whole numbers lies beyond the doubles. -/
  | quotient
  deriving DecidableEq

/-- What is said about an overflow. -/
def Overflow.message : Overflow → Text
  | .conversion => "int too large to convert to float"
  | .quotient => "integer division result too large for a float"

/-- The double nearest to a number. -/
def toDouble : Number → Except Overflow Binary64
  | .double x => .ok x
  | .whole n =>
    if (Binary64.ofInt n).isFinite then .ok (Binary64.ofInt n) else .error .conversion

/-- The sum, exact if both are whole. -/
def add : Number → Number → Except Overflow Number
  | .whole a, .whole b => .ok (.whole (a + b))
  | x, y => do
    let a ← x.toDouble
    let b ← y.toDouble
    return .double (a.add b)

/-- The double nearest to the quotient of two whole numbers. -/
def ratio (a b : Int) : Except Overflow Binary64 :=
  let q := Binary64.ofRatio (decide (a < 0) != decide (b < 0)) (a.natAbs * Binary64.one) b.natAbs
  if q.isFinite then .ok q else .error .quotient

/-- The quotient, always a double. -/
def div : Number → Number → Except Overflow Binary64
  | .whole a, .whole b => ratio a b
  | x, y => do
    let a ← x.toDouble
    let b ← y.toDouble
    return a.div b

/-- How a number compares with a whole number, exactly. Not-a-number does not
    compare. -/
def compare? (x : Number) (n : Int) : Option Ordering :=
  match x with
  | .whole a => some (compare a n)
  | .double .nan => none
  | .double (.infinite s) => some (if s then .lt else .gt)
  | .double (.finite s u _) => some (compare (Binary64.signed s u) (n * Binary64.one))

/-- Whether two numbers have one value. Not-a-number counts as one value here,
    and both zeros do. -/
def same : Number → Number → Bool
  | .whole a, y => y.compare? a = some .eq
  | x, .whole b => x.compare? b = some .eq
  | .double x, .double y => x.rank = y.rank

/-- Whether a number is below a whole number. -/
def isBelow (x : Number) (n : Int) : Bool := x.compare? n = some .lt

/-- Whether a number is above a whole number. -/
def isAbove (x : Number) (n : Int) : Bool := x.compare? n = some .gt

/-- Whether a number is a whole number or below it. -/
def isAtMost (x : Number) (n : Int) : Bool := x.compare? n = some .lt || x.compare? n = some .eq

/-- Whether a number is a zero. -/
def isZero : Number → Bool
  | .whole n => n = 0
  | .double x => x.isZero

/-- A number as text. -/
def written : Number → Text
  | .whole n => Text.ofInt n
  | .double x => x.written

/-- A number with a fixed number of places after the point, as a double. -/
def fixed (places : Nat) (x : Number) : Except Overflow Text := do
  let d ← x.toDouble
  return d.fixed places

end Number

end Captions
