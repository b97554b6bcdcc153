import Captions.Number.Binary64
import Captions.Text.Decimal

/-!
# Doubles as text

A double is written with the fewest digits that read back as the same double,
and among those with the digits nearest to its value. Very large and very
small doubles get an exponent; the others are written in full with a point, so
that a double is never mistaken for a whole number.

In log lines a double is instead written with a fixed number of places, its
exact value rounded.

## Main definitions

* `Binary64.shortest?`: The fewest digits that read back, with the place of
  the point.
* `Binary64.written`: A double in those digits.
* `Binary64.fixed`: A double with a fixed number of decimal places.
-/

namespace Captions

namespace Binary64

open Text (digits padded)

/-- The number of decimal digits before the point of a positive number of
    units: `p` where the value lies from `10 ^ (p - 1)` up to, but not
    including, `10 ^ p`. Multiplying by `10 ^ 400` first makes the value of
    every double whole enough to count its digits. -/
def magnitude (units : Nat) : Int :=
  ((Text.digitValues (units * Nat.pow 10 400 / one)).length : Int) - 400

/-- The quotient of a number of units and `10 ^ step`, as numerator and
    denominator. -/
def onGrid (units : Nat) (step : Int) : Nat × Nat :=
  if step < 0 then (units * Nat.pow 10 step.natAbs, one) else (units, one * Nat.pow 10 step.natAbs)

/-- Whether `k * 10 ^ step` rounds to this number of units. -/
def readsBack (units : Nat) (step : Int) (k : Nat) : Bool :=
  match ofDecimal false k step with
  | .finite _ v _ => v = units
  | _ => false

/-- A multiple of `10 ^ step` next to the value that reads back as it: the
    nearest, or else the other neighbour. -/
def onGrid? (units : Nat) (step : Int) : Option Nat :=
  let (num, den) := onGrid units step
  let near := roundHalfEven num den
  let far := if near = num / den then near + 1 else num / den
  if readsBack units step near then some near
  else if readsBack units step far then some far
  else none

/-- The coarsest grid that has a hit, trying `count` numbers of digits from
    `17 - count + 1` on. The answer is the significand with the place of the
    point counted from its first digit. -/
def search (units : Nat) (point : Int) : (count : Nat) → Option (List Nat × Int)
  | 0 => none
  | count + 1 =>
    -- The number of digits tried grows as the count falls.
    let step := point - ((17 - count : Nat) : Int)
    match onGrid? units step with
    | some k => some (Text.digitValues k, step + (Text.digitValues k).length)
    | none => search units point count

/-- The fewest digits that read back as a positive number of units, and how
    many of them stand before the point. Seventeen always suffice. -/
def shortest? (units : Nat) : Option (List Nat × Int) :=
  search units (magnitude units) 17

/-- The digits without the zeros they end with, all but the first digit. -/
def significant (ds : List Nat) : List Nat :=
  ds.take 1 ++ (ds.drop 1).foldr (fun d rest => if d = 0 ∧ rest = [] then [] else d :: rest) []

/-- The digits with the point where it belongs and at least one digit on both
    sides. -/
def positional (ds : List Nat) (point : Int) : Text :=
  if point ≤ 0 then
    "0." ++ List.replicate point.natAbs '0' ++ ds.map Text.digitChar
  else if ds.length ≤ point then
    ds.map Text.digitChar ++ List.replicate (point.natAbs - ds.length) '0' ++ ".0"
  else
    (ds.take point.natAbs).map Text.digitChar ++ "." ++ (ds.drop point.natAbs).map Text.digitChar

/-- The digits with the point after the first and an exponent of at least two
    digits. -/
def scientific (ds : List Nat) (point : Int) : Text :=
  (ds.take 1).map Text.digitChar ++
    (if ds.length ≤ 1 then [] else '.' :: (ds.drop 1).map Text.digitChar) ++
    (if point - 1 < 0 then "e-" else "e+") ++ padded 2 (point - 1).natAbs

/-- A positive number of units in the fewest digits. Values from `10 ^ -4` up
    to `10 ^ 16` are written in full. -/
def writtenUnits (units : Nat) : Text :=
  match shortest? units with
  | none => []
  | some (ds, point) =>
    if -4 < point ∧ point ≤ 16 then positional (significant ds) point
    else scientific (significant ds) point

/-- A double in the fewest digits that read back as it. -/
def written : Binary64 → Text
  | .nan => "nan"
  | .infinite s => if s then "-inf" else "inf"
  | .finite s u _ =>
    (if s then ['-'] else []) ++ (if u = 0 then ['0', '.', '0'] else writtenUnits u)

/-- A number of units with `places` digits after the point, rounded. -/
def fixedUnits (places units : Nat) : Text :=
  let k := roundHalfEven (units * Nat.pow 10 places) one
  digits (k / Nat.pow 10 places) ++ "." ++ padded places (k % Nat.pow 10 places)

/-- A double with a fixed, positive number of digits after the point. The sign
    stays even where only zeros are left. -/
def fixed (places : Nat) : Binary64 → Text
  | .nan => "nan"
  | .infinite s => if s then "-inf" else "inf"
  | .finite s u _ => (if s then ['-'] else []) ++ fixedUnits places u

end Binary64

end Captions
