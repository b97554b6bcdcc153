import Captions.Number.Binary64
import Captions.Text.Blank
import Captions.Text.Decimal
import Captions.Text.Digit

/-!
# Reading numbers

Two kinds of numerals are read, on the command line, in timestamps and in
subtitle files. A *whole* numeral is an optional sign and digits. A *double*
numeral may have a point and an exponent, or name an infinity or no number at
all. In both, digits of every script count, a single underscore may stand
between two digits, and padding around the numeral is ignored.

Whole numerals have a limit of 4300 digits. The doubles have none: a numeral
beyond every double is an infinity, and one below all is a zero. Whole numerals
in a base that is a power of two have no limit either.

## Main definitions

* `Numeral.whole`: Reading a whole numeral.
* `Numeral.inBase?`: Reading a whole numeral in another base.
* `Numeral.double?`: Reading a double numeral.
* `Numeral.leadingDigits`: The digits that a text begins with.
-/

namespace Captions

namespace Numeral

open Text (digitValue?)

/-- The most digits that a whole numeral may have. -/
def digitLimit : Nat := 4300

/-- Why a text is no whole number. -/
inductive Fault where
  /-- It is no numeral. -/
  | notWhole
  /-- It has more digits than the limit. -/
  | tooLong (count : Nat)
  deriving DecidableEq

/-- What is said about a numeral over the limit. -/
def tooLongMessage (count : Nat) : Text :=
  "Exceeds the limit (" ++ Text.digits digitLimit ++
    " digits) for integer string conversion: value has " ++ Text.digits count ++
    " digits; use sys.set_int_max_str_digits() to increase the limit"

/-- What is said about a whole number with too many digits to be written. -/
def unwritableMessage : Text :=
  "Exceeds the limit (" ++ Text.digits digitLimit ++
    " digits) for integer string conversion; " ++
    "use sys.set_int_max_str_digits() to increase the limit"

/-- The text without the padding at either end. -/
def unpadded (t : Text) : Text :=
  Text.dropEndWhile Text.isPadding (t.dropWhile Text.isPadding)

/-- The values of the digits that a text begins with, and what follows them. -/
def leadingDigits : Text → List Nat × Text
  | [] => ([], [])
  | c :: t =>
    match digitValue? c with
    | some d => (d :: (leadingDigits t).1, (leadingDigits t).2)
    | none => ([], c :: t)

/-- The values of a run of digits with single underscores between digits, and
    what follows the run. An underscore that no digit follows is left over. -/
def digitRun : Text → List Nat × Text
  | [] => ([], [])
  | '_' :: t =>
    match t with
    | c :: rest =>
      match digitValue? c with
      | some d => (d :: (digitRun rest).1, (digitRun rest).2)
      | none => ([], '_' :: t)
    | [] => ([], ['_'])
  | c :: t =>
    match digitValue? c with
    | some d => (d :: (digitRun t).1, (digitRun t).2)
    | none => ([], c :: t)

/-- A run of digits that begins with a digit. -/
def digitsFirst (t : Text) : List Nat × Text :=
  match t with
  | '_' :: _ => ([], t)
  | _ => digitRun t

/-- Whether a sign is a minus sign, and what follows the sign. -/
def sign : Text → Bool × Text
  | '-' :: t => (true, t)
  | '+' :: t => (false, t)
  | t => (false, t)

/-- The number with these digits, unless they are too many. -/
def limited (ds : List Nat) : Except Fault Nat :=
  if digitLimit < ds.length then .error (.tooLong ds.length) else .ok (Text.ofDigits ds)

/-- The whole number that a numeral denotes. The digits are counted before it is
    asked what follows them; an underscore that no digit follows comes first. -/
def whole (t : Text) : Except Fault Int :=
  match sign (unpadded t) with
  | (negative, body) =>
    match digitsFirst body with
    | (ds, rest) =>
      if ds = [] ∨ rest.head? = some '_' then .error .notWhole
      else
        match limited ds with
        | .error fault => .error fault
        | .ok n =>
          if rest = [] then .ok (if negative then -(n : Int) else n) else .error .notWhole

/-- The value of a digit below sixteen: a digit of any script, or one of the
    letters from A to F. -/
def hexDigit? (c : Char) : Option Nat :=
  let n := c.toNat
  if 0x41 ≤ n ∧ n ≤ 0x46 then some (n - 0x37)
  else if 0x61 ≤ n ∧ n ≤ 0x66 then some (n - 0x57)
  else digitValue? c

/-- The number that digits in a base denote. -/
def ofBase? (base : Nat) (t : Text) : Option Nat :=
  if t = [] then none
  else
    t.foldlM
      (fun n c =>
        match hexDigit? c with
        | some d => if d < base then some (base * n + d) else none
        | none => none)
      0

/-- What follows a zero and the letter that marks a base, if they are there. -/
def afterBaseMark (letter : Char) (t : Text) : Text :=
  match t with
  | zero :: c :: ds => if digitValue? zero = some 0 ∧ c.toLower = letter then ds else t
  | _ => t

/-- The whole number that a numeral in a base denotes. The digits may follow the
    mark of the base, and there is no limit to them. -/
def inBase? (base : Nat) (letter : Char) (t : Text) : Option Int :=
  match sign (unpadded t) with
  | (negative, body) =>
    (ofBase? base (afterBaseMark letter body)).map fun n =>
      if negative then -(n : Int) else n

/-- Read an exponent up to the end of the text. Nothing at all is the exponent
    zero. -/
def exponent? : Text → Option Int
  | [] => some 0
  | c :: t =>
    if c = 'e' ∨ c = 'E' then
      match sign t with
      | (negative, body) =>
        match digitsFirst body with
        | (ds, []) =>
          if ds = [] then none
          else some (if negative then -(Text.ofDigits ds : Int) else Text.ofDigits ds)
        | _ => none
    else none

/-- The double nearest to the digits with the point `places` from their end,
    times a power of ten. Exponents that lie far beyond all doubles on either
    side are decided without computing the power. -/
def toDouble (negative : Bool) (ds : List Nat) (places : Nat) (exponent : Int) : Binary64 :=
  let n := Text.ofDigits ds
  let e := exponent - places
  -- A zero keeps its sign, whatever its exponent.
  if n = 0 then .finite negative 0 Binary64.representable_zero
  else if e + ds.length < -400 then .finite negative 0 Binary64.representable_zero
  else if 400 < e then .infinite negative
  else Binary64.ofDecimal negative n e

/-- A numeral made of digits, with a point among them or beside them, and an
    exponent. -/
def decimal? (negative : Bool) (t : Text) : Option Binary64 :=
  match digitsFirst t with
  | (whole, '.' :: t) =>
    match digitsFirst t with
    | (places, rest) =>
      if whole = [] ∧ places = [] then none
      else (exponent? rest).map (toDouble negative (whole ++ places) places.length)
  | (whole, rest) =>
    if whole = [] then none else (exponent? rest).map (toDouble negative whole 0)

/-- An ASCII letter in lower case. -/
def lower (t : Text) : Text := t.map Char.toLower

/-- The double that a numeral denotes. -/
def double? (t : Text) : Option Binary64 :=
  match sign (unpadded t) with
  | (negative, body) =>
    let name := lower body
    if name = "inf" ∨ name = "infinity" then some (.infinite negative)
    else if name = "nan" then some .nan
    else decimal? negative body

end Numeral

end Captions
