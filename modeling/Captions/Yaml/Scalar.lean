import Captions.Text.Case
import Captions.Value
import Captions.Yaml.Moment

/-!
# Scalars of configuration files

A plain scalar stands for nothing, a truth value, a number or a date if it has
the form of one, and otherwise for itself. Whole numbers may be binary, octal,
hexadecimal or sexagesimal; doubles need a point, and a sign in the exponent.
Underscores in a number do not count.

A tag settles the kind of a scalar whatever its form. What is demanded is then
read more freely than the form of a plain scalar admits, and it may turn out not
to be there.

## Main definitions

* `Yaml.Kind`: The kinds of things in a file.
* `Yaml.Kind.ofForm`: The kind that a plain scalar has the form of.
* `Yaml.wholeValue`, `Yaml.doubleValue`, `Yaml.truthValue`: What is read when a
  kind is demanded.
-/

namespace Captions

namespace Yaml

/-- The kinds of things in a file. -/
inductive Kind where
  /-- Nothing. -/
  | null
  /-- A truth value. -/
  | truth
  /-- A whole number. -/
  | whole
  /-- A double. -/
  | double
  /-- A text. -/
  | text
  /-- A date. -/
  | moment
  /-- A list. -/
  | list
  /-- A mapping. -/
  | map
  /-- The key `<<`, which merges mappings. -/
  | merge
  /-- The key `=`, which gives the scalar that a mapping stands for. -/
  | standard
  /-- Anything else. -/
  | foreign
  deriving DecidableEq

/-- The kind that the notation calls by a name. -/
def Kind.named (name : Text) : Kind :=
  let kinds : List (Text × Kind) :=
    [ ("null", .null), ("bool", .truth), ("int", .whole), ("float", .double), ("str", .text),
      ("timestamp", .moment), ("seq", .list), ("map", .map), ("merge", .merge),
      ("value", .standard) ]
  (kinds.lookup name).getD .foreign

/-- The texts that stand for nothing. -/
def nullNames : List Text := ["", "~", "null", "Null", "NULL"]

/-- The words that stand for true, in lower case. -/
def trueNames : List Text := ["true", "yes", "on"]

/-- The words that stand for false, in lower case. -/
def falseNames : List Text := ["false", "no", "off"]

/-- The spellings of a word that a plain scalar may have: in lower case, with a
    capital, or in capitals. -/
def spellings (t : Text) : List Text :=
  [t, (t.take 1).map Char.toUpper ++ t.drop 1, t.map Char.toUpper]

/-- Whether all characters are digits below `base` or underscores, and there is
    at least one. -/
def isDigits (base : Nat) (t : Text) : Bool :=
  !t.isEmpty && t.all fun c => c = '_' || (digitBelow? base c).isSome

/-- Whether a text is a decimal digit followed by digits and underscores. -/
def isDecimal (t : Text) : Bool := isDigits 10 t && t.head? ≠ some '_'

/-- Whether a text is a number below sixty of one or two digits. -/
def isSixtieth : Text → Bool
  | [d] => (digitBelow? 10 d).isSome
  | [c, d] => (digitBelow? 6 c).isSome && (digitBelow? 10 d).isSome
  | _ => false

/-- Whether a text is decimal digits, with sixtieths after colons. -/
def isSexagesimal (t : Text) : Bool :=
  match Text.cutAt (· = ':') t with
  | [] => false
  | first :: more => isDecimal first && more.all isSixtieth

/-- Whether a text has the form of a whole number. -/
def isWhole (t : Text) : Bool :=
  match (Numeral.sign t).2 with
  | '0' :: 'b' :: ds => isDigits 2 ds
  | '0' :: 'x' :: ds => isDigits 16 ds
  | ['0'] => true
  | '0' :: ds => isDigits 8 ds
  | body => isSexagesimal body

/-- Whether a text is empty or an exponent with a sign. -/
def isExponent : Text → Bool
  | [] => true
  | e :: sign :: ds =>
    (e = 'e' || e = 'E') && (sign = '-' || sign = '+') && isDecimal ds && !ds.contains '_'
  | _ => false

/-- Whether what follows a point has the form of places and an exponent. -/
def isPlaces (t : Text) : Bool :=
  isExponent (t.dropWhile fun c => c = '_' || (digitBelow? 10 c).isSome)

/-- Whether a text has the form of a double. -/
def isDouble (t : Text) : Bool :=
  let body := (Numeral.sign t).2
  let infinities : List Text := [".inf", ".Inf", ".INF"]
  let nans : List Text := [".nan", ".NaN", ".NAN"]
  infinities.contains body || nans.contains t ||
    match body.takeWhile (· ≠ '.'), body.dropWhile (· ≠ '.') with
    | [], '.' :: places =>
      t.head? = some '.' && (places.head?.bind (digitBelow? 10)).isSome && isPlaces places
    | whole, '.' :: places =>
      (isDecimal whole && isPlaces places) ||
        (isSexagesimal whole && places.all fun c => c = '_' || (digitBelow? 10 c).isSome)
    | _, _ => false

/-- The kind that a scalar has the form of. A line feed at the end does not
    count. -/
def Kind.ofForm (t : Text) : Kind :=
  let body := if t.getLast? = some '\n' ∧ t ≠ ['\n'] then t.dropLast else t
  if ((trueNames ++ falseNames).flatMap spellings).contains body then .truth
  else if isDouble body then .double
  else if isWhole body then .whole
  else if body = "<<" then .merge
  else if nullNames.contains body then .null
  else if isDate body then .moment
  else if body = "=" then .standard
  else .text

/-- The text without its underscores. -/
def withoutUnderscores (t : Text) : Text := t.filter (· ≠ '_')

/-- The number that a decimal numeral denotes. -/
def ofDecimalNumeral (t : Text) : Except Fault Int :=
  match Numeral.whole t with
  | .ok n => .ok n
  | .error .notWhole => .error (.notWhole 10 t)
  | .error (.tooLong count) => .error (.tooLong count)

/-- The number that a numeral in another base denotes. -/
def ofBaseNumeral (base : Nat) (letter : Char) (t : Text) : Except Fault Int :=
  match Numeral.inBase? base letter t with
  | some n => .ok n
  | none => .error (.notWhole base t)

/-- The number that numerals between colons denote, each sixty times the
    next. -/
def ofSixtieths (parts : List Text) : Except Fault Int :=
  parts.foldlM (fun n part => do return 60 * n + (← ofDecimalNumeral part)) 0

/-- The whole number that a scalar without underscores and sign denotes. -/
def wholeMagnitude (t : Text) : Except Fault Int :=
  match t with
  | [] => .error .nothingThere
  | ['0'] => .ok 0
  | '0' :: 'b' :: ds => ofBaseNumeral 2 'b' ds
  | '0' :: 'x' :: ds => ofBaseNumeral 16 'x' ds
  | '0' :: _ => ofBaseNumeral 8 'o' t
  | _ =>
    if t.contains ':' then ofSixtieths (Text.cutAt (· = ':') t) else ofDecimalNumeral t

/-- The whole number that a scalar denotes. The sign may be followed by a
    numeral with a sign of its own. -/
def wholeValue (t : Text) : Except Fault Int :=
  match Numeral.sign (withoutUnderscores t) with
  | (negative, body) => do
    let n ← wholeMagnitude body
    return if negative then -n else n

/-- The double that a numeral denotes. -/
def ofDoubleNumeral (t : Text) : Except Fault Binary64 :=
  match Numeral.double? t with
  | some x => .ok x
  | none => .error (.notDouble t)

/-- The double nearest to a power of sixty. -/
def powerOfSixty (n : Int) : Except Fault Binary64 :=
  match (Number.whole n).toDouble with
  | .ok x => .ok x
  | .error o => .error (.overflow o)

/-- The sum of doubles given from the last to the first, each multiplied by
    sixty times what the one before was multiplied by. -/
def sumOfSixtieths (sum : Binary64) (power : Int) : List Binary64 → Except Fault Binary64
  | [] => .ok sum
  | x :: xs => do
    let p ← powerOfSixty power
    sumOfSixtieths (sum.add (x.mul p)) (power * 60) xs

/-- The double that a scalar in lower case without underscores and sign
    denotes. -/
def doubleMagnitude (t : Text) : Except Fault Binary64 :=
  if t = ".inf" then .ok (.infinite false)
  else if t = ".nan" then .ok .nan
  else if t.contains ':' then do
    let xs ← (Text.cutAt (· = ':') t).mapM ofDoubleNumeral
    sumOfSixtieths Binary64.zero 1 xs.reverse
  else ofDoubleNumeral t

/-- The double that a scalar denotes. -/
def doubleValue (t : Text) : Except Fault Binary64 :=
  match Text.lower (withoutUnderscores t) with
  | [] => .error .nothingThere
  | body => do
    let x ← doubleMagnitude (Numeral.sign body).2
    return if (Numeral.sign body).1 then x.neg else x

/-- The truth value that a scalar denotes. -/
def truthValue (t : Text) : Except Fault Bool :=
  let word := Text.lower t
  if trueNames.contains word then .ok true
  else if falseNames.contains word then .ok false
  else .error (.notTruth word)

/-- What a scalar of a kind denotes. Only scalars can have these kinds. -/
def scalarValue (kind : Kind) (t : Text) : Except Fault Value :=
  match kind with
  | .null => .ok .null
  | .truth => do return .bool (← truthValue t)
  | .whole => do return .ofInt (← wholeValue t)
  | .double => do return .ofDouble (← doubleValue t)
  | .text => .ok (.text t)
  | .moment => do return .moment (← momentValue t)
  | _ => .error .malformed

end Yaml

end Captions
