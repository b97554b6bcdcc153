import Captions.Value

/-!
# Writing JSON

The result of a run is handed over as JSON, with every element and every entry
on a line of its own and two spaces more for each level. Only quotation marks,
backslashes and control characters are escaped; all other characters stand for
themselves. The doubles that JSON has no form for are written by name.

Dates have no form at all, neither as values nor as names, and whole numbers
have a limit of digits. A value is gone through in the order in which it would
be written, and the first thing in it that cannot be is reported.

## Main definitions

* `Json.Fault`: Why a value has no text.
* `Json.fault?`: The first thing in a value that cannot be written.
* `Json.render`: The text of a value without such a thing.
-/

namespace Captions

namespace Json

/-- Why a value has no text. -/
inductive Fault where
  /-- A number has too many digits. -/
  | longNumber
  /-- There is no form for things of a kind. -/
  | noForm (kind : Text)
  /-- Things of a kind are no names. -/
  | noName (kind : Text)
  deriving DecidableEq

/-- What is said about a value that has no text. -/
def Fault.message : Fault → Text
  | .longNumber => Numeral.unwritableMessage
  | .noForm kind => "Object of type " ++ kind ++ " is not JSON serializable"
  | .noName kind => "keys must be str, int, float, bool or None, not " ++ kind

/-- Why a number cannot be written. -/
def numberFault? (x : Number) : Option Fault := if x.isWritable then none else some .longNumber

/-- Why a key is no name. -/
def nameFault? : Key → Option Fault
  | .number x => numberFault? x
  | .moment m => some (.noName m.name)
  | _ => none

mutual

/-- The first thing in a value that cannot be written. -/
def fault? : Value → Option Fault
  | .number x => numberFault? x
  | .moment m => some (.noForm m.name)
  | .list vs => faultAmong? vs
  | .map es => faultWithin? es
  | _ => none

/-- The first thing in values that cannot be written. -/
def faultAmong? : List Value → Option Fault
  | [] => none
  | v :: vs => (fault? v).or (faultAmong? vs)

/-- The first thing in entries that cannot be written. -/
def faultWithin? : List (Key × Value) → Option Fault
  | [] => none
  | (k, v) :: es => ((nameFault? k).or (fault? v)).or (faultWithin? es)

end

/-- One character inside quotation marks. -/
def quotedChar (c : Char) : Text :=
  if c = '"' ∨ c = '\\' then ['\\', c]
  else if c = '\n' then "\\n"
  else if c = '\r' then "\\r"
  else if c = '\t' then "\\t"
  else if c.toNat = 0x08 then "\\b"
  else if c.toNat = 0x0C then "\\f"
  else if c.toNat < 0x20 then "\\u" ++ Text.hex 4 c.toNat
  else [c]

/-- A text in quotation marks. -/
def quotedText (t : Text) : Text := "\"" ++ t.flatMap quotedChar ++ "\""

/-- A number. -/
def number : Number → Text
  | .double .nan => "NaN"
  | .double (.infinite s) => if s then "-Infinity" else "Infinity"
  | x => x.written

/-- The name that a member goes by. A key that is no text gives the text it
    would have as a value. A date is no name, so its text is never asked for. -/
def memberName : Key → Text
  | .null => "null"
  | .bool true => "true"
  | .bool false => "false"
  | .number x => number x
  | .text t => t
  | .moment m => m.written

/-- The beginning of a line at a level. -/
def newline (level : Nat) : Text := '\n' :: List.replicate (2 * level) ' '

mutual

/-- The text of a value at a level, which holds no date. -/
def renderAt (level : Nat) : Value → Text
  | .null => "null"
  | .bool true => "true"
  | .bool false => "false"
  | .number x => number x
  | .text t => quotedText t
  | .moment m => quotedText m.written
  | .list vs =>
    if vs.isEmpty then "[]" else "[" ++ renderItems (level + 1) vs ++ newline level ++ "]"
  | .map es =>
    if es.isEmpty then "\x7b\x7d"
    else "\x7b" ++ renderEntries (level + 1) es ++ newline level ++ "\x7d"

/-- The elements of a list, each on a line of its own. -/
def renderItems (level : Nat) : List Value → Text
  | [] => []
  | [v] => newline level ++ renderAt level v
  | v :: w :: vs => newline level ++ renderAt level v ++ "," ++ renderItems level (w :: vs)

/-- The entries of a mapping, each on a line of its own. -/
def renderEntries (level : Nat) : List (Key × Value) → Text
  | [] => []
  | [(k, v)] => newline level ++ quotedText (memberName k) ++ ": " ++ renderAt level v
  | (k, v) :: e :: es =>
    newline level ++ quotedText (memberName k) ++ ": " ++ renderAt level v ++ "," ++
      renderEntries level (e :: es)

end

/-- The text of a value. -/
def render (v : Value) : Text := renderAt 0 v

end Json

end Captions
