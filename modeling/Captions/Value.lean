import Captions.Moment
import Captions.Number
import Captions.Number.Numeral
import Captions.Text.Quoted

/-!
# Values

A configuration file may give any value for any setting, and a list of cues may
carry anything where a time belongs. Nothing is rejected for its kind until it
is used, so settings, cue numbers and sources are held as plain values.

A value has two texts. *Written*, a text is just its characters. As a *literal*
a text stands in quotes, so that messages show where it begins and ends; inside
lists and mappings every text is a literal. A whole number has a limit of digits
in either: a value that holds a longer one has neither text, and whoever hands
one out asks for `isWritable` first.

The entries of a mapping go by keys, which are mostly texts, but may be any
value that is no collection. Keys are told apart as the numbers they count as:
one, one as a double and the truth value are a single key. Dates are told apart
as moments.

## Main definitions

* `Key`: What an entry of a mapping goes by.
* `Key.same`: Whether two keys are one.
* `Value`: Nothing, a truth value, a number, a text, a date, a list or a
  mapping.
* `Value.isSet`: Whether a value counts as given.
* `Value.literal`, `Value.written`: The two texts of a value.
* `Value.isWritable`: Whether a value has these texts.
* `Value.kind`, `Value.kindName`: The name of a value's kind.
* `Value.number?`: The number that a value counts as.
-/

namespace Captions

/-- Whether a number is short enough to be handed out as text. Whole numbers are
    exact however large they are, but have a limit of digits in writing. -/
def Number.isWritable : Number → Bool
  | .whole n => (Text.digits n.natAbs).length ≤ Numeral.digitLimit
  | .double _ => true

/-- What an entry of a mapping goes by. -/
inductive Key where
  /-- No value. -/
  | null
  /-- A truth value. -/
  | bool (b : Bool)
  /-- A number. -/
  | number (x : Number)
  /-- A text. -/
  | text (t : Text)
  /-- A date. -/
  | moment (m : Moment)
  deriving DecidableEq

instance : Coe Text Key := ⟨.text⟩

namespace Key

/-- A key with its text in quotes. -/
def literal : Key → Text
  | .null => "None"
  | .bool true => "True"
  | .bool false => "False"
  | .number x => x.written
  | .text t => Text.quoted t
  | .moment m => m.literal

/-- A key as it stands in running text. -/
def written : Key → Text
  | .text t => t
  | .moment m => m.written
  | k => k.literal

/-- The number that a key counts as. -/
def number? : Key → Option Number
  | .bool b => some (.whole (if b then 1 else 0))
  | .number x => some x
  | _ => none

/-- Whether a key is short enough to be handed out as text. -/
def isWritable : Key → Bool
  | .number x => x.isWritable
  | _ => true

/-- Whether two keys are one. -/
def same (a b : Key) : Bool :=
  match a, b with
  | .moment m, .moment n => m.same n
  | _, _ =>
    match a.number?, b.number? with
    | some x, some y => x.same y
    | _, _ => a = b

end Key

/-- A value of a setting or of a cue's field. -/
inductive Value where
  /-- No value. -/
  | null
  /-- A truth value. -/
  | bool (b : Bool)
  /-- A number. -/
  | number (x : Number)
  /-- A text. -/
  | text (t : Text)
  /-- A date. -/
  | moment (m : Moment)
  /-- Values in order. -/
  | list (values : List Value)
  /-- Values under distinct keys, in the order they were given. -/
  | map (entries : List (Key × Value))

namespace Value

instance : Inhabited Value := ⟨.null⟩

/-- A whole number. -/
def ofInt (n : Int) : Value := .number (.whole n)

/-- A double. -/
def ofDouble (x : Binary64) : Value := .number (.double x)

/-- A text given as a literal. -/
def ofString (s : String) : Value := .text s

/-- Whether a value counts as given: it is neither nothing nor false, nor a
    zero, nor empty. Not-a-number counts as given, and so does every date. -/
def isSet : Value → Bool
  | .null => false
  | .bool b => b
  | .number x => !x.isZero
  -- A text of blanks is not empty.
  | .text t => !t.isEmpty
  | .moment _ => true
  | .list vs => !vs.isEmpty
  | .map es => !es.isEmpty

mutual

/-- A value with its texts in quotes. -/
def literal : Value → Text
  | .null => Key.null.literal
  | .bool b => (Key.bool b).literal
  | .number x => (Key.number x).literal
  | .text t => (Key.text t).literal
  | .moment m => (Key.moment m).literal
  | .list vs => "[" ++ literals vs ++ "]"
  | .map es => "\x7b" ++ entryLiterals es ++ "\x7d"

/-- The literals of values, separated by commas. -/
def literals : List Value → Text
  | [] => []
  | [v] => literal v
  | v :: w :: vs => literal v ++ ", " ++ literals (w :: vs)

/-- The literals of keys and their values, separated by commas. -/
def entryLiterals : List (Key × Value) → Text
  | [] => []
  | [(k, v)] => k.literal ++ ": " ++ literal v
  | (k, v) :: e :: es => k.literal ++ ": " ++ literal v ++ ", " ++ entryLiterals (e :: es)

end

/-- A value as it stands in running text. -/
def written : Value → Text
  | .text t => t
  | .moment m => m.written
  | v => v.literal

mutual

/-- Whether the numbers in a value are short enough to be handed out as text. -/
def isWritable : Value → Bool
  | .number x => x.isWritable
  | .list vs => areWritable vs
  | .map es => entriesWritable es
  | _ => true

/-- Whether the numbers in values are short enough. -/
def areWritable : List Value → Bool
  | [] => true
  | v :: vs => isWritable v && areWritable vs

/-- Whether the numbers in entries are short enough. -/
def entriesWritable : List (Key × Value) → Bool
  | [] => true
  | (k, v) :: es => k.isWritable && isWritable v && entriesWritable es

end

/-- The name of the value's kind. -/
def kind : Value → Text
  | .null => "NoneType"
  | .bool _ => "bool"
  | .number (.whole _) => "int"
  | .number (.double _) => "float"
  | .text _ => "str"
  | .moment m => "datetime." ++ m.name
  | .list _ => "list"
  | .map _ => "dict"

/-- The name of the value's kind without the library that it comes from. -/
def kindName : Value → Text
  | .moment m => m.name
  | v => v.kind

/-- The number that a value counts as. Truth values count as one and zero. -/
def number? : Value → Option Number
  | .bool b => some (.whole (if b then 1 else 0))
  | .number x => some x
  | _ => none

/-- The value under a name in a list of entries. -/
def find? (name : Text) : List (Key × Value) → Option Value
  | [] => none
  | (k, v) :: es => if k = .text name then some v else find? name es

end Value

end Captions
