import Captions.Moment
import Captions.Number
import Captions.Number.Numeral
import Captions.Text.Quoted

/-!
# Faults of configuration files

Why the text of a configuration file gives no value. A text that is not well
formed is refused without saying more. A text that is well formed may still
demand a number, a truth value, a date or a character that is none; it is then
reported which one.

## Main definitions

* `Yaml.Fault`: The faults.
* `Yaml.Fault.message`: What is said about them.
-/

namespace Captions

namespace Yaml

/-- Why a text gives no value. -/
inductive Fault where
  /-- It is not well formed. -/
  | malformed
  /-- An escaped code point lies beyond all characters. -/
  | noCharacter
  /-- An escaped code point is not even a small number. -/
  | hugeCodePoint
  /-- A scalar is no whole number in a base. -/
  | notWhole (base : Nat) (literal : Text)
  /-- A scalar is no double. -/
  | notDouble (literal : Text)
  /-- A scalar is no truth value. -/
  | notTruth (literal : Text)
  /-- A scalar of which a number is demanded has no characters at all. -/
  | nothingThere
  /-- A whole number has too many digits. -/
  | tooLong (count : Nat)
  /-- A power of sixty lies beyond the doubles. -/
  | overflow (o : Number.Overflow)
  /-- A scalar of which a date is demanded does not have the form of one. -/
  | notMoment
  /-- A scalar has the form of a date, but there is no such date. -/
  | noMoment (fault : Moment.Fault)
  deriving DecidableEq

/-- The most characters of a quoted literal that a message shows. -/
def literalLimit : Nat := 200

/-- What is said about a fault. Nothing is said about a text that is not well
    formed. -/
def Fault.message : Fault → Text
  | .malformed => []
  | .noCharacter => "chr() arg not in range(0x110000)"
  | .hugeCodePoint => "Python int too large to convert to C int"
  | .notWhole base t =>
    "invalid literal for int() with base " ++ Text.digits base ++ ": " ++
      (Text.quoted t).take literalLimit
  | .notDouble t => "could not convert string to float: " ++ Text.quoted t
  | .notTruth t => Text.quoted t
  | .nothingThere => "string index out of range"
  | .tooLong count => Numeral.tooLongMessage count
  | .overflow o => o.message
  | .notMoment => "'NoneType' object has no attribute 'groupdict'"
  | .noMoment fault => fault.message

end Yaml

end Captions
