import Captions.Text.Printable

/-!
# Quoted texts

Messages show a text that came from outside between quotes, so that blanks,
line breaks and control characters in it can be seen. The quote is the
apostrophe, unless the text holds an apostrophe and no quotation mark. Inside,
the backslash and the quote itself are escaped, line feed, carriage return and
tab have letters of their own, and any other character that is not printable
is written by its code point in two, four or eight hexadecimal digits.

## Main definitions

* `Text.hex`: A number in hexadecimal digits of a fixed width.
* `Text.quoted`: The quoted form of a text.
-/

namespace Captions

namespace Text

/-- The digits `0` to `9` and `a` to `f`. -/
def hexDigit (d : Nat) : Char :=
  if d < 10 then Char.ofNat (0x30 + d) else Char.ofNat (0x57 + d)

/-- The last `width` hexadecimal digits of a number. -/
def hex : (width n : Nat) → Text
  | 0, _ => []
  | width + 1, n => hex width (n / 16) ++ [hexDigit (n % 16)]

/-- One character inside a quoted text. -/
def escaped (quote c : Char) : Text :=
  if c = quote ∨ c = '\\' then ['\\', c]
  else if c = '\n' then ['\\', 'n']
  else if c = '\r' then ['\\', 'r']
  else if c = '\t' then ['\\', 't']
  else if isPrintable c then [c]
  else if c.toNat < 0x100 then '\\' :: 'x' :: hex 2 c.toNat
  else if c.toNat < 0x10000 then '\\' :: 'u' :: hex 4 c.toNat
  else '\\' :: 'U' :: hex 8 c.toNat

/-- The quote that a text is shown in. -/
def quoteFor (t : Text) : Char :=
  if t.contains '\'' && !t.contains '"' then '"' else '\''

/-- The text between quotes, with everything escaped that would not show. -/
def quoted (t : Text) : Text :=
  [quoteFor t] ++ t.flatMap (escaped (quoteFor t)) ++ [quoteFor t]

end Text

end Captions
