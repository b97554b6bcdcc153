import Captions.Text

/-!
# Blank characters and line breaks

Three classes of characters decide how subtitle text is taken apart, and they
differ from one another.

*Blank* characters are the Unicode white space characters together with the
four information separators U+001C to U+001F. They are stripped from the ends
of timestamps, they separate words, and a line of nothing else ends a block.
The zero width space and the byte order mark are not blank.

*Padding* is what may stand around the digits of a number: the blanks without
the information separators.

*Line breaks* end a line. Every line break is blank, so a line that consists
only of its own ending is a blank line; a carriage return followed by a line
feed is one ending, not two.

## Main definitions

* `Text.isBlank`, `Text.isPadding`, `Text.isBreak`: The three classes.
* `Text.trimStart`, `Text.trimEnd`, `Text.trim`: Removing blanks at the ends.
* `Text.words`: The maximal runs without blanks.
* `Text.lines`: The lines of a text, each with its ending.
* `Text.unifyBreaks`: Carriage returns, alone or before a line feed, written
  as line feeds.
-/

namespace Captions

namespace Text

/-- White space and the information separators. -/
def isBlank (c : Char) : Bool :=
  let n := c.toNat
  (0x09 ≤ n && n ≤ 0x0D) || (0x1C ≤ n && n ≤ 0x20) || n == 0x85 || n == 0xA0 || n == 0x1680 ||
    (0x2000 ≤ n && n ≤ 0x200A) || n == 0x2028 || n == 0x2029 || n == 0x202F || n == 0x205F ||
    n == 0x3000

/-- What may surround the digits of a number. -/
def isPadding (c : Char) : Bool :=
  isBlank c && !(0x1C ≤ c.toNat && c.toNat ≤ 0x1F)

/-- The characters that end a line. -/
def isBreak (c : Char) : Bool :=
  let n := c.toNat
  (0x0A ≤ n && n ≤ 0x0D) || (0x1C ≤ n && n ≤ 0x1E) || n == 0x85 || n == 0x2028 || n == 0x2029

theorem isBlank_of_isBreak {c : Char} (h : isBreak c = true) : isBlank c = true := by
  simp only [isBreak, isBlank, Bool.or_eq_true, Bool.and_eq_true, decide_eq_true_eq,
    beq_iff_eq] at *
  omega

/-- The text without the characters of the class that it ends with. -/
def dropEndWhile (p : Char → Bool) (t : Text) : Text :=
  t.foldr (fun c rest => if rest.isEmpty && p c then [] else c :: rest) []

/-- The text without the blanks it begins with. -/
def trimStart (t : Text) : Text := t.dropWhile isBlank

/-- The text without the blanks it ends with. -/
def trimEnd (t : Text) : Text := dropEndWhile isBlank t

/-- The text without the blanks at either end. -/
def trim (t : Text) : Text := trimEnd (trimStart t)

/-- Whether the text holds nothing but blanks. -/
def isAllBlank (t : Text) : Bool := t.all isBlank

/-- The maximal runs of characters that are not blank. -/
def words (t : Text) : List Text := (cutAt isBlank t).filter fun w => !w.isEmpty

/-- Put one more character in front of a text that is already cut into lines. A
    carriage return joins a line feed that follows it at once, because the two
    are a single ending. -/
def addToLines (c : Char) (rest : List Text) : List Text :=
  if isBreak c then
    match rest with
    | ['\n'] :: after => if c = '\r' then [c, '\n'] :: after else [c] :: rest
    | _ => [c] :: rest
  else extendFirst c rest

/-- The lines of the text, each with the break that ends it. The last line has
    no break when the text does not end in one, and an empty text has no
    lines. -/
def lines (t : Text) : List Text := t.foldr addToLines []

theorem lines_cons (c : Char) (t : Text) : lines (c :: t) = addToLines c (lines t) := rfl

/-- Put one more character in front of a text whose breaks are already unified.
    The flag says whether the character after it was a line feed, in which case
    a carriage return adds nothing. -/
def addUnified (c : Char) (rest : Bool × Text) : Bool × Text :=
  (c = '\n', if c = '\r' then (if rest.1 then rest.2 else '\n' :: rest.2) else c :: rest.2)

/-- Every carriage return, with the line feed after it if there is one, as a
    single line feed. -/
def unifyBreaks (t : Text) : Text := (t.foldr addUnified (false, [])).2

theorem flatten_addToLines (c : Char) (rest : List Text) :
    (addToLines c rest).flatten = c :: rest.flatten := by
  unfold addToLines
  split
  · split
    · split <;> simp
    · simp
  · cases rest <;> simp [extendFirst]

/-- No character is lost or moved by cutting a text into lines. -/
theorem flatten_lines (t : Text) : (lines t).flatten = t := by
  induction t with
  | nil => rfl
  | cons c t ih => rw [lines_cons, flatten_addToLines, ih]

end Text

end Captions
