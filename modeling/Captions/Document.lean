import Captions.Clock
import Captions.Cue
import Captions.Text.Blank

/-!
# Subtitle documents

A subtitle document is a sequence of blocks with blank lines between them. A
block is a line with the cue's number, which may be missing, a line with two
times around an arrow, and the lines of the text.

The lines of a document are numbered from zero, and a block goes by the number
of the blank line that ends it; the end of the document counts as a blank line.
A block that cannot be read makes the whole document unreadable, and is
reported by its number and its lines.

Times are read leniently. Each of the four fields is a whole number, or the
digits it begins with, or zero, and fields may be negative or overflow into
the next, so that a document's times come out in the one canonical form however
they were written. What stands after the second time is ignored.

## Main definitions

* `Document.Chunk`, `Document.chunks`: The blocks of a list of lines.
* `Document.Entry`, `Document.Chunk.entry`: A block that has been read.
* `Document.parse`: The cues of a document.
* `Document.render`: A document with given cues.
-/

namespace Captions

namespace Document

/-- The lines of a block and the number of the blank line after them. -/
structure Chunk where
  /-- The number of the blank line that ends the block. -/
  number : Nat
  /-- The lines with their endings. -/
  lines : List Text
  deriving DecidableEq

/-- The text of a block as it stands in the document. -/
def Chunk.source (b : Chunk) : Text := b.lines.flatten

/-- Why a document cannot be read. -/
inductive Fault where
  /-- A block has too few lines, or no pair of times. -/
  | malformedBlock (block : Chunk)
  /-- A time does not have four fields. -/
  | malformedTime (block : Chunk)
  /-- A field of a time has more digits than a whole numeral may have. -/
  | longField (count : Nat)
  /-- The hours of a time have too many digits to be written. -/
  | longHours
  deriving DecidableEq

/-- What is said about a block: its number and its text. -/
def Chunk.message (b : Chunk) : Text :=
  "(" ++ Text.digits b.number ++ ", " ++ Text.quoted b.source ++ ")"

/-- What is said when a document cannot be read. -/
def Fault.message : Fault → Text
  | .malformedBlock b | .malformedTime b => b.message
  | .longField count => Numeral.tooLongMessage count
  | .longHours => Numeral.unwritableMessage

/-- The blocks of lines that are numbered from `number` on, when the lines in
    `before`, last line first, have not yet been ended by a blank line. -/
def chunksFrom : (number : Nat) → (before : List Text) → List Text → List Chunk
  | number, before, [] => if before = [] then [] else [⟨number, before.reverse⟩]
  | number, before, line :: lines =>
    if Text.isAllBlank line then
      if before = [] then chunksFrom (number + 1) [] lines
      else ⟨number, before.reverse⟩ :: chunksFrom (number + 1) [] lines
    else chunksFrom (number + 1) (line :: before) lines

/-- The blocks of a list of lines. -/
def chunks (lines : List Text) : List Chunk := chunksFrom 0 [] lines

/-- The arrow between the times of a block. -/
def arrow : Text := "-->"

/-- The text before and after the first arrow. -/
def cutAtArrow? : Text → Option (Text × Text)
  | [] => none
  | c :: t =>
    match Text.afterPrefix? arrow (c :: t) with
    | some after => some ([], after)
    | none => (cutAtArrow? t).map fun (before, after) => (c :: before, after)

/-- The texts of the two times in a line that has exactly one arrow. The second
    ends at the first space. -/
def times? (line : Text) : Option (Text × Text) :=
  match cutAtArrow? line with
  | none => none
  | some (before, after) =>
    if (cutAtArrow? after).isSome then none
    else some (Text.trim before, Text.trim ((Text.trimStart after).takeWhile (· ≠ ' ')))

/-- The number in a field of a time: the whole field, or else the digits that
    it begins with. -/
def timeField (part : Text) : Except Fault Int :=
  match Numeral.whole part with
  | .ok n => .ok n
  | .error _ =>
    match Numeral.limited (Numeral.leadingDigits part).1 with
    | .ok n => .ok n
    | .error (.tooLong count) => .error (.longField count)
    | .error .notWhole => .ok 0

/-- The milliseconds that four fields denote. -/
def millis (hours minutes seconds rest : Int) : Int :=
  ((hours * 60 + minutes) * 60 + seconds) * 1000 + rest

/-- Whether a character ends a field of a time. -/
def isTimeMark (c : Char) : Bool := c = ':' || c = '.' || c = ','

/-- The milliseconds of a time in a block. A time that is left out is zero. -/
def time (block : Chunk) (t : Text) : Except Fault Int :=
  if t = [] then .ok 0
  else
    match Text.cutAt isTimeMark t with
    | [h, m, s, r] => do
      let hours ← timeField h
      let minutes ← timeField m
      let seconds ← timeField s
      let rest ← timeField r
      return millis hours minutes seconds rest
    | _ => .error (.malformedTime block)

/-- A block that has been read, with its times in milliseconds. -/
structure Entry where
  /-- The number of the cue, the text in its place, or nothing. -/
  index : Value
  /-- When the cue appears. -/
  start : Int
  /-- When it disappears. -/
  finish : Int
  /-- What is shown. -/
  text : Text

/-- The number of a cue: a whole number, or else the text itself. -/
def index (line : Text) : Value :=
  match Numeral.whole line with
  | .ok n => .ofInt n
  | .error _ => .text line

/-- The line of the number, if there is one, and the lines after it. The first
    line is a number unless it holds an arrow. -/
def splitIndex : List Text → Value × List Text
  | [] => (.null, [])
  | line :: lines =>
    if (cutAtArrow? line).isSome then (.null, line :: lines) else (index line, lines)

/-- Read a block. -/
def Chunk.entry (b : Chunk) : Except Fault Entry :=
  if b.lines.length < 2 then .error (.malformedBlock b)
  else
    match splitIndex (b.lines.map Text.trimEnd) with
    | (_, []) => .error (.malformedBlock b)
    | (number, line :: lines) =>
      -- An arrow in the text further down is no arrow between times.
      match times? line with
      | none => .error (.malformedBlock b)
      | some (first, second) => do
        let start ← time b first
        let finish ← time b second
        return ⟨number, start, finish, Text.joinWith "\n" lines⟩

/-- The canonical text of a time, whose hours must not be too long. -/
def clockText (total : Int) : Except Fault Text :=
  let clock := Clock.ofMillis total
  if Numeral.digitLimit < (Text.digits clock.hours).length then .error .longHours
  else .ok clock.text

/-- The cue of a block that has been read. -/
def Entry.cue (e : Entry) : Except Fault Cue := do
  let start ← clockText e.start
  let finish ← clockText e.finish
  return ⟨e.index, .text start, .text finish, e.text⟩

/-- The byte order mark as a character. -/
def mark : Char := Char.ofNat 0xFEFF

/-- The lines of a document without the marks it begins with. -/
def lines (t : Text) : List Text := Text.lines (t.dropWhile (· = mark))

/-- The cues of a document. All blocks are read before the first time is
    written. -/
def parse (t : Text) : Except Fault (List Cue) := do
  -- One more blank line stands for the end of the document.
  let entries ← (chunks (lines t ++ [['\n']])).mapM Chunk.entry
  entries.mapM Entry.cue

/-- The block of a cue, with the blank line after it. -/
def renderCue (c : Cue) : Text :=
  c.index.written ++ "\n" ++ c.start.written ++ " --> " ++ c.finish.written ++ "\n" ++ c.text ++
    "\n\n"

/-- A document with these cues. -/
def render (cues : List Cue) : Text := cues.flatMap renderCue

end Document

end Captions
