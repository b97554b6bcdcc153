import Captions.Yaml.Fault
import Captions.Yaml.Plain

/-!
# Block scalars

A block scalar is a run of indented lines below a vertical bar or an angle
bracket. After a bar the lines stand as they are; after an angle bracket a line
break between two lines that begin with no blank counts as a space. The
indentation is that of the first line that is not blank, unless a digit after
the mark tells it. The line breaks at the end are cut to one, or dropped or
kept altogether when a sign after the mark says so.

## Main definitions

* `Yaml.Ending`: What becomes of the line breaks at the end.
* `Yaml.ignoredLine`: The rest of a line that may only hold a comment.
* `Yaml.blockScalar`: The text of a block scalar.
-/

namespace Captions

namespace Yaml

/-- What becomes of the line breaks at the end of a block scalar. -/
inductive Ending where
  /-- They are dropped. -/
  | drop
  /-- One of them is left. -/
  | one
  /-- They are kept. -/
  | keep
  deriving DecidableEq

/-- The ending that a sign asks for. -/
def Ending.ofSign? (c : Char) : Option Ending :=
  if c = '+' then some .keep else if c = '-' then some .drop else none

/-- The reader after the rest of a line, which may hold nothing but spaces and a
    comment. -/
def ignoredLine (r : Reader) : Except Fault Reader :=
  let after := r.skipWhile (· = ' ')
  let last :=
    if after.rest.head? = some '#' then after.skipWhile fun c => !isBreak c else after
  if atLineEnd last.rest then .ok (last.skip 1) else .error .malformed

/-- What a block scalar says after its mark: the ending, and by how many columns
    it is indented. -/
structure Header where
  /-- The ending. -/
  ending : Ending
  /-- The indentation, if it is told. -/
  indent : Option Nat

/-- The sign and the digit at the beginning of a text, in either order, and how
    many of them there are. -/
def Header.read (t : Text) : Header × Nat :=
  let digit? (c : Char) : Option Nat := if c.isDigit then some (c.toNat - 0x30) else none
  match t.head?.bind Ending.ofSign?, t.head?.bind digit? with
  | some e, _ =>
    match t.tail.head?.bind digit? with
    | some n => (⟨e, some n⟩, 2)
    | none => (⟨e, none⟩, 1)
  | none, some n =>
    match t.tail.head?.bind Ending.ofSign? with
    | some e => (⟨e, some n⟩, 2)
    | none => (⟨.one, some n⟩, 1)
  | none, none => (⟨.one, none⟩, 0)

/-- The greatest column that the spaces of blank lines reach. -/
def widest : (column : Nat) → Text → Nat
  | _, [] => 0
  | column, c :: t =>
    if isBreak c then widest 0 t else max (column + 1) (widest (column + 1) t)

/-- The breaks of blank lines, and the reader at the first line that has a
    character other than a space in the columns before `indent`, or any
    character from there on. -/
def blankLinesTo (indent : Nat) : (fuel : Nat) → Reader → Text × Reader
  | 0, r => ([], r)
  | fuel + 1, r =>
    let spaces := (r.rest.takeWhile (· = ' ')).length
    let after := r.skip (min spaces (indent - r.column))
    match after.rest with
    | [] => ([], after)
    | c :: _ =>
      if isBreak c then
        let (breaks, last) := blankLinesTo indent fuel (after.skip 1)
        (unified c :: breaks, last)
      else ([], after)

/-- Whether a text begins with a blank. -/
def atBlank (t : Text) : Bool := t.head? = some ' ' || t.head? = some '\t'

/-- What joins two lines of a block scalar: the break between them, unless it is
    folded. -/
def joint (fold : Bool) (line lineBreak breaks next : Text) : Text :=
  if fold && lineBreak = ['\n'] && !atBlank line && !atBlank next then
    if breaks = [] then [' '] else []
  else lineBreak

/-- The lines of a block scalar from a reader on, after the breaks of the blank
    lines before it: their text, the break after the last, and the further
    breaks. -/
def blockLines (fold : Bool) (indent : Nat) :
    (fuel : Nat) → (breaks : Text) → Reader → Text × Text × Text × Reader
  | 0, breaks, r => ([], [], breaks, r)
  | fuel + 1, breaks, r =>
    if r.column ≠ indent ∨ r.rest = [] then ([], [], breaks, r)
    else
      let line := r.rest.takeWhile fun c => !isBreak c
      let after := r.skip line.length
      let lineBreak := (after.rest.take 1).map unified
      let (more, next) := blankLinesTo indent after.rest.length (after.skip 1)
      if next.column = indent ∧ next.rest ≠ [] then
        let (t, last) := blockLines fold indent fuel more next
        (breaks ++ line ++ joint fold line lineBreak more next.rest ++ t, last)
      else (breaks ++ line, lineBreak, more, next)

/-- The text of a block scalar, after its mark. Its lines have to reach the
    column `least`. -/
def blockScalar (fold : Bool) (least : Nat) (r : Reader) : Except Fault (Text × Reader) := do
  let (header, count) := Header.read r.rest
  if header.indent = some 0 ∨ !atSpace (r.skip count).rest then throw .malformed
  let body ← ignoredLine (r.skip count)
  let (indent, breaks, first) :=
    match header.indent with
    | some n =>
      let (breaks, first) := blankLinesTo (least + n - 1) body.rest.length body
      (least + n - 1, breaks, first)
    | none =>
      let blank := body.rest.takeWhile fun c => c = ' ' || isBreak c
      (max least (widest body.column blank), (blank.filter isBreak).map unified,
        body.skip blank.length)
  let (t, lineBreak, more, last) := blockLines fold indent first.rest.length breaks first
  match header.ending with
  | .drop => return (t, last)
  | .one => return (t ++ lineBreak, last)
  | .keep => return (t ++ lineBreak ++ more, last)

end Yaml

end Captions
