import Captions.Yaml.Token

/-!
# Plain scalars

A plain scalar has no quotes. It is a row of runs with gaps between them, and
ends at a colon or a comment that a gap sets apart, at a mark of a document,
and between brackets at any character that structures the brackets. It may go
on for several lines, each of them indented; a line break between two runs
counts as a space, and blank lines between them count as line breaks.

## Main definitions

* `Yaml.blankLines`, `Yaml.folded`: What line breaks stand for.
* `Yaml.plain`: The text of a plain scalar.
-/

namespace Captions

namespace Yaml

/-- Whether a character in a plain scalar, followed by `rest`, ends its run. -/
def endsRun (inBrackets : Bool) (c : Char) (rest : Text) : Bool :=
  isGap c ||
    (c = ':' &&
      (atGap rest || (inBrackets && rest.head?.any ((",[]\x7b\x7d" : Text).contains ·)))) ||
    (inBrackets && (",?[]\x7b\x7d" : Text).contains c)

/-- The run of a plain scalar without gaps. -/
def run (inBrackets : Bool) : Text → Text
  | [] => []
  | c :: rest => if endsRun inBrackets c rest then [] else c :: run inBrackets rest

/-- The breaks of blank lines, and the reader after them. A mark of a document
    ends everything. -/
def blankLines : (fuel : Nat) → Reader → Option (Text × Reader)
  | 0, r => some ([], r)
  | fuel + 1, r =>
    match r.rest with
    | [] => some ([], r)
    | c :: _ =>
      if c = ' ' then blankLines fuel (r.skip 1)
      else if isBreak c then
        if atDocumentMark (r.skip 1).rest then none
        else (blankLines fuel (r.skip 1)).map fun (breaks, after) => (unified c :: breaks, after)
      else some ([], r)

/-- The text that a break followed by blank lines stands for: a space for a
    single line feed, and otherwise the further breaks. -/
def folded (c : Char) (breaks : Text) : Text :=
  (if unified c ≠ '\n' then [c] else if breaks = [] then [' '] else []) ++ breaks

/-- What stands between two runs of a plain scalar: spaces, or breaks with the
    spaces around them. The flag says whether there was a break. Nothing is left
    of the scalar after a mark of a document. -/
def plainGap (r : Reader) : Option Text × Reader × Bool :=
  let spaces := r.rest.takeWhile (· = ' ')
  let after := r.skip spaces.length
  match after.rest with
  | [] => (some spaces, after, false)
  | c :: _ =>
    if isBreak c then
      let next := after.skip 1
      if atDocumentMark next.rest then (none, next, true)
      else
        match blankLines next.rest.length next with
        -- The blanks before the mark belong to no token.
        | none => (none, next.skipWhile fun c => c = ' ' || isBreak c, true)
        | some (breaks, last) => (some (folded c breaks), last, true)
    else (some spaces, after, false)

/-- A plain scalar after a gap: its text, the reader after it, and whether a
    break followed its last run. Continued lines have to reach the column
    `least`. -/
def plain (inBrackets : Bool) (least : Int) :
    (fuel : Nat) → (gap : Text) → Reader → Bool → Text × Reader × Bool
  | 0, _, r, broken => ([], r, broken)
  | fuel + 1, gap, r, broken =>
    if r.rest.head? = some '#' then ([], r, broken)
    else
      let word := run inBrackets r.rest
      if word = [] then ([], r, broken)
      else
        match plainGap (r.skip word.length) with
        | (none, after, broken) => (gap ++ word, after, broken)
        | (some next, after, broken) =>
          if next = [] ∨ (!inBrackets ∧ (after.column : Int) < least) then
            (gap ++ word, after, broken)
          else
            let (more, last, broken) := plain inBrackets least fuel next after broken
            (gap ++ word ++ more, last, broken)

/-- Whether a plain scalar can begin with `c` followed by `rest`. -/
def canBegin (inBrackets : Bool) (c : Char) (rest : Text) : Bool :=
  !(isGap c || ("-?:,[]\x7b\x7d#&*!|>'\"%@\x60" : Text).contains c) ||
    (!atGap rest && (c = '-' || (!inBrackets && (c = '?' || c = ':'))))

end Yaml

end Captions
