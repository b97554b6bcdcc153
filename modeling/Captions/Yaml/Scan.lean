import Captions.Yaml.Property

/-!
# Cutting text into tokens

A mapping by indentation is recognised only at the colon after its first key.
So a place where a key could begin is remembered, and when the colon comes, the
tokens that announce the key are put in before it. A key and its colon stand on
one line, at most 1024 characters apart. In a block, a scalar in the column of
the keys has to turn out to be one.

Tabs do not indent; they are refused wherever a token could begin.

## Main definitions

* `Yaml.Scan`: How far a text is cut into tokens.
* `Yaml.tokens`: The tokens of a text.
-/

namespace Captions

namespace Yaml

/-- A place where a key could have begun. -/
structure KeyPlace where
  /-- The number of tokens before the key. -/
  before : Nat
  /-- Whether there has to be a colon. -/
  required : Bool
  /-- Where the key begins. -/
  place : Place

/-- How far a text is cut into tokens. -/
structure Scan where
  /-- What is still to be read. -/
  reader : Reader
  /-- The number of brackets that are open. -/
  brackets : Nat := 0
  /-- The columns of the block collections that are open, innermost first. -/
  columns : List Nat := []
  /-- The possible key outside all brackets and inside each of them, innermost
      first. -/
  keys : List (Option KeyPlace) := [none]
  /-- Whether a key may begin here. -/
  keyAllowed : Bool := true
  /-- The tokens so far, last first. -/
  tokens : List Token := []

namespace Scan

/-- The column of the innermost block collection, or one before all columns. -/
def indent (s : Scan) : Int :=
  match s.columns with
  | [] => -1
  | c :: _ => c

/-- The column that is reached. -/
def column (s : Scan) : Nat := s.reader.column

/-- Add a token. -/
def push (s : Scan) (t : Token) : Scan := { s with tokens := t :: s.tokens }

/-- Go on by a number of characters. -/
def skip (s : Scan) (n : Nat) : Scan := { s with reader := s.reader.skip n }

/-- Whether a possible key is out of reach for a colon at the place. -/
def outOfReach (s : Scan) (k : KeyPlace) : Bool :=
  k.place.line ≠ s.reader.place.line || k.place.index + 1024 < s.reader.place.index

/-- Give up the possible keys that are out of reach. A required one may not be
    given up. -/
def dropDistant (s : Scan) : Except Fault Scan :=
  let distant (k : Option KeyPlace) : Bool := k.any s.outOfReach
  if s.keys.any fun k => distant k && k.any (·.required) then .error .malformed
  else .ok { s with keys := s.keys.map fun k => if distant k then none else k }

/-- Give up the possible key of the innermost bracket. -/
def dropKey (s : Scan) : Except Fault Scan :=
  match s.keys with
  | some k :: more => if k.required then .error .malformed else .ok { s with keys := none :: more }
  | _ => .ok s

/-- Remember that a key could begin here. -/
def saveKey (s : Scan) : Except Fault Scan :=
  if s.keyAllowed then do
    let s ← s.dropKey
    -- In the column of the keys nothing but a key may stand.
    let required := s.brackets = 0 && s.indent = s.column
    return { s with keys := some ⟨s.tokens.length, required, s.reader.place⟩ :: s.keys.drop 1 }
  else .ok s

/-- Close the block collections to the right of a column, with the columns that
    stay open. -/
def closedAt (column : Int) : List Nat → List Token → List Nat × List Token
  | [], tokens => ([], tokens)
  | c :: columns, tokens =>
    if column < c then closedAt column columns (.blockClose :: tokens)
    else (c :: columns, tokens)

/-- Close the block collections to the right of a column. Inside brackets
    columns do not count. -/
def close (s : Scan) (column : Int) : Scan :=
  if s.brackets = 0 then
    { s with
      columns := (closedAt column s.columns s.tokens).1
      tokens := (closedAt column s.columns s.tokens).2 }
  else s

/-- Open a block collection at a column, unless one is open there. -/
def openAt (s : Scan) (column : Nat) (t : Token) : Scan :=
  if s.brackets = 0 ∧ s.indent < column then
    { s with columns := column :: s.columns, tokens := t :: s.tokens }
  else s

/-- Put in the tokens that announce a key, after the first `k.before` tokens. -/
def announce (s : Scan) (k : KeyPlace) : Scan :=
  let later := s.tokens.take (s.tokens.length - k.before)
  let earlier := s.tokens.drop (s.tokens.length - k.before)
  let opened := openAt { s with tokens := earlier } k.place.column .mapOpen
  { opened with tokens := later ++ .key :: opened.tokens, keyAllowed := false }

/-- Skip spaces, comments and line breaks. A key may begin on a new line of a
    block. -/
def skipGap (s : Scan) : (comment : Bool) → Text → Place → Bool → Scan
  | _, [], place, allowed => { s with reader := ⟨[], place⟩, keyAllowed := allowed }
  | comment, c :: rest, place, allowed =>
    if isBreak c then skipGap s false rest (place.after c) (allowed || s.brackets = 0)
    else if comment || c = ' ' || c = '#' then
      skipGap s (comment || c = '#') rest (place.after c) allowed
    else { s with reader := ⟨c :: rest, place⟩, keyAllowed := allowed }

/-- Go on to the next token. -/
def toNext (s : Scan) : Scan := s.skipGap false s.reader.rest s.reader.place s.keyAllowed

/-- An opening bracket or brace. -/
def openBracket (s : Scan) (t : Token) : Except Fault Scan := do
  let s ← s.saveKey
  return ({ s with
    brackets := s.brackets + 1
    keys := none :: s.keys
    keyAllowed := true }.push t).skip 1

/-- A closing bracket or brace. -/
def closeBracket (s : Scan) (t : Token) : Except Fault Scan := do
  if s.brackets = 0 then throw .malformed
  let s ← s.dropKey
  return ({ s with
    brackets := s.brackets - 1
    keys := s.keys.drop 1
    keyAllowed := false }.push t).skip 1

/-- A mark of a document, which closes all block collections. -/
def documentMark (s : Scan) (t : Token) : Except Fault Scan := do
  let s ← (s.close (-1)).dropKey
  return ({ s with keyAllowed := false }.push t).skip 3

/-- A directive, which closes all block collections. -/
def directive (s : Scan) : Except Fault Scan := do
  let s ← (s.close (-1)).dropKey
  let (d, after) ← Yaml.directive (s.reader.skip 1)
  return { s with keyAllowed := false, reader := after }.push (.directive d)

/-- A dash before an element of a list. Between brackets it is a token all the
    same, but no node begins with it. -/
def dash (s : Scan) : Except Fault Scan := do
  if s.brackets = 0 ∧ !s.keyAllowed then throw .malformed
  let s ← (s.openAt s.column .listOpen).dropKey
  return ({ s with keyAllowed := true }.push .dash).skip 1

/-- A comma. -/
def comma (s : Scan) : Except Fault Scan := do
  if s.brackets = 0 then throw .malformed
  let s ← s.dropKey
  return ({ s with keyAllowed := true }.push .comma).skip 1

/-- A question mark before a key. -/
def keyMark (s : Scan) : Except Fault Scan := do
  if s.brackets = 0 ∧ !s.keyAllowed then throw .malformed
  let s ← (s.openAt s.column .mapOpen).dropKey
  return ({ s with keyAllowed := s.brackets = 0 }.push .key).skip 1

/-- A colon before a value. Without a possible key before it, it stands for an
    empty key, which a block admits only where a key may begin. -/
def colon (s : Scan) : Except Fault Scan :=
  match s.keys with
  | some k :: more => .ok ((({ s with keys := none :: more }.announce k).push .value).skip 1)
  | _ =>
    if s.brackets = 0 ∧ !s.keyAllowed then .error .malformed
    else
      let s := s.openAt s.column .mapOpen
      .ok (({ s with keyAllowed := s.brackets = 0 }.push .value).skip 1)

/-- The name of a node, which is given or used. -/
def name (s : Scan) (token : Text → Token) : Except Fault Scan := do
  let s ← s.saveKey
  let (t, after) ← anchorName (s.reader.skip 1)
  return { s with keyAllowed := false, reader := after }.push (token t)

/-- A tag. -/
def tag (s : Scan) : Except Fault Scan := do
  let s ← s.saveKey
  let (t, after) ← Yaml.tag s.reader
  return { s with keyAllowed := false, reader := after }.push (.tag t)

/-- A block scalar, after which a key may begin. -/
def block (s : Scan) (fold : Bool) : Except Fault Scan := do
  let s ← s.dropKey
  let (content, after) ← blockScalar fold (max 1 (s.indent + 1).toNat) (s.reader.skip 1)
  return { s with keyAllowed := true, reader := after }.push (.scalar false content)

/-- A scalar in quotes. -/
def quoted (s : Scan) (quote : Char) : Except Fault Scan := do
  let s ← s.saveKey
  let (content, after) ← quotedScalar quote s.reader.rest.length (s.reader.skip 1)
  return { s with keyAllowed := false, reader := after }.push (.scalar false content)

/-- A plain scalar. -/
def plain (s : Scan) : Except Fault Scan := do
  let s ← s.saveKey
  let (content, after, broken) :=
    Yaml.plain (s.brackets ≠ 0) (s.indent + 1) s.reader.rest.length [] s.reader false
  return { s with keyAllowed := broken, reader := after }.push (.scalar true content)

/-- The next token, which begins with `c`. -/
def next (s : Scan) (c : Char) (rest : Text) : Except Fault Scan :=
  if s.column = 0 ∧ c = '%' then s.directive
  else if s.column = 0 ∧ atDocumentMark (c :: rest) then
    s.documentMark (if c = '-' then .documentStart else .documentEnd)
  else if c = '[' then s.openBracket .bracketOpen
  else if c = '\x7b' then s.openBracket .braceOpen
  else if c = ']' then s.closeBracket .bracketClose
  else if c = '\x7d' then s.closeBracket .braceClose
  else if c = ',' then s.comma
  else if c = '-' ∧ atGap rest then s.dash
  else if c = '?' ∧ (s.brackets ≠ 0 ∨ atGap rest) then s.keyMark
  else if c = ':' ∧ (s.brackets ≠ 0 ∨ atGap rest) then s.colon
  else if c = '*' then s.name .alias
  else if c = '&' then s.name .anchor
  else if c = '!' then s.tag
  else if (c = '|' ∨ c = '>') ∧ s.brackets = 0 then s.block (c = '>')
  else if c = '\'' ∨ c = '"' then s.quoted c
  else if canBegin (s.brackets ≠ 0) c rest then s.plain
  else .error .malformed

/-- The end of the text, where all block collections close. -/
def finish (s : Scan) : Except Fault (List Token) := do
  let s ← (s.close (-1)).dropKey
  return s.tokens.reverse

/-- Read tokens to the end of the text. Every token takes at least one
    character. -/
def run : (fuel : Nat) → Scan → Except Fault (List Token)
  | 0, _ => .error .malformed
  | fuel + 1, s => do
    let s ← s.toNext.dropDistant
    -- A step back to the left ends collections before the token is read.
    let s := s.close s.column
    match s.reader.rest with
    | [] => s.finish
    | c :: rest => run fuel (← s.next c rest)

end Scan

/-- Whether a file may hold a character. -/
def isAllowed (c : Char) : Bool :=
  let n := c.toNat
  n = 0x09 || n = 0x0A || n = 0x0D || (0x20 ≤ n && n ≤ 0x7E) || n = 0x85 ||
    (0xA0 ≤ n && n ≤ 0xD7FF) || (0xE000 ≤ n && n ≤ 0xFFFD) || 0x10000 ≤ n

/-- The text without one byte order mark at its beginning. -/
def withoutMark : Text → Text
  | [] => []
  | c :: rest => if c = mark then rest else c :: rest

/-- The tokens of a text, if it is well formed. -/
def tokens (t : Text) : Except Fault (List Token) :=
  if t.all isAllowed then Scan.run (t.length + 1) { reader := Reader.start (withoutMark t) }
  else .error .malformed

end Yaml

end Captions
