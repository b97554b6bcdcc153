import Captions.Text

/-!
# Tokens of configuration files

A configuration file is written in YAML, version 1.1. Its text is a row of
tokens: marks of documents, brackets and dashes, keys and values, scalars and
what is said about them. The tokens also make the block structure explicit.
Where a deeper column opens a list or a mapping a token says so, and where a
line steps back to the left a token closes each collection that ends there, so
that what follows needs no columns any more.

## Main definitions

* `Yaml.Token`: The tokens.
* `Yaml.Place`, `Yaml.Reader`: A place in a text, and the rest of a text from a
  place on.
-/

namespace Captions

namespace Yaml

/-- A tag as it is written: a name after a handle that stands for the beginning
    of a longer name, or the full name. -/
structure Tag where
  /-- The handle, if there is one. -/
  handle : Option Text
  /-- The name after the handle. -/
  name : Text
  deriving DecidableEq

/-- A line that says something about the document below it. -/
inductive Directive where
  /-- The version of the notation, by its first number. -/
  | version (major : Nat)
  /-- What a handle of tags stands for. -/
  | handle (name meaning : Text)
  /-- Anything else, which is passed over. -/
  | other
  deriving DecidableEq

/-- A token. -/
inductive Token where
  /-- A directive. -/
  | directive (d : Directive)
  /-- The mark at the beginning of a document. -/
  | documentStart
  /-- The mark at the end of a document. -/
  | documentEnd
  /-- A list begins by indentation. -/
  | listOpen
  /-- A mapping begins by indentation. -/
  | mapOpen
  /-- A list or a mapping by indentation ends. -/
  | blockClose
  /-- An opening square bracket. -/
  | bracketOpen
  /-- A closing square bracket. -/
  | bracketClose
  /-- An opening brace. -/
  | braceOpen
  /-- A closing brace. -/
  | braceClose
  /-- The dash before an element of a list. -/
  | dash
  /-- A comma between brackets. -/
  | comma
  /-- A key follows. -/
  | key
  /-- A value follows. -/
  | value
  /-- A name given to the node that follows. -/
  | anchor (name : Text)
  /-- The node that was given a name. -/
  | alias (name : Text)
  /-- A tag of the node that follows. -/
  | tag (t : Tag)
  /-- A scalar, and whether it is plain. -/
  | scalar (plain : Bool) (content : Text)
  deriving DecidableEq

/-- Whether a character ends a line. -/
def isBreak (c : Char) : Bool :=
  c = '\n' || c = '\r' || c.toNat = 0x85 || c.toNat = 0x2028 || c.toNat = 0x2029

/-- Whether a character separates words. -/
def isGap (c : Char) : Bool := c = ' ' || c = '\t' || isBreak c

/-- Whether a text begins with a gap or is at its end. -/
def atGap : Text → Bool
  | [] => true
  | c :: _ => isGap c

/-- Whether a text begins with a space or a break or is at its end. A tab does
    not do here. -/
def atSpace : Text → Bool
  | [] => true
  | c :: _ => c = ' ' || isBreak c

/-- Whether a line ends where a text begins. -/
def atLineEnd : Text → Bool
  | [] => true
  | c :: _ => isBreak c

/-- The line feed that a break stands for; the separators stand for
    themselves. -/
def unified (c : Char) : Char :=
  if c.toNat = 0x2028 ∨ c.toNat = 0x2029 then c else '\n'

/-- Whether a text begins with a mark of a document. -/
def atDocumentMark (t : Text) : Bool :=
  match t with
  | '-' :: '-' :: '-' :: rest | '.' :: '.' :: '.' :: rest => atGap rest
  | _ => false

/-- The byte order mark as a character. -/
def mark : Char := Char.ofNat 0xFEFF

/-- A place in a text. -/
structure Place where
  /-- The number of characters before it. -/
  index : Nat
  /-- The number of lines before it. -/
  line : Nat
  /-- The number of characters before it on its line. -/
  column : Nat
  deriving DecidableEq

/-- The place after a character. A byte order mark takes no column. -/
def Place.after (p : Place) (c : Char) : Place :=
  if isBreak c then ⟨p.index + 1, p.line + 1, 0⟩
  else if c = mark then { p with index := p.index + 1 }
  else { p with index := p.index + 1, column := p.column + 1 }

/-- The rest of a text with the place where it begins. -/
structure Reader where
  /-- What is still to be read. -/
  rest : Text
  /-- Where it begins. -/
  place : Place

namespace Reader

/-- The reader at the beginning of a text. -/
def start (t : Text) : Reader := ⟨t, ⟨0, 0, 0⟩⟩

/-- The reader after at most `n` characters. -/
def skip : (n : Nat) → Reader → Reader
  | 0, r => r
  | n + 1, r =>
    match r.rest with
    | [] => r
    | c :: rest => skip n ⟨rest, r.place.after c⟩

/-- The reader after the characters of a class. -/
def skipWhile (p : Char → Bool) (r : Reader) : Reader :=
  r.skip (r.rest.takeWhile p).length

/-- The column that is reached. -/
def column (r : Reader) : Nat := r.place.column

end Reader

end Yaml

end Captions
