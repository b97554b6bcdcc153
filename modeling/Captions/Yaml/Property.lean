import Captions.Text.Utf8
import Captions.Yaml.Block
import Captions.Yaml.Quoted

/-!
# Anchors, tags and directives

What stands beside the nodes of a document. An anchor gives a node a name. A tag
says what kind of node it is, either by its full name between angle brackets or
by a handle and the rest of the name; `!` and `!!` are handles, and a directive
can make further ones. In the names of tags a percent sign escapes an octet.

## Main definitions

* `Yaml.anchorName`: The name of an anchor.
* `Yaml.tag`: A tag.
* `Yaml.directive`: A directive.
-/

namespace Captions

namespace Yaml

/-- Whether a character may stand in the name of an anchor, a handle or a
    directive. -/
def isWord (c : Char) : Bool := c.isAlphanum || c = '-' || c = '_'

/-- Whether a character may stand in the name of a tag. -/
def isTagChar (c : Char) : Bool :=
  c.isAlphanum || ("-;/?:@&=+$,_.!~*'()[]%" : Text).contains c

/-- The name of an anchor, after its mark. -/
def anchorName (r : Reader) : Except Fault (Text × Reader) :=
  let name := r.rest.takeWhile isWord
  let after := r.skip name.length
  let ends := atGap after.rest || after.rest.head?.any (("?:,]\x7d%@\x60" : Text).contains ·)
  if name ≠ [] ∧ ends then .ok (name, after) else .error .malformed

/-- The octets of a name in which percent signs escape octets. -/
def unescaped : Text → Option Octets
  | [] => some []
  | '%' :: a :: b :: t => do
    let n ← hexNumber? [a, b]
    let rest ← unescaped t
    return UInt8.ofNat n :: rest
  | c :: t => if c = '%' then none else (unescaped t).map (Utf8.encodeChar c ++ ·)

/-- The name of a tag, without its handle. -/
def tagName (r : Reader) : Except Fault (Text × Reader) :=
  let written := r.rest.takeWhile isTagChar
  match (unescaped written).map Utf8.decode with
  | some (.ok name) =>
    if written = [] then .error .malformed else .ok (name, r.skip written.length)
  | _ => .error .malformed

/-- A handle: an exclamation mark, or a word between two of them. -/
def handle (r : Reader) : Except Fault (Text × Reader) :=
  match r.rest with
  | '!' :: ' ' :: _ => .ok (['!'], r.skip 1)
  | '!' :: t =>
    let word := t.takeWhile isWord
    if (t.drop word.length).head? = some '!' then
      .ok (['!'] ++ word ++ ['!'], r.skip (word.length + 2))
    else .error .malformed
  | _ => .error .malformed

/-- Whether a second exclamation mark stands in the word after the first. -/
def hasHandle (t : Text) : Bool := (t.takeWhile fun c => c ≠ ' ' && !isBreak c).contains '!'

/-- A tag, with its mark still to be read. A mark alone is a name of its own. -/
def tag (r : Reader) : Except Fault (Tag × Reader) := do
  let (found, after) ←
    match r.rest.drop 1 with
    | '<' :: _ => do
      let (name, after) ← tagName (r.skip 2)
      if after.rest.head? = some '>' then pure (⟨none, name⟩, after.skip 1)
      else throw .malformed
    | t =>
      if atGap t then pure (⟨none, ['!']⟩, r.skip 1)
      else do
        let (word, next) ← if hasHandle t then handle r else pure (['!'], r.skip 1)
        let (name, after) ← tagName next
        pure (⟨some word, name⟩, after)
  if atSpace after.rest then return (found, after) else throw .malformed

/-- A row of ASCII digits as a number. -/
def number (r : Reader) : Except Fault (Nat × Reader) :=
  let ds := r.rest.takeWhile Char.isDigit
  match ds with
  | [] => .error .malformed
  | _ => .ok ((Numeral.ofBase? 10 ds).getD 0, r.skip ds.length)

/-- The version after its directive's name. -/
def version (r : Reader) : Except Fault (Directive × Reader) := do
  let (major, after) ← number r
  if after.rest.head? ≠ some '.' then throw .malformed
  let (_, last) ← number (after.skip 1)
  if atSpace last.rest then return (.version major, last) else throw .malformed

/-- The handle and its meaning after their directive's name. -/
def handleMeaning (r : Reader) : Except Fault (Directive × Reader) := do
  let (name, after) ← handle r
  if after.rest.head? ≠ some ' ' then throw .malformed
  let (meaning, last) ← tagName (after.skipWhile (· = ' '))
  if atSpace last.rest then return (.handle name meaning, last) else throw .malformed

/-- A directive, after its mark, with its line. -/
def directive (r : Reader) : Except Fault (Directive × Reader) := do
  let name := r.rest.takeWhile isWord
  let after := r.skip name.length
  if name = [] ∨ !atSpace after.rest then throw .malformed
  let argument := after.skipWhile (· = ' ')
  let (found, last) ←
    if name = "YAML" then version argument
    else if name = "TAG" then handleMeaning argument
    else pure (.other, after.skipWhile fun c => !isBreak c)
  let next ← ignoredLine last
  return (found, next)

end Yaml

end Captions
