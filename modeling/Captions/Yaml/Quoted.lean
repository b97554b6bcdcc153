import Captions.Yaml.Fault
import Captions.Yaml.Plain

/-!
# Scalars in quotes

Between apostrophes every character stands for itself, and an apostrophe is
written twice. Between quotation marks a backslash escapes: a letter after it
stands for a control character, two, four or eight hexadecimal digits for the
character with that code point, and a line break for nothing. In both forms a
line break counts as a space, and blank lines count as line breaks.

A code point may be half of a surrogate pair. No text here can hold one, so it is
reported as a fault in form, although it is none.

## Main definitions

* `Yaml.escaped`: What a backslash with what follows it stands for.
* `Yaml.quotedScalar`: The text of a scalar in quotes.
-/

namespace Captions

namespace Yaml

/-- The breaks inside quotes after a first one, with the blanks before them. -/
def quotedBreaks : (fuel : Nat) → Reader → Except Fault (Text × Reader)
  | 0, r => .ok ([], r)
  | fuel + 1, r =>
    if atDocumentMark r.rest then .error .malformed
    else
      let after := r.skipWhile fun c => c = ' ' || c = '\t'
      match after.rest with
      | [] => .ok ([], after)
      | c :: _ =>
        if isBreak c then do
          let (breaks, last) ← quotedBreaks fuel (after.skip 1)
          return (unified c :: breaks, last)
        else .ok ([], after)

/-- What blanks inside quotes stand for, up to the next character that is
    none. -/
def quotedGap (r : Reader) : Except Fault (Text × Reader) :=
  let blanks := r.rest.takeWhile fun c => c = ' ' || c = '\t'
  let after := r.skip blanks.length
  match after.rest with
  | [] => .error .malformed
  | c :: _ =>
    if isBreak c then do
      let (breaks, last) ← quotedBreaks after.rest.length (after.skip 1)
      return (folded c breaks, last)
    else .ok (blanks, after)

/-- The character that a letter after a backslash stands for. -/
def escape? (c : Char) : Option Char :=
  match c with
  | '0' => some (Char.ofNat 0)
  | 'a' => some (Char.ofNat 0x07)
  | 'b' => some (Char.ofNat 0x08)
  | 't' | '\t' => some '\t'
  | 'n' => some '\n'
  | 'v' => some (Char.ofNat 0x0B)
  | 'f' => some (Char.ofNat 0x0C)
  | 'r' => some '\r'
  | 'e' => some (Char.ofNat 0x1B)
  | ' ' | '"' | '\\' | '/' => some c
  | 'N' => some (Char.ofNat 0x85)
  | '_' => some (Char.ofNat 0xA0)
  | 'L' => some (Char.ofNat 0x2028)
  | 'P' => some (Char.ofNat 0x2029)
  | _ => none

/-- The number of hexadecimal digits after a letter that announces them. -/
def escapeWidth? (c : Char) : Option Nat :=
  match c with
  | 'x' => some 2
  | 'u' => some 4
  | 'U' => some 8
  | _ => none

/-- The value of an ASCII digit in a base up to sixteen. -/
def digitBelow? (base : Nat) (c : Char) : Option Nat :=
  if c.toNat < 0x80 then (Numeral.hexDigit? c).filter (· < base) else none

/-- The number that hexadecimal digits denote. -/
def hexNumber? (t : Text) : Option Nat :=
  t.foldlM (fun n c => (digitBelow? 16 c).map (16 * n + ·)) 0

/-- The character with a code point, if there is one. -/
def character (n : Nat) : Except Fault Char :=
  if h : n.isValidChar then .ok (Char.ofNatAux n h)
  else if n < 0x110000 then .error .malformed
  else if n < 0x80000000 then .error .noCharacter
  else .error .hugeCodePoint

/-- What a backslash with what follows it stands for. -/
def escaped (r : Reader) : Except Fault (Text × Reader) :=
  match r.rest with
  | [] => .error .malformed
  | c :: rest =>
    match escape? c, escapeWidth? c with
    | some d, _ => .ok ([d], r.skip 1)
    | none, some width =>
      match hexNumber? (rest.take width) with
      | none => .error .malformed
      | some n =>
        if rest.length < width then .error .malformed
        else do
          let d ← character n
          return ([d], r.skip (width + 1))
    | none, none => if isBreak c then quotedBreaks rest.length (r.skip 1) else .error .malformed

/-- A scalar in quotes, after the first one. -/
def quotedScalar (quote : Char) : (fuel : Nat) → Reader → Except Fault (Text × Reader)
  | 0, _ => .error .malformed
  | fuel + 1, r =>
    match r.rest with
    | [] => .error .malformed
    | c :: rest =>
      let more (found : Text × Reader) : Except Fault (Text × Reader) := do
        let (t, last) ← quotedScalar quote fuel found.2
        return (found.1 ++ t, last)
      if c = quote then
        if quote = '\'' ∧ rest.head? = some '\'' then more (['\''], r.skip 2)
        else .ok ([], r.skip 1)
      else if isGap c then quotedGap r >>= more
      else if quote = '"' ∧ c = '\\' then escaped (r.skip 1) >>= more
      else more ([c], r.skip 1)

end Yaml

end Captions
