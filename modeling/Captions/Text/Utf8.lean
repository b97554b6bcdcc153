import Captions.Text.Decimal
import Captions.Text.Quoted

/-!
# UTF-8

Files hold octets, and their text is UTF-8. Reading refuses octets that are not
well formed and says where and why. The first octet of a character decides how
many octets continue it and narrows the range of the first of them, so that
overlong forms, surrogates and numbers past the last code point are refused at
the octet that rules them out.

A fault covers the octets of the longest beginning of a well formed character
that stands at its position, or one octet if there is none.

## Main definitions

* `Utf8.encode`: The octets of a text.
* `Utf8.decode`: The text of the octets, or the first fault in them.
* `Utf8.Fault.message`: What is said about a fault.
* `Utf8.afterMark`: The octets without one leading byte order mark.
-/

namespace Captions

/-- The content of a file. -/
abbrev Octets := List UInt8

namespace Utf8

open Text (digits hex)

/-- Why octets are not well formed. -/
inductive Reason where
  /-- The octet begins no character. -/
  | invalidStart
  /-- An octet that should continue the character does not. -/
  | invalidContinuation
  /-- The octets end inside a character. -/
  | unexpectedEnd
  deriving DecidableEq

/-- The first place where octets are not well formed. -/
structure Fault where
  /-- What is wrong. -/
  reason : Reason
  /-- The number of octets before the fault. -/
  position : Nat
  /-- The number of octets the fault covers. -/
  count : Nat
  /-- The first octet of the fault. -/
  octet : UInt8
  deriving DecidableEq

/-- What is wrong, in words. -/
def Reason.message : Reason → Text
  | .invalidStart => "invalid start byte"
  | .invalidContinuation => "invalid continuation byte"
  | .unexpectedEnd => "unexpected end of data"

/-- What is said about a fault: the octet if it covers a single one, and
    otherwise the positions of the first and the last. -/
def Fault.message (f : Fault) : Text :=
  "'utf-8' codec can't decode byte" ++
    (if f.count ≤ 1 then
      " 0x" ++ hex 2 f.octet.toNat ++ " in position " ++ digits f.position
    else
      "s in position " ++ digits f.position ++ "-" ++ digits (f.position + f.count - 1)) ++
    ": " ++ f.reason.message

/-- The octets of one character. -/
def encodeChar (c : Char) : Octets :=
  let n := c.toNat
  if n < 0x80 then [UInt8.ofNat n]
  else if n < 0x800 then
    [UInt8.ofNat (0xC0 + n / 0x40), UInt8.ofNat (0x80 + n % 0x40)]
  else if n < 0x10000 then
    [UInt8.ofNat (0xE0 + n / 0x1000), UInt8.ofNat (0x80 + n / 0x40 % 0x40),
      UInt8.ofNat (0x80 + n % 0x40)]
  else
    [UInt8.ofNat (0xF0 + n / 0x40000), UInt8.ofNat (0x80 + n / 0x1000 % 0x40),
      UInt8.ofNat (0x80 + n / 0x40 % 0x40), UInt8.ofNat (0x80 + n % 0x40)]

/-- The octets of a text. -/
def encode (t : Text) : Octets := t.flatMap encodeChar

/-- What a first octet announces: how many octets continue the character, the
    range of the first of them, and the bits the first octet contributes. -/
structure Lead where
  /-- The number of octets that follow. -/
  more : Nat
  /-- The least second octet. -/
  low : Nat
  /-- The greatest second octet. -/
  high : Nat
  /-- The leading bits of the code point. -/
  bits : Nat

/-- What an octet announces, if a character can begin with it. -/
def lead? (b : UInt8) : Option Lead :=
  let n := b.toNat
  if n < 0x80 then some ⟨0, 0x80, 0xBF, n⟩
  else if n < 0xC2 then none
  else if n < 0xE0 then some ⟨1, 0x80, 0xBF, n - 0xC0⟩
  else if n < 0xF0 then
    some ⟨2, if n = 0xE0 then 0xA0 else 0x80, if n = 0xED then 0x9F else 0xBF, n - 0xE0⟩
  else if n < 0xF5 then
    some ⟨3, if n = 0xF0 then 0x90 else 0x80, if n = 0xF4 then 0x8F else 0xBF, n - 0xF0⟩
  else none

/-- Read `more` continuing octets, the first of them between `low` and `high`
    and the others between 80 and BF. The answer is the code point with the
    rest, or the reason with the number of octets that were in order. -/
def continued : (more low high : Nat) → (bits : Nat) → Octets → Except (Reason × Nat) (Nat × Octets)
  | 0, _, _, bits, rest => .ok (bits, rest)
  | _ + 1, _, _, _, [] => .error (.unexpectedEnd, 0)
  | more + 1, low, high, bits, b :: rest =>
    if low ≤ b.toNat ∧ b.toNat ≤ high then
      -- Only the first of the continuing octets has a range of its own.
      match continued more 0x80 0xBF (bits * 0x40 + b.toNat % 0x40) rest with
      | .ok found => .ok found
      | .error (reason, count) => .error (reason, count + 1)
    else .error (.invalidContinuation, 0)

theorem length_continued {more low high bits : Nat} {bs rest : Octets} {n : Nat}
    (h : continued more low high bits bs = .ok (n, rest)) : rest.length ≤ bs.length := by
  induction more generalizing low high bits bs with
  | zero => simp_all [continued]
  | succ more ih =>
      cases bs with
      | nil => simp [continued] at h
      | cons b bs =>
          simp only [continued] at h
          split at h
          · split at h
            · rename_i hc
              simp only [Except.ok.injEq] at h
              subst h
              exact Nat.le_succ_of_le (ih hc)
            · simp at h
          · simp at h

/-- Read octets after the first `position`, whose text, last character first,
    is `before`. -/
def decodeAfter (position : Nat) (before : Text) (bs : Octets) : Except Fault Text :=
  match bs with
  | [] => .ok before.reverse
  | b :: rest =>
    match lead? b with
    | none => .error ⟨.invalidStart, position, 1, b⟩
    | some lead =>
      match h : continued lead.more lead.low lead.high lead.bits rest with
      | .error (reason, count) => .error ⟨reason, position, count + 1, b⟩
      | .ok (n, after) =>
        -- The ranges of the octets leave no code point that is not a character.
        decodeAfter (position + lead.more + 1) (Char.ofNat n :: before) after
termination_by bs.length
decreasing_by
  have := length_continued h
  simp only [List.length_cons]
  omega

/-- The text of the octets. -/
def decode (bs : Octets) : Except Fault Text := decodeAfter 0 [] bs

/-- The octets of the byte order mark. -/
def mark : Octets := [0xEF, 0xBB, 0xBF]

/-- The octets without one leading byte order mark. Octets that are only the
    beginning of a mark hold no text either. -/
def afterMark (bs : Octets) : Octets :=
  if bs.isPrefixOf mark then [] else if mark.isPrefixOf bs then bs.drop 3 else bs

end Utf8

end Captions
