/-!
# Texts

A subtitle file is judged character by character: a cue's text is cut to fifty
characters, a timestamp is cut at its colons, a tag begins at one bracket and
ends at another. Every one of these rules is about the characters in order, so
a text here is the list of its characters and nothing else. Its length counts
characters, and taking or dropping a number of them never splits one.

String literals stand wherever a text is expected; they are read as the list
of their characters.

## Main definitions

* `Text`: A list of characters.
* `Text.cutAt`: The pieces between the characters of a class, empty pieces
  kept, so that joining them again with any one separator loses only which
  separator stood where.
* `Text.swap`: Every occurrence of one character replaced by another.
* `Text.startsWith`, `Text.afterPrefix?`: Testing for and removing a leading
  text.
-/

namespace Captions

/-- A text is the list of its characters, so lengths and cuts count
    characters. -/
abbrev Text := List Char

instance : Coe String Text := ⟨String.toList⟩

namespace Text

/-- The list of texts with one more character at the front of the first. -/
def extendFirst (c : Char) : List Text → List Text
  | [] => [[c]]
  | piece :: pieces => (c :: piece) :: pieces

/-- The pieces between the characters that satisfy `p`. There is always one
    piece more than there are such characters, and a piece may be empty. -/
def cutAt (p : Char → Bool) (t : Text) : List Text :=
  t.foldr (fun c pieces => if p c then [] :: pieces else extendFirst c pieces) [[]]

theorem cutAt_nil (p : Char → Bool) : cutAt p [] = [[]] := rfl

theorem cutAt_cons (p : Char → Bool) (c : Char) (t : Text) :
    cutAt p (c :: t) = if p c then [] :: cutAt p t else extendFirst c (cutAt p t) := rfl

theorem extendFirst_ne_nil (c : Char) (pieces : List Text) : extendFirst c pieces ≠ [] := by
  cases pieces <;> simp [extendFirst]

theorem cutAt_ne_nil (p : Char → Bool) (t : Text) : cutAt p t ≠ [] := by
  cases t with
  | nil => simp [cutAt_nil]
  | cons c cs =>
      rw [cutAt_cons]
      split
      · simp
      · exact extendFirst_ne_nil c _

/-- The text with every `a` written as `b`. -/
def swap (a b : Char) (t : Text) : Text :=
  t.map fun c => if c = a then b else c

/-- Whether the text begins with `lead`. -/
def startsWith (lead t : Text) : Bool :=
  lead.isPrefixOf t

/-- What follows `lead` in a text that begins with it. -/
def afterPrefix? : Text → Text → Option Text
  | [], t => some t
  | _ :: _, [] => none
  | a :: lead, c :: t => if a = c then afterPrefix? lead t else none

theorem afterPrefix?_append (lead t : Text) : afterPrefix? lead (lead ++ t) = some t := by
  induction lead with
  | nil => rfl
  | cons a lead ih => simp [afterPrefix?, ih]

/-- The pieces in order with `sep` between neighbours. -/
def joinWith (sep : Text) (pieces : List Text) : Text :=
  List.intercalate sep pieces

end Text

end Captions
