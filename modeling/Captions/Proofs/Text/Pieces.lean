import Captions.Text.Blank

/-!
# Texts Cut and Joined

The pieces of a text that is cut at some characters, and of one that is joined
from pieces.

Cutting and joining are what the library calls splitting and intercalating, so
nearly all that is needed of them is known there. `cutAt_eq_splitOnP` makes the
connection. No piece holds a character that the text was cut at, the pieces
around the separator are the text again, and pieces that are joined come apart
again as long as none of them holds the separator.

## Theorems

* `cutAt_eq_splitOnP`: Cutting is the library's splitting.
* `cutAt_eq_self`, `cutAt_append`: The first piece of a text.
* `mem_of_mem_splitOnP`: What the pieces of a list consist of.
* `joinWith_cutAt`, `cutAt_joinWith`: Cutting and joining undo each other.
* `mem_joinWith`, `mem_of_mem_joinWith`: The characters of a joined text.
* `not_isBlank_of_mem_words`: A word has no blanks.
-/

namespace Captions

namespace Text

/-! ### Cutting -/

theorem extendFirst_eq_modifyHead (c : Char) (pieces : List Text) (h : pieces ≠ []) :
    extendFirst c pieces = pieces.modifyHead (c :: ·) := by
  cases pieces with
  | nil => exact absurd rfl h
  | cons piece pieces => rfl

theorem cutAt_eq_splitOnP (p : Char → Bool) (t : Text) : cutAt p t = t.splitOnP p := by
  induction t with
  | nil => rfl
  | cons c t ih =>
      rw [cutAt_cons, List.splitOnP_cons_eq_if_modifyHead, ih,
        extendFirst_eq_modifyHead c _ (List.splitOnP_ne_nil p t)]

-- A text without separators is a single piece.
theorem cutAt_eq_self (p : Char → Bool) (t : Text) (h : ∀ c ∈ t, p c = false) :
    cutAt p t = [t] := by
  rw [cutAt_eq_splitOnP, List.splitOnP_eq_singleton h]

-- What stands before the first separator is the first piece.
theorem cutAt_append (p : Char → Bool) (t rest : Text) (sep : Char) (h : ∀ c ∈ t, p c = false)
    (hsep : p sep = true) : cutAt p (t ++ sep :: rest) = t :: cutAt p rest := by
  rw [cutAt_eq_splitOnP, cutAt_eq_splitOnP, List.splitOnP_append_cons_of_forall_mem h sep hsep]

/-- A piece of a list consists of its elements that it is not split at. -/
theorem mem_of_mem_splitOnP {α : Type} (p : α → Bool) (l : List α) :
    ∀ part ∈ l.splitOnP p, ∀ a ∈ part, a ∈ l ∧ p a = false := by
  induction l with
  | nil =>
      intro part hpart a ha
      rw [List.splitOnP_nil, List.mem_singleton] at hpart
      rw [hpart] at ha
      exact absurd ha List.not_mem_nil
  | cons b l ih =>
      intro part hpart a ha
      rw [List.splitOnP_cons_eq_if_modifyHead] at hpart
      by_cases hb : p b = true
      · rw [if_pos hb] at hpart
        rcases List.mem_cons.mp hpart with rfl | hpart
        · exact absurd ha List.not_mem_nil
        · exact (ih part hpart a ha).imp_left (List.mem_cons_of_mem b)
      · rw [if_neg hb] at hpart
        rw [Bool.not_eq_true] at hb
        rcases hparts : l.splitOnP p with _ | ⟨first, rest⟩
        · exact absurd hparts (List.splitOnP_ne_nil p l)
        · rw [hparts] at hpart ih
          rcases List.mem_cons.mp hpart with rfl | hpart
          · rcases List.mem_cons.mp ha with rfl | ha
            · exact ⟨List.mem_cons_self, hb⟩
            · exact (ih first List.mem_cons_self a ha).imp_left (List.mem_cons_of_mem b)
          · exact (ih part (List.mem_cons_of_mem first hpart) a ha).imp_left
              (List.mem_cons_of_mem b)

theorem not_isBlank_of_mem_words (t w : Text) (hw : w ∈ words t) (c : Char) (hc : c ∈ w) :
    isBlank c = false := by
  have hpiece : w ∈ cutAt isBlank t := (List.mem_filter.mp hw).1
  rw [cutAt_eq_splitOnP] at hpiece
  exact (mem_of_mem_splitOnP isBlank t w hpiece c hc).2

/-! ### Joining -/

theorem joinWith_cons_cons (sep l m : Text) (ls : List Text) :
    joinWith sep (l :: m :: ls) = l ++ sep ++ joinWith sep (m :: ls) :=
  List.intercalate_cons_cons

theorem joinWith_cutAt (sep : Char) (t : Text) :
    joinWith [sep] (cutAt (· = sep) t) = t := by
  rw [cutAt_eq_splitOnP]
  exact List.intercalate_splitOn sep

/-- Pieces that do not hold the separator come apart again. -/
theorem cutAt_joinWith (sep : Char) (pieces : List Text) (hne : pieces ≠ [])
    (h : ∀ piece ∈ pieces, sep ∉ piece) : cutAt (· = sep) (joinWith [sep] pieces) = pieces := by
  rw [cutAt_eq_splitOnP]
  exact List.splitOn_intercalate sep h hne

theorem mem_joinWith (sep : Text) (pieces : List Text) (piece : Text) (c : Char)
    (hpiece : piece ∈ pieces) (hc : c ∈ piece) : c ∈ joinWith sep pieces := by
  induction pieces with
  | nil => exact absurd hpiece List.not_mem_nil
  | cons first pieces ih =>
      cases pieces with
      | nil =>
          rw [List.mem_singleton.mp hpiece] at hc
          rwa [joinWith, List.intercalate_singleton]
      | cons next pieces =>
          rw [joinWith_cons_cons, List.mem_append, List.mem_append]
          rcases List.mem_cons.mp hpiece with rfl | hpiece
          · exact Or.inl (Or.inl hc)
          · exact Or.inr (ih hpiece)

theorem mem_of_mem_joinWith (sep : Text) (pieces : List Text) (c : Char)
    (h : c ∈ joinWith sep pieces) : c ∈ sep ∨ ∃ piece ∈ pieces, c ∈ piece := by
  induction pieces with
  | nil => exact absurd h List.not_mem_nil
  | cons piece pieces ih =>
      cases pieces with
      | nil =>
          rw [joinWith, List.intercalate_singleton] at h
          exact Or.inr ⟨piece, List.mem_cons_self, h⟩
      | cons next pieces =>
          rw [joinWith_cons_cons, List.mem_append, List.mem_append] at h
          rcases h with (hc | hc) | hc
          · exact Or.inr ⟨piece, List.mem_cons_self, hc⟩
          · exact Or.inl hc
          · rcases ih hc with hsep | ⟨other, hother, hc⟩
            · exact Or.inl hsep
            · exact Or.inr ⟨other, List.mem_cons_of_mem piece hother, hc⟩

end Text

end Captions
