import Captions.Instruction
import Mathlib.Data.List.Basic

/-!
# Removing Tags

What is left of a text when its tags are removed, in one pass from left to right.

A tag is a run of characters between brackets, and which runs are met depends on
where the reading stands: a bracket inside a tag begins none. `Untagged` is this
reading as a relation. A tag that stands at the front is dropped as a whole, and
a character is kept only where no tag begins. Every text has one result, which
is the one that the function computes.

Removing something brings together what stood around it, so it is not clear from
the start that no tag comes about by it. But an opening bracket is kept for one
of two reasons. No closing bracket follows it at all, and then none is left that
could. Or one follows at once, which begins no tag itself and so stays where it
is, with nothing between the two afterwards either.

## Main definitions

* `IsTag`: A tag.
* `BeginsNoTag`, `Tagless`: No tag stands at the front of a text, or anywhere.
* `Untagged`: What is left of a text without its tags.

## Theorems

* `beginsNoTag_iff`: The opening brackets at which no tag begins.
* `untagged_iff`: The text without tags is what is left.
* `tagless_of_untagged`: No tag is left.
* `withoutTags_of_tagless`: A text without tags stays as it is.
* `plainText_tagless`: The plain text of a block has no tags.
-/

namespace Captions

namespace Text

/-- A tag: an opening bracket, at least one character none of which closes it,
    and a closing bracket. -/
def IsTag (t : Text) : Prop := ∃ body : Text, body ≠ [] ∧ '>' ∉ body ∧ t = '<' :: (body ++ ['>'])

/-- No tag stands at the front of the text. -/
def BeginsNoTag (t : Text) : Prop := ∀ tag after, t = tag ++ after → ¬ IsTag tag

/-- No tag stands anywhere in the text. -/
def Tagless (t : Text) : Prop := ∀ before rest, t = before ++ rest → BeginsNoTag rest

/-- What is left of a text that is read from left to right, with every tag that
    is met dropped. -/
inductive Untagged : Text → Text → Prop where
  /-- The text is at its end. -/
  | nil : Untagged [] []
  /-- A character is kept where no tag begins. -/
  | keep (c : Char) (t kept : Text) (hnone : BeginsNoTag (c :: t)) (h : Untagged t kept) :
    Untagged (c :: t) (c :: kept)
  /-- A tag is dropped. -/
  | drop (tag t kept : Text) (htag : IsTag tag) (h : Untagged t kept) : Untagged (tag ++ t) kept

/-! ### Where a tag begins -/

theorem tag_append (body rest : Text) :
    '<' :: (body ++ ['>']) ++ rest = '<' :: (body ++ '>' :: rest) := by
  rw [List.cons_append, List.append_assoc, List.singleton_append]

theorem afterClosing?_append (body rest : Text) (h : '>' ∉ body) :
    afterClosing? (body ++ '>' :: rest) = some rest := by
  induction body with
  | nil => rfl
  | cons c body ih =>
      rw [List.mem_cons, not_or] at h
      rw [List.cons_append, afterClosing?, ih h.2]
      exact fun hc => h.1 hc.symm

theorem afterClosing?_eq_none (t : Text) (h : '>' ∉ t) : afterClosing? t = none := by
  induction t with
  | nil => rfl
  | cons c t ih =>
      rw [List.mem_cons, not_or] at h
      rw [afterClosing?, ih h.2]
      exact fun hc => h.1 hc.symm

theorem beginsNoTag_of_ne (c : Char) (t : Text) (h : c ≠ '<') : BeginsNoTag (c :: t) := by
  rintro tag after heq ⟨body, _, _, rfl⟩
  exact h (List.cons.inj heq).1

/-- An opening bracket begins no tag if nothing closes it, or if it is closed at
    once. -/
theorem beginsNoTag_iff (t : Text) : BeginsNoTag ('<' :: t) ↔ '>' ∉ t ∨ t.head? = some '>' := by
  constructor
  · intro hnone
    by_cases hmem : '>' ∈ t
    · rcases List.eq_append_cons_of_mem hmem with ⟨body, after, rfl, hbody⟩
      right
      rcases body with _ | ⟨c, body⟩
      · rfl
      · exact absurd ⟨_, List.cons_ne_nil c body, hbody, rfl⟩
          (hnone _ after (tag_append (c :: body) after).symm)
    · exact Or.inl hmem
  · rintro h tag after heq ⟨body, hne, hbody, rfl⟩
    rw [tag_append, List.cons.injEq] at heq
    rcases h with hmem | hhead
    · rw [heq.2] at hmem
      exact hmem (List.mem_append_right body List.mem_cons_self)
    · rcases List.exists_cons_of_ne_nil hne with ⟨c, rest, rfl⟩
      rw [heq.2, List.cons_append, List.head?_cons, Option.some.injEq] at hhead
      exact hbody (List.mem_cons.mpr (Or.inl hhead.symm))

theorem withoutTags_tag (tag t : Text) (h : IsTag tag) :
    withoutTags (tag ++ t) = withoutTags t := by
  rcases h with ⟨body, hne, hbody, rfl⟩
  rcases List.exists_cons_of_ne_nil hne with ⟨c, rest, rfl⟩
  rw [List.mem_cons, not_or] at hbody
  have hafter : afterTag? (c :: rest ++ '>' :: t) = some t := by
    rw [List.cons_append, afterTag?, afterClosing?_append rest t hbody.2]
    exact fun hc => hbody.1 hc.symm
  rw [tag_append, withoutTags, if_pos rfl]
  split
  · rename_i after heq
    rw [hafter, Option.some.injEq] at heq
    rw [heq]
  · rename_i heq
    rw [hafter] at heq
    exact absurd heq (Option.some_ne_none t)

theorem withoutTags_keep (c : Char) (t : Text) (h : BeginsNoTag (c :: t)) :
    withoutTags (c :: t) = c :: withoutTags t := by
  by_cases hc : c = '<'
  · subst hc
    have hafter : afterTag? t = none := by
      rcases (beginsNoTag_iff t).mp h with hmem | hhead
      · rcases t with _ | ⟨d, t⟩
        · rfl
        · rw [List.mem_cons, not_or] at hmem
          rw [afterTag?, afterClosing?_eq_none t hmem.2]
          exact fun hd => hmem.1 hd.symm
      · rcases t with _ | ⟨d, t⟩
        · rfl
        · rw [List.head?_cons, Option.some.injEq] at hhead
          rw [hhead]
          rfl
    rw [withoutTags, if_pos rfl]
    split
    · rename_i heq
      rw [hafter] at heq
      exact absurd heq.symm (Option.some_ne_none _)
    · rfl
  · rw [withoutTags, if_neg hc]

/-! ### What is left -/

theorem exists_untagged (t : Text) : ∃ kept, Untagged t kept := by
  induction hn : t.length using Nat.strongRecOn generalizing t with
  | ind n ih =>
    subst hn
    by_cases hnone : BeginsNoTag t
    · rcases t with _ | ⟨c, t⟩
      · exact ⟨[], Untagged.nil⟩
      · rcases ih t.length (by rw [List.length_cons]; omega) t rfl with ⟨kept, hkept⟩
        exact ⟨c :: kept, Untagged.keep c t kept hnone hkept⟩
    · simp only [BeginsNoTag, not_forall, not_not] at hnone
      rcases hnone with ⟨tag, after, rfl, htag⟩
      have hlength : after.length < (tag ++ after).length := by
        rcases htag with ⟨body, _, _, rfl⟩
        rw [List.length_append, List.length_cons]
        omega
      rcases ih after.length hlength after rfl with ⟨kept, hkept⟩
      exact ⟨kept, Untagged.drop tag after kept htag hkept⟩

/-- What is left is computed in one pass. -/
theorem untagged_iff (t kept : Text) : Untagged t kept ↔ kept = withoutTags t := by
  have hcomputed : ∀ kept, Untagged t kept → kept = withoutTags t := by
    intro kept h
    induction h with
    | nil => rw [withoutTags]
    | keep c t kept hnone _ ih => rw [withoutTags_keep c t hnone, ih]
    | drop tag t kept htag _ ih => rw [withoutTags_tag tag t htag, ih]
  constructor
  · exact hcomputed kept
  · rintro rfl
    rcases exists_untagged t with ⟨kept, hkept⟩
    rwa [← hcomputed kept hkept]

theorem untagged_withoutTags (t : Text) : Untagged t (withoutTags t) := (untagged_iff t _).mpr rfl

theorem sublist_of_untagged (t kept : Text) (h : Untagged t kept) : kept.Sublist t := by
  induction h with
  | nil => exact List.Sublist.slnil
  | keep c t kept _ _ ih => exact ih.cons_cons c
  | drop tag t kept _ _ ih => exact ih.trans (List.sublist_append_right tag t)

-- A closing bracket at the front is no tag, so it stays there.
theorem head?_of_untagged (t kept : Text) (h : Untagged t kept) (hhead : t.head? = some '>') :
    kept.head? = some '>' := by
  cases h with
  | nil => exact hhead
  | keep c t kept _ _ => exact hhead
  | drop tag t kept htag _ =>
      rcases htag with ⟨body, _, _, rfl⟩
      exact absurd (Option.some.inj hhead) (by decide)

/-- What is kept at an opening bracket that begins no tag begins none either. -/
theorem beginsNoTag_of_untagged (t kept : Text) (h : Untagged t kept)
    (hnone : BeginsNoTag ('<' :: t)) : BeginsNoTag ('<' :: kept) := by
  rw [beginsNoTag_iff] at hnone ⊢
  rcases hnone with hmem | hhead
  · exact Or.inl fun hkept => hmem ((sublist_of_untagged t kept h).subset hkept)
  · exact Or.inr (head?_of_untagged t kept h hhead)

theorem tagless_cons (c : Char) (t : Text) (hc : BeginsNoTag (c :: t)) (h : Tagless t) :
    Tagless (c :: t) := by
  intro before rest heq
  rcases before with _ | ⟨d, before⟩
  · rw [List.nil_append] at heq
    rwa [← heq]
  · exact h before rest (List.cons.inj heq).2

/-- No tag is left, and none comes about. -/
theorem tagless_of_untagged (t kept : Text) (h : Untagged t kept) : Tagless kept := by
  induction h with
  | nil =>
      rintro before rest heq tag after rfl ⟨body, _, _, rfl⟩
      exact absurd heq (by simp only [List.cons_append, List.nil_eq_append_iff, reduceCtorEq,
        and_false, not_false_eq_true])
  | keep c t kept hnone h ih =>
      refine tagless_cons c kept ?_ ih
      by_cases hc : c = '<'
      · subst hc
        exact beginsNoTag_of_untagged t kept h hnone
      · exact beginsNoTag_of_ne c kept hc
  | drop tag t kept _ _ ih => exact ih

/-- A text without tags stays as it is. -/
theorem withoutTags_of_tagless (t : Text) (h : Tagless t) : withoutTags t = t := by
  induction t with
  | nil => rw [withoutTags]
  | cons c t ih =>
      have hrest : Tagless t := fun before rest heq =>
        h (c :: before) rest (by rw [heq, List.cons_append])
      rw [withoutTags_keep c t (h [] _ rfl), ih hrest]

end Text

open Text (Untagged Tagless withoutTags)

/-- The plain text of a block is what one reading of its text leaves over. It
    holds no tag, it is part of the text, and removing tags from it again changes
    nothing. -/
theorem Block.plainText_tagless (b : Block) :
    (∀ kept, Untagged b.html kept ↔ kept = b.plainText) ∧
      Tagless b.plainText ∧ b.plainText.Sublist b.html ∧
      withoutTags b.plainText = b.plainText := by
  have hleft := Text.untagged_withoutTags b.html
  have htagless := Text.tagless_of_untagged b.html _ hleft
  exact ⟨fun kept => Text.untagged_iff b.html kept, htagless,
    Text.sublist_of_untagged b.html _ hleft, Text.withoutTags_of_tagless _ htagless⟩

-- Brackets inside a tag, brackets with nothing between them, and a tag over two lines.
example : withoutTags "<<a>b><><c\nd>e<f".toList = "b><>e<f".toList := by decide +kernel

end Captions
