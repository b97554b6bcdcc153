import Captions.Player
import Captions.Proofs.Number.Numeral
import Captions.Proofs.Outcome
import Captions.Proofs.Text.Tags
import Captions.Style

/-!
# The Plain Text of a Styled Text

What the element around a styled text leaves of the text when tags are removed.

The element is put around the text as it is, and its two tags are to go again
with those of the text. The first one does. It stands at the front and ends at
its own bracket, unless a colour or a size of the style holds another. The last
one need not be met at all. If the text has an opening bracket that nothing in it
closes, a tag begins there and is closed by the last bracket of the element, so
that the rest of the text is taken along.

What is taken along is `unclosed`, the text from the first such bracket on. By
itself the text would have kept it, so the plain text and what is taken along
make up the text without its tags, and nothing else is ever lost.

## Main definitions

* `Text.unclosed`: A text from its first bracket on that nothing closes.
* `Style.Bracketless`: No colour or size holds a closing bracket.

## Theorems

* `Text.withoutTags_append_tag`: What a tag at the end takes along.
* `Text.unclosed_eq_nil_iff`: When nothing is taken along.
* `Style.plainText_render`: The plain text of a styled text.
* `Style.not_text_kept`: A text need not be kept whole.
-/

namespace Captions

namespace Text

/-- The text from its first opening bracket on that no closing bracket
    follows. -/
def unclosed : Text → Text
  | [] => []
  | c :: t => if c = '<' ∧ '>' ∉ t then c :: t else unclosed t

theorem unclosed_open (t : Text) (h : '>' ∉ t) : unclosed ('<' :: t) = '<' :: t :=
  if_pos ⟨rfl, h⟩

theorem unclosed_closed (c : Char) (t : Text) (h : '>' ∈ t) : unclosed (c :: t) = unclosed t :=
  if_neg fun hopen => hopen.2 h

theorem unclosed_of_ne (c : Char) (t : Text) (h : c ≠ '<') : unclosed (c :: t) = unclosed t :=
  if_neg fun hopen => h hopen.1

/-- Every opening bracket is closed exactly if nothing is unclosed. -/
theorem unclosed_eq_nil_iff (t : Text) :
    unclosed t = [] ↔ ∀ before after, t = before ++ '<' :: after → '>' ∈ after := by
  induction t with
  | nil =>
      refine iff_of_true rfl fun before after h => ?_
      exact absurd h.symm (List.append_ne_nil_of_right_ne_nil before (List.cons_ne_nil _ _))
  | cons c t ih =>
      by_cases hopen : c = '<' ∧ '>' ∉ t
      · rcases hopen with ⟨rfl, hmem⟩
        rw [unclosed_open t hmem]
        refine iff_of_false (List.cons_ne_nil _ _) fun h => hmem (h [] t rfl)
      · rw [unclosed, if_neg hopen, ih]
        constructor
        · intro h before after heq
          rcases before with _ | ⟨d, before⟩
          · rw [List.nil_append, List.cons.injEq] at heq
            rw [← heq.2]
            exact not_not.mp fun hmem => hopen ⟨heq.1, hmem⟩
          · exact h before after (List.cons.inj heq).2
        · intro h before after heq
          exact h (c :: before) after (by rw [heq, List.cons_append])

-- What stands before a closing bracket is closed by it.
theorem unclosed_append_closing (u t : Text) : unclosed (u ++ '>' :: t) = unclosed t := by
  induction u with
  | nil => exact unclosed_of_ne '>' t (by decide)
  | cons c u ih =>
      rw [List.cons_append, unclosed_closed c _ (List.mem_append_right u List.mem_cons_self), ih]

theorem unclosed_eq_dropWhile (t : Text) (h : '>' ∉ t) : unclosed t = t.dropWhile (· ≠ '<') := by
  induction t with
  | nil => rfl
  | cons c t ih =>
      rw [List.mem_cons, not_or] at h
      by_cases hc : c = '<'
      · subst hc
        rw [unclosed_open t h.2, List.dropWhile_cons_of_neg (by decide)]
      · rw [unclosed_of_ne c t hc, ih h.2, List.dropWhile_cons_of_pos]
        exact decide_eq_true hc

theorem tagless_of_not_mem (t : Text) (h : '>' ∉ t) : Tagless t := by
  rintro before rest rfl tag after rfl ⟨body, _, _, rfl⟩
  refine h (List.mem_append_right _ (List.mem_append_left _ ?_))
  exact List.mem_cons_of_mem _ (List.mem_append_right body List.mem_cons_self)

/-- A tag at the end of a text takes along what is unclosed in the text. -/
theorem withoutTags_append_tag (closing : Text) (hclosing : IsTag closing) (t kept : Text)
    (h : Untagged t kept) : withoutTags (t ++ closing) ++ unclosed t = kept := by
  have hlast : withoutTags closing = [] := by
    have htag := withoutTags_tag closing [] hclosing
    rwa [List.append_nil, withoutTags] at htag
  induction h with
  | nil => rw [List.nil_append, hlast, unclosed, List.append_nil]
  | drop tag t kept htag _ ih =>
      rw [List.append_assoc, withoutTags_tag tag _ htag]
      rcases htag with ⟨body, _, _, rfl⟩
      rw [tag_append, ← List.cons_append, unclosed_append_closing, ih]
  | keep c t kept hnone hkept ih =>
      by_cases hopen : c = '<' ∧ '>' ∉ t
      · -- The last tag closes this bracket, and all of the rest is inside.
        rcases hopen with ⟨rfl, hmem⟩
        rcases hclosing with ⟨body, hne, hbody, rfl⟩
        have hwhole : IsTag ('<' :: t ++ '<' :: (body ++ ['>'])) := by
          refine ⟨t ++ '<' :: body, List.append_ne_nil_of_right_ne_nil t (List.cons_ne_nil _ _), ?_,
            by simp only [List.cons_append, List.append_assoc]⟩
          rw [List.mem_append, List.mem_cons]
          rintro (hbefore | hbracket | hafter)
          · exact hmem hbefore
          · exact absurd hbracket (by decide)
          · exact hbody hafter
        have hnothing := withoutTags_tag _ [] hwhole
        rw [List.append_nil, withoutTags] at hnothing
        rw [hnothing, unclosed_open t hmem, (untagged_iff t kept).mp hkept,
          withoutTags_of_tagless t (tagless_of_not_mem t hmem), List.nil_append]
      · have hstill : BeginsNoTag (c :: t ++ closing) := by
          by_cases hc : c = '<'
          · subst hc
            rw [List.cons_append, beginsNoTag_iff]
            rcases (beginsNoTag_iff t).mp hnone with hmem | hhead
            · exact absurd ⟨rfl, hmem⟩ hopen
            · exact Or.inr (by rw [List.head?_append, hhead, Option.some_or])
          · exact beginsNoTag_of_ne c _ hc
        rw [List.cons_append] at hstill
        rw [List.cons_append, withoutTags_keep c _ hstill, unclosed, if_neg hopen,
          List.cons_append, ih]

end Text

namespace Style

open Text (IsTag unclosed withoutTags)

/-- The colours and sizes of a style hold no closing bracket once they are
    resolved. -/
def Bracketless (s : Style) : Prop :=
  ∀ v ∈ [s.resolved.textColor, s.resolved.fontSize, s.resolved.outlineWidth,
    s.resolved.outlineColor], '>' ∉ v.written

instance (s : Style) : Decidable s.Bracketless :=
  inferInstanceAs (Decidable (∀ _ ∈ _, _))

-- A length that is written as a whole number has digits only.
theorem not_mem_pixels (v : Value) (h : '>' ∉ v.written) : '>' ∉ pixels v := by
  have hwhole : ∀ n : Int, '>' ∉ Text.ofInt n := by
    intro n hmem
    rcases Text.mem_ofInt n '>' hmem with hminus | ⟨d, hd, hdigit⟩
    · exact absurd hminus (by decide)
    · exact Text.digitChar_ne d hd '>' (by decide) hdigit.symm
  unfold pixels
  split
  · split
    · rename_i x _
      rcases x.truncate? with _ | n
      · exact h
      · exact hwhole n
    · exact h
  · exact h

theorem not_mem_declarations (s : Style) (h : s.Bracketless) :
    ∀ d ∈ s.declarations, '>' ∉ d := by
  simp only [Bracketless, List.forall_mem_cons, List.not_mem_nil, false_implies, implies_true,
    and_true] at h
  rcases h with ⟨hcolor, hsize, hwidth, houtline⟩
  have hsize := not_mem_pixels _ hsize
  have hwidth := not_mem_pixels _ hwidth
  intro d hd
  rw [declarations] at hd
  rcases List.mem_append.mp hd with hd | hd
  · rcases List.mem_pair.mp hd with rfl | rfl
    · simp only [List.mem_append, not_or]
      exact ⟨⟨by decide, hcolor⟩, by decide⟩
    · simp only [List.mem_append, not_or]
      exact ⟨⟨by decide, hsize⟩, by decide⟩
  · split at hd
    · rw [List.mem_singleton.mp hd]
      simp only [List.mem_append, not_or]
      exact ⟨⟨⟨⟨by decide, hwidth⟩, by decide⟩, houtline⟩, by decide⟩
    · exact absurd hd List.not_mem_nil

-- The first tag of the element goes as a whole.
theorem withoutTags_render (s : Style) (t : Text) (h : s.Bracketless) :
    withoutTags (s.render t) = withoutTags (t ++ "</span>".toList) := by
  have hquote : '>' ∉ Text.joinWith " ".toList s.declarations := by
    intro hmem
    rcases Text.mem_of_mem_joinWith _ _ _ hmem with hspace | ⟨d, hd, hbracket⟩
    · exact absurd hspace (by decide)
    · exact not_mem_declarations s h d hd hbracket
  have hfront : "<span style=\"".toList = '<' :: "span style=\"".toList := by decide
  have hback : "\">".toList = ['"'] ++ ['>'] := by decide
  have htag : IsTag ("<span style=\"".toList ++ Text.joinWith " ".toList s.declarations
      ++ "\">".toList) := by
    refine ⟨"span style=\"".toList ++ (Text.joinWith " ".toList s.declarations ++ ['"']),
      List.append_ne_nil_of_left_ne_nil (by decide) _, ?_, ?_⟩
    · simp only [List.mem_append, not_or]
      exact ⟨by decide, hquote, by decide⟩
    · rw [hfront, hback]
      simp only [List.cons_append, List.append_assoc]
  have hrender : s.render t = "<span style=\"".toList ++ Text.joinWith " ".toList s.declarations
      ++ "\">".toList ++ (t ++ "</span>".toList) := List.append_assoc _ t _
  rw [hrender, Text.withoutTags_tag _ _ htag]

/-- The plain text of a styled text is the text without its tags, up to what is
    unclosed in it. So a text is kept exactly if every opening bracket in it is
    closed, and of a text with no closing bracket a player shows what stands
    before the first opening one. -/
theorem plainText_render (s : Style) (t : Text) (b : Block) (hs : s.Bracketless)
    (hb : b.html = s.render t) :
    b.plainText ++ unclosed t = withoutTags t ∧
      (b.plainText = withoutTags t
        ↔ ∀ before after, t = before ++ '<' :: after → '>' ∈ after) ∧
      ('>' ∉ t → withoutTags t = t ∧ b.plainText = t.takeWhile (· ≠ '<') ∧
        ∀ note, Player.displayNotice b = .ok note →
          ∃ duration, note = .blockShown duration (t.takeWhile (· ≠ '<'))) := by
  have hclosing : IsTag "</span>".toList := ⟨"/span".toList, by decide, by decide, by decide⟩
  have hlaw := Text.withoutTags_append_tag _ hclosing t _ (Text.untagged_withoutTags t)
  rw [← withoutTags_render s t hs, ← hb] at hlaw
  refine ⟨hlaw, ?_, fun hmem => ?_⟩
  · rw [← Text.unclosed_eq_nil_iff, ← hlaw]
    exact List.self_eq_append_right
  · have hself := Text.withoutTags_of_tagless t (Text.tagless_of_not_mem t hmem)
    have hsplit : t.takeWhile (· ≠ '<') ++ unclosed t = t := by
      rw [Text.unclosed_eq_dropWhile t hmem, List.takeWhile_append_dropWhile]
    have hcut : b.plainText = t.takeWhile (· ≠ '<') :=
      List.append_cancel_right (hlaw.trans (hself.trans hsplit.symm))
    refine ⟨hself, hcut, fun note hnote => ?_⟩
    rw [Player.displayNotice, bind_eq_ok_iff] at hnote
    rcases hnote with ⟨duration, _, hnote⟩
    rw [pure_eq_ok_iff, hcut] at hnote
    exact ⟨duration, hnote⟩

-- A heart is cut off, in the standard style as in any other.
theorem plainText_render_heart :
    standard.Bracketless ∧ '>' ∉ "I <3 you".toList ∧
      ({ html := standard.render "I <3 you".toList, duration := .whole 1,
         width := .ofInt 1200 } : Block).plainText = "I ".toList := by
  have hs : standard.Bracketless := by decide +kernel
  have hmem : '>' ∉ "I <3 you".toList := by decide
  have hlaw := plainText_render standard "I <3 you".toList
    { html := standard.render "I <3 you".toList, duration := .whole 1, width := .ofInt 1200 }
    hs rfl
  exact ⟨hs, hmem, (hlaw.2.2 hmem).2.1⟩

/-- A styled text need not keep what the text has besides its tags: the heart of
    `I <3 you` is taken for the beginning of a tag, which the end of the element
    then closes. -/
theorem not_text_kept :
    ¬ ∀ (s : Style) (t : Text) (b : Block), s.Bracketless → b.html = s.render t →
      b.plainText = withoutTags t := by
  intro h
  have hkept := h standard "I <3 you".toList
    { html := standard.render "I <3 you".toList, duration := .whole 1, width := .ofInt 1200 }
    (by decide +kernel) rfl
  exact absurd hkept (by decide +kernel)

end Style

end Captions
