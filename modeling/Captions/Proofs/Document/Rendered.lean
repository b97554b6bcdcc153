import Captions.Proofs.Document.Times

/-!
# Documents as They are Rendered

A document that is rendered from cues is read as these cues.

The cues are those that a document can hold: a number of at most so many digits,
two canonical times, and a text whose lines can be told from it. Nothing is
asked of what the lines say. They may look like a number or like a line of
times, because by then the block's number and times have been read; and the
number is a number, because it holds no arrow.

The reader sees blocks of trimmed lines, so the proof is about those. A rendered
cue is a stretch of tidy lines between blank ones (`blocks_renderCue`), and each
step of reading such a stretch gives back the field that was written
(`reads_lines`). A document is its cues one after the other.

## Main definitions

* `PlainTime`: A value is the text of a time without needless zeros.
* `Writable`: A cue that a document can hold.

## Theorems

* `blocks_renderCue`: A rendered cue is one block.
* `reads_block`: A block of a number, two times and lines of text is read.
* `reads_lines`: The block of a cue is read as the cue.
* `parse_render`: A rendered document is read as its cues.
-/

namespace Captions

open Text (numeral ofDigits digits Tidy)
open Timestamp (Written Canonical)

namespace Document

/-- A value is the text of a time without needless zeros, with no more digits for
    the hours than a whole numeral may have. -/
def PlainTime (v : Value) : Prop :=
  ∃ c : Canonical, c.Plain ∧ c.hours.length ≤ Numeral.digitLimit ∧ v = .text c.text

/-- A cue that a document can hold. -/
structure Writable (c : Cue) : Prop where
  /-- The number is whole and not too long. -/
  index : ∃ n : Int, (digits n.natAbs).length ≤ Numeral.digitLimit ∧ c.index = .ofInt n
  start : PlainTime c.start
  finish : PlainTime c.finish
  /-- The text is empty or made of lines that can be told from it. -/
  text : ∃ ls : List Text, (∀ l ∈ ls, Tidy l) ∧ c.text = Text.joinWith "\n" ls

/-- Tidy lines that are joined are a block. -/
theorem blocks_joinWith (ls : List Text) (hne : ls ≠ []) (h : ∀ l ∈ ls, Tidy l) :
    blocks (Text.joinWith "\n" ls) = [ls] := by
  have hlines := Text.trimmedLines_joinWith ls [] hne h
  rw [Text.trimmedLines_nil, List.append_nil] at hlines
  rw [← blocks_concat_newline, blocks, hlines,
    paragraphs_eq_singleton ls hne fun l hl => Text.tidy_ne_nil l (h l hl)]

theorem blocks_joinWith_append (ls : List Text) (rest : Text) (hne : ls ≠ [])
    (h : ∀ l ∈ ls, Tidy l) :
    blocks (Text.joinWith "\n" ls ++ '\n' :: '\n' :: rest) = ls :: blocks rest := by
  rw [blocks_append, blocks_joinWith ls hne h, List.singleton_append]

theorem blocks_newline (t : Text) : blocks ('\n' :: t) = blocks t := by
  rw [blocks, Text.trimmedLines_newline]
  exact paragraphs_append [] _

theorem tidy_ofInt (n : Int) : Tidy (Text.ofInt n) := by
  refine Text.tidy_of_not_isBlank _ (Text.ofInt_ne_nil n) fun c hc => ?_
  rcases Text.mem_ofInt n c hc with rfl | ⟨d, hd, rfl⟩
  · rfl
  · exact Text.isBlank_digitChar d hd

theorem cutAtArrow?_ofInt (n : Int) : cutAtArrow? (Text.ofInt n) = none := by
  refine cutAtArrow?_eq_none _ fun hmem => ?_
  rcases Text.mem_ofInt n '>' hmem with h | ⟨d, hd, h⟩
  · exact absurd h (by decide)
  · exact Text.digitChar_ne d hd '>' (by decide) h.symm

-- The line of times has blanks, but only spaces and not at its end.
theorem tidy_timeLine (v w : Written) : Tidy (timeLine v w) where
  not_blank := by
    rcases List.exists_mem_of_ne_nil _ (text_ne_nil v) with ⟨c, hc⟩
    exact ⟨c, List.mem_append_left _ hc, v.not_isBlank_text c hc⟩
  no_break := by
    have htext : ∀ (u : Written), ∀ c ∈ u.text, Text.isBreak c = false := fun u =>
      (Text.tidy_of_not_isBlank _ (text_ne_nil u) u.not_isBlank_text).no_break
    intro c hc
    simp only [timeLine, List.mem_append, List.mem_cons] at hc
    rcases hc with hc | rfl | hc | rfl | hc
    · exact htext v c hc
    · rfl
    · have harrow : (arrow.all fun c => !Text.isBreak c) = true := rfl
      simpa only [Bool.not_eq_true'] using List.all_eq_true.mp harrow c hc
    · rfl
    · exact htext w c hc
  no_blank_end := by
    intro c hc
    have hsplit : timeLine v w = v.text ++ ' ' :: (arrow ++ [' ']) ++ w.text := by
      simp only [timeLine, List.append_assoc, List.cons_append, List.nil_append]
    rw [hsplit, List.getLast?_append_of_ne_nil _ (text_ne_nil w)] at hc
    exact w.not_isBlank_text c (List.mem_of_getLast? hc)

theorem fits_written (c : Canonical) (h : c.hours.length ≤ Numeral.digitLimit) :
    c.written.Fits := by
  have hm : c.written.minutes.length = 2 := c.minutes_length
  have hs : c.written.seconds.length = 2 := c.seconds_length
  have hf : c.written.fraction.length = 3 := c.millis_length
  have hlimit : Numeral.digitLimit = 4300 := rfl
  exact ⟨h, by omega, by omega, by omega⟩

theorem index_ofInt (n : Int) (h : (digits n.natAbs).length ≤ Numeral.digitLimit) :
    index (Text.ofInt n) = .ofInt n := by
  rw [index, Numeral.whole_ofInt n h]

theorem tidy_block (n : Int) (v w : Written) (ls : List Text) (h : ∀ l ∈ ls, Tidy l) :
    ∀ l ∈ Text.ofInt n :: timeLine v w :: ls, Tidy l := by
  rw [List.forall_mem_cons, List.forall_mem_cons]
  exact ⟨tidy_ofInt n, tidy_timeLine v w, h⟩

/-- A rendered cue is one block: its number, its times and the lines of its
    text. -/
theorem blocks_renderCue (n : Int) (s f : Canonical) (ls : List Text) (rest : Text)
    (h : ∀ l ∈ ls, Tidy l) :
    blocks (renderCue ⟨.ofInt n, .text s.text, .text f.text, Text.joinWith "\n" ls⟩ ++ rest)
      = (Text.ofInt n :: timeLine s.written f.written :: ls) :: blocks rest := by
  have hall := tidy_block n s.written f.written ls h
  have hrender : renderCue ⟨.ofInt n, .text s.text, .text f.text, Text.joinWith "\n" ls⟩ ++ rest
      = Text.ofInt n ++ '\n' :: (timeLine s.written f.written ++
          '\n' :: (Text.joinWith "\n" ls ++ '\n' :: '\n' :: rest)) := by
    simp only [renderCue, timeLine, List.append_assoc, List.cons_append]
    rfl
  rw [hrender]
  cases ls with
  | nil =>
      -- The line feed after an empty text makes another blank line.
      have hjoin := blocks_joinWith_append _ ('\n' :: rest) (List.cons_ne_nil _ _) hall
      rw [Text.joinWith_cons_cons, Text.joinWith, List.intercalate_singleton,
        blocks_newline] at hjoin
      rw [← hjoin]
      simp only [List.append_assoc]
      rfl
  | cons l ls =>
      have hjoin := blocks_joinWith_append _ rest (List.cons_ne_nil _ _) hall
      rw [Text.joinWith_cons_cons, Text.joinWith_cons_cons] at hjoin
      rw [← hjoin]
      simp only [List.append_assoc]
      rfl

theorem splitIndex_ofInt (n : Int) (ls : List Text) :
    splitIndex (Text.ofInt n :: ls) = (index (Text.ofInt n), ls) := by
  rw [splitIndex, cutAtArrow?_ofInt]
  rfl

/-- A block of a number, two times and the lines of a text is read. -/
theorem reads_block (n : Int) (v w : Written) (ls : List Text) (s f : Text) (hv : v.Fits)
    (hw : w.Fits) (hs : clockText v.millis = .ok s) (hf : clockText w.millis = .ok f)
    (h : ∀ l ∈ ls, Tidy l) :
    Reads (Text.ofInt n :: timeLine v w :: ls)
      ⟨index (Text.ofInt n), .text s, .text f, Text.joinWith "\n" ls⟩ := by
  rw [reads_iff, Text.map_trimEnd_tidy _ (tidy_block n v w ls h)]
  exact ⟨by simp only [List.length_cons]; omega, _, _, _, _, _, v.millis, w.millis, _, _,
    splitIndex_ofInt n _, times?_timeLine v w, (time_text_eq_ok_iff _ _ _).mpr ⟨hv, rfl⟩,
    (time_text_eq_ok_iff _ _ _).mpr ⟨hw, rfl⟩, hs, hf, rfl⟩

/-- The block of a cue is read as the cue. -/
theorem reads_lines (n : Int) (s f : Canonical) (ls : List Text)
    (hn : (digits n.natAbs).length ≤ Numeral.digitLimit)
    (hs : s.Plain) (hslength : s.hours.length ≤ Numeral.digitLimit)
    (hf : f.Plain) (hflength : f.hours.length ≤ Numeral.digitLimit)
    (h : ∀ l ∈ ls, Tidy l) :
    Reads (Text.ofInt n :: timeLine s.written f.written :: ls)
      ⟨.ofInt n, .text s.text, .text f.text, Text.joinWith "\n" ls⟩ := by
  have hread := reads_block n s.written f.written ls s.text f.text (fits_written s hslength)
    (fits_written f hflength) (clockText_total s (s.padded_hours hs) hslength)
    (clockText_total f (f.padded_hours hf) hflength) h
  rwa [index_ofInt n hn] at hread

/-- The blocks of a rendered document are read as its cues. -/
theorem reads_render (cues : List Cue) (h : ∀ c ∈ cues, Writable c) :
    List.Forall₂ Reads (blocks (render cues)) cues := by
  induction cues with
  | nil => exact List.Forall₂.nil
  | cons c cues ih =>
      rcases c with ⟨index, start, finish, text⟩
      rcases h _ List.mem_cons_self with
        ⟨⟨n, hn, rfl⟩, ⟨s, hs, hslength, rfl⟩, ⟨f, hf, hflength, rfl⟩, ⟨ls, hls, rfl⟩⟩
      rw [render, List.flatMap_cons, blocks_renderCue n s f ls _ hls]
      exact List.Forall₂.cons (reads_lines n s f ls hn hs hslength hf hflength hls)
        (ih fun d hd => h d (List.mem_cons_of_mem _ hd))

-- A whole number begins with a digit or a minus sign, so there is no mark to drop.
theorem unmarked_ofInt_append (n : Int) (rest : Text) :
    unmarked (Text.ofInt n ++ rest) = Text.ofInt n ++ rest := by
  refine unmarked_eq_self _ fun heq => ?_
  rcases List.exists_cons_of_ne_nil (Text.ofInt_ne_nil n) with ⟨c, t, hct⟩
  have hc : c = mark := by
    rw [hct] at heq
    exact Option.some.inj heq
  rcases Text.mem_ofInt n c (by rw [hct]; exact List.mem_cons_self) with hminus | ⟨d, hd, hdigit⟩
  · rw [hc] at hminus
    exact absurd hminus (by decide)
  · exact Text.digitChar_ne d hd mark (by decide) (hdigit.symm.trans hc)

-- A document of a single block is read as the block is.
theorem parse_block (n : Int) (v w : Written) (ls : List Text) (c : Cue)
    (hread : Reads (Text.ofInt n :: timeLine v w :: ls) c) (h : ∀ l ∈ ls, Tidy l) :
    parse (Text.joinWith "\n" (Text.ofInt n :: timeLine v w :: ls)) = .ok [c] := by
  have hunmarked := unmarked_ofInt_append n
    ("\n".toList ++ Text.joinWith "\n" (timeLine v w :: ls))
  rw [← List.append_assoc, ← Text.joinWith_cons_cons] at hunmarked
  rw [parse_eq_ok_iff, hunmarked,
    blocks_joinWith _ (List.cons_ne_nil _ _) (tidy_block n v w ls h)]
  exact List.Forall₂.cons hread List.Forall₂.nil

theorem unmarked_render (cues : List Cue) (h : ∀ c ∈ cues, Writable c) :
    unmarked (render cues) = render cues := by
  cases cues with
  | nil => rfl
  | cons c cues =>
      rcases (h c List.mem_cons_self).index with ⟨n, -, hindex⟩
      have hwritten : c.index.written = Text.ofInt n := by
        rw [hindex]
        rfl
      rw [render, List.flatMap_cons, renderCue, hwritten]
      simp only [List.append_assoc]
      exact unmarked_ofInt_append n _

end Document

namespace Source

open Document (Writable)

/-- A rendered document is read as its cues, in order and unchanged. -/
theorem parse_render (name : Text) (cues : List Cue) (h : ∀ c ∈ cues, Writable c) :
    parse name (Document.render cues) = .ok cues := by
  rw [parse_eq_ok_iff, Document.parse_eq_ok_iff, Document.unmarked_render cues h]
  exact Document.reads_render cues h

/-- Cues with lines that look like parts of a block, one with hours of three
    digits, and one without a text. -/
def talkCues : List Cue :=
  [⟨.ofInt 7, .text "00:00:01,000", .text "123:00:02,500",
      "12\n00:00:01,000 --> 00:00:02,000\n  -->"⟩,
    ⟨.ofInt (-3), .text "00:00:05,000", .text "00:00:04,000", []⟩]

theorem parse_render_talkCues :
    (∀ c ∈ talkCues, Writable c) ∧
      parse "talk.srt" (Document.render talkCues) = .ok talkCues := by
  have hplain : ∀ ms, Document.PlainTime (.text (Canonical.ofTotal ms).text) := fun ms =>
    ⟨.ofTotal ms, Or.inl rfl, show 2 ≤ Numeral.digitLimit by decide, rfl⟩
  have hlong : Document.PlainTime (.text "123:00:02,500") :=
    ⟨{ Canonical.ofTotal 2500 with
        hours := [1, 2, 3]
        hours_isDigits := by decide
        hours_length := by decide },
      Or.inr (by decide), by decide, rfl⟩
  have hcues : ∀ c ∈ talkCues, Writable c := by
    simp only [talkCues, List.forall_mem_cons]
    refine ⟨⟨⟨7, by with_unfolding_all decide, rfl⟩, hplain 1000, hlong,
      ["12", "00:00:01,000 --> 00:00:02,000", "  -->"], by decide, rfl⟩,
      ⟨⟨-3, by with_unfolding_all decide, rfl⟩, hplain 5000, hplain 4000, [], by decide, rfl⟩, ?_⟩
    intro c hc
    exact absurd hc List.not_mem_nil
  exact ⟨hcues, parse_render "talk.srt" talkCues hcues⟩

end Source

end Captions
