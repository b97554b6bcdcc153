import Captions.Proofs.Timeline.Replay

/-!
# Timelines Cue by Cue

The instructions of a timeline are a concatenation of *segments*, one for each
cue. What a segment consists of is decided by the cue, the style and the end of
the cue before, so a timeline can be cut between any two cues, and all that the
second part needs of the first is one time.

The cues that are not shown have segments too, which may be empty, and they
move the playhead like every other cue. That is why a segment takes the
playhead from the end of the cue before it and not from what was emitted: the
instructions do not tell it. Nothing is assumed about the times. An infinite
playhead, or one that is not a number, is handed on like any other.

The notices and the instructions are made by the same steps, which are the
`timedEvents`, so that each count in the summary of a timeline is a sum over
segments.

## Main definitions

* `playheads`: Where the playhead stands at each cue.
* `segment`, `segments`: The instructions of one cue, and of each cue.
* `gaps`, `gapWaits`: The gaps before the cues, and how many are waited for.
* `lasts`, `skippedCues`: The cues that are shown, and how many are not.
* `EndsAt`: The time at which the last of some cues ends.
* `Converts`: Both times of a cue are well-formed.

## Theorems

* `emitted_eq_segments`: A timeline is the concatenation of its segments.
* `sequence_of_converted`: The notices and the instructions of a timeline.
* `sequence_segments`: A timeline cue by cue, where it can be cut, and its
  summary.
-/

namespace Captions

/-- The cue that a notice calls skipped, with its duration. -/
def Notice.skipped? : Notice → Option (Cue × Binary64)
  | .cueSkipped cue duration => some (cue, duration)
  | _ => none

theorem Text.ofInt_natCast (n : Nat) : Text.ofInt n = Text.digits n := by
  rw [Text.ofInt, if_neg (Int.natCast_nonneg n).not_gt, Int.natAbs_natCast]

/-- The summary subtracts what is shown from all there is, which leaves what is
    skipped. -/
theorem Notice.message_sequenced (elapsed : Text) (cues instructions shown skipped : Nat)
    (h : shown + skipped = cues) :
    (Notice.sequenced cues instructions shown).message elapsed
      = "Sequenced " ++ Text.digits cues ++ " cues → " ++ Text.digits instructions ++
        " instructions (" ++ Text.digits shown ++ " shown, " ++ Text.digits skipped ++
        " skipped)" := by
  have hskipped : Text.ofInt ((cues : Int) - shown) = Text.digits skipped := by
    rw [← Text.ofInt_natCast, ← h, Nat.cast_add, add_sub_cancel_left]
  rw [← hskipped]
  rfl

namespace Timeline

open Instruction (block?)
open Notice (skipped?)

/-- Where the playhead stands at each cue and after the last one. -/
def playheads (playhead : Binary64) (timed : List Timed) : List Binary64 :=
  playhead :: timed.map fun t => t.2.finish

/-- The gap before a cue. -/
def gapBefore (playhead : Binary64) (t : Timed) : Binary64 := t.2.start.sub playhead

/-- The instructions that lead from a playhead to the end of a cue. -/
def segment (style : Style) (playhead : Binary64) (t : Timed) : List Instruction :=
  gapWait (gapBefore playhead t) ++ shown style t.1 t.2.duration

/-- The segments of cues from a playhead on. -/
def segments (style : Style) (playhead : Binary64) (timed : List Timed) :
    List (List Instruction) :=
  List.zipWith (segment style) (playheads playhead timed) timed

/-- The gaps before cues, from a playhead on. -/
def gaps (playhead : Binary64) (timed : List Timed) : List Binary64 :=
  List.zipWith gapBefore (playheads playhead timed) timed

/-- How many gaps are waited for. -/
def gapWaits (playhead : Binary64) (timed : List Timed) : Nat :=
  (gaps playhead timed).countP worthWaiting

/-- Whether a cue lasts, so that it is shown. -/
def lasts (t : Timed) : Bool := Binary64.zero.lt t.2.duration

/-- How many cues are not shown. -/
def skippedCues (timed : List Timed) : Nat := timed.countP fun t => !lasts t

/-- The last of the cues ends at this time, or it is zero and there are none. -/
def EndsAt (cues : List Cue) (x : Binary64) : Prop :=
  match cues.getLast? with
  | none => x = Binary64.zero
  | some cue => Cue.time cue.finish = .ok x

/-- Both times of a cue are well-formed. -/
def Converts (cue : Cue) : Prop :=
  (∃ start, Cue.time cue.start = .ok start) ∧
    ∃ finish, Cue.time cue.finish = .ok finish

/-! ### Times -/

theorem times_of_span (cue : Cue) (span : Span) (h : cue.span = .ok span) :
    Cue.time cue.start = .ok span.start ∧
      Cue.time cue.finish = .ok span.finish := by
  rw [Cue.span] at h
  cases hstart : Cue.time cue.start with
  | error fault =>
      rw [hstart] at h
      exact absurd h (by simp only [bind, Except.bind, reduceCtorEq, not_false_eq_true])
  | ok start =>
      cases hfinish : Cue.time cue.finish with
      | error fault =>
          rw [hstart, hfinish] at h
          exact absurd h (by simp only [bind, Except.bind, reduceCtorEq, not_false_eq_true])
      | ok finish =>
          rw [hstart, hfinish] at h
          simp only [bind, Except.bind, pure, Except.pure, Except.ok.injEq] at h
          exact ⟨by rw [← h], by rw [← h]⟩

theorem converts_iff (cue : Cue) : Converts cue ↔ ∃ span, cue.span = .ok span := by
  constructor
  · rintro ⟨⟨start, hstart⟩, finish, hfinish⟩
    exact ⟨⟨start, finish⟩, by rw [Cue.span, hstart, hfinish]; rfl⟩
  · rintro ⟨span, hspan⟩
    rcases times_of_span cue span hspan with ⟨hstart, hfinish⟩
    exact ⟨⟨_, hstart⟩, _, hfinish⟩

/-- Cues whose times are well-formed have times in seconds. -/
theorem exists_converted (cues : List Cue) (h : ∀ cue ∈ cues, Converts cue) :
    ∃ timed, timed.map Prod.fst = cues ∧ Converted timed := by
  induction cues with
  | nil => exact ⟨[], rfl, fun t ht => absurd ht List.not_mem_nil⟩
  | cons cue cues ih =>
      rcases (converts_iff cue).mp (h cue List.mem_cons_self) with ⟨span, hspan⟩
      rcases ih (fun d hd => h d (List.mem_cons_of_mem cue hd)) with ⟨timed, hmap, hconv⟩
      refine ⟨(cue, span) :: timed, by rw [List.map_cons, hmap], fun t ht => ?_⟩
      rcases List.mem_cons.mp ht with rfl | ht
      · exact hspan
      · exact hconv t ht

/-! ### Segments -/

/-- What becomes of cues that contribute all they have. -/
theorem sequence_of_converted (style : Style) (timed : List Timed) (h : Converted timed)
    (hadmitted : Admitted style Binary64.zero timed) :
    sequence style (timed.map Prod.fst)
      = (notices (timedEvents style Binary64.zero timed) ++
          [.sequenced (timed.map Prod.fst).length (emitted style Binary64.zero timed).length
            (shownCues timed)],
        .ok (emitted style Binary64.zero timed)) := by
  rw [sequence, events_converted style timed h _ hadmitted]
  simp only []
  rw [instructions_timedEvents, shownCount_emitted]

theorem emitted_eq_segments (style : Style) (timed : List Timed) :
    ∀ playhead, emitted style playhead timed = (segments style playhead timed).flatten := by
  induction timed with
  | nil => intro playhead; rfl
  | cons t timed ih =>
      intro playhead
      rw [emitted, ih]
      rfl

theorem shown_of_lasts (style : Style) (t : Timed) (h : lasts t = true) :
    shown style t.1 t.2.duration
      = [.showText (block style t.1 t.2.duration), .wait (.double t.2.duration)] :=
  if_pos h

theorem shown_of_not_lasts (style : Style) (t : Timed) (h : ¬ lasts t = true) :
    shown style t.1 t.2.duration = [] :=
  if_neg h

theorem blocks_gapWait (gap : Binary64) : (gapWait gap).filterMap block? = [] := by
  unfold gapWait
  split <;> rfl

/-- The blocks of a timeline are those of the cues that last, in their order. -/
theorem blocks_emitted (style : Style) (timed : List Timed) :
    ∀ playhead, (emitted style playhead timed).filterMap block?
      = (timed.filter lasts).map fun t => block style t.1 t.2.duration := by
  induction timed with
  | nil => intro playhead; rfl
  | cons t timed ih =>
      intro playhead
      rw [emitted, List.filterMap_append, List.filterMap_append, blocks_gapWait, ih]
      by_cases hlasts : lasts t = true
      · rw [List.filter_cons_of_pos hlasts, shown_of_lasts style t hlasts]
        rfl
      · rw [List.filter_cons_of_neg hlasts, shown_of_not_lasts style t hlasts]
        rfl

theorem gapWaits_cons (playhead : Binary64) (t : Timed) (timed : List Timed) :
    gapWaits playhead (t :: timed)
      = gapWaits t.2.finish timed + if worthWaiting (t.2.start.sub playhead) then 1 else 0 :=
  List.countP_cons

/-- A cue that is shown makes two instructions, and a gap that is waited for one
    more. -/
theorem length_emitted (style : Style) (timed : List Timed) :
    ∀ playhead, (emitted style playhead timed).length
      = 2 * shownCues timed + gapWaits playhead timed := by
  induction timed with
  | nil => intro playhead; rfl
  | cons t timed ih =>
      intro playhead
      have hgap : (gapWait (t.2.start.sub playhead)).length
          = if worthWaiting (t.2.start.sub playhead) then 1 else 0 := by
        unfold gapWait
        split <;> rfl
      have hshown : (shown style t.1 t.2.duration).length
          = 2 * if Binary64.zero.lt t.2.duration then 1 else 0 := by
        unfold shown
        split <;> rfl
      rw [emitted, List.length_append, List.length_append, hgap, hshown, ih, shownCues_cons,
        gapWaits_cons]
      omega

theorem shownCues_add_skippedCues (timed : List Timed) :
    shownCues timed + skippedCues timed = timed.length := by
  rw [List.length_eq_countP_add_countP lasts]
  simp only [Bool.not_eq_true, Bool.decide_eq_false]
  rfl

/-! ### Notices -/

theorem notices_append (es fs : List Event) : notices (es ++ fs) = notices es ++ notices fs := by
  induction es with
  | nil => rfl
  | cons e es ih =>
      cases e with
      | emit i => rw [List.cons_append, notices, notices, ih]
      | note n => rw [List.cons_append, notices, notices, ih, List.cons_append]

/-- What is noted of a cue are details. -/
theorem level_of_mem_cueEvents (style : Style) (playhead : Binary64) (cue : Cue) (span : Span)
    (n : Notice) (h : n ∈ notices (cueEvents style playhead cue span)) : n.level = .debug := by
  rw [cueEvents, notices_append] at h
  rcases List.mem_append.mp h with h | h
  · rw [gapEvents] at h
    split_ifs at h
    · exact absurd h List.not_mem_nil
    · rw [List.mem_singleton.mp h]
      rfl
    · exact absurd h List.not_mem_nil
  · rw [blockEvents] at h
    split_ifs at h
    · exact absurd h List.not_mem_nil
    · rw [List.mem_singleton.mp h]
      rfl

theorem level_of_mem_timedEvents (style : Style) (n : Notice) (timed : List Timed) :
    ∀ playhead, n ∈ notices (timedEvents style playhead timed) → n.level = .debug := by
  induction timed with
  | nil => intro playhead h; exact absurd h List.not_mem_nil
  | cons t timed ih =>
      intro playhead h
      rw [timedEvents, notices_append] at h
      rcases List.mem_append.mp h with h | h
      · exact level_of_mem_cueEvents style playhead t.1 t.2 n h
      · exact ih t.2.finish h

theorem skipped_cueEvents (style : Style) (playhead : Binary64) (cue : Cue) (span : Span) :
    (notices (cueEvents style playhead cue span)).filterMap skipped?
      = if lasts (cue, span) then [] else [(cue, span.duration)] := by
  rw [cueEvents, notices_append, List.filterMap_append, gapEvents, blockEvents, lasts]
  split_ifs <;> rfl

/-- Every cue that does not last is noted once, in the order of the cues. -/
theorem skipped_timedEvents (style : Style) (timed : List Timed) :
    ∀ playhead, (notices (timedEvents style playhead timed)).filterMap skipped?
      = (timed.filter fun t => !lasts t).map fun t => (t.1, t.2.duration) := by
  induction timed with
  | nil => intro playhead; rfl
  | cons t timed ih =>
      intro playhead
      rw [timedEvents, notices_append, List.filterMap_append, skipped_cueEvents, ih]
      cases hlasts : lasts t with
      | true =>
          rw [List.filter_cons_of_neg (by rw [hlasts]; decide)]
          rfl
      | false =>
          rw [List.filter_cons_of_pos (by rw [hlasts]; rfl)]
          rfl

/-! ### Cutting a timeline -/

theorem endsAt_playheadAfter (timed : List Timed) (h : Converted timed) :
    EndsAt (timed.map Prod.fst) (playheadAfter Binary64.zero timed) := by
  rcases List.eq_nil_or_concat timed with rfl | ⟨front, t, rfl⟩
  · rfl
  · have hspan : t.1.span = .ok t.2 := h t (by simp only [List.concat_eq_append, List.mem_append,
      List.mem_singleton, or_true])
    rw [EndsAt, List.concat_eq_append, List.map_append, playheadAfter_append]
    simp only [List.map_cons, List.map_nil, List.getLast?_append, List.getLast?_singleton,
      Option.some_or]
    exact (times_of_span t.1 t.2 hspan).2

/-- Cut between any two cues, a timeline is that of the first part followed by
    what the second part makes of the time at which the first ends. -/
theorem emitted_cut (style : Style) (timed : List Timed) (h : Converted timed)
    (hadmitted : Admitted style Binary64.zero timed) (xs ys : List Cue)
    (hcut : timed.map Prod.fst = xs ++ ys) :
    ∃ front playhead, (sequence style xs).2 = .ok front ∧ EndsAt xs playhead ∧
      emitted style Binary64.zero timed = front ++ instructions (events style playhead ys).1 := by
  rcases List.map_eq_append_iff.mp hcut with ⟨before, after, rfl, rfl, rfl⟩
  have hbefore : Converted before := fun t ht => h t (List.mem_append_left _ ht)
  have hafter : Converted after := fun t ht => h t (List.mem_append_right _ ht)
  rcases (admitted_append style before after _).mp hadmitted with ⟨hfront, hback⟩
  refine ⟨emitted style Binary64.zero before, playheadAfter Binary64.zero before, ?_,
    endsAt_playheadAfter before hbefore, ?_⟩
  · rw [sequence_of_converted style before hbefore hfront]
  · rw [events_converted style after hafter _ hback, instructions_timedEvents, emitted_append]

/-- The timeline of an accepted list of cues. -/
theorem sequence_segments (style : Style) (cues : List Cue) (notes : List Notice)
    (is : List Instruction) (h : sequence style cues = (notes, .ok is)) :
    ∃ timed, timed.map Prod.fst = cues ∧ Converted timed ∧
      -- The instructions are segments in the order of the cues.
      is = (segments style Binary64.zero timed).flatten ∧
      is.filterMap block? = ((timed.filter lasts).map fun t =>
        { html := style.render t.1.text
          duration := .double (t.2.finish.sub t.2.start)
          width := style.resolved.containerWidth
          position := "Bottom Middle"
          dropShadow := false }) ∧
      -- They can be cut between any two cues.
      (∀ xs ys, cues = xs ++ ys → ∃ front playhead, (sequence style xs).2 = .ok front ∧
        EndsAt xs playhead ∧ is = front ++ instructions (events style playhead ys).1) ∧
      -- What is noted on the way agrees with them.
      ∃ details summary, notes = details ++ [summary] ∧
        (∀ n ∈ details, n.level = .debug) ∧
        details.filterMap skipped?
          = ((timed.filter fun t => !lasts t).map fun t => (t.1, t.2.finish.sub t.2.start)) ∧
        summary.level = .info ∧
        (∀ elapsed, summary.message elapsed
          = "Sequenced " ++ Text.digits cues.length ++ " cues → " ++ Text.digits is.length ++
            " instructions (" ++ Text.digits (shownCues timed) ++ " shown, " ++
            Text.digits (skippedCues timed) ++ " skipped)") ∧
        shownCues timed + skippedCues timed = cues.length ∧
        is.length = 2 * shownCues timed + gapWaits Binary64.zero timed := by
  have hseq : (sequence style cues).2 = .ok is := by rw [h]
  rcases (sequence_eq_ok_iff style cues is).mp hseq with ⟨timed, rfl, hconv, hadmitted, rfl⟩
  have hnotes := sequence_of_converted style timed hconv hadmitted
  rw [h, Prod.mk.injEq] at hnotes
  have hcount : shownCues timed + skippedCues timed = (timed.map Prod.fst).length := by
    rw [List.length_map, shownCues_add_skippedCues]
  refine ⟨timed, rfl, hconv, emitted_eq_segments style timed _, ?_,
    fun xs ys hcut => emitted_cut style timed hconv hadmitted xs ys hcut, _, _, hnotes.1,
    fun n hn => level_of_mem_timedEvents style n timed _ hn, ?_, rfl, ?_, ?_,
    length_emitted style timed _⟩
  · exact blocks_emitted style timed _
  · exact skipped_timedEvents style timed _
  · intro elapsed
    exact Notice.message_sequenced elapsed _ _ _ _ hcount
  · exact hcount

/-- Cues whose times leave the finite doubles and come back. -/
def overflowing : List Timed :=
  [ (⟨.ofInt 1, .ofString "00:00:00,000", .ofString "00:00:01,000", "a"⟩,
      ⟨thirtySeconds 0, thirtySeconds 32⟩),
    (⟨.ofInt 2, .ofString "00:00:01.03125", .ofString "00:00:00.5", "b"⟩,
      ⟨thirtySeconds 33, thirtySeconds 16⟩),
    (⟨.ofInt 3, .ofString "00:00:02,000", .ofString "1e308:00:00", "c"⟩,
      ⟨thirtySeconds 64, .infinite false⟩),
    (⟨.ofInt 4, .ofString "1e308:-1e308:00", .ofString "00:00:03,000", "d"⟩,
      ⟨.nan, thirtySeconds 96⟩),
    (⟨.ofInt 5, .ofString "00:00:04,000", .ofString "00:00:05,000", "e"⟩,
      ⟨thirtySeconds 128, thirtySeconds 160⟩) ]

theorem converted_overflowing : Converted overflowing := by
  decide +kernel

theorem admitted_overflowing : Admitted Style.standard Binary64.zero overflowing :=
  admitted_of_isWritable _ _ Style.isWritable_standard (by decide +kernel) _

theorem sequence_overflowing : (sequence Style.standard (overflowing.map Prod.fst)).2
    = .ok (emitted Style.standard Binary64.zero overflowing) := by
  rw [sequence_of_converted Style.standard overflowing converted_overflowing admitted_overflowing]

theorem sequence_segments_overflowing :
    ∃ details summary is,
      sequence Style.standard (overflowing.map Prod.fst) = (details ++ [summary], .ok is) ∧
      (is.filterMap block?).map Block.duration
        = [.double (thirtySeconds 32), .double (.infinite false), .double (thirtySeconds 32)] ∧
      (details.filterMap skipped?).map Prod.snd = [(thirtySeconds 17).neg, .nan] ∧
      is.length = 8 := by
  have hseq := sequence_of_converted Style.standard overflowing converted_overflowing
    admitted_overflowing
  generalize emitted Style.standard Binary64.zero overflowing = is at hseq
  rcases sequence_segments Style.standard _ _ is hseq with
    ⟨timed, hmap, htimed, _, hblocks, _, details, summary, hnotes, _, hskipped, _, _, _, hlength⟩
  have hsame := converted_unique timed overflowing htimed converted_overflowing hmap
  rw [hsame] at hblocks hskipped hlength
  refine ⟨details, summary, is, ?_, ?_, ?_, ?_⟩
  · rw [hseq, hnotes]
  · rw [hblocks, List.map_map]
    decide +kernel
  · rw [hskipped, List.map_map]
    decide +kernel
  · rw [hlength]
    decide +kernel

end Timeline

end Captions
