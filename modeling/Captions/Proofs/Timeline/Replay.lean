import Captions.Proofs.Instruction.Parts
import Captions.Proofs.Number.Value
import Captions.Proofs.Timeline.Emitted

/-!
# Replaying a Timeline

When a cue appears to a host that only waits.

Two clocks run through a timeline. The playhead is set to the end of every
cue, and the host's clock is the sum of the waits so far. A gap that is not
emitted and a cue that is not shown move the first and not the second, forward
or backward, and what they moved stays between the two clocks from then on.
`waited_emitted` is that invariant: the time waited, together with the gaps
not emitted and the durations not shown, is the way of the playhead. The third
term in it, `rounding`, is what the doubles in the instructions differ from the
exact differences of the times.

Nothing is assumed there about the cues. Where no subtraction rounds, the third
term is zero, which makes the time at which a cue is shown an exact sum, and
the length of the timeline another.

## Main definitions

* `Instruction.waited`: The time that instructions wait for.
* `Instruction.SumsExactly`: No addition in the length of a timeline rounds.
* `droppedGaps`: The gaps that are not emitted.
* `hiddenTime`: The durations of the cues that are not shown.
* `rounding`: What the emitted doubles differ from exact differences.
* `SubtractsExactly`: No subtraction in a timeline rounds.

## Theorems

* `waited_emitted`: The waits follow the playhead up to what is not emitted.
* `emitted_eq_of_shown`: Where the block of a cue stands in a timeline.
* `totalAfter_value`: The length of a timeline is the time it waits for.
* `replay_time_exact`: When each cue is shown, and how long a timeline is.
-/

namespace Captions

namespace Instruction

/-- The time that instructions wait for, in seconds. -/
def waited : List Instruction → ℚ
  | [] => 0
  | .wait delay :: rest => delay.value + waited rest
  | .showText _ :: rest => waited rest

/-- No addition rounds when the delays are summed up from a sum already made. -/
def SumsExactly : Number → List Instruction → Prop
  | _, [] => True
  | sum, .wait delay :: rest =>
    match sum.add delay with
    | .ok next => next.value = sum.value + delay.value ∧ SumsExactly next rest
    | .error _ => False
  | sum, .showText _ :: rest => SumsExactly sum rest

instance decidableSumsExactly : ∀ sum is, Decidable (SumsExactly sum is)
  | _, [] => isTrue trivial
  | sum, .wait delay :: rest =>
    match h : sum.add delay with
    | .ok next =>
      have := decidableSumsExactly next rest
      decidable_of_iff (next.value = sum.value + delay.value ∧ SumsExactly next rest)
        (by rw [SumsExactly, h])
    | .error _ => isFalse (by rw [SumsExactly, h]; exact not_false)
  | sum, .showText _ :: rest => decidableSumsExactly sum rest

theorem waited_append (xs ys : List Instruction) : waited (xs ++ ys) = waited xs + waited ys := by
  induction xs with
  | nil => rw [List.nil_append, waited, zero_add]
  | cons x xs ih =>
      cases x with
      | wait delay => rw [List.cons_append, waited, waited, ih, add_assoc]
      | showText b => rw [List.cons_append, waited, waited, ih]

/-- Where no addition rounds, the length of a timeline is the time it waits
    for. -/
theorem totalAfter_value (is : List Instruction) :
    ∀ sum, SumsExactly sum is →
      ∃ total, totalAfter sum is = .ok total ∧ total.value = sum.value + waited is := by
  induction is with
  | nil =>
      intro sum _
      exact ⟨sum, rfl, by rw [waited, add_zero]⟩
  | cons i is ih =>
      intro sum h
      cases i with
      | wait delay =>
          rw [SumsExactly] at h
          cases hadd : sum.add delay with
          | error o =>
              rw [hadd] at h
              exact absurd h not_false
          | ok next =>
              rw [hadd] at h
              rcases ih next h.2 with ⟨total, htotal, hsum⟩
              refine ⟨total, ?_, ?_⟩
              · rw [totalAfter, hadd]
                exact htotal
              · rw [hsum, h.1, waited, add_assoc]
      | showText b => exact ih sum h

end Instruction

namespace Timeline

open Instruction (waited shownCount waited_append shownCount_append)

/-- The gaps before cues that are not emitted as a wait, summed up. An overlap
    counts as a negative gap. -/
def droppedGaps : Binary64 → List Timed → ℚ
  | _, [] => 0
  | playhead, (_, span) :: rest =>
    (if worthWaiting (span.start.sub playhead) then 0 else span.start.value - playhead.value) +
      droppedGaps span.finish rest

/-- The durations of the cues that are not shown, summed up; none of them is
    positive. -/
def hiddenTime : List Timed → ℚ
  | [] => 0
  | (_, span) :: rest =>
    (if Binary64.zero.lt span.duration then 0 else span.finish.value - span.start.value) +
      hiddenTime rest

/-- What the doubles of the emitted waits differ from the exact differences of
    the times, summed up. -/
def rounding : Binary64 → List Timed → ℚ
  | _, [] => 0
  | playhead, (_, span) :: rest =>
    (if worthWaiting (span.start.sub playhead) then
      (span.start.sub playhead).value - (span.start.value - playhead.value) else 0) +
    (if Binary64.zero.lt span.duration then
      span.duration.value - (span.finish.value - span.start.value) else 0) +
    rounding span.finish rest

/-- No subtraction rounds, neither for a gap nor for a duration. -/
def SubtractsExactly : Binary64 → List Timed → Prop
  | _, [] => True
  | playhead, (_, span) :: rest =>
    ((span.start.sub playhead).isFinite = true ∧
      (span.start.sub playhead).value = span.start.value - playhead.value) ∧
    (span.duration.isFinite = true ∧
      span.duration.value = span.finish.value - span.start.value) ∧
    SubtractsExactly span.finish rest

instance decidableSubtractsExactly :
    ∀ playhead timed, Decidable (SubtractsExactly playhead timed)
  | _, [] => isTrue trivial
  | _, (_, span) :: rest =>
    have := decidableSubtractsExactly span.finish rest
    inferInstanceAs (Decidable (_ ∧ _ ∧ _))

/-- How many cues are shown. -/
def shownCues (timed : List Timed) : Nat :=
  timed.countP fun t => Binary64.zero.lt t.2.duration

theorem shownCues_cons (t : Timed) (timed : List Timed) :
    shownCues (t :: timed)
      = shownCues timed + if Binary64.zero.lt t.2.duration then 1 else 0 :=
  List.countP_cons

theorem waited_gapWait (gap : Binary64) :
    waited (gapWait gap) = if worthWaiting gap then gap.value else 0 := by
  unfold gapWait
  split
  · rw [waited, waited, add_zero, Number.value]
  · rfl

theorem waited_shown (style : Style) (cue : Cue) (duration : Binary64) :
    waited (shown style cue duration)
      = if Binary64.zero.lt duration then duration.value else 0 := by
  unfold shown
  split
  · rw [waited, waited, waited, add_zero, Number.value]
  · rfl

/-- The invariant that ties the host's clock to the playhead. -/
theorem waited_emitted (style : Style) (timed : List Timed) :
    ∀ playhead, waited (emitted style playhead timed)
      = (playheadAfter playhead timed).value - playhead.value - droppedGaps playhead timed -
        hiddenTime timed + rounding playhead timed := by
  induction timed with
  | nil =>
      intro playhead
      simp only [emitted, waited, playheadAfter, droppedGaps, hiddenTime, rounding, sub_self,
        add_zero]
  | cons t timed ih =>
      intro playhead
      obtain ⟨cue, span⟩ := t
      rw [emitted, waited_append, waited_append, waited_gapWait, waited_shown, ih, playheadAfter,
        droppedGaps, hiddenTime, rounding]
      -- Each of the two decisions moves both clocks or the playhead alone.
      split_ifs <;> ring

theorem droppedGaps_append (xs ys : List Timed) :
    ∀ playhead, droppedGaps playhead (xs ++ ys)
      = droppedGaps playhead xs + droppedGaps (playheadAfter playhead xs) ys := by
  induction xs with
  | nil => intro playhead; rw [List.nil_append, droppedGaps, playheadAfter, zero_add]
  | cons t xs ih =>
      intro playhead
      rw [List.cons_append, droppedGaps, droppedGaps, playheadAfter, ih, add_assoc]

theorem subtractsExactly_append (xs ys : List Timed) :
    ∀ playhead, SubtractsExactly playhead (xs ++ ys) ↔
      SubtractsExactly playhead xs ∧ SubtractsExactly (playheadAfter playhead xs) ys := by
  induction xs with
  | nil => intro playhead; rw [List.nil_append, playheadAfter, SubtractsExactly, true_and]
  | cons t xs ih =>
      intro playhead
      rw [List.cons_append, SubtractsExactly, SubtractsExactly, playheadAfter, ih]
      simp only [and_assoc]

-- Where no subtraction rounds, the doubles are the exact differences.
theorem rounding_eq_zero (timed : List Timed) :
    ∀ playhead, SubtractsExactly playhead timed → rounding playhead timed = 0 := by
  induction timed with
  | nil => intro playhead _; rfl
  | cons t timed ih =>
      intro playhead h
      rcases h with ⟨⟨_, hgap⟩, ⟨_, hduration⟩, hrest⟩
      rw [rounding, hgap, hduration, ih _ hrest, sub_self, sub_self, ite_self, ite_self, add_zero,
        add_zero]

theorem shownCount_gapWait (gap : Binary64) : shownCount (gapWait gap) = 0 := by
  unfold gapWait
  split <;> rfl

theorem shownCount_emitted (style : Style) (timed : List Timed) :
    ∀ playhead, shownCount (emitted style playhead timed) = shownCues timed := by
  induction timed with
  | nil => intro playhead; rfl
  | cons t timed ih =>
      intro playhead
      have hshown : shownCount (shown style t.1 t.2.duration)
          = if Binary64.zero.lt t.2.duration then 1 else 0 := by
        unfold shown
        split <;> rfl
      rw [emitted, shownCount_append, shownCount_append, shownCount_gapWait, hshown, ih,
        shownCues_cons]
      omega

/-- Before the block of a cue that is shown stands all that the cues before it
    emitted, and the wait for its gap. -/
theorem emitted_eq_of_shown (style : Style) (pre post : List Timed) (cue : Cue) (span : Span)
    (playhead : Binary64) (h : Binary64.zero.lt span.duration = true) :
    emitted style playhead (pre ++ (cue, span) :: post)
      = (emitted style playhead pre ++ gapWait (span.start.sub (playheadAfter playhead pre))) ++
        .showText (block style cue span.duration) ::
          .wait (.double span.duration) :: emitted style span.finish post := by
  rw [emitted_append, emitted, shown, if_pos h]
  simp only [List.append_assoc, List.cons_append, List.nil_append]

-- The time waited before a cue, with what the emitted doubles differ from the exact
-- differences.
theorem waited_before (style : Style) (pre : List Timed) (cue : Cue) (span : Span)
    (playhead : Binary64) :
    waited (emitted style playhead pre ++
        gapWait (span.start.sub (playheadAfter playhead pre)))
      = span.start.value - playhead.value - droppedGaps playhead (pre ++ [(cue, span)]) -
        hiddenTime pre + (rounding playhead pre +
          if worthWaiting (span.start.sub (playheadAfter playhead pre)) then
            (span.start.sub (playheadAfter playhead pre)).value -
              (span.start.value - (playheadAfter playhead pre).value) else 0) := by
  rw [waited_append, waited_emitted, waited_gapWait, droppedGaps_append, droppedGaps, droppedGaps]
  split_ifs <;> ring

/-- Where nothing is rounded, a cue is shown at its start less the gaps before
    it that were not emitted and the durations before it that were not shown,
    and the timeline is as long as the last end less all of them. -/
theorem replay_time_exact (style : Style) (cues : List Cue) (is : List Instruction)
    (timed : List Timed) (hseq : (sequence style cues).2 = .ok is)
    (hcues : timed.map Prod.fst = cues) (hconv : Converted timed)
    (hexact : SubtractsExactly Binary64.zero timed) :
    (∀ pre cue span post, timed = pre ++ (cue, span) :: post →
      Binary64.zero.lt span.duration = true →
      ∃ before after, is = before ++ .showText (block style cue span.duration) :: after ∧
        shownCount before = shownCues pre ∧
        waited before = span.start.value -
          droppedGaps Binary64.zero (pre ++ [(cue, span)]) - hiddenTime pre) ∧
    (∀ pre cue span, timed = pre ++ [(cue, span)] → Instruction.SumsExactly (.whole 0) is →
      ∃ total, Instruction.totalDelay is = .ok total ∧
        total.value = span.finish.value - droppedGaps Binary64.zero timed - hiddenTime timed) := by
  have his : is = emitted style Binary64.zero timed :=
    emitted_of_sequence style timed is hconv (hcues ▸ hseq)
  constructor
  · intro pre cue span post htimed hshown
    rw [htimed, subtractsExactly_append] at hexact
    have hsplit := emitted_eq_of_shown style pre post cue span Binary64.zero hshown
    rw [← htimed, ← his] at hsplit
    refine ⟨_, _, hsplit, ?_, ?_⟩
    · rw [shownCount_append, shownCount_emitted, shownCount_gapWait, Nat.add_zero]
    · rw [waited_before style pre cue span, rounding_eq_zero pre _ hexact.1, hexact.2.1.2,
        sub_self, ite_self, Binary64.value_zero, sub_zero, add_zero, add_zero]
  · intro pre cue span htimed hsums
    rcases Instruction.totalAfter_value is _ hsums with ⟨total, htotal, hval⟩
    refine ⟨total, htotal, ?_⟩
    have hlast : playheadAfter Binary64.zero timed = span.finish := by
      rw [htimed, playheadAfter_append]
      rfl
    rw [hval, his, waited_emitted, rounding_eq_zero timed _ hexact, hlast, Binary64.value_zero]
    simp only [Number.value, Int.cast_zero, zero_add, sub_zero, add_zero]

/-- A time in thirty-seconds of a second. -/
def thirtySeconds (n : Nat) : Binary64 := Binary64.ofRatio false (n * Binary64.one) 32

/-- A cue after a gap that is not emitted, and a cue that ends before it
    starts. -/
def setBack : List Timed :=
  [ (⟨.ofInt 1, .ofString "00:00:00.03125", .ofString "00:00:01,000", "a"⟩,
      ⟨thirtySeconds 1, thirtySeconds 32⟩),
    (⟨.ofInt 2, .ofString "00:00:02,000", .ofString "00:00:01,500", "b"⟩,
      ⟨thirtySeconds 64, thirtySeconds 48⟩) ]

/-- A cue that starts before the end of those in `setBack`. -/
def overlapping : Timed :=
  (⟨.ofInt 3, .ofString "00:00:01,250", .ofString "00:00:03,000", "c"⟩,
    ⟨thirtySeconds 40, thirtySeconds 96⟩)

theorem replay_time_exact_overlapping :
    ∃ is, (sequence Style.standard ((setBack ++ [overlapping]).map Prod.fst)).2 = .ok is ∧
      Converted (setBack ++ [overlapping]) ∧
      SubtractsExactly Binary64.zero (setBack ++ [overlapping]) ∧
      Binary64.zero.lt overlapping.2.duration = true ∧
      Instruction.SumsExactly (.whole 0) is ∧
      (∃ before after,
        is = before ++
          .showText (block Style.standard overlapping.1 overlapping.2.duration) :: after ∧
        shownCount before = 1 ∧ waited before = 63 / 32) ∧
      ∃ total, Instruction.totalDelay is = .ok total ∧ total.value = 119 / 32 := by
  have hconv : Converted (setBack ++ [overlapping]) := by decide +kernel
  have hexact : SubtractsExactly Binary64.zero (setBack ++ [overlapping]) := by decide +kernel
  have hlasts : Binary64.zero.lt overlapping.2.duration = true := by decide +kernel
  have hsums : ∀ is, emitted Style.standard Binary64.zero (setBack ++ [overlapping]) = is →
      Instruction.SumsExactly (.whole 0) is := by
    rintro _ rfl
    decide +kernel
  have hseq : (sequence Style.standard ((setBack ++ [overlapping]).map Prod.fst)).2
      = .ok (emitted Style.standard Binary64.zero (setBack ++ [overlapping])) :=
    (sequence_eq_ok_iff Style.standard _ _).mpr ⟨setBack ++ [overlapping], rfl, hconv,
      admitted_of_isWritable _ _ Style.isWritable_standard (by decide +kernel) _, rfl⟩
  -- From here on it does not matter what the timeline looks like.
  generalize his : emitted Style.standard Binary64.zero (setBack ++ [overlapping]) = is at hseq
  have hreplay := replay_time_exact Style.standard _ is _ hseq rfl hconv hexact
  -- One thirty-second is dropped, and eight by which the playhead goes back.
  have hdropped : droppedGaps Binary64.zero (setBack ++ [overlapping]) = -7 / 32 := by
    decide +kernel
  refine ⟨is, hseq, hconv, hexact, hlasts, hsums is his, ?_, ?_⟩
  · have hone : shownCues setBack = 1 := by decide +kernel
    have hhidden : hiddenTime setBack = -16 / 32 := by decide +kernel
    have hstart : overlapping.2.start.value = 40 / 32 := by decide +kernel
    rcases hreplay.1 setBack overlapping.1 overlapping.2 [] rfl hlasts with
      ⟨before, after, hsplit, hcount, hwaited⟩
    refine ⟨before, after, hsplit, ?_, ?_⟩
    · rw [hcount, hone]
    · rw [hwaited, hdropped, hhidden, hstart]
      norm_num
  · have hhidden : hiddenTime (setBack ++ [overlapping]) = -16 / 32 := by decide +kernel
    have hfinish : overlapping.2.finish.value = 96 / 32 := by decide +kernel
    rcases hreplay.2 setBack overlapping.1 overlapping.2 rfl (hsums is his) with
      ⟨total, htotal, hvalue⟩
    refine ⟨total, htotal, ?_⟩
    rw [hvalue, hdropped, hhidden, hfinish]
    norm_num

end Timeline

end Captions
