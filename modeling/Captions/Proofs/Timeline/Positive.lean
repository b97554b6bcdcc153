import Captions.Proofs.Instruction.Unsigned
import Captions.Proofs.Timeline.Segments
import Captions.Proofs.Timeline.Tolerance

/-!
# Positive Lengths

A host can be asked to wait for any number, and a number that is not positive
would stop it, or send it back. The instructions of a timeline never hold such
a number, whatever the times of the cues are.

The times need not be finite for that. The product of hours overflows to an
infinity, the difference of two infinities is not a number, and both are handed
on to the next cue by the playhead. But every number in an instruction has
passed a comparison, and a comparison with what is not a number fails. For the
duration of a cue the comparison is with zero. For a gap it is another one: its
rounding to the microsecond is compared with the tolerance, while the wait is
made with the gap itself. A rounding above the tolerance is enough to know the
sign of the gap.

## Theorems

* `zero_lt_of_worthWaiting`: A gap that is waited for is positive.
* `unsigned_sequence`: A timeline has no minus sign.
* `lengths_positive`: The numbers in the instructions of a timeline are
  positive.
-/

namespace Captions

namespace Timeline

open Binary64

theorem rank_tolerance : ∃ u : Nat, tolerance.rank = some (u : Int) := by
  rcases rank_ofRatio false (50000 * one) 1000000 with ⟨u, hu⟩
  rw [signed_false] at hu
  exact ⟨u, by rw [tolerance_eq, micros, hu]⟩

/-- A gap that is waited for is positive, although only its rounding is looked
    at. -/
theorem zero_lt_of_worthWaiting (gap : Binary64) (h : worthWaiting gap = true) :
    zero.lt gap = true := by
  rcases rank_tolerance with ⟨least, hleast⟩
  exact zero_lt_of_lt_roundPlaces tolerance gap least 6 hleast h

/-- What is emitted for one cue is positive, wherever the playhead stands. -/
theorem length_segment (style : Style) (gap : Binary64) (cue : Cue) (duration : Binary64)
    (i : Instruction) (h : i ∈ gapWait gap ++ shown style cue duration) :
    ∃ x, i.length = .double x ∧ zero.lt x = true := by
  rcases List.mem_append.mp h with h | h
  · rw [gapWait] at h
    split_ifs at h with hworth
    · rw [List.mem_singleton.mp h]
      exact ⟨gap, rfl, zero_lt_of_worthWaiting gap hworth⟩
    · exact absurd h List.not_mem_nil
  · rw [shown] at h
    split_ifs at h with hlasts
    · refine ⟨duration, ?_, hlasts⟩
      rcases List.mem_pair.mp h with rfl | rfl <;> rfl
    · exact absurd h List.not_mem_nil

theorem length_emitted_pos (style : Style) (i : Instruction) (timed : List Timed) :
    ∀ playhead, i ∈ emitted style playhead timed →
      ∃ x, i.length = .double x ∧ zero.lt x = true := by
  induction timed with
  | nil => intro playhead h; exact absurd h List.not_mem_nil
  | cons t timed ih =>
      intro playhead h
      rw [emitted] at h
      rcases List.mem_append.mp h with h | h
      · exact length_segment style _ t.1 _ i h
      · exact ih t.2.finish h

theorem unsigned_emitted (style : Style) (timed : List Timed) (playhead : Binary64) :
    Instruction.Unsigned (emitted style playhead timed) := by
  intro i hi
  rcases length_emitted_pos style i timed playhead hi with ⟨x, hx, hpos⟩
  exact ⟨x, hx, (of_zero_lt x hpos).2.1⟩

/-- A timeline has no minus sign, whatever the times of its cues are. -/
theorem unsigned_sequence (style : Style) (cues : List Cue) (is : List Instruction)
    (h : (sequence style cues).2 = .ok is) : Instruction.Unsigned is := by
  rcases (sequence_eq_ok_iff style cues is).mp h with ⟨timed, _, _, _, rfl⟩
  exact unsigned_emitted style timed zero

/-- Every number in the instructions of a timeline is positive, whatever the
    times of its cues. -/
theorem lengths_positive (style : Style) (cues : List Cue) (is : List Instruction)
    (h : (sequence style cues).2 = .ok is) :
    ∀ i ∈ is, ∃ x, i.length = .double x ∧ zero.lt x = true ∧
      x ≠ .nan ∧ x.negative = false ∧ x.isZero = false := by
  rcases (sequence_eq_ok_iff style cues is).mp h with ⟨timed, _, _, _, rfl⟩
  intro i hi
  rcases length_emitted_pos style i timed _ hi with ⟨x, hx, hpos⟩
  exact ⟨x, hx, hpos, of_zero_lt x hpos⟩

theorem lengths_positive_overflowing :
    ∃ is, (sequence Style.standard (overflowing.map Prod.fst)).2 = .ok is ∧
      is.map Instruction.length
        = [.double (thirtySeconds 32), .double (thirtySeconds 32), .double (thirtySeconds 48),
          .double (.infinite false), .double (.infinite false), .double (thirtySeconds 32),
          .double (thirtySeconds 32), .double (thirtySeconds 32)] ∧
      ∀ i ∈ is, ∃ x, i.length = .double x ∧ zero.lt x = true ∧
        x ≠ .nan ∧ x.negative = false ∧ x.isZero = false := by
  refine ⟨_, sequence_overflowing, ?_,
    lengths_positive Style.standard _ _ sequence_overflowing⟩
  decide +kernel

end Timeline

end Captions
