import Captions.Proofs.Document.Rendered
import Captions.Proofs.Timestamp.Fractions

/-!
# Fractions of a Second in a Document

Whether a time means the same in a document as it does on its own.

In a document the digits of a fraction count milliseconds, however many they are.
The cue that is read says so many milliseconds, and is later taken at its word.
A time is therefore kept exactly when its fraction has three digits or is zero.
This holds of both times of every block in every document that is read; that a
block of a number, two such times and some lines is read at all is the other half
of `parse_fraction`.

## Main definitions

* `FractionRule`: When a value means the time of a text.

## Theorems

* `reads_times`: The times of a cue, by the texts they were read from.
* `parse_fraction`: The times of every cue that is read from a document.
* `not_seconds_kept`: A cue that does not mean what was written.
-/

namespace Captions

open Text (ofDigits Tidy)
open Timestamp (Written Canonical)

namespace Document

theorem clockText_eq_ok (n : Nat) (s : Text) (h : clockText n = .ok s) :
    s = (Clock.ofMillis n).text := by
  rw [clockText_natCast] at h
  split at h
  · exact absurd h (error_ne_ok _ _)
  · exact (Except.ok.inj h).symm

-- The fraction may carry into the hours, but not beyond its own number of digits.
theorem clockText_millis (w : Written) (hfits : w.Fits) (h : ofDigits w.hours < 100000) :
    clockText w.millis = .ok (Clock.ofMillis w.millis).text := by
  have hm := w.minutes_lt
  have hs := w.seconds_lt
  have hf := Text.ofDigits_lt w.fraction w.fraction_isDigits
  have hfraction : 10 ^ w.fraction.length ≤ 10 ^ Numeral.digitLimit :=
    Nat.pow_le_pow_right (by omega) hfits.fraction_le
  have hlimit : 10 ^ 7 ≤ 10 ^ Numeral.digitLimit := Nat.pow_le_pow_right (by omega) (by decide)
  have hhours : w.millis / 3600000 < 10 ^ Numeral.digitLimit := by
    unfold Written.millis
    generalize 10 ^ Numeral.digitLimit = limit at hfraction hlimit ⊢
    omega
  have hlength := Text.length_digits_le _ Numeral.digitLimit (by decide) hhours
  rw [clockText_natCast, if_neg (by omega)]

/-- A cue says the times of its block in milliseconds. -/
theorem reads_times (ls : List Text) (c : Cue) (h : Reads ls c) :
    ∃ first second, blockTimes? ls = some (first, second) ∧
      (∀ w : Written, w.text = first → c.start = .text (Clock.ofMillis w.millis).text) ∧
      ∀ w : Written, w.text = second → c.finish = .text (Clock.ofMillis w.millis).text := by
  rcases (reads_iff ls c).mp h with ⟨-, number, line, rest, first, second, start, finish, s, f,
    hsplit, htimes, hstart, hfinish, hs, hf, rfl⟩
  refine ⟨first, second, ?_, ?_, ?_⟩
  · rw [blockTimes?, hsplit]
    exact htimes
  · rintro w rfl
    rw [((time_text_eq_ok_iff _ w start).mp hstart).2] at hs
    exact congrArg Value.text (clockText_eq_ok _ s hs)
  · rintro w rfl
    rw [((time_text_eq_ok_iff _ w finish).mp hfinish).2] at hf
    exact congrArg Value.text (clockText_eq_ok _ f hf)

/-- A value means the time of a text, below a hundred thousand hours, just when
    the text's fraction has three digits or is zero. -/
def FractionRule (t : Text) (v : Value) : Prop :=
  ∀ w : Written, w.text = t → ofDigits w.hours < 100000 →
    (Cue.time v = Cue.time (.text t)
      ↔ w.fraction.length = 3 ∨ ofDigits w.fraction = 0)

theorem fractionRule_of_clock (t : Text) (v : Value)
    (h : ∀ w : Written, w.text = t → v = .text (Clock.ofMillis w.millis).text) :
    FractionRule t v := by
  rintro w rfl hhours
  rw [h w rfl, Cue.time_text_eq_iff]
  exact Timestamp.seconds_clock_iff w hhours

theorem reads_fraction (ls : List Text) (c : Cue) (h : Reads ls c) :
    ∃ first second, blockTimes? ls = some (first, second) ∧
      FractionRule first c.start ∧ FractionRule second c.finish := by
  rcases reads_times ls c h with ⟨first, second, htimes, hstart, hfinish⟩
  exact ⟨first, second, htimes, fractionRule_of_clock _ _ hstart,
    fractionRule_of_clock _ _ hfinish⟩

theorem blockTimes?_timeLine (n : Int) (v w : Written) (ls : List Text) (h : ∀ l ∈ ls, Tidy l) :
    blockTimes? (Text.ofInt n :: timeLine v w :: ls) = some (v.text, w.text) := by
  rw [blockTimes?, Text.map_trimEnd_tidy _ (tidy_block n v w ls h), splitIndex_ofInt]
  exact times?_timeLine v w

end Document

namespace Source

open Document (FractionRule blockTimes? blocks unmarked timeLine)

/-- The times of every cue that is read from a document are those that were
    written just when the fractions say so; and every block of a number, two
    times and lines of text is read. -/
theorem parse_fraction (name : Text) :
    (∀ t cues, parse name t = .ok cues →
      List.Forall₂ (fun ls c => ∃ first second, blockTimes? ls = some (first, second) ∧
        FractionRule first c.start ∧ FractionRule second c.finish)
        (blocks (unmarked t)) cues) ∧
    ∀ (n : Int) (v w : Written) (ls : List Text), v.Fits → w.Fits →
      ofDigits v.hours < 100000 → ofDigits w.hours < 100000 → (∀ l ∈ ls, Tidy l) →
      ∃ c, parse name (Text.joinWith "\n" (Text.ofInt n :: timeLine v w :: ls)) = .ok [c] ∧
        FractionRule v.text c.start ∧ FractionRule w.text c.finish := by
  constructor
  · intro t cues h
    rw [parse_eq_ok_iff, Document.parse_eq_ok_iff] at h
    exact h.imp fun ls c => Document.reads_fraction ls c
  · intro n v w ls hv hw hvhours hwhours hls
    have hread := Document.reads_block n v w ls _ _ hv hw
      (Document.clockText_millis v hv hvhours) (Document.clockText_millis w hw hwhours) hls
    rcases Document.reads_fraction _ _ hread with ⟨first, second, htimes, hstart, hfinish⟩
    rw [Document.blockTimes?_timeLine n v w ls hls, Option.some.injEq, Prod.mk.injEq] at htimes
    rw [← htimes.1] at hstart
    rw [← htimes.2] at hfinish
    exact ⟨_, (parse_eq_ok_iff name _ _).mpr (Document.parse_block n v w ls _ hread hls), hstart,
      hfinish⟩

theorem isDigits_five : Text.IsDigits [5] := by decide

/-- A second and a half, with a fraction of one digit. -/
def oneAndHalf : Written :=
  { (Canonical.ofTotal 1000).written with
    fraction := [5]
    fraction_isDigits := isDigits_five
    fraction_ne_nil := List.cons_ne_nil 5 [] }

/-- A document with a cue that appears after a second and a half. -/
def halfDocument : Text := "1\n00:00:01,5 --> 00:00:02,000\na"

/-- The cue that is read from it. -/
def halfCue : Cue := ⟨.ofInt 1, .text "00:00:01,005", .text "00:00:02,000", "a"⟩

theorem parse_halfDocument : parse "talk.srt" halfDocument = .ok [halfCue] := by
  with_unfolding_all rfl

theorem parse_fraction_halfDocument :
    parse "talk.srt" halfDocument = .ok [halfCue] ∧
    List.Forall₂ (fun ls c => ∃ first second, blockTimes? ls = some (first, second) ∧
      FractionRule first c.start ∧ FractionRule second c.finish)
      (blocks (unmarked halfDocument)) [halfCue] ∧
    ∃ c, parse "talk.srt" (Text.joinWith "\n"
        [Text.ofInt 1, timeLine oneAndHalf (Canonical.ofTotal 2000).written, "a"]) = .ok [c] ∧
      FractionRule oneAndHalf.text c.start ∧
      FractionRule (Canonical.ofTotal 2000).written.text c.finish := by
  have h := parse_fraction "talk.srt"
  refine ⟨parse_halfDocument, h.1 halfDocument [halfCue] parse_halfDocument, ?_⟩
  exact h.2 1 oneAndHalf (Canonical.ofTotal 2000).written ["a"] ⟨by decide, by decide, by decide,
    by decide⟩ (Document.fits_written _ (by decide)) (by decide) (by decide) (by decide)

-- A cue need not mean the time that was written in its block.
theorem not_seconds_kept :
    ¬ ∀ (name t : Text) (cues : List Cue), parse name t = .ok cues →
      List.Forall₂ (fun ls c => ∀ first second, blockTimes? ls = some (first, second) →
        ∀ w : Written, w.text = first → ofDigits w.hours < 100000 →
          Cue.time c.start = Cue.time (.text first))
        (blocks (unmarked t)) cues := by
  intro hclaim
  have hkept := hclaim "talk.srt" halfDocument [halfCue] parse_halfDocument
  have hblocks : blocks (unmarked halfDocument)
      = [[("1" : Text), "00:00:01,5 --> 00:00:02,000", "a"]] := by
    with_unfolding_all rfl
  rw [hblocks, List.forall₂_cons] at hkept
  have hsame : Timestamp.seconds "00:00:01,005" = Timestamp.seconds "00:00:01,5" :=
    (Cue.time_text_eq_iff _ _).mp
      (hkept.1 "00:00:01,5" "00:00:02,000" rfl oneAndHalf rfl (by decide))
  have hrule := Timestamp.seconds_clock_iff oneAndHalf (by decide)
  have hclock : (Clock.ofMillis oneAndHalf.millis).text = "00:00:01,005".toList := by
    with_unfolding_all rfl
  have htext : oneAndHalf.text = "00:00:01,5".toList := by rfl
  rw [hclock, htext] at hrule
  exact absurd (hrule.mp hsame) (by decide)

end Source

end Captions
