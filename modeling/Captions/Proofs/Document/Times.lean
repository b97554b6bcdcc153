import Captions.Proofs.Clock.Reading
import Captions.Proofs.Document.Blocks

/-!
# The Times of a Block

How the line of times in a block is taken apart, what its times are read as, and
how they are written again.

A time in a block is four whole numbers, so the fraction counts milliseconds
however many digits it has, and a time with a field over the limit is no time.
What comes out is written in the canonical form, with the hours in full. Only
these can be too long, because a sum of fields may carry into them.

An arrow is found by its characters. The texts of times hold none of them, so
the one arrow between two times is the one that is found, and the blanks around
it are the only ones to be trimmed.

## Main definitions

* `Timestamp.Written.Fits`: The fields of a timestamp are not too long.
* `timeLine`: The line of two times.
* `blockTimes?`: The texts of the two times in a block.

## Theorems

* `time_text_eq_ok_iff`: What a timestamp is read as in a block.
* `times?_timeLine`: The line of two times is taken apart.
* `clockText_total`: A canonical time is written as it was.
* `reads_iff`: What it takes for a block to be read.
-/

namespace Captions

open Text (numeral IsDigits ofDigits digits)
open Timestamp (Written Canonical)

/-- The fields of a timestamp are within the limit of whole numerals. -/
structure Timestamp.Written.Fits (w : Timestamp.Written) : Prop where
  hours_le : w.hours.length ≤ Numeral.digitLimit
  minutes_le : w.minutes.length ≤ Numeral.digitLimit
  seconds_le : w.seconds.length ≤ Numeral.digitLimit
  fraction_le : w.fraction.length ≤ Numeral.digitLimit

theorem Text.afterPrefix?_eq_some (lead t rest : Text) (h : Text.afterPrefix? lead t = some rest) :
    t = lead ++ rest := by
  induction lead generalizing t with
  | nil => exact Option.some.inj h
  | cons a lead ih =>
      cases t with
      | nil => exact absurd h (by simp only [Text.afterPrefix?, reduceCtorEq, not_false_eq_true])
      | cons c t =>
          rw [Text.afterPrefix?] at h
          by_cases hc : a = c
          · rw [if_pos hc] at h
            rw [hc, List.cons_append, ← ih t h]
          · rw [if_neg hc] at h
            exact absurd h (by simp only [reduceCtorEq, not_false_eq_true])

namespace Document

-- The digits that a field begins with are all of it, so a field that is too long
-- is not read as a shorter one.
theorem timeField_numeral (ds : List Nat) (n : Int) (hds : IsDigits ds) (hne : ds ≠ []) :
    timeField (numeral ds) = .ok n ↔ ds.length ≤ Numeral.digitLimit ∧ n = ofDigits ds := by
  rw [timeField, Numeral.whole_numeral ds hds hne, Numeral.leadingDigits_numeral ds hds]
  by_cases h : ds.length ≤ Numeral.digitLimit
  · rw [(Numeral.limited_eq_ok_iff ds _).mpr ⟨h, rfl⟩]
    simp only [Except.map, Except.ok.injEq, h, true_and]
    exact eq_comm
  · rw [Numeral.limited, if_pos (by omega)]
    simp only [Except.map, reduceCtorEq, h, false_and]

theorem isTimeMark_range (c : Char) (h : isTimeMark c = true) :
    c.toNat < 0x30 ∨ 0x39 < c.toNat := by
  simp only [isTimeMark, Bool.or_eq_true, decide_eq_true_eq] at h
  rcases h with (rfl | rfl) | rfl
  · decide
  · decide
  · decide

theorem cutAt_text (w : Written) :
    Text.cutAt isTimeMark w.text
      = [numeral w.hours, numeral w.minutes, numeral w.seconds, numeral w.fraction] := by
  have hmark : isTimeMark w.mark = true := by
    rcases w.mark_eq with h | h
    · rw [h]
      rfl
    · rw [h]
      rfl
  have hlast : ∀ c ∈ numeral w.fraction, isTimeMark c = false := by
    intro c hc
    rw [← Bool.not_eq_true]
    exact fun h => Timestamp.not_mem_numeral _ w.fraction_isDigits c (isTimeMark_range c h) hc
  rw [Written.text, Timestamp.cutAt_numeral _ _ _ _ w.hours_isDigits isTimeMark_range rfl,
    Timestamp.cutAt_numeral _ _ _ _ w.minutes_isDigits isTimeMark_range rfl,
    Timestamp.cutAt_numeral _ _ _ _ w.seconds_isDigits isTimeMark_range hmark,
    Text.cutAt_eq_self _ _ hlast]

theorem text_ne_nil (w : Written) : w.text ≠ [] :=
  List.append_ne_nil_of_right_ne_nil _ (List.cons_ne_nil _ _)

theorem millis_written (w : Written) :
    (w.millis : Int) = millis (ofDigits w.hours) (ofDigits w.minutes) (ofDigits w.seconds)
      (ofDigits w.fraction) := by
  rw [millis, Written.millis]
  push_cast
  rfl

/-- A timestamp in a block is read as its milliseconds, unless it is too long. -/
theorem time_text_eq_ok_iff (b : Chunk) (w : Written) (n : Int) :
    time b w.text = .ok n ↔ w.Fits ∧ n = w.millis := by
  have htime : time b w.text = .ok n ↔ ∃ h m s f, timeField (numeral w.hours) = .ok h ∧
      timeField (numeral w.minutes) = .ok m ∧ timeField (numeral w.seconds) = .ok s ∧
      timeField (numeral w.fraction) = .ok f ∧ n = millis h m s f := by
    rw [time, if_neg (text_ne_nil w), cutAt_text]
    simp only [bind_eq_ok_iff, pure_eq_ok_iff, exists_and_left]
  simp only [htime, timeField_numeral _ _ w.hours_isDigits w.hours_ne_nil,
    timeField_numeral _ _ w.minutes_isDigits w.minutes_ne_nil,
    timeField_numeral _ _ w.seconds_isDigits w.seconds_ne_nil,
    timeField_numeral _ _ w.fraction_isDigits w.fraction_ne_nil]
  constructor
  · rintro ⟨h, m, s, f, ⟨hh, rfl⟩, ⟨hm, rfl⟩, ⟨hs, rfl⟩, ⟨hf, rfl⟩, rfl⟩
    exact ⟨⟨hh, hm, hs, hf⟩, (millis_written w).symm⟩
  · rintro ⟨⟨hh, hm, hs, hf⟩, rfl⟩
    exact ⟨_, _, _, _, ⟨hh, rfl⟩, ⟨hm, rfl⟩, ⟨hs, rfl⟩, ⟨hf, rfl⟩, millis_written w⟩

-- A text without the last character of the arrow holds no arrow.
theorem cutAtArrow?_eq_none (t : Text) (h : '>' ∉ t) : cutAtArrow? t = none := by
  induction t with
  | nil => rfl
  | cons c t ih =>
      rw [cutAtArrow?]
      split
      · rename_i rest hrest
        refine absurd ?_ h
        rw [Text.afterPrefix?_eq_some arrow _ rest hrest]
        exact List.mem_append_left rest (by decide)
      · rw [ih (fun hmem => h (List.mem_cons_of_mem c hmem)), Option.map_none]

-- Where no arrow can begin, the text goes on to the next arrow.
theorem cutAtArrow?_append (t rest : Text) (h : '-' ∉ t) :
    cutAtArrow? (t ++ arrow ++ rest) = some (t, rest) := by
  induction t with
  | nil =>
      have hlead := Text.afterPrefix?_append arrow rest
      rw [show arrow ++ rest = '-' :: '-' :: '>' :: rest from rfl] at hlead
      rw [List.nil_append, show arrow ++ rest = '-' :: '-' :: '>' :: rest from rfl, cutAtArrow?,
        hlead]
  | cons c t ih =>
      have hc : '-' ≠ c := fun heq => h (List.mem_cons.mpr (Or.inl heq))
      have hlead : Text.afterPrefix? arrow (c :: (t ++ arrow ++ rest)) = none := if_neg hc
      rw [List.cons_append, List.cons_append, cutAtArrow?, hlead]
      simp only [ih (fun hmem => h (List.mem_cons_of_mem c hmem)), Option.map_some]

-- The texts of times have no character of an arrow.
theorem not_mem_text (w : Written) (c : Char) (hc : c = '-' ∨ c = '>' ∨ c = ' ') :
    c ∉ w.text := by
  intro hmem
  have hrange : c.toNat < 0x30 ∨ 0x39 < c.toNat := by
    rcases hc with rfl | rfl | rfl <;> decide
  rcases w.mem_text c hmem with ⟨d, hd, hdigit⟩ | hcolon | hmark
  · exact Text.digitChar_ne d hd c hrange hdigit.symm
  · rw [hcolon] at hc
    exact absurd hc (by decide)
  · rcases w.mark_eq with h | h
    · rw [hmark, h] at hc
      exact absurd hc (by decide)
    · rw [hmark, h] at hc
      exact absurd hc (by decide)

/-- The line of two times. -/
def timeLine (v w : Written) : Text := v.text ++ ' ' :: (arrow ++ ' ' :: w.text)

theorem trim_concat_space (w : Written) : Text.trim (w.text ++ [' ']) = w.text := by
  have hstart : Text.trimStart (w.text ++ [' ']) = w.text ++ [' '] := by
    rcases List.exists_cons_of_ne_nil (text_ne_nil w) with ⟨c, t, hct⟩
    have hc : Text.isBlank c = false :=
      w.not_isBlank_text c (by rw [hct]; exact List.mem_cons_self)
    rw [hct, List.cons_append, Text.trimStart, List.dropWhile_cons_of_neg (by rw [hc]; decide)]
  rw [Text.trim, hstart, Text.trimEnd, Text.dropEndWhile_concat, if_pos (by decide),
    Text.dropEndWhile_eq_self _ _ w.not_isBlank_text]

/-- The line of two times is taken apart into them. -/
theorem times?_timeLine (v w : Written) : times? (timeLine v w) = some (v.text, w.text) := by
  have hbefore : '-' ∉ v.text ++ [' '] := by
    rw [List.mem_append, not_or]
    exact ⟨not_mem_text v '-' (Or.inl rfl), by decide⟩
  have hafter : '>' ∉ ' ' :: w.text := by
    rw [List.mem_cons, not_or]
    exact ⟨by decide, not_mem_text w '>' (Or.inr (Or.inl rfl))⟩
  have hline : timeLine v w = v.text ++ [' '] ++ arrow ++ ' ' :: w.text := by
    rw [timeLine, List.append_assoc, List.append_assoc, List.singleton_append]
  have hspace : ∀ c ∈ w.text, decide (c ≠ ' ') = true := by
    intro c hc
    rw [decide_eq_true_eq]
    rintro rfl
    exact not_mem_text w ' ' (Or.inr (Or.inr rfl)) hc
  have hstart : Text.trimStart (' ' :: w.text) = w.text := by
    rw [Text.trimStart, List.dropWhile_cons_of_pos (by decide),
      Text.dropWhile_eq_self _ _ w.not_isBlank_text]
  rw [times?, hline, cutAtArrow?_append _ _ hbefore]
  simp only [cutAtArrow?_eq_none _ hafter, Option.isSome_none, Bool.false_eq_true, if_false,
    trim_concat_space, hstart, List.takeWhile_eq_self_iff.mpr hspace,
    Text.trim_eq_self _ w.not_isBlank_text]

theorem clockText_natCast (n : Nat) :
    clockText n = if Numeral.digitLimit < (digits (n / 3600000)).length then .error .longHours
      else .ok (Clock.ofMillis n).text := by
  unfold clockText Clock.ofMillis
  rw [Int.toNat_natCast]

/-- A canonical time without needless zeros is written as it was. -/
theorem clockText_total (c : Canonical)
    (hhours : Text.padded 2 (ofDigits c.hours) = numeral c.hours)
    (hlength : c.hours.length ≤ Numeral.digitLimit) : clockText c.total = .ok c.text := by
  have hm := c.minutes_lt
  have hs := c.seconds_lt
  have hf := c.millis_lt
  have hdiv : c.total / 3600000 = ofDigits c.hours := by
    unfold Canonical.total
    omega
  have hdigits : (digits (ofDigits c.hours)).length ≤ c.hours.length := by
    have hlen := congrArg List.length hhours
    rw [Text.padded, List.length_append, numeral, List.length_map] at hlen
    omega
  rw [clockText_natCast, hdiv, if_neg (by omega), Clock.text_ofMillis_of_padded c hhours]

/-- The texts of the two times in a block. -/
def blockTimes? (ls : List Text) : Option (Text × Text) :=
  match splitIndex (ls.map Text.trimEnd) with
  | (_, []) => none
  | (_, line :: _) => times? line

/-- What it takes for a block to be read. -/
theorem reads_iff (ls : List Text) (c : Cue) :
    Reads ls c ↔ 2 ≤ ls.length ∧ ∃ number line rest first second start finish s f,
      splitIndex (ls.map Text.trimEnd) = (number, line :: rest) ∧
      times? line = some (first, second) ∧
      time ⟨0, ls⟩ first = .ok start ∧ time ⟨0, ls⟩ second = .ok finish ∧
      clockText start = .ok s ∧ clockText finish = .ok f ∧
      c = ⟨number, .text s, .text f, Text.joinWith "\n" rest⟩ := by
  unfold Reads
  simp only [entry_eq_ok_iff, Entry.cue, bind_eq_ok_iff, pure_eq_ok_iff]
  constructor
  · rintro ⟨e, ⟨hlength, number, line, rest, first, second, start, finish, hsplit, htimes, hstart,
      hfinish, rfl⟩, s, hs, f, hf, hc⟩
    exact ⟨hlength, number, line, rest, first, second, start, finish, s, f, hsplit, htimes,
      hstart, hfinish, hs, hf, hc⟩
  · rintro ⟨hlength, number, line, rest, first, second, start, finish, s, f, hsplit, htimes,
      hstart, hfinish, hs, hf, hc⟩
    exact ⟨_, ⟨hlength, number, line, rest, first, second, start, finish, hsplit, htimes,
      hstart, hfinish, rfl⟩, s, hs, f, hf, hc⟩

end Document

end Captions
