import Captions.Proofs.Clock.Reading

/-!
# Fractions of a Second

Which times keep their meaning when the fraction is read as a number of
milliseconds.

A time on its own is a decimal, so `00:00:01,5` is a second and a half. Read as a
number of milliseconds, the fraction makes it `00:00:01,005`. The two agree when
the fraction has three digits, and also when it is zero, whatever its length.

They agree nowhere else, and this is not a matter of rounding. A fraction of `f`
with some other number of digits is at least nine tenths of a millisecond away
from `f` milliseconds, and reading either time moves it by less than a millionth
of a second. Only a very long fraction is beyond such bounds. Its milliseconds
carry into the hours, and a time of so many hours is either larger than any that
was written with fewer, or no time at all.

## Main definitions

* `Canonical.inFull`: The canonical timestamp of any number of milliseconds.

## Theorems

* `Written.double_ofMillis_iff`: Which decimals are the milliseconds of their
  digits.
* `Canonical.text_inFull`: A clock shows milliseconds as their timestamp.
* `seconds_clock_iff`: Which times keep their meaning.
-/

namespace Captions

open Text (numeral IsDigits ofDigits digits digitValues)

namespace Timestamp

-- Without a fraction both readings are whole seconds.
theorem Written.double_of_zero (w : Written) (h : ofDigits w.fraction = 0) :
    w.double = ofMillis w.millis := by
  have hm := w.minutes_lt
  have hs := w.seconds_lt
  have hsplit := w.secondsPart_eq
  rw [h, Nat.add_zero] at hsplit
  have hmillis : w.millis = w.wholeMinutes * 1000 + ofDigits w.seconds * 1000 := by
    unfold Written.millis Written.wholeMinutes
    omega
  have hwhole : w.millis / 60000 * 60 = w.wholeMinutes := by
    unfold Written.millis Written.wholeMinutes
    omega
  have hpart : w.millis % 60000 = ofDigits w.seconds * 10 ^ 3 := by
    rw [Nat.mod_eq_sub_div_mul]
    omega
  have hscaled := Binary64.ofDecimal_scaled (ofDigits w.seconds) 3
  rw [ofMillis, hwhole, hpart, Written.double, Written.secondsDouble, hsplit,
    Binary64.ofDecimal_scaled, ← hscaled]
  rfl

-- The two times are far apart, beside what reading does to either.
theorem Written.double_ne_ofMillis (w : Written) (hhours : w.millis ≤ 400000000000)
    (hlength : w.fraction.length ≠ 3) (hzero : ofDigits w.fraction ≠ 0) :
    w.double ≠ ofMillis w.millis := by
  have hmillis : w.millis = w.wholeMinutes * 1000 + ofDigits w.seconds * 1000 +
      ofDigits w.fraction := by
    unfold Written.millis Written.wholeMinutes
    omega
  have hdecimal := (w.double_near (by omega)).2
  have hcount := (ofMillis_near w.millis (by omega)).2
  intro heq
  rw [heq, w.secondsPart_eq] at hdecimal
  have hposq : (0 : ℚ) < 10 ^ w.fraction.length := by positivity
  have hsum : ((ofDigits w.seconds * 10 ^ w.fraction.length + ofDigits w.fraction : Nat) : ℚ) /
      10 ^ w.fraction.length
        = ofDigits w.seconds + (ofDigits w.fraction : ℚ) / 10 ^ w.fraction.length := by
    push_cast
    rw [add_div, mul_div_cancel_right₀ _ (ne_of_gt hposq)]
  have hmillisq : (w.millis : ℚ) = w.wholeMinutes * 1000 + ofDigits w.seconds * 1000 +
      ofDigits w.fraction := by
    exact_mod_cast hmillis
  have hlarge : (w.millis : ℚ) ≤ 400000000000 := by exact_mod_cast hhours
  have hf : (1 : ℚ) ≤ ofDigits w.fraction := by
    exact_mod_cast Nat.one_le_iff_ne_zero.mpr hzero
  rw [hsum, abs_le] at hdecimal
  rw [abs_le] at hcount
  generalize (ofMillis w.millis).value = x at hdecimal hcount
  generalize (w.millis : ℚ) = total at hmillisq hlarge hcount
  rcases Nat.lt_or_gt_of_ne hlength with hshort | hlong
  · have hpow : (10 : ℚ) ^ w.fraction.length ≤ 10 ^ 2 :=
      pow_le_pow_right₀ (by norm_num) (by omega)
    have hquot : (ofDigits w.fraction : ℚ) / 10 ^ 2
        ≤ ofDigits w.fraction / 10 ^ w.fraction.length :=
      div_le_div_of_nonneg_left (by linarith) hposq hpow
    linarith
  · have hpow : (10 : ℚ) ^ 4 ≤ 10 ^ w.fraction.length :=
      pow_le_pow_right₀ (by norm_num) (by omega)
    have hquot : (ofDigits w.fraction : ℚ) / 10 ^ w.fraction.length
        ≤ ofDigits w.fraction / 10 ^ 4 :=
      div_le_div_of_nonneg_left (by linarith) (by norm_num) hpow
    linarith

/-- Which decimals are the milliseconds of their digits. -/
theorem Written.double_ofMillis_iff (w : Written) (hhours : w.millis ≤ 400000000000) :
    w.double = ofMillis w.millis ↔ w.fraction.length = 3 ∨ ofDigits w.fraction = 0 := by
  constructor
  · intro heq
    by_contra hneither
    rw [not_or] at hneither
    exact w.double_ne_ofMillis hhours hneither.1 hneither.2 heq
  · rintro (hlength | hzero)
    · exact w.double_of_length hlength
    · exact w.double_of_zero hzero

namespace Canonical

theorem ofDigits_replicate_zero (k : Nat) (ds : List Nat) :
    ofDigits (List.replicate k 0 ++ ds) = ofDigits ds := by
  induction k with
  | zero => rfl
  | succ k ih =>
      rw [List.replicate_succ, List.cons_append]
      exact ih

/-- The hours of a timestamp in full, with at least two digits. -/
def hoursInFull (n : Nat) : List Nat :=
  List.replicate (2 - (digitValues n).length) 0 ++ digitValues n

theorem ofDigits_hoursInFull (n : Nat) : ofDigits (hoursInFull n) = n := by
  rw [hoursInFull, ofDigits_replicate_zero, Text.ofDigits_digitValues]

theorem isDigits_hoursInFull (n : Nat) : IsDigits (hoursInFull n) := by
  rw [hoursInFull, Text.isDigits_append]
  refine ⟨fun d hd => ?_, Text.isDigits_digitValues n⟩
  rw [List.eq_of_mem_replicate hd]
  omega

/-- The canonical timestamp of any number of milliseconds. -/
def inFull (ms : Nat) : Canonical :=
  { ofTotal ms with
    hours := hoursInFull (ms / 3600000)
    hours_isDigits := isDigits_hoursInFull _
    hours_length := by
      rw [hoursInFull, List.length_append, List.length_replicate]
      omega }

theorem total_inFull (ms : Nat) : (inFull ms).total = ms := by
  have hhours : ofDigits (inFull ms).hours = ms / 3600000 := ofDigits_hoursInFull _
  have hminutes : ofDigits (inFull ms).minutes = ms / 60000 % 60 := minutes_ofTotal ms
  have hseconds : ofDigits (inFull ms).seconds = ms / 1000 % 60 := seconds_ofTotal ms
  have hmillis : ofDigits (inFull ms).millis = ms % 1000 := millis_ofTotal ms
  rw [total, hhours, hminutes, hseconds, hmillis]
  omega

/-- A clock shows the milliseconds as their canonical timestamp. -/
theorem text_inFull (ms : Nat) : (Clock.ofMillis ms).text = (inFull ms).text := by
  have hpadded : Text.padded 2 (ofDigits (inFull ms).hours) = numeral (inFull ms).hours := by
    have hhours : (inFull ms).hours = hoursInFull (ms / 3600000) := rfl
    rw [hhours, ofDigits_hoursInFull, hoursInFull, Text.padded, digits, List.length_map, numeral,
      List.map_append, List.map_replicate]
    rfl
  have htext := Clock.text_ofMillis_of_padded (inFull ms) hpadded
  rwa [total_inFull] at htext

end Canonical

-- So many milliseconds make a hundred thousand hours, and the time has fewer.
theorem seconds_clock_ne (w : Written) (h : ofDigits w.hours < 100000)
    (hlarge : 400000000000 < w.millis) :
    seconds (Clock.ofMillis w.millis).text ≠ .ok w.double := by
  have hm := w.minutes_lt
  have hwhole : w.wholeMinutes < 360000000 := by
    unfold Written.wholeMinutes
    omega
  have hhours : ofDigits (Canonical.inFull w.millis).written.hours = w.millis / 3600000 :=
    Canonical.ofDigits_hoursInFull _
  rw [Canonical.text_inFull, ← Canonical.text_written]
  intro heq
  have hatLeast := Written.atLeast_of_seconds _ 110000 (by omega) (by omega) _ heq
  have hnear := w.double_near (by omega)
  have hlow := Binary64.value_of_atLeast _ _ hatLeast hnear.1
  have hbound := (abs_le.mp hnear.2).2
  have hpow : (0 : ℚ) < 10 ^ w.fraction.length := by positivity
  have hpart : (w.secondsPart : ℚ) / 10 ^ w.fraction.length ≤ 60 := by
    rw [div_le_iff₀ hpow]
    exact_mod_cast w.secondsPart_le
  have hwholeq : (w.wholeMinutes : ℚ) < 360000000 := by exact_mod_cast hwhole
  rw [Nat.cast_mul, Nat.cast_ofNat, Nat.cast_ofNat] at hlow
  linarith

theorem seconds_clock (ms : Nat) (h : ms ≤ 400000000000) :
    seconds (Clock.ofMillis ms).text = .ok (ofMillis ms) := by
  have htotal := Canonical.total_inFull ms
  rw [Canonical.text_inFull, seconds_text_of_total _ (by omega), htotal]

/-- Which times keep their meaning when they are read with the fraction as a
    number of milliseconds and written again. -/
theorem seconds_clock_iff (w : Written) (h : ofDigits w.hours < 100000) :
    seconds (Clock.ofMillis w.millis).text = seconds w.text
      ↔ w.fraction.length = 3 ∨ ofDigits w.fraction = 0 := by
  have hm := w.minutes_lt
  have hs := w.seconds_lt
  have hwhole : w.wholeMinutes ≤ 2 ^ 53 := by
    unfold Written.wholeMinutes
    omega
  rw [w.seconds_text hwhole]
  rcases Nat.lt_or_ge 400000000000 w.millis with hlarge | hsmall
  · have hf := Text.ofDigits_lt w.fraction w.fraction_isDigits
    unfold Written.millis at hlarge
    refine iff_of_false (seconds_clock_ne w h hlarge) ?_
    rintro (hlength | hzero)
    · rw [hlength] at hf
      omega
    · omega
  · rw [seconds_clock _ hsmall, Except.ok.injEq, eq_comm]
    exact w.double_ofMillis_iff hsmall

end Timestamp

end Captions
