import Captions.Proofs.Number.Decimal
import Captions.Timestamp

/-!
# Timestamps as They are Written

Timestamps of three fields with a fraction after a comma or a point, with any
number of digits in each, and the double that each is read as.

The form is the common ground of the two readers of times. A cue's time is read
by its decimals, and all that is rounded is the field of the seconds; the whole
seconds of the hours and minutes are exact as long as they fit a double. The
hours need not, and then the time may be too large to be read at all.
`atLeast_of_seconds` is what can be said about every one that is read.

## Main definitions

* `Written`: The digits of a timestamp with a fraction.
* `Written.text`: The timestamp as it is written.
* `Written.wholeMinutes`: The seconds in its hours and minutes.
* `Written.double`: The double that it is read as.
* `Written.millis`: Its milliseconds, with the fraction as a whole number.

## Theorems

* `Written.fields_text`: The fields of a timestamp.
* `Written.seconds_text`: A timestamp is read as its double.
* `Written.double_near`: The double is close to the exact time.
* `Written.atLeast_of_seconds`: A time that is read is no less than its hours.
-/

namespace Captions

open Text (numeral IsDigits ofDigits)

namespace Timestamp

/-- A timestamp with a fraction, given by the values of its digits. -/
structure Written where
  hours : List Nat
  minutes : List Nat
  seconds : List Nat
  fraction : List Nat
  /-- What stands before the fraction. -/
  mark : Char
  hours_isDigits : IsDigits hours
  minutes_isDigits : IsDigits minutes
  seconds_isDigits : IsDigits seconds
  fraction_isDigits : IsDigits fraction
  hours_ne_nil : hours ≠ []
  minutes_ne_nil : minutes ≠ []
  seconds_ne_nil : seconds ≠ []
  fraction_ne_nil : fraction ≠ []
  mark_eq : mark = ',' ∨ mark = '.'
  minutes_lt : ofDigits minutes < 60
  seconds_lt : ofDigits seconds < 60

theorem not_mem_numeral (ds : List Nat) (hds : IsDigits ds) (c : Char)
    (hc : c.toNat < 0x30 ∨ 0x39 < c.toNat) : c ∉ numeral ds := by
  intro hmem
  rcases Text.mem_numeral ds hds c hmem with ⟨d, hd, heq⟩
  exact Text.digitChar_ne d hd c hc heq.symm

theorem swap_numeral (ds : List Nat) (hds : IsDigits ds) :
    Text.swap ',' '.' (numeral ds) = numeral ds :=
  Text.swap_eq_self ',' '.' _ (not_mem_numeral ds hds ',' (by decide))

-- A numeral up to a character that cuts a text is a piece of it.
theorem cutAt_numeral (p : Char → Bool) (ds : List Nat) (c : Char) (rest : Text)
    (hds : IsDigits ds) (hp : ∀ c, p c = true → c.toNat < 0x30 ∨ 0x39 < c.toNat)
    (hc : p c = true) :
    Text.cutAt p (numeral ds ++ c :: rest) = numeral ds :: Text.cutAt p rest := by
  refine Text.cutAt_append _ _ _ _ ?_ hc
  intro x hx
  rw [← Bool.not_eq_true]
  exact fun hpx => not_mem_numeral ds hds x (hp x hpx) hx

namespace Written

/-- The timestamp as it is written. -/
def text (w : Written) : Text :=
  numeral w.hours ++ ':' :: (numeral w.minutes ++ ':' :: (numeral w.seconds ++
    w.mark :: numeral w.fraction))

-- A character of the text is a digit or one of the marks.
theorem mem_text (w : Written) (c : Char) (hc : c ∈ w.text) :
    (∃ d, d < 10 ∧ c = Text.digitChar d) ∨ c = ':' ∨ c = w.mark := by
  simp only [text, List.mem_append, List.mem_cons] at hc
  rcases hc with hc | hc | hc | hc | hc | hc | hc
  · exact Or.inl (Text.mem_numeral _ w.hours_isDigits c hc)
  · exact Or.inr (Or.inl hc)
  · exact Or.inl (Text.mem_numeral _ w.minutes_isDigits c hc)
  · exact Or.inr (Or.inl hc)
  · exact Or.inl (Text.mem_numeral _ w.seconds_isDigits c hc)
  · exact Or.inr (Or.inr hc)
  · exact Or.inl (Text.mem_numeral _ w.fraction_isDigits c hc)

theorem not_isBlank_text (w : Written) : ∀ c ∈ w.text, Text.isBlank c = false := by
  intro c hc
  rcases mem_text w c hc with ⟨d, hd, rfl⟩ | rfl | hmark
  · exact Text.isBlank_digitChar d hd
  · rfl
  · rcases w.mark_eq with h | h
    · rw [hmark, h]
      rfl
    · rw [hmark, h]
      rfl

/-- The fields are the three numerals, the last one with a point and the
    fraction. -/
theorem fields_text (w : Written) :
    fields w.text = [numeral w.hours, numeral w.minutes,
      numeral w.seconds ++ '.' :: numeral w.fraction] := by
  have hcons : ∀ (x : Char) (t : Text), Text.swap ',' '.' (x :: t)
      = (if x = ',' then '.' else x) :: Text.swap ',' '.' t := fun _ _ => rfl
  have hmark : (if w.mark = ',' then '.' else w.mark) = '.' := by
    rcases w.mark_eq with h | h
    · rw [if_pos h]
    · rw [h]
      rfl
  have hswap : Text.swap ',' '.' w.text
      = numeral w.hours ++ ':' :: (numeral w.minutes ++ ':' :: (numeral w.seconds ++
          '.' :: numeral w.fraction)) := by
    rw [text, Text.swap_append, swap_numeral _ w.hours_isDigits, hcons, Text.swap_append,
      swap_numeral _ w.minutes_isDigits, hcons, Text.swap_append,
      swap_numeral _ w.seconds_isDigits, hcons, hmark, swap_numeral _ w.fraction_isDigits]
    rfl
  have hcolon : ∀ c, decide (c = ':') = true → c.toNat < 0x30 ∨ 0x39 < c.toNat := by
    intro c hc
    rw [of_decide_eq_true hc]
    decide
  have hlast : ∀ x ∈ numeral w.seconds ++ '.' :: numeral w.fraction,
      decide (x = ':') = false := by
    intro x hx
    rw [decide_eq_false_iff_not]
    rintro rfl
    simp only [List.mem_append, List.mem_cons] at hx
    rcases hx with hx | hx | hx
    · exact not_mem_numeral _ w.seconds_isDigits ':' (by decide) hx
    · exact absurd hx (by decide)
    · exact not_mem_numeral _ w.fraction_isDigits ':' (by decide) hx
  rw [fields, Text.trim_eq_self _ w.not_isBlank_text, hswap,
    cutAt_numeral _ _ _ _ w.hours_isDigits hcolon rfl,
    cutAt_numeral _ _ _ _ w.minutes_isDigits hcolon rfl, Text.cutAt_eq_self _ _ hlast]

/-- The seconds in the hours and minutes. -/
def wholeMinutes (w : Written) : Nat := ofDigits w.hours * 3600 + ofDigits w.minutes * 60

/-- The milliseconds of the timestamp when the fraction is a whole number of
    them, whatever its length. -/
def millis (w : Written) : Nat :=
  ((ofDigits w.hours * 60 + ofDigits w.minutes) * 60 + ofDigits w.seconds) * 1000 +
    ofDigits w.fraction

/-- The digits of the seconds and of the fraction as one number. -/
def secondsPart (w : Written) : Nat := ofDigits (w.seconds ++ w.fraction)

/-- The field of the seconds as a double. -/
def secondsDouble (w : Written) : Binary64 :=
  Binary64.ofDecimal false w.secondsPart (-(w.fraction.length : Int))

/-- The double that the timestamp is read as. -/
def double (w : Written) : Binary64 := (Binary64.ofInt w.wholeMinutes).add w.secondsDouble

theorem secondsPart_eq (w : Written) :
    w.secondsPart = ofDigits w.seconds * 10 ^ w.fraction.length + ofDigits w.fraction :=
  Text.ofDigits_append _ _

theorem secondsPart_le (w : Written) : w.secondsPart ≤ 60 * 10 ^ w.fraction.length := by
  have hs := w.seconds_lt
  have hf := Text.ofDigits_lt w.fraction w.fraction_isDigits
  have hmul : ofDigits w.seconds * 10 ^ w.fraction.length ≤ 59 * 10 ^ w.fraction.length :=
    Nat.mul_le_mul_right _ (by omega)
  rw [secondsPart_eq]
  omega

theorem secondsDouble_near (w : Written) :
    w.secondsDouble.isFinite = true ∧
      |w.secondsDouble.value - (w.secondsPart : ℚ) / 10 ^ w.fraction.length|
        ≤ (60 : ℕ) / 2 ^ 53 :=
  Binary64.ofDecimal_near _ _ 60 w.secondsPart_le (by omega) (by omega)

-- The hours and minutes are whole, and so large that they may be infinite.
theorem field_numeral (ds : List Nat) (hds : IsDigits ds) (hne : ds ≠ []) :
    field (numeral ds) = if (Binary64.ofInt (ofDigits ds)).isFinite = true
      then .ok (Binary64.ofInt (ofDigits ds)) else .error (.notFinite (numeral ds)) := by
  rw [field, Numeral.double?_numeral ds hds hne, Numeral.toDouble_whole]

theorem field_small (ds : List Nat) (hds : IsDigits ds) (hne : ds ≠ [])
    (h : ofDigits ds ≤ 2 ^ 53) : field (numeral ds) = .ok (Binary64.ofInt (ofDigits ds)) := by
  rw [field_numeral ds hds hne, if_pos (Binary64.isFinite_ofInt _ h)]

theorem field_seconds (w : Written) :
    field (numeral w.seconds ++ '.' :: numeral w.fraction) = .ok w.secondsDouble := by
  rw [field, Numeral.double?_numeral_point _ _ w.seconds_isDigits w.fraction_isDigits
    w.seconds_ne_nil w.fraction_ne_nil, Numeral.toDouble_places]
  exact if_pos w.secondsDouble_near.1

theorem ofFields_text (w : Written) (x : Binary64) (hx : field (numeral w.hours) = .ok x) :
    ofFields (fields w.text)
      = .ok (total x (Binary64.ofInt (ofDigits w.minutes)) w.secondsDouble) := by
  have hm := w.minutes_lt
  rw [fields_text, ofFields, hx, field_small _ w.minutes_isDigits w.minutes_ne_nil (by omega),
    field_seconds]
  rfl

/-- A timestamp is read as its double, as long as its whole minutes fit one. -/
theorem seconds_text (w : Written) (h : w.wholeMinutes ≤ 2 ^ 53) :
    Timestamp.seconds w.text = .ok w.double := by
  have hm := w.minutes_lt
  unfold wholeMinutes at h
  have hprod : ofDigits w.hours * 3600 ≤ 2 ^ 53 := Nat.le_trans (Nat.le_add_right _ _) h
  have h3600 := Binary64.ofInt_mul (ofDigits w.hours) 3600 (by omega) (by omega) hprod
  have h60 := Binary64.ofInt_mul (ofDigits w.minutes) 60 (by omega) (by omega) (by omega)
  have htotal : total (Binary64.ofInt (ofDigits w.hours)) (Binary64.ofInt (ofDigits w.minutes))
      w.secondsDouble = w.double := by
    rw [total, double, wholeMinutes, ← Binary64.ofInt_add _ _ h, ← h3600, ← h60]
    rfl
  rw [Timestamp.seconds, ofFields_text w _ (field_small _ w.hours_isDigits w.hours_ne_nil
    (by omega)), htotal]

/-- The double is close to the exact time. -/
theorem double_near (w : Written) (h : w.wholeMinutes ≤ 400000000) :
    w.double.isFinite = true ∧
      |w.double.value - (w.wholeMinutes + (w.secondsPart : ℚ) / 10 ^ w.fraction.length)|
        ≤ 1 / 10000000 := by
  have hfin := Binary64.isFinite_ofInt w.wholeMinutes (by omega)
  have hval := Binary64.value_ofInt w.wholeMinutes (by omega)
  have hwq : (w.wholeMinutes : ℚ) ≤ 400000000 := by exact_mod_cast h
  have hw0 : (0 : ℚ) ≤ w.wholeMinutes := Nat.cast_nonneg _
  have hpow : (0 : ℚ) < 10 ^ w.fraction.length := by positivity
  have hpq : (w.secondsPart : ℚ) / 10 ^ w.fraction.length ≤ 60 := by
    rw [div_le_iff₀ hpow]
    exact_mod_cast w.secondsPart_le
  have hp0 : 0 ≤ (w.secondsPart : ℚ) / 10 ^ w.fraction.length :=
    div_nonneg (Nat.cast_nonneg _) (le_of_lt hpow)
  rcases w.secondsDouble_near with ⟨hfin', hnear⟩
  rw [Nat.cast_ofNat] at hnear
  unfold double
  generalize (w.secondsPart : ℚ) / 10 ^ w.fraction.length = p at hpq hp0 hnear ⊢
  generalize (w.wholeMinutes : ℚ) = n at hval hwq hw0 ⊢
  generalize Binary64.ofInt w.wholeMinutes = x at hfin hval ⊢
  generalize w.secondsDouble = y at hfin' hnear ⊢
  rw [abs_le] at hnear
  have hrange : |x.value + y.value| ≤ 400000070 := by
    rw [abs_le, hval]
    constructor <;> linarith
  have hsum := Binary64.isFinite_add x y hfin hfin' (hrange.trans (by norm_num))
  have hround := (Binary64.add_near x y hsum).trans
    (div_le_div_of_nonneg_right hrange (by norm_num))
  refine ⟨hsum, ?_⟩
  rw [hval, abs_le] at hround
  rw [abs_le]
  constructor <;> linarith

/-- A time that is read at all is no less than its hours. -/
theorem atLeast_of_seconds (w : Written) (n : Nat) (hn : n * 3600 ≤ 2 ^ 53)
    (h : n ≤ ofDigits w.hours) (x : Binary64) (hx : Timestamp.seconds w.text = .ok x) :
    x.AtLeast (n * 3600) := by
  have hm := w.minutes_lt
  have hfield := field_numeral _ w.hours_isDigits w.hours_ne_nil
  by_cases hfin : (Binary64.ofInt (ofDigits w.hours)).isFinite = true
  · rw [if_pos hfin] at hfield
    rw [Timestamp.seconds, ofFields_text w _ hfield, Except.ok.injEq] at hx
    rw [← hx, total]
    have hhours := Binary64.atLeast_mul _ n 3600
      (Binary64.atLeast_ofInt (ofDigits w.hours) n (by omega) h) (by omega) (by omega) hn
    have hminutes := Binary64.atLeast_mul _ 0 60
      (Binary64.atLeast_ofInt (ofDigits w.minutes) 0 (by omega) (Nat.zero_le _)) (by omega)
      (by omega) (by omega)
    exact Binary64.atLeast_add _ _ _ (Binary64.atLeast_add _ _ _ hhours hminutes hn)
      (Binary64.atLeast_ofDecimal _ _) hn
  · rw [if_neg hfin] at hfield
    rw [Timestamp.seconds, fields_text, ofFields, hfield] at hx
    exact absurd hx (by simp only [bind, Except.bind, reduceCtorEq, not_false_eq_true])

end Written

end Timestamp

end Captions
