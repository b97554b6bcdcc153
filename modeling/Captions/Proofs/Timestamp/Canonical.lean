import Captions.Proofs.Timestamp.Written

/-!
# Canonical Timestamps

Timestamps in the form `HH:MM:SS,mmm`, and the double that each is read as.

A canonical timestamp is given by its digits, so its text and the milliseconds
it denotes are both computed from one value, and nothing has to be said about
texts that are not of the form. The hours may begin with zeros; only their
number matters.

Reading adds the whole seconds of the hours and minutes, which is exact, to
the seconds with their fraction, which are the nearest double to a decimal.
The result depends on the milliseconds alone, not on how the hours were
written, and `ofMillis` is that function. Two roundings are made, one for the
decimal and one for the sum, and `ofMillis_near` bounds what they amount to. A
time on an eighth of a second is read exactly, which covers all times that are
whole seconds and all that are powers of two.

## Main definitions

* `Canonical`: The digits of a canonical timestamp.
* `Canonical.text`: The timestamp as it is written.
* `Canonical.total`: The milliseconds it denotes.
* `Canonical.Plain`: A time without needless zeros.
* `Canonical.written`: It as one of the timestamps with a fraction.
* `ofMillis`: The double that a number of milliseconds is read as.

## Theorems

* `Canonical.text_inj`: A timestamp is determined by its text.
* `seconds_text_of_total`: A canonical timestamp is read as its milliseconds.
* `ofMillis_near`: Reading moves a time by at most a `2 ^ 51`-st part.
* `value_ofMillis_sub_near`: Times are as far apart as their milliseconds say.
* `value_ofMillis_eighth`: A time on an eighth of a second is read exactly.
-/

namespace Captions

open Text (numeral IsDigits ofDigits)

namespace Timestamp

/-- A timestamp of the form `HH:MM:SS,mmm`, given by the values of its digits. -/
structure Canonical where
  /-- Two digits or more. -/
  hours : List Nat
  /-- Two digits. -/
  minutes : List Nat
  /-- Two digits. -/
  seconds : List Nat
  /-- Three digits. -/
  millis : List Nat
  hours_isDigits : IsDigits hours
  minutes_isDigits : IsDigits minutes
  seconds_isDigits : IsDigits seconds
  millis_isDigits : IsDigits millis
  hours_length : 2 ≤ hours.length
  minutes_length : minutes.length = 2
  seconds_length : seconds.length = 2
  millis_length : millis.length = 3
  minutes_lt : ofDigits minutes < 60
  seconds_lt : ofDigits seconds < 60

namespace Canonical

/-- The timestamp as it is written. -/
def text (c : Canonical) : Text :=
  numeral c.hours ++ ':' :: (numeral c.minutes ++ ':' :: (numeral c.seconds ++
    ',' :: numeral c.millis))

/-- Besides its hours a timestamp has ten characters. -/
theorem length_text (c : Canonical) : c.text.length = c.hours.length + 10 := by
  simp only [text, numeral, List.length_append, List.length_cons, List.length_map,
    c.minutes_length, c.seconds_length, c.millis_length]

-- All fields but the first have fixed widths, so the text says where each begins.
theorem text_inj (c d : Canonical) (h : c.text = d.text) : c = d := by
  have hsame : ∀ ds es : List Nat, ds.length = es.length →
      (numeral ds).length = (numeral es).length := by
    intro ds es heq
    rw [numeral, numeral, List.length_map, List.length_map, heq]
  have hlength : c.hours.length = d.hours.length := by
    have hlengths := congrArg List.length h
    rw [length_text, length_text] at hlengths
    omega
  rcases List.append_inj h (hsame _ _ hlength) with ⟨hhours, hafter⟩
  rcases List.append_inj (List.cons.inj hafter).2
    (hsame _ _ (c.minutes_length.trans d.minutes_length.symm)) with ⟨hminutes, hafter⟩
  rcases List.append_inj (List.cons.inj hafter).2
    (hsame _ _ (c.seconds_length.trans d.seconds_length.symm)) with ⟨hseconds, hafter⟩
  have h1 := Text.numeral_inj _ _ c.hours_isDigits d.hours_isDigits hhours
  have h2 := Text.numeral_inj _ _ c.minutes_isDigits d.minutes_isDigits hminutes
  have h3 := Text.numeral_inj _ _ c.seconds_isDigits d.seconds_isDigits hseconds
  have h4 := Text.numeral_inj _ _ c.millis_isDigits d.millis_isDigits (List.cons.inj hafter).2
  cases c
  cases d
  rw [mk.injEq]
  exact ⟨h1, h2, h3, h4⟩

/-- The milliseconds that the timestamp denotes. -/
def total (c : Canonical) : Nat :=
  ((ofDigits c.hours * 60 + ofDigits c.minutes) * 60 + ofDigits c.seconds) * 1000 +
    ofDigits c.millis

theorem millis_lt (c : Canonical) : ofDigits c.millis < 1000 := by
  have := Text.ofDigits_lt c.millis c.millis_isDigits
  rwa [c.millis_length] at this

theorem total_lt (c : Canonical) (n : Nat) (h : ofDigits c.hours < n) :
    c.total < n * 3600000 := by
  have h1 := c.minutes_lt
  have h2 := c.seconds_lt
  have h3 := c.millis_lt
  unfold total
  omega

/-- A time without needless zeros: its hours have two digits, or more and no zero
    in front. -/
def Plain (c : Canonical) : Prop :=
  c.hours.length = 2 ∨ c.hours.head? ≠ some 0

theorem padded_hours (c : Canonical) (h : c.Plain) :
    Text.padded 2 (ofDigits c.hours) = numeral c.hours := by
  have hne : c.hours ≠ [] := List.ne_nil_of_length_pos (by have := c.hours_length; omega)
  rcases h with hlen | hhead
  · rw [← hlen]
    exact Text.padded_ofDigits c.hours c.hours_isDigits hne
  · have hlen : 2 - (numeral c.hours).length = 0 := by
      have := c.hours_length
      rw [numeral, List.length_map]
      omega
    rw [Text.padded, Text.digits_ofDigits c.hours c.hours_isDigits hne hhead, hlen,
      List.replicate_zero, List.nil_append]

/-- A canonical timestamp among the timestamps with a fraction. -/
def written (c : Canonical) : Written where
  hours := c.hours
  minutes := c.minutes
  seconds := c.seconds
  fraction := c.millis
  mark := ','
  hours_isDigits := c.hours_isDigits
  minutes_isDigits := c.minutes_isDigits
  seconds_isDigits := c.seconds_isDigits
  fraction_isDigits := c.millis_isDigits
  hours_ne_nil := List.ne_nil_of_length_pos (by have := c.hours_length; omega)
  minutes_ne_nil := List.ne_nil_of_length_pos (by have := c.minutes_length; omega)
  seconds_ne_nil := List.ne_nil_of_length_pos (by have := c.seconds_length; omega)
  fraction_ne_nil := List.ne_nil_of_length_pos (by have := c.millis_length; omega)
  mark_eq := Or.inl rfl
  minutes_lt := c.minutes_lt
  seconds_lt := c.seconds_lt

theorem text_written (c : Canonical) : c.written.text = c.text := rfl

theorem millis_written (c : Canonical) : c.written.millis = c.total := rfl

theorem isDigits_two (a b : Nat) : IsDigits [a % 10, b % 10] := by
  simp only [Text.isDigits_cons, Text.isDigits_nil, and_true]
  omega

theorem isDigits_sixty (a b : Nat) : IsDigits [a % 6, b % 10] := by
  simp only [Text.isDigits_cons, Text.isDigits_nil, and_true]
  omega

theorem isDigits_three (a b c : Nat) : IsDigits [a % 10, b % 10, c % 10] := by
  simp only [Text.isDigits_cons, Text.isDigits_nil, and_true]
  omega

theorem ofDigits_sixty_lt (a b : Nat) : ofDigits [a % 6, b % 10] < 60 := by
  simp only [ofDigits, List.foldl_cons, List.foldl_nil]
  omega

/-- The timestamp of a number of milliseconds, with two digits for the hours
    and nothing beyond a hundred of them. -/
def ofTotal (ms : Nat) : Canonical where
  hours := [ms / 36000000 % 10, ms / 3600000 % 10]
  minutes := [ms / 600000 % 6, ms / 60000 % 10]
  seconds := [ms / 10000 % 6, ms / 1000 % 10]
  millis := [ms / 100 % 10, ms / 10 % 10, ms % 10]
  hours_isDigits := isDigits_two _ _
  minutes_isDigits := isDigits_sixty _ _
  seconds_isDigits := isDigits_sixty _ _
  millis_isDigits := isDigits_three _ _ _
  hours_length := Nat.le_refl 2
  minutes_length := rfl
  seconds_length := rfl
  millis_length := rfl
  minutes_lt := ofDigits_sixty_lt _ _
  seconds_lt := ofDigits_sixty_lt _ _

theorem hours_ofTotal (ms : Nat) (h : ms < 360000000) :
    ofDigits (ofTotal ms).hours = ms / 3600000 := by
  simp only [ofTotal, ofDigits, List.foldl_cons, List.foldl_nil]
  omega

theorem minutes_ofTotal (ms : Nat) : ofDigits (ofTotal ms).minutes = ms / 60000 % 60 := by
  simp only [ofTotal, ofDigits, List.foldl_cons, List.foldl_nil]
  omega

theorem seconds_ofTotal (ms : Nat) : ofDigits (ofTotal ms).seconds = ms / 1000 % 60 := by
  simp only [ofTotal, ofDigits, List.foldl_cons, List.foldl_nil]
  omega

theorem millis_ofTotal (ms : Nat) : ofDigits (ofTotal ms).millis = ms % 1000 := by
  simp only [ofTotal, ofDigits, List.foldl_cons, List.foldl_nil]
  omega

theorem total_ofTotal (ms : Nat) (h : ms < 360000000) : (ofTotal ms).total = ms := by
  rw [total, hours_ofTotal ms h, minutes_ofTotal, seconds_ofTotal, millis_ofTotal]
  omega

theorem hours_ofTotal_lt (ms : Nat) : ofDigits (ofTotal ms).hours < 100 := by
  simp only [ofTotal, ofDigits, List.foldl_cons, List.foldl_nil]
  omega

end Canonical

/-- The double that a number of milliseconds is read as: the whole minutes in
    seconds, and the rest with its places after the point. -/
def ofMillis (ms : Nat) : Binary64 :=
  (Binary64.ofInt (ms / 60000 * 60 : Nat)).add (Binary64.ofDecimal false (ms % 60000) (-3))

-- Seconds with three places after the point are the nearest double.
theorem ofDecimal_millis (n : Nat) :
    Binary64.ofDecimal false n (-3) = Binary64.ofRatio false (n * Binary64.one) 1000 := by
  rw [Binary64.ofDecimal, if_pos (by decide)]
  rfl

theorem secondsPart_le (n : Nat) (h : n < 60000) :
    (Binary64.ofDecimal false n (-3)).isFinite = true ∧
      |(Binary64.ofDecimal false n (-3)).value - (n : ℚ) / 1000| ≤ (n : ℚ) / 1000 / 2 ^ 53 := by
  have hnear := Binary64.ofRatio_mul_one_near n 1000 (by omega) (by omega) (by omega)
  rw [ofDecimal_millis]
  rwa [Nat.cast_ofNat] at hnear

-- With three places the fraction is a number of milliseconds.
theorem Written.double_of_length (w : Written) (h : w.fraction.length = 3) :
    w.double = ofMillis w.millis := by
  have hm := w.minutes_lt
  have hs := w.seconds_lt
  have hf := Text.ofDigits_lt w.fraction w.fraction_isDigits
  have hsplit := w.secondsPart_eq
  rw [h] at hf hsplit
  have hwhole : w.millis / 60000 * 60 = w.wholeMinutes := by
    unfold Written.millis Written.wholeMinutes
    omega
  have hpart : w.millis % 60000 = w.secondsPart := by
    rw [hsplit]
    unfold Written.millis
    omega
  rw [ofMillis, hwhole, hpart, Written.double, Written.secondsDouble, h]
  rfl

/-- A canonical timestamp is read as the milliseconds it denotes, as long as its
    seconds are few enough to be counted by doubles. -/
theorem seconds_text_of_total (c : Canonical) (h : c.total < 2 ^ 53 * 1000) :
    seconds c.text = .ok (ofMillis c.total) := by
  have hwhole : ofDigits c.hours * 3600 + ofDigits c.minutes * 60 ≤ 2 ^ 53 := by
    unfold Canonical.total at h
    omega
  rw [← Canonical.text_written, Written.seconds_text c.written hwhole,
    Written.double_of_length c.written c.millis_length, Canonical.millis_written]

theorem seconds_text (c : Canonical) (h : ofDigits c.hours < 100000) :
    seconds c.text = .ok (ofMillis c.total) := by
  have htotal := c.total_lt 100000 h
  exact seconds_text_of_total c (by omega)

theorem ofMillis_zero : ofMillis 0 = Binary64.zero := by
  have hscaled := Binary64.ofDecimal_scaled 0 3
  rw [Nat.zero_mul, Binary64.ofInt_zero] at hscaled
  rw [ofMillis, Nat.zero_div, Nat.zero_mul, Nat.zero_mod, Binary64.ofInt_zero]
  exact congrArg Binary64.zero.add hscaled

/-- Reading moves a time by little beside its size. -/
theorem ofMillis_near (ms : Nat) (h : ms ≤ 2 ^ 53) :
    (ofMillis ms).isFinite = true ∧
      |(ofMillis ms).value - (ms : ℚ) / 1000| ≤ (ms : ℚ) / 1000 / 2 ^ 51 := by
  have hwhole : ms / 60000 * 60 ≤ 2 ^ 53 := by omega
  have hpart : ms % 60000 < 60000 := Nat.mod_lt ms (by omega)
  have hsplit : (ms : ℚ) / 1000 = (ms / 60000 * 60 : Nat) + ((ms % 60000 : Nat) : ℚ) / 1000 := by
    have hnat : ms = ms / 60000 * 60 * 1000 + ms % 60000 := by omega
    have hcast : (ms : ℚ) = (ms / 60000 * 60 : Nat) * 1000 + (ms % 60000 : Nat) := by
      exact_mod_cast hnat
    rw [hcast]
    ring
  have hfin := Binary64.isFinite_ofInt _ hwhole
  have hval := Binary64.value_ofInt _ hwhole
  rcases secondsPart_le _ hpart with ⟨hfin', hnear⟩
  have hwq : ((ms / 60000 * 60 : Nat) : ℚ) ≤ 2 ^ 53 := by
    exact_mod_cast hwhole
  have hpq : ((ms % 60000 : Nat) : ℚ) < 60000 := by
    exact_mod_cast hpart
  have hw0 : (0 : ℚ) ≤ (ms / 60000 * 60 : Nat) := Nat.cast_nonneg _
  have hp0 : (0 : ℚ) ≤ (ms % 60000 : Nat) := Nat.cast_nonneg _
  unfold ofMillis
  generalize ((ms / 60000 * 60 : Nat) : ℚ) = w at hsplit hval hwq hw0
  generalize ((ms % 60000 : Nat) : ℚ) = p at hsplit hnear hpq hp0
  generalize Binary64.ofInt (ms / 60000 * 60 : Nat) = x at hfin hval ⊢
  generalize Binary64.ofDecimal false (ms % 60000) (-3) = y at hfin' hnear ⊢
  rw [abs_le] at hnear
  have hrange : |x.value + y.value| ≤ 2 ^ 128 := by
    rw [abs_le, hval]
    constructor <;> linarith
  have hsum := Binary64.isFinite_add x y hfin hfin' hrange
  refine ⟨hsum, ?_⟩
  have hround := Binary64.add_near x y hsum
  rw [hval, abs_of_nonneg (by linarith : 0 ≤ w + y.value), abs_le] at hround
  rw [hsplit, abs_le]
  constructor <;> linarith

/-- Two times below a hundred thousand hours are as far apart as their
    milliseconds say, up to a third of a microsecond. -/
theorem value_ofMillis_sub_near (a b : Nat) (ha : a < 360000000000) (hb : b < 360000000000) :
    |(ofMillis a).value - (ofMillis b).value - ((a : ℚ) - b) / 1000| < 1 / 3000000 := by
  have hna := (ofMillis_near a (by omega)).2
  have hnb := (ofMillis_near b (by omega)).2
  have haq : (a : ℚ) < 360000000000 := by exact_mod_cast ha
  have hbq : (b : ℚ) < 360000000000 := by exact_mod_cast hb
  rw [abs_le] at hna hnb
  rw [abs_lt]
  constructor <;> linarith

/-- A time on an eighth of a second is read exactly. -/
theorem value_ofMillis_eighth (ms : Nat) (h : ms ≤ 2 ^ 53) (hdvd : ms % 125 = 0) :
    (ofMillis ms).value = (ms : ℚ) / 1000 := by
  have heighth : Binary64.one = 8 * 2 ^ (Binary64.depth - 3) := by
    rw [Binary64.one_eq, show (8 : Nat) = 2 ^ 3 by rfl, ← Nat.pow_add,
      Nat.add_sub_cancel' (by decide)]
  have hrep : ∀ n ≤ 2 ^ 53, Representable (n * 2 ^ (Binary64.depth - 3)) :=
    fun n hn => Binary64.representable_mul_two_pow n _ (Nat.sub_le _ _) hn
  generalize 2 ^ (Binary64.depth - 3) = e at heighth hrep
  have hpos : 0 < e := by
    have := Binary64.one_pos
    omega
  have hms : ms = ms / 60000 * 60000 + ms % 60000 / 125 * 125 := by omega
  -- Counted in eighths, both parts are whole numbers, and so is their sum.
  have hwhole : (Binary64.ofInt (ms / 60000 * 60 : Nat)).units = (ms / 60000 * 480 * e : Nat) := by
    have hmul : ms / 60000 * 60 * (8 * e) = ms / 60000 * 480 * e := by ring
    rw [Binary64.units_ofInt _ (by omega), heighth, hmul]
  have hscaled : ms % 60000 * Binary64.one = ms % 60000 / 125 * e * 1000 := by
    have hmod : ms % 60000 = ms % 60000 / 125 * 125 := by omega
    calc ms % 60000 * Binary64.one = ms % 60000 / 125 * 125 * (8 * e) := by rw [← hmod, heighth]
      _ = ms % 60000 / 125 * e * 1000 := by ring
  have hpart : (Binary64.ofDecimal false (ms % 60000) (-3)).isFinite = true ∧
      (Binary64.ofDecimal false (ms % 60000) (-3)).units = (ms % 60000 / 125 * e : Nat) := by
    have hround := Binary64.roundUnits_mul _ 1000 (by omega) (hrep (ms % 60000 / 125) (by omega))
    have hlt : Binary64.roundUnits (ms % 60000 / 125 * e * 1000) 1000 < Binary64.bound := by
      rw [hround]
      exact (hrep _ (by omega)).1
    rw [ofDecimal_millis, hscaled, Binary64.isFinite_ofRatio_iff, Binary64.units_ofRatio _ _ _ hlt]
    exact ⟨hlt, congrArg Nat.cast hround⟩
  have hfin := Binary64.isFinite_ofInt (ms / 60000 * 60) (by omega)
  have hsum := Binary64.units_add_exact _ _ hfin hpart.1 (by
    rw [hwhole, hpart.2, ← Nat.cast_add, Int.natAbs_natCast, ← Nat.add_mul]
    exact hrep _ (by omega))
  have hmsq : (ms : ℚ) = (ms / 60000 : Nat) * 60000 + (ms % 60000 / 125 : Nat) * 125 := by
    exact_mod_cast hms
  have hposq : (0 : ℚ) < 8 * e := mul_pos (by norm_num) (Nat.cast_pos.mpr hpos)
  rw [ofMillis, Binary64.value, hsum.2, hwhole, hpart.2, heighth, hmsq]
  generalize ms / 60000 = m
  generalize ms % 60000 / 125 = r
  push_cast
  rw [div_eq_div_iff (ne_of_gt hposq) (by norm_num)]
  ring

end Timestamp

end Captions
