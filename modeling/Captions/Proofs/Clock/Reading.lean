import Captions.Clock
import Captions.Proofs.Number.Division
import Captions.Proofs.Timestamp.Canonical

/-!
# Reading a Clock

What a clock shows when it is close to a time in whole milliseconds.

Hours, minutes and seconds are quotients and remainders, and all of them are
exact, so they are those of the whole second that the clock lies in. Only the
milliseconds are rounded. A clock a quarter of a millisecond off or less shows
the right milliseconds by that, whatever side it is on.

There is one exception. A clock that falls short of a second by next to nothing
lies in the second before, and rounding its milliseconds up cannot carry into
the whole seconds: they stop at the last millisecond. What is shown is a
millisecond before the time, and `Lags` is the condition for it.

## Main definitions

* `Lags`: A clock falls short of a whole second that the time has.
* `shownMillis`: The milliseconds that a clock shows.

## Theorems

* `ofDouble?_eq`: The fields of a reading, in units.
* `ofSeconds?_near`: What a clock close to a time shows.
* `text_ofMillis_of_padded`: A reading of milliseconds is their timestamp.
-/

namespace Captions

namespace Clock

open Binary64 (one roundUnits)

/-- A clock falls short of a whole second that the time has. -/
def Lags (x : Binary64) (ms : Nat) : Prop := ms % 1000 = 0 ∧ x.value < (ms : ℚ) / 1000

instance (x : Binary64) (ms : Nat) : Decidable (Lags x ms) :=
  inferInstanceAs (Decidable (_ ∧ _))

/-- The milliseconds that a clock close to a time shows. -/
def shownMillis (x : Binary64) (ms : Nat) : Nat := if Lags x ms then ms - 1 else ms

theorem lags_iff (x : Binary64) (c ms : Nat) (hc : x.units = c) :
    Lags x ms ↔ ms % 1000 = 0 ∧ 1000 * c < ms * one := by
  rw [Lags, Binary64.value, hc, div_lt_div_iff₀ Binary64.one_cast_pos (by norm_num)]
  refine and_congr_right fun _ => ?_
  rw [Int.cast_natCast, mul_comm (c : ℚ)]
  exact ⟨fun h => by exact_mod_cast h, fun h => by exact_mod_cast h⟩

theorem shownMillis_eq_iff (x : Binary64) (c ms : Nat) (hc : x.units = c) :
    shownMillis x ms = ms ↔ ¬ Lags x ms := by
  unfold shownMillis
  by_cases hlag : Lags x ms
  · rw [if_pos hlag]
    have hpos : ms ≠ 0 := by
      rintro rfl
      have hshort := ((lags_iff x c 0 hc).mp hlag).2
      rw [Nat.zero_mul] at hshort
      exact absurd hshort (Nat.not_lt_zero _)
    constructor
    · intro heq
      omega
    · intro hnot
      exact absurd hlag hnot
  · rw [if_neg hlag]
    exact iff_of_true rfl hlag

theorem shownMillis_le (x : Binary64) (ms : Nat) : shownMillis x ms ≤ ms := by
  unfold shownMillis
  split
  · exact Nat.sub_le ms 1
  · exact Nat.le_refl ms

/-- The fields of a reading are those of the units; only the milliseconds are
    rounded. -/
theorem ofDouble?_eq (x : Binary64) (c : Nat) (hfin : x.isFinite = true) (hc : x.units = c)
    (hsize : c < 2 ^ 53 * one) :
    ofDouble? x = some ⟨c / one / 3600, c / one / 60 % 60, c / one % 60,
      min (roundHalfEven (roundUnits (c % one * 1000) 1) one) 999⟩ := by
  have hle : ∀ n, c % (n * one) < 2 ^ 53 * one :=
    fun n => Nat.lt_of_le_of_lt (Nat.mod_le c _) hsize
  rcases Binary64.remainder_ofInt x c 3600 hfin hc hsize (by norm_num) with ⟨hfin3600, hc3600⟩
  rcases Binary64.remainder_ofInt x c 60 hfin hc hsize (by norm_num) with ⟨hfin60, hc60⟩
  rcases Binary64.remainder_ofInt x c 1 hfin hc hsize (by norm_num) with ⟨hfin1, hc1⟩
  have hhours := Binary64.floorQuotient_ofInt x c 3600 hfin hc hsize (by norm_num) (by norm_num)
  have hminutes := Binary64.floorQuotient_ofInt _ _ 60 hfin3600 hc3600 (hle 3600) (by norm_num)
    (by norm_num)
  have hseconds := Binary64.truncate?_eq _ _ hfin60 hc60
  have hbound := Binary64.two_pow_mul_one_le_bound 128 (by omega)
  have hmod : c % (1 * one) < 1 * one := Nat.mod_lt c (by have := Binary64.one_pos; omega)
  rcases Binary64.mul_ofInt _ _ 1000 hfin1 hc1 (by norm_num) (by omega) with ⟨hfinm, hcm⟩
  have hmillis := Binary64.nearest?_eq _ _ hfinm hcm
  rw [Nat.one_mul] at hmillis
  -- Each field depends on the whole seconds alone.
  have h1 : c / (3600 * one) = c / one / 3600 := by
    rw [Nat.div_div_eq_div_mul, Nat.mul_comm]
  have h2 : c % (3600 * one) / (60 * one) = c / one / 60 % 60 := by
    rw [show 3600 * one = 60 * one * 60 by ring, Nat.mod_mul_right_div_self,
      Nat.div_div_eq_div_mul, Nat.mul_comm]
  have h3 : c % (60 * one) / one = c / one % 60 := by
    rw [Nat.mul_comm, Nat.mod_mul_right_div_self]
  rw [h1] at hhours
  rw [h2] at hminutes
  rw [h3] at hseconds
  unfold ofDouble?
  rw [show Binary64.ofInt 3600 = Binary64.ofInt (3600 : Nat) from rfl,
    show Binary64.ofInt 60 = Binary64.ofInt (60 : Nat) from rfl,
    show Binary64.ofInt 1 = Binary64.ofInt (1 : Nat) from rfl,
    show Binary64.ofInt 1000 = Binary64.ofInt (1000 : Nat) from rfl, hhours, hminutes, hseconds,
    hmillis]
  simp only [Option.bind_eq_bind, Option.bind_some, Option.pure_def, Int.toNat_natCast]

-- Less than half a millisecond off, the milliseconds of a second are found.
theorem millis_near (r m : Nat) (hr : r ≤ one) (hlo : 4 * (m * one) ≤ 4000 * r + one)
    (hhi : 4000 * r ≤ 4 * (m * one) + one) :
    roundHalfEven (roundUnits (r * 1000) 1) one = m := by
  have hnear := Binary64.round_near_spacing (r * 1000)
  have hwidth := Binary64.spacing_le_one (r * 1000) (by omega)
  have hone := Binary64.one_pos
  refine roundHalfEven_eq_of_near _ _ _ ?_ ?_
  · rw [Nat.mul_comm one m]
    omega
  · rw [Nat.mul_comm one m]
    omega

theorem ofMillis_eq (ms : Nat) :
    ofMillis ms = ⟨ms / 1000 / 3600, ms / 1000 / 60 % 60, ms / 1000 % 60, ms % 1000⟩ := by
  simp only [ofMillis, Int.toNat_natCast, Nat.div_div_eq_div_mul]

-- The whole second a clock lies in, and its distance to it.
theorem div_one_eq (c q : Nat) (hlo : q * one ≤ c) (hhi : c < q * one + one) :
    c / one = q ∧ c % one = c - q * one := by
  have hdiv : c / one = q := Nat.div_eq_of_lt_le hlo (by rw [Nat.succ_mul]; exact hhi)
  refine ⟨hdiv, ?_⟩
  rw [Nat.mod_eq_sub_div_mul, hdiv]

theorem ofDouble?_near (x : Binary64) (c ms : Nat) (hfin : x.isFinite = true)
    (hc : x.units = c) (hup : 4000 * c ≤ 4 * (ms * one) + one)
    (hdown : 4 * (ms * one) ≤ 4000 * c + one) (hms : ms < 360000000000) :
    ofDouble? x = some (ofMillis (shownMillis x ms)) := by
  have hone := Binary64.one_pos
  have hlarge : ms * one ≤ 360000000000 * one := Nat.mul_le_mul_right _ (Nat.le_of_lt hms)
  have hsize : c < 2 ^ 53 * one := by omega
  have hsplit : ms * one = 1000 * (ms / 1000 * one) + ms % 1000 * one := by
    calc ms * one = (1000 * (ms / 1000) + ms % 1000) * one := by rw [Nat.div_add_mod]
      _ = 1000 * (ms / 1000 * one) + ms % 1000 * one := by ring
  rw [ofDouble?_eq x c hfin hc hsize, shownMillis, ofMillis_eq]
  by_cases hlag : Lags x ms
  · rw [if_pos hlag]
    rcases (lags_iff x c ms hc).mp hlag with ⟨hwhole, hshort⟩
    have hpos : 0 < ms := by
      refine Nat.pos_of_ne_zero fun hz => ?_
      rw [hz, Nat.zero_mul] at hshort
      exact absurd hshort (Nat.not_lt_zero _)
    -- The clock lies in the second before, at the end of it.
    have hprev : ms / 1000 * one = (ms - 1) / 1000 * one + one := by
      have hsucc : ms / 1000 = (ms - 1) / 1000 + 1 := by omega
      rw [hsucc, Nat.succ_mul]
    rw [hwhole, Nat.zero_mul, Nat.add_zero, hprev] at hsplit
    rcases div_one_eq c ((ms - 1) / 1000) (by omega) (by omega) with ⟨hdiv, hmod⟩
    have hmillis := millis_near (c % one) 1000 (Nat.le_of_lt (Nat.mod_lt c hone)) (by omega)
      (by omega)
    have hlast : (ms - 1) % 1000 = 999 := by omega
    rw [hmillis, hdiv, hlast]
    rfl
  · rw [if_neg hlag]
    rw [lags_iff x c ms hc] at hlag
    have hmod1000 : ms % 1000 < 1000 := Nat.mod_lt ms (by norm_num)
    have hpart : ms % 1000 * one ≤ 999 * one := Nat.mul_le_mul_right _ (by omega)
    have hreached : ms / 1000 * one ≤ c := by
      rcases Nat.eq_zero_or_pos (ms % 1000) with hz | hpos
      · rw [hz, Nat.zero_mul] at hsplit
        omega
      · have hge : 1 * one ≤ ms % 1000 * one := Nat.mul_le_mul_right _ hpos
        omega
    rcases div_one_eq c (ms / 1000) hreached (by omega) with ⟨hdiv, hmod⟩
    have hmillis := millis_near (c % one) (ms % 1000) (Nat.le_of_lt (Nat.mod_lt c hone))
      (by omega) (by omega)
    rw [hmillis, hdiv, Nat.min_eq_left (by omega)]

-- Only what is below zero is read as another time.
theorem ofSeconds?_eq_ofDouble? (x : Binary64) (c : Nat) (hfin : x.isFinite = true)
    (hc : x.units = c) : ofSeconds? (.double x) = ofDouble? x := by
  rcases Binary64.exists_finite x c hfin hc with ⟨s, h, heq, hs⟩
  have hbelow : (Number.double x).isBelow 0 = false := by
    rw [heq, Number.isBelow, Number.compare?, Binary64.signed_eq s c hs, Int.zero_mul,
      decide_eq_false_iff_not, Option.some_inj, compare_lt_iff_lt]
    omega
  rw [ofSeconds?, hbelow, if_neg Bool.false_ne_true]

/-- A clock within a quarter of a millisecond of a time shows the time, or the
    millisecond before it. -/
theorem ofSeconds?_near (x : Binary64) (c ms : Nat) (hfin : x.isFinite = true)
    (hc : x.units = c) (hup : 4000 * c ≤ 4 * (ms * one) + one)
    (hdown : 4 * (ms * one) ≤ 4000 * c + one) (hms : ms < 360000000000) :
    ofSeconds? (.double x) = some (ofMillis (shownMillis x ms)) := by
  rw [ofSeconds?_eq_ofDouble? x c hfin hc]
  exact ofDouble?_near x c ms hfin hc hup hdown hms

/-- A reading is written as the timestamp of the time, if its hours are written
    with no more zeros in front than two digits take. -/
theorem text_ofMillis_of_padded (c : Timestamp.Canonical)
    (h : Text.padded 2 (Text.ofDigits c.hours) = Text.numeral c.hours) :
    (ofMillis c.total).text = c.text := by
  have hm := c.minutes_lt
  have hs := c.seconds_lt
  have hf := c.millis_lt
  have hne : ∀ ds : List Nat, 0 < ds.length → ds ≠ [] := fun _ => List.ne_nil_of_length_pos
  have hminutes := Text.padded_ofDigits c.minutes c.minutes_isDigits
    (hne _ (by rw [c.minutes_length]; omega))
  have hseconds := Text.padded_ofDigits c.seconds c.seconds_isDigits
    (hne _ (by rw [c.seconds_length]; omega))
  have hmillis := Text.padded_ofDigits c.millis c.millis_isDigits
    (hne _ (by rw [c.millis_length]; omega))
  rw [c.minutes_length] at hminutes
  rw [c.seconds_length] at hseconds
  rw [c.millis_length] at hmillis
  have h1 : c.total / 1000 / 3600 = Text.ofDigits c.hours := by
    unfold Timestamp.Canonical.total
    omega
  have h2 : c.total / 1000 / 60 % 60 = Text.ofDigits c.minutes := by
    unfold Timestamp.Canonical.total
    omega
  have h3 : c.total / 1000 % 60 = Text.ofDigits c.seconds := by
    unfold Timestamp.Canonical.total
    omega
  have h4 : c.total % 1000 = Text.ofDigits c.millis := by
    unfold Timestamp.Canonical.total
    omega
  rw [ofMillis_eq, h1, h2, h3, h4, text, h, hminutes, hseconds, hmillis,
    Timestamp.Canonical.text]
  simp only [List.append_assoc]
  rfl

theorem text_ofMillis (c : Timestamp.Canonical) (h : c.hours.length = 2) :
    (ofMillis c.total).text = c.text := by
  have hhours := Text.padded_ofDigits c.hours c.hours_isDigits
    (List.ne_nil_of_length_pos (by omega))
  rw [h] at hhours
  exact text_ofMillis_of_padded c hhours

theorem length_text_ofMillis (ms : Nat) (h : ms < 360000000) : (ofMillis ms).text.length = 12 := by
  have htext := text_ofMillis (.ofTotal ms) rfl
  rw [Timestamp.Canonical.total_ofTotal ms h] at htext
  rw [htext, Timestamp.Canonical.length_text]
  rfl

-- Readings of different times are written differently: each is a timestamp, and a
-- timestamp is determined by its text.
theorem text_ofMillis_inj (a b : Nat) (ha : a < 360000000) (hb : b < 360000000)
    (h : (ofMillis a).text = (ofMillis b).text) : a = b := by
  have hta := text_ofMillis (.ofTotal a) rfl
  have htb := text_ofMillis (.ofTotal b) rfl
  rw [Timestamp.Canonical.total_ofTotal a ha] at hta
  rw [Timestamp.Canonical.total_ofTotal b hb] at htb
  have hsame := Timestamp.Canonical.text_inj _ _ (hta.symm.trans (h.trans htb))
  rw [← Timestamp.Canonical.total_ofTotal a ha, hsame, Timestamp.Canonical.total_ofTotal b hb]

end Clock

end Captions
