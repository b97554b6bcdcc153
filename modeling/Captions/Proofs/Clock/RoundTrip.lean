import Captions.Proofs.Clock.Order
import Captions.Proofs.Timestamp.Drift

/-!
# Times Written and Read Back

A timestamp that is read and written again is the same text.

Reading rounds twice and writing takes the fields from a double, so neither is
exact. But a time below a hundred thousand hours is read so closely that its
milliseconds are found again by rounding. The whole second is not rounded, and
there a time read a little too small would be lost. This does not happen: a time
on a whole second is read exactly, and any other is too far from a second to
cross it.

For the other way round, a number of seconds is more than its text says. What is
read back is another number, and only the text written of it is the same again.

## Theorems

* `ofSeconds?_ofMillis`: A time that was read shows its own milliseconds.
* `text_reads_back`: What is written of a time is read as the same clock.
-/

namespace Captions

namespace Clock

open Binary64 (one)

-- A time on a whole second is read exactly, so it does not fall short of it.
theorem not_lags_ofMillis (ms : Nat) (h : ms ≤ 2 ^ 53) : ¬ Lags (Timestamp.ofMillis ms) ms := by
  rintro ⟨hwhole, hshort⟩
  rw [Timestamp.value_ofMillis_eighth ms h (by omega)] at hshort
  exact absurd hshort (lt_irrefl _)

/-- A time that was read shows its own milliseconds. -/
theorem ofSeconds?_ofMillis (ms : Nat) (h : ms < 360000000000) :
    ofSeconds? (.double (Timestamp.ofMillis ms)) = some (ofMillis ms) := by
  have hsmall : ms ≤ 2 ^ 53 := by omega
  rcases Timestamp.units_ofMillis_near ms hsmall with ⟨n, hn, hup, hdown⟩
  have hlarge : ms * one ≤ 360000000000 * one := Nat.mul_le_mul_right _ (Nat.le_of_lt h)
  rw [ofSeconds?_near _ n ms (Timestamp.ofMillis_near ms hsmall).1 hn (by omega) (by omega) h,
    shownMillis, if_neg (not_lags_ofMillis ms hsmall)]

/-- What is written of a time is read as the same clock: a timestamp without
    needless zeros is written as it was read, and a number of seconds as it was
    written before. -/
theorem text_reads_back :
    (∀ c : Timestamp.Canonical, c.Plain → Text.ofDigits c.hours < 100000 →
      ∃ x clock, Timestamp.seconds c.text = .ok x ∧ ofSeconds? (.double x) = some clock ∧
        clock.text = c.text) ∧
    ∀ x : Number, x.isBelow 0 = false → x.isBelow 360000000 = true →
      ∃ clock y, ofSeconds? x = some clock ∧ Timestamp.seconds clock.text = .ok y ∧
        ofSeconds? (.double y) = some clock := by
  constructor
  · intro c hplain hhours
    have htotal := c.total_lt 100000 hhours
    exact ⟨_, _, Timestamp.seconds_text c hhours, ofSeconds?_ofMillis c.total (by omega),
      text_ofMillis_of_padded c (c.padded_hours hplain)⟩
  · intro x hlow hhigh
    rcases ofSeconds?_of_range x 360000000 (by norm_num) hlow hhigh with ⟨ms, hread, hms⟩
    exact ⟨_, _, hread, Timestamp.seconds_clock ms (by omega), ofSeconds?_ofMillis ms (by omega)⟩

/-- The last millisecond that has less than a hundred thousand hours. -/
def lastTime : Timestamp.Canonical :=
  { Timestamp.Canonical.ofTotal 3599999 with
    hours := [9, 9, 9, 9, 9]
    hours_isDigits := by decide
    hours_length := by decide }

/-- A number of seconds that is nearest to a full minute in milliseconds. -/
def almostMinute : Number := .double (Binary64.ofDecimal false 599996 (-4))

theorem text_reads_back_lastTime :
    lastTime.Plain ∧ Text.ofDigits lastTime.hours < 100000 ∧ lastTime.text = "99999:59:59,999" ∧
      (∃ x clock, Timestamp.seconds lastTime.text = .ok x ∧ ofSeconds? (.double x) = some clock ∧
        clock.text = lastTime.text) ∧
      almostMinute.isBelow 0 = false ∧ almostMinute.isBelow 360000000 = true ∧
      ∃ clock y, ofSeconds? almostMinute = some clock ∧ clock.text = "00:00:59,999" ∧
        Timestamp.seconds clock.text = .ok y ∧ ofSeconds? (.double y) = some clock := by
  have hplain : lastTime.Plain := Or.inr (by decide)
  have hlow : almostMinute.isBelow 0 = false := by decide +kernel
  have hhigh : almostMinute.isBelow 360000000 = true := by decide +kernel
  have hread : ofSeconds? almostMinute = some ⟨0, 0, 59, 999⟩ := by decide +kernel
  refine ⟨hplain, by decide, by decide, text_reads_back.1 lastTime hplain (by decide), hlow, hhigh,
    ?_⟩
  rcases text_reads_back.2 almostMinute hlow hhigh with ⟨clock, y, hclock, hy, hback⟩
  rw [hread, Option.some.injEq] at hclock
  refine ⟨clock, y, by rw [hread, hclock], ?_, hy, hback⟩
  rw [← hclock]
  decide +kernel

end Clock

end Captions
