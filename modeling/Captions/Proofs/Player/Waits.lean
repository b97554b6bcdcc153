import Captions.CommandLine
import Captions.Proofs.Number.Quotient
import Captions.Proofs.Player.Walk
import Captions.Proofs.Timeline.Positive
import Mathlib.Data.Set.List

/-!
# What a Player Waits For

Whether a player can wait for what it is to wait for.

A host that waits needs a number that is not below zero. The delays of a
timeline are above zero, and so is a rate that is a number, so no quotient of the
two is ever below zero. But a quotient may be no number at all, and there are two
ways to come to one.

The rate itself is the first. A player refuses what is at or below zero, and what
is not a number is neither. Every wait at such a rate is lost, and nothing stops
it. The program asks the opposite question, whether the rate is above zero, and
never comes to that.

The second is open to both. The times of a cue may overflow, and then a delay is
an infinity. It can be waited for at every rate but an infinite one.

## Main definitions

* `Waitable`: A number that is not below zero.

## Theorems

* `rate_cases`: A rate that is a number is above zero.
* `checkSpeed_eq_ok_iff`: Which rates the program lets pass.
* `delays_sequence`: The delays of a timeline are doubles above zero.
* `div_rate`: A delay divided by a rate.
* `sleeps_waitable`: When a player waits for numbers only.
* `not_all_waitable`: It does not at every rate.
-/

namespace Captions

open Binary64 (zero)

namespace Player

open Instruction (delays shownCount)

/-- What can be waited for: a number that is not below zero. -/
def Waitable (x : Binary64) : Prop := x ≠ .nan ∧ x.lt zero = false

instance (x : Binary64) : Decidable (Waitable x) := inferInstanceAs (Decidable (_ ∧ _))

/-! ### Rates -/

/-- A rate that is a double is above zero, unless it is not a number. -/
theorem rate_cases (value : Value) (speed : Number) (y : Binary64)
    (hrate : rate value = .ok speed) (hy : speed.toDouble = .ok y) :
    speed = .double .nan ∧ y = .nan ∨ speed ≠ .double .nan ∧ zero.lt y = true := by
  by_cases hnan : speed = .double .nan
  · rw [hnan, Number.toDouble, Except.ok.injEq] at hy
    exact Or.inl ⟨hnan, hy.symm⟩
  · have hopen := ((rate_eq_ok_iff value speed).mp hrate).2
    have habove := (Number.isAbove_iff speed 0).mpr ⟨hopen, hnan⟩
    exact Or.inr ⟨hnan, Number.zero_lt_of_isAbove speed y habove hy⟩

/-- The program lets a rate pass exactly if a player takes it and it is a
    number. -/
theorem checkSpeed_eq_ok_iff (a : CommandLine.Arguments) (settings : Settings)
    (hplay : a.play = true) :
    CommandLine.checkSpeed a settings = .ok true ↔
      ∃ speed, rate settings.playback.speed = .ok speed ∧ speed ≠ .double .nan := by
  simp only [CommandLine.checkSpeed, if_pos hplay, rate_eq_ok_iff, and_assoc, ← Number.isAbove_iff]
  rcases settings.playback.speed.number? with _ | x
  · simp only [reduceCtorEq, false_and, exists_false]
  · simp only [Except.ok.injEq, Option.some.injEq, exists_eq_left']

/-! ### Delays -/

/-- The delays of a timeline are doubles above zero. -/
theorem delays_sequence (style : Style) (cues : List Cue) (is : List Instruction)
    (h : (Timeline.sequence style cues).2 = .ok is) :
    ∃ ds : List Binary64, delays is = ds.map .double ∧ ∀ d ∈ ds, zero.lt d = true := by
  rcases (Timeline.sequence_eq_ok_iff style cues is).mp h with ⟨timed, _, _, _, rfl⟩
  have hpos : ∀ d ∈ delays (Timeline.emitted style zero timed), ∃ x, d = .double x ∧
      zero.lt x = true := fun d hd =>
    Timeline.length_emitted_pos style _ timed zero ((Instruction.mem_delays _ d).mp hd)
  have hrange :
      delays (Timeline.emitted style zero timed) ∈ Set.range (List.map Number.double) := by
    rw [Set.range_list_map]
    intro d hd
    rcases hpos d hd with ⟨x, rfl, _⟩
    exact ⟨x, rfl⟩
  rcases hrange with ⟨ds, hds⟩
  refine ⟨ds, hds.symm, fun d hd => ?_⟩
  rcases hpos (.double d) (hds ▸ List.mem_map_of_mem hd) with ⟨x, hx, hlt⟩
  rwa [Number.double.inj hx]

/-- A delay above zero divided by a rate is not below zero, and is not a number
    only if the rate is not or both are infinite. -/
theorem div_rate (d y : Binary64) (hd : zero.lt d = true) (hy : y = .nan ∨ zero.lt y = true) :
    (d.div y).lt zero = false ∧
      (d.div y = .nan ↔ y = .nan ∨ d = .infinite false ∧ y = .infinite false) := by
  rcases hy with rfl | hy
  · rw [Binary64.div_nan]
    exact ⟨rfl, iff_of_true rfl (Or.inl rfl)⟩
  · rcases Binary64.of_zero_lt d hd with ⟨_, hdsign, _⟩
    rcases Binary64.of_zero_lt y hy with ⟨hynan, hysign, _⟩
    refine ⟨Binary64.not_lt_zero _ (Binary64.negative_div d y hdsign hysign), ?_⟩
    rw [Binary64.div_eq_nan_iff d y hd hy, or_iff_right hynan]

-- The waits of a performance, where the delays are doubles.
theorem exists_play (speed : Number) (y : Binary64) (hy : speed.toDouble = .ok y)
    (is : List Instruction) (ds : List Binary64) (hds : delays is = ds.map .double) :
    ∃ steps, play speed (is.map .instruction) = ⟨steps, .ok (shownCount is)⟩ ∧
      sleeps steps = ds.map fun d => d.div y := by
  have hdiv := fun d => Number.div_double d speed y hy
  have hall : ∀ d ∈ delays is, ∃ x, d.div speed = .ok x := by
    rw [hds, List.forall_mem_map]
    exact fun d _ => ⟨d.div y, hdiv d⟩
  rcases exists_steps speed is hall with ⟨steps, hsteps⟩
  have hsleeps := sleeps_of_does speed is steps hsteps
  rw [hds, List.forall₂_map_left_iff] at hsleeps
  simp only [hdiv, Except.ok.injEq] at hsleeps
  refine ⟨steps, play_of_does speed is steps hsteps, ?_⟩
  rw [← List.forall₂_eq_eq_eq, List.forall₂_map_right_iff]
  exact hsleeps.flip.imp fun _ _ h => h.symm

/-- What a player waits for in a timeline: the delays divided by the rate. Each
    is a number that is not below zero, unless the rate is not a number or both
    the rate and the delay are infinite. The program lets no rate pass that is
    not a number. -/
theorem sleeps_waitable (value : Value) (speed : Number) (y : Binary64) (style : Style)
    (cues : List Cue) (is : List Instruction) (hrate : rate value = .ok speed)
    (hy : speed.toDouble = .ok y) (hseq : (Timeline.sequence style cues).2 = .ok is) :
    ∃ (ds : List Binary64) (steps : List Step), delays is = ds.map .double ∧
      play speed (is.map .instruction) = ⟨steps, .ok (shownCount is)⟩ ∧
      sleeps steps = ds.map (fun d => d.div y) ∧
      (∀ x ∈ sleeps steps, x.lt zero = false) ∧
      ((∀ x ∈ sleeps steps, Waitable x) ↔
        (y = .nan → ds = []) ∧ (y = .infinite false → .infinite false ∉ ds)) ∧
      ∀ (a : CommandLine.Arguments) (settings : Settings), a.play = true →
        settings.playback.speed = value →
        (CommandLine.checkSpeed a settings = .ok true ↔ y ≠ .nan) := by
  rcases delays_sequence style cues is hseq with ⟨ds, hds, hpos⟩
  rcases exists_play speed y hy is ds hds with ⟨steps, hplay, hsleeps⟩
  have hcases := rate_cases value speed y hrate hy
  have hdiv := fun d hd => div_rate d y (hpos d hd) (hcases.imp And.right And.right)
  refine ⟨ds, steps, hds, hplay, hsleeps, ?_, ?_, ?_⟩
  · rw [hsleeps, List.forall_mem_map]
    exact fun d hd => (hdiv d hd).1
  · rw [hsleeps, List.forall_mem_map]
    constructor
    · intro hall
      refine ⟨fun hnan => ?_, fun hinf hmem => ?_⟩
      · refine List.eq_nil_iff_forall_not_mem.mpr fun d hd => ?_
        exact (hall d hd).1 ((hdiv d hd).2.mpr (Or.inl hnan))
      · exact (hall _ hmem).1 ((hdiv _ hmem).2.mpr (Or.inr ⟨rfl, hinf⟩))
    · rintro ⟨hnan, hinf⟩ d hd
      refine ⟨fun heq => ?_, (hdiv d hd).1⟩
      rcases (hdiv d hd).2.mp heq with hy | ⟨rfl, hy⟩
      · exact List.ne_nil_of_mem hd (hnan hy)
      · exact hinf hy hd
  · intro a settings hplays hvalue
    rw [checkSpeed_eq_ok_iff a settings hplays, hvalue, hrate]
    simp only [Except.ok.injEq, exists_eq_left']
    rcases hcases with ⟨hspeed, hnan⟩ | ⟨hspeed, hpositive⟩
    · exact iff_of_false (not_not.mpr hspeed) (not_not.mpr hnan)
    · exact iff_of_true hspeed (Binary64.of_zero_lt y hpositive).1

-- An infinite delay is no harm at twice the speed.
theorem sleeps_waitable_overflowing :
    rate (.number (.whole 2)) = .ok (.whole 2) ∧
      (Number.whole 2).toDouble = .ok (Binary64.ofInt 2) ∧
      ∃ is steps,
        (Timeline.sequence Style.standard (Timeline.overflowing.map Prod.fst)).2 = .ok is ∧
        play (.whole 2) (is.map .instruction) = ⟨steps, .ok 3⟩ ∧
        .infinite false ∈ sleeps steps ∧ ∀ x ∈ sleeps steps, Waitable x := by
  have hrate : rate (.number (.whole 2)) = .ok (.whole 2) := rfl
  have htwo : (Number.whole 2).toDouble = .ok (Binary64.ofInt 2) := by decide +kernel
  have hseq := Timeline.sequence_overflowing
  have hshown : shownCount (Timeline.emitted Style.standard zero Timeline.overflowing) = 3 := by
    decide +kernel
  rcases sleeps_waitable (.number (.whole 2)) (.whole 2) _ Style.standard _ _ hrate htwo hseq with
    ⟨_, steps, _, hplay, _, _, hwaitable, _⟩
  rw [hshown] at hplay
  refine ⟨hrate, htwo, _, steps, hseq, hplay, ?_, hwaitable.mpr ⟨?_, ?_⟩⟩
  · rw [show steps = (play (.whole 2) _).steps by rw [hplay]]
    decide +kernel
  · exact fun hnan => absurd hnan (by decide +kernel)
  · exact fun hinfinite => absurd hinfinite (by decide +kernel)

/-- A player takes a rate that is not a number, and then waits for nothing
    else. -/
theorem not_all_waitable :
    ¬ ∀ (value : Value) (speed : Number) (y : Binary64) (style : Style) (cues : List Cue)
      (is : List Instruction), rate value = .ok speed → speed.toDouble = .ok y →
        (Timeline.sequence style cues).2 = .ok is →
        ∀ x ∈ sleeps (play speed (is.map .instruction)).steps, Waitable x := by
  intro h
  have hseq := Timeline.sequence_overflowing
  have hwaits := h (.number (.double .nan)) (.double .nan) .nan Style.standard _ _ rfl rfl hseq
  exact absurd hwaits (by decide +kernel)

end Player

end Captions
