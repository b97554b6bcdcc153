import Captions.CommandLine
import Captions.Proofs.Instruction.Parts
import Captions.Proofs.Outcome

/-!
# Playing to the End

When a performance comes to an end in the terminal.

Three things can happen at a wait. The delay may have no quotient by the rate,
which is the player's affair. The system may refuse to wait for as long as the
quotient says. Or the user may interrupt, and that is an end like the one at the
end of the list. What lies behind the wait that is interrupted is never looked
at, however long it is.

So a performance breaks off exactly if there is something wrong with a wait that
is reached. Steps are added in front of a performance, and a wait in front makes
one less that the user is patient for, so the induction is on the list, for all
players and all sleepers at once.

## Main definitions

* `Carried.IsComplete`: A performance carried out until its end or an interruption.
* `CanWait`: Nothing is wrong with the waits that are reached.

## Theorems

* `reaches_waited`: A wait that is over no longer counts.
* `canWait_cons`: The first wait, and the others.
* `isComplete_iff`: When a performance is carried out.
* `play_ends_iff`: When playing ends with an exit code.
-/

namespace Captions

open Instruction (delays delays_wait)

/-- A wait that is over no longer counts, if the user let it pass. -/
theorem Sleeper.reaches_waited (sleeper : Sleeper) (waits : Nat) (h : sleeper.patience ≠ some 0) :
    sleeper.waited.Reaches waits ↔ sleeper.Reaches (waits + 1) := by
  unfold Reaches waited
  rcases hpatience : sleeper.patience with _ | _ | patience
  · exact iff_of_true (fun p hp => absurd hp.symm (Option.some_ne_none p))
      fun p hp => absurd hp.symm (Option.some_ne_none p)
  · exact absurd hpatience h
  · simp only [Option.map_some, Option.some.injEq, forall_eq', Nat.add_sub_cancel,
      Nat.add_le_add_iff_right]

namespace CommandLine

/-- An ending with an exit code: of a success, a failure or an interruption. -/
def Ending.IsOrderly (e : Ending) : Prop := e = .exit 0 ∨ e = .exit 1 ∨ e = .exit 130

theorem not_isOrderly_failed (f : Failure) : ¬ (Ending.failed f).IsOrderly := by
  rintro (h | h | h) <;> exact Ending.noConfusion h

/-- The steps are carried out up to an interruption, or all of them, where these
    are all that there are to the performance. -/
def Carried.IsComplete (outcome : Except Player.Fault Nat) : Carried → Prop
  | .done => ∃ shown, outcome = .ok shown
  | .interrupted => True
  | .refused _ => False

/-- Every wait that is reached has a length at this rate, and the system does not
    refuse it. -/
def CanWait (sleeper : Sleeper) (rate : Number) (ds : List Number) : Prop :=
  ∀ i d, ds[i]? = some d → sleeper.Reaches i →
    ∃ seconds, d.div rate = .ok seconds ∧ sleeper.refuses seconds = none

theorem canWait_nil (sleeper : Sleeper) (rate : Number) : CanWait sleeper rate [] :=
  fun _ d hd => absurd hd.symm (Option.some_ne_none d)

/-- The first wait is always reached, and the others if the user lets it pass. -/
theorem canWait_cons (sleeper : Sleeper) (rate d : Number) (ds : List Number) :
    CanWait sleeper rate (d :: ds) ↔
      (∃ seconds, d.div rate = .ok seconds ∧ sleeper.refuses seconds = none) ∧
        (sleeper.patience ≠ some 0 → CanWait sleeper.waited rate ds) := by
  constructor
  · intro h
    refine ⟨h 0 d rfl fun _ _ => Nat.zero_le _, fun hpatience i e he hreaches => ?_⟩
    exact h (i + 1) e he ((sleeper.reaches_waited i hpatience).mp hreaches)
  · rintro ⟨hfirst, hothers⟩ (_ | i) e he hreaches
    · rwa [← Option.some.inj he]
    · have hpatience : sleeper.patience ≠ some 0 := fun hzero =>
        absurd (hreaches 0 hzero) (Nat.not_succ_le_zero i)
      exact hothers hpatience i e he ((sleeper.reaches_waited i hpatience).mpr hreaches)

/-- A performance is carried out if nothing is wrong with the waits that are
    reached. -/
theorem isComplete_iff (is : List Instruction) :
    ∀ (p : Player) (s : Session) (sleeper : Sleeper),
      (perform s sleeper (p.perform (is.map .instruction)).1.steps).2.IsComplete
          (p.perform (is.map .instruction)).1.outcome ↔
        CanWait sleeper p.speed (delays is) := by
  induction is with
  | nil => exact fun p _ sleeper => iff_of_true ⟨p.shown, rfl⟩ (canWait_nil sleeper p.speed)
  | cons i is ih =>
      intro p s sleeper
      cases i with
      | showText b => exact ih { p with shown := p.shown + 1 } _ sleeper
      | wait delay =>
          rw [delays_wait, canWait_cons, List.map_cons, Player.perform]
          rcases hdiv : delay.div p.speed with o | seconds
          · refine iff_of_false ?_ ?_
            · exact fun ⟨_, hno⟩ => error_ne_ok _ _ hno
            · exact fun ⟨⟨_, hno, _⟩, _⟩ => error_ne_ok _ _ hno
          · simp only [Prod.map_fst, Player.Performance.after, perform, Except.ok.injEq,
              exists_eq_left']
            rcases hrefuses : sleeper.refuses seconds with _ | refusal
            · by_cases hpatience : sleeper.patience = some 0
              · rw [hpatience]
                exact iff_of_true trivial ⟨rfl, fun hne => absurd rfl hne⟩
              · simp only [ne_eq, hpatience, not_false_eq_true, true_implies, true_and]
                exact ih p _ sleeper.waited
            · exact iff_of_false not_false fun h => absurd h.1 (Option.some_ne_none _)

/-- Playing ends with an exit code if nothing is wrong with the waits that are
    reached. -/
theorem play_ends_iff (s : Session) (sleeper : Sleeper) (rate : Number) (is : List Instruction) :
    (play s sleeper rate is).2.IsOrderly ↔ CanWait sleeper rate (delays is) := by
  rw [← isComplete_iff is ⟨rate, 0⟩ s sleeper]
  simp only [play, Player.play, Player.begin]
  rcases (perform s sleeper _) with ⟨s', _ | _ | refusal⟩
  · rcases (Player.perform ⟨rate, 0⟩ (is.map .instruction)).1.outcome with fault | shown
    · exact iff_of_false (not_isOrderly_failed _) fun ⟨_, hno⟩ => error_ne_ok _ _ hno
    · exact iff_of_true (Or.inl rfl) ⟨shown, rfl⟩
  · exact iff_of_true (Or.inr (Or.inr rfl)) trivial
  · exact iff_of_false (not_isOrderly_failed _) not_false

end CommandLine

end Captions
