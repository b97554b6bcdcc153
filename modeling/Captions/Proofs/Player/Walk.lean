import Captions.Player
import Captions.Proofs.Instruction.Listed
import Captions.Proofs.Number.Division

/-!
# A Player Beside the Preview

What a player does, instruction by instruction, and where the preview and the
length of the same timeline stand meanwhile.

A player, a preview and the length walk through a list of instructions on their
own. They count differently, one of them stops at a limit, and none of them
knows of the others. `Does` is what they have in common: one step for one
instruction, in the same order. A performance is therefore cut where its list is
cut, and the waits in front of a block are the delays in front of it, each
divided by the rate. Those are the delays that the preview has added up when it
comes to the line of that block, and the delays of the whole list are what the
length is the sum of.

A performance that breaks off is no different. It consists of the steps of what
comes before the item that it stops at, and the player starts anew with the next
list, because all that is left of the last one is a count.

The rate decides nothing but the numbers waited for. A rate may still have no
quotient with a delay, when one of them is a whole number beyond the doubles. A
list with such a delay is played up to it.

## Main definitions

* `Step.seconds?`, `Step.block?`: What a step waits for, or shows.
* `sleeps`, `displays`: The waits and the blocks of a performance.
* `Does`: A step carries out an instruction.

## Theorems

* `rate_eq_ok_iff`: Which values are rates.
* `exists_quotient`: Numbers that are doubles have a quotient.
* `perform_append`: The performance of a list in two parts.
* `play_walks`: A performance beside the preview and the length.
* `not_all_displayed`: A rate that is no double may stop a performance.
-/

namespace Captions

namespace Player

open Instruction (delays block? shownCount)

/-- The seconds that a step waits for. -/
def Step.seconds? : Step → Option Binary64
  | .sleep seconds => some seconds
  | .display _ => none

/-- The block that a step shows. -/
def Step.block? : Step → Option Block
  | .sleep _ => none
  | .display b => some b

/-- The seconds waited for in steps, in their order. -/
def sleeps (steps : List Step) : List Binary64 := steps.filterMap Step.seconds?

/-- The blocks shown in steps, in their order. -/
def displays (steps : List Step) : List Block := steps.filterMap Step.block?

/-- A step carries out an instruction at a rate. -/
inductive Does (speed : Number) : Instruction → Step → Prop where
  /-- It waits for a delay divided by the rate. -/
  | sleep (delay : Number) (seconds : Binary64) (h : delay.div speed = .ok seconds) :
    Does speed (.wait delay) (.sleep seconds)
  /-- It shows a block. -/
  | display (b : Block) : Does speed (.showText b) (.display b)

/-! ### Quotients -/

/-- A value is a rate if it counts as a number that is not at or below zero. -/
theorem rate_eq_ok_iff (value : Value) (speed : Number) :
    rate value = .ok speed ↔ value.number? = some speed ∧ speed.isAtMost 0 = false := by
  unfold rate
  rcases value.number? with _ | x
  · simp only [reduceCtorEq, false_and]
  · by_cases h : x.isAtMost 0 = true
    · simp only [if_pos h, reduceCtorEq, Option.some.injEq, false_iff, not_and]
      rintro rfl
      rw [h]
      exact Bool.noConfusion
    · simp only [if_neg h, Except.ok.injEq, Option.some.injEq]
      refine ⟨fun heq => ⟨heq, ?_⟩, And.left⟩
      rwa [← heq, ← Bool.not_eq_true]

-- A quotient by a positive whole number is no larger than what is divided.
theorem exists_ratio (a b : Int) (hb : 0 < b) (ha : (Binary64.ofInt a).isFinite = true) :
    ∃ q, Number.ratio a b = .ok q := by
  have hpos : 0 < b.natAbs := Int.natAbs_pos.mpr (by omega)
  have hround : Binary64.roundUnits (a.natAbs * Binary64.one) b.natAbs
      ≤ Binary64.roundUnits (a.natAbs * Binary64.one) 1 := by
    rw [← Binary64.roundUnits_scale_one _ b.natAbs hpos]
    exact Binary64.roundUnits_mono _ _ _ (Nat.le_mul_of_pos_left _ hpos)
  rw [Binary64.ofInt, Binary64.isFinite_ofRatio_iff] at ha
  rw [Number.ratio, if_pos]
  · exact ⟨_, rfl⟩
  · rw [Binary64.isFinite_ofRatio_iff]
    exact Nat.lt_of_le_of_lt hround ha

/-- A delay has a quotient by an accepted rate if both are doubles, or whole
    numbers that can be rounded to one. -/
theorem exists_quotient (value : Value) (delay speed : Number) (x y : Binary64)
    (hrate : rate value = .ok speed) (hx : delay.toDouble = .ok x) (hy : speed.toDouble = .ok y) :
    ∃ q, delay.div speed = .ok q := by
  have hpos := ((rate_eq_ok_iff value speed).mp hrate).2
  have hdouble : (∀ a b, delay = .whole a → speed = .whole b → False) →
      delay.div speed = .ok (x.div y) := by
    intro hkind
    rw [Number.div, hx, hy, ok_bind, ok_bind]
    · rfl
    · exact hkind
  rcases delay with a | z
  · rcases speed with b | w
    · rw [← Bool.not_eq_true, Number.isAtMost_whole_iff] at hpos
      rw [Number.toDouble] at hx
      split at hx
      · rename_i hfin
        exact exists_ratio a b (by omega) hfin
      · exact absurd hx (error_ne_ok _ _)
    · exact ⟨_, hdouble fun _ _ _ => Number.noConfusion⟩
  · exact ⟨_, hdouble fun _ _ h => Number.noConfusion h⟩

/-! ### Steps -/

theorem exists_steps (speed : Number) (is : List Instruction)
    (h : ∀ d ∈ delays is, ∃ x, d.div speed = .ok x) :
    ∃ steps, List.Forall₂ (Does speed) is steps := by
  induction is with
  | nil => exact ⟨[], List.Forall₂.nil⟩
  | cons i is ih =>
      cases i with
      | wait delay =>
          rcases h delay List.mem_cons_self with ⟨x, hx⟩
          rcases ih (fun d hd => h d (List.mem_cons_of_mem _ hd)) with ⟨steps, hsteps⟩
          exact ⟨.sleep x :: steps, List.Forall₂.cons (.sleep delay x hx) hsteps⟩
      | showText b =>
          rcases ih h with ⟨steps, hsteps⟩
          exact ⟨.display b :: steps, List.Forall₂.cons (.display b) hsteps⟩

theorem displays_of_does (speed : Number) (is : List Instruction) (steps : List Step)
    (h : List.Forall₂ (Does speed) is steps) : displays steps = is.filterMap block? := by
  induction h with
  | nil => rfl
  | cons hdoes _ ih =>
      cases hdoes with
      | sleep delay seconds _ => exact ih
      | display b => exact congrArg (b :: ·) ih

theorem sleeps_of_does (speed : Number) (is : List Instruction) (steps : List Step)
    (h : List.Forall₂ (Does speed) is steps) :
    List.Forall₂ (fun d x => d.div speed = .ok x) (delays is) (sleeps steps) := by
  induction h with
  | nil => exact List.Forall₂.nil
  | cons hdoes _ ih =>
      cases hdoes with
      | sleep delay seconds hdiv => exact List.Forall₂.cons hdiv ih
      | display b => exact ih

/-- The steps of a list with a block in it are cut at that block. -/
theorem steps_cut (speed : Number) (before after : List Instruction) (b : Block)
    (steps : List Step) (h : List.Forall₂ (Does speed) (before ++ .showText b :: after) steps) :
    ∃ earlier later, steps = earlier ++ .display b :: later ∧
      List.Forall₂ (Does speed) before earlier := by
  rcases (forall₂_append_left_iff _ _ _ _).mp h with ⟨earlier, tail, rfl, hearlier, htail⟩
  rcases List.forall₂_cons_left_iff.mp htail with ⟨step, later, hstep, _, rfl⟩
  cases hstep with
  | display => exact ⟨earlier, later, rfl, hearlier⟩

/-! ### Performances -/

/-- A list whose first part is carried out by some steps is performed by these
    steps and whatever its second part leads to. -/
theorem perform_append (rest : List Item) (is : List Instruction) (steps : List Step) :
    ∀ p : Player, List.Forall₂ (Does p.speed) is steps →
      p.perform (is.map .instruction ++ rest)
        = (⟨steps ++ (perform ⟨p.speed, p.shown + shownCount is⟩ rest).1.steps,
            (perform ⟨p.speed, p.shown + shownCount is⟩ rest).1.outcome⟩,
          (perform ⟨p.speed, p.shown + shownCount is⟩ rest).2) := by
  induction is generalizing steps with
  | nil =>
      intro p h
      rw [List.forall₂_nil_left_iff] at h
      rw [h]
      rfl
  | cons i is ih =>
      intro p h
      rcases List.forall₂_cons_left_iff.mp h with ⟨step, tail, hstep, htail, rfl⟩
      cases hstep with
      | sleep delay seconds hdiv =>
          rw [List.map_cons, List.cons_append, perform, hdiv]
          simp only []
          rw [ih tail p htail]
          rfl
      | display b =>
          rw [List.map_cons, List.cons_append, perform, ih tail ⟨p.speed, p.shown + 1⟩ htail,
            shownCount, Nat.add_assoc, Nat.add_comm 1]
          rfl

theorem play_append (speed : Number) (rest : List Item) (is : List Instruction) (steps : List Step)
    (h : List.Forall₂ (Does speed) is steps) :
    play speed (is.map .instruction ++ rest)
      = ⟨steps ++ (perform ⟨speed, shownCount is⟩ rest).1.steps,
          (perform ⟨speed, shownCount is⟩ rest).1.outcome⟩ := by
  rw [play, begin, perform_append rest is steps ⟨speed, 0⟩ h, Nat.zero_add]

-- A list that some steps carry out is performed by these steps alone.
theorem play_of_does (speed : Number) (is : List Instruction) (steps : List Step)
    (h : List.Forall₂ (Does speed) is steps) :
    play speed (is.map .instruction) = ⟨steps, .ok (shownCount is)⟩ := by
  have hplay := play_append speed [] is steps h
  rwa [List.append_nil, perform, List.append_nil] at hplay

theorem perform_speed (items : List Item) : ∀ p : Player, (p.perform items).2.speed = p.speed := by
  induction items with
  | nil => intro p; rfl
  | cons item items ih =>
      intro p
      rcases item with ⟨delay | b⟩ | v
      · rw [perform]
        split
        · exact ih p
        · rfl
      · exact ih ⟨p.speed, p.shown + 1⟩
      · rfl

/-- A player that has played some lists. -/
def afterPlaying (p : Player) (lists : List (List Item)) : Player :=
  lists.foldl (fun q list => (q.begin list).2) p

/-- Nothing of the lists before is left when a player begins a list. -/
theorem begin_afterPlaying (lists : List (List Item)) (items : List Item) :
    ∀ p : Player, ((p.afterPlaying lists).begin items).1 = play p.speed items := by
  induction lists with
  | nil => intro p; rfl
  | cons list lists ih =>
      intro p
      rw [afterPlaying, List.foldl_cons, ← afterPlaying, ih, begin, perform_speed]

/-- A performance beside the preview and the length of the same timeline. -/
theorem play_walks (value : Value) (speed : Number) (is : List Instruction)
    (hrate : rate value = .ok speed) :
    -- Numbers that are doubles have a quotient.
    (∀ (d : Number) (x y : Binary64), d.toDouble = .ok x → speed.toDouble = .ok y →
      ∃ q, d.div speed = .ok q) ∧
    ((∀ d ∈ delays is, ∃ x, d.div speed = .ok x) →
      ∃ steps, play speed (is.map .instruction) = ⟨steps, .ok (shownCount is)⟩ ∧
        displays steps = is.filterMap block? ∧
        -- The waits are those of the delays that the length sums up.
        List.Forall₂ (fun d x => d.div speed = .ok x) (delays is) (sleeps steps) ∧
        Instruction.totalDelay is = (delays is).foldlM Number.add (.whole 0) ∧
        -- In front of a block they are those of the delays that its line sums up.
        (∀ before b after, is = before ++ .showText b :: after →
          ∃ earlier later, steps = earlier ++ .display b :: later ∧
            (displays earlier).length = shownCount before ∧
            List.Forall₂ (fun d x => d.div speed = .ok x) (delays before) (sleeps earlier) ∧
            ∀ limit text, Instruction.preview limit is = .ok text →
              limit.isAtMost (shownCount before : Int) = false →
              ∃ now start rest,
                (delays before).foldlM Instruction.advance Binary64.zero = .ok now ∧
                Instruction.reading now = .ok start ∧
                (Text.cutAt (· = '\n') text)[shownCount before]?
                  = some ("  [" ++ start.text ++ " → " ++ rest)) ∧
        -- The same steps are taken before something that cannot be played.
        (∀ v rest, play speed (is.map .instruction ++ .other v :: rest)
          = ⟨steps, .error (if v.isWritable then .unknown v else .longNumber)⟩) ∧
        (∀ d o rest, d.div speed = .error o →
          play speed (is.map .instruction ++ .instruction (.wait d) :: rest)
            = ⟨steps, .error (.overflow o)⟩) ∧
        -- Whatever was played before, a list is played as by a new player.
        ∀ (lists : List (List Item)) (items : List Item),
          ((afterPlaying ⟨speed, 0⟩ lists).begin items).1 = play speed items) := by
  refine ⟨fun d x y => exists_quotient value d speed x y hrate, fun h => ?_⟩
  rcases exists_steps speed is h with ⟨steps, hsteps⟩
  have hwhole := play_append speed [] is steps hsteps
  rw [List.append_nil, perform, List.append_nil] at hwhole
  refine ⟨steps, hwhole, displays_of_does speed is steps hsteps,
    sleeps_of_does speed is steps hsteps, Instruction.totalAfter_eq_foldlM is _, ?_, ?_, ?_,
    fun lists items => begin_afterPlaying lists items _⟩
  · intro before b after his
    rw [his] at hsteps
    rcases steps_cut speed before after b steps hsteps with ⟨earlier, later, hcut, hearlier⟩
    refine ⟨earlier, later, hcut, ?_, sleeps_of_does speed before earlier hearlier, ?_⟩
    · rw [displays_of_does speed before earlier hearlier, Instruction.shownCount_eq_length]
    · intro limit text htext hlimit
      rcases Instruction.line_of_preview limit is before after b text htext his hlimit with
        ⟨now, start, _, finish, hnow, hstart, _, _, hline⟩
      refine ⟨now, start, finish.text ++ "] " ++ Instruction.excerpt b, hnow, hstart, ?_⟩
      rw [hline]
      simp only [List.append_assoc]
  · intro v rest
    rw [play_append speed _ is steps hsteps, perform, List.append_nil, Fault.ofOther]
  · intro d o rest hd
    rw [play_append speed _ is steps hsteps, perform, hd]
    simp only [List.append_nil]

/-- A block of plain text shown for a second. -/
def plainBlock (t : Text) : Block := ⟨t, .whole 1, .ofInt 1200, "Bottom Middle", false⟩

/-- Waits and blocks of which several follow each other, with waits at the
    end. -/
def interlude : List Instruction :=
  [.wait (.double (Binary64.ofInt 3)), .showText (plainBlock "a"), .wait (.whole 1),
    .wait (.double (Binary64.ofInt 4)), .showText (plainBlock "b"), .showText (plainBlock "c"),
    .wait (.whole 2), .wait (.double (Binary64.ofInt 1))]

/-- A time in halves of a second. -/
def halves (n : Nat) : Binary64 := Binary64.ofRatio false (n * Binary64.one) 2

theorem play_walks_interlude :
    rate (.number (.whole 2)) = .ok (.whole 2) ∧
      (∀ d ∈ delays interlude, ∃ x, d.div (.whole 2) = .ok x) ∧
      ∃ steps, play (.whole 2) (interlude.map .instruction) = ⟨steps, .ok 3⟩ ∧
        (displays steps).map Block.html = ["a", "b", "c"].map String.toList ∧
        sleeps steps = [3, 1, 4, 2, 1].map halves ∧
        ∃ text rest, Instruction.preview (.whole 2) interlude = .ok text ∧
          (Text.cutAt (· = '\n') text)[1]?
            = some ("  [" ++ "00:00:08,000".toList ++ " → " ++ rest) := by
  have hdoubles : ∀ d ∈ delays interlude, d.toDouble.toBool = true := by decide +kernel
  have hrate : rate (.number (.whole 2)) = .ok (.whole 2) := rfl
  rcases play_walks (.number (.whole 2)) (.whole 2) interlude hrate with ⟨hquotient, hwalk⟩
  have h : ∀ d ∈ delays interlude, ∃ x, d.div (.whole 2) = .ok x := by
    intro d hd
    rcases exists_of_toBool _ (hdoubles d hd) with ⟨x, hx⟩
    exact hquotient d x (Binary64.ofInt 2) hx (by decide +kernel)
  rcases hwalk h with ⟨steps, hplay, hdisplays, _, _, hplaces, _⟩
  refine ⟨hrate, h, steps, hplay, ?_, ?_, ?_⟩
  · rw [hdisplays]
    rfl
  · rw [show steps = (play (.whole 2) (interlude.map .instruction)).steps by rw [hplay]]
    decide +kernel
  · have hmade : (Instruction.preview (.whole 2) interlude).toBool = true := by decide +kernel
    rcases exists_of_toBool _ hmade with ⟨text, hpreview⟩
    rcases hplaces (interlude.take 4) (plainBlock "b") (interlude.drop 5) rfl with
      ⟨_, _, _, _, _, hline⟩
    rcases hline (.whole 2) text hpreview (by decide) with ⟨now, start, rest, hnow, hstart, hget⟩
    have hclock : ((delays (interlude.take 4)).foldlM Instruction.advance Binary64.zero
        >>= Instruction.reading) = .ok ⟨0, 0, 8, 0⟩ := by decide +kernel
    have height : Clock.text ⟨0, 0, 8, 0⟩ = "00:00:08,000".toList := by decide +kernel
    rw [hnow, ok_bind, hstart, Except.ok.injEq] at hclock
    rw [hclock, height] at hget
    exact ⟨text, rest, hpreview, hget⟩

/-- A rate beyond the doubles. -/
def hugeRate : Number := .whole (10 ^ 400)

-- A player may be made with a rate that it cannot play at.
theorem not_all_displayed :
    ¬ ∀ (value : Value) (speed : Number) (is : List Instruction), rate value = .ok speed →
      displays (play speed (is.map .instruction)).steps = is.filterMap block? := by
  intro h
  have hpositive : hugeRate.isAtMost 0 = false := by decide +kernel
  have hrate : rate (.number hugeRate) = .ok hugeRate := by
    rw [rate, Value.number?]
    exact if_neg (Bool.eq_false_iff.mp hpositive)
  have hall := h (.number hugeRate) hugeRate interlude hrate
  have hnone : (displays (play hugeRate (interlude.map .instruction)).steps).length = 0 := by
    decide +kernel
  rw [hall] at hnone
  exact absurd hnone (by decide)

end Player

end Captions
