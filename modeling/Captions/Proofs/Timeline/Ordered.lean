import Captions.Proofs.Timeline.Millis
import Captions.Proofs.Timeline.Replay
import Captions.Proofs.Timestamp.Order

/-!
# Replaying Cues in Order

How early a cue appears when the cues are in order and none overlaps another.

Such cues leave nothing to interpret: every gap is a pause that ought to be
waited for, and a host that waited for all of them would show each cue at its
start. The gaps within the tolerance are not waited for, and the playhead moves
on as if they had been, so each of them is lost for the rest of the timeline.
`droppedMillis` adds them up. A cue appears by that sum before its start
(`replay_dropped`), however small each of the gaps is. The doubles add less
than a microsecond to that, and half of one for every millisecond lost.

A cue is therefore within the tolerance of its start, with a millisecond to
spare for rounding, as long as the gaps lost before it come to fifty
milliseconds, and no longer so from fifty-two on. In between the last bits
decide.

## Main definitions

* `Ordered`: Cues in order and without overlap.
* `endAfter`: Where the playhead stands after cues, in milliseconds.
* `droppedMillis`: The gaps that are not emitted, in milliseconds.

## Theorems

* `droppedGaps_near`: The gaps that are lost, in seconds.
* `rounding_le`: What rounding comes to over a whole timeline.
* `waited_before_near`: The time at which a cue appears.
* `replay_dropped`: Every cue appears early by the gaps that are lost.
-/

namespace Captions

namespace Timeline

open Timestamp (ofMillis value_ofMillis_sub_near)
open Instruction (waited shownCount shownCount_append)

/-- Cues in order and without overlap, none of them before the playhead. -/
def Ordered : Nat → List CanonicalCue → Prop
  | _, [] => True
  | playhead, c :: cs =>
    playhead ≤ c.start.total ∧ c.start.total ≤ c.finish.total ∧ Ordered c.finish.total cs

/-- Where the playhead stands after cues, in milliseconds. -/
def endAfter : Nat → List CanonicalCue → Nat
  | playhead, [] => playhead
  | _, c :: cs => endAfter c.finish.total cs

/-- The gaps that are not emitted as a wait, in milliseconds, summed up. -/
def droppedMillis : Nat → List CanonicalCue → Nat
  | _, [] => 0
  | playhead, c :: cs =>
    (if c.start.total - playhead ≤ 50 then c.start.total - playhead else 0) +
      droppedMillis c.finish.total cs

theorem ordered_append (xs ys : List CanonicalCue) :
    ∀ playhead, Ordered playhead (xs ++ ys) ↔
      Ordered playhead xs ∧ Ordered (endAfter playhead xs) ys := by
  induction xs with
  | nil => intro playhead; rw [List.nil_append, endAfter, Ordered, true_and]
  | cons c xs ih =>
      intro playhead
      rw [List.cons_append, Ordered, Ordered, endAfter, ih]
      simp only [and_assoc]

theorem playheadAfter_timed (cs : List CanonicalCue) :
    ∀ playhead, playheadAfter (ofMillis playhead) (cs.map CanonicalCue.timed)
      = ofMillis (endAfter playhead cs) := by
  induction cs with
  | nil => intro playhead; rw [List.map_nil, playheadAfter, endAfter]
  | cons c cs ih =>
      intro playhead
      rw [List.map_cons, CanonicalCue.timed, playheadAfter, c.span_finish, endAfter, ih]

-- What one difference adds to the rounding is a small part of it, whether or not it
-- is emitted.
theorem rounding_sub_le (a b : Nat) (hab : a ≤ b) (hb : b < 360000000000) (p : Prop)
    [Decidable p] :
    |if p then ((ofMillis b).sub (ofMillis a)).value - ((ofMillis b).value - (ofMillis a).value)
      else 0| ≤ ((ofMillis b).value - (ofMillis a).value) / 2 ^ 53 := by
  have hmono := Timestamp.value_ofMillis_mono a b hab (by omega)
  split
  · have hfin := (sub_ofMillis_near b a hb (by omega)).1
    have hround := Binary64.sub_near _ _ hfin
    rwa [abs_of_nonneg (by linarith : 0 ≤ (ofMillis b).value - (ofMillis a).value)] at hround
  · rw [abs_zero]
    exact div_nonneg (by linarith) (by norm_num)

/-- Rounding comes to a small part of the way of the playhead. -/
theorem rounding_le (cs : List CanonicalCue) (h : ∀ c ∈ cs, c.HoursBelow 100000) :
    ∀ playhead < 360000000000, Ordered playhead cs →
      |rounding (ofMillis playhead) (cs.map CanonicalCue.timed)|
        ≤ ((ofMillis (endAfter playhead cs)).value - (ofMillis playhead).value) / 2 ^ 53 := by
  induction cs with
  | nil =>
      intro playhead _ _
      simp only [List.map_nil, rounding, endAfter, abs_zero, sub_self, zero_div, le_refl]
  | cons c cs ih =>
      intro playhead _ hord
      have hc := h c List.mem_cons_self
      rcases c.totals_lt 100000 hc with ⟨hs, hf⟩
      rcases hord with ⟨hstart, hfinish, hrest⟩
      have hcs := ih (fun d hd => h d (List.mem_cons_of_mem c hd)) c.finish.total hf hrest
      have hgap := rounding_sub_le playhead c.start.total hstart hs
        (worthWaiting ((ofMillis c.start.total).sub (ofMillis playhead)) = true)
      have hduration := rounding_sub_le c.start.total c.finish.total hfinish hf
        (Binary64.zero.lt ((ofMillis c.finish.total).sub (ofMillis c.start.total)) = true)
      rw [List.map_cons, CanonicalCue.timed, rounding, c.span_start, c.span_finish,
        c.span_duration, endAfter]
      refine le_trans (abs_add_three _ _ _) ?_
      -- The three ways add up to the way from the playhead to the last end.
      have hway := add_le_add (add_le_add hgap hduration) hcs
      refine le_trans hway (le_of_eq ?_)
      ring

-- In order, a cue that is not shown takes no time.
theorem hiddenTime_timed (cs : List CanonicalCue) (h : ∀ c ∈ cs, c.HoursBelow 100000) :
    ∀ playhead, Ordered playhead cs → hiddenTime (cs.map CanonicalCue.timed) = 0 := by
  induction cs with
  | nil => intro playhead _; rfl
  | cons c cs ih =>
      intro playhead hord
      have hiff := c.lasts_iff (h c List.mem_cons_self)
      rcases hord with ⟨_, hfinish, hrest⟩
      have hcs := ih (fun d hd => h d (List.mem_cons_of_mem c hd)) _ hrest
      rw [List.map_cons, CanonicalCue.timed, hiddenTime, c.span_start, c.span_finish, hcs, add_zero]
      by_cases hlt : c.start.total < c.finish.total
      · rw [if_pos (hiff.mpr hlt)]
      · have heq : c.start.total = c.finish.total := by omega
        rw [if_neg (fun hpos => hlt (hiff.mp hpos)), heq, sub_self]

/-- The gaps that are lost, in seconds. Only a gap that is none is lost without
    an error, so the errors are counted by the milliseconds lost. -/
theorem droppedGaps_near (cs : List CanonicalCue) (h : ∀ c ∈ cs, c.HoursBelow 100000) :
    ∀ playhead < 360000000000, Ordered playhead cs →
      |droppedGaps (ofMillis playhead) (cs.map CanonicalCue.timed) -
          (droppedMillis playhead cs : ℚ) / 1000| ≤ (droppedMillis playhead cs : ℚ) / 2000000 := by
  induction cs with
  | nil =>
      intro playhead _ _
      simp only [List.map_nil, droppedGaps, droppedMillis, Nat.cast_zero, zero_div, sub_self,
        abs_zero, le_refl]
  | cons c cs ih =>
      intro playhead hp hord
      have hc := h c List.mem_cons_self
      rcases c.totals_lt 100000 hc with ⟨hs, hf⟩
      rcases hord with ⟨hstart, _, hrest⟩
      have hcs := ih (fun d hd => h d (List.mem_cons_of_mem c hd)) c.finish.total hf hrest
      have hiff := worthWaiting_ofMillis c.start.total playhead hs hp
      have hcast : ((c.start.total - playhead : Nat) : ℚ) = (c.start.total : ℚ) - playhead :=
        Nat.cast_sub hstart
      rw [List.map_cons, CanonicalCue.timed, droppedGaps, c.span_start, c.span_finish,
        droppedMillis, Nat.cast_add]
      by_cases hle : c.start.total - playhead ≤ 50
      · rw [if_neg (fun hw => by have := hiff.mp hw; omega), if_pos hle, hcast]
        have hnear := value_ofMillis_sub_near c.start.total playhead hs hp
        rcases Nat.eq_or_lt_of_le hstart with heq | hlt
        · rw [heq, sub_self, sub_self, zero_add, zero_add]
          exact hcs
        · have hstep : (playhead : ℚ) + 1 ≤ c.start.total := by exact_mod_cast hlt
          rw [abs_lt] at hnear
          rw [abs_le] at hcs ⊢
          constructor <;> linarith
      · rw [if_pos (hiff.mpr (by omega)), if_neg hle, Nat.cast_zero, zero_add, zero_add]
        exact hcs

/-- A cue appears at its start less the gaps lost up to it. -/
theorem waited_before_near (style : Style) (pre : List CanonicalCue) (c : CanonicalCue)
    (h : ∀ d ∈ pre ++ [c], d.HoursBelow 100000) (hord : Ordered 0 (pre ++ [c])) :
    |waited (emitted style (ofMillis 0) (pre.map CanonicalCue.timed) ++
        gapWait ((ofMillis c.start.total).sub (ofMillis (endAfter 0 pre)))) -
        ((c.start.total : ℚ) - droppedMillis 0 (pre ++ [c])) / 1000|
      ≤ (1 + droppedMillis 0 (pre ++ [c]) : ℚ) / 1000000 := by
  have hpre : ∀ d ∈ pre, d.HoursBelow 100000 := fun d hd => h d (List.mem_append_left _ hd)
  have hs := (c.totals_lt 100000 (h c (List.mem_append_right _ List.mem_cons_self))).1
  rcases (ordered_append pre [c] 0).mp hord with ⟨hordpre, hstart, _⟩
  have hlost := droppedGaps_near (pre ++ [c]) h 0 (by omega) hord
  have hrounding := rounding_le pre hpre 0 (by omega) hordpre
  have hgap := rounding_sub_le (endAfter 0 pre) c.start.total hstart hs
    (worthWaiting ((ofMillis c.start.total).sub (ofMillis (endAfter 0 pre))) = true)
  have hread := value_ofMillis_sub_near c.start.total 0 hs (by omega)
  have hway : (c.start.total : ℚ) < 360000000000 := by exact_mod_cast hs
  have hlaw := waited_before style (pre.map CanonicalCue.timed) c.cue c.span (ofMillis 0)
  rw [playheadAfter_timed, c.span_start, hiddenTime_timed pre hpre 0 hordpre, sub_zero] at hlaw
  have hlist : pre.map CanonicalCue.timed ++ [(c.cue, c.span)]
      = (pre ++ [c]).map CanonicalCue.timed := by
    rw [List.map_append]
    rfl
  rw [hlaw, hlist]
  have hdropped : (0 : ℚ) ≤ droppedMillis 0 (pre ++ [c]) := Nat.cast_nonneg _
  rw [Nat.cast_zero, sub_zero, abs_lt] at hread
  rw [abs_le] at hlost hrounding hgap ⊢
  constructor <;> linarith

-- The cues that are shown are those that last.
theorem shownCues_timed (cs : List CanonicalCue) (h : ∀ c ∈ cs, c.HoursBelow 100000) :
    shownCues (cs.map CanonicalCue.timed)
      = cs.countP (fun c => c.start.total < c.finish.total) := by
  rw [shownCues, List.countP_map]
  refine List.countP_congr fun c hc => ?_
  rw [Function.comp_apply, CanonicalCue.timed, c.lasts_iff (h c hc), decide_eq_true_iff]

-- How far a cue may be from its start when it appears early by a number of
-- milliseconds. Between the tolerance and two milliseconds more, the error decides.
theorem near_iff (w s : ℚ) (lost : Nat)
    (h : |w - (s - lost) / 1000| ≤ (1 + lost : ℚ) / 1000000) :
    |w - s / 1000| ≤ 51 / 1000 ↔ lost ≤ 50 ∨ lost = 51 ∧ s / 1000 - 51 / 1000 ≤ w := by
  rw [abs_le] at h
  rw [abs_le]
  rcases Nat.lt_trichotomy lost 51 with hlt | rfl | hgt
  · have hle : (lost : ℚ) ≤ 50 := by exact_mod_cast Nat.le_of_lt_succ hlt
    have h0 : (0 : ℚ) ≤ lost := Nat.cast_nonneg lost
    constructor
    · intro _
      exact Or.inl (by omega)
    · intro _
      constructor <;> linarith
  · push_cast at h
    constructor
    · intro hw
      exact Or.inr ⟨rfl, by linarith⟩
    · intro hw
      rcases hw with hle | ⟨_, hle⟩
      · omega
      · constructor <;> linarith
  · have hge : (52 : ℚ) ≤ lost := by exact_mod_cast hgt
    constructor
    · rintro ⟨hw, _⟩
      exfalso
      linarith
    · intro hw
      omega

-- Where a cue that lasts stands in the timeline, and when it appears.
theorem shown_early (style : Style) (pre post : List CanonicalCue) (c : CanonicalCue)
    (h : ∀ d ∈ pre ++ c :: post, d.HoursBelow 100000) (hord : Ordered 0 (pre ++ c :: post))
    (hlasts : c.start.total < c.finish.total) :
    ∃ before after x,
      emitted style Binary64.zero ((pre ++ c :: post).map CanonicalCue.timed)
        = before ++ .showText (block style c.cue x) :: after ∧
      shownCount before = pre.countP (fun d => d.start.total < d.finish.total) ∧
      |waited before - ((c.start.total : ℚ) - droppedMillis 0 (pre ++ [c])) / 1000|
        ≤ (1 + droppedMillis 0 (pre ++ [c]) : ℚ) / 1000000 := by
  have hsplit : pre ++ c :: post = (pre ++ [c]) ++ post := by
    rw [List.append_assoc, List.singleton_append]
  have hupto : ∀ d ∈ pre ++ [c], d.HoursBelow 100000 := by
    intro d hd
    refine h d ?_
    rw [hsplit]
    exact List.mem_append_left _ hd
  have hpre : ∀ d ∈ pre, d.HoursBelow 100000 := fun d hd => hupto d (List.mem_append_left _ hd)
  have hc := hupto c (List.mem_append_right _ List.mem_cons_self)
  rw [hsplit, ordered_append] at hord
  have hpos := (c.lasts_iff hc).mpr hlasts
  have hemitted := emitted_eq_of_shown style (pre.map CanonicalCue.timed)
    (post.map CanonicalCue.timed) c.cue c.span (ofMillis 0) hpos
  have htimed : (pre ++ c :: post).map CanonicalCue.timed = pre.map CanonicalCue.timed ++
      (c.cue, c.span) :: post.map CanonicalCue.timed := by
    rw [List.map_append, List.map_cons, CanonicalCue.timed]
  rw [playheadAfter_timed, c.span_start, ← htimed] at hemitted
  rw [← Timestamp.ofMillis_zero]
  refine ⟨_, _, c.span.duration, hemitted, ?_, waited_before_near style pre c hupto hord.1⟩
  rw [shownCount_append, shownCount_emitted, shownCues_timed pre hpre, shownCount_gapWait,
    Nat.add_zero]

/-- Every cue of a timeline in order appears before its start by the gaps that
    are lost up to it, less than a microsecond off and half of one for each of
    their milliseconds. So it appears within the tolerance of its start exactly
    when no more than the tolerance is lost. Only a number that is too long to be
    written keeps the timeline from being made. -/
theorem replay_dropped (style : Style) (cs : List CanonicalCue)
    (h : ∀ c ∈ cs, c.HoursBelow 100000) (hord : Ordered 0 cs) :
    Unwritable style cs ∨ ∃ is, (sequence style (cs.map CanonicalCue.cue)).2 = .ok is ∧
      ∀ pre c post, cs = pre ++ c :: post → c.start.total < c.finish.total →
        ∃ before after x, is = before ++ .showText (block style c.cue x) :: after ∧
          shownCount before = pre.countP (fun d => d.start.total < d.finish.total) ∧
          |waited before - ((c.start.total : ℚ) - droppedMillis 0 (pre ++ [c])) / 1000|
            ≤ (1 + droppedMillis 0 (pre ++ [c]) : ℚ) / 1000000 ∧
          (|waited before - (c.start.total : ℚ) / 1000| ≤ 51 / 1000 ↔
            droppedMillis 0 (pre ++ [c]) ≤ 50 ∨
              droppedMillis 0 (pre ++ [c]) = 51 ∧
                (c.start.total : ℚ) / 1000 - 51 / 1000 ≤ waited before) := by
  refine (sequence_canonical style cs h).imp_right fun hseq => ⟨_, hseq, ?_⟩
  rintro pre c post rfl hlasts
  rcases shown_early style pre post c h hord hlasts with ⟨before, after, x, hsplit, hcount, hnear⟩
  exact ⟨before, after, x, hsplit, hcount, hnear, near_iff _ _ _ hnear⟩

/-- Two cues, each of them fifty milliseconds after what precedes it. -/
def closeCue : CanonicalCue := .ofTotals "a" 50 1000

@[inherit_doc closeCue]
def closerCue : CanonicalCue := .ofTotals "b" 1050 2000

theorem hoursBelow_closeCues : ∀ c ∈ [closeCue, closerCue], c.HoursBelow 100000 := by
  intro c hc
  rcases List.mem_pair.mp hc with rfl | rfl
  · exact CanonicalCue.hoursBelow_ofTotals _ _ _
  · exact CanonicalCue.hoursBelow_ofTotals _ _ _

theorem not_unwritable_closeCues : ¬ Unwritable Style.standard [closeCue, closerCue] := by
  refine not_unwritable _ fun c hc => ?_
  rcases List.mem_pair.mp hc with rfl | rfl <;> rfl

theorem ordered_closeCues : Ordered 0 [closeCue, closerCue] := by
  simp (disch := omega) only [Ordered, closeCue, closerCue, CanonicalCue.ofTotals,
    Timestamp.Canonical.total_ofTotal]
  decide

theorem droppedMillis_closeCues : droppedMillis 0 ([closeCue] ++ [closerCue]) = 100 := by
  simp (disch := omega) only [List.singleton_append, droppedMillis, closeCue, closerCue,
    CanonicalCue.ofTotals, Timestamp.Canonical.total_ofTotal]
  decide

theorem start_closerCue : closerCue.start.total = 1050 :=
  Timestamp.Canonical.total_ofTotal 1050 (by omega)

theorem lasts_closerCue : closerCue.start.total < closerCue.finish.total := by
  simp (disch := omega) only [closerCue, CanonicalCue.ofTotals, Timestamp.Canonical.total_ofTotal]
  decide

theorem replay_dropped_closeCues :
    (∀ c ∈ [closeCue, closerCue], c.HoursBelow 100000) ∧ Ordered 0 [closeCue, closerCue] ∧
      ∃ is, (sequence Style.standard ([closeCue, closerCue].map CanonicalCue.cue)).2 = .ok is ∧
        ∃ before after x,
          is = before ++ .showText (block Style.standard closerCue.cue x) :: after ∧
          shownCount before = [closeCue].countP (fun d => d.start.total < d.finish.total) ∧
          |waited before - 950 / 1000| ≤ 101 / 1000000 := by
  refine ⟨hoursBelow_closeCues, ordered_closeCues, ?_⟩
  rcases (replay_dropped Style.standard [closeCue, closerCue] hoursBelow_closeCues
    ordered_closeCues).resolve_left not_unwritable_closeCues with ⟨is, his, hcues⟩
  rcases hcues [closeCue] closerCue [] rfl lasts_closerCue with
    ⟨before, after, x, hsplit, hcount, hnear, _⟩
  rw [droppedMillis_closeCues, start_closerCue] at hnear
  refine ⟨is, his, before, after, x, hsplit, hcount, ?_⟩
  norm_num at hnear ⊢
  exact hnear

-- Lost gaps are not made up for: a cue may be further from its start than the
-- tolerance, even with a millisecond to spare.
theorem not_near_start :
    ¬ ∀ (style : Style) (cs : List CanonicalCue),
      (∀ c ∈ cs, c.HoursBelow 100000) → Ordered 0 cs →
      ∀ is, (sequence style (cs.map CanonicalCue.cue)).2 = .ok is →
      ∀ pre c post, cs = pre ++ c :: post → c.start.total < c.finish.total →
      ∀ before b after, is = before ++ .showText b :: after →
      shownCount before = pre.countP (fun d => d.start.total < d.finish.total) →
      |waited before - (c.start.total : ℚ) / 1000| ≤ 51 / 1000 := by
  intro hclaim
  rcases shown_early Style.standard [closeCue] [] closerCue hoursBelow_closeCues ordered_closeCues
    lasts_closerCue with ⟨before, after, x, hsplit, hcount, hnear⟩
  have hseq := (sequence_canonical Style.standard [closeCue, closerCue]
    hoursBelow_closeCues).resolve_left not_unwritable_closeCues
  have hlate := hclaim Style.standard [closeCue, closerCue] hoursBelow_closeCues ordered_closeCues
    _ hseq [closeCue] closerCue [] rfl lasts_closerCue before _ after hsplit hcount
  rw [start_closerCue] at hlate
  rw [start_closerCue, droppedMillis_closeCues] at hnear
  rw [abs_le] at hlate hnear
  norm_num at hlate hnear
  linarith

end Timeline

end Captions
