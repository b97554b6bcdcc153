import Captions.Proofs.Timeline.Emitted
import Captions.Proofs.Timeline.Tolerance
import Captions.Proofs.Timestamp.Canonical

/-!
# Timelines in Whole Milliseconds

What a timeline ought to be when every time is a whole number of milliseconds,
and that the computation in double precision makes exactly that.

`plan` is the timeline without doubles: the same rule for gaps and for cues,
with integers for times. A cue whose times are canonical timestamps has such
times, in any order and with any overlap, and `sequence_realises_plan` says
that the instructions are those of the plan, one for one. Each delay and each
duration is a double less than a microsecond away from the plan's.

The two decisions of the timeline are where rounding could do harm, since a
gap of fifty milliseconds and a cue of none are each on the edge of one. A
difference of two times is off by less than half a microsecond
(`sub_ofMillis_near`), and that is close enough for `worthWaiting_iff`. A cue
that does not last is no matter of closeness: equal times are read as equal
doubles, whose difference is exactly zero.

## Main definitions

* `CanonicalCue`: A cue whose times are canonical timestamps.
* `Step`: An instruction in whole milliseconds.
* `plan`: The timeline in whole milliseconds.
* `Unwritable`: Cues make no timeline, because of a number that is too long.
* `Within`: A double less than a microsecond away from milliseconds.
* `Realises`: An instruction is the one that a step describes.

## Theorems

* `sub_ofMillis_near`: A difference of two times is off by very little.
* `duration_pos_iff`: A cue lasts when its end lies after its start.
* `worthWaiting_ofMillis`: A gap is worth a wait when it exceeds the tolerance.
* `sequence_realises_plan`: The timeline is the one in whole milliseconds.
-/

namespace Captions

namespace Timeline

open Timestamp (Canonical ofMillis value_ofMillis_sub_near)

/-- A cue whose times are canonical timestamps. -/
structure CanonicalCue where
  /-- The cue's number, or what stands in its place. -/
  index : Value
  /-- The time at which it appears. -/
  start : Canonical
  /-- The time at which it disappears. -/
  finish : Canonical
  /-- What is shown. -/
  text : Text

namespace CanonicalCue

/-- The cue as it is sequenced. -/
def cue (c : CanonicalCue) : Cue := ⟨c.index, .text c.start.text, .text c.finish.text, c.text⟩

/-- Both times have fewer hours than a limit. -/
def HoursBelow (n : Nat) (c : CanonicalCue) : Prop :=
  Text.ofDigits c.start.hours < n ∧ Text.ofDigits c.finish.hours < n

theorem totals_lt (c : CanonicalCue) (n : Nat) (h : c.HoursBelow n) :
    c.start.total < n * 3600000 ∧ c.finish.total < n * 3600000 :=
  ⟨c.start.total_lt n h.1, c.finish.total_lt n h.2⟩

/-- The times in seconds. -/
def span (c : CanonicalCue) : Span := ⟨ofMillis c.start.total, ofMillis c.finish.total⟩

theorem span_start (c : CanonicalCue) : c.span.start = ofMillis c.start.total := by
  rw [span]

theorem span_finish (c : CanonicalCue) : c.span.finish = ofMillis c.finish.total := by
  rw [span]

theorem span_duration (c : CanonicalCue) :
    c.span.duration = (ofMillis c.finish.total).sub (ofMillis c.start.total) := by
  rw [Span.duration, span]

/-- A cue with two-digit hours, given by the milliseconds of its times. -/
def ofTotals (text : Text) (start finish : Nat) : CanonicalCue :=
  ⟨.null, .ofTotal start, .ofTotal finish, text⟩

theorem hoursBelow_ofTotals (text : Text) (start finish : Nat) :
    (ofTotals text start finish).HoursBelow 100000 := by
  constructor
  · exact Nat.lt_trans (Canonical.hours_ofTotal_lt start) (by omega)
  · exact Nat.lt_trans (Canonical.hours_ofTotal_lt finish) (by omega)

/-- The cue with its times in seconds. -/
def timed (c : CanonicalCue) : Timed := (c.cue, c.span)

theorem span_cue (c : CanonicalCue) (h : c.HoursBelow 100000) : c.cue.span = .ok c.span := by
  have hstart : Cue.time c.cue.start = .ok (ofMillis c.start.total) :=
    Cue.time_text _ _ (Timestamp.seconds_text c.start h.1)
  have hfinish : Cue.time c.cue.finish = .ok (ofMillis c.finish.total) :=
    Cue.time_text _ _ (Timestamp.seconds_text c.finish h.2)
  rw [Cue.span, hstart, hfinish]
  rfl

theorem converted (cs : List CanonicalCue) (h : ∀ c ∈ cs, c.HoursBelow 100000) :
    Converted (cs.map timed) := by
  intro t ht
  rcases List.mem_map.mp ht with ⟨c, hc, rfl⟩
  exact span_cue c (h c hc)

/-- The cue can be written if its number can. -/
theorem isWritable_cue (c : CanonicalCue) (h : c.index.isWritable = true) :
    c.cue.isWritable = true :=
  Bool.and_eq_true_iff.mpr ⟨Bool.and_eq_true_iff.mpr ⟨h, rfl⟩, rfl⟩

end CanonicalCue

/-- Cues make no timeline, because a number in the style or that of a cue has too
    many digits. -/
def Unwritable (style : Style) (cs : List CanonicalCue) : Prop :=
  (sequence style (cs.map CanonicalCue.cue)).2 = .error .longNumber ∧
    ¬ (style.isWritable = true ∧ ∀ c ∈ cs, c.index.isWritable = true)

/-- Cues with canonical times make a timeline, unless they cannot be written. -/
theorem sequence_canonical (style : Style) (cs : List CanonicalCue)
    (h : ∀ c ∈ cs, c.HoursBelow 100000) :
    Unwritable style cs ∨ (sequence style (cs.map CanonicalCue.cue)).2
      = .ok (emitted style Binary64.zero (cs.map CanonicalCue.timed)) := by
  have hconv := CanonicalCue.converted cs h
  have hcues : cs.map CanonicalCue.cue = (cs.map CanonicalCue.timed).map Prod.fst := by
    rw [List.map_map]
    rfl
  rcases hseq : (sequence style (cs.map CanonicalCue.cue)).2 with fault | is
  · rw [hcues] at hseq
    rcases fault_of_sequence style _ hconv fault hseq with ⟨rfl, hadmitted⟩
    refine Or.inl ⟨hcues ▸ hseq, fun ⟨hstyle, hindices⟩ => hadmitted ?_⟩
    refine admitted_of_isWritable style _ hstyle (fun t ht => ?_) Binary64.zero
    rcases List.mem_map.mp ht with ⟨c, hc, rfl⟩
    exact c.isWritable_cue (hindices c hc)
  · rw [hcues] at hseq
    rw [emitted_of_sequence style _ is hconv hseq]
    exact Or.inr rfl

/-- Cues without numbers can be written in the standard style. -/
theorem not_unwritable (cs : List CanonicalCue) (h : ∀ c ∈ cs, c.index = .null) :
    ¬ Unwritable Style.standard cs := by
  refine fun hno => hno.2 ⟨Style.isWritable_standard, fun c hc => ?_⟩
  rw [h c hc]
  rfl

/-- The difference of two times is off by less than half a microsecond. -/
theorem sub_ofMillis_near (a b : Nat) (ha : a < 360000000000) (hb : b < 360000000000) :
    ((ofMillis a).sub (ofMillis b)).isFinite = true ∧
      |((ofMillis a).sub (ofMillis b)).value - ((a : Int) - b : Int) / 1000| < 1 / 2000000 := by
  have hfa := (Timestamp.ofMillis_near a (by omega)).1
  have hfb := (Timestamp.ofMillis_near b (by omega)).1
  have hnear := value_ofMillis_sub_near a b ha hb
  have haq : (a : ℚ) < 360000000000 := by exact_mod_cast ha
  have hbq : (b : ℚ) < 360000000000 := by exact_mod_cast hb
  have ha0 : (0 : ℚ) ≤ a := Nat.cast_nonneg a
  have hb0 : (0 : ℚ) ≤ b := Nat.cast_nonneg b
  rw [abs_lt] at hnear
  have hsize : |(ofMillis a).value - (ofMillis b).value| ≤ 400000000 := by
    rw [abs_le]
    constructor <;> linarith
  have hfin := Binary64.isFinite_sub _ _ hfa hfb (le_trans hsize (by norm_num))
  refine ⟨hfin, ?_⟩
  have hround := Binary64.sub_near _ _ hfin
  have hsmall : |(ofMillis a).value - (ofMillis b).value| / 2 ^ 53 ≤ 400000000 / 2 ^ 53 :=
    div_le_div_of_nonneg_right hsize (by norm_num)
  rw [abs_le] at hround
  push_cast
  rw [abs_lt]
  constructor <;> linarith

/-- A cue lasts exactly when its end lies after its start. -/
theorem duration_pos_iff (a b : Nat) (ha : a < 360000000000) (hb : b < 360000000000) :
    Binary64.zero.lt ((ofMillis b).sub (ofMillis a)) = true ↔ a < b := by
  rcases sub_ofMillis_near b a hb ha with ⟨hfin, hnear⟩
  rw [Binary64.lt_iff_value _ _ rfl hfin, Binary64.value_zero]
  push_cast at hnear
  rw [abs_lt] at hnear
  rcases Nat.lt_trichotomy a b with hlt | heq | hgt
  · have : (a : ℚ) + 1 ≤ b := by exact_mod_cast hlt
    simp only [hlt, iff_true]
    linarith
  · -- Equal times are the same double, and nothing is left of it.
    have hround := Binary64.sub_near _ _ hfin
    rw [heq, sub_self, sub_zero, abs_zero, zero_div] at hround
    have hzero := abs_nonpos_iff.mp hround
    rw [heq, hzero]
    simp only [lt_irrefl]
  · have : (b : ℚ) + 1 ≤ a := by exact_mod_cast hgt
    have hnot : ¬ a < b := by omega
    simp only [hnot, iff_false, not_lt]
    linarith

theorem CanonicalCue.lasts_iff (c : CanonicalCue) (h : c.HoursBelow 100000) :
    Binary64.zero.lt c.span.duration = true ↔ c.start.total < c.finish.total := by
  rcases c.totals_lt 100000 h with ⟨hs, hf⟩
  rw [c.span_duration]
  exact duration_pos_iff c.start.total c.finish.total hs hf

/-- A gap is worth a wait exactly when it is longer than fifty milliseconds. -/
theorem worthWaiting_ofMillis (a b : Nat) (ha : a < 360000000000) (hb : b < 360000000000) :
    worthWaiting ((ofMillis a).sub (ofMillis b)) = true ↔ 50 < (a : Int) - b := by
  rcases sub_ofMillis_near a b ha hb with ⟨hfin, hnear⟩
  exact worthWaiting_iff _ _ hfin (by omega) hnear

/-- An instruction in whole milliseconds. -/
inductive Step where
  /-- Wait for a number of milliseconds. -/
  | wait (ms : Int)
  /-- Show a cue for a number of milliseconds. -/
  | display (cue : CanonicalCue) (ms : Int)

/-- The step of the gap before a cue: a wait if it is more than fifty
    milliseconds. -/
def gapSteps (playhead : Nat) (c : CanonicalCue) : List Step :=
  if 50 < (c.start.total : Int) - playhead then [.wait (c.start.total - playhead)] else []

/-- The steps of a cue itself: shown, and waited for, if it lasts. -/
def cueSteps (c : CanonicalCue) : List Step :=
  if c.start.total < c.finish.total then
    [.display c (c.finish.total - c.start.total), .wait (c.finish.total - c.start.total)]
  else []

/-- The timeline in whole milliseconds from a playhead on. -/
def plan : Nat → List CanonicalCue → List Step
  | _, [] => []
  | playhead, c :: cs => gapSteps playhead c ++ cueSteps c ++ plan c.finish.total cs

/-- A double less than a microsecond away from a number of milliseconds. -/
def Within (x : Binary64) (ms : Int) : Prop :=
  x.isFinite = true ∧ |x.value - (ms : ℚ) / 1000| < 1 / 1000000

/-- An instruction is the one that a step describes, up to a microsecond. -/
def Realises (style : Style) : Step → Instruction → Prop
  | .wait ms, i => ∃ x, i = .wait (.double x) ∧ Within x ms
  | .display c ms, i => ∃ x, i = .showText (block style c.cue x) ∧ Within x ms

theorem within_sub_ofMillis (a b : Nat) (ha : a < 360000000000) (hb : b < 360000000000) :
    Within ((ofMillis a).sub (ofMillis b)) ((a : Int) - b) := by
  rcases sub_ofMillis_near a b ha hb with ⟨hfin, hnear⟩
  exact ⟨hfin, lt_trans hnear (by norm_num)⟩

theorem gapWait_realises (style : Style) (playhead : Nat) (c : CanonicalCue)
    (hp : playhead < 360000000000) (hs : c.start.total < 360000000000) :
    List.Forall₂ (Realises style) (gapSteps playhead c)
      (gapWait ((ofMillis c.start.total).sub (ofMillis playhead))) := by
  have hiff := worthWaiting_ofMillis c.start.total playhead hs hp
  unfold gapSteps gapWait
  by_cases h : 50 < (c.start.total : Int) - playhead
  · rw [if_pos h, if_pos (hiff.mpr h)]
    exact List.Forall₂.cons ⟨_, rfl, within_sub_ofMillis _ _ hs hp⟩ List.Forall₂.nil
  · rw [if_neg h, if_neg (fun hw => h (hiff.mp hw))]
    exact List.Forall₂.nil

theorem shown_realises (style : Style) (c : CanonicalCue) (hc : c.HoursBelow 100000) :
    List.Forall₂ (Realises style) (cueSteps c) (shown style c.cue c.span.duration) := by
  rcases c.totals_lt 100000 hc with ⟨hs, hf⟩
  have hiff := c.lasts_iff hc
  have hwithin := within_sub_ofMillis c.finish.total c.start.total hf hs
  rw [← c.span_duration] at hwithin
  unfold cueSteps shown
  by_cases h : c.start.total < c.finish.total
  · rw [if_pos h, if_pos (hiff.mpr h)]
    exact List.Forall₂.cons ⟨_, rfl, hwithin⟩
      (List.Forall₂.cons ⟨_, rfl, hwithin⟩ List.Forall₂.nil)
  · rw [if_neg h, if_neg (fun hlt => h (hiff.mp hlt))]
    exact List.Forall₂.nil

theorem emitted_timed_cons (style : Style) (playhead : Binary64) (c : CanonicalCue)
    (cs : List CanonicalCue) :
    emitted style playhead ((c :: cs).map CanonicalCue.timed)
      = gapWait ((ofMillis c.start.total).sub playhead) ++ shown style c.cue c.span.duration ++
        emitted style (ofMillis c.finish.total) (cs.map CanonicalCue.timed) := by
  rw [List.map_cons, CanonicalCue.timed, emitted, c.span_start, c.span_finish]

-- One cue keeps the two timelines together, so a list of them does.
theorem emitted_realises (style : Style) (cs : List CanonicalCue)
    (h : ∀ c ∈ cs, c.HoursBelow 100000) :
    ∀ playhead < 360000000000, List.Forall₂ (Realises style) (plan playhead cs)
      (emitted style (ofMillis playhead) (cs.map CanonicalCue.timed)) := by
  induction cs with
  | nil => intro playhead _; exact List.Forall₂.nil
  | cons c cs ih =>
      intro playhead hp
      have hc := h c List.mem_cons_self
      rcases c.totals_lt 100000 hc with ⟨hs, hf⟩
      have hrest := ih (fun d hd => h d (List.mem_cons_of_mem c hd)) c.finish.total hf
      have hcue := List.rel_append (gapWait_realises style playhead c hp hs)
        (shown_realises style c hc)
      rw [plan, emitted_timed_cons]
      exact List.rel_append hcue hrest

/-- A gap of exactly the tolerance, one that is a millisecond longer and leads
    to a cue that ends before it starts, and an overlap. -/
def narrowGaps : List CanonicalCue :=
  [ .ofTotals "a" 50 1000, .ofTotals "b" 1051 1001,
    .ofTotals "c" 700 1234 ]

end Timeline

end Captions
