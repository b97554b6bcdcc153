import Captions.Proofs.Outcome
import Captions.Timeline
import Mathlib.Data.List.Basic

/-!
# What a Timeline Emits

The instructions of a timeline, apart from what is noted and from how times
are converted.

`Timeline.sequence` converts the times of the cues as it goes, stops at the
first fault, and mixes instructions with notices. None of that matters to a
statement about the instructions of a timeline that exists. `emitted` is the
same computation on cues whose times are already converted, and
`sequence_eq_ok_iff` says that a timeline exists exactly when all times convert
and all that has to be written can be, and what it then consists of. Every
statement about delays is proved of `emitted` by induction on the cues with the
playhead kept general.

## Main definitions

* `Timed`: A cue with its times in seconds.
* `Expressible`, `Admitted`: All that has to be written can be.
* `gapWait`: The wait for a gap.
* `shown`: The instructions of a cue itself.
* `emitted`: The instructions of cues whose times are converted.
* `timedEvents`: All that such cues contribute.

## Theorems

* `contribution_eq_ok_iff`: When a cue contributes all its events.
* `contribution_eq_error`: Why it does not, if its times convert.
* `instructions_append`: The instructions of one list of events after another.
* `instructions_cueEvents`: The instructions that one cue contributes.
* `events_append`: The events of such cues come before those of others.
* `sequence_eq_ok_iff`: When a timeline exists, and its instructions.
* `fault_of_sequence`: Why it does not, if all times convert.
* `emitted_append`: A timeline splits where its cues do.
-/

namespace Captions

theorem Style.isWritable_standard : Style.standard.isWritable = true := by
  decide +kernel

namespace Timeline

/-- A cue with its times in seconds. -/
abbrev Timed := Cue × Span

/-- The times of every cue are those that its texts denote. -/
def Converted (timed : List Timed) : Prop := ∀ t ∈ timed, t.1.span = .ok t.2

instance (timed : List Timed) : Decidable (Converted timed) :=
  inferInstanceAs (Decidable (∀ t ∈ timed, t.1.span = .ok t.2))

/-- All that has to be written of a cue after a playhead can be. -/
def Expressible (style : Style) (playhead : Binary64) (cue : Cue) (span : Span) : Prop :=
  gapWritable cue (span.start.sub playhead) = true ∧
    blockWritable style cue span.duration = true

/-- All that has to be written of cues from a playhead on can be. -/
def Admitted (style : Style) : Binary64 → List Timed → Prop
  | _, [] => True
  | playhead, (cue, span) :: rest =>
    Expressible style playhead cue span ∧ Admitted style span.finish rest

/-- The wait for a gap, if it is worth one. -/
def gapWait (gap : Binary64) : List Instruction :=
  if worthWaiting gap then [.wait (.double gap)] else []

/-- The instructions of a cue itself, if it lasts. -/
def shown (style : Style) (cue : Cue) (duration : Binary64) : List Instruction :=
  if Binary64.zero.lt duration then
    [.showText (block style cue duration), .wait (.double duration)]
  else []

/-- The instructions of cues from a playhead on. -/
def emitted (style : Style) : Binary64 → List Timed → List Instruction
  | _, [] => []
  | playhead, (cue, span) :: rest =>
    gapWait (span.start.sub playhead) ++ shown style cue span.duration ++
      emitted style span.finish rest

/-- Where the playhead stands after cues. -/
def playheadAfter : Binary64 → List Timed → Binary64
  | playhead, [] => playhead
  | _, (_, span) :: rest => playheadAfter span.finish rest

/-- The events of cues whose times are converted. -/
def timedEvents (style : Style) : Binary64 → List Timed → List Event
  | _, [] => []
  | playhead, (cue, span) :: rest =>
    cueEvents style playhead cue span ++ timedEvents style span.finish rest

/-! ### What has to be written -/

theorem time_ne_longNumber (v : Value) (h : v.isWritable = true) :
    Cue.time v ≠ .error .longNumber := by
  intro hfault
  unfold Cue.time at hfault
  split at hfault
  · rename_i t
    rcases hseconds : Timestamp.seconds t with m | x
    · rw [hseconds] at hfault
      exact absurd (Except.error.inj hfault) Cue.Fault.noConfusion
    · rw [hseconds] at hfault
      exact absurd hfault (by simp only [reduceCtorEq, not_false_eq_true])
  · rw [h] at hfault
    exact absurd (Except.error.inj hfault) Cue.Fault.noConfusion

-- Times that can be written are at most malformed.
theorem span_ne_longNumber (cue : Cue) (h : cue.isWritable = true) :
    cue.span ≠ .error .longNumber := by
  rw [Cue.isWritable, Bool.and_eq_true, Bool.and_eq_true] at h
  have hstart := time_ne_longNumber cue.start h.1.2
  have hfinish := time_ne_longNumber cue.finish h.2
  intro hfault
  rw [Cue.span] at hfault
  rcases hs : Cue.time cue.start with fault | start
  · rw [hs] at hfault hstart
    exact hstart (congrArg Except.error (Except.error.inj hfault))
  · rcases hf : Cue.time cue.finish with fault | finish
    · rw [hs, hf] at hfault
      rw [hf] at hfinish
      exact hfinish (congrArg Except.error (Except.error.inj hfault))
    · rw [hs, hf] at hfault
      exact absurd hfault (ok_ne_error _ _)

/-- A cue contributes all its events when its times convert and all that has to
    be written of it can be. -/
theorem contribution_eq_ok_iff (style : Style) (playhead next : Binary64) (cue : Cue)
    (made : List Event) :
    contribution style playhead cue = (made, .ok next) ↔
      ∃ span, cue.span = .ok span ∧ Expressible style playhead cue span ∧
        made = cueEvents style playhead cue span ∧ next = span.finish := by
  unfold contribution Expressible
  cases cue.span with
  | error fault => simp only [Prod.mk.injEq, reduceCtorEq, and_false, false_and, exists_false]
  | ok span =>
      simp only [Except.ok.injEq, exists_eq_left']
      cases hgap : gapWritable cue (span.start.sub playhead) with
      | false =>
          simp only [Bool.not_false, if_true, Prod.mk.injEq, reduceCtorEq, and_false, false_and]
      | true =>
          cases blockWritable style cue span.duration with
          | false =>
              simp only [Bool.not_true, Bool.false_eq_true, if_false, Bool.not_false, if_true,
                Prod.mk.injEq, reduceCtorEq, and_false, false_and]
          | true =>
              simp only [Bool.not_true, Bool.false_eq_true, if_false, Prod.mk.injEq,
                Except.ok.injEq, true_and, eq_comm]

/-- Without a malformed time, a cue ends the timeline only because something of it
    cannot be written. -/
theorem contribution_eq_error (style : Style) (playhead : Binary64) (cue : Cue) (span : Span)
    (made : List Event) (fault : Cue.Fault) (hspan : cue.span = .ok span)
    (h : contribution style playhead cue = (made, .error fault)) :
    fault = .longNumber ∧ ¬ Expressible style playhead cue span := by
  constructor
  · unfold contribution at h
    rw [hspan] at h
    simp only [] at h
    split at h
    · exact (Except.error.inj (Prod.mk.inj h).2).symm
    · split at h
      · exact (Except.error.inj (Prod.mk.inj h).2).symm
      · exact absurd (Prod.mk.inj h).2 (by simp only [reduceCtorEq, not_false_eq_true])
  · intro hcue
    rw [(contribution_eq_ok_iff style playhead _ cue _).mpr ⟨span, hspan, hcue, rfl, rfl⟩] at h
    exact absurd (Prod.mk.inj h).2 (by simp only [reduceCtorEq, not_false_eq_true])

/-- What a cue contributes up to a fault is what its events begin with. -/
theorem contribution_prefix (style : Style) (playhead : Binary64) (cue : Cue) (span : Span)
    (hspan : cue.span = .ok span) :
    ∃ rest, cueEvents style playhead cue span = (contribution style playhead cue).1 ++ rest := by
  unfold contribution
  rw [hspan]
  cases hgap : gapWritable cue (span.start.sub playhead) with
  | false =>
      refine ⟨cueEvents style playhead cue span, ?_⟩
      simp only [hgap, Bool.not_false, if_true, List.nil_append]
  | true =>
      cases hblock : blockWritable style cue span.duration with
      | false =>
          refine ⟨blockEvents style cue span.duration, ?_⟩
          simp only [hgap, hblock, Bool.not_true, Bool.false_eq_true, if_false, Bool.not_false,
            if_true, cueEvents]
      | true =>
          refine ⟨[], ?_⟩
          simp only [hgap, hblock, Bool.not_true, Bool.false_eq_true, if_false, List.append_nil]

/-- If the style and the cues can be written at all, whatever has to be of them
    can be. -/
theorem admitted_of_isWritable (style : Style) (timed : List Timed)
    (hstyle : style.isWritable = true) (hcues : ∀ t ∈ timed, t.1.isWritable = true) :
    ∀ playhead, Admitted style playhead timed := by
  induction timed with
  | nil => intro playhead; exact trivial
  | cons t timed ih =>
      intro playhead
      have hcue := hcues t List.mem_cons_self
      refine ⟨⟨?_, ?_⟩, ih (fun u hu => hcues u (List.mem_cons_of_mem t hu)) _⟩
      · rw [gapWritable, hcue, Bool.or_true]
      · rw [blockWritable, hstyle, hcue, ite_self]

/-- Nor does a number in them end the timeline, whatever their times are. -/
theorem fault_of_isWritable (style : Style) (cues : List Cue) (hstyle : style.isWritable = true)
    (hcues : ∀ cue ∈ cues, cue.isWritable = true) :
    ∀ playhead, (events style playhead cues).2 ≠ some .longNumber := by
  induction cues with
  | nil => intro playhead; exact (Option.some_ne_none _).symm
  | cons cue cues ih =>
      intro playhead
      have hcue := hcues cue List.mem_cons_self
      rw [events]
      rcases hspan : cue.span with fault | span
      · have hnot := span_ne_longNumber cue hcue
        rw [contribution, hspan]
        rw [hspan] at hnot
        exact fun heq => hnot (congrArg Except.error (Option.some.inj heq))
      · have hmade := (contribution_eq_ok_iff style playhead _ cue _).mpr
          ⟨span, hspan, ⟨by rw [gapWritable, hcue, Bool.or_true],
            by rw [blockWritable, hstyle, hcue, ite_self]⟩, rfl, rfl⟩
        rw [hmade]
        exact ih (fun d hd => hcues d (List.mem_cons_of_mem cue hd)) span.finish

theorem admitted_append (style : Style) (xs ys : List Timed) :
    ∀ playhead, Admitted style playhead (xs ++ ys) ↔
      Admitted style playhead xs ∧ Admitted style (playheadAfter playhead xs) ys := by
  induction xs with
  | nil => intro playhead; exact (iff_of_eq (true_and _)).symm
  | cons t xs ih => intro playhead; exact (and_congr_right fun _ => ih _).trans and_assoc.symm

/-! ### Instructions and events -/

theorem instructions_append (es fs : List Event) :
    instructions (es ++ fs) = instructions es ++ instructions fs := by
  induction es with
  | nil => rfl
  | cons e es ih =>
      cases e with
      | emit i => rw [List.cons_append, instructions, instructions, ih, List.cons_append]
      | note n => rw [List.cons_append, instructions, instructions, ih]

theorem instructions_gapEvents (cue : Cue) (gap : Binary64) :
    instructions (gapEvents cue gap) = gapWait gap := by
  unfold gapEvents gapWait
  split
  · rfl
  · split <;> rfl

theorem instructions_blockEvents (style : Style) (cue : Cue) (duration : Binary64) :
    instructions (blockEvents style cue duration) = shown style cue duration := by
  unfold blockEvents shown
  split <;> rfl

theorem instructions_cueEvents (style : Style) (playhead : Binary64) (cue : Cue) (span : Span) :
    instructions (cueEvents style playhead cue span)
      = gapWait (span.start.sub playhead) ++ shown style cue span.duration := by
  rw [cueEvents, instructions_append, instructions_gapEvents, instructions_blockEvents]

/-- The events of cues that contribute all of theirs come first, and those of the
    cues after them are made as if the timeline began where these end. -/
theorem events_append (style : Style) (rest : List Cue) (timed : List Timed)
    (h : Converted timed) :
    ∀ playhead, Admitted style playhead timed →
      events style playhead (timed.map Prod.fst ++ rest)
        = (timedEvents style playhead timed ++
            (events style (playheadAfter playhead timed) rest).1,
          (events style (playheadAfter playhead timed) rest).2) := by
  induction timed with
  | nil => intro playhead _; rfl
  | cons t timed ih =>
      rintro playhead ⟨hcue, hadmitted⟩
      have hmade := (contribution_eq_ok_iff style playhead _ t.1 _).mpr
        ⟨t.2, h t List.mem_cons_self, hcue, rfl, rfl⟩
      have hrest := ih (fun u hu => h u (List.mem_cons_of_mem t hu)) t.2.finish hadmitted
      rw [List.map_cons, List.cons_append, events, hmade]
      simp only []
      rw [hrest, timedEvents, playheadAfter, List.append_assoc]

theorem events_converted (style : Style) (timed : List Timed) (h : Converted timed)
    (playhead : Binary64) (hadmitted : Admitted style playhead timed) :
    events style playhead (timed.map Prod.fst) = (timedEvents style playhead timed, none) := by
  have happend := events_append style [] timed h playhead hadmitted
  rw [List.append_nil] at happend
  rw [happend, events, List.append_nil]

-- Converted times leave only one fault.
theorem fault_of_converted (style : Style) (timed : List Timed) (h : Converted timed) :
    ∀ playhead fault, (events style playhead (timed.map Prod.fst)).2 = some fault →
      fault = .longNumber ∧ ¬ Admitted style playhead timed := by
  induction timed with
  | nil =>
      intro playhead fault hfault
      exact absurd hfault.symm (Option.some_ne_none fault)
  | cons t timed ih =>
      intro playhead fault hfault
      have hspan : t.1.span = .ok t.2 := h t List.mem_cons_self
      rw [List.map_cons, events] at hfault
      rcases hmade : contribution style playhead t.1 with ⟨made, found | next⟩
      · rw [hmade] at hfault
        rcases contribution_eq_error style playhead t.1 t.2 made found hspan hmade with
          ⟨hlong, hcue⟩
        exact ⟨(Option.some.inj hfault).symm.trans hlong, fun hadmitted => hcue hadmitted.1⟩
      · rw [hmade] at hfault
        rcases (contribution_eq_ok_iff style playhead next t.1 made).mp hmade with
          ⟨span, hspan', -, -, rfl⟩
        rw [hspan, Except.ok.injEq] at hspan'
        subst hspan'
        rcases ih (fun u hu => h u (List.mem_cons_of_mem t hu)) _ fault hfault with ⟨hlong, hrest⟩
        exact ⟨hlong, fun hadmitted => hrest hadmitted.2⟩

theorem instructions_timedEvents (style : Style) (timed : List Timed) :
    ∀ playhead, instructions (timedEvents style playhead timed) = emitted style playhead timed := by
  induction timed with
  | nil => intro playhead; rfl
  | cons t timed ih =>
      intro playhead
      rw [timedEvents, instructions_append, instructions_cueEvents, ih, emitted]

-- Events without a fault come from cues that contribute all of theirs.
theorem admitted_of_events (style : Style) (cues : List Cue) :
    ∀ playhead, (events style playhead cues).2 = none →
      ∃ timed, timed.map Prod.fst = cues ∧ Converted timed ∧ Admitted style playhead timed := by
  induction cues with
  | nil =>
      intro playhead _
      exact ⟨[], rfl, fun t ht => absurd ht List.not_mem_nil, trivial⟩
  | cons cue cues ih =>
      intro playhead h
      rw [events] at h
      rcases hmade : contribution style playhead cue with ⟨made, fault | next⟩
      · rw [hmade] at h
        exact absurd h (Option.some_ne_none fault)
      · rw [hmade] at h
        rcases (contribution_eq_ok_iff style playhead next cue made).mp hmade with
          ⟨span, hspan, hcue, -, rfl⟩
        rcases ih span.finish h with ⟨timed, hmap, hconv, hadmitted⟩
        refine ⟨(cue, span) :: timed, by rw [List.map_cons, hmap], ?_, hcue, hadmitted⟩
        intro t ht
        rcases List.mem_cons.mp ht with rfl | ht
        · exact hspan
        · exact hconv t ht

/-- The cues make a timeline exactly when all their times convert and all that
    has to be written can be, and then it consists of what they emit from zero
    on. -/
theorem sequence_eq_ok_iff (style : Style) (cues : List Cue) (is : List Instruction) :
    (sequence style cues).2 = .ok is ↔
      ∃ timed, timed.map Prod.fst = cues ∧ Converted timed ∧
        Admitted style Binary64.zero timed ∧ is = emitted style Binary64.zero timed := by
  have hsome : ∀ timed, Converted timed → Admitted style Binary64.zero timed →
      (sequence style (timed.map Prod.fst)).2 = .ok (emitted style Binary64.zero timed) := by
    intro timed hconv hadmitted
    rw [sequence, events_converted style timed hconv _ hadmitted]
    simp only []
    rw [instructions_timedEvents]
  constructor
  · intro h
    have hnone : (events style Binary64.zero cues).2 = none := by
      rcases hev : events style Binary64.zero cues with ⟨es, _ | fault⟩
      · rfl
      · rw [sequence, hev] at h
        exact absurd h (by simp only [reduceCtorEq, not_false_eq_true])
    rcases admitted_of_events style cues Binary64.zero hnone with ⟨timed, rfl, hconv, hadmitted⟩
    exact ⟨timed, rfl, hconv, hadmitted,
      Except.ok.inj (h.symm.trans (hsome timed hconv hadmitted))⟩
  · rintro ⟨timed, rfl, hconv, hadmitted, rfl⟩
    exact hsome timed hconv hadmitted

/-- Cues with these times fail to make a timeline only where something cannot be
    written. -/
theorem fault_of_sequence (style : Style) (timed : List Timed) (hconv : Converted timed)
    (fault : Cue.Fault) (h : (sequence style (timed.map Prod.fst)).2 = .error fault) :
    fault = .longNumber ∧ ¬ Admitted style Binary64.zero timed := by
  refine fault_of_converted style timed hconv Binary64.zero fault ?_
  rcases hev : events style Binary64.zero (timed.map Prod.fst) with ⟨es, _ | found⟩
  · rw [sequence, hev] at h
    exact absurd h (by simp only [reduceCtorEq, not_false_eq_true])
  · rw [sequence, hev] at h
    exact congrArg some (Except.error.inj h)

/-- A style and cues that can be written leave only malformed times to fail at. -/
theorem sequence_of_isWritable (style : Style) (cues : List Cue) (hstyle : style.isWritable = true)
    (hcues : ∀ cue ∈ cues, cue.isWritable = true) :
    (sequence style cues).2 ≠ .error .longNumber := by
  have hnot := fault_of_isWritable style cues hstyle hcues Binary64.zero
  rcases hev : events style Binary64.zero cues with ⟨es, _ | fault⟩
  · rw [sequence, hev]
    exact ok_ne_error _ _
  · rw [hev] at hnot
    rw [sequence, hev]
    exact fun heq => hnot (congrArg some (Except.error.inj heq))

/-- The times of cues are determined by the cues. -/
theorem converted_unique (xs ys : List Timed) (hx : Converted xs) (hy : Converted ys)
    (h : xs.map Prod.fst = ys.map Prod.fst) : xs = ys := by
  induction xs generalizing ys with
  | nil => exact (List.map_eq_nil_iff.mp h.symm).symm
  | cons t xs ih =>
      cases ys with
      | nil => exact absurd h (List.cons_ne_nil _ _)
      | cons u ys =>
          rw [List.map_cons, List.map_cons, List.cons.injEq] at h
          have ht : t.1.span = .ok t.2 := hx t List.mem_cons_self
          have hu : u.1.span = .ok u.2 := hy u List.mem_cons_self
          rw [h.1, hu, Except.ok.injEq] at ht
          rw [ih ys (fun v hv => hx v (List.mem_cons_of_mem t hv))
            (fun v hv => hy v (List.mem_cons_of_mem u hv)) h.2, Prod.ext h.1 ht.symm]

/-- A timeline of cues with these times consists of what they emit. -/
theorem emitted_of_sequence (style : Style) (timed : List Timed) (is : List Instruction)
    (hconv : Converted timed) (h : (sequence style (timed.map Prod.fst)).2 = .ok is) :
    is = emitted style Binary64.zero timed := by
  rcases (sequence_eq_ok_iff style _ is).mp h with ⟨other, hmap, hother, -, rfl⟩
  rw [converted_unique other timed hother hconv hmap]

theorem emitted_append (style : Style) (xs ys : List Timed) :
    ∀ playhead, emitted style playhead (xs ++ ys)
      = emitted style playhead xs ++ emitted style (playheadAfter playhead xs) ys := by
  induction xs with
  | nil => intro playhead; rfl
  | cons t xs ih =>
      intro playhead
      rw [List.cons_append, emitted, emitted, playheadAfter, ih, List.append_assoc,
        List.append_assoc, List.append_assoc]

theorem playheadAfter_append (xs ys : List Timed) :
    ∀ playhead, playheadAfter playhead (xs ++ ys)
      = playheadAfter (playheadAfter playhead xs) ys := by
  induction xs with
  | nil => intro playhead; rfl
  | cons t xs ih =>
      intro playhead
      rw [List.cons_append, playheadAfter, playheadAfter, ih]

end Timeline

end Captions
