import Captions.Proofs.Timeline.Segments
import Captions.Proofs.Value.Writable

/-!
# Timelines Read Instruction by Instruction

A timeline can be made as a whole or one instruction at a time, and the two
agree: in the instructions, in what is noted and where among them it is noted,
and in the fault that ends both.

Reading stops in the middle of a cue, after its gap or between its block and
the wait for it, and the next instruction may need several more cues, or a cue
whose time turns out to be malformed. None of these places is told apart here.
`Cursor.ahead` is the list of all events that a place has still to read, made
or not, and `Answers` says what an answer has to do with it: an instruction is
the first one ahead, its notices are those in front of it, and what remains is
ahead of the place after it. `pull_answers` is that step, by induction on the
cues that are taken up for one instruction, and `take_eq` the run, by induction
on the number of instructions asked for.

That the two agree on failure too rests on two properties of `events`. Both times
of a cue are converted before the cue makes an event, so a cue with a malformed
end adds nothing to what is ahead, even if its gap would be worth a wait. And a
timeline that has ended is not taken up again, so what follows a fault does not
matter.

A malformed time is not the only fault. A number that is too long to be written
ends the timeline of cues whose times are all good, and it then stands in for the
malformed time of a later cue.

## Main definitions

* `eventsFrom`: What cues contribute, unless the timeline has ended.
* `Cursor.ahead`, `Cursor.fault?`: What a place has still to read.
* `Answers`: An answer agrees with the events ahead.
* `grouped`: Events by the instruction they lead to.
* `Readout.upTo`: What is read of a timeline up to a number of instructions.
* `FailsWith`: A time of a cue does not convert.

## Theorems

* `pull_answers`: An answer agrees with the events ahead of a place.
* `take_eq`: What is read from a place on.
* `take_sequence`: Reading one by one agrees with making the whole timeline.
* `not_always_malformed`: A malformed time may stay undiscovered.
-/

namespace Captions

namespace Timeline

/-- What cues contribute from a playhead on, and the fault that ends them. Once the
    timeline has ended they contribute nothing. -/
def eventsFrom (style : Style) :
    Except Cue.Fault Binary64 → List Cue → List Event × Option Cue.Fault
  | .error fault, _ => ([], some fault)
  | .ok playhead, cues => events style playhead cues

/-- The events ahead of a place: those made and not yet read, and those of the
    cues not yet taken up. -/
def Cursor.ahead (style : Style) (c : Cursor) : List Event :=
  c.pending ++ (eventsFrom style c.playhead c.cues).1

/-- The fault after the events ahead of a place, if there is one. -/
def Cursor.fault? (style : Style) (c : Cursor) : Option Cue.Fault :=
  (eventsFrom style c.playhead c.cues).2

/-- An answer agrees with the events ahead and with the fault after them: its
    notices come first, then its instruction, and what remains is ahead of the
    place it leads to. -/
def Answers (style : Style) (ahead : List Event) (fault : Option Cue.Fault) :
    List Notice × Pulled → Prop
  | (notes, .instruction i rest) =>
    ahead = notes.map Event.note ++ .emit i :: rest.ahead style ∧ rest.fault? style = fault
  | (notes, .ended) => ahead = notes.map Event.note ∧ fault = none
  | (notes, .failed found) => ahead = notes.map Event.note ∧ fault = some found

/-- One more notice in front of events already grouped. -/
def noteFirst (n : Notice) :
    List (Instruction × List Notice) × List Notice → List (Instruction × List Notice) × List Notice
  | ([], closing) => ([], n :: closing)
  | ((i, notes) :: steps, closing) => ((i, n :: notes) :: steps, closing)

/-- Events by the instruction they lead to: each instruction with the notices
    in front of it, and the notices after the last one. -/
def grouped : List Event → List (Instruction × List Notice) × List Notice
  | [] => ([], [])
  | .emit i :: rest => ((i, []) :: (grouped rest).1, (grouped rest).2)
  | .note n :: rest => noteFirst n (grouped rest)

/-- How a reading ends when no events are left. -/
def Ending.ofFault : Option Cue.Fault → Ending
  | none => .ended
  | some fault => .failed fault

/-- What is read of a timeline when at most `count` instructions are asked for.
    The end is noticed only when more are asked for than there are, and then
    the closing notices are read as well. -/
def Readout.upTo (steps : List (Instruction × List Notice)) (closing : List Notice)
    (ending : Ending) (count : Nat) : Readout :=
  if count ≤ steps.length then ⟨steps.take count, .taken, []⟩ else ⟨steps, ending, closing⟩

/-- The start of a cue does not convert, or only its end does not. -/
def FailsWith (cue : Cue) (fault : Cue.Fault) : Prop :=
  Cue.time cue.start = .error fault ∨
    (∃ start, Cue.time cue.start = .ok start) ∧ Cue.time cue.finish = .error fault

/-! ### One instruction -/

theorem nextEmitted_nil : nextEmitted [] = ([], none) := rfl

theorem eq_of_nextEmitted_some (es : List Event) (i : Instruction) (rest : List Event) :
    ∀ notes, nextEmitted es = (notes, some (i, rest)) →
      es = notes.map Event.note ++ .emit i :: rest := by
  induction es with
  | nil =>
      intro notes h
      exact absurd (congrArg Prod.snd h).symm (Option.some_ne_none (i, rest))
  | cons e es ih =>
      intro notes h
      cases e with
      | emit j =>
          rw [nextEmitted, Prod.mk.injEq, Option.some.injEq, Prod.mk.injEq] at h
          rw [← h.1, h.2.1, h.2.2]
          rfl
      | note n =>
          rw [nextEmitted, Prod.mk.injEq] at h
          rw [← h.1, List.map_cons, List.cons_append, ← ih _ (Prod.ext rfl h.2)]

theorem eq_of_nextEmitted_none (es : List Event) :
    ∀ notes, nextEmitted es = (notes, none) → es = notes.map Event.note := by
  induction es with
  | nil =>
      intro notes h
      rw [nextEmitted_nil, Prod.mk.injEq] at h
      rw [← h.1]
      rfl
  | cons e es ih =>
      intro notes h
      cases e with
      | emit j => exact absurd (congrArg Prod.snd h) (Option.some_ne_none (j, es))
      | note n =>
          rw [nextEmitted, Prod.mk.injEq] at h
          rw [← h.1, List.map_cons, ← ih _ (Prod.ext rfl h.2)]

-- Notices in front of the events ahead are notices in front of the answer.
theorem answers_append (style : Style) (ahead : List Event) (fault : Option Cue.Fault)
    (notes more : List Notice) (pulled : Pulled) (h : Answers style ahead fault (more, pulled)) :
    Answers style (notes.map Event.note ++ ahead) fault (notes ++ more, pulled) := by
  cases pulled with
  | instruction i rest => exact ⟨by rw [h.1, List.map_append, List.append_assoc], h.2⟩
  | ended => exact ⟨by rw [h.1, List.map_append], h.2⟩
  | failed found => exact ⟨by rw [h.1, List.map_append], h.2⟩

-- The fault of a cue ends the timeline, and otherwise it goes on at the cue's end.
theorem events_cons (style : Style) (playhead : Binary64) (cue : Cue) (cues : List Cue) :
    events style playhead (cue :: cues)
      = ((contribution style playhead cue).1 ++
            (eventsFrom style (contribution style playhead cue).2 cues).1,
          (eventsFrom style (contribution style playhead cue).2 cues).2) := by
  rw [events]
  rcases contribution style playhead cue with ⟨made, fault | next⟩
  · rw [eventsFrom, List.append_nil]
  · rfl

theorem pullFrom_answers (style : Style) (cues : List Cue) :
    ∀ playhead pending, Answers style (pending ++ (eventsFrom style playhead cues).1)
      (eventsFrom style playhead cues).2 (pullFrom style cues playhead pending) := by
  induction cues with
  | nil =>
      intro playhead pending
      rcases hnext : nextEmitted pending with ⟨notes, _ | ⟨i, rest⟩⟩
      · rcases playhead with fault | playhead
        · rw [pullFrom, hnext, eventsFrom, List.append_nil]
          exact ⟨eq_of_nextEmitted_none pending notes hnext, rfl⟩
        · rw [pullFrom, hnext, eventsFrom, events, List.append_nil]
          exact ⟨eq_of_nextEmitted_none pending notes hnext, rfl⟩
      · rw [pullFrom, hnext, eq_of_nextEmitted_some pending i rest notes hnext, List.append_assoc]
        exact ⟨rfl, rfl⟩
  | cons cue cues ih =>
      intro playhead pending
      rcases hnext : nextEmitted pending with ⟨notes, _ | ⟨i, rest⟩⟩
      · rcases playhead with fault | playhead
        · rw [pullFrom, hnext, eventsFrom, List.append_nil]
          exact ⟨eq_of_nextEmitted_none pending notes hnext, rfl⟩
        · -- Nothing pending is an instruction, so the next cue is taken up.
          rw [pullFrom, hnext, eventsFrom, events_cons,
            eq_of_nextEmitted_none pending notes hnext]
          exact answers_append style _ _ notes _ _ (ih _ _)
      · rw [pullFrom, hnext, eq_of_nextEmitted_some pending i rest notes hnext, List.append_assoc]
        exact ⟨rfl, rfl⟩

/-- Asking for an instruction gives the first one ahead. -/
theorem pull_answers (style : Style) (c : Cursor) :
    Answers style (c.ahead style) (c.fault? style) (c.pull style) :=
  pullFrom_answers style c.cues c.playhead c.pending

/-! ### Many instructions -/

theorem grouped_instruction (notes : List Notice) (i : Instruction) (rest : List Event) :
    grouped (notes.map Event.note ++ .emit i :: rest)
      = ((i, notes) :: (grouped rest).1, (grouped rest).2) := by
  induction notes with
  | nil => rfl
  | cons n notes ih => rw [List.map_cons, List.cons_append, grouped, ih, noteFirst]

theorem grouped_notes (notes : List Notice) : grouped (notes.map Event.note) = ([], notes) := by
  induction notes with
  | nil => rfl
  | cons n notes ih => rw [List.map_cons, grouped, ih, noteFirst]

theorem upTo_cons (step : Instruction × List Notice) (steps : List (Instruction × List Notice))
    (closing : List Notice) (ending : Ending) (count : Nat) :
    Readout.upTo (step :: steps) closing ending (count + 1)
      = { Readout.upTo steps closing ending count with
          steps := step :: (Readout.upTo steps closing ending count).steps } := by
  rw [Readout.upTo, Readout.upTo, List.length_cons]
  by_cases h : count ≤ steps.length
  · rw [if_pos h, if_pos (by omega)]
    rfl
  · rw [if_neg h, if_neg (by omega)]

theorem upTo_nil (closing : List Notice) (ending : Ending) (count : Nat) :
    Readout.upTo [] closing ending (count + 1) = ⟨[], ending, closing⟩ :=
  if_neg (Nat.not_succ_le_zero count)

/-- Reading from a place gives the instructions ahead, each with the notices in
    front of it. -/
theorem take_eq (style : Style) (count : Nat) :
    ∀ c : Cursor, c.take style count
      = .upTo (grouped (c.ahead style)).1 (grouped (c.ahead style)).2
          (.ofFault (c.fault? style)) count := by
  induction count with
  | zero => intro c; rfl
  | succ count ih =>
      intro c
      have hanswers := pull_answers style c
      rw [Cursor.take]
      rcases hpull : c.pull style with ⟨notes, ⟨i, rest⟩ | _ | ⟨fault⟩⟩
      · rw [hpull] at hanswers
        rw [hanswers.1, grouped_instruction, ← hanswers.2, upTo_cons, ← ih rest]
      · rw [hpull] at hanswers
        rw [hanswers.1, grouped_notes, hanswers.2, upTo_nil]
        rfl
      · rw [hpull] at hanswers
        rw [hanswers.1, grouped_notes, hanswers.2, upTo_nil]
        rfl

/-! ### The whole timeline -/

theorem instructions_grouped (es : List Event) : (grouped es).1.map Prod.fst = instructions es := by
  induction es with
  | nil => rfl
  | cons e es ih =>
      cases e with
      | emit i => rw [grouped, instructions, ← ih, List.map_cons]
      | note n =>
          rw [grouped, instructions, ← ih]
          rcases grouped es with ⟨_ | ⟨step, steps⟩, closing⟩ <;> rfl

theorem notices_grouped (es : List Event) :
    (grouped es).1.flatMap Prod.snd ++ (grouped es).2 = notices es := by
  induction es with
  | nil => rfl
  | cons e es ih =>
      cases e with
      | emit i => rw [grouped, notices, ← ih, List.flatMap_cons, List.nil_append]
      | note n =>
          rw [grouped, notices, ← ih]
          rcases grouped es with ⟨_ | ⟨step, steps⟩, closing⟩ <;> rfl

/-- What is read of cues from their beginning. -/
theorem take_start (style : Style) (cues : List Cue) (count : Nat) :
    (Cursor.start cues).take style count
      = .upTo (grouped (events style Binary64.zero cues).1).1
          (grouped (events style Binary64.zero cues).1).2
          (.ofFault (events style Binary64.zero cues).2) count :=
  take_eq style count (Cursor.start cues)

/-- What reading and making a timeline share, when a fault ends it. -/
theorem agree_of_fault (style : Style) (cues : List Cue) (es : List Event) (fault : Cue.Fault)
    (h : events style Binary64.zero cues = (es, some fault)) :
    sequence style cues
      = ((grouped es).1.flatMap Prod.snd ++ (grouped es).2, .error fault) ∧
    ∀ count, (Cursor.start cues).take style count
      = .upTo (grouped es).1 (grouped es).2 (.failed fault) count := by
  constructor
  · rw [sequence, h, notices_grouped]
  · intro count
    rw [take_start, h]
    rfl

/-- What they share when none does. -/
theorem agree_of_end (style : Style) (cues : List Cue) (es : List Event)
    (h : events style Binary64.zero cues = (es, none)) :
    (∃ summary, summary.level = .info ∧
      sequence style cues
        = ((grouped es).1.flatMap Prod.snd ++ (grouped es).2 ++ [summary],
          .ok ((grouped es).1.map Prod.fst))) ∧
    ∀ count, (Cursor.start cues).take style count
      = .upTo (grouped es).1 (grouped es).2 .ended count := by
  constructor
  · rw [sequence, h, notices_grouped, instructions_grouped]
    exact ⟨_, rfl, rfl⟩
  · intro count
    rw [take_start, h]
    rfl

/-! ### Faults -/

theorem span_of_failsWith (cue : Cue) (fault : Cue.Fault) (h : FailsWith cue fault) :
    cue.span = .error fault := by
  rcases h with hstart | ⟨⟨start, hstart⟩, hfinish⟩
  · rw [Cue.span, hstart]
    rfl
  · rw [Cue.span, hstart, hfinish]
    rfl

-- Nothing of a cue whose time does not convert is among the events.
theorem events_failing (style : Style) (timed : List Timed) (hconv : Converted timed)
    (hadmitted : Admitted style Binary64.zero timed) (bad : Cue) (post : List Cue)
    (fault : Cue.Fault) (hbad : FailsWith bad fault) :
    events style Binary64.zero (timed.map Prod.fst ++ bad :: post)
      = (timedEvents style Binary64.zero timed, some fault) := by
  rw [events_append style (bad :: post) timed hconv _ hadmitted, events, contribution,
    span_of_failsWith bad fault hbad]
  simp only [List.append_nil]

-- Cues after a fault are not looked at.
theorem events_fault_append (style : Style) (post cues : List Cue) :
    ∀ playhead es fault, events style playhead cues = (es, some fault) →
      events style playhead (cues ++ post) = (es, some fault) := by
  induction cues with
  | nil =>
      intro playhead es fault h
      exact absurd (congrArg Prod.snd h).symm (Option.some_ne_none fault)
  | cons cue cues ih =>
      intro playhead es fault h
      rw [events] at h
      rw [List.cons_append, events]
      rcases hmade : contribution style playhead cue with ⟨made, found | next⟩
      · rw [hmade] at h
        exact h
      · rw [hmade] at h
        rcases hrest : events style next cues with ⟨rest, last⟩
        simp only [hrest, Prod.mk.injEq] at h
        simp only [ih next rest fault (hrest.trans (Prod.ext rfl h.2)), h.1]

theorem level_of_mem_contribution (style : Style) (playhead : Binary64) (cue : Cue) (n : Notice)
    (h : n ∈ notices (contribution style playhead cue).1) : n.level = .debug := by
  rcases hspan : cue.span with fault | span
  · rw [contribution, hspan] at h
    simp only [notices, List.not_mem_nil] at h
  · rcases contribution_prefix style playhead cue span hspan with ⟨rest, hrest⟩
    refine level_of_mem_cueEvents style playhead cue span n ?_
    rw [hrest, notices_append]
    exact List.mem_append_left _ h

/-- All that is noted of a timeline but its summary are details. -/
theorem level_of_mem_events (style : Style) (n : Notice) (cues : List Cue) :
    ∀ playhead, n ∈ notices (events style playhead cues).1 → n.level = .debug := by
  induction cues with
  | nil => intro playhead h; exact absurd h List.not_mem_nil
  | cons cue cues ih =>
      intro playhead h
      rw [events_cons, notices_append] at h
      rcases List.mem_append.mp h with h | h
      · exact level_of_mem_contribution style playhead cue n h
      · rcases hnext : (contribution style playhead cue).2 with fault | next
        · rw [hnext] at h
          exact absurd h List.not_mem_nil
        · rw [hnext] at h
          exact ih next h

/-! ### The whole timeline -/

/-- Reading a timeline one by one agrees with making it as a whole, up to its end
    or up to the first fault. Cues whose times all convert have a fault only where
    a number is too long to be written; otherwise the fault is the first time
    that does not convert. -/
theorem take_sequence (style : Style) (cues : List Cue) :
    ∃ steps closing, (∀ n ∈ steps.flatMap Prod.snd ++ closing, n.level = .debug) ∧
      ((∃ summary, summary.level = .info ∧
          sequence style cues
            = (steps.flatMap Prod.snd ++ closing ++ [summary], .ok (steps.map Prod.fst)) ∧
          (∀ count, (Cursor.start cues).take style count = .upTo steps closing .ended count) ∧
          -- A time after these cues that fails to convert leaves all of that but the summary.
          ∀ bad post fault, FailsWith bad fault →
            sequence style (cues ++ bad :: post)
              = (steps.flatMap Prod.snd ++ closing, .error fault) ∧
            ∀ count, (Cursor.start (cues ++ bad :: post)).take style count
              = .upTo steps closing (.failed fault) count) ∨
        -- Once there is a fault, whatever follows makes no difference.
        ∃ fault, ∀ post,
          sequence style (cues ++ post) = (steps.flatMap Prod.snd ++ closing, .error fault) ∧
          ∀ count, (Cursor.start (cues ++ post)).take style count
            = .upTo steps closing (.failed fault) count) ∧
      -- Converted times leave it to what has to be written.
      ∀ timed, timed.map Prod.fst = cues → Converted timed →
        Admitted style Binary64.zero timed ∧ (sequence style cues).2 = .ok (steps.map Prod.fst) ∨
        ¬ Admitted style Binary64.zero timed ∧ (sequence style cues).2 = .error .longNumber := by
  rcases hevents : events style Binary64.zero cues with ⟨es, fault?⟩
  refine ⟨(grouped es).1, (grouped es).2, ?_, ?_, ?_⟩
  · intro n hn
    rw [notices_grouped] at hn
    exact level_of_mem_events style n cues Binary64.zero (by rw [hevents]; exact hn)
  · rcases fault? with _ | fault
    · rcases agree_of_end style cues es hevents with ⟨⟨summary, hlevel, hseq⟩, htake⟩
      refine Or.inl ⟨summary, hlevel, hseq, htake, fun bad post fault hbad => ?_⟩
      rcases admitted_of_events style cues Binary64.zero (by rw [hevents]) with
        ⟨timed, rfl, hconv, hadmitted⟩
      have hsame := events_converted style timed hconv Binary64.zero hadmitted
      rw [hevents, Prod.mk.injEq] at hsame
      rw [hsame.1]
      exact agree_of_fault style _ _ fault
        (events_failing style timed hconv hadmitted bad post fault hbad)
    · exact Or.inr ⟨fault, fun post =>
        agree_of_fault style _ es fault (events_fault_append style post cues _ es fault hevents)⟩
  · intro timed hmap hconv
    by_cases hadmitted : Admitted style Binary64.zero timed
    · refine Or.inl ⟨hadmitted, ?_⟩
      have hsame := events_converted style timed hconv Binary64.zero hadmitted
      rw [hmap, hevents, Prod.mk.injEq] at hsame
      rw [← hmap, sequence_of_converted style timed hconv hadmitted, hsame.1,
        instructions_grouped, instructions_timedEvents]
    · refine Or.inr ⟨hadmitted, ?_⟩
      rcases hseq : (sequence style cues).2 with fault | is
      · rw [← hmap] at hseq
        rw [(fault_of_sequence style timed hconv fault hseq).1]
      · rcases (sequence_eq_ok_iff style cues is).mp hseq with ⟨other, hother, hconv', hall, -⟩
        rw [converted_unique other timed hconv' hconv (hother.trans hmap.symm)] at hall
        exact absurd hall hadmitted

/-- A cue after a gap, of which only the end is malformed. -/
def unending : Cue := ⟨.ofInt 6, .ofString "00:00:06,000", .ofString "soon", "f"⟩

/-- What is wrong with its end. -/
def soon : Cue.Fault := .malformed ⟨"soon", .fieldCount 1⟩

theorem failsWith_unending : FailsWith unending soon :=
  .inr ⟨⟨thirtySeconds 192, by decide +kernel⟩, rfl⟩

theorem take_sequence_unending :
    ∃ steps closing, steps.length = 8 ∧
      sequence Style.standard (overflowing.map Prod.fst ++ [unending, unending])
        = (steps.flatMap Prod.snd ++ closing, .error soon) ∧
      (Cursor.start (overflowing.map Prod.fst ++ [unending, unending])).take Style.standard 9
        = ⟨steps, .failed soon, closing⟩ ∧
      (Cursor.start (overflowing.map Prod.fst)).take Style.standard 9
        = ⟨steps, .ended, closing⟩ := by
  rcases take_sequence Style.standard (overflowing.map Prod.fst) with
    ⟨steps, closing, _, hagree, hconverted⟩
  have hok : (sequence Style.standard (overflowing.map Prod.fst)).2 = .ok (steps.map Prod.fst) := by
    rcases hconverted overflowing rfl converted_overflowing with ⟨_, hok⟩ | ⟨hnot, _⟩
    · exact hok
    · exact absurd admitted_overflowing hnot
  have hlength : steps.length = 8 := by
    rw [sequence_overflowing, Except.ok.injEq] at hok
    rw [← List.length_map Prod.fst, ← hok, length_emitted]
    decide +kernel
  have hmany : ¬ 9 ≤ steps.length := by omega
  rcases hagree with ⟨summary, _, _, htake, hfail⟩ | ⟨fault, hfault⟩
  · rcases hfail unending [unending] soon failsWith_unending with ⟨hseqFail, htakeFail⟩
    refine ⟨steps, closing, hlength, hseqFail, ?_, ?_⟩
    · rw [htakeFail, Readout.upTo, if_neg hmany]
    · rw [htake, Readout.upTo, if_neg hmany]
  · have herror := (hfault []).1
    rw [List.append_nil] at herror
    rw [herror] at hok
    exact absurd hok (by simp only [reduceCtorEq, not_false_eq_true])

/-- A style whose font size is too long to be written. -/
def endless : Style := { fontSize := .ofInt ((10 ^ Numeral.digitLimit : Nat) : Int) }

-- Stated for any number, because this one is not to be evaluated.
theorem not_isWritable_of_fontSize (n : Int) (hset : n ≠ 0)
    (hlong : ¬ (Number.whole n).isWritable = true) :
    ({ fontSize := .ofInt n } : Style).isWritable = false := by
  have hisSet : (Value.ofInt n).isSet = true := by
    rw [Value.ofInt, Value.isSet, Number.isZero, decide_eq_false hset, Bool.not_false]
  have hsize : ({ fontSize := .ofInt n } : Style).resolved.fontSize = .ofInt n := if_pos hisSet
  rw [← Bool.not_eq_true, Style.isWritable, hsize, Bool.and_eq_true, Bool.and_eq_true]
  exact fun h => hlong h.1.2

theorem isWritable_endless : endless.isWritable = false := by
  refine not_isWritable_of_fontSize _ ?_ ?_
  · exact Int.natCast_ne_zero.mpr (Nat.pos_iff_ne_zero.mp (Nat.pow_pos (by omega)))
  · rw [Number.isWritable_whole_iff, Int.natAbs_natCast]
    exact Nat.lt_irrefl _

/-- A cue that is shown for a second. -/
def opening : Cue := ⟨.ofInt 1, .ofString "00:00:01,000", .ofString "00:00:02,000", "a"⟩

-- A cue that is to be shown ends the timeline before the malformed time is come to.
theorem not_always_malformed :
    ¬ ∀ (style : Style) (cues : List Cue) (bad : Cue) (post : List Cue)
        (m : Timestamp.Malformed),
      (∀ cue ∈ cues, Converts cue) → FailsWith bad (.malformed m) →
        (sequence style (cues ++ bad :: post)).2 = .error (.malformed m) := by
  intro h
  have hspan : opening.span = .ok ⟨thirtySeconds 32, thirtySeconds 64⟩ := by decide +kernel
  have hconverts : ∀ cue ∈ [opening], Converts cue := by
    intro cue hcue
    rw [List.mem_singleton.mp hcue]
    exact (converts_iff opening).mpr ⟨_, hspan⟩
  have hsoon := h endless [opening] unending [] ⟨"soon", .fieldCount 1⟩ hconverts failsWith_unending
  have hlasts : Binary64.zero.lt (Span.duration ⟨thirtySeconds 32, thirtySeconds 64⟩) = true := by
    decide +kernel
  have hgap : gapWritable opening ((thirtySeconds 32).sub Binary64.zero) = true := by
    decide +kernel
  have hmade : ∃ made, contribution endless Binary64.zero opening = (made, .error .longNumber) := by
    rw [contribution, hspan]
    simp only [hgap, blockWritable, hlasts, isWritable_endless, Bool.not_true, Bool.not_false,
      Bool.false_eq_true, if_false, if_true]
    exact ⟨_, rfl⟩
  rcases hmade with ⟨made, hmade⟩
  rw [sequence, List.singleton_append, events, hmade] at hsoon
  exact absurd hsoon (by simp only [Except.error.injEq, reduceCtorEq, not_false_eq_true])

end Timeline

end Captions
