import Captions.Instruction
import Captions.Notice
import Captions.Style

/-!
# Timelines

Cues say when they appear on an absolute clock; an overlay host only knows how
to wait. A timeline keeps a *playhead*, the end of the cue before, and turns
each cue into the events that lead from the playhead to the cue's own end: a
wait for the gap before it, then its block and a wait for as long as the block
is shown. A gap of at most fifty milliseconds, judged to the microsecond, is
not worth a wait, and a cue that does not last is not shown. Both are noted
instead, and neither keeps the playhead from moving on.

What a cue contributes depends on nothing but the cue, the style and the
playhead. Nothing is sorted and overlaps are kept, so a cue that begins before
the playhead has no gap.

A timeline ends early at a malformed time, before anything of its cue is made.
It also ends early where a number has too many digits to be written: in the
style, once a cue is to be shown, or in the name of a cue of which something is
to be noted. What the cue contributed until then stays.

The events can be had in two ways. `sequence` makes them all and yields either
every instruction or none, while a `Cursor` makes them one cue at a time as its
instructions are asked for.

## Main definitions

* `Timeline.cueEvents`: What one cue contributes.
* `Timeline.contribution`: What it contributes, up to a fault.
* `Timeline.events`: What a list of cues contributes, up to a fault.
* `Timeline.sequence`: All instructions of a list of cues.
* `Timeline.Cursor`: A place in a timeline that is made as it is read.
-/

namespace Captions

namespace Timeline

/-- A step in the making of a timeline. -/
inductive Event where
  /-- An instruction is made. -/
  | emit (instruction : Instruction)
  /-- Something is noted. -/
  | note (notice : Notice)

/-- The longest gap for which no wait is made, in seconds. -/
def tolerance : Binary64 := Binary64.ofDecimal false 5 (-2)

/-- Whether a gap is worth a wait. It is compared after rounding to the
    microsecond, because the noise of earlier roundings must not decide. -/
def worthWaiting (gap : Binary64) : Bool := tolerance.lt (gap.roundPlaces 6)

/-- The events of the gap before a cue. -/
def gapEvents (cue : Cue) (gap : Binary64) : List Event :=
  if worthWaiting gap then [.emit (.wait (.double gap))]
  else if Binary64.zero.lt gap then [.note (.gapDropped cue gap)]
  else []

/-- The block of a cue in a style. -/
def block (style : Style) (cue : Cue) (duration : Binary64) : Block where
  html := style.render cue.text
  duration := .double duration
  width := style.resolved.containerWidth

/-- The events of a cue itself. -/
def blockEvents (style : Style) (cue : Cue) (duration : Binary64) : List Event :=
  if Binary64.zero.lt duration then
    [.emit (.showText (block style cue duration)), .emit (.wait (.double duration))]
  else [.note (.cueSkipped cue duration)]

/-- What a cue contributes when the playhead stands at the end of the cue
    before. -/
def cueEvents (style : Style) (playhead : Binary64) (cue : Cue) (span : Span) : List Event :=
  gapEvents cue (span.start.sub playhead) ++ blockEvents style cue span.duration

/-- Whether all that is noted of the gap before a cue can be written. -/
def gapWritable (cue : Cue) (gap : Binary64) : Bool :=
  worthWaiting gap || !Binary64.zero.lt gap || cue.isWritable

/-- Whether all that is written of a cue itself can be. -/
def blockWritable (style : Style) (cue : Cue) (duration : Binary64) : Bool :=
  if Binary64.zero.lt duration then style.isWritable else cue.isWritable

/-- What a cue contributes when the playhead stands at the end of the cue before,
    and the playhead after it or the fault that ends the timeline. -/
def contribution (style : Style) (playhead : Binary64) (cue : Cue) :
    List Event × Except Cue.Fault Binary64 :=
  match cue.span with
  | .error fault => ([], .error fault)
  | .ok span =>
    let gap := span.start.sub playhead
    if !gapWritable cue gap then ([], .error .longNumber)
    else if !blockWritable style cue span.duration then (gapEvents cue gap, .error .longNumber)
    -- The playhead moves to the end of every cue, shown or not.
    else (cueEvents style playhead cue span, .ok span.finish)

/-- What the cues contribute from a playhead on, up to the first fault if there
    is one. -/
def events (style : Style) : Binary64 → List Cue → List Event × Option Cue.Fault
  | _, [] => ([], none)
  | playhead, cue :: cues =>
    match contribution style playhead cue with
    | (made, .error fault) => (made, some fault)
    | (made, .ok next) =>
      let (rest, fault) := events style next cues
      (made ++ rest, fault)

/-- The instructions among events. -/
def instructions : List Event → List Instruction
  | [] => []
  | .emit i :: rest => i :: instructions rest
  | .note _ :: rest => instructions rest

/-- The notices among events. -/
def notices : List Event → List Notice
  | [] => []
  | .emit _ :: rest => notices rest
  | .note n :: rest => n :: notices rest

/-- All instructions of a list of cues with what was noted on the way. A fault
    leaves no instructions, and the summary is made only of a complete
    timeline. -/
def sequence (style : Style) (cues : List Cue) :
    List Notice × Except Cue.Fault (List Instruction) :=
  match events style Binary64.zero cues with
  | (es, some fault) => (notices es, .error fault)
  | (es, none) =>
    let is := instructions es
    (notices es ++ [.sequenced cues.length is.length (Instruction.shownCount is)], .ok is)

/-- A place in a timeline: events already made but not yet read, where the
    playhead stands after them, and the cues that follow. -/
structure Cursor where
  /-- Events made and not yet read. -/
  pending : List Event
  /-- The end of the last cue that was taken up, or the fault that ends the
      timeline after the pending events. -/
  playhead : Except Cue.Fault Binary64
  /-- The cues not yet taken up. -/
  cues : List Cue

/-- The beginning of the timeline of a list of cues. -/
def Cursor.start (cues : List Cue) : Cursor := ⟨[], .ok Binary64.zero, cues⟩

/-- What asking for the next instruction leads to. -/
inductive Pulled where
  /-- An instruction, with the place after it. -/
  | instruction (i : Instruction) (rest : Cursor)
  /-- There are no more. -/
  | ended
  /-- The timeline ends here with a fault. -/
  | failed (fault : Cue.Fault)

/-- The notices up to the next instruction, and the instruction with the events
    after it if there is one. -/
def nextEmitted : List Event → List Notice × Option (Instruction × List Event)
  | [] => ([], none)
  | .emit i :: rest => ([], some (i, rest))
  | .note n :: rest => (n :: (nextEmitted rest).1, (nextEmitted rest).2)

/-- Ask for the next instruction when these events are pending. Further cues
    are taken up only as long as no event is an instruction. -/
def pullFrom (style : Style) :
    List Cue → Except Cue.Fault Binary64 → List Event → List Notice × Pulled
  | cues, playhead, pending =>
    match nextEmitted pending with
    | (notes, some (i, rest)) => (notes, .instruction i ⟨rest, playhead, cues⟩)
    | (notes, none) =>
      match playhead, cues with
      | .error fault, _ => (notes, .failed fault)
      | .ok _, [] => (notes, .ended)
      | .ok playhead, cue :: cues =>
        let (made, next) := contribution style playhead cue
        let (more, pulled) := pullFrom style cues next made
        (notes ++ more, pulled)

/-- Ask for the next instruction. -/
def Cursor.pull (style : Style) (c : Cursor) : List Notice × Pulled :=
  pullFrom style c.cues c.playhead c.pending

/-- How reading instructions one by one came to an end. -/
inductive Ending where
  /-- As many as wanted were read. -/
  | taken
  /-- There were no more. -/
  | ended
  /-- The timeline ended with a fault. -/
  | failed (fault : Cue.Fault)

/-- Instructions read one by one: each with what was noted while it was made,
    how the reading ended, and what was noted after the last one. -/
structure Readout where
  /-- The instructions with their notices. -/
  steps : List (Instruction × List Notice)
  /-- How the reading ended. -/
  ending : Ending
  /-- The notices after the last instruction. -/
  closing : List Notice

/-- Read at most `count` instructions from a place on. -/
def Cursor.take (style : Style) : (count : Nat) → Cursor → Readout
  | 0, _ => ⟨[], .taken, []⟩
  | count + 1, c =>
    match c.pull style with
    | (notes, .instruction i rest) =>
      let readout := Cursor.take style count rest
      { readout with steps := (i, notes) :: readout.steps }
    | (notes, .ended) => ⟨[], .ended, notes⟩
    | (notes, .failed fault) => ⟨[], .failed fault, notes⟩

end Timeline

end Captions
