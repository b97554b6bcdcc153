import Captions.Timestamp
import Captions.Value

/-!
# Cues

A cue is a text with the times at which it appears and disappears. The times
are kept as they were given and are converted only when the cue is sequenced;
a time that is no text at all is malformed then. It is reported as a literal,
and log lines name a cue by its number, so a number in either that is too long
to be written is a fault of its own.

## Main definitions

* `Cue`: A cue.
* `Cue.Fault`: Why a cue cannot be sequenced.
* `Cue.label`, `Cue.isWritable`: A cue as log lines name it.
* `Cue.span`: Its times in seconds.
-/

namespace Captions

/-- A subtitle cue. -/
structure Cue where
  /-- The cue's number, or what stood in its place. -/
  index : Value
  /-- The time at which it appears. -/
  start : Value
  /-- The time at which it disappears. -/
  finish : Value
  /-- What is shown. -/
  text : Text

/-- A stretch of time in seconds. -/
structure Span where
  /-- Where it begins. -/
  start : Binary64
  /-- Where it ends. -/
  finish : Binary64
  deriving DecidableEq

/-- The length of a stretch of time. -/
def Span.duration (s : Span) : Binary64 := s.finish.sub s.start

namespace Cue

/-- Why a cue cannot be sequenced. -/
inductive Fault where
  /-- A time is malformed. -/
  | malformed (malformed : Timestamp.Malformed)
  /-- A number that has to be written has too many digits. -/
  | longNumber
  deriving DecidableEq

/-- What is said about a cue that cannot be sequenced. -/
def Fault.message : Fault → Text
  | .malformed m => m.message
  | .longNumber => Numeral.unwritableMessage

/-- The cue as log lines name it, with at most fifty characters of its text. -/
def label (c : Cue) : Text :=
  "Cue#" ++ c.index.written ++ "(" ++ c.start.written ++ "–" ++ c.finish.written ++ ", '" ++
    c.text.take 50 ++ "')"

/-- Whether log lines can name the cue. -/
def isWritable (c : Cue) : Bool :=
  c.index.isWritable && c.start.isWritable && c.finish.isWritable

/-- A time in seconds, which has to be given as a text. -/
def time : Value → Except Fault Binary64
  | .text t =>
    match Timestamp.seconds t with
    | .ok x => .ok x
    | .error m => .error (.malformed m)
  | v => .error (if v.isWritable then .malformed ⟨v.literal, .notText⟩ else .longNumber)

theorem time_text (t : Text) (x : Binary64) (h : Timestamp.seconds t = .ok x) :
    time (.text t) = .ok x := by
  rw [time, h]

/-- Two texts mean the same time if they are read alike. -/
theorem time_text_eq_iff (s t : Text) :
    time (.text s) = time (.text t) ↔ Timestamp.seconds s = Timestamp.seconds t := by
  rw [time, time]
  rcases Timestamp.seconds s with m | x <;> rcases Timestamp.seconds t with n | y <;>
    simp only [Except.error.injEq, Except.ok.injEq, Fault.malformed.injEq, reduceCtorEq]

/-- The cue's times in seconds. When there is something wrong with both, the
    first is reported. -/
def span (c : Cue) : Except Fault Span := do
  let start ← time c.start
  let finish ← time c.finish
  return ⟨start, finish⟩

end Cue

end Captions
