import Captions.Clock
import Captions.Text.Blank
import Captions.Value

/-!
# Instructions

An overlay host knows two instructions: to wait, and to show a block of text
for a while. Showing does not block, so the waits alone make up the length of
the timeline, and the time at which a block appears is the sum of the waits
before it.

## Main definitions

* `Block`, `Instruction`: What a host executes.
* `Block.plainText`: The text of a block without its tags.
* `Instruction.wire`: An instruction as the host receives it.
* `Instruction.totalDelay`: The length of a timeline.
* `Instruction.preview`: The blocks with their times, one a line.
-/

namespace Captions

/-- A styled text shown for a while. -/
structure Block where
  /-- The text with its tags. -/
  html : Text
  /-- How long it is shown, in seconds. -/
  duration : Number
  /-- The width of its box in pixels. -/
  width : Value
  /-- Where it stands on the screen. -/
  position : Text := "Bottom Middle"
  /-- Whether it casts a shadow. -/
  dropShadow : Bool := false

/-- A step of an overlay host. -/
inductive Instruction where
  /-- Wait for a number of seconds. -/
  | wait (delay : Number)
  /-- Show a block without waiting. -/
  | showText (block : Block)

namespace Text

/-- What follows the next closing bracket. -/
def afterClosing? : Text → Option Text
  | [] => none
  | '>' :: t => some t
  | _ :: t => afterClosing? t

/-- What follows a tag whose opening bracket is already read. A tag holds at
    least one character. -/
def afterTag? : Text → Option Text
  | [] => none
  | '>' :: _ => none
  | _ :: t => afterClosing? t

theorem length_afterClosing? {t rest : Text} (h : afterClosing? t = some rest) :
    rest.length < t.length := by
  induction t with
  | nil => simp [afterClosing?] at h
  | cons c t ih =>
      by_cases hc : c = '>'
      · -- The bracket itself is dropped along with what precedes it.
        subst hc
        simp only [afterClosing?, Option.some.injEq] at h
        subst h
        simp
      · have : afterClosing? (c :: t) = afterClosing? t := by
          rw [afterClosing?]
          exact hc
        rw [this] at h
        have := ih h
        simp only [List.length_cons]
        omega

theorem length_afterTag? {t rest : Text} (h : afterTag? t = some rest) :
    rest.length < t.length := by
  unfold afterTag? at h
  split at h
  · simp at h
  · simp at h
  · have := length_afterClosing? h
    simp only [List.length_cons]
    omega

/-- The text without its tags. An opening bracket with no closing one after it,
    or with one right after it, begins no tag. -/
def withoutTags (t : Text) : Text :=
  match t with
  | [] => []
  | c :: rest =>
    if c = '<' then
      match _ : afterTag? rest with
      | some after => withoutTags after
      | none => c :: withoutTags rest
    else c :: withoutTags rest
termination_by t.length
decreasing_by
  · have := length_afterTag? ‹_›
    simp only [List.length_cons]
    omega
  · simp
  · simp

end Text

/-- The text of a block without its tags. -/
def Block.plainText (b : Block) : Text := Text.withoutTags b.html

namespace Instruction

/-- An instruction as the host receives it. -/
def wire : Instruction → Value
  | .wait delay => .map [("type", .ofString "Wait"), ("delaySeconds", .number delay)]
  | .showText b =>
    .map
      [ ("type", .ofString "ShowText"), ("html", .text b.html),
        ("durationSeconds", .number b.duration), ("position", .text b.position),
        ("widthPx", b.width), ("dropShadow", .bool b.dropShadow) ]

/-- The number of blocks shown. -/
def shownCount : List Instruction → Nat
  | [] => 0
  | .wait _ :: rest => shownCount rest
  | .showText _ :: rest => shownCount rest + 1

/-- The sum of the delays after a sum already made, from left to right. -/
def totalAfter : Number → List Instruction → Except Number.Overflow Number
  | sum, [] => .ok sum
  | sum, .wait delay :: rest => do totalAfter (← sum.add delay) rest
  | sum, .showText _ :: rest => totalAfter sum rest

/-- The length of a timeline. -/
def totalDelay (is : List Instruction) : Except Number.Overflow Number :=
  totalAfter (.whole 0) is

/-- Why a preview cannot be made. -/
inductive PreviewFault where
  /-- A time that has to be shown is not finite. -/
  | notFinite
  /-- A number lies beyond the doubles. -/
  | overflow (o : Number.Overflow)
  deriving DecidableEq

/-- What is said when a preview cannot be made. -/
def PreviewFault.message : PreviewFault → Text
  | .notFinite => Clock.notFiniteMessage
  | .overflow o => o.message

/-- The reading of a time, which has to be finite. -/
def reading (x : Binary64) : Except PreviewFault Clock :=
  match Clock.ofSeconds? (.double x) with
  | some c => .ok c
  | none => .error .notFinite

/-- A clock moved on by a number of seconds. -/
def advance (clock : Binary64) (delay : Number) : Except PreviewFault Binary64 :=
  match delay.toDouble with
  | .ok d => .ok (clock.add d)
  | .error o => .error (.overflow o)

/-- The text of a block on one line, cut after eighty characters. -/
def excerpt (b : Block) : Text :=
  let line := Text.joinWith " " (Text.words b.plainText)
  if 80 < line.length then line.take 80 ++ "..." else line

/-- The line of a block that appears at a given time. -/
def previewLine (clock : Binary64) (b : Block) : Except PreviewFault Text := do
  let start ← reading clock
  let finish ← reading (← advance clock b.duration)
  return "  [" ++ start.text ++ " → " ++ finish.text ++ "] " ++ excerpt b

/-- The lines of the blocks that appear from a given time on, when `shown` of
    them are already listed, until the limit is reached. -/
def previewLines (limit : Number) :
    Binary64 → (shown : Nat) → List Instruction → Except PreviewFault (List Text)
  | _, _, [] => .ok []
  | clock, shown, .wait delay :: rest => do
    previewLines limit (← advance clock delay) shown rest
  | clock, shown, .showText b :: rest =>
    -- The limit is looked at before the times, which need not be finite.
    if limit.isAtMost shown then .ok []
    else do
      let line ← previewLine clock b
      let lines ← previewLines limit clock (shown + 1) rest
      return line :: lines

/-- The line that counts the blocks not listed, if there are any. -/
def remainder (shown listed : Nat) : List Text :=
  if listed < shown then
    ["  ... and " ++ Text.digits (shown - listed) ++ " more entries"]
  else []

/-- The blocks with their times, one a line, and the number of those beyond the
    limit. -/
def preview (limit : Number) (is : List Instruction) : Except PreviewFault Text := do
  let lines ← previewLines limit Binary64.zero 0 is
  return Text.joinWith "\n" (lines ++ remainder (shownCount is) lines.length)

end Instruction

end Captions
