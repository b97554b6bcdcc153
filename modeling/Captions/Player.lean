import Captions.Instruction
import Captions.Notice

/-!
# Playing instructions

A player does what an overlay host does: it takes the instructions in order,
waits for the delays and shows the blocks, without ever looking at a clock. A
rate of two halves every wait.

A list that is played may hold something that is no instruction. The player
performs all that comes before it and then refuses. The blocks it has shown by
then stay counted until it begins another list.

## Main definitions

* `Player`: A player with its rate and its count of blocks shown.
* `Player.rate`: Which values are usable as a rate.
* `Player.Step`: What a player does.
* `Player.perform`, `Player.begin`: Playing the rest of a list, and a list from
  its beginning.
* `Player.play`: Playing a list on a new player.
-/

namespace Captions

/-- A player. -/
structure Player where
  /-- The number that every delay is divided by. -/
  speed : Number
  /-- The number of blocks shown since it last began a list. -/
  shown : Nat := 0

namespace Player

/-- Why a value is no rate. -/
inductive RateFault where
  /-- It is not above zero. -/
  | notPositive (value : Value)
  /-- It is no number. -/
  | notNumber (value : Value)
  /-- It is not above zero and has too many digits to be shown. -/
  | longNumber

/-- What is said about a value that is no rate. -/
def RateFault.message : RateFault → Text
  | .notPositive v => "speed must be positive, got " ++ v.written
  | .notNumber v =>
    "'<=' not supported between instances of '" ++ v.kind ++ "' and 'int'"
  | .longNumber => Numeral.unwritableMessage

/-- The rate that a value stands for. Only numbers at or below zero are
    refused, so not-a-number is a rate. -/
def rate (v : Value) : Except RateFault Number :=
  match v.number? with
  | none => .error (.notNumber v)
  | some x =>
    if x.isAtMost 0 then .error (if v.isWritable then .notPositive v else .longNumber) else .ok x

/-- Something in a list to be played. -/
inductive Item where
  /-- An instruction. -/
  | instruction (i : Instruction)
  /-- Something else. -/
  | other (value : Value)

/-- What a player does. -/
inductive Step where
  /-- It waits for a number of seconds. -/
  | sleep (seconds : Binary64)
  /-- It shows a block. -/
  | display (block : Block)

/-- Why playing stops early. -/
inductive Fault where
  /-- Something is no instruction. -/
  | unknown (value : Value)
  /-- Something is no instruction, and a number in it has too many digits to be
      shown. -/
  | longNumber
  /-- A number lies beyond the doubles. -/
  | overflow (o : Number.Overflow)

/-- What is said when playing stops early. -/
def Fault.message : Fault → Text
  | .unknown v => "Unknown instruction: " ++ v.literal
  | .longNumber => Numeral.unwritableMessage
  | .overflow o => o.message

/-- Why playing stops at something that is no instruction. It is shown, if it
    can be. -/
def Fault.ofOther (v : Value) : Fault := if v.isWritable then .unknown v else .longNumber

/-- What playing a list amounts to: the steps taken, and the number of blocks
    shown or why it stopped. -/
structure Performance where
  /-- The steps in order. -/
  steps : List Step
  /-- The number of blocks shown, or why playing stopped. -/
  outcome : Except Fault Nat

/-- One more step before a performance. -/
def Performance.after (s : Step) (p : Performance) : Performance :=
  { p with steps := s :: p.steps }

/-- The performance of the rest of a list, and the player after it. -/
def perform (p : Player) : List Item → Performance × Player
  | [] => (⟨[], .ok p.shown⟩, p)
  | .instruction (.wait delay) :: rest =>
    match delay.div p.speed with
    | .ok seconds => (p.perform rest).map (Performance.after (.sleep seconds)) id
    | .error o => (⟨[], .error (.overflow o)⟩, p)
  | .instruction (.showText b) :: rest =>
    (perform { p with shown := p.shown + 1 } rest).map (Performance.after (.display b)) id
  | .other v :: _ => (⟨[], .error (.ofOther v)⟩, p)

/-- The performance of a list, and the player after it. The count begins anew
    with every list. -/
def begin (p : Player) (items : List Item) : Performance × Player :=
  perform { p with shown := 0 } items

/-- Play a list at a rate. -/
def play (rate : Number) (items : List Item) : Performance := (begin ⟨rate, 0⟩ items).1

/-- The notice of a block that is shown where there is no screen. -/
def displayNotice (b : Block) : Except Number.Overflow Notice := do
  let duration ← b.duration.fixed 2
  return .blockShown duration b.plainText

/-- A performance without a screen: the steps up to the first block whose
    duration cannot be written, with the notices made in place of showing. -/
def narrate : List Step → Except Fault Nat → Performance × List Notice
  | [], outcome => (⟨[], outcome⟩, [])
  | .sleep seconds :: rest, outcome =>
    let (p, notes) := narrate rest outcome
    (p.after (.sleep seconds), notes)
  | .display b :: rest, outcome =>
    match displayNotice b with
    | .ok note =>
      let (p, notes) := narrate rest outcome
      (p.after (.display b), note :: notes)
    | .error o => (⟨[], .error (.overflow o)⟩, [])

/-- A performance without a screen. -/
def Performance.narrated (p : Performance) : Performance × List Notice :=
  narrate p.steps p.outcome

/-- The notice at the end of a performance, if it came to its end. -/
def Performance.closing (p : Performance) : List Notice :=
  match p.outcome with
  | .ok shown => [.playbackFinished shown]
  | .error _ => []

end Player

end Captions
