import Captions.Source
import Captions.Timeline

/-!
# Runs

A run reads the cues of a source and sequences them. It is all or nothing: a
failure leaves a message for the user and no instructions. What went wrong in
detail is noted, one error to a failed run.

The message says only whether the source is missing or its processing failed.
Three kinds of failure are not caught and end the run without a result: those of
a source whose path or times cannot be handled at all, numbers that are too long
to be written, and those of a preview with times that are not finite.

## Main definitions

* `Run.Result`: What a run hands over.
* `Run.ofCues`: A run on the cues that reading has brought.
* `Run.ofSource`: A run on a source.
* `Run.start`: A run on the source that is given, or else on the configured one.
-/

namespace Captions

namespace Run

/-- What a run hands over to the host. -/
inductive Result where
  /-- All instructions. -/
  | completed (effects : List Instruction)
  /-- A message for the user, if there is one. -/
  | failed (message : Option Text)

/-- A result as the host receives it. -/
def Result.wire : Result → Value
  | .completed effects =>
    .map [("success", .bool true), ("effects", .list (effects.map Instruction.wire))]
  | .failed message =>
    .map [("success", .bool false), ("errorMessage", (message.map Value.text).getD .null)]

/-- What ends a run without a result. -/
inductive Interruption where
  /-- The path of the source holds a null character. -/
  | nullCharacter
  /-- The path of the source has no octets. -/
  | unencodable (torn : Source.Torn)
  /-- The hours of a time have too many digits to be written. -/
  | longHours
  /-- A number in the source or in the style has too many digits to be
      written. -/
  | longNumber
  /-- The length of the timeline or its preview cannot be computed. -/
  | preview (fault : Instruction.PreviewFault)

/-- What is said when a run ends without a result. -/
def Interruption.message : Interruption → Text
  | .nullCharacter => Source.Fault.nullCharacter.message
  | .unencodable torn => torn.message
  | .longHours | .longNumber => Numeral.unwritableMessage
  | .preview fault => fault.message

/-- The message for a missing source. -/
def missingMessage : Text := "Subtitle file path not set."

/-- The message for all other failures. -/
def failureMessage : Text := "Failed to process subtitle file."

/-- A run that failed for a reason. -/
def failure (reason : Text) : List Notice × Except Interruption Result :=
  ([.readFailed reason], .ok (.failed (some failureMessage)))

/-- A run whose source could not be read. -/
def unread : Source.Fault → List Notice × Except Interruption Result
  | .unusable misuse =>
    ([.sourceUnusable, .sourceDetail misuse.message], .ok (.failed (some missingMessage)))
  | .unreadable _ cause => failure cause.message
  | .longNumber => ([], .error .longNumber)
  | .unencodable torn => ([], .error (.unencodable torn))
  | .nullCharacter => ([], .error .nullCharacter)
  | .longHours => ([], .error .longHours)

/-- A run whose cues could not be sequenced. -/
def unsequenced : Cue.Fault → List Notice × Except Interruption Result
  | .malformed malformed => failure malformed.message
  | .longNumber => ([], .error .longNumber)

/-- The length of a timeline in seconds with one place after the point. -/
def lengthText (is : List Instruction) : Except Instruction.PreviewFault Text :=
  match Instruction.totalDelay is >>= Number.fixed 1 with
  | .ok t => .ok t
  | .error o => .error (.overflow o)

/-- The number of blocks that a run's notice shows of its timeline. -/
def previewLimit : Number := .whole 5

/-- The notice of the timeline, unless there is nothing to show. -/
def previewNotice (preview : Text) : List Notice :=
  if preview = [] then [] else [.timeline preview]

/-- Complete a run with its instructions. -/
def complete (is : List Instruction) : List Notice × Except Interruption Result :=
  match lengthText is with
  | .error fault => ([], .error (.preview fault))
  | .ok length =>
    -- The length is noted even if the preview then fails.
    match Instruction.preview previewLimit is with
    | .error fault => ([.runComplete is.length length], .error (.preview fault))
    | .ok preview => (.runComplete is.length length :: previewNotice preview, .ok (.completed is))

/-- A run on what reading has brought. -/
def ofCues (style : Style) : Except Source.Fault (List Cue) →
    List Notice × Except Interruption Result
  | .error fault => unread fault
  | .ok cues =>
    match Timeline.sequence style cues with
    | (notes, .error fault) =>
      let (more, result) := unsequenced fault
      (notes ++ more, result)
    | (notes, .ok is) =>
      let (more, result) := complete is
      (notes ++ more, result)

/-- A run on a source. -/
def ofSource (tree : FileTree) (style : Style) (source : Source.Reference) :
    List Notice × Except Interruption Result :=
  let (notes, found) := Source.read tree source
  let (more, result) := ofCues style found
  (notes ++ more, result)

/-- The source of a run: the one that is given, or else the configured one. -/
def chosen (configured given : Source.Reference) : Source.Reference :=
  match given with
  | .value .null => configured
  | source => source

/-- A run on the source that is given, or else on the configured one. -/
def start (tree : FileTree) (style : Style) (configured given : Source.Reference) :
    List Notice × Except Interruption Result :=
  ofSource tree style (chosen configured given)

end Run

end Captions
