import Captions.Cue

/-!
# Notices

What the program has to say about its work, apart from the result: what it left
out and why, what it read, how a run went. A notice keeps what it is about;
its severity, the part of the program that speaks and the wording follow from
that.

The time that a run took is known only to whoever measured it, so it is an
argument of the wording.

## Main definitions

* `Notice.Level`: How severe a notice is.
* `Notice`: The notices.
* `Notice.level`, `Notice.origin`, `Notice.message`: What is made of them.
-/

namespace Captions

/-- Something the program has to say about its work. -/
inductive Notice where
  /-- A gap before a cue is so short that no pause is made for it. -/
  | gapDropped (cue : Cue) (gap : Binary64)
  /-- A cue does not last, so it is not shown. -/
  | cueSkipped (cue : Cue) (duration : Binary64)
  /-- Cues were turned into instructions, `shown` of them into blocks. -/
  | sequenced (cues instructions shown : Nat)
  /-- Cues were read from a file of this name. -/
  | cuesLoaded (cues : Nat) (name : Text)
  /-- No usable source is configured. -/
  | sourceUnusable
  /-- What exactly is wrong with the source. -/
  | sourceDetail (detail : Text)
  /-- The source could not be turned into instructions. -/
  | readFailed (cause : Text)
  /-- A run is complete; its timeline has this length. -/
  | runComplete (instructions : Nat) (length : Text)
  /-- The beginning of the timeline. -/
  | timeline (preview : Text)
  /-- A block is shown for this long. -/
  | blockShown (duration text : Text)
  /-- All instructions are played. -/
  | playbackFinished (shown : Nat)
  /-- There is no configuration file at this path. -/
  | settingsMissing (path : Text)
  /-- The configuration file at this path was read. -/
  | settingsLoaded (path : Text)
  /-- The result was written to a file. -/
  | resultWritten (path : Text)

namespace Notice

/-- How severe a notice is. -/
inductive Level where
  /-- Details of the work. -/
  | debug
  /-- The course of the work. -/
  | info
  /-- Something that may not be meant. -/
  | warning
  /-- A failure. -/
  | error
  /-- A failure that ends the program. -/
  | critical
  deriving DecidableEq

/-- The name of a level. -/
def Level.name : Level → Text
  | .debug => "DEBUG"
  | .info => "INFO"
  | .warning => "WARNING"
  | .error => "ERROR"
  | .critical => "CRITICAL"

/-- The place of a level in the order of severity. -/
def Level.severity : Level → Nat
  | .debug => 10
  | .info => 20
  | .warning => 30
  | .error => 40
  | .critical => 50

/-- How severe a notice is. -/
def level : Notice → Level
  | .gapDropped .. | .cueSkipped .. | .sourceDetail .. | .playbackFinished .. => .debug
  | .settingsMissing .. => .warning
  | .sourceUnusable | .readFailed .. => .error
  | _ => .info

/-- The part of the program that speaks. -/
def origin : Notice → Text
  | .gapDropped .. | .cueSkipped .. | .sequenced .. => "overlay.sequencer"
  | .cuesLoaded .. => "overlay.srt_reader"
  | .sourceUnusable | .sourceDetail .. | .readFailed .. | .runComplete .. | .timeline .. =>
    "overlay.runner"
  | .blockShown .. | .playbackFinished .. => "overlay.player"
  | .settingsMissing .. | .settingsLoaded .. => "config"
  | .resultWritten .. => "root"

/-- The wording of a notice, given the seconds that a run took. -/
def message (elapsed : Text) : Notice → Text
  | .gapDropped cue gap =>
    cue.label ++ ": " ++ gap.fixed 3 ++ "s gap within tolerance, dropped"
  | .cueSkipped cue duration =>
    cue.label ++ ": non-positive duration " ++ duration.fixed 3 ++ "s, skipped"
  | .sequenced cues instructions shown =>
    "Sequenced " ++ Text.digits cues ++ " cues → " ++ Text.digits instructions ++
      " instructions (" ++ Text.digits shown ++ " shown, " ++
      Text.ofInt ((cues : Int) - shown) ++ " skipped)"
  | .cuesLoaded cues name => "Loaded " ++ Text.digits cues ++ " cues from " ++ name
  | .sourceUnusable => "Subtitle file path is not configured."
  | .sourceDetail detail => "Configuration detail: " ++ detail
  | .readFailed cause => "Failed to read or parse subtitle file: " ++ cause
  | .runComplete instructions length =>
    "Run complete in " ++ elapsed ++ "s: " ++ Text.digits instructions ++ " instructions, " ++
      length ++ "s timeline"
  | .timeline preview => "Preview:\n" ++ preview
  | .blockShown duration text => "[show " ++ duration ++ "s] " ++ text
  | .playbackFinished shown => "Playback finished, " ++ Text.digits shown ++ " cues shown"
  | .settingsMissing path => "Config file not found at " ++ path ++ ", using defaults."
  | .settingsLoaded path => "Configuration loaded from " ++ path
  | .resultWritten path => "Instructions written to " ++ path

end Notice

end Captions
