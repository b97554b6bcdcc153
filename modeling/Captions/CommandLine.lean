import Captions.CommandLine.Arguments
import Captions.CommandLine.Sleeper
import Captions.Json
import Captions.Manifest
import Captions.Player
import Captions.Run
import Captions.Text.Case

/-!
# The command line program

The program reads a configuration, runs on a subtitle file and then prints the
result as JSON, writes it to a file, prints a preview, or plays it. What it
does to the outside is a list of effects in order, made from the words of the
command line and a tree of files; carrying the effects out is left to the
caller. The tree changes along with the effects, so that a file written early
is the file read later.

Nothing is logged before the configuration is read, because that is where the
log is set up. A warning made before goes to the error output bare.

The program ends with an exit code, or breaks off where a setting of the wrong
kind is used, a file cannot be had or a wait is refused. Waiting is the only
place where the user is taken to interrupt it.

## Main definitions

* `CommandLine.Effect`: What the program does to the outside.
* `CommandLine.Ending`: How it ends.
* `CommandLine.run`: The program.
-/

namespace Captions

namespace CommandLine

/-- What the program does to the outside. -/
inductive Effect where
  /-- Print a text and end the line. -/
  | print (t : Text)
  /-- Write a text to the error output and end the line. -/
  | complain (t : Text)
  /-- Log a notice. -/
  | record (n : Notice)
  /-- Open the log file at a path. -/
  | openLog (p : FilePath)
  /-- Make a folder and the folders above it. -/
  | makeFolders (p : FilePath)
  /-- Write a file. -/
  | write (p : FilePath) (content : Text)
  /-- Wait for a number of seconds. -/
  | sleep (seconds : Binary64)

/-- The names that the log keeps for itself, although they are no levels. -/
inductive Reserved where
  /-- The name of the form that log lines have. -/
  | form
  /-- The name of the table of such forms. -/
  | styles
  deriving DecidableEq

/-- A name that the log keeps for itself. -/
def Reserved.name : Reserved → Text
  | .form => "BASIC_FORMAT"
  | .styles => "_STYLES"

/-- What is said when such a name is used as a level. It shows what goes by the
    name. -/
def Reserved.message : Reserved → Text
  | .form => "Unknown level: '%(levelname)s:%(name)s:%(message)s'"
  | .styles =>
    "Level not an integer or a valid string: " ++
      "\x7b'%': (<class 'logging.PercentStyle'>, '%(levelname)s:%(name)s:%(message)s'), " ++
      "'\x7b': (<class 'logging.StrFormatStyle'>, " ++
      "'\x7blevelname\x7d:\x7bname\x7d:\x7bmessage\x7d'), " ++
      "'$': (<class 'logging.StringTemplateStyle'>, " ++
      "'$\x7blevelname\x7d:$\x7bname\x7d:$\x7bmessage\x7d')\x7d"

/-- Why the program breaks off. -/
inductive Failure where
  /-- The configuration is unusable. -/
  | settings (fault : Settings.Fault)
  /-- A file cannot be had. -/
  | file (fault : FileTree.Fault)
  /-- The name of the log level is no text. -/
  | logLevel (value : Value)
  /-- The name of the log level is reserved. -/
  | reservedLevel (name : Reserved)
  /-- The name of the log file is no text. -/
  | logFile (value : Value)
  /-- The rate of playback is no number. -/
  | speed (value : Value)
  /-- The limit of the preview is no number. -/
  | previewEntries (value : Value)
  /-- The rate of playback is refused but has too many digits to be shown. -/
  | longSpeed
  /-- The result cannot be written. -/
  | json (fault : Json.Fault)
  /-- The run or a preview came to no result. -/
  | run (interruption : Run.Interruption)
  /-- Playing stopped early. -/
  | play (fault : Player.Fault)
  /-- A wait was refused. -/
  | sleep (refusal : Sleeper.Refusal)

/-- What is said when the program breaks off. -/
def Failure.message : Failure → Text
  | .settings f => f.message
  | .file f => f.message
  | .logLevel v => "'" ++ v.kind ++ "' object has no attribute 'upper'"
  | .reservedLevel name => name.message
  | .logFile v => "expected str, bytes or os.PathLike object, not " ++ v.kindName
  | .speed v => "'>' not supported between instances of '" ++ v.kind ++ "' and 'int'"
  | .previewEntries v => "'>=' not supported between instances of 'int' and '" ++ v.kind ++ "'"
  | .longSpeed => Numeral.unwritableMessage
  | .json f => f.message
  | .run i => i.message
  | .play f => f.message
  | .sleep r => r.message

/-- How the program ends. -/
inductive Ending where
  /-- With an exit code. -/
  | exit (code : Nat)
  /-- By breaking off. -/
  | failed (failure : Failure)

/-- The log once it is set up: the least severity that is logged, and the file
    that it is written to as well. -/
structure Log where
  /-- The least severity that is logged. -/
  threshold : Nat
  /-- The log file. -/
  file : Option FilePath

/-- What the program has done so far. -/
structure Session where
  /-- The files as they are now. -/
  tree : FileTree
  /-- The effects, last first. -/
  effects : List Effect := []
  /-- The log, if it is set up. -/
  log : Option Log := none

/-- A notice as a line of the log. -/
def logLine (elapsed : Text) (n : Notice) : Text :=
  let pad (width : Nat) (t : Text) : Text := t ++ List.replicate (width - t.length) ' '
  pad 7 n.level.name ++ " | " ++ pad 20 n.origin ++ " | " ++ n.message elapsed

namespace Session

/-- One more effect. -/
def act (s : Session) (e : Effect) : Session := { s with effects := e :: s.effects }

/-- A notice is logged, if it is severe enough. In the files the time that a run
    took is left open. -/
def note (s : Session) (n : Notice) : Session :=
  match s.log with
  | none =>
    if Notice.Level.warning.severity ≤ n.level.severity then s.act (.complain (n.message []))
    else s
  | some log =>
    if log.threshold ≤ n.level.severity then
      let s := s.act (.record n)
      match log.file with
      | none => s
      | some p =>
        match s.tree.append p (Utf8.encode (logLine "*" n ++ "\n")) with
        | .ok tree => { s with tree := tree }
        | .error _ => s
    else s

/-- Notices are logged in order. -/
def noteAll (s : Session) (ns : List Notice) : Session := ns.foldl note s

/-- The program ends with an exit code. -/
def exit (s : Session) (code : Nat) : Session × Ending := (s, .exit code)

/-- The program breaks off. -/
def fail (s : Session) (f : Failure) : Session × Ending := (s, .failed f)

end Session

/-- The names of the levels and the severities from which on they log. -/
def levels : List (Text × Nat) :=
  [ ("DEBUG", 10), ("INFO", 20), ("WARNING", 30), ("WARN", 30), ("ERROR", 40),
    ("CRITICAL", 50), ("FATAL", 50), ("NOTSET", 0) ]

/-- The severity from which on a level of this name logs, in whatever case it is
    written. Any other name means the level for the course of the work. -/
def threshold (name : Text) : Nat :=
  (levels.lookup (Text.asciiUpper name)).getD Notice.Level.info.severity

/-- The reserved name that a name is, in whatever case it is written. -/
def reserved? (name : Text) : Option Reserved :=
  [Reserved.form, .styles].find? fun r => r.name = Text.asciiUpper name

/-- The level that the arguments or the settings name. -/
def levelOf (a : Arguments) (settings : Settings) : Value :=
  if a.verbose then .ofString "DEBUG"
  else if a.quiet then .ofString "WARNING"
  else settings.logging.level

/-- Open the log file, if one is named. -/
def openLog (s : Session) (file : Value) : Except Failure (Session × Option FilePath) :=
  if file.isSet then
    match file with
    | .text t =>
      -- Opening a log carries out the steps upwards on the names alone.
      let p := (FilePath.ofText t).lexical
      match s.tree.append p [] with
      | .ok tree => .ok ({ s with tree := tree }.act (.openLog p), some p)
      | .error fault => .error (.file fault)
    | v => .error (.logFile v)
  else .ok (s, none)

/-- Set up the log. -/
def setUpLog (s : Session) (level file : Value) : Except (Session × Failure) Session :=
  match openLog s file with
  | .error f => .error (s, f)
  | .ok (s, p) =>
    match level with
    | .text name =>
      match reserved? name with
      | some r => .error (s, .reservedLevel r)
      | none => .ok { s with log := some ⟨threshold name, p⟩ }
    | v => .error (s, .logLevel v)

/-- The line for a rate of playback that is not above zero. -/
def speedLine (v : Value) : Text :=
  "Error: playback speed must be positive, got " ++ v.written

/-- The line for a run that failed. -/
def errorLine (message : Option Text) : Text := "Error: " ++ message.getD (Value.written .null)

/-- The line for a program that is interrupted. -/
def interruptLine : Text := "\n  [WARN] Interrupted by user."

/-- The line of a block that is played. -/
def playLine (b : Block) : Text := "  >> " ++ b.plainText

/-- How carrying out the steps of a performance comes to an end. -/
inductive Carried where
  /-- All of them are carried out. -/
  | done
  /-- The user interrupted a wait. -/
  | interrupted
  /-- A wait was refused. -/
  | refused (refusal : Sleeper.Refusal)

/-- Carry out the steps of a performance. A wait that is refused does not begin,
    so it cannot be interrupted. -/
def perform (s : Session) (sleeper : Sleeper) : List Player.Step → Session × Carried
  | [] => (s, .done)
  | .display b :: steps => perform (s.act (.print (playLine b))) sleeper steps
  | .sleep seconds :: steps =>
    match sleeper.refuses seconds, sleeper.patience with
    | some refusal, _ => (s, .refused refusal)
    | none, some 0 => (s, .interrupted)
    | none, _ => perform (s.act (.sleep seconds)) sleeper.waited steps

/-- Play the instructions. -/
def play (s : Session) (sleeper : Sleeper) (rate : Number) (is : List Instruction) :
    Session × Ending :=
  let performance := Player.play rate (is.map Player.Item.instruction)
  match perform s sleeper performance.steps with
  | (s, .interrupted) => (s.act (.complain interruptLine)).exit 130
  | (s, .refused refusal) => s.fail (.sleep refusal)
  | (s, .done) =>
    match performance.outcome with
    | .ok _ => (s.noteAll performance.closing).exit 0
    | .error f => s.fail (.play f)

/-- Print a preview. A limit that is no number is noticed only when there is
    something to list. -/
def printPreview (s : Session) (limit : Value) (is : List Instruction) : Session × Ending :=
  match limit.number? with
  | some n =>
    match Instruction.preview n is with
    | .ok t => (s.act (.print t)).exit 0
    | .error fault => s.fail (.run (.preview fault))
  | none =>
    if Instruction.shownCount is = 0 then (s.act (.print [])).exit 0
    else s.fail (.previewEntries limit)

/-- Write the result to a file, in a folder that is made if it is missing. -/
def writeResult (s : Session) (p : FilePath) (payload : Text) : Session × Ending :=
  match s.tree.makeFolders p.parent with
  | .error fault => s.fail (.file fault)
  | .ok tree =>
    let s := { s with tree := tree }.act (.makeFolders p.parent)
    let content := payload ++ "\n"
    match s.tree.write p (Utf8.encode content) with
    | .error fault => s.fail (.file fault)
    | .ok tree =>
      (({ s with tree := tree }.act (.write p content)).note (.resultWritten p.text)).exit 0

/-- Hand over a result as JSON, in a file if there is one for it. Nothing is
    written of a result with something in it that cannot be. -/
def deliverJson (s : Session) (output : Option FilePath) (result : Value) : Session × Ending :=
  match Json.fault? result with
  | some fault => s.fail (.json fault)
  | none =>
    match output with
    | some p => writeResult s p (Json.render result)
    | none => (s.act (.print (Json.render result))).exit 0

/-- Hand over the instructions in the way that is asked for. -/
def deliver (s : Session) (sleeper : Sleeper) (a : Arguments) (settings : Settings)
    (is : List Instruction) : Session × Ending :=
  if a.play then
    match Player.rate settings.playback.speed with
    | .ok rate => play s sleeper rate is
    | .error _ => s.fail (.speed settings.playback.speed)
  else if a.preview then printPreview s settings.playback.previewEntries is
  else deliverJson s a.output (Run.Result.completed is).wire

/-- Run on the subtitle file and hand over what comes of it. -/
def process (s : Session) (sleeper : Sleeper) (a : Arguments) (settings : Settings) :
    Session × Ending :=
  let (notes, result) := Run.start s.tree settings.style settings.subtitleFile (.value .null)
  let s := s.noteAll notes
  match result with
  | .error i => s.fail (.run i)
  | .ok (.failed message) => (s.act (.complain (errorLine message))).exit 1
  | .ok (.completed is) => deliver s sleeper a settings is

/-- Check the rate of playback, if the instructions are to be played. -/
def checkSpeed (a : Arguments) (settings : Settings) : Except Failure Bool :=
  if a.play then
    match settings.playback.speed.number? with
    | some x => .ok (x.isAbove 0)
    | none => .error (.speed settings.playback.speed)
  else .ok true

/-- Refuse a rate of playback that is not above zero. -/
def refuseSpeed (s : Session) (speed : Value) : Session × Ending :=
  if speed.isWritable then (s.act (.complain (speedLine speed))).exit 1
  else s.fail .longSpeed

/-- The program once the log is set up. The rate is checked only now, when the
    log file is already open. -/
def proceed (s : Session) (sleeper : Sleeper) (a : Arguments) (settings : Settings) :
    Session × Ending :=
  match checkSpeed a settings with
  | .error f => s.fail f
  | .ok false => refuseSpeed s settings.playback.speed
  | .ok true => process s sleeper a settings

/-- The program after its arguments are read. -/
def runWith (s : Session) (sleeper : Sleeper) (a : Arguments) : Session × Ending :=
  if a.describe then (s.act (.print (Json.render Manifest.description))).exit 0
  else
    let (notes, loaded) := Settings.load s.tree a.config
    let s := s.noteAll notes
    match loaded with
    | .error fault => s.fail (.settings fault)
    | .ok settings =>
      let settings := settings.override a.overrides
      match setUpLog s (levelOf a settings) settings.logging.file with
      | .error (s, f) => s.fail f
      | .ok s => proceed s sleeper a settings

/-- The line for a command line that is wrong. -/
def misuseLine (m : Misuse) : Text := "main.py: error: " ++ m.message

/-- The program, with a sleeper for its waits. -/
def run (tree : FileTree) (sleeper : Sleeper) (words : List Text) : Session × Ending :=
  let s : Session := { tree := tree }
  match parse words with
  | .error .help => s.exit 0
  | .error (.misuse m) => (s.act (.complain (misuseLine m))).exit 2
  | .ok a => runWith s sleeper a

end CommandLine

end Captions
