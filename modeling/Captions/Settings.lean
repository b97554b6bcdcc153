import Captions.FileTree
import Captions.Notice
import Captions.Style
import Captions.Text.Blank
import Captions.Yaml

/-!
# Settings

The settings of the program come in layers. Below are the defaults; a
configuration file replaces those it names; the caller's overrides replace what
they give. A setting that a file names is taken as it stands, even if it is
nothing, and names that mean nothing here are passed over.

The file holds a mapping of four sections. A file without content counts as an
empty mapping, and a section without content as one that is left out. A missing
file is no failure; the defaults are used and the absence is noted.

An override is given when it has a value. The rate of playback and the subtitle
file are exceptions: a rate of zero is no rate and an empty text no file, so
they count as not given. Whatever is given as the subtitle file becomes a text.

## Main definitions

* `Settings`: The settings in their sections.
* `Settings.ofValue`: The settings that a file's content describes.
* `Settings.load`: The settings of a file.
* `Settings.Overrides`, `Settings.override`: What a caller sets.
-/

namespace Captions

/-- How instructions are played and previewed. -/
structure Playback where
  /-- The rate at which instructions are played. -/
  speed : Value := .ofDouble (Binary64.ofInt 1)
  /-- The most blocks that a preview lists. -/
  previewEntries : Value := .ofInt 10

/-- What is logged and where. -/
structure Logging where
  /-- The name of the least severe level that is logged. -/
  level : Value := .ofString "INFO"
  /-- The file that the log is written to as well. -/
  file : Value := .null

/-- The settings of the program. -/
structure Settings where
  /-- The subtitle file. -/
  subtitleFile : Value := .null
  /-- The look of the text. -/
  style : Style := {}
  /-- Playing and previewing. -/
  playback : Playback := {}
  /-- The log. -/
  logging : Logging := {}

namespace Settings

/-- Why the content of a file describes no settings. -/
inductive Fault where
  /-- The file cannot be had. -/
  | file (fault : FileTree.Fault)
  /-- Its octets are not text. -/
  | encoding (fault : Utf8.Fault)
  /-- Its text cannot be read. -/
  | content (fault : Yaml.Fault)
  /-- It holds no mapping. -/
  | noMapping (value : Value)
  /-- A section is no mapping. -/
  | noSection (value : Value)

/-- What is said when a file describes no settings. -/
def Fault.message : Fault → Text
  | .file f => f.message
  | .encoding f => f.message
  | .content f => f.message
  | .noMapping v => "'" ++ v.kind ++ "' object has no attribute 'get'"
  | .noSection v => "'" ++ v.kind ++ "' object has no attribute 'items'"

/-- The value under a name, or a default if the name is missing. -/
def field (es : List (Key × Value)) (name : Text) (standard : Value) : Value :=
  (Value.find? name es).getD standard

/-- The look of the text that a section describes. -/
def styleOf (es : List (Key × Value)) : Style where
  fontSize := field es "font_size" .null
  textColor := field es "text_color" .null
  outline := field es "outline" .null
  outlineWidth := field es "outline_width" .null
  outlineColor := field es "outline_color" .null
  containerWidth := field es "container_width" .null

/-- The playback that a section describes. -/
def playbackOf (es : List (Key × Value)) : Playback :=
  let standard : Playback := {}
  { speed := field es "speed" standard.speed
    previewEntries := field es "preview_entries" standard.previewEntries }

/-- The logging that a section describes. -/
def loggingOf (es : List (Key × Value)) : Logging :=
  let standard : Logging := {}
  { level := field es "level" standard.level
    file := field es "file" standard.file }

/-- The entries of a section. A section that is missing or holds nothing has
    none. -/
def section? (es : List (Key × Value)) (name : Text) : Except Fault (List (Key × Value)) :=
  match Value.find? name es with
  | none | some .null => .ok []
  | some (.map entries) => .ok entries
  | some v => .error (.noSection v)

/-- The settings that sections describe. -/
def ofSections (es : List (Key × Value)) : Except Fault Settings := do
  let source ← section? es "source"
  let style ← section? es "style"
  let playback ← section? es "playback"
  let logging ← section? es "logging"
  return {
    subtitleFile := field source "subtitle_file" .null
    style := styleOf style
    playback := playbackOf playback
    logging := loggingOf logging }

/-- The settings that the content of a file describes. -/
def ofValue (v : Value) : Except Fault Settings :=
  match v with
  | .map es => ofSections es
  | v => if v.isSet then .error (.noMapping v) else ofSections []

/-- The settings of the configuration that comes with the program. They name
    every default. -/
def bundled : Settings where
  style := Style.standard

/-- The text of a configuration file. A character that the end of the file cuts
    short is looked at only when nothing follows it, and so it is found at the
    beginning of what is left. -/
def textOf (octets : Octets) : Except Fault Text :=
  match Utf8.decode octets with
  | .ok t => .ok (Text.unifyBreaks t)
  | .error f =>
    .error (.encoding (if f.reason = .unexpectedEnd then { f with position := 0 } else f))

/-- The settings that a configuration file describes. -/
def ofOctets (octets : Octets) : Except Fault Settings := do
  let t ← textOf octets
  match Yaml.read t with
  | .error f => .error (.content f)
  | .ok v => ofValue v

/-- The path of the configuration that comes with the program, as notices call
    it. -/
def bundledPath : Text := "<bundled config.yaml>"

/-- The settings of the file at a path, with a notice of where they come
    from. -/
def loadFile (tree : FileTree) (p : FilePath) : List Notice × Except Fault Settings :=
  match tree.present p with
  | .error fault => ([], .error (.file fault))
  | .ok false => ([.settingsMissing p.text], .ok {})
  | .ok true =>
    match tree.read p with
    | .error fault => ([], .error (.file fault))
    | .ok octets =>
      match ofOctets octets with
      | .error fault => ([], .error fault)
      | .ok settings => ([.settingsLoaded p.text], .ok settings)

/-- The settings of the file at a path, or those that come with the program. -/
def load (tree : FileTree) : Option FilePath → List Notice × Except Fault Settings
  | none => ([.settingsLoaded bundledPath], .ok bundled)
  | some p => loadFile tree p

/-- What a caller sets. Nothing is the value of an override that is not
    given. -/
structure Overrides where
  /-- The subtitle file. -/
  subtitleFile : Value := .null
  /-- The fields of the style. -/
  style : Style := {}
  /-- The rate of playback. -/
  speed : Value := .null

/-- A value that is given, and otherwise the one that stands. -/
def given (value standing : Value) : Value :=
  match value with
  | .null => standing
  | v => v

/-- A style with the fields that are given replaced. -/
def overrideStyle (o s : Style) : Style where
  fontSize := given o.fontSize s.fontSize
  textColor := given o.textColor s.textColor
  outline := given o.outline s.outline
  outlineWidth := given o.outlineWidth s.outlineWidth
  outlineColor := given o.outlineColor s.outlineColor
  containerWidth := given o.containerWidth s.containerWidth

/-- The settings with a caller's overrides. -/
def override (s : Settings) (o : Overrides) : Settings where
  subtitleFile :=
    if o.subtitleFile.isSet then .text o.subtitleFile.written else s.subtitleFile
  style := overrideStyle o.style s.style
  -- A rate of zero does not count as given.
  playback := { s.playback with speed := if o.speed.isSet then o.speed else s.playback.speed }
  logging := s.logging

end Settings

end Captions
