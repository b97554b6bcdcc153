import Captions.Document
import Captions.FileTree
import Captions.Notice

/-!
# Sources

The source of a run is whatever the settings or the caller name as the subtitle
file. It may be any value; only a text that is not blank is used as a path. A
caller may also hand over a path that is made already, which is judged by how it
is written.

Reading a source gives its cues or says at which stage it failed: the source is
unusable, the file cannot be had, its octets are not text, or the text is no
subtitle document. Four failures are of another kind and stand apart: a value
that is no path and too long to be shown, a path that has no encoding or that the
system cannot take, and times that cannot be written because their hours are too
long.

A text from outside may hold half a character, which no text here does. A path
with such a half in it has no octets, so it names no file, and all that is ever
asked of it is where the half stands. Halves that stand for single octets are
another matter. They are the names of files that are not text, of which a file
tree has none.

## Main definitions

* `Source.Reference`: What a source is given as.
* `Source.Misuse`, `Source.path`: Which values name a file.
* `Source.Fault`: Why a source gives no cues.
* `Source.parse`: The cues of a text.
* `Source.read`: The cues of a source.
-/

namespace Captions

namespace Source

/-- Why a value names no subtitle file. -/
inductive Misuse where
  /-- It is no text. -/
  | notPath (value : Value)
  /-- It is blank. -/
  | blank

/-- What is said about a value that names no subtitle file. -/
def Misuse.message : Misuse → Text
  | .notPath v => "Subtitle source must be a path, got " ++ v.literal
  | .blank => "Subtitle source is empty"

/-- Halves of characters that a path has no octets for, all in a row. -/
structure Torn where
  /-- The number of characters of the path before them. -/
  position : Nat
  /-- The code of the first. -/
  code : Nat
  /-- The number of those after it. -/
  more : Nat
  /-- It is the code of half a character. -/
  code_range : 0xD800 ≤ code ∧ code ≤ 0xDFFF
  /-- It stands for no octet. -/
  code_not_octet : ¬ (0xDC80 ≤ code ∧ code ≤ 0xDCFF)

/-- What is said about a path that has no octets. -/
def Torn.message (t : Torn) : Text :=
  let first := Text.digits t.position
  let place : Text :=
    if t.more = 0 then " '\\u" ++ Text.hex 4 t.code ++ "' in position " ++ first
    else "s in position " ++ first ++ "-" ++ Text.digits (t.position + t.more)
  "'utf-8' codec can't encode character" ++ place ++ ": surrogates not allowed"

/-- What a source is given as. -/
inductive Reference where
  /-- Any value. -/
  | value (v : Value)
  /-- A path, made of a text. -/
  | path (t : Text)
  /-- A text or a path with halves of characters in it. -/
  | torn (t : Torn)

instance : Coe Value Reference := ⟨.value⟩

/-- Why a file gives no cues. -/
inductive Cause where
  /-- The file cannot be had. -/
  | file (fault : FileTree.Fault)
  /-- Its octets are not text. -/
  | encoding (fault : Utf8.Fault)
  /-- Its text is no subtitle document. -/
  | document (fault : Document.Fault)

/-- What is said about the cause. -/
def Cause.message : Cause → Text
  | .file f => f.message
  | .encoding f => f.message
  | .document f => f.message

/-- Why a source gives no cues. -/
inductive Fault where
  /-- The source names no file. -/
  | unusable (misuse : Misuse)
  /-- The source is no path, and a number in it has too many digits to be
      shown. -/
  | longNumber
  /-- The path has no octets. -/
  | unencodable (torn : Torn)
  /-- The file, called by this name, gives no cues. -/
  | unreadable (path : Text) (cause : Cause)
  /-- The path holds a null character. -/
  | nullCharacter
  /-- The hours of a time have too many digits to be written. -/
  | longHours

/-- What is said when a source gives no cues. -/
def Fault.message : Fault → Text
  | .unusable m => m.message
  | .longNumber => Numeral.unwritableMessage
  | .unencodable t => t.message
  | .unreadable path cause => "Could not read subtitles from " ++ path ++ ": " ++ cause.message
  | .nullCharacter => FileTree.Fault.message ⟨.nullCharacter, []⟩
  | .longHours => Document.Fault.longHours.message

/-- The path that a value names. A value that names none is shown. -/
def path : Value → Except Fault FilePath
  | .text t => if Text.isAllBlank t then .error (.unusable .blank) else .ok (FilePath.ofText t)
  | v => .error (if v.isWritable then .unusable (.notPath v) else .longNumber)

/-- The path that a source names. -/
def Reference.filePath : Reference → Except Fault FilePath
  | .value v => Source.path v
  | .path t => Source.path (.text (FilePath.ofText t).text)
  | .torn t => .error (.unencodable t)

/-- The cues of a text that goes by a name. -/
def parse (name : Text) (t : Text) : Except Fault (List Cue) :=
  match Document.parse t with
  | .ok cues => .ok cues
  | .error .longHours => .error .longHours
  | .error fault => .error (.unreadable name (.document fault))

/-- The name of a text that comes from no file. -/
def anonymous : Text := "<string>"

/-- The text of a file: its octets as UTF-8 without a leading byte order mark,
    with all line breaks as line feeds. -/
def content (tree : FileTree) (p : FilePath) : Except Fault Text :=
  match tree.read p with
  | .error fault =>
    if fault.trouble = .nullCharacter then .error .nullCharacter
    else .error (.unreadable p.text (.file fault))
  | .ok octets =>
    -- Positions in a fault count from after the mark.
    match Utf8.decode (Utf8.afterMark octets) with
    | .error fault => .error (.unreadable p.text (.encoding fault))
    | .ok t => .ok (Text.unifyBreaks t)

/-- The cues of a source. -/
def cues (tree : FileTree) (source : Reference) : Except Fault (FilePath × List Cue) := do
  let p ← source.filePath
  let t ← content tree p
  let found ← parse p.text t
  return (p, found)

/-- Read a source, and note how many cues it has. -/
def read (tree : FileTree) (source : Reference) : List Notice × Except Fault (List Cue) :=
  match cues tree source with
  | .error fault => ([], .error fault)
  | .ok (p, found) => ([.cuesLoaded found.length p.name], .ok found)

end Source

end Captions
