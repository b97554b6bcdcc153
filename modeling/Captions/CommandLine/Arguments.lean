import Captions.FilePath
import Captions.Number.Numeral
import Captions.Settings

/-!
# Arguments

The words of a command line are options, their values, and at most one subtitle
file. A long option may be cut short as long as no other begins the same way,
and takes its value after an equals sign or as the next word. A short option
takes the rest of its word as its value, or, having none, lets other short
options follow in the same word. A word of two dashes ends the options.

All words are first told apart, so an abbreviation that is not unique is
reported before anything else. Then they are taken in order. Words that have no
use are collected and reported at the end, and asking for help ends everything
at once.

A negative number is no option, and neither is a word with a space in it that
no option matches.

The releases of the usual parser differ in small matters, and this one is like
those up to 3.11.8. What follows an equals sign after a short option without a
value is read as more short options, a character that begins no option makes
the word wrong, and a value of two dashes is no value.

## Main definitions

* `CommandLine.Flag`: The options.
* `CommandLine.Arguments`: What a command line says.
* `CommandLine.Word`, `CommandLine.word`: The kinds of words.
* `CommandLine.parse`: The arguments that words give.
-/

namespace Captions

namespace CommandLine

/-- The options. -/
inductive Flag where
  /-- Explain the options. -/
  | help
  /-- Write the result to a file. -/
  | output
  /-- Use another configuration file. -/
  | config
  /-- Set the font size. -/
  | fontSize
  /-- Set the colour of the text. -/
  | textColor
  /-- Draw an outline. -/
  | outline
  /-- Draw no outline. -/
  | noOutline
  /-- Set the width of the outline. -/
  | outlineWidth
  /-- Set the colour of the outline. -/
  | outlineColor
  /-- Set the width of the text's box. -/
  | containerWidth
  /-- Print a preview. -/
  | preview
  /-- Play the instructions. -/
  | play
  /-- Set the rate of playback. -/
  | speed
  /-- Print the manifest. -/
  | describe
  /-- Log everything. -/
  | verbose
  /-- Log only warnings and errors. -/
  | quiet
  deriving DecidableEq

namespace Flag

/-- The options in the order in which they are listed. -/
def all : List Flag :=
  [ help, output, config, fontSize, textColor, outline, noOutline, outlineWidth, outlineColor,
    containerWidth, preview, play, speed, describe, verbose, quiet ]

/-- The names of an option. -/
def names : Flag → List Text
  | help => ["-h", "--help"]
  | output => ["-o", "--output"]
  | config => ["--config"]
  | fontSize => ["--font-size"]
  | textColor => ["--text-color"]
  | outline => ["--outline"]
  | noOutline => ["--no-outline"]
  | outlineWidth => ["--outline-width"]
  | outlineColor => ["--outline-color"]
  | containerWidth => ["--container-width"]
  | preview => ["--preview"]
  | play => ["--play"]
  | speed => ["--speed"]
  | describe => ["--describe"]
  | verbose => ["-v", "--verbose"]
  | quiet => ["-q", "--quiet"]

/-- Whether an option takes a value. -/
def takesValue : Flag → Bool
  | output | config | fontSize | textColor | outlineWidth | outlineColor | containerWidth
  | speed => true
  | _ => false

/-- All names with their options, in the order in which they are listed. -/
def table : List (Text × Flag) := all.flatMap fun f => f.names.map fun n => (n, f)

/-- The option with a name. -/
def named? (name : Text) : Option Flag :=
  (table.find? fun e => e.1 = name).map fun e => e.2

end Flag

/-- What is wrong with a command line. -/
inductive Misuse where
  /-- A word begins the names of several options. -/
  | ambiguous (word : Text) (names : List Text)
  /-- An option lacks its value. -/
  | missingValue (flag : Flag)
  /-- An option has a value that it does not take. -/
  | surplusValue (flag : Flag) (value : Text)
  /-- The value of an option is no double. -/
  | notDouble (flag : Flag) (value : Text)
  /-- The value of an option is no whole number. -/
  | notWhole (flag : Flag) (value : Text)
  /-- Words have no use. -/
  | unrecognized (words : List Text)
  deriving DecidableEq

/-- How messages call an option. -/
def Flag.title (f : Flag) : Text := "argument " ++ Text.joinWith "/" f.names ++ ": "

/-- What is said about a command line that is wrong. -/
def Misuse.message : Misuse → Text
  | .ambiguous word names =>
    "ambiguous option: " ++ word ++ " could match " ++ Text.joinWith ", " names
  | .missingValue f => f.title ++ "expected one argument"
  | .surplusValue f v => f.title ++ "ignored explicit argument " ++ Text.quoted v
  | .notDouble f v => f.title ++ "invalid float value: " ++ Text.quoted v
  | .notWhole f v => f.title ++ "invalid int value: " ++ Text.quoted v
  | .unrecognized words => "unrecognized arguments: " ++ Text.joinWith " " words

/-- Why a command line gives no arguments. -/
inductive Stop where
  /-- It asks for help. -/
  | help
  /-- It is wrong. -/
  | misuse (m : Misuse)
  deriving DecidableEq

/-- What a command line says. -/
structure Arguments where
  /-- The settings that it overrides. -/
  overrides : Settings.Overrides := {}
  /-- The file for the result. -/
  output : Option FilePath := none
  /-- The configuration file. -/
  config : Option FilePath := none
  /-- Whether to print a preview. -/
  preview : Bool := false
  /-- Whether to play the instructions. -/
  play : Bool := false
  /-- Whether to print the manifest. -/
  describe : Bool := false
  /-- Whether to log everything. -/
  verbose : Bool := false
  /-- Whether to log only warnings and errors. -/
  quiet : Bool := false

/-- What kind of word a word is. -/
inductive Word where
  /-- It is no option. -/
  | plain (t : Text)
  /-- It ends the options. -/
  | separator
  /-- It looks like an option, but is none. -/
  | unknown (t : Text)
  /-- It is an option, long or short, perhaps with a value. -/
  | option (flag : Flag) (long : Bool) (value : Option Text)
  deriving DecidableEq

/-- The text before and after the first equals sign. -/
def atEquals (t : Text) : Text × Option Text :=
  match t.dropWhile (· ≠ '=') with
  | [] => (t, none)
  | _ :: value => (t.takeWhile (· ≠ '='), some value)

/-- Whether a name is a long one. -/
def isLong : Text → Bool
  | '-' :: '-' :: _ => true
  | _ => false

/-- Whether there is a digit, and nothing but digits. -/
def allDigits (t : Text) : Bool := !t.isEmpty && t.all fun c => (Text.digitValue? c).isSome

/-- Whether what follows a dash makes it a negative number. A line feed at the
    end does not count. -/
def isNegated (t : Text) : Bool :=
  let body := if t.getLast? = some '\n' then t.dropLast else t
  match body.dropWhile (· ≠ '.') with
  | [] => allDigits body
  | _ :: places =>
    let whole := body.takeWhile (· ≠ '.')
    (whole.isEmpty || allDigits whole) && allDigits places

/-- The options that a word may mean by an abbreviation, with the name of each
    and the value. -/
def candidates (t : Text) : List (Text × Flag × Option Text) :=
  if isLong t then
    let (lead, value) := atEquals t
    (Flag.table.filter fun e => Text.startsWith lead e.1).map fun e => (e.1, e.2, value)
  else
    Flag.table.filterMap fun e =>
      if e.1 = t.take 2 then some (e.1, e.2, some (t.drop 2)) else none

/-- The kind of a word that is no option by its exact name. -/
def guess (t : Text) : Except Stop Word :=
  match candidates t with
  | [(name, flag, value)] => .ok (.option flag (isLong name) value)
  | [] =>
    if isNegated (t.drop 1) || t.contains ' ' then .ok (.plain t) else .ok (.unknown t)
  | several => .error (.misuse (.ambiguous t (several.map fun e => e.1)))

/-- The kind of a word before the end of the options. -/
def word (t : Text) : Except Stop Word :=
  match t with
  | '-' :: _ :: _ =>
    match Flag.named? t with
    | some flag => .ok (.option flag (isLong t) none)
    | none =>
      match Flag.named? (atEquals t).1, (atEquals t).2 with
      | some flag, some value => .ok (.option flag (isLong t) (some value))
      | _, _ => guess t
  | _ => .ok (.plain t)

/-- The kinds of words. -/
def wordsOf : List Text → Except Stop (List Word)
  | [] => .ok []
  | t :: ts =>
    -- What follows the separator is plain, whatever it begins with.
    if t = "--" then .ok (.separator :: ts.map Word.plain)
    else do
      let w ← word t
      let ws ← wordsOf ts
      return w :: ws

/-- The options in a word of short options, with the value of the last, and the
    words that follow. -/
def cluster (flag : Flag) (long : Bool) :
    (value : Option Text) → List Word → Except Stop (List (Flag × Option Text) × List Word)
  | none, ws =>
    if flag.takesValue then
      match ws with
      | .plain t :: rest => .ok ([(flag, some t)], rest)
      | _ => .error (.misuse (.missingValue flag))
    else .ok ([(flag, none)], ws)
  | some v, ws =>
    if flag.takesValue then .ok ([(flag, some v)], ws)
    else
      match v with
      | [] => .error (.misuse (.surplusValue flag v))
      | c :: more =>
        if long then .error (.misuse (.surplusValue flag v))
        else
          -- What looks like a value begins with another short option.
          match Flag.named? ['-', c] with
          | none => .error (.misuse (.surplusValue flag v))
          | some next =>
            (cluster next false (if more.isEmpty then none else some more) ws).map
              fun (found, rest) => ((flag, none) :: found, rest)
termination_by value => (value.map fun v => v.length + 1).getD 0
decreasing_by
  cases more <;> simp

/-- The value of an option as a double. -/
def double (flag : Flag) (t : Text) : Except Stop Value :=
  match Numeral.double? t with
  | some x => .ok (.ofDouble x)
  | none => .error (.misuse (.notDouble flag t))

/-- The value of an option as a whole number. -/
def whole (flag : Flag) (t : Text) : Except Stop Value :=
  match Numeral.whole t with
  | .ok n => .ok (.ofInt n)
  | .error _ => .error (.misuse (.notWhole flag t))

/-- The value of an option as a text. -/
def verbatim (t : Text) : Except Stop Value := .ok (.text t)

/-- The value of a setting that an option gives. Two dashes give an empty list,
    which replaces the setting but counts as open. -/
def setting (read : Text → Except Stop Value) (t : Text) : Except Stop Value :=
  if t = "--" then .ok (.list []) else read t

/-- The path that an option gives. Two dashes give none. -/
def path? (t : Text) : Option FilePath :=
  if t = "--" then none else some (FilePath.ofText t)

namespace Arguments

/-- The arguments with an override changed. -/
def withOverrides (a : Arguments) (f : Settings.Overrides → Settings.Overrides) : Arguments :=
  { a with overrides := f a.overrides }

/-- The arguments with the style that they override changed. -/
def withStyle (a : Arguments) (f : Style → Style) : Arguments :=
  a.withOverrides fun o => { o with style := f o.style }

/-- The arguments with an option that takes no value. -/
def switch (a : Arguments) : Flag → Except Stop Arguments
  | .help => .error .help
  | .outline => .ok (a.withStyle fun s => { s with outline := .bool true })
  | .noOutline => .ok (a.withStyle fun s => { s with outline := .bool false })
  | .preview => .ok { a with preview := true }
  | .play => .ok { a with play := true }
  | .describe => .ok { a with describe := true }
  | .verbose => .ok { a with verbose := true }
  | .quiet => .ok { a with quiet := true }
  | _ => .ok a

/-- The arguments with an option and its value. -/
def assign (a : Arguments) (flag : Flag) (t : Text) : Except Stop Arguments :=
  match flag with
  | .output => return { a with output := path? t }
  | .config => return { a with config := path? t }
  | .fontSize => do
    let v ← setting (double flag) t
    return a.withStyle fun s => { s with fontSize := v }
  | .textColor => do
    let v ← setting verbatim t
    return a.withStyle fun s => { s with textColor := v }
  | .outlineWidth => do
    let v ← setting (double flag) t
    return a.withStyle fun s => { s with outlineWidth := v }
  | .outlineColor => do
    let v ← setting verbatim t
    return a.withStyle fun s => { s with outlineColor := v }
  | .containerWidth => do
    let v ← setting (whole flag) t
    return a.withStyle fun s => { s with containerWidth := v }
  | .speed => do
    let v ← setting (double flag) t
    return a.withOverrides fun o => { o with speed := v }
  | _ => return a

/-- The arguments with options and their values. -/
def setAll (a : Arguments) (found : List (Flag × Option Text)) : Except Stop Arguments :=
  found.foldlM
    (fun a (flag, value) =>
      match value with
      | none => a.switch flag
      | some t => a.assign flag t)
    a

/-- The arguments with a subtitle file. -/
def withFile (a : Arguments) (t : Text) : Arguments :=
  a.withOverrides fun o => { o with subtitleFile := .text (FilePath.ofText t).text }

end Arguments

/-- What has been made of the words so far. -/
structure Progress where
  /-- The arguments. -/
  arguments : Arguments := {}
  /-- Whether the subtitle file is given. -/
  named : Bool := false
  /-- The words without use, last first. -/
  surplus : List Text := []

/-- Take words in order. The fuel is the number of words. A word that ends the
    options and stands beside the subtitle file goes with it. -/
def consume : (fuel : Nat) → Progress → List Word → Except Stop Progress
  | 0, p, _ => .ok p
  | _ + 1, p, [] => .ok p
  | fuel + 1, p, .plain t :: ws =>
    if p.named then consume fuel { p with surplus := t :: p.surplus } ws
    else
      let p := { p with arguments := p.arguments.withFile t, named := true }
      match ws with
      | .separator :: rest => consume fuel p rest
      | _ => consume fuel p ws
  | fuel + 1, p, .separator :: ws =>
    if p.named then consume fuel { p with surplus := "--" :: p.surplus } ws
    else consume fuel p ws
  | fuel + 1, p, .unknown t :: ws => consume fuel { p with surplus := t :: p.surplus } ws
  | fuel + 1, p, .option flag long value :: ws => do
    let (found, rest) ← cluster flag long value ws
    let arguments ← p.arguments.setAll found
    consume fuel { p with arguments := arguments } rest

/-- The arguments that words give. -/
def parse (ts : List Text) : Except Stop Arguments := do
  let ws ← wordsOf ts
  let p ← consume ws.length {} ws
  if p.surplus = [] then return p.arguments
  else .error (.misuse (.unrecognized p.surplus.reverse))

end CommandLine

end Captions
