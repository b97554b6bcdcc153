import Captions.CommandLine

/-!
# The executable

The command line program with its effects carried out. The files that its
words and its settings name are looked up first, each with the folders above
it, and make up the tree that the program runs on; then the effects follow in
order.

## Main definitions

* `main`: The entry point.
-/

namespace Captions

namespace Main

/-- A text as a string. -/
def string (t : Text) : String := String.ofList t

/-- The names on the way to the working folder. -/
def workingFolder : IO Location := do
  let folder ← IO.currentDir
  return (FilePath.ofText folder.toString.toList).names

/-- What is at a location now. -/
def look (place : Location) : IO (Option FileTree.Node) := do
  let path := (← IO.currentDir) / string ("/" ++ Text.joinWith "/" place)
  if !(← path.pathExists) then return none
  if ← path.isDir then return some .folder
  let content ← IO.FS.readBinFile path
  return some (.file content.toList)

/-- The tree with what is at a location and at the folders above it. -/
def learn (tree : FileTree) (place : Location) : IO FileTree := do
  let ways := (List.range (place.length + 1)).map fun n => place.take n
  ways.foldlM
    (fun tree way => do
      match ← look way with
      | some node => return tree.put way node
      | none => return tree)
    tree

/-- The tree with what is at a path. -/
def learnPath (tree : FileTree) (p : FilePath) : IO FileTree :=
  let start := if p.root = [] then tree.here else []
  learn tree (FilePath.lexicalNames true (start ++ p.names))

/-- The paths of the subtitle file, the log file and the result. -/
def pathsOf (a : CommandLine.Arguments) (settings : Settings) : List FilePath :=
  [settings.subtitleFile, settings.logging.file].filterMap (fun v =>
    match v with
    | .text t => some (FilePath.ofText t)
    | _ => none) ++ a.output.toList

/-- The tree of the files that the words name, directly or by way of the
    settings. -/
def treeFor (words : List Text) : IO FileTree := do
  let tree : FileTree := { here := ← workingFolder }
  match CommandLine.parse words with
  | .error _ => return tree
  | .ok a =>
    let tree ← a.config.toList.foldlM learnPath tree
    match (Settings.load tree a.config).2 with
    | .error _ => return tree
    | .ok settings => (pathsOf a (settings.override a.overrides)).foldlM learnPath tree

/-- A number of milliseconds as seconds. -/
def secondsText (millis : Nat) : Text :=
  Text.digits (millis / 1000) ++ "." ++ Text.padded 3 (millis % 1000)

/-- A number of seconds as whole milliseconds. -/
def millisOf (seconds : Binary64) : Nat :=
  ((seconds.mul (Binary64.ofInt 1000)).nearest?.getD 0).toNat

/-- Put a line at the end of a log file. -/
def appendLine (p : FilePath) (line : Text) : IO Unit := do
  let handle ← IO.FS.Handle.mk (string p.text) .append
  handle.putStrLn (string line)

/-- Carry out an effect. The answer is the log file from then on. -/
def perform (elapsed : Text) (log : Option FilePath) : CommandLine.Effect → IO (Option FilePath)
  | .print t => do
    IO.println (string t)
    (← IO.getStdout).flush
    return log
  | .complain t => do
    IO.eprintln (string t)
    return log
  | .record n => do
    let line := CommandLine.logLine elapsed n
    IO.eprintln (string line)
    log.toList.forM fun p => appendLine p line
    return log
  | .openLog p => do
    let _ ← IO.FS.Handle.mk (string p.text) .append
    return some p
  | .makeFolders p => do
    IO.FS.createDirAll (string p.text)
    return log
  | .write p content => do
    IO.FS.writeFile (string p.text) (string content)
    return log
  | .sleep seconds => do
    IO.sleep (UInt32.ofNat (millisOf seconds))
    return log

/-- The exit code of an ending. Breaking off is reported. -/
def exitCode : CommandLine.Ending → IO UInt32
  | .exit code => return UInt32.ofNat code
  | .failed f => do
    IO.eprintln (string f.message)
    return 1

end Main

end Captions

open Captions in
/-- Run the program on the words of the command line. -/
def main (words : List String) : IO UInt32 := do
  let words := words.map String.toList
  let tree ← Main.treeFor words
  let before ← IO.monoMsNow
  let (session, ending) := CommandLine.run tree (Sleeper.system none) words
  let after ← IO.monoMsNow
  let elapsed := Main.secondsText (after - before)
  let _ ← session.effects.reverse.foldlM (Main.perform elapsed) none
  Main.exitCode ending
