import Captions.FilePath
import Captions.Text.Quoted
import Captions.Text.Decimal
import Captions.Text.Utf8

/-!
# File trees

The files that a run reads and writes. Each is listed at its *location*, the
names on the way from the root, and a path without a root starts from the
working folder. A folder exists if it is listed, if something is listed below
it, or if the way to the working folder leads through it. What is not listed is
absent.

Looking up a path walks its names one by one. A step upwards leads to the
folder above wherever the path stands, so it is refused below a file or below
a name that is not there. Overlong names and paths are refused as well, and so
is a path that holds a null character.

## Main definitions

* `FileTree`: Files and folders, and the working folder.
* `FileTree.Fault`: Why a path cannot be used.
* `FileTree.find`: What a path leads to.
* `FileTree.read`, `FileTree.write`, `FileTree.append`: The content of files.
* `FileTree.makeFolders`: Making a folder and the folders above it.
-/

namespace Captions

/-- The names on the way from the root. -/
abbrev Location := List Text

namespace FileTree

/-- What is at a location. -/
inductive Node where
  /-- A file with its content. -/
  | file (content : Octets)
  /-- A folder. -/
  | folder

/-- Why a path cannot be used. -/
inductive Trouble where
  /-- There is nothing there. -/
  | notFound
  /-- There is something there already. -/
  | exists
  /-- A name on the way belongs to a file. -/
  | notFolder
  /-- The path belongs to a folder. -/
  | isFolder
  /-- A name or the whole path is too long. -/
  | tooLong
  /-- The path holds a null character. -/
  | nullCharacter
  deriving DecidableEq

/-- A path and why it cannot be used. -/
structure Fault where
  /-- What is wrong. -/
  trouble : Trouble
  /-- The path as it was given. -/
  path : Text
  deriving DecidableEq

/-- The number and the words of a trouble that the system reports. -/
def Trouble.words? : Trouble → Option (Nat × Text)
  | .notFound => some (2, "No such file or directory")
  | .exists => some (17, "File exists")
  | .notFolder => some (20, "Not a directory")
  | .isFolder => some (21, "Is a directory")
  | .tooLong => some (36, "File name too long")
  | .nullCharacter => none

/-- What is said when a path cannot be used. -/
def Fault.message (f : Fault) : Text :=
  match f.trouble.words? with
  | some (number, words) =>
    "[Errno " ++ Text.digits number ++ "] " ++ words ++ ": " ++ Text.quoted f.path
  | none => "embedded null byte"

end FileTree

/-- Files and folders, and the folder that paths start from. -/
structure FileTree where
  /-- The location of the working folder. -/
  here : Location
  /-- What is at which location, the latest first. -/
  entries : List (Location × FileTree.Node) := []

namespace FileTree

/-- What is at a location. -/
def node? (tree : FileTree) (place : Location) : Option Node :=
  match tree.entries.find? (fun e => e.1 = place) with
  | some e => some e.2
  | none =>
    if place.isPrefixOf tree.here ∨ tree.entries.any (fun e => place.isPrefixOf e.1) then
      some .folder
    else none

/-- What a path leads to. -/
inductive Found where
  /-- A file. -/
  | file (place : Location) (content : Octets)
  /-- A folder. -/
  | folder (place : Location)
  /-- Nothing, inside a folder that is there. -/
  | vacant (place : Location)

/-- The most octets in a name. -/
def nameLimit : Nat := 255

/-- The number of octets from which on a path is too long. -/
def pathLimit : Nat := 4096

/-- What the names lead to from a folder on. -/
def findFrom (tree : FileTree) : (here : Location) → List Text → Except Trouble Found
  | here, [] => .ok (.folder here)
  | here, n :: names =>
    -- The walk stands in a folder here, so the step upwards always leads somewhere.
    if n = FilePath.up then findFrom tree here.dropLast names
    else if nameLimit < (Utf8.encode n).length then .error .tooLong
    else
      match tree.node? (here ++ [n]) with
      | some .folder => findFrom tree (here ++ [n]) names
      | some (.file content) =>
        if names = [] then .ok (.file (here ++ [n]) content) else .error .notFolder
      | none => if names = [] then .ok (.vacant (here ++ [n])) else .error .notFound

/-- What a path leads to. -/
def find (tree : FileTree) (p : FilePath) : Except Trouble Found :=
  if p.text.contains (Char.ofNat 0) then .error .nullCharacter
  else if pathLimit ≤ (Utf8.encode p.text).length then .error .tooLong
  else findFrom tree (if p.root = [] then tree.here else []) p.names

/-- The content of a file. -/
def read (tree : FileTree) (p : FilePath) : Except Fault Octets :=
  match tree.find p with
  | .ok (.file _ content) => .ok content
  | .ok (.folder _) => .error ⟨.isFolder, p.text⟩
  | .ok (.vacant _) => .error ⟨.notFound, p.text⟩
  | .error trouble => .error ⟨trouble, p.text⟩

/-- Whether there is anything at a path. Only an overlong path leaves that
    open. -/
def present (tree : FileTree) (p : FilePath) : Except Fault Bool :=
  match tree.find p with
  | .ok (.vacant _) => .ok false
  | .ok _ => .ok true
  | .error .tooLong => .error ⟨.tooLong, p.text⟩
  | .error _ => .ok false

/-- The tree with something put at a location. -/
def put (tree : FileTree) (place : Location) (node : Node) : FileTree :=
  { tree with entries := (place, node) :: tree.entries.filter fun e => e.1 ≠ place }

/-- The tree with what a function makes of the content of a file, which is
    empty if there is no file yet. -/
def update (tree : FileTree) (p : FilePath) (f : Octets → Octets) : Except Fault FileTree :=
  match tree.find p with
  | .ok (.file place content) => .ok (tree.put place (.file (f content)))
  | .ok (.vacant place) => .ok (tree.put place (.file (f [])))
  | .ok (.folder _) => .error ⟨.isFolder, p.text⟩
  | .error trouble => .error ⟨trouble, p.text⟩

/-- The tree with this content in a file. -/
def write (tree : FileTree) (p : FilePath) (content : Octets) : Except Fault FileTree :=
  tree.update p fun _ => content

/-- The tree with this content at the end of a file. -/
def append (tree : FileTree) (p : FilePath) (content : Octets) : Except Fault FileTree :=
  tree.update p (· ++ content)

/-- The tree with one more folder. -/
def makeFolder (tree : FileTree) (p : FilePath) : Except Trouble FileTree :=
  match tree.find p with
  | .ok (.vacant place) => .ok (tree.put place .folder)
  | .ok (.folder _) => .ok tree
  | .ok (.file ..) => .error .exists
  | .error trouble => .error trouble

/-- The tree with a folder and the folders above it, given the names on the way
    from the last to the first. The folders above are made only when the folder
    itself finds nothing to stand in. -/
def makeFoldersAt (root : Text) : (reversed : List Text) → FileTree → Except Fault FileTree
  | [], tree =>
    match tree.makeFolder ⟨root, []⟩ with
    | .ok tree => .ok tree
    | .error trouble => .error ⟨trouble, (FilePath.mk root []).text⟩
  | n :: above, tree =>
    let p := FilePath.mk root (n :: above).reverse
    match tree.makeFolder p with
    | .ok tree => .ok tree
    | .error .notFound => do
      -- The folder above is missing, so it is made first.
      let tree ← makeFoldersAt root above tree
      match tree.makeFolder p with
      | .ok tree => .ok tree
      | .error trouble => .error ⟨trouble, p.text⟩
    | .error trouble => .error ⟨trouble, p.text⟩

/-- The tree with a folder and the folders above it. -/
def makeFolders (tree : FileTree) (p : FilePath) : Except Fault FileTree :=
  makeFoldersAt p.root p.names.reverse tree

end FileTree

end Captions
