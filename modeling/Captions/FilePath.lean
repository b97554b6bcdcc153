import Captions.Text

/-!
# File paths

A path is a root and the names on the way. Reading a path drops what makes no
difference: empty names between repeated slashes, names that are a single dot,
and a slash at the end. A path upwards is kept, because what it leads to
depends on the folders there are.

A path that begins with a slash is absolute; exactly two slashes are a root of
their own, and more than two are one. A path without any names is a dot, or its
root.

## Main definitions

* `FilePath`: A root and names.
* `FilePath.ofText`, `FilePath.text`: Reading and writing a path.
* `FilePath.name`, `FilePath.parent`: The last name and the path before it.
* `FilePath.lexical`: A path with its steps upwards carried out on the names.
-/

namespace Captions

/-- A path to a file or a folder. -/
structure FilePath where
  /-- The slashes the path begins with: none, one or two. -/
  root : Text
  /-- The names on the way. -/
  names : List Text
  deriving DecidableEq

namespace FilePath

/-- The slash between names. -/
def slash : Char := '/'

/-- Whether a name says something about the way. -/
def isName (piece : Text) : Bool := piece ≠ [] && piece ≠ ['.']

/-- The root of a path that begins with these slashes. -/
def rootOf (t : Text) : Text :=
  match t.takeWhile (· = slash) with
  | [] => []
  | [_, _] => "//"
  | _ => "/"

/-- Read a path. -/
def ofText (t : Text) : FilePath :=
  ⟨rootOf t, (Text.cutAt (· = slash) t).filter isName⟩

/-- A path as it is written. -/
def text (p : FilePath) : Text :=
  if p.root = [] ∧ p.names = [] then "." else p.root ++ Text.joinWith "/" p.names

/-- The last name, empty for a path without names. -/
def name (p : FilePath) : Text := p.names.getLastD []

/-- The path without its last name. -/
def parent (p : FilePath) : FilePath := { p with names := p.names.dropLast }

/-- The step upwards. -/
def up : Text := ".."

/-- Names with the steps upwards carried out on the names before them. At the
    start of a relative path a step upwards stays; at the root it leads
    nowhere. -/
def lexicalNames (absolute : Bool) (names : List Text) : List Text :=
  (names.foldl
    (fun before n =>
      if n = up then
        match before with
        | [] => if absolute then [] else [up]
        | last :: rest => if last = up then up :: before else rest
      else n :: before)
    []).reverse

/-- A path with its steps upwards carried out on the names alone. -/
def lexical (p : FilePath) : FilePath :=
  { p with names := lexicalNames (p.root ≠ []) p.names }

end FilePath

end Captions
