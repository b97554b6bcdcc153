import Captions.Yaml.Scan
import Captions.Yaml.Tree

/-!
# Reading configuration files

The value that the text of a configuration file stands for. The whole text is
checked for its form before any scalar is looked at. Then the collections are
gone through level by level: first the outermost, then all that stand in it,
and so on. Of several scalars that are not what they are demanded to be, the
first on the least level is reported.

A key is a scalar. A mapping with a tag that demands a scalar stands for the
value under its key `=`; as a key of any other mapping, `=` is a text.

## Main definitions

* `Yaml.Flaw`: A fault with its level.
* `Yaml.Tree.value`: The value that a tree stands for.
* `Yaml.read`: The value that a text stands for.
-/

namespace Captions

namespace Yaml

/-- A fault, with the number of collections around it. -/
structure Flaw where
  /-- The number of collections around it. -/
  level : Nat
  /-- The fault. -/
  fault : Fault
  deriving DecidableEq

/-- Both of two results. Of two flaws the one on the lesser level counts, and of
    two on one level the first. -/
def both {α β : Type} (a : Except Flaw α) (b : Except Flaw β) : Except Flaw (α × β) :=
  match a, b with
  | .ok x, .ok y => .ok (x, y)
  | .error e, .error f => .error (if f.level < e.level then f else e)
  | .error e, .ok _ => .error e
  | .ok _, .error f => .error f

/-- Entries with a value put under a key. A key that is there already keeps its
    place. -/
def insert (k : Key) (v : Value) : List (Key × Value) → List (Key × Value)
  | [] => [(k, v)]
  | (l, w) :: es => if l.same k then (l, v) :: es else (l, w) :: insert k v es

/-- Entries with distinct keys, the last value under each. -/
def distinct (es : List (Key × Value)) : List (Key × Value) :=
  es.foldl (fun done (k, v) => insert k v done) []

/-- The key that a scalar's value is. -/
def key? : Value → Option Key
  | .null => some .null
  | .bool b => some (.bool b)
  | .number x => some (.number x)
  | .text t => some (.text t)
  | .moment m => some (.moment m)
  | .list _ | .map _ => none

/-- Whether a kind is that of a collection. -/
def Kind.isCollection (k : Kind) : Bool := k = .list || k = .map

namespace Tree

mutual

/-- The text of a scalar, or of the scalar that a mapping stands for. -/
def content? : Tree → Option Text
  | .scalar _ t => some t
  | .map _ own _ => standard? own
  | _ => none

/-- The text of the value under the key `=`. -/
def standard? : List (Tree × Tree) → Option Text
  | [] => none
  | (k, v) :: es => if k.kind = .standard then content? v else standard? es

end

/-- The scalar that a tree stands for at a level. A kind that is that of a
    collection is taken back only on the next level. -/
def scalarAt (level : Nat) (t : Tree) : Except Flaw Value :=
  if t.kind.isCollection then .error ⟨level + 1, .malformed⟩
  else
    match t.content? with
    | none => .error ⟨level, .malformed⟩
    | some content =>
      match scalarValue t.kind content with
      | .ok v => .ok v
      | .error fault => .error ⟨level, fault⟩

/-- The key that a tree stands for at a level. -/
def keyAt (level : Nat) (t : Tree) : Except Flaw Key :=
  match t with
  | .scalar .standard content => .ok (.text content)
  | t =>
    -- Collections are no keys, which shows before it is known what is in them.
    if t.kind.isCollection then .error ⟨level, .malformed⟩
    else
      match scalarAt level t with
      | .error flaw => .error flaw
      | .ok v =>
        match key? v with
        | some k => .ok k
        | none => .error ⟨level, .malformed⟩

mutual

/-- The value that a tree stands for, with `level` collections around it. -/
def value (level : Nat) : Tree → Except Flaw Value
  | .list .list items => (values (level + 1) items).map Value.list
  | .map .map _ (some es) => (entries (level + 1) es).map fun es => Value.map (distinct es)
  | t => scalarAt level t

/-- The values that the elements of a list stand for. -/
def values (level : Nat) : List Tree → Except Flaw (List Value)
  | [] => .ok []
  | t :: ts => (both (value level t) (values level ts)).map fun (v, vs) => v :: vs

/-- The keys and values that the entries of a mapping stand for. -/
def entries (level : Nat) : List (Tree × Tree) → Except Flaw (List (Key × Value))
  | [] => .ok []
  | (k, v) :: es =>
    (both (both (keyAt level k) (value level v)) (entries level es)).map fun (e, rest) => e :: rest

end

end Tree

/-- The tree that a text is written as. -/
def tree (t : Text) : Except Fault Tree := do
  let ts ← tokens t
  match (Content.ofTokens? ts).bind Tree.ofContent? with
  | some tree => return tree
  | none => throw .malformed

/-- The value that a text stands for. -/
def read (t : Text) : Except Fault Value := do
  match (← tree t).value 0 with
  | .ok v => return v
  | .error flaw => throw flaw.fault

end Yaml

end Captions
