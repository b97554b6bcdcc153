import Captions.Yaml.Node
import Captions.Yaml.Scalar

/-!
# Trees of configuration files

A tree is what is left of a document when aliases are replaced by the nodes they
stand for and it is settled what kind of thing each node is. A tag settles that;
without one, a scalar in quotes is a text and a plain scalar is what it has the
form of.

A key of the kind `<<` merges: the entries of the mapping below it, or of a list
of mappings, are put in front of the other entries. Nothing else can be merged,
which does no harm to a mapping that stands for one of its own scalars; so a
mapping keeps its own entries beside the merged ones.

## Main definitions

* `Yaml.Tree`: The trees.
* `Yaml.Tree.ofContent?`: The tree of a document.
-/

namespace Captions

namespace Yaml

/-- A tree. -/
inductive Tree where
  /-- A scalar. -/
  | scalar (kind : Kind) (content : Text)
  /-- A list. -/
  | list (kind : Kind) (items : List Tree)
  /-- A mapping, with its own entries and with all of them where everything that
      it merges can be merged. -/
  | map (kind : Kind) (own : List (Tree × Tree)) (all : Option (List (Tree × Tree)))

namespace Tree

/-- The kind of a tree. -/
def kind : Tree → Kind
  | .scalar k _ | .list k _ | .map k _ _ => k

/-- All entries of a mapping. -/
def entries? : Tree → Option (List (Tree × Tree))
  | .map _ _ all => all
  | _ => none

/-- The entries that a value under a merging key brings. Of several mappings the
    last comes first, so that earlier ones replace its values. -/
def brought? : Tree → Option (List (Tree × Tree))
  | .list _ items => (items.mapM entries?).map fun lists => lists.reverse.flatten
  | t => entries? t

/-- The entries of a mapping with those that its merging keys bring. -/
def merged? (own : List (Tree × Tree)) : Option (List (Tree × Tree)) :=
  ((own.filter fun e => e.1.kind = .merge).mapM fun e => brought? e.2).map fun lists =>
    lists.flatten ++ own.filter fun e => e.1.kind ≠ .merge

end Tree

/-- The nodes that were given names. A name without a node is that of a
    collection which is not complete yet. -/
abbrev Anchors := List (Text × Option Tree)

/-- The anchors with one that belongs to a node about to be read. No name is
    given twice. -/
def begun? (p : Properties) (anchors : Anchors) : Option Anchors :=
  match p.anchor with
  | none => some anchors
  | some name =>
    if (anchors.lookup name).isSome then none else some ((name, none) :: anchors)

/-- The anchors when the node that they may name is complete. -/
def completed (p : Properties) (t : Tree) (anchors : Anchors) : Anchors :=
  match p.anchor with
  | none => anchors
  | some name => (name, some t) :: anchors

/-- The full name of a tag. -/
def Tag.fullName? (handles : Handles) (t : Tag) : Option Text :=
  match t.handle with
  | none => some t.name
  | some h => (handles.lookup h).map (· ++ t.name)

/-- What the tag of a node says about its kind: nothing at all, that the form
    decides, or the kind. -/
inductive Demand where
  /-- There is no tag. -/
  | none
  /-- The form decides, even of a scalar in quotes. -/
  | form
  /-- The kind. -/
  | kind (k : Kind)
  deriving DecidableEq

/-- What a tag demands. A name of an exclamation mark alone leaves it to the
    form. -/
def demand? (handles : Handles) (p : Properties) : Option Demand :=
  match p.tag with
  | none => some .none
  | some t =>
    (t.fullName? handles).map fun name =>
      if name = ['!'] then .form
      else
        match Text.afterPrefix? standardTags name with
        | some short => .kind (Kind.named short)
        | none => .kind .foreign

/-- The kind of a scalar. -/
def Demand.ofScalar (d : Demand) (plain : Bool) (content : Text) : Kind :=
  match d with
  | .none => if plain then Kind.ofForm content else .text
  | .form => Kind.ofForm content
  | .kind k => k

/-- The kind of a collection. -/
def Demand.ofCollection (d : Demand) (usual : Kind) : Kind :=
  match d with
  | .kind k => k
  | _ => usual

namespace Tree

mutual

/-- The tree of a node, with the anchors after it. -/
def ofNode? (handles : Handles) (anchors : Anchors) : Node → Option (Tree × Anchors)
  | .alias name =>
    match anchors.lookup name with
    | some (some t) => some (t, anchors)
    | _ => none
  | .scalar p plain content => do
    let anchors ← begun? p anchors
    let d ← demand? handles p
    let t := Tree.scalar (d.ofScalar plain content) content
    return (t, completed p t anchors)
  | .list p items => do
    let anchors ← begun? p anchors
    let d ← demand? handles p
    let (items, anchors) ← ofNodes? handles anchors items
    let t := Tree.list (d.ofCollection .list) items
    return (t, completed p t anchors)
  | .map p entries => do
    let anchors ← begun? p anchors
    let d ← demand? handles p
    let (entries, anchors) ← ofEntries? handles anchors entries
    let t := Tree.map (d.ofCollection .map) entries (merged? entries)
    return (t, completed p t anchors)

/-- The trees of nodes. -/
def ofNodes? (handles : Handles) (anchors : Anchors) :
    List Node → Option (List Tree × Anchors)
  | [] => some ([], anchors)
  | n :: ns => do
    let (t, anchors) ← ofNode? handles anchors n
    let (ts, anchors) ← ofNodes? handles anchors ns
    return (t :: ts, anchors)

/-- The trees of keys and values. -/
def ofEntries? (handles : Handles) (anchors : Anchors) :
    List (Node × Node) → Option (List (Tree × Tree) × Anchors)
  | [] => some ([], anchors)
  | (k, v) :: es => do
    let (key, anchors) ← ofNode? handles anchors k
    let (value, anchors) ← ofNode? handles anchors v
    let (rest, anchors) ← ofEntries? handles anchors es
    return ((key, value) :: rest, anchors)

end

/-- The tree of a document. -/
def ofContent? (c : Content) : Option Tree := (ofNode? c.handles [] c.root).map Prod.fst

end Tree

end Yaml

end Captions
