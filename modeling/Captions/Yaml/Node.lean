import Captions.Yaml.Token

/-!
# Nodes of configuration files

The tokens of a text build nodes: scalars, lists and mappings, each perhaps with
an anchor and a tag, and aliases, which stand for a node that was given a name
before. Which collection a token belongs to is settled by the tokens that open
and close it. An element, a key or a value that is left out is an empty plain
scalar.

A list by indentation may stand in the column of the key it belongs to. Nothing
opens or closes it then; it lasts as long as dashes follow.

A text holds at most one document, and an empty text holds an empty scalar. The
directives before the document settle what the handles of its tags stand for.

## Main definitions

* `Yaml.Node`: The nodes.
* `Yaml.Content`: A document.
* `Yaml.Content.ofTokens?`: The document that the tokens of a text make up.
-/

namespace Captions

namespace Yaml

/-- What stands beside a node. -/
structure Properties where
  /-- The name given to the node. -/
  anchor : Option Text := none
  /-- The tag. -/
  tag : Option Tag := none
  deriving DecidableEq

/-- A node. -/
inductive Node where
  /-- The node that was given a name. -/
  | alias (name : Text)
  /-- A scalar, and whether it is plain. -/
  | scalar (properties : Properties) (plain : Bool) (content : Text)
  /-- A list. -/
  | list (properties : Properties) (items : List Node)
  /-- A mapping. -/
  | map (properties : Properties) (entries : List (Node × Node))

namespace Node

/-- What stands where nothing is written. -/
def empty : Node := .scalar {} true []

/-- Whether the tokens begin with one of these. -/
def next (ts : List Token) (options : List Token) : Bool :=
  match ts with
  | [] => false
  | t :: _ => options.contains t

/-- What follows a comma. -/
def afterComma : List Token → Option (List Token)
  | .comma :: ts => some ts
  | _ => none

/-- An anchor and a tag, in either order, and what follows them. -/
def properties : List Token → Properties × List Token
  | .anchor a :: .tag t :: ts | .tag t :: .anchor a :: ts => (⟨some a, some t⟩, ts)
  | .anchor a :: ts => (⟨some a, none⟩, ts)
  | .tag t :: ts => (⟨none, some t⟩, ts)
  | ts => ({}, ts)

mutual

/-- A node. A list that nothing opens is read only where it may stand. -/
def parse (loose : Bool) : (fuel : Nat) → List Token → Option (Node × List Token)
  | 0, _ => none
  | _ + 1, .alias name :: ts => some (.alias name, ts)
  | fuel + 1, ts =>
    let (p, rest) := properties ts
    if next rest [.dash] && loose then
      (looseItems fuel rest).map fun (l, r) => (.list p l, r)
    else bare p fuel rest

/-- A node after its properties. -/
def bare (p : Properties) : (fuel : Nat) → List Token → Option (Node × List Token)
  | 0, _ => none
  | _ + 1, .scalar plain content :: ts => some (.scalar p plain content, ts)
  | fuel + 1, .bracketOpen :: ts => (bracketItems fuel true ts).map fun (l, r) => (.list p l, r)
  | fuel + 1, .braceOpen :: ts => (braceEntries fuel true ts).map fun (l, r) => (.map p l, r)
  | fuel + 1, .listOpen :: ts => (listItems fuel ts).map fun (l, r) => (.list p l, r)
  | fuel + 1, .mapOpen :: ts => (mapEntries fuel ts).map fun (l, r) => (.map p l, r)
  -- With an anchor or a tag beside it a node may be empty.
  | _ + 1, ts => if p = {} then none else some (.scalar p true [], ts)

/-- A node, or an empty one before any of these tokens. -/
def orEmpty (stops : List Token) (loose : Bool) :
    (fuel : Nat) → List Token → Option (Node × List Token)
  | 0, _ => none
  | fuel + 1, ts => if next ts stops then some (empty, ts) else parse loose fuel ts

/-- A value after its colon, or an empty one without a colon. -/
def valueOrEmpty (stops : List Token) (loose : Bool) :
    (fuel : Nat) → List Token → Option (Node × List Token)
  | 0, _ => none
  | fuel + 1, .value :: ts => orEmpty stops loose fuel ts
  | _ + 1, ts => some (empty, ts)

/-- The elements of a list up to its end. -/
def listItems : (fuel : Nat) → List Token → Option (List Node × List Token)
  | 0, _ => none
  | _ + 1, .blockClose :: ts => some ([], ts)
  | fuel + 1, .dash :: ts => do
    let (item, ts) ← orEmpty [.dash, .blockClose] false fuel ts
    let (items, ts) ← listItems fuel ts
    return (item :: items, ts)
  | _ + 1, _ => none

/-- The elements of a list as long as dashes follow. -/
def looseItems : (fuel : Nat) → List Token → Option (List Node × List Token)
  | 0, _ => none
  | fuel + 1, .dash :: ts => do
    let (item, ts) ← orEmpty [.dash, .key, .value, .blockClose] false fuel ts
    let (items, ts) ← looseItems fuel ts
    return (item :: items, ts)
  | _ + 1, ts => some ([], ts)

/-- The entries of a mapping up to its end. -/
def mapEntries : (fuel : Nat) → List Token → Option (List (Node × Node) × List Token)
  | 0, _ => none
  | _ + 1, .blockClose :: ts => some ([], ts)
  | fuel + 1, .key :: ts => do
    let (k, ts) ← orEmpty [.key, .value, .blockClose] true fuel ts
    let (v, ts) ← valueOrEmpty [.key, .value, .blockClose] true fuel ts
    let (entries, ts) ← mapEntries fuel ts
    return ((k, v) :: entries, ts)
  | _ + 1, _ => none

/-- The elements up to a closing bracket, the first of them without a comma
    before it. An element may be a single entry, which makes it a mapping. -/
def bracketItems : (fuel : Nat) → (first : Bool) → List Token → Option (List Node × List Token)
  | 0, _, _ => none
  | _ + 1, _, .bracketClose :: ts => some ([], ts)
  | fuel + 1, first, ts => do
    let ts ← if first then some ts else afterComma ts
    match ts with
    | .bracketClose :: ts => some ([], ts)
    | .key :: ts =>
      -- A key among elements makes a mapping with this entry alone.
      let (k, ts) ← orEmpty [.value, .comma, .bracketClose] false fuel ts
      let (v, ts) ← valueOrEmpty [.comma, .bracketClose] false fuel ts
      let (items, ts) ← bracketItems fuel false ts
      return (.map {} [(k, v)] :: items, ts)
    | ts =>
      let (item, ts) ← parse false fuel ts
      let (items, ts) ← bracketItems fuel false ts
      return (item :: items, ts)

/-- The entries up to a closing brace, the first of them without a comma before
    it. A node that no colon follows is a key without a value. -/
def braceEntries :
    (fuel : Nat) → (first : Bool) → List Token → Option (List (Node × Node) × List Token)
  | 0, _, _ => none
  | _ + 1, _, .braceClose :: ts => some ([], ts)
  | fuel + 1, first, ts => do
    let ts ← if first then some ts else afterComma ts
    match ts with
    | .braceClose :: ts => some ([], ts)
    | .key :: ts =>
      let (k, ts) ← orEmpty [.value, .comma, .braceClose] false fuel ts
      let (v, ts) ← valueOrEmpty [.comma, .braceClose] false fuel ts
      let (entries, ts) ← braceEntries fuel false ts
      return ((k, v) :: entries, ts)
    | ts =>
      let (k, ts) ← parse false fuel ts
      let (entries, ts) ← braceEntries fuel false ts
      return ((k, empty) :: entries, ts)

end

end Node

/-- What handles of tags stand for. -/
abbrev Handles := List (Text × Text)

/-- The beginning of the names of the tags that the notation itself defines. -/
def standardTags : Text := "tag:yaml.org,2002:"

/-- The handles that need no directive. -/
def standardHandles : Handles := [(['!'], ['!']), (['!', '!'], standardTags)]

/-- A document. -/
structure Content where
  /-- What the handles of its tags stand for. -/
  handles : Handles
  /-- The node. -/
  root : Node

namespace Content

/-- The handles that directives define, and what follows them. There is at most
    one version, whose first number is one, and one meaning for each handle. -/
def handles? (versioned : Bool) (found : Handles) :
    List Token → Option (Handles × List Token)
  | .directive (.version major) :: ts =>
    if versioned ∨ major ≠ 1 then none else handles? true found ts
  | .directive (.handle name meaning) :: ts =>
    if (found.lookup name).isSome then none else handles? versioned ((name, meaning) :: found) ts
  | .directive .other :: ts => handles? versioned found ts
  | ts => some (found ++ standardHandles, ts)

/-- The node after the mark of its document. -/
def afterStart (fuel : Nat) (ts : List Token) : Option (Node × List Token) :=
  match ts with
  | [] | .directive _ :: _ | .documentStart :: _ | .documentEnd :: _ => some (.empty, ts)
  | _ => Node.parse false fuel ts

/-- The document at the beginning of tokens, and what follows it. -/
def first? (fuel : Nat) (ts : List Token) : Option (Content × List Token) :=
  match ts with
  | [] => some (⟨standardHandles, .empty⟩, [])
  | .directive _ :: _ | .documentStart :: _ => do
    let (handles, ts) ← handles? false [] ts
    match ts with
    | .documentStart :: ts =>
      let (root, rest) ← afterStart fuel ts
      return (⟨handles, root⟩, rest)
    | _ => none
  | _ => do
    let (root, rest) ← Node.parse false fuel ts
    return (⟨standardHandles, root⟩, rest)

/-- The document that the tokens of a text make up. No token is read in more
    than four nested ways. -/
def ofTokens? (ts : List Token) : Option Content :=
  match first? (4 * ts.length + 4) ts with
  | some (content, rest) => if rest.all (· = .documentEnd) then some content else none
  | none => none

end Content

end Yaml

end Captions
