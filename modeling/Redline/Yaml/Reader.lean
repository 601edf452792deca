import Redline.Yaml.Plain
import Redline.Yaml.Token

/-!
# Reading YAML

`Yaml.ofText?` reads a text that holds one document; an empty one holds null. A document may hold a
number or a date without a value, and then has none itself, which is found out after it was read.
Each reader takes the tokens from its start and gives what it read with the tokens that remain, or
none where they do not fit. A name stands for the value that was read under it, so the names so far
are carried along. Every call takes a token or is the last of a few without one, so four times the
number of tokens bounds the depth.
-/

namespace Redline.Yaml

/-- What was read: a value, one of the two marks that are values only in some places, or something
without a value, and why. -/
inductive Node where
  | value (v : Yaml)
  | merge
  | equals
  | broken (reason : String)
  deriving Repr, Inhabited

/-- What is made of nodes: none where they do not fit, and a reason where one has no value. -/
abbrev Made := ExceptT String Option

/-- Nothing fits. -/
def Made.none_ {α : Type} : Made α :=
  liftM (none : Option α)

namespace Node

/-- The empty place of a value. -/
def empty : Node := .value null

/-- The value of a node. -/
def value? : Node → Made Yaml
  | .value v => return v
  | .broken reason => throw reason
  | .merge | .equals => Made.none_

/-- The node of a value that was made. -/
def ofMade? (m : Made Yaml) : Option Node :=
  m.run.map fun
    | .ok v => .value v
    | .error reason => .broken reason

/-- What a plain text is. -/
def ofPlain? (text : String) : Option Node :=
  match Plain.meaning text with
  | .scalar s => some (.value (.scalar s))
  | .merge => some .merge
  | .equals => some .equals
  | .broken reason => some (.broken reason)

end Node

/-- The entries of a mapping. -/
def mapEntries? (v : Yaml) : Option (List (Scalar × Yaml)) :=
  match v with
  | .map entries => some entries
  | _ => none

/-- The entries that a merge brings in: those of a mapping, or of several, of which the first comes
last and so wins. -/
def mergedEntries? (v : Yaml) : Option (List (Scalar × Yaml)) :=
  match v with
  | .seq items => (items.reverse.mapM mapEntries?).map List.flatten
  | v => mapEntries? v

/-- The entries of a mapping as written, those of merges first. Only a scalar can be a key. -/
def entries? (pairs : List (Node × Node)) : Made (List (Scalar × Yaml) × List (Scalar × Yaml)) :=
  match pairs with
  | [] => return ([], [])
  | (key, v) :: rest => do
    let v ← v.value?
    let (merged, own) ← entries? rest
    match key with
    | .merge => return ((← liftM (mergedEntries? v)) ++ merged, own)
    | .equals => return (merged, (.text "=", v) :: own)
    | .value (.scalar s) => return (merged, (s, v) :: own)
    | .value _ => Made.none_
    | .broken reason => throw reason

/-- The mapping of pairs; of several with one key the last counts, at the place of the first. -/
def ofPairs? (pairs : List (Node × Node)) : Option Node :=
  Node.ofMade? do
    let (merged, own) ← entries? pairs
    return .map ((merged ++ own).foldl (fun es e => Assoc.put es e.1 e.2) [])

/-- The sequence of nodes. -/
def ofNodes? (nodes : List Node) : Option Node :=
  Node.ofMade? do
    return .seq (← nodes.mapM Node.value?)

/-- The values that have a name. -/
abbrev Names := List (String × Node)

/-- What a reader gives: what was read, the names, and the tokens that remain. -/
abbrev Taken (α : Type) := α × Names × List Token

/-- The anchor and the tag in front of a node, each at most once. -/
def properties (ts : List Token) : Option String × Option String × List Token :=
  match ts with
  | .anchor a :: .tag t :: rest => (some a, some t, rest)
  | .tag t :: .anchor a :: rest => (some a, some t, rest)
  | .anchor a :: rest => (some a, none, rest)
  | .tag t :: rest => (none, some t, rest)
  | ts => (none, none, ts)

/-- The tag of text. -/
def textTag : String := "!!str"

/-- A scalar under a tag: plain text is read for its meaning, and so is any text under the tag that
asks for it. -/
def scalarNode? (tag : Option String) (text : String) (isPlain : Bool) : Option Node :=
  match tag with
  | none => if isPlain then Node.ofPlain? text else some (.value (Yaml.text text))
  | some "!" => Node.ofPlain? text
  | some t => if t = textTag then some (.value (Yaml.text text)) else none

/-- Whether a collection may stand under a tag. -/
def fitsTag (tag : Option String) (own : String) : Bool :=
  match tag with
  | none => true
  | some t => t = "!" || t = own

mutual

/-- A node. `inBlock` tells whether it may be a block collection, and `bare` whether it may be a
sequence that is indented no further than the mapping around it. -/
def node (fuel : Nat) (inBlock bare : Bool) (names : Names) (ts : List Token) :
    Option (Taken Node) :=
  match fuel with
  | 0 => none
  | fuel + 1 =>
    match ts with
    | .alias name :: rest => (names.lookup name).map fun n => (n, names, rest)
    | ts => do
      let (anchor, tag, rest) := properties ts
      if anchor.any fun a => (names.lookup a).isSome then none
      else
        let hasMark := anchor.isSome || tag.isSome
        let (n, names, rest) ← content fuel inBlock bare tag hasMark names rest
        return (n, match anchor with
          | some a => (a, n) :: names
          | none => names, rest)

/-- What follows the properties of a node. -/
def content (fuel : Nat) (inBlock bare : Bool) (tag : Option String) (mayBeEmpty : Bool)
    (names : Names) (ts : List Token) : Option (Taken Node) :=
  match fuel with
  | 0 => none
  | fuel + 1 =>
    let list (r : Option (Taken (List Node))) : Option (Taken Node) := do
      let (nodes, names, rest) ← r
      if fitsTag tag "!!seq" then return (← ofNodes? nodes, names, rest) else none
    let mapping (r : Option (Taken (List (Node × Node)))) : Option (Taken Node) := do
      let (pairs, names, rest) ← r
      if fitsTag tag "!!map" then return (← ofPairs? pairs, names, rest) else none
    let other : Option (Taken Node) := do
      if mayBeEmpty then return (← scalarNode? tag "" (tag = none), names, ts) else none
    match ts with
    | .entry :: _ => if bare then list (bareEntries fuel names ts) else other
    | .scalar text isPlain :: rest => do return (← scalarNode? tag text isPlain, names, rest)
    | .openList :: rest => list (listItems fuel true names rest)
    | .openMapping :: rest => mapping (mappingItems fuel true names rest)
    | .blockSequence :: rest => if inBlock then list (entries fuel names rest) else other
    | .blockMapping :: rest => if inBlock then mapping (blockPairs fuel names rest) else other
    | _ => other

/-- The entries of a block sequence. -/
def entries (fuel : Nat) (names : Names) (ts : List Token) : Option (Taken (List Node)) :=
  match fuel with
  | 0 => none
  | fuel + 1 =>
    match ts with
    | .blockEnd :: rest => some ([], names, rest)
    | .entry :: rest => do
      let (n, names, rest) ←
        match rest with
        | .entry :: _ | .blockEnd :: _ => some (Node.empty, names, rest)
        | _ => node fuel true false names rest
      let (more, names, rest) ← entries fuel names rest
      return (n :: more, names, rest)
    | _ => none

/-- The entries of a sequence that is indented no further than the mapping around it. -/
def bareEntries (fuel : Nat) (names : Names) (ts : List Token) : Option (Taken (List Node)) :=
  match fuel with
  | 0 => none
  | fuel + 1 =>
    match ts with
    | .entry :: rest => do
      let (n, names, rest) ←
        match rest with
        | .entry :: _ | .key :: _ | .value :: _ | .blockEnd :: _ => some (Node.empty, names, rest)
        | _ => node fuel true false names rest
      let (more, names, rest) ← bareEntries fuel names rest
      return (n :: more, names, rest)
    | ts => some ([], names, ts)

/-- A node of a block mapping, empty where another mark follows. -/
def blockPart (fuel : Nat) (names : Names) (ts : List Token) : Option (Taken Node) :=
  match fuel with
  | 0 => none
  | fuel + 1 =>
    match ts with
    | .key :: _ | .value :: _ | .blockEnd :: _ => some (Node.empty, names, ts)
    | ts => node fuel true true names ts

/-- The pairs of a block mapping. -/
def blockPairs (fuel : Nat) (names : Names) (ts : List Token) :
    Option (Taken (List (Node × Node))) :=
  match fuel with
  | 0 => none
  | fuel + 1 =>
    match ts with
    | .blockEnd :: rest => some ([], names, rest)
    | .key :: rest => do
      let (key, names, rest) ← blockPart fuel names rest
      let (v, names, rest) ←
        match rest with
        | .value :: rest => blockPart fuel names rest
        | _ => some (Node.empty, names, rest)
      let (more, names, rest) ← blockPairs fuel names rest
      return ((key, v) :: more, names, rest)
    | _ => none

/-- The items of a list in brackets. `first` tells that no comma is needed before the next one. An
item may be a single pair, which is a mapping. -/
def listItems (fuel : Nat) (first : Bool) (names : Names) (ts : List Token) :
    Option (Taken (List Node)) :=
  match fuel with
  | 0 => none
  | fuel + 1 => do
    let ts ←
      match first, ts with
      | false, .comma :: rest => some rest
      | false, .closeList :: _ => some ts
      | false, _ => none
      | true, _ => some ts
    match ts with
    | .closeList :: rest => some ([], names, rest)
    | .key :: rest =>
      let (key, names, rest) ←
        match rest with
        | .value :: _ | .comma :: _ | .closeList :: _ => some (Node.empty, names, rest)
        | _ => node fuel false false names rest
      let (v, names, rest) ←
        match rest with
        | .value :: .comma :: _ | .value :: .closeList :: _ => some (Node.empty, names, rest.drop 1)
        | .value :: rest => node fuel false false names rest
        | _ => some (Node.empty, names, rest)
      let pair ← ofPairs? [(key, v)]
      let (more, names, rest) ← listItems fuel false names rest
      return (pair :: more, names, rest)
    | ts =>
      let (n, names, rest) ← node fuel false false names ts
      let (more, names, rest) ← listItems fuel false names rest
      return (n :: more, names, rest)

/-- The pairs of a mapping in brackets; a node without a colon is a key without a value. -/
def mappingItems (fuel : Nat) (first : Bool) (names : Names) (ts : List Token) :
    Option (Taken (List (Node × Node))) :=
  match fuel with
  | 0 => none
  | fuel + 1 => do
    let ts ←
      match first, ts with
      | false, .comma :: rest => some rest
      | false, .closeMapping :: _ => some ts
      | false, _ => none
      | true, _ => some ts
    match ts with
    | .closeMapping :: rest => some ([], names, rest)
    | .key :: rest =>
      let (key, names, rest) ←
        match rest with
        | .value :: _ | .comma :: _ | .closeMapping :: _ => some (Node.empty, names, rest)
        | _ => node fuel false false names rest
      let (v, names, rest) ←
        match rest with
        | .value :: .comma :: _ | .value :: .closeMapping :: _ =>
          some (Node.empty, names, rest.drop 1)
        | .value :: rest => node fuel false false names rest
        | _ => some (Node.empty, names, rest)
      let (more, names, rest) ← mappingItems fuel false names rest
      return ((key, v) :: more, names, rest)
    | ts =>
      let (key, names, rest) ← node fuel false false names ts
      let (more, names, rest) ← mappingItems fuel false names rest
      return ((key, Node.empty) :: more, names, rest)

end

/-- The value of the tokens of a text that holds one document, or why it has none. -/
def ofTokens? (ts : List Token) : Option (Except String Yaml) := do
  let fuel := 4 * ts.length + 8
  let explicit (ts : List Token) : Option (Node × List Token) :=
    match ts with
    | .documentStart :: rest =>
      match rest with
      | [] | .directive :: _ | .documentStart :: _ | .documentEnd :: _ => some (Node.empty, rest)
      | _ => (node fuel true false [] rest).map fun r => (r.1, r.2.2)
    | _ => none
  let (n, rest) ←
    match ts with
    | [] => some (Node.empty, [])
    | .directive :: _ => explicit (ts.dropWhile (· == .directive))
    | .documentStart :: _ => explicit ts
    | _ => (node fuel true false [] ts).map fun r => (r.1, r.2.2)
  if rest.all (· == .documentEnd) then n.value?.run else none

/-- The value of a text that holds one document, whose line ends are unified, or why it has
none. -/
def ofText? (text : String) : Option (Except String Yaml) := do
  ofTokens? (← Token.ofText? text.toList)

end Redline.Yaml
