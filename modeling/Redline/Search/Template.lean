import Redline.Text.Class

/-!
# Replacement templates

Two notations for what replaces a match. In a *capture* template, a dollar sign with a number or
with a name in braces stands for the text of a group, and two dollar signs for one; `substitution`
writes it in the notation of `Pattern.substitute`, where backslashes are special and dollar signs
are not. In a *metavariable* template, `$NAME` stands for the text of a node and `$$$NAME` for that
of a run of nodes; `render` fills it in.
-/

namespace Redline.Search

/-- A piece of a capture template. -/
inductive CapturePiece where
  | literal (c : Char)
  | dollar
  | group (name : List Char)
  deriving DecidableEq, Repr

/-- The name in braces at the start of a text, and the number of characters up to the closing
brace. -/
def bracedName? : List Char → Option (List Char)
  | '\x7b' :: rest =>
    let name := rest.takeWhile Text.isWord
    if name.isEmpty then none
    else if (rest.drop name.length).head? = some '\x7d' then some name
    else none
  | _ => none

/-- The piece at the start of what follows a dollar sign, if it is a reference, and how many
characters of it belong to the piece. -/
def reference? (rest : List Char) : Option (CapturePiece × Nat) :=
  match bracedName? rest with
  | some name => some (.group name, name.length + 2)
  | none =>
    let digits := rest.takeWhile Text.isDecimal
    if digits.isEmpty then
      if rest.head? = some '$' then some (.dollar, 1) else none
    else some (.group digits, digits.length)

/-- The pieces of a capture template. `skip` characters belong to the piece before. -/
def capturePiecesFrom (skip : Nat) : List Char → List CapturePiece
  | [] => []
  | c :: rest =>
    match skip with
    | skip + 1 => capturePiecesFrom skip rest
    | 0 =>
      if c = '$' then
        match reference? rest with
        | some (piece, size) => piece :: capturePiecesFrom size rest
        | none => .literal c :: capturePiecesFrom 0 rest
      else .literal c :: capturePiecesFrom 0 rest

/-- The pieces of a capture template. -/
def capturePieces (template : String) : List CapturePiece :=
  capturePiecesFrom 0 template.toList

/-- A piece in the notation of substitutions: a backslash is doubled, a group is `\g<name>`. -/
def CapturePiece.written : CapturePiece → List Char
  | .literal c => if c = '\\' then ['\\', '\\'] else [c]
  | .dollar => ['$']
  | .group name => '\\' :: 'g' :: '<' :: name ++ ['>']

/-- A capture template in the notation of substitutions. -/
def substitution (template : String) : String :=
  String.ofList ((capturePieces template).flatMap CapturePiece.written)

/-- Whether a character may start the name of a metavariable. -/
def startsName (c : Char) : Bool :=
  c == '_' || ('A' ≤ c && c ≤ 'Z')

/-- Whether a character may stand in the name of a metavariable. -/
def continuesName (c : Char) : Bool :=
  startsName c || ('0' ≤ c && c ≤ '9')

/-- The name of a metavariable at the start of a text. -/
def metaName? : List Char → Option (List Char)
  | c :: rest => if startsName c then some (c :: rest.takeWhile continuesName) else none
  | [] => none

/-- The texts that metavariables stand for. -/
structure Captures where
  single : List (String × String)
  multi : List (String × String)
  deriving DecidableEq, Repr, Inhabited

/-- What the metavariable at the start of a text stands for, and the number of its characters. An
unknown name stands for the empty text. -/
def expansion? (captures : Captures) : List Char → Option (String × Nat)
  | '$' :: rest =>
    let one := (metaName? rest).map fun name =>
      ((captures.single.lookup (String.ofList name)).getD "", name.length + 1)
    match rest with
    | '$' :: '$' :: deeper =>
      match metaName? deeper with
      | some name => some ((captures.multi.lookup (String.ofList name)).getD "", name.length + 3)
      | none => one
    | _ => one
  | _ => none

/-- Fills in the metavariables of a template. `skip` characters belong to the one before. -/
def renderFrom (captures : Captures) (skip : Nat) : List Char → List Char
  | [] => []
  | c :: rest =>
    match skip with
    | skip + 1 => renderFrom captures skip rest
    | 0 =>
      match expansion? captures (c :: rest) with
      | some (text, size) => text.toList ++ renderFrom captures (size - 1) rest
      | none => c :: renderFrom captures 0 rest

/-- Fills in the metavariables of a template. -/
def render (template : String) (captures : Captures) : String :=
  String.ofList (renderFrom captures 0 template.toList)

/-- A path as tools print it, with slashes and without dots at its start. -/
def dropDots : List Char → List Char
  | '.' :: '/' :: rest => dropDots rest
  | cs => cs

/-- A path as tools print it, in the form of this program: slashes for backslashes, and no leading
`./`. -/
def plainPath (path : String) : String :=
  String.ofList (dropDots (path.toList.map fun c => if c = '\\' then '/' else c))

end Redline.Search
