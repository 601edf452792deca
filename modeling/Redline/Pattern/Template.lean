import Redline.Pattern.Matcher
import Redline.Pattern.Token

/-!
# Replacement templates

A template is literal text with references to groups: `\g<name>`, `\g<number>` or `\number`, and the
escapes of patterns. A group that took no part in the match gives the empty text.
-/

namespace Redline.Pattern

/-- A piece of a template. -/
inductive Piece where
  | char (c : Char)
  | group (index : Nat)
  deriving DecidableEq, Repr

/-- Why a text is no template of a pattern. -/
inductive TemplateFault where
  | invalid (fault : Fault)
  | unknownName (name : String)
  deriving DecidableEq, Repr

/-- The wording of a fault of the template `template`. -/
def TemplateFault.message (f : TemplateFault) (template : String) : String :=
  match f with
  | .invalid fault => fault.message template
  | .unknownName name => (Defect.unknownGroupName name).message

/-- The outcome of a step in a template. -/
abbrev TemplateStep (α : Type) := Except TemplateFault α

/-- A step on the source. -/
def lift {α : Type} (step : Except Fault α) : TemplateStep α :=
  step.mapError .invalid

/-- A reference to a group by its number, `back` characters before the next token. -/
def groupPiece (p : Pattern) (s : Source) (index back : Nat) : TemplateStep Piece :=
  if p.groups < index then lift (s.fault (.noSuchGroup index) back)
  else .ok (.group index)

/-- A reference to a group by its name or by a number between angle brackets, which have been
taken. -/
def namedGroup (p : Pattern) (s : Source) (name : String) : TemplateStep Piece :=
  let back := name.length + 1
  if isName name then
    match p.names.lookup name with
    | none => throw (.unknownName name)
    | some index => groupPiece p s index back
  else
    match groupNumber? name with
    | none | some (.negSucc _) => lift (s.fault (.badGroupName name) back)
    | some (.ofNat index) =>
      if groupLimit ≤ index then lift (s.fault (.noSuchGroup index) back)
      else groupPiece p s index back

/-- A reference to a group between angle brackets. -/
def namedPiece (p : Pattern) (s : Source) : TemplateStep (Piece × Source) := do
  let (opened, s) ← lift (s.accept '<')
  if !opened then lift (s.fault .missingAngle 0)
  else
    let (name, s) ← lift (s.name '>' "group name")
    return (← namedGroup p s name, s)

/-- A piece that starts with an escaped digit: an octal code or the number of a group. -/
def digitPiece (p : Pattern) (c : Char) (s : Source) : TemplateStep (Piece × Source) := do
  if c = '0' then
    let (more, s) ← lift (s.takeWhile isOctal 2)
    return (.char (Char.ofNat (valueIn 8 more % 256)), s)
  else
    let (more, s) ← lift (s.takeWhile isDigit 1)
    match more with
    | [] => return (← groupPiece p s (valueIn 10 [c]) 1, s)
    | d :: _ =>
      if isOctal c && isOctal d && s.nextHas isOctal then
        let (last, s) ← lift (s.takeWhile isOctal 1)
        let digits := c :: d :: last
        let code := valueIn 8 digits
        if 0o377 < code then lift (s.fault (.largeOctal (String.ofList ('\\' :: digits))) 4)
        else return (.char (Char.ofNat code), s)
      else return (← groupPiece p s (valueIn 10 [c, d]) 2, s)

/-- The pieces of a template after a token has been taken. -/
def tokenPieces (p : Pattern) (t : Token) (s : Source) : TemplateStep (List Piece × Source) := do
  match t with
  | .plain c => return ([.char c], s)
  | .dangling => return ([.char '\\'], s)
  | .escape 'g' =>
    let (piece, s) ← namedPiece p s
    return ([piece], s)
  | .escape c =>
    if isDigit c then
      let (piece, s) ← digitPiece p c s
      return ([piece], s)
    else
      match controlEscape? c with
      | some x => return ([.char x], s)
      | none =>
        if isLetter c then lift (s.fault (.badEscape (String.ofList ['\\', c])) 2)
        else return ([.char '\\', .char c], s)

/-- The pieces of the rest of a template. Each step takes a token. -/
def piecesFrom (p : Pattern) : Nat → Source → TemplateStep (List Piece)
  | 0, _ => .ok []
  | fuel + 1, s =>
    match s.rest with
    | [] => .ok []
    | t :: _ => do
      let s ← lift s.drop
      let (pieces, s) ← tokenPieces p t s
      return pieces ++ (← piecesFrom p fuel s)

/-- The pieces of a template for a pattern. -/
def templatePieces (p : Pattern) (template : String) : TemplateStep (List Piece) := do
  let s ← lift (Source.ofString template)
  piecesFrom p (s.rest.length + 1) s

/-- The text of a piece for a match. -/
def Piece.expand (m : Match) : Piece → List Char
  | .char c => [c]
  | .group 0 => m.text
  | .group index => (m.captures.lookup index).getD []

/-- The text of a template for a match. -/
def expand (pieces : List Piece) (m : Match) : List Char :=
  pieces.flatMap (Piece.expand m)

end Redline.Pattern

namespace Redline

/-- The text with every match replaced by the template's text for it. -/
def Pattern.substitute (p : Pattern) (template s : String) :
    Except Pattern.TemplateFault String := do
  let pieces ← Pattern.templatePieces p template
  return p.replace (Pattern.expand pieces) s

end Redline
