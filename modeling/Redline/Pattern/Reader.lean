import Redline.Failure
import Redline.Pattern.Basic
import Redline.Pattern.Token

/-!
# Reading a pattern

`Pattern.read` turns the text of a pattern into its tree, or tells what is wrong with it and where.
Flags are resolved on the way: a node is made with the flags in force at its place. Every item takes
a token, so twice the number of tokens bounds the recursion.
-/

namespace Redline.Pattern

/-- The flags in force at a place, or named in a group. -/
structure Flags where
  ignoreCase : Bool := false
  multiline : Bool := false
  dotAll : Bool := false
  verbose : Bool := false
  ascii : Bool := false
  unicode : Bool := false
  template : Bool := false
  deriving DecidableEq, Repr, Inhabited

namespace Flags

/-- All flags of either. -/
def union (a b : Flags) : Flags :=
  { ignoreCase := a.ignoreCase || b.ignoreCase
    multiline := a.multiline || b.multiline
    dotAll := a.dotAll || b.dotAll
    verbose := a.verbose || b.verbose
    ascii := a.ascii || b.ascii
    unicode := a.unicode || b.unicode
    template := a.template || b.template }

/-- The flags of both. -/
def inter (a b : Flags) : Flags :=
  { ignoreCase := a.ignoreCase && b.ignoreCase
    multiline := a.multiline && b.multiline
    dotAll := a.dotAll && b.dotAll
    verbose := a.verbose && b.verbose
    ascii := a.ascii && b.ascii
    unicode := a.unicode && b.unicode
    template := a.template && b.template }

/-- The flags of `a` that `b` has not. -/
def diff (a b : Flags) : Flags :=
  { ignoreCase := a.ignoreCase && !b.ignoreCase
    multiline := a.multiline && !b.multiline
    dotAll := a.dotAll && !b.dotAll
    verbose := a.verbose && !b.verbose
    ascii := a.ascii && !b.ascii
    unicode := a.unicode && !b.unicode
    template := a.template && !b.template }

/-- The flag of a letter. -/
def ofLetter? : Char → Option Flags
  | 'i' => some { ignoreCase := true }
  | 'm' => some { multiline := true }
  | 's' => some { dotAll := true }
  | 'x' => some { verbose := true }
  | 'a' => some { ascii := true }
  | 'u' => some { unicode := true }
  | 't' => some { template := true }
  | _ => none

/-- Whether the flags choose between ASCII and Unicode classes. -/
def choosesClasses (f : Flags) : Bool :=
  f.ascii || f.unicode

/-- The flags inside a group that turns some on and some off. -/
def within (scope on off : Flags) : Flags :=
  let base := if on.choosesClasses then { scope with ascii := false, unicode := false } else scope
  (base.union on).diff off

/-- How characters are compared under the flags. -/
def rule (f : Flags) : CaseRule :=
  if !f.ignoreCase then .exact else if f.ascii then .ascii else .unicode

end Flags

/-- What has been read of a pattern so far. -/
structure Reading where
  source : Source
  /-- The flags of the whole pattern. -/
  flags : Flags
  /-- The widths of the groups begun so far; none while a group is open. -/
  widths : List (Option (Nat × Nat))
  names : List (String × Nat)
  /-- The number of groups when the outermost look-behind began, counting the whole match. -/
  behind : Option Nat
  /-- Groups that conditions refer to by number, with the places of the references. -/
  promised : List (Nat × Nat)
  deriving Repr, Inhabited

/-- Reading with what has been read so far. -/
abbrev Read := StateT Reading (Except Refusal)

/-- Stops at a defect, `back` characters before the next token. -/
def failBack {α : Type} (defect : Defect) (back : Nat) : Read α := do
  throw (.invalid { defect, place := some ((← get).source.place - back) })

/-- Stops at a defect at the next token. -/
def fail {α : Type} (defect : Defect) : Read α :=
  failBack defect 0

/-- Stops at a defect at a place. -/
def failAt {α : Type} (defect : Defect) (place : Nat) : Read α :=
  throw (.invalid { defect, place := some place })

/-- Runs a step on the source. -/
def onSource {α : Type} (step : Source → Except Fault (α × Source)) : Read α := do
  let r ← get
  match step r.source with
  | .ok (a, source) => set { r with source }; return a
  | .error e => throw (.invalid e)

/-- Takes the next token. -/
def takeToken : Read (Option Token) :=
  onSource Source.take

/-- Takes the next token if it is the character `c`, and tells whether it was. -/
def accept (c : Char) : Read Bool :=
  onSource (Source.accept · c)

/-- Takes up to `n` characters of a class. -/
def takeMany (n : Nat) (p : Char → Bool) : Read (List Char) :=
  onSource (Source.takeWhile p n)

/-- The place of the next token. -/
def here : Read Nat := do
  return (← get).source.place

/-- Whether the next token is a character of a class. -/
def nextHas (p : Char → Bool) : Read Bool := do
  return (← get).source.nextHas p

/-- The number of groups begun, counting the whole match. -/
def Reading.groupCount (r : Reading) : Nat :=
  r.widths.length + 1

/-- The width of a group that is closed. -/
def Reading.width? (r : Reading) (group : Nat) : Option (Nat × Nat) :=
  match group with
  | 0 => none
  | n + 1 => (r.widths.getD n none)

/-- Checks that a reference inside a look-behind is to a group before it. -/
def checkBehind (group : Nat) : Read Unit := do
  let r ← get
  match r.behind with
  | none => return ()
  | some limit =>
    if (r.width? group).isNone then fail .openGroup
    else if limit ≤ group then fail .lookbehindGroup
    else return ()

/-- What an escape stands for. -/
inductive Escaped where
  | char (c : Char)
  | class (kind : Category) (negated : Bool)
  | anchor (a : Anchor)
  | backref (group : Nat)
  deriving DecidableEq, Repr

/-- The class of a letter. -/
def classOf? : Char → Option (Category × Bool)
  | 'd' => some (.digit, false)
  | 'D' => some (.digit, true)
  | 's' => some (.blank, false)
  | 'S' => some (.blank, true)
  | 'w' => some (.word, false)
  | 'W' => some (.word, true)
  | _ => none

/-- A character by `n` hexadecimal digits after the escape letter `c`. -/
def hexEscape (c : Char) (n : Nat) : Read Escaped := do
  let digits ← takeMany n isHex
  let text := String.ofList ('\\' :: c :: digits)
  if digits.length ≠ n then failBack (.incompleteEscape text) text.length
  else
    let code := valueIn 16 digits
    if 0x110000 ≤ code then failBack (.badEscape text) text.length
    else return .char (Char.ofNat code)

/-- A character by name; no names are known here. -/
def namedEscape : Read Escaped := do
  if ← accept '\x7b' then
    let name ← onSource fun s => s.name '\x7d' "character name"
    failBack (.unknownCharacter name) (name.length + 4)
  else fail .missingBrace

/-- An octal escape of the digits given. -/
def octalEscape (digits : List Char) : Read Escaped := do
  let code := valueIn 8 digits
  let text := String.ofList ('\\' :: digits)
  if 0o377 < code then failBack (.largeOctal text) text.length
  else return .char (Char.ofNat code)

/-- The escapes that are read alike inside and outside a set: a code in hexadecimal, a name, or a
character that stands for itself. -/
def commonEscape (c : Char) : Read Escaped := do
  if c = 'x' then hexEscape c 2
  else if c = 'u' then hexEscape c 4
  else if c = 'U' then hexEscape c 8
  else if c = 'N' then namedEscape
  else if isLetter c || isDigit c then failBack (.badEscape (String.ofList ['\\', c])) 2
  else return .char c

/-- An escape inside a set. -/
def setEscape (c : Char) : Read Escaped := do
  match controlEscape? c, classOf? c with
  | some x, _ => return .char x
  | none, some (kind, negated) => return .class kind negated
  | none, none =>
    if isOctal c then octalEscape (c :: (← takeMany 2 isOctal))
    else commonEscape c

/-- A reference to a group by the digits given. -/
def groupEscape (digits : List Char) : Read Escaped := do
  let r ← get
  let group := valueIn 10 digits
  if group < r.groupCount then
    if (r.width? group).isNone then failBack .openGroup (digits.length + 1)
    else
      checkBehind group
      return .backref group
  else failBack (.noSuchGroup group) digits.length

/-- An escape that starts with a digit other than zero: three octal digits, or a group. -/
def digitEscape (c : Char) : Read Escaped := do
  match ← takeMany 1 isDigit with
  | [] => groupEscape [c]
  | d :: _ =>
    if isOctal c && isOctal d && (← nextHas isOctal) then
      octalEscape (c :: d :: (← takeMany 1 isOctal))
    else groupEscape [c, d]

/-- An escape outside a set. -/
def itemEscape (flags : Flags) (c : Char) : Read Escaped := do
  match c with
  | 'A' => return .anchor .start
  | 'Z' => return .anchor .stop
  | 'b' => return .anchor (.boundary flags.ascii)
  | 'B' => return .anchor (.notBoundary flags.ascii)
  | '0' =>
    let digits ← takeMany 2 isOctal
    return .char (Char.ofNat (valueIn 8 digits))
  | c =>
    match classOf? c, controlEscape? c with
    | some (kind, negated), _ => return .class kind negated
    | none, some x => return .char x
    | none, none => if isDigit c then digitEscape c else commonEscape c

/-- A token as a member of a set. -/
def setMember (t : Token) : Read Escaped :=
  match t with
  | .escape c => setEscape c
  | .plain c => return .char c
  | .dangling => return .char '\\'

/-- A member of a set as an item. -/
def Escaped.item (ascii : Bool) : Escaped → SetItem
  | .char c => .char c
  | .class kind negated => .category kind ascii negated
  | _ => .char '\\'

/-- The members of a set up to its closing bracket; `start` is the place of the opening one. -/
def setItems (flags : Flags) (start : Nat) : Nat → List SetItem → Read (List SetItem)
  | 0, _ => failAt .unterminatedSet start
  | n + 1, done => do
    match ← takeToken with
    | none => failAt .unterminatedSet start
    | some t =>
      if t = .plain ']' ∧ done ≠ [] then return done.reverse
      else
        let low ← setMember t
        if ← accept '-' then
          match ← takeToken with
          | none => failAt .unterminatedSet start
          | some u =>
            if u = .plain ']' then return (.char '-' :: low.item flags.ascii :: done).reverse
            else
              let high ← setMember u
              match low, high with
              | .char a, .char b =>
                if b < a then failBack (.badRange t.text u.text) (t.width + 1 + u.width)
                else setItems flags start n (.range a b :: done)
              | _, _ => failBack (.badRange t.text u.text) (t.width + 1 + u.width)
        else setItems flags start n (low.item flags.ascii :: done)

/-- A set whose opening bracket has been taken. -/
def setNode (flags : Flags) : Read Node := do
  let start := (← here) - 1
  let negated ← accept '^'
  let items ← setItems flags start ((← get).source.rest.length + 1) []
  return .set flags.rule negated items

/-- The least number of repetitions that is too large. -/
def repetitionLimit : Nat := 4294967295

/-- The bounds of a counted repetition whose opening brace has been taken; none when the brace
stands for itself, and then nothing more is taken. -/
def bounds? : Read (Option (Nat × Option Nat)) := do
  let saved ← get
  if saved.source.nextIs '\x7d' then return none
  let size := saved.source.rest.length
  let low ← takeMany size isDigit
  let comma ← accept ','
  let high ← if comma then takeMany size isDigit else pure low
  if ← accept '\x7d' then
    let least := valueIn 10 low
    let most := valueIn 10 high
    if repetitionLimit ≤ least || repetitionLimit ≤ most then throw .hugeRepetition
    else if high.isEmpty then return some (least, none)
    else if most < least then failAt .boundsReversed saved.source.place
    else return some (least, some most)
  else
    set saved
    return none

/-- The quantifier that a token is, if it is one. -/
def quantifier? (t : Token) : Read (Option (Nat × Option Nat)) :=
  match t with
  | .plain '?' => return some (0, some 1)
  | .plain '*' => return some (0, none)
  | .plain '+' => return some (1, none)
  | .plain '\x7b' => bounds?
  | _ => return none

/-- Whether a node is a bare repetition. -/
def Node.isRepetition : Node → Bool
  | .repetition _ _ _ _ => true
  | _ => false

/-- Whether a node is a bare anchor. -/
def Node.isAnchor : Node → Bool
  | .anchor _ => true
  | _ => false

/-- The repetition of the last item, whose quantifier started at `place`. -/
def repeated (done : List Node) (least : Nat) (most : Option Nat) (place : Nat) :
    Read (List Node) := do
  match done with
  | [] => failAt .nothingToRepeat place
  | item :: before =>
    if item.isAnchor then failAt .nothingToRepeat place
    else if item.isRepetition then failAt .multipleRepeat place
    else if ← accept '?' then return .repetition .lazy least most item :: before
    else if ← accept '+' then return .repetition .possessive least most item :: before
    else return .repetition .greedy least most item :: before

/-- Drops a comment up to its closing parenthesis; `start` is the place of the opening one. -/
def skipComment (start : Nat) : Nat → Read Unit
  | 0 => failAt .unterminatedComment start
  | n + 1 => do
    match (← get).source.rest with
    | [] => failAt .unterminatedComment start
    | _ =>
      match ← takeToken with
      | some (.plain ')') => return ()
      | _ => skipComment start n

/-- Drops the rest of a line. -/
def skipLine : Nat → Read Unit
  | 0 => return ()
  | n + 1 => do
    match ← takeToken with
    | none | some (.plain '\n') => return ()
    | _ => skipLine n

/-- The flag that a token names. -/
def tokenFlag? (t : Token) : Option Flags :=
  match t with
  | .plain c => Flags.ofLetter? c
  | _ => none

/-- Whether a token is a single letter of any script. -/
def Token.isLetter : Token → Bool
  | .plain c => Text.isWord c && !Text.isDecimal c && c != '_'
  | _ => false

/-- Adds the flag of a token to those turned on. -/
def turnOn (on : Flags) (t : Token) : Read Flags := do
  if t = .plain 'L' then fail .localeFlag
  else
    let on := on.union ((tokenFlag? t).getD {})
    if on.ascii && on.unicode then fail .rivalFlags
    else return on

/-- The flags turned on, from the token `t` on, and the token that ends their list. -/
def flagsOn : Nat → Flags → Token → Read (Flags × Char)
  | 0, on, _ => return (on, ')')
  | n + 1, on, t => do
    let on ← turnOn on t
    match ← takeToken with
    | none => fail .flagListOpen
    | some u =>
      if u = .plain ')' then return (on, ')')
      else if u = .plain '-' then return (on, '-')
      else if u = .plain ':' then return (on, ':')
      else if (tokenFlag? u).isSome || u = .plain 'L' then flagsOn n on u
      else if u.isLetter then failBack .unknownFlag u.width
      else failBack .flagListOpen u.width

/-- The flags turned off, from the token `t` on, up to the colon. -/
def flagsOff : Nat → Flags → Token → Read Flags
  | 0, off, _ => return off
  | n + 1, off, t => do
    let flag := (tokenFlag? t).getD { ascii := true }
    if flag.choosesClasses then fail .fixedFlagOff
    else
      let off := off.union flag
      match ← takeToken with
      | none => fail .missingColon
      | some u =>
        if u = .plain ':' then return off
        else if (tokenFlag? u).isSome || u = .plain 'L' then flagsOff n off u
        else if u.isLetter then failBack .unknownFlag u.width
        else failBack .missingColon u.width

/-- The flags of a group, from the token `t` on: for the whole pattern (`none`), or those turned on
and off inside the group. -/
def groupFlags (t : Token) : Read (Option (Flags × Flags)) := do
  let size := (← get).source.rest.length + 1
  let (on, stop) ←
    if t = .plain '-' then pure (({} : Flags), '-') else flagsOn size {} t
  if stop = ')' then
    modify fun r => { r with flags := r.flags.union on }
    return none
  else if on.template then failBack .globalFlagOn 1
  else
    let off ←
      if stop = '-' then do
        match ← takeToken with
        | none => fail .missingFlag
        | some u =>
          if (tokenFlag? u).isSome || u = .plain 'L' then flagsOff size {} u
          else if u.isLetter then failBack .unknownFlag u.width
          else failBack .missingFlag u.width
      else pure {}
    if off.template then failBack .globalFlagOff 1
    else if on.inter off != {} then failBack .flagOnAndOff 1
    else return some (on, off)

/-- Opens a group, with a name if it has one. -/
def openGroup (name : Option String) : Read Nat := do
  let r ← get
  let index := r.groupCount
  match name with
  | none =>
    if groupLimit ≤ index then throw .namelessGroup
    else set { r with widths := r.widths ++ [none] }
  | some n =>
    if groupLimit ≤ index then failBack .tooManyGroups (n.length + 1)
    else
      match r.names.lookup n with
      | some previous => failBack (.redefinition n index previous) (n.length + 1)
      | none => set { r with widths := r.widths ++ [none], names := r.names ++ [(n, index)] }
  return index

/-- Closes a group with the width of its body. -/
def closeGroup (index : Nat) (body : Node) : Read Unit :=
  modify fun r => { r with widths := r.widths.set (index - 1) (some body.width) }

/-- The name of a group, up to a terminator. -/
def groupName (terminator : Char) : Read String := do
  let name ← onSource fun s => s.name terminator "group name"
  if isName name then return name
  else failBack (.badGroupName name) (name.length + 1)

/-- A reference to a group by its name. -/
def namedBackref (flags : Flags) : Read Node := do
  let name ← groupName ')'
  let r ← get
  match r.names.lookup name with
  | none => failBack (.unknownGroupName name) (name.length + 1)
  | some group =>
    match r.width? group with
    | none => failBack .openGroup (name.length + 1)
    | some (low, high) =>
      checkBehind group
      return .backref flags.rule group low high

/-- The group that a condition asks for. -/
def conditionGroup : Read Nat := do
  let name ← onSource fun s => s.name ')' "group name"
  let back := name.length + 1
  if isName name then
    match (← get).names.lookup name with
    | none => failBack (.unknownGroupName name) back
    | some group => return group
  else
    match groupNumber? name with
    | none | some (.negSucc _) => failBack (.badGroupName name) back
    | some (.ofNat 0) => failBack .badGroupNumber back
    | some (.ofNat group) =>
      if groupLimit ≤ group then failBack (.noSuchGroup group) back
      else
        let place := (← here) - back
        modify fun r =>
          if (r.promised.lookup group).isSome then r
          else { r with promised := r.promised ++ [(group, place)] }
        return group

/-- The node of an escape. -/
def Escaped.node (flags : Flags) (widths : List (Option (Nat × Nat))) : Escaped → Node
  | .char c => .char flags.rule c
  | .class kind negated => .set flags.rule false [.category kind flags.ascii negated]
  | .anchor a => .anchor a
  | .backref group =>
    let (low, high) := (widths.getD (group - 1) none).getD (0, 0)
    .backref flags.rule group low high

/-- What a parenthesis opens. -/
inductive Opening where
  | capture (name : Option String)
  | plain (on off : Flags)
  | atomic
  | ahead (negated : Bool)
  | behind (negated : Bool)
  | condition (group : Nat)
  /-- A whole item: a reference by name. -/
  | item (node : Node)
  | comment
  | flags

/-- What follows `(?P`. -/
def namedOpening (flags : Flags) : Read Opening := do
  if ← accept '<' then return .capture (some (← groupName '>'))
  else if ← accept '=' then return .item (← namedBackref flags)
  else
    match ← takeToken with
    | none => fail .endInside
    | some t => failBack (.unknownExtension ("P" ++ t.text)) (t.width + 2)

/-- What follows `(?<`. -/
def behindOpening : Read Opening := do
  match ← takeToken with
  | none => fail .endInside
  | some (.plain '=') => return .behind false
  | some (.plain '!') => return .behind true
  | some t => failBack (.unknownExtension ("<" ++ t.text)) (t.width + 2)

/-- What a parenthesis opens that has been taken at the place `start`. -/
def opening (flags : Flags) (start : Nat) : Read Opening := do
  if ← accept '?' then
    match ← takeToken with
    | none => fail .endInside
    | some (.plain 'P') => namedOpening flags
    | some (.plain ':') => return .plain {} {}
    | some (.plain '#') =>
      skipComment start ((← get).source.rest.length + 1)
      return .comment
    | some (.plain '=') => return .ahead false
    | some (.plain '!') => return .ahead true
    | some (.plain '<') => behindOpening
    | some (.plain '(') => return .condition (← conditionGroup)
    | some (.plain '>') => return .atomic
    | some t =>
      if (tokenFlag? t).isSome || t = .plain '-' || t = .plain 'L' then
        match ← groupFlags t with
        | none => return .flags
        | some (on, off) => return .plain on off
      else failBack (.unknownExtension t.text) (t.width + 1)
  else return .capture none

/-- The closing parenthesis of a group that started at `start`. -/
def closing (start : Nat) : Read Unit := do
  if ← accept ')' then return () else failAt .unterminatedGroup start

/-- Whether a token is skipped between items when the pattern is verbose. -/
def Token.isFiller : Token → Bool
  | .plain c => c == ' ' || ('\t' ≤ c && c ≤ '\r')
  | _ => false

/-- The character that a token stands for when it has no other meaning. -/
def Token.char : Token → Char
  | .plain c => c
  | _ => '\\'

/-- What an item starts with. -/
inductive ItemStart where
  | escape (c : Char)
  | set
  | any
  | lineStart
  | lineStop
  | group
  /-- A quantifier of the item before, or a character that stands for itself. -/
  | other
  deriving DecidableEq, Repr

/-- What an item starts with whose first token is given. -/
def Token.itemStart : Token → ItemStart
  | .escape c => .escape c
  | .plain c => plainStart c
  | .dangling => .other
where
  /-- What an item starts with whose first token is a character. -/
  plainStart : Char → ItemStart
    | '[' => .set
    | '.' => .any
    | '^' => .lineStart
    | '$' => .lineStop
    | '(' => .group
    | _ => .other

mutual

/-- Alternatives up to a closing parenthesis or the end. `top` tells that no parenthesis is open,
and `first` that no alternative came before. -/
def alternatives : Nat → (top first : Bool) → Flags → Read Node
  | 0, _, _, _ => fail .endInside
  | fuel + 1, top, first, scope => do
    let branch ← items fuel (top && first) scope []
    if ← accept '|' then
      let scope ← if top then do pure (← get).flags else pure scope
      let rest ← alternatives fuel top false scope
      return .alt branch rest
    else return branch

/-- Items up to a bar, a closing parenthesis or the end, after the items `done`, latest first.
`opening` tells whether flags for the whole pattern may still come. -/
def items : Nat → (leading : Bool) → Flags → List Node → Read Node
  | 0, _, _, _ => fail .endInside
  | fuel + 1, leading, scope, done => do
    match (← get).source.rest with
    | [] | .plain '|' :: _ | .plain ')' :: _ => return .ofList done.reverse
    | t :: _ =>
      let place ← here
      let _ ← takeToken
      if scope.verbose && t.isFiller then
        items fuel leading scope done
      else if scope.verbose && t = .plain '#' then
        skipLine ((← get).source.rest.length + 1)
        items fuel leading scope done
      else
        match t.itemStart with
        | .escape c =>
          let e ← itemEscape scope c
          items fuel leading scope (e.node scope (← get).widths :: done)
        | .set =>
          let node ← setNode scope
          items fuel leading scope (node :: done)
        | .any => items fuel leading scope (.any scope.dotAll :: done)
        | .lineStart =>
          let a := if scope.multiline then Anchor.lineStart else .start
          items fuel leading scope (.anchor a :: done)
        | .lineStop =>
          let a := if scope.multiline then Anchor.lineStop else .lastLineStop
          items fuel leading scope (.anchor a :: done)
        | .group =>
          match ← opening scope place with
          | .comment => items fuel leading scope done
          | .flags =>
            if leading && done.isEmpty then items fuel leading (← get).flags done
            else failAt .lateFlags place
          | .item node => items fuel leading scope (node :: done)
          | .capture name =>
            let index ← openGroup name
            let body ← alternatives fuel false true scope
            closing place
            closeGroup index body
            items fuel leading scope (.capture index body :: done)
          | .plain on off =>
            let body ← alternatives fuel false true (scope.within on off)
            closing place
            items fuel leading scope (.group body :: done)
          | .atomic =>
            let body ← alternatives fuel false true scope
            closing place
            items fuel leading scope (.atomic body :: done)
          | .ahead negated =>
            let body ← alternatives fuel false true scope
            closing place
            items fuel leading scope (.ahead negated body :: done)
          | .behind negated =>
            let outer := (← get).behind
            if outer.isNone then modify fun r => { r with behind := some r.groupCount }
            let body ← alternatives fuel false true scope
            if outer.isNone then modify fun r => { r with behind := none }
            closing place
            let (low, high) := body.width
            let width := if low = high then some low else none
            items fuel leading scope (.behind width negated body :: done)
          | .condition group =>
            checkBehind group
            let yes ← items fuel false scope []
            if ← accept '|' then
              let no ← items fuel false scope []
              if (← get).source.nextIs '|' then fail .thirdBranch
              closing place
              items fuel leading scope (.conditional group yes no :: done)
            else
              closing place
              items fuel leading scope (.conditional group yes .empty :: done)
        | .other =>
          match ← quantifier? t with
          | some (least, most) =>
            let done ← repeated done least most place
            items fuel leading scope done
          | none => items fuel leading scope (.char scope.rule t.char :: done)

end

/-- Reads the whole text of a pattern; references by number must be to groups that exist, and
look-behinds must have a fixed width. -/
def whole (flags : Flags) : Read Node := do
  let size := (← get).source.rest.length
  let node ← alternatives (2 * size + 4) true true flags
  let r ← get
  if r.flags.ascii && r.flags.unicode then throw .clashingFlags
  if !r.source.rest.isEmpty then fail .unbalanced
  match r.promised.find? fun p => r.groupCount ≤ p.1 with
  | some (group, place) => failAt (.noSuchGroup group) place
  | none =>
    if node.isAnchored then return node
    else throw (.invalid { defect := .variableLookbehind, place := none })

end Redline.Pattern

namespace Redline

/-- Reads a pattern; `ignoreCase` makes it compare by case variants from its start on. -/
def Pattern.read (text : String) (ignoreCase : Bool) : Except Pattern.Refusal Pattern :=
  match Pattern.Source.ofString text with
  | .error e => .error (.invalid e)
  | .ok source =>
    let flags : Pattern.Flags := { ignoreCase := ignoreCase }
    let start : Pattern.Reading :=
      { source, flags, widths := [], names := [], behind := none, promised := [] }
    match (Pattern.whole flags).run start with
    | .error e => .error e
    | .ok (node, r) => .ok { node, groups := r.widths.length, names := r.names }

/-- Reads a pattern that a user gave; one that cannot be read is reported as a failure with its
fault. -/
def Pattern.compile (text : String) (ignoreCase : Bool) : Redline.Outcome Pattern :=
  match Pattern.read text ignoreCase with
  | .ok p => .ok p
  | .error (.invalid f) => failWith (.patternInvalid text (f.message text))
  | .error .hugeRepetition => mishapWith (.overflow "the repetition number is too large")
  | .error .clashingFlags => mishapWith (.badValue "ASCII and UNICODE flags are incompatible")
  | .error .namelessGroup => mishapWith (.wrongType "object of type 'NoneType' has no len()")

end Redline
