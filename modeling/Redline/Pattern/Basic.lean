import Redline.Text.Casing

/-!
# Patterns

The tree of a regular expression. Flags are resolved when a pattern is read, so a node says itself
how it compares characters and what counts as a line; a look-behind carries its width.
-/

namespace Redline.Pattern

/-- How characters are compared. -/
inductive CaseRule where
  | exact
  /-- Only the letters of ASCII have case. -/
  | ascii
  /-- Case variants of all scripts are the same. -/
  | unicode
  deriving DecidableEq, Repr, Inhabited

/-- The lower case of an ASCII letter; any other character itself. -/
def asciiLower (c : Char) : Char :=
  if 'A' ≤ c ∧ c ≤ 'Z' then Char.ofNat (c.toNat + 32) else c

/-- Whether two characters are the same under a rule. -/
def CaseRule.same : CaseRule → Char → Char → Bool
  | .exact, a, b => a == b
  | .ascii, a, b => asciiLower a == asciiLower b
  | .unicode, a, b => Text.alike a b

/-- Whether two characters of repeated text are the same under a rule: by lower case alone. -/
def CaseRule.sameText : CaseRule → Char → Char → Bool
  | .exact, a, b => a == b
  | .ascii, a, b => asciiLower a == asciiLower b
  | .unicode, a, b => Text.fold a == Text.fold b

/-- The characters whose lower case is `c`. -/
def upperForms (c : Char) : List Char :=
  c :: Text.Table.lowerRuns.filterMap fun r =>
    let source := Text.shiftChar c (-r.2.2.2)
    if Text.fold source == c && source != c then some source else none

/-- The characters that are the same as `c` under a rule. -/
def CaseRule.family : CaseRule → Char → List Char
  | .exact, c => [c]
  | .ascii, c => if asciiLower c != c then [c, asciiLower c]
    else if 'a' ≤ c ∧ c ≤ 'z' then [c, Char.ofNat (c.toNat - 32)] else [c]
  | .unicode, c => (Text.fold c :: Text.variants (Text.fold c)).flatMap upperForms

/-- The named classes of characters. -/
inductive Category where
  | digit
  | blank
  | word
  deriving DecidableEq, Repr

/-- Membership in a class; `ascii` restricts it to ASCII. -/
def Category.has (k : Category) (ascii : Bool) (c : Char) : Bool :=
  match k with
  | .digit => if ascii then '0' ≤ c && c ≤ '9' else Text.isDecimal c
  | .blank => if ascii then c == ' ' || ('\t' ≤ c && c ≤ '\r') else Text.isBlank c
  | .word => if ascii then c == '_' || c.isAlphanum else Text.isWord c

/-- A member of a character set. -/
inductive SetItem where
  | char (c : Char)
  | range (low high : Char)
  | category (kind : Category) (ascii negated : Bool)
  deriving DecidableEq, Repr

/-- Whether a member of a set covers a character under a rule. -/
def SetItem.has (rule : CaseRule) (c : Char) : SetItem → Bool
  | .char x => rule.same x c
  | .range low high => (rule.family c).any fun x => low ≤ x && x ≤ high
  | .category kind ascii negated => kind.has ascii c != negated

/-- A condition on a place between characters. -/
inductive Anchor where
  | start
  | lineStart
  | stop
  /-- The end, or before a line feed that ends the text. -/
  | lastLineStop
  | lineStop
  | boundary (ascii : Bool)
  | notBoundary (ascii : Bool)
  deriving DecidableEq, Repr

/-- Which number of repetitions is tried first. -/
inductive Greed where
  | greedy
  | lazy
  /-- As many as possible, each kept once found. -/
  | possessive
  deriving DecidableEq, Repr

/-- A pattern's tree. -/
inductive Node where
  /-- Matches the empty text. -/
  | empty
  | char (rule : CaseRule) (c : Char)
  /-- Any character, or any but a line feed. -/
  | any (lineFeeds : Bool)
  | set (rule : CaseRule) (negated : Bool) (items : List SetItem)
  | anchor (a : Anchor)
  /-- The text that a group matched; `low` and `high` bound its width. -/
  | backref (rule : CaseRule) (group : Nat) (low high : Nat)
  | seq (first second : Node)
  | alt (first second : Node)
  /-- A part in parentheses that is not numbered. -/
  | group (body : Node)
  /-- A part whose text is kept under a number. -/
  | capture (index : Nat) (body : Node)
  | atomic (body : Node)
  | repetition (greed : Greed) (least : Nat) (most : Option Nat) (body : Node)
  | ahead (negated : Bool) (body : Node)
  /-- The text before; `none` for a width that is not fixed. -/
  | behind (width : Option Nat) (negated : Bool) (body : Node)
  | conditional (group : Nat) (yes no : Node)
  deriving DecidableEq, Repr, Inhabited

/-- The width of an unbounded part. -/
def unbounded : Nat := Nat.pow 2 64

/-- The least and the greatest number of characters that a node matches, up to `unbounded`. -/
def Node.width : Node → Nat × Nat
  | .empty => (0, 0)
  | .char _ _ | .any _ | .set _ _ _ => (1, 1)
  | .anchor _ | .ahead _ _ | .behind _ _ _ => (0, 0)
  | .backref _ _ low high => (low, high)
  | .seq a b =>
    let (i, j) := a.width
    let (k, l) := b.width
    (min (i + k) unbounded, min (j + l) unbounded)
  | .alt a b =>
    let (i, j) := a.width
    let (k, l) := b.width
    (min i k, max j l)
  | .group body | .capture _ body | .atomic body => body.width
  | .repetition _ least most body =>
    let (i, j) := body.width
    let high := match most with
      | some n => j * n
      | none => if j = 0 then 0 else unbounded
    (min (i * least) unbounded, min high unbounded)
  | .conditional _ yes no =>
    let (i, j) := yes.width
    let (k, l) := no.width
    (min i k, max j l)

/-- Whether every look-behind has a fixed width. -/
def Node.isAnchored : Node → Bool
  | .seq a b | .alt a b | .conditional _ a b => a.isAnchored && b.isAnchored
  | .group body | .capture _ body | .atomic body | .repetition _ _ _ body | .ahead _ body =>
    body.isAnchored
  | .behind width _ body => width.isSome && body.isAnchored
  | _ => true

/-- The nodes one after the other. -/
def Node.ofList : List Node → Node
  | [] => .empty
  | [n] => n
  | n :: rest => .seq n (ofList rest)

/-- The characters that a pattern must escape to mean themselves. -/
def specials : List Char :=
  "()[]\x7b\x7d?*+-|^$\\.&~# \t\n\r\x0b\x0c".toList

/-- The pattern text that matches a text literally. -/
def escape (s : String) : String :=
  String.ofList (s.toList.flatMap fun c => if specials.contains c then ['\\', c] else [c])

end Redline.Pattern

namespace Redline

/-- A pattern that has been read: its tree, the number of its groups and the names of some. -/
structure Pattern where
  node : Pattern.Node
  groups : Nat
  names : List (String × Nat)
  deriving Repr, Inhabited

end Redline
