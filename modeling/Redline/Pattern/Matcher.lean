import Redline.Pattern.Basic

/-!
# Matching

A place in a text is a `Cursor`: the characters before it, nearest first, and those after it. `run`
tries a node at a cursor and hands every way to match it to a continuation, in order of preference,
until one succeeds. `findFrom` looks for the first match from a cursor on, and `replaceFrom` puts a
text in the place of every match.

An empty match directly after an empty match is not taken: the search that follows an empty match
must advance.
-/

namespace Redline.Pattern

/-- A place in a text. -/
structure Cursor where
  before : List Char
  after : List Char
  deriving DecidableEq, Repr, Inhabited

namespace Cursor

/-- The start of a text. -/
def atStart (cs : List Char) : Cursor :=
  { before := [], after := cs }

/-- The place one character on. -/
def next? (c : Cursor) : Option (Char × Cursor) :=
  match c.after with
  | [] => none
  | x :: rest => some (x, { before := x :: c.before, after := rest })

/-- The place `n` characters back. -/
def back? (n : Nat) (c : Cursor) : Option Cursor :=
  match n with
  | 0 => some c
  | n + 1 =>
    match c.before with
    | [] => none
    | x :: rest => back? n { before := rest, after := x :: c.after }

/-- The place after the text `cs`, compared under a rule. -/
def skip? (same : Char → Char → Bool) : List Char → Cursor → Option Cursor
  | [], c => some c
  | x :: rest, c =>
    match c.next? with
    | none => none
    | some (y, c) => if same x y then skip? same rest c else none

/-- The text from one place to a later one. -/
def between (start stop : Cursor) : List Char :=
  start.after.take (start.after.length - stop.after.length)

end Cursor

/-- The texts of the groups matched so far, the latest first. -/
abbrev Captures := List (Nat × List Char)

/-- Whether an anchor holds at a place. -/
def Anchor.holds (a : Anchor) (c : Cursor) : Bool :=
  match a with
  | .start => c.before.isEmpty
  | .lineStart => c.before.isEmpty || c.before.head? == some '\n'
  | .stop => c.after.isEmpty
  | .lastLineStop => c.after.isEmpty || c.after == ['\n']
  | .lineStop => c.after.isEmpty || c.after.head? == some '\n'
  | .boundary ascii => inWord ascii c.before.head? != inWord ascii c.after.head?
  | .notBoundary ascii =>
    !(c.before.isEmpty && c.after.isEmpty)
      && inWord ascii c.before.head? == inWord ascii c.after.head?
where
  /-- Whether there is a neighbour, and it is a character of a word. -/
  inWord (ascii : Bool) (neighbour : Option Char) : Bool :=
    neighbour.any (Category.word.has ascii)

/-- What is done after a part has matched. -/
abbrev Continuation (α : Type) := Cursor → Captures → Option α

/-- A way to match a part. -/
abbrev Step (α : Type) := Cursor → Captures → Continuation α → Option α

/-- The first of two attempts that succeeds. -/
def attempt {α : Type} (first : Option α) (second : Unit → Option α) : Option α :=
  match first with
  | some a => some a
  | none => second ()

/-- Exactly `n` repetitions. -/
def exactly {α : Type} (step : Step α) (n : Nat) (c : Cursor) (caps : Captures)
    (k : Continuation α) : Option α :=
  match n with
  | 0 => k c caps
  | n + 1 => step c caps fun c caps => exactly step n c caps k

/-- Up to `most` further repetitions, as many as possible; no repetition starts where the one before
it started, so the characters that remain bound the repetitions. -/
def greedily {α : Type} (step : Step α) (k : Continuation α) :
    (fuel : Nat) → (most : Option Nat) → (last : Option Nat) → Cursor → Captures → Option α
  | 0, _, _, c, caps => k c caps
  | fuel + 1, most, last, c, caps =>
    if most = some 0 ∨ last = some c.after.length then k c caps
    else
      attempt
        (step c caps fun c' caps' =>
          greedily step k fuel (most.map (· - 1)) (some c.after.length) c' caps')
        fun _ => k c caps

/-- Up to `most` further repetitions, as few as possible. -/
def lazily {α : Type} (step : Step α) (k : Continuation α) :
    (fuel : Nat) → (most : Option Nat) → (last : Option Nat) → Cursor → Captures → Option α
  | 0, _, _, c, caps => k c caps
  | fuel + 1, most, last, c, caps =>
    attempt (k c caps) fun _ =>
      if most = some 0 ∨ last = some c.after.length then none
      else
        step c caps fun c' caps' =>
          lazily step k fuel (most.map (· - 1)) (some c.after.length) c' caps'

/-- Exactly `n` repetitions, each kept once found. -/
def exactlyKept (step : Step (Cursor × Captures)) (n : Nat) (c : Cursor) (caps : Captures) :
    Option (Cursor × Captures) :=
  match n with
  | 0 => some (c, caps)
  | n + 1 =>
    match step c caps fun c caps => some (c, caps) with
    | none => none
    | some (c, caps) => exactlyKept step n c caps

/-- Up to `most` further repetitions, each kept once found. -/
def possessively (step : Step (Cursor × Captures)) :
    (fuel : Nat) → (most : Option Nat) → (last : Option Nat) → Cursor → Captures →
      Cursor × Captures
  | 0, _, _, c, caps => (c, caps)
  | fuel + 1, most, last, c, caps =>
    if most = some 0 ∨ last = some c.after.length then (c, caps)
    else
      match step c caps fun c caps => some (c, caps) with
      | none => (c, caps)
      | some (c', caps') =>
        possessively step fuel (most.map (· - 1)) (some c.after.length) c' caps'

/-- The outcome of a match: the place after it and the texts of the groups. -/
abbrev Outcome := Cursor × Captures

/-- Matches one character that passes a test. -/
def one (test : Char → Bool) (c : Cursor) (caps : Captures) (k : Continuation Outcome) :
    Option Outcome :=
  match c.next? with
  | none => none
  | some (x, c) => if test x then k c caps else none

/-- Tries a node at a cursor; the continuation gets every way to match it, in order of preference,
until it succeeds. -/
def run : Node → Cursor → Captures → Continuation Outcome → Option Outcome
  | .empty, c, caps, k => k c caps
  | .char rule x, c, caps, k => one (rule.same x) c caps k
  | .any lineFeeds, c, caps, k => one (fun x => lineFeeds || x != '\n') c caps k
  | .set rule negated items, c, caps, k =>
    one (fun x => (items.any (SetItem.has rule x)) != negated) c caps k
  | .anchor a, c, caps, k => if a.holds c then k c caps else none
  | .backref rule group _ _, c, caps, k =>
    match caps.lookup group with
    | none => none
    | some text =>
      match c.skip? rule.sameText text with
      | none => none
      | some c => k c caps
  | .seq a b, c, caps, k => run a c caps fun c caps => run b c caps k
  | .alt a b, c, caps, k => attempt (run a c caps k) fun _ => run b c caps k
  | .group body, c, caps, k => run body c caps k
  | .capture index body, c, caps, k =>
    run body c caps fun c' caps' => k c' ((index, c.between c') :: caps')
  | .atomic body, c, caps, k =>
    match run body c caps fun c caps => some (c, caps) with
    | none => none
    | some (c, caps) => k c caps
  | .repetition .greedy least most body, c, caps, k =>
    exactly (run body) least c caps fun c caps =>
      greedily (run body) k (c.after.length + 1) (most.map (· - least)) none c caps
  | .repetition .lazy least most body, c, caps, k =>
    exactly (run body) least c caps fun c caps =>
      lazily (run body) k (c.after.length + 1) (most.map (· - least)) none c caps
  | .repetition .possessive least most body, c, caps, k =>
    match exactlyKept (run body) least c caps with
    | none => none
    | some (c, caps) =>
      let (c, caps) :=
        possessively (run body) (c.after.length + 1) (most.map (· - least)) none c caps
      k c caps
  | .ahead negated body, c, caps, k =>
    match run body c caps fun c caps => some (c, caps), negated with
    | some (_, caps), false => k c caps
    | none, true => k c caps
    | _, _ => none
  | .behind width negated body, c, caps, k =>
    let found := match width.bind c.back? with
      | none => none
      | some start => run body start caps fun c caps => some (c, caps)
    match found, negated with
    | some (_, caps), false => k c caps
    | none, true => k c caps
    | _, _ => none
  | .conditional group yes no, c, caps, k =>
    if (caps.lookup group).isSome then run yes c caps k else run no c caps k

/-- A match in a text. -/
structure Match where
  /-- The characters between the start of the search and the match. -/
  skipped : List Char
  text : List Char
  captures : Captures
  /-- The place after the match. -/
  stop : Cursor
  deriving Repr, Inhabited

/-- The match of a node at a place; one that must advance may not be empty. -/
def matchAt? (node : Node) (advance : Bool) (c : Cursor) : Option Outcome :=
  run node c [] fun stop caps =>
    if advance ∧ stop.after.length = c.after.length then none else some (stop, caps)

/-- The first match from a place on. Only a match at the place itself must advance. -/
def findFrom (node : Node) (advance : Bool) (skipped before after : List Char) : Option Match :=
  match matchAt? node advance { before, after } with
  | some (stop, captures) =>
    let text := Cursor.between { before, after } stop
    some { skipped := skipped.reverse, text, captures, stop }
  | none =>
    match after with
    | [] => none
    | c :: rest => findFrom node false (c :: skipped) (c :: before) rest

/-- The text from a place on with every match replaced. A match moves the place on or is empty and
the next one is not, so twice the characters bound the matches. -/
def replaceFrom (node : Node) (replacement : Match → List Char) :
    (fuel : Nat) → (advance : Bool) → Cursor → List Char
  | 0, _, c => c.after
  | fuel + 1, advance, c =>
    match findFrom node advance [] c.before c.after with
    | none => c.after
    | some m =>
      m.skipped ++ replacement m ++ replaceFrom node replacement fuel m.text.isEmpty m.stop

end Redline.Pattern

namespace Redline

/-- Whether a pattern matches somewhere in a text. -/
def Pattern.occursIn (p : Pattern) (s : String) : Bool :=
  (Pattern.findFrom p.node false [] [] s.toList).isSome

/-- The text with every match replaced. -/
def Pattern.replace (p : Pattern) (replacement : Pattern.Match → List Char) (s : String) : String :=
  String.ofList (Pattern.replaceFrom p.node replacement (2 * s.length + 2) false
    (.atStart s.toList))

end Redline
