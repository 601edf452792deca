import Redline.Text.Layout
import Redline.Text.Sign

/-!
# Status lines

A status line tells the user what happened: a mark for its kind, then the message. It is set in
lines of 80 columns. The message is shown as it is, except that signs stand for their names, and
where the notation for styles shows through: a backslash that is the message's last character and
the only one there is doubled, and a backslash before an opening bracket is dropped unless the
bracket begins something that reads as a style.
-/

namespace Redline.Status

/-- What a status line is about. -/
inductive Kind where
  | success
  | error
  | warning
  | info
  | bare
  deriving DecidableEq, Repr, Inhabited

/-- The kind that a word names; an unknown one has no mark. -/
def Kind.ofWord : String → Kind
  | "success" => success
  | "error" => error
  | "warning" => warning
  | "info" => info
  | _ => bare

/-- The mark in front of a message. -/
def Kind.mark : Kind → String
  | success => "✓ "
  | error => "✗ "
  | warning => "! "
  | info => "  "
  | bare => ""

/-- The columns of a line. -/
def columns : Nat := 80

/-- Whether what follows an opening bracket reads as a style: it starts with a small letter or one
of three signs, and the bracket is closed before another one opens. -/
def opensStyle : List Char → Bool
  | [] => false
  | c :: rest =>
    (('a' ≤ c && c ≤ 'z') || c == '#' || c == '/' || c == '@')
      && (rest.takeWhile (· != '[')).contains ']'

/-- The text without the backslashes that stand before an opening bracket that begins no style. -/
def dropEscapes : List Char → List Char
  | [] => []
  | c :: rest =>
    match c, rest with
    | '\\', '[' :: more =>
      if opensStyle more then c :: dropEscapes rest else dropEscapes rest
    | _, _ => c :: dropEscapes rest

/-- A backslash at the end is doubled unless another one stands before it. -/
def doubleLast (cs : List Char) : List Char :=
  match cs.reverse with
  | '\\' :: '\\' :: _ => cs
  | '\\' :: _ => cs ++ ['\\']
  | _ => cs

/-- Whether a character only controls a terminal: bell, backspace, vertical tab, form feed and
carriage return. -/
def isControl (c : Char) : Bool :=
  [0x7, 0x8, 0xB, 0xC, 0xD].contains c.toNat

/-- The text that a status line shows, with its line ends. -/
def text (kind : Kind) (indent : Int) (message : String) : String :=
  let lead := List.replicate indent.toNat ' ' ++ kind.mark.toList
  let body := Text.showSigns (dropEscapes (doubleLast message.toList))
  let shown := (lead ++ body).filter (!isControl ·)
  let rows := (Text.splitLines shown).flatMap fun line =>
    Text.wrap columns (Text.expandTabs 8 0 line)
  String.ofList (rows.flatMap (· ++ ['\n']))

end Redline.Status
