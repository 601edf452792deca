import Redline.Record
import Redline.Text.Lines

/-!
# Symbols and their keys

A symbol is a declared name with its kind and its place. Its key names the place in one text, file,
line, column and name with colons between them; a key is read from the right, so a file may have
colons in its name and the symbol may not.
-/

namespace Redline

/-- What a name stands for. -/
inductive SymbolKind where
  | variable
  | function
  | typeName
  | interface
  | property
  | classType
  | method
  | parameter
  deriving DecidableEq, Repr, Inhabited

/-- The word for a kind. -/
def SymbolKind.word : SymbolKind → String
  | .variable => "variable"
  | .function => "function"
  | .typeName => "type"
  | .interface => "interface"
  | .property => "property"
  | .classType => "class"
  | .method => "method"
  | .parameter => "parameter"

/-- The place of a name. -/
structure SymbolKey where
  file : String
  line : Int
  column : Int
  name : String
  deriving DecidableEq, Repr, Inhabited

namespace SymbolKey

/-- The text of a key. -/
def text (k : SymbolKey) : String :=
  k.file ++ ":" ++ Text.Numeral.ofInt k.line ++ ":" ++ Text.Numeral.ofInt k.column ++ ":" ++ k.name

/-- The key that a text shows: the last three colons cut it. -/
def ofText (s : String) : Except Mishap SymbolKey :=
  match (Text.splitOnChar ':' s).reverse with
  | name :: column :: line :: first :: more => do
    let line ← Record.whole (.str line)
    let column ← Record.whole (.str column)
    return { file := Text.joinWith ":" (first :: more).reverse, line, column, name }
  | _ => .error (.badValue ("Malformed symbol key: " ++ s))

end SymbolKey

/-- A symbol. -/
structure Symbol where
  name : String
  kind : SymbolKind
  file : String
  line : Int
  column : Int
  deriving DecidableEq, Repr, Inhabited

namespace Symbol

/-- The key of a symbol. -/
def key (s : Symbol) : SymbolKey :=
  { file := s.file, line := s.line, column := s.column, name := s.name }

/-- The members of the document that describes a symbol. -/
def members (s : Symbol) : List (String × Json) :=
  [("symbolKey", .str s.key.text), ("name", .str s.name), ("kind", .str s.kind.word),
    ("file", .str s.file), ("line", .int s.line), ("column", .int s.column)]

/-- The document that describes a symbol. -/
def toJson (s : Symbol) : Json :=
  .obj s.members

end Symbol

/-- A symbol that was searched for, with the number of its references. -/
structure SymbolMatch where
  symbol : Symbol
  count : Nat
  deriving DecidableEq, Repr, Inhabited

/-- The document that describes it. -/
def SymbolMatch.toJson (m : SymbolMatch) : Json :=
  .obj (m.symbol.members ++ [("refCount", .int m.count)])

end Redline
