import Redline.Project.Rename

/-!
# Checking renames for conflicts

A rename conflicts if a symbol with its new name is declared in the same file. Scopes do not count.
-/

namespace Redline

/-- A rename whose new name is taken. -/
structure NameConflict where
  new : String
  symbol : Symbol
  existing : Symbol
  deriving DecidableEq, Repr, Inhabited

/-- A rename whose new name is free. -/
structure SafeRename where
  symbol : Symbol
  new : String
  deriving DecidableEq, Repr, Inhabited

/-- What a check for conflicts found. -/
structure ConflictReport where
  conflicts : List NameConflict
  safe : List SafeRename
  deriving DecidableEq, Repr, Inhabited

/-- The document that describes a conflict. -/
def NameConflict.toJson (c : NameConflict) : Json :=
  .obj [("oldName", .str c.symbol.name), ("newName", .str c.new), ("reason", .str "target_exists"),
    ("location", c.symbol.toJson), ("existingSymbol", c.existing.toJson)]

/-- The document that describes a safe rename. -/
def SafeRename.toJson (s : SafeRename) : Json :=
  .obj [("symbolKey", .str s.symbol.key.text), ("oldName", .str s.symbol.name),
    ("newName", .str s.new)]

/-- The document that reports a check. -/
def ConflictReport.toJson (r : ConflictReport) : Json :=
  .obj [("conflicts", .arr (r.conflicts.map NameConflict.toJson)),
    ("safe", .arr (r.safe.map SafeRename.toJson))]

namespace Project

/-- The symbol with a name in a file: among the matches first, then among all symbols. -/
def declared? (x : Index) (found : List SymbolMatch) (file name : String) : Option Symbol :=
  match (found.map SymbolMatch.symbol).find? fun s => s.file == file && s.name == name with
  | some s => some s
  | none =>
    (x.symbols.find? fun (source, _, _, n) => source.path == file && n == name).map
      fun (source, spot, t, _) => x.symbolAt source spot t

/-- Adds the rename of one symbol to a report. -/
def checkMatch (x : Index) (found : List SymbolMatch) (pattern : Pattern) (replacement : String)
    (r : ConflictReport) (m : SymbolMatch) : ConflictReport :=
  let symbol := m.symbol
  let new := Naming.newName symbol.name pattern replacement
  if new = symbol.name then r
  else
    match declared? x found symbol.file new with
    | some existing =>
      if existing.key.text = symbol.key.text then { r with safe := r.safe ++ [{ symbol, new }] }
      else { r with conflicts := r.conflicts ++ [{ new, symbol, existing }] }
    | none => { r with safe := r.safe ++ [{ symbol, new }] }

/-- Checks the renames of every symbol that matches a pattern. -/
def checkConflicts (text replacement : String) : Query ConflictReport := do
  let pattern ← liftM (Pattern.compile text true)
  let x ← theIndex
  let found := matchesIn x pattern
  return found.foldl (checkMatch x found pattern replacement) { conflicts := [], safe := [] }

end Project

end Redline
