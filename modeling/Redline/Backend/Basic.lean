import Redline.Json.Basic
import Redline.Path

/-!
# Backends

A backend is a way to find things and to propose edits. What it can do follows from the interfaces
that it has; the files it is for are told by the endings of their names.
-/

namespace Redline

/-- Something that a backend can do; in the order of their names. -/
inductive Capability where
  | checkConflicts
  | createBatchRenameProposal
  | createFileRenameProposal
  | createPatternReplaceProposal
  | createRenameProposal
  | findFiles
  | findPatterns
  | findSymbols
  | getReferences
  | getSymbolAt
  deriving DecidableEq, Repr, Inhabited

namespace Capability

/-- Everything that a backend can do. -/
def all : List Capability :=
  [checkConflicts, createBatchRenameProposal, createFileRenameProposal,
    createPatternReplaceProposal, createRenameProposal, findFiles, findPatterns, findSymbols,
    getReferences, getSymbolAt]

/-- The name of a capability. -/
def word : Capability → String
  | checkConflicts => "check_conflicts"
  | createBatchRenameProposal => "create_batch_rename_proposal"
  | createFileRenameProposal => "create_file_rename_proposal"
  | createPatternReplaceProposal => "create_pattern_replace_proposal"
  | createRenameProposal => "create_rename_proposal"
  | findFiles => "find_files"
  | findPatterns => "find_patterns"
  | findSymbols => "find_symbols"
  | getReferences => "get_references"
  | getSymbolAt => "get_symbol_at"

/-- The capability of a name. -/
def ofWord? (s : String) : Option Capability :=
  all.find? fun c => c.word == s

end Capability

/-- A set of capabilities that belong together: finding text or structure, finding symbols, and
finding files by their names. -/
inductive Interface where
  | pattern
  | symbol
  | file
  deriving DecidableEq, Repr, Inhabited

/-- Whether a capability belongs to an interface. -/
def Interface.provides : Interface → Capability → Bool
  | .pattern, .findPatterns | .pattern, .createPatternReplaceProposal => true
  | .symbol, .getSymbolAt | .symbol, .getReferences | .symbol, .findSymbols
  | .symbol, .createRenameProposal | .symbol, .createBatchRenameProposal
  | .symbol, .checkConflicts => true
  | .file, .findFiles | .file, .createFileRenameProposal => true
  | _, _ => false

/-- A backend. -/
structure Backend where
  name : String
  /-- The endings of the names of its files, without their dots; `"*"` stands for any. -/
  extensions : List String
  priority : Int
  interfaces : List Interface
  deriving DecidableEq, Repr, Inhabited

namespace Backend

/-- Whether a backend can do something. -/
def supports (b : Backend) (c : Capability) : Bool :=
  b.interfaces.any (·.provides c)

/-- What a backend can do, by name. -/
def capabilities (b : Backend) : List Capability :=
  Capability.all.filter b.supports

/-- The ending of the name of a file, without its dot. A backslash is taken for a slash. -/
def extensionOf (path : String) : String :=
  let p := Path.ofString (String.ofList (path.toList.map fun c => if c = '\\' then '/' else c))
  String.ofList (p.suffix.toList.dropWhile (· == '.'))

/-- Whether a backend is for files with an ending. -/
def handles (b : Backend) (ending : String) : Bool :=
  b.extensions.contains "*" || b.extensions.contains ending

/-- The document that describes a backend. -/
def describe (b : Backend) : Json :=
  .obj [("name", .str b.name), ("extensions", .ofStrings b.extensions),
    ("priority", .int b.priority),
    ("capabilities", .ofStrings (b.capabilities.map Capability.word))]

/-- Symbols and their references, by scopes. -/
def treeSitter : Backend :=
  { name := "tree-sitter"
    extensions := ["ts", "tsx", "js", "jsx", "mts", "cts", "mjs", "cjs"]
    priority := 100
    interfaces := [.symbol] }

/-- Patterns with variables, by structure. -/
def astGrep : Backend :=
  { name := "ast-grep"
    extensions := ["ts", "tsx", "js", "jsx", "go", "rs", "py", "json", "yaml", "yml"]
    priority := 50
    interfaces := [.pattern] }

/-- Regular expressions, by text. -/
def ripgrep : Backend :=
  { name := "ripgrep", extensions := ["*"], priority := 10, interfaces := [.pattern] }

/-- The names of files. -/
def fileRename : Backend :=
  { name := "file-rename", extensions := ["*"], priority := 0, interfaces := [.file] }

end Backend

end Redline
