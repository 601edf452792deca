import Redline.Command.Arguments
import Redline.Text.Numeral

/-!
# Requests

What a command line can ask for. A form says how one request is written: its name, its options, and
how many operands it takes.
-/

namespace Redline.Command

/-- Something that is asked for. -/
inductive Request where
  | symbolAt (file : String) (line column : Int)
  | references (key : String)
  | findSymbols (pattern : String)
  | rename (key new : String) (output : Option String)
  | renameBatch (pattern replacement : String) (output skip : Option String) (onlyCheck : Bool)
  | findPattern (pattern : String) (glob backend : Option String)
  | replacePattern (pattern replacement : String) (glob backend output : Option String)
  | select (file : String) (include_ exclude output : Option String)
  | verify (file : String)
  | apply (file : String) (dryRun : Bool)
  | findFiles (pattern replacement : String) (glob : Option String)
  | renameFiles (pattern replacement : String) (glob output : Option String) (onlyCheck : Bool)
  | verifyFiles (file : String)
  | applyFiles (file : String) (dryRun : Bool)
  | listBackends
  deriving DecidableEq, Repr, Inhabited

/-- How a request is written. -/
structure Form where
  name : String
  /-- One line on what it does. -/
  summary : String
  switches : List Switch
  /-- The names of the operands that it needs. -/
  needed : List String
  /-- The names of the operands that may be left out. -/
  optional : List String
  /-- The request of arguments whose operands are as many as the form takes. -/
  make : Arguments → Option Request

/-! ## Options -/

/-- An option with a value. -/
def valued (key : String) (spellings : List String) : Switch :=
  { key, spellings, takesValue := true }

/-- A flag. -/
def flag (key : String) (spellings : List String) : Switch :=
  { key, spellings, takesValue := false }

/-- The flag that asks what there is. -/
def helpFlag : Switch := flag "help" ["--help"]

/-- The pattern to look for. -/
def patternOption : Switch := valued "pattern" ["--pattern", "-p"]

/-- What takes the place of the pattern. -/
def replaceOption : Switch := valued "replacement" ["--replace", "-r"]

/-- The files to look at. -/
def globOption : Switch := valued "glob" ["--glob", "-g"]

/-- The backend to use. -/
def backendOption : Switch := valued "backend" ["--backend", "-b"]

/-- Where a proposal is stored. -/
def outputOption : Switch := valued "output" ["--output", "-o"]

/-- Whether conflicts are only reported. -/
def checkFlag : Switch := flag "check" ["--check-conflicts"]

/-- Whether nothing is changed. -/
def dryRunFlag : Switch := flag "dry run" ["--dry-run"]

/-! ## Forms -/

/-- The forms of all requests. -/
def forms : List Form :=
  [ { name := "symbol.at"
      summary := "Show the symbol at FILE:LINE[:COL] (1-indexed)."
      switches := []
      needed := ["FILE", "LINE"]
      optional := ["COL"]
      make := fun a =>
        match a.operands with
        | [file, line] => do return .symbolAt file (← Text.Numeral.toInt? line) 1
        | [file, line, column] => do
          return .symbolAt file (← Text.Numeral.toInt? line) (← Text.Numeral.toInt? column)
        | _ => none },
    { name := "refs.list"
      summary := "List every reference of SYMBOL_KEY (file:line:col:name)."
      switches := []
      needed := ["SYMBOL_KEY"]
      optional := []
      make := fun a => a.operands.head?.map .references },
    { name := "symbols.find"
      summary := "Find declared symbols whose name matches --pattern."
      switches := [patternOption]
      needed := []
      optional := []
      make := fun a => (a.value? "pattern").map .findSymbols },
    { name := "rename.propose"
      summary := "Write an editset renaming SYMBOL_KEY to NEW_NAME."
      switches := [outputOption]
      needed := ["SYMBOL_KEY", "NEW_NAME"]
      optional := []
      make := fun a =>
        match a.operands with
        | [key, new] => some (.rename key new (a.value? "output"))
        | _ => none },
    { name := "rename.batch"
      summary := "Rename every symbol matching --pattern, preserving case."
      switches := [patternOption, replaceOption, outputOption, checkFlag,
        valued "skip" ["--skip"]]
      needed := []
      optional := []
      make := fun a => do
        return .renameBatch (← a.value? "pattern") (← a.value? "replacement") (a.value? "output")
          (a.value? "skip") (a.has "check") },
    { name := "pattern.find"
      summary := "List matches of --pattern across the working root."
      switches := [patternOption, globOption, backendOption]
      needed := []
      optional := []
      make := fun a => do
        return .findPattern (← a.value? "pattern") (a.value? "glob") (a.value? "backend") },
    { name := "pattern.replace"
      summary := "Write an editset replacing every match of --pattern."
      switches := [patternOption, replaceOption, globOption, backendOption, outputOption]
      needed := []
      optional := []
      make := fun a => do
        return .replacePattern (← a.value? "pattern") (← a.value? "replacement") (a.value? "glob")
          (a.value? "backend") (a.value? "output") },
    { name := "editset.select"
      summary := "Adjust which refs of an editset are selected."
      switches := [valued "include" ["--include"], valued "exclude" ["--exclude"], outputOption]
      needed := ["FILE"]
      optional := []
      make := fun a => do
        return .select (← a.operands.head?) (a.value? "include") (a.value? "exclude")
          (a.value? "output") },
    { name := "editset.verify"
      summary := "Check that every file in an editset is unchanged since discovery."
      switches := []
      needed := ["FILE"]
      optional := []
      make := fun a => a.operands.head?.map .verify },
    { name := "editset.apply"
      summary := "Apply an editset. Drifted files are skipped, the rest are written."
      switches := [dryRunFlag]
      needed := ["FILE"]
      optional := []
      make := fun a => a.operands.head?.map fun file => .apply file (a.has "dry run") },
    { name := "file.find"
      summary := "Preview file renames without writing an editset."
      switches := [patternOption, replaceOption, globOption]
      needed := []
      optional := []
      make := fun a => do
        return .findFiles (← a.value? "pattern") (← a.value? "replacement") (a.value? "glob") },
    { name := "file.rename"
      summary := "Write a file editset renaming files whose name contains --pattern."
      switches := [patternOption, replaceOption, globOption, outputOption, checkFlag]
      needed := []
      optional := []
      make := fun a => do
        return .renameFiles (← a.value? "pattern") (← a.value? "replacement") (a.value? "glob")
          (a.value? "output") (a.has "check") },
    { name := "file.verify"
      summary := "Check that every file in a file editset is unchanged."
      switches := []
      needed := ["FILE"]
      optional := []
      make := fun a => a.operands.head?.map .verifyFiles },
    { name := "file.apply"
      summary := "Apply the renames of a file editset."
      switches := [dryRunFlag]
      needed := ["FILE"]
      optional := []
      make := fun a => a.operands.head?.map fun file => .applyFiles file (a.has "dry run") },
    { name := "backends.list"
      summary := "List backends in priority order with their capabilities."
      switches := []
      needed := []
      optional := []
      make := fun _ => some .listBackends } ]

/-- The form of a name. -/
def form? (name : String) : Option Form :=
  forms.find? (·.name == name)

/-- What arguments come to. -/
inductive Reading (α : Type) where
  | misuse
  | help
  | version
  | done (a : α)
  deriving Repr, Inhabited

/-- The request that arguments make in a form. -/
def Form.read (f : Form) (args : List String) : Reading Request :=
  match Arguments.read? (f.switches ++ [helpFlag]) true args with
  | none => .misuse
  | some a =>
    if a.has "help" then .help
    else
      let count := a.operands.length
      if count < f.needed.length ∨ f.needed.length + f.optional.length < count then .misuse
      else
        match f.make a with
        | some r => .done r
        | none => .misuse

/-! ## The whole line -/

/-- The options in front of a request's name. -/
structure Preamble where
  root : Option String
  tsconfig : Option String
  verbose : Bool
  deriving DecidableEq, Repr, Inhabited

/-- A command line up to the arguments of the request. -/
structure Line where
  preamble : Preamble
  name : String
  rest : List String
  deriving DecidableEq, Repr, Inhabited

/-- The options in front of a request's name. -/
def lineSwitches : List Switch :=
  [valued "root" ["--root"], valued "tsconfig" ["--tsconfig"], flag "verbose" ["-v", "--verbose"],
    flag "version" ["--version"], helpFlag]

/-- Whether the name of a request looks like an option. -/
def looksLikeOption (name : String) : Bool :=
  match name.toList with
  | [] => false
  | c :: _ => !Text.isAlphanumeric c

/-- Reads the options in front of the name. -/
def Line.read (args : List String) : Reading Line :=
  match Arguments.read? lineSwitches false args with
  | none => .misuse
  | some a =>
    match a.flags.find? fun key => key == "help" || key == "version" with
    | some key => if key = "help" then .help else .version
    | none =>
      match a.operands with
      | [] => .misuse
      | name :: rest =>
        .done {
          preamble :=
            { root := a.value? "root"
              tsconfig := a.value? "tsconfig"
              verbose := a.has "verbose" }
          name
          rest }

end Redline.Command
