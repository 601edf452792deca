/-!
# Arguments of a command line

Arguments are options and operands. An option of one letter may stand together with others behind
one dash, and its value may follow it directly; a long option may have its value behind an equals
sign. Two dashes end the options. Of an option that is given more than once the last value counts.
-/

namespace Redline.Command

/-- An option. -/
structure Switch where
  /-- The name of its value, or of the flag that it raises. -/
  key : String
  /-- The ways to write it, with their dashes. -/
  spellings : List String
  takesValue : Bool
  deriving DecidableEq, Repr, Inhabited

/-- Arguments that were read. -/
structure Arguments where
  values : List (String × String)
  flags : List String
  operands : List String
  deriving DecidableEq, Repr, Inhabited

namespace Arguments

/-- No arguments. -/
def none_ : Arguments :=
  { values := [], flags := [], operands := [] }

/-- The value of an option. -/
def value? (a : Arguments) (key : String) : Option String :=
  a.values.lookup key

/-- Whether a flag is raised. -/
def has (a : Arguments) (key : String) : Bool :=
  a.flags.contains key

/-- The same arguments with flags raised before them. -/
def withFlags (a : Arguments) (flags : List String) : Arguments :=
  { a with flags := flags ++ a.flags }

/-- The same arguments with a value given before them. -/
def withValue (a : Arguments) (key value : String) : Arguments :=
  { a with values := if (a.values.lookup key).isSome then a.values else (key, value) :: a.values }

end Arguments

/-- What one argument is. -/
inductive Word where
  /-- It ends the options. -/
  | terminator
  | operand
  /-- It raises flags. -/
  | flags (keys : List String)
  /-- It raises flags and gives an option its value. -/
  | given (flags : List String) (key value : String)
  /-- It raises flags and names an option whose value is the next argument. -/
  | asks (flags : List String) (key : String)
  | unknown
  deriving DecidableEq, Repr, Inhabited

/-- The option that is written in a way. -/
def switch? (switches : List Switch) (spelling : String) : Option Switch :=
  switches.find? (·.spellings.contains spelling)

/-- Letters behind one dash. `flags` are those raised so far. -/
def letters (switches : List Switch) (flags : List String) : List Char → Word
  | [] => .flags flags
  | c :: rest =>
    match switch? switches (String.ofList ['-', c]) with
    | none => .unknown
    | some s =>
      if !s.takesValue then letters switches (flags ++ [s.key]) rest
      else if rest.isEmpty then .asks flags s.key
      else .given flags s.key (String.ofList rest)

/-- What an argument that starts with a dash is. -/
def dashed (switches : List Switch) (arg : List Char) : Word :=
  let name := arg.takeWhile (· != '=')
  let value := (arg.drop name.length).drop 1
  let attached := name.length < arg.length
  let isLong (s : Switch) : Bool := s.spellings.contains (String.ofList name) && 2 < name.length
  match switches.find? isLong with
  | some s =>
    if s.takesValue then
      if attached then .given [] s.key (String.ofList value) else .asks [] s.key
    else if attached then .unknown
    else .flags [s.key]
  | none => if arg.take 2 = ['-', '-'] then .unknown else letters switches [] (arg.drop 1)

/-- What an argument is. -/
def word (switches : List Switch) (arg : String) : Word :=
  match arg.toList with
  | ['-', '-'] => .terminator
  | '-' :: c :: rest => dashed switches ('-' :: c :: rest)
  | _ => .operand

/-- Reads arguments; none if one is unknown or lacks its value. Unless `mixed`, the first operand
ends the options. -/
def Arguments.read? (switches : List Switch) (mixed : Bool) : List String → Option Arguments
  | [] => some Arguments.none_
  | arg :: rest =>
    match word switches arg with
    | .terminator => some { Arguments.none_ with operands := rest }
    | .operand =>
      if mixed then
        (read? switches mixed rest).map fun a => { a with operands := arg :: a.operands }
      else some { Arguments.none_ with operands := arg :: rest }
    | .flags keys => (read? switches mixed rest).map fun a => a.withFlags keys
    | .given flags key v =>
      (read? switches mixed rest).map fun a => (a.withValue key v).withFlags flags
    | .asks flags key =>
      match rest with
      | [] => none
      | v :: rest => (read? switches mixed rest).map fun a => (a.withValue key v).withFlags flags
    | .unknown => none

end Redline.Command
