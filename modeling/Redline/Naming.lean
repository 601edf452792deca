import Redline.Pattern.Reader
import Redline.Pattern.Matcher

/-!
# Names that keep their case

A replacement follows the casing of the text it replaces: all capitals stay capitals, a capital at
the start stays one, anything else is lower case. A new name is the old one with every match of a
pattern replaced so.
-/

namespace Redline.Naming

/-- Upper case of the first character only. -/
def capitalized (s : String) : String :=
  match s.toList with
  | [] => s
  | c :: rest => String.ofList (Text.upperChar c ++ rest)

/-- The replacement in the casing of the matched text. -/
def preserveCase (matched replacement : String) : String :=
  if 1 < matched.length ∧ matched = Text.toUpper matched ∧ matched ≠ Text.toLower matched then
    Text.toUpper replacement
  else
    match matched.toList with
    | c :: _ => if Text.isUpper c then capitalized replacement else Text.toLower replacement
    | [] => Text.toLower replacement

/-- A name with every match of the pattern replaced in its own casing. -/
def newName (name : String) (pattern : Pattern) (replacement : String) : String :=
  pattern.replace (fun m => (preserveCase (String.ofList m.text) replacement).toList) name

/-- A file name with every occurrence of a text replaced in its own casing. The text is found
whatever its case, and nothing in it has a special meaning. -/
def newFileName (name text replacement : String) : String :=
  match Pattern.read (Pattern.escape text) true with
  | .ok pattern => newName name pattern replacement
  | .error _ => name

end Redline.Naming
