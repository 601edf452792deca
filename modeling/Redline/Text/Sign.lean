import Redline.Text.Casing
import Redline.Text.Table.Sign

/-!
# Signs by name

A name between two colons stands for a sign. `-text` or `-emoji` behind the name asks for the sign
as a character or as a picture. A name that is not known stays as it is, with both its colons.
-/

namespace Redline.Text

/-- The name at the start of a text, up to a colon with no blank before it. -/
def signName? (rest : List Char) : Option (List Char) :=
  let name := rest.takeWhile fun c => c != ':' && !isBlank c
  if (rest.drop name.length).head? = some ':' then some name else none

/-- A text without an ending, if it has it. -/
def withoutEnding? (ending cs : List Char) : Option (List Char) :=
  if ending.isSuffixOf cs then some (cs.take (cs.length - ending.length)) else none

/-- A name without what it asks for, and the character that asks for it. -/
def splitVariant (name : List Char) : List Char × List Char :=
  match withoutEnding? "-emoji".toList name, withoutEnding? "-text".toList name with
  | some base, _ => (base, ['\uFE0F'])
  | none, some base => (base, ['\uFE0E'])
  | none, none => (name, [])

/-- The sign of a name, whatever its case. -/
def sign? (name : List Char) : Option (List Char) :=
  let (base, variant) := splitVariant name
  (Table.signs.lookup (toLower (String.ofList base))).map (· :: variant)

/-- A text with signs for their names. `skip` characters belong to the name before. -/
def showSignsFrom (skip : Nat) : List Char → List Char
  | [] => []
  | c :: rest =>
    match skip with
    | skip + 1 => showSignsFrom skip rest
    | 0 =>
      match if c = ':' then signName? rest else none with
      | some name =>
        (sign? name).getD (':' :: name ++ [':']) ++ showSignsFrom (name.length + 1) rest
      | none => c :: showSignsFrom 0 rest

/-- A text with signs for their names. -/
def showSigns (cs : List Char) : List Char :=
  showSignsFrom 0 cs

end Redline.Text
