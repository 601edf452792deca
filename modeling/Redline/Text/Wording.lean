import Redline.Text.Lines
import Redline.Text.Numeral

/-!
# Wording

How a count is worded in a message, and how a list is written in one text.
-/

namespace Redline.Text

/-- A count and its noun: `singular` for one, otherwise `plural`, or the singular with an s where no
plural is given. -/
def counted (count : Int) (singular plural : String) : String :=
  let word :=
    if count = 1 then singular
    else if plural.isEmpty then singular ++ "s"
    else plural
  Numeral.ofInt count ++ " " ++ word

/-- The entries of a list that is written with commas between them. Blanks around an entry do not
belong to it, and an entry of blanks only is none. -/
def listEntries (s : String) : List String :=
  ((splitOnChar ',' s).map trim).filter (!·.isEmpty)

end Redline.Text
