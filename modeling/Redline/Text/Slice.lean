/-!
# Cutting at whole-number positions

A position may be any whole number: a negative one counts from the end, and one beyond either end is
that end.
-/

namespace Redline.Text

/-- The place in a list of `size` items that a position names. -/
def place (size : Nat) (position : Int) : Nat :=
  if position < 0 then (size + position).toNat else min position.toNat size

/-- The items before a position. -/
def before {α : Type} (xs : List α) (position : Int) : List α :=
  xs.take (place xs.length position)

/-- The items from a position on. -/
def onward {α : Type} (xs : List α) (position : Int) : List α :=
  xs.drop (place xs.length position)

/-- The items from one position up to another. -/
def between {α : Type} (xs : List α) (from_ upto : Int) : List α :=
  (before xs upto).drop (place xs.length from_)

end Redline.Text
