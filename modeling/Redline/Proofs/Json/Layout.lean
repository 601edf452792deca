import Redline.Json.Printer
import Redline.Json.Reader

/-!
# Layouts of a document

Writers of documents differ in the blanks they put between the marks of the notation: before the
elements and members of a level, before the closing mark of a level, and after a colon. A `Layout`
says which. `Json.pretty` is one of them; programs that print a document a line use `compact`, which
has no blanks.
-/

namespace Redline.Json

/-- The blanks that a writer puts between the marks of the notation. -/
structure Layout where
  /-- Stands before what is on a level. -/
  line : Nat → List Char
  /-- Stands after a colon. -/
  gap : List Char
  line_blank : ∀ level, ∀ c ∈ line level, isSpace c = true
  gap_blank : ∀ c ∈ gap, isSpace c = true

namespace Layout

/-- One element or member a line, indented by its level. -/
def pretty : Layout where
  line := newline
  gap := [' ']
  line_blank level c hc := by
    rcases List.mem_cons.1 hc with rfl | hc
    · decide
    · rw [List.eq_of_mem_replicate hc]
      decide
  gap_blank := by simp [isSpace]

/-- No blanks at all. -/
def compact : Layout where
  line _ := []
  gap := []
  line_blank := by simp
  gap_blank := by simp

variable (l : Layout)

mutual

/-- A value whose surroundings stand at `level`. -/
def write (level : Nat) : Json → List Char
  | .null => "null".toList
  | .bool b => if b then "true".toList else "false".toList
  | .int n => (Text.Numeral.ofInt n).toList
  | .float x => writeFloat x
  | .str s => writeString s
  | .arr items =>
    match items with
    | [] => ['[', ']']
    | item :: rest =>
      '[' :: l.line (level + 1) ++ write (level + 1) item ++ writeItems (level + 1) rest
        ++ l.line level ++ [']']
  | .obj members =>
    match members with
    | [] => ['\x7b', '\x7d']
    | (key, v) :: rest =>
      '\x7b' :: l.line (level + 1) ++ writeString key ++ ':' :: l.gap ++ write (level + 1) v
        ++ writeMembers (level + 1) rest ++ l.line level ++ ['\x7d']

/-- The elements after the first. -/
def writeItems (level : Nat) : List Json → List Char
  | [] => []
  | item :: rest => ',' :: l.line level ++ write level item ++ writeItems level rest

/-- The members after the first. -/
def writeMembers (level : Nat) : List (String × Json) → List Char
  | [] => []
  | (key, v) :: rest =>
    ',' :: l.line level ++ writeString key ++ ':' :: l.gap ++ write level v
      ++ writeMembers level rest

end

mutual

theorem write_pretty (level : Nat) (j : Json) : pretty.write level j = Json.write level j := by
  cases j with
  | null | bool | int | float | str => simp only [write, Json.write]
  | arr items =>
      cases items with
      | nil => simp only [write, Json.write]
      | cons item rest =>
          simp only [write, Json.write, write_pretty (level + 1) item,
            writeItems_pretty (level + 1) rest]
          rfl
  | obj members =>
      cases members with
      | nil => simp only [write, Json.write]
      | cons m rest =>
          obtain ⟨key, v⟩ := m
          simp only [write, Json.write, write_pretty (level + 1) v,
            writeMembers_pretty (level + 1) rest]
          simp [pretty]

theorem writeItems_pretty (level : Nat) (items : List Json) :
    pretty.writeItems level items = Json.writeItems level items := by
  cases items with
  | nil => simp only [writeItems, Json.writeItems]
  | cons item rest =>
      simp only [writeItems, Json.writeItems, write_pretty level item,
        writeItems_pretty level rest]
      rfl

theorem writeMembers_pretty (level : Nat) (members : List (String × Json)) :
    pretty.writeMembers level members = Json.writeMembers level members := by
  cases members with
  | nil => simp only [writeMembers, Json.writeMembers]
  | cons m rest =>
      obtain ⟨key, v⟩ := m
      simp only [writeMembers, Json.writeMembers, write_pretty level v,
        writeMembers_pretty level rest]
      simp [pretty]

end

end Layout

/-- A document on one line, as programs print it. -/
def compact (j : Json) : String :=
  String.ofList (Layout.compact.write 0 j)

end Redline.Json
