import Redline.Text.Quoted

/-!
# What can be wrong with a pattern

Each cause has a constructor, with the piece of text that the message shows. A fault lies at a place
in the pattern, except for the one that concerns the pattern as a whole.
-/

namespace Redline.Pattern

/-- What is wrong with a pattern or with a replacement template. -/
inductive Defect where
  | danglingEscape
  | incompleteEscape (escape : String)
  | badEscape (escape : String)
  | largeOctal (escape : String)
  | missingBrace
  | unknownCharacter (name : String)
  | noSuchGroup (group : Nat)
  | openGroup
  | lookbehindGroup
  | unterminatedSet
  | badRange (low high : String)
  | boundsReversed
  | nothingToRepeat
  | multipleRepeat
  | endInside
  | missingName (what : String)
  | unterminatedName (terminator : Char)
  | badGroupName (name : String)
  | unknownGroupName (name : String)
  | badGroupNumber
  | tooManyGroups
  | redefinition (name : String) (group previous : Nat)
  | unknownExtension (text : String)
  | unterminatedComment
  | unterminatedGroup
  | unbalanced
  | thirdBranch
  | lateFlags
  | localeFlag
  | rivalFlags
  | flagListOpen
  | unknownFlag
  | globalFlagOn
  | globalFlagOff
  | missingFlag
  | fixedFlagOff
  | missingColon
  | flagOnAndOff
  | missingAngle
  | variableLookbehind
  deriving DecidableEq, Repr

/-- The wording of a defect. -/
def Defect.message : Defect → String
  | .danglingEscape => "bad escape (end of pattern)"
  | .incompleteEscape e => "incomplete escape " ++ e
  | .badEscape e => "bad escape " ++ e
  | .largeOctal e => "octal escape value " ++ e ++ " outside of range 0-0o377"
  | .missingBrace => "missing \x7b"
  | .unknownCharacter name => "undefined character name " ++ Text.quoted name
  | .noSuchGroup n => "invalid group reference " ++ toString n
  | .openGroup => "cannot refer to an open group"
  | .lookbehindGroup => "cannot refer to group defined in the same lookbehind subpattern"
  | .unterminatedSet => "unterminated character set"
  | .badRange low high => "bad character range " ++ low ++ "-" ++ high
  | .boundsReversed => "min repeat greater than max repeat"
  | .nothingToRepeat => "nothing to repeat"
  | .multipleRepeat => "multiple repeat"
  | .endInside => "unexpected end of pattern"
  | .missingName what => "missing " ++ what
  | .unterminatedName c => "missing " ++ c.toString ++ ", unterminated name"
  | .badGroupName name => "bad character in group name " ++ Text.quoted name
  | .unknownGroupName name => "unknown group name " ++ Text.quoted name
  | .badGroupNumber => "bad group number"
  | .tooManyGroups => "too many groups"
  | .redefinition name group previous =>
    "redefinition of group name " ++ Text.quoted name ++ " as group " ++ toString group
      ++ "; was group " ++ toString previous
  | .unknownExtension text => "unknown extension ?" ++ text
  | .unterminatedComment => "missing ), unterminated comment"
  | .unterminatedGroup => "missing ), unterminated subpattern"
  | .unbalanced => "unbalanced parenthesis"
  | .thirdBranch => "conditional backref with more than two branches"
  | .lateFlags => "global flags not at the start of the expression"
  | .localeFlag => "bad inline flags: cannot use 'L' flag with a str pattern"
  | .rivalFlags => "bad inline flags: flags 'a', 'u' and 'L' are incompatible"
  | .flagListOpen => "missing -, : or )"
  | .unknownFlag => "unknown flag"
  | .globalFlagOn => "bad inline flags: cannot turn on global flag"
  | .globalFlagOff => "bad inline flags: cannot turn off global flag"
  | .missingFlag => "missing flag"
  | .fixedFlagOff => "bad inline flags: cannot turn off flags 'a', 'u' and 'L'"
  | .missingColon => "missing :"
  | .flagOnAndOff => "bad inline flags: flag turned on and off"
  | .missingAngle => "missing <"
  | .variableLookbehind => "look-behind requires fixed-width pattern"

/-- A defect and its place, counted in characters from the start. -/
structure Fault where
  defect : Defect
  place : Option Nat
  deriving DecidableEq, Repr

/-- The wording of a fault of the pattern `pattern`; line and column are told when the pattern has
several lines. -/
def Fault.message (f : Fault) (pattern : String) : String :=
  match f.place with
  | none => f.defect.message
  | some p =>
    let cs := pattern.toList
    let above := cs.take p
    let line := above.count '\n' + 1
    let column := (above.reverse.takeWhile (· != '\n')).length + 1
    let lines :=
      if cs.contains '\n' then
        " (line " ++ toString line ++ ", column " ++ toString column ++ ")"
      else ""
    f.defect.message ++ " at position " ++ toString p ++ lines

/-- Why a text is no pattern. -/
inductive Refusal where
  | invalid (fault : Fault)
  /-- A number of repetitions of more than 32 bits. -/
  | hugeRepetition
  /-- The flags for ASCII and for Unicode classes together. -/
  | clashingFlags
  /-- A group without a name where there are too many groups. -/
  | namelessGroup
  deriving DecidableEq, Repr

end Redline.Pattern
