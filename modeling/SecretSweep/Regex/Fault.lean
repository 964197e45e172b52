import SecretSweep.Text.Quoted

/-!
Why a text is no regular expression.
-/

namespace SecretSweep.Regex

inductive Cause where
  | loneBackslash
  | missingName (what : String)
  | unterminatedName (terminator : Char)
  | badGroupName (name : List Char)
  | unknownGroupName (name : List Char)
  | redefinedGroup (name : List Char) (index first : Nat)
  | incompleteEscape (text : List Char)
  | badEscape (text : List Char)
  | octalTooLarge (text : List Char)
  | missingBrace
  | undefinedCharacter (name : List Char)
  | openGroup
  | unknownGroup (index : Nat)
  | groupInSameLookBehind
  | unterminatedSet
  | badRange (low high : List Char)
  | minAboveMax
  | nothingToRepeat
  | multipleRepeat
  | unexpectedEnd
  | unknownExtension (text : List Char)
  | unterminatedComment
  | unterminatedGroup
  | badGroupNumber
  | tooManyBranches
  | flagsNotAtStart
  | cannotUseLocale
  | incompatibleFlags
  | missingFlagEnd
  | unknownFlag
  | missingFlag
  | cannotTurnOff
  | missingColon
  | cannotTurnOnGlobal
  | cannotTurnOffGlobal
  | flagOnAndOff
  | unbalancedParenthesis
  | looksTooFarBehind
  | unboundedLookBehind
  | templateRepeat (operator : String)
  | repetitionTooLarge
  | asciiAndUnicode
  | numeralTooLong (digits : Nat)
  | characterTooLarge
  deriving DecidableEq, Repr

/-- Whether a cause is a fault of the expression's own kind, a number out of range, or a value that
is refused. -/
inductive CauseKind where
  | expression
  | overflow
  | value
  deriving DecidableEq, Repr

def Cause.kind : Cause → CauseKind
  | .repetitionTooLarge | .characterTooLarge => .overflow
  | .asciiAndUnicode | .numeralTooLong _ => .value
  | _ => .expression

structure Fault where
  cause : Cause
  position : Option Nat
  deriving DecidableEq, Repr

def Cause.message : Cause → String
  | .loneBackslash => "bad escape (end of pattern)"
  | .missingName what => "missing " ++ what
  | .unterminatedName t => "missing " ++ t.toString ++ ", unterminated name"
  | .badGroupName name => "bad character in group name " ++ quoted name
  | .unknownGroupName name => "unknown group name " ++ quoted name
  | .redefinedGroup name index first =>
    "redefinition of group name " ++ quoted name ++ " as group " ++ toString index
      ++ "; was group " ++ toString first
  | .incompleteEscape text => "incomplete escape " ++ String.ofList text
  | .badEscape text => "bad escape " ++ String.ofList text
  | .octalTooLarge text =>
    "octal escape value " ++ String.ofList text ++ " outside of range 0-0o377"
  | .missingBrace => "missing \x7b"
  | .undefinedCharacter name => "undefined character name " ++ quoted name
  | .openGroup => "cannot refer to an open group"
  | .unknownGroup index => "invalid group reference " ++ toString index
  | .groupInSameLookBehind => "cannot refer to group defined in the same lookbehind subpattern"
  | .unterminatedSet => "unterminated character set"
  | .badRange low high =>
    "bad character range " ++ String.ofList low ++ "-" ++ String.ofList high
  | .minAboveMax => "min repeat greater than max repeat"
  | .nothingToRepeat => "nothing to repeat"
  | .multipleRepeat => "multiple repeat"
  | .unexpectedEnd => "unexpected end of pattern"
  | .unknownExtension text => "unknown extension " ++ String.ofList text
  | .unterminatedComment => "missing ), unterminated comment"
  | .unterminatedGroup => "missing ), unterminated subpattern"
  | .badGroupNumber => "bad group number"
  | .tooManyBranches => "conditional backref with more than two branches"
  | .flagsNotAtStart => "global flags not at the start of the expression"
  | .cannotUseLocale => "bad inline flags: cannot use 'L' flag with a str pattern"
  | .incompatibleFlags => "bad inline flags: flags 'a', 'u' and 'L' are incompatible"
  | .missingFlagEnd => "missing -, : or )"
  | .unknownFlag => "unknown flag"
  | .missingFlag => "missing flag"
  | .cannotTurnOff => "bad inline flags: cannot turn off flags 'a', 'u' and 'L'"
  | .missingColon => "missing :"
  | .cannotTurnOnGlobal => "bad inline flags: cannot turn on global flag"
  | .cannotTurnOffGlobal => "bad inline flags: cannot turn off global flag"
  | .flagOnAndOff => "bad inline flags: flag turned on and off"
  | .unbalancedParenthesis => "unbalanced parenthesis"
  | .looksTooFarBehind => "looks too much behind"
  | .unboundedLookBehind => "look-behind requires fixed-width pattern"
  | .templateRepeat operator => "internal: unsupported template operator " ++ operator
  | .repetitionTooLarge => "the repetition number is too large"
  | .asciiAndUnicode => "ASCII and UNICODE flags are incompatible"
  | .numeralTooLong digits => "Exceeds the limit (4300 digits) for integer string conversion: value has "
      ++ toString digits ++ " digits; use sys.set_int_max_str_digits() to increase the limit"
  | .characterTooLarge => "Python int too large to convert to C int"
where
  quoted (s : List Char) : String := String.ofList (Text.quote s)

/-- The cause and its place; in an expression of several lines also as line and column. -/
def Fault.message (source : List Char) (f : Fault) : String :=
  match f.position with
  | none => f.cause.message
  | some n =>
    let before := source.take n
    let line := before.count '\n' + 1
    let column := (before.reverse.takeWhile (· != '\n')).length + 1
    let place := f.cause.message ++ " at position " ++ toString n
    if source.contains '\n' then
      place ++ " (line " ++ toString line ++ ", column " ++ toString column ++ ")"
    else place

end SecretSweep.Regex
