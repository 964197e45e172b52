import SecretSweep.Delivery.Record
import SecretSweep.Files.Tree
import SecretSweep.Header.Address
import SecretSweep.Header.Plain
import SecretSweep.Settings.Basic

/-!
The mail about a leak: headers that fit on one line each, and a body of plain text.
-/

namespace SecretSweep

structure Mail where
  subject : String
  sender : String
  recipient : String
  body : String
  deriving DecidableEq, Repr

namespace Mail

inductive Fault where
  | headerBreaks
  | addresses (fault : Header.AddressFault)
  /-- The number of the line has too many digits. -/
  | numberTooLong
  deriving DecidableEq, Repr

def Fault.toFailure : Fault → Failure
  | .headerBreaks =>
    ⟨.value, "Header values may not contain linefeed or carriage return characters"⟩
  | .addresses .endsEarly => ⟨.position, "string index out of range"⟩
  | .addresses .afterGroup => ⟨.part, "'Group' object has no attribute 'local_part'"⟩
  | .addresses .breaks => ⟨.value, "invalid arguments; address parts cannot contain CR or LF"⟩
  | .addresses .openBracket =>
    ⟨.part, "'InvalidHeaderDefect' object has no attribute 'all_defects'"⟩
  | .addresses .blankBracket =>
    ⟨.other "UnboundLocalError",
      "cannot access local variable 'pos' where it is not associated with a value"⟩
  | .addresses .pointAtEnd => ⟨.part, "'str' object has no attribute 'token_type'"⟩
  | .addresses .pointAfterGap =>
    ⟨.type, "'ValueTerminal' object does not support item assignment"⟩
  | .addresses .blank => ⟨.position, "list index out of range"⟩
  | .numberTooLong => ⟨.value, Text.notWritable⟩

/-- Refuses a text of several lines. A line break at its very end is let pass. -/
def oneLine (s : String) : Except Fault (List Char) :=
  if (Text.splitLines s.toList).length ≤ 1 then .ok s.toList else .error .headerBreaks

def header (s : String) : Except Fault String := do
  return String.ofList (Header.plainText (← oneLine s))

def addressHeader (s : String) : Except Fault String := do
  let addresses ← (Header.addressesOf (← oneLine s)).mapError .addresses
  return String.ofList (Header.addressText addresses)

def repository (l : Leak) : String := if l.repoUrl.isEmpty then l.repoPath else l.repoUrl

def location (l : Leak) : Except Fault String :=
  if l.line = 0 then .ok l.filePath
  else if Text.isWritable l.line then .ok (l.filePath ++ ":" ++ toString l.line)
  else .error .numberTooLong

def tag : String := "[LeakWatch]"

def subjectOf (l : Leak) : String := tag ++ " " ++ l.patternName ++ " in " ++ repository l

def bodyLines (l : Leak) (location : String) : List String := [
  "A possible secret was committed.",
  "",
  "Repository: " ++ repository l,
  "File:       " ++ location,
  "Commit:     " ++ l.commitHash,
  "Author:     " ++ l.commitAuthor ++ " <" ++ l.commitEmail ++ ">",
  "Date:       " ++ l.timestamp.text,
  "Pattern:    " ++ l.patternName ++ " (" ++ l.regexp ++ ")",
  "",
  l.leakString,
  ""]

/-- The body has plain line ends, whatever the fields of the leak hold. -/
def bodyOf (l : Leak) : Except Fault String := do
  let lines := bodyLines l (← location l)
  return String.ofList (Files.plainLineEnds (Text.join ['\n'] (lines.map String.toList)))

def compose (l : Leak) (sender recipient : String) : Except Fault Mail := do
  return {
    subject := ← header (subjectOf l)
    sender := ← addressHeader sender
    recipient := ← addressHeader recipient
    body := ← bodyOf l }

end Mail

end SecretSweep
