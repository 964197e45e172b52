import SecretSweep.Text.Lines
import SecretSweep.Text.Quoted
import SecretSweep.Text.Similarity

/-!
Reading the words of a command line: options, with or without a value, and arguments. An option of
one letter may share its word with others and with its value; a long one may have its value after an
equals sign. Two dashes end the options.
-/

namespace SecretSweep.Console

/-- An option: its names, and whether a value follows. -/
structure OptionSpec where
  names : List String
  takesValue : Bool
  deriving DecidableEq, Repr

/-- Names of one dash and one letter are short. -/
def isShortName (name : String) : Bool := name.length == 2

namespace OptionSpec

def hasName (o : OptionSpec) (name : String) : Bool := o.names.contains name

def hint (o : OptionSpec) : String :=
  " / ".intercalate (o.names.map fun n => "'" ++ n ++ "'")

end OptionSpec

structure Given where
  option : OptionSpec
  value : String
  deriving DecidableEq, Repr

structure CommandLine where
  given : List Given
  arguments : List String
  deriving DecidableEq, Repr

inductive OptionFault where
  | unknown (name : String) (near : List String)
  | needsValue (name : String)
  | takesNoValue (name : String)
  deriving DecidableEq, Repr

def OptionFault.message : OptionFault → String
  | .unknown name near =>
    let suggestion := match near with
      | [] => ""
      | [word] => " Did you mean " ++ word ++ "?"
      | words => " (Possible options: " ++ ", ".intercalate words ++ ")"
    "No such option: " ++ name ++ suggestion
  | .needsValue name =>
    "Option " ++ String.ofList (Text.quote name.toList) ++ " requires an argument."
  | .takesNoValue name =>
    "Option " ++ String.ofList (Text.quote name.toList) ++ " does not take a value."

/-- The value of an option: one that is attached, or else the next word. -/
def takeValue (name : String) (o : OptionSpec) (attached : Option String) (rest : List String) :
    Except OptionFault (Given × List String) :=
  match attached, rest with
  | some value, _ => .ok (⟨o, value⟩, rest)
  | none, value :: rest => .ok (⟨o, value⟩, rest)
  | none, [] => .error (.needsValue name)

def readShort (specs : List OptionSpec) : List Char → (rest : List String) →
    Except OptionFault (List Given × List String)
  | [], rest => .ok ([], rest)
  | c :: letters, rest =>
    let name := String.ofList ['-', c]
    match specs.find? (·.hasName name) with
    | none => .error (.unknown name [])
    | some o =>
      if o.takesValue then do
        let attached := if letters.isEmpty then none else some (String.ofList letters)
        let (given, rest) ← takeValue name o attached rest
        return ([given], rest)
      else do
        let (more, rest) ← readShort specs letters rest
        return (⟨o, ""⟩ :: more, rest)

def longNames (specs : List OptionSpec) : List String :=
  (specs.flatMap (·.names)).filter (!isShortName ·)

/-- Reads a word that begins with a dash. It is taken for a long option first. -/
def readOption (specs : List OptionSpec) (word : String) (rest : List String) :
    Except OptionFault (List Given × List String) :=
  let (name, value) := Text.partitionAt '=' word.toList
  let attached := if word.toList.contains '=' then some (String.ofList value) else none
  let name := String.ofList name
  match specs.find? (fun o => !isShortName name && o.hasName name) with
  | some o =>
    if o.takesValue then do
      let (given, rest) ← takeValue name o attached rest
      return ([given], rest)
    else if attached.isSome then .error (.takesNoValue name)
    else .ok ([⟨o, ""⟩], rest)
  | none =>
    match word.toList with
    | '-' :: '-' :: _ => .error (.unknown name (Text.closeWords name (longNames specs)))
    | letters => readShort specs (letters.drop 1) rest

def isOptionWord (word : String) : Bool :=
  match word.toList with
  | '-' :: _ :: _ => true
  | _ => false

/-- Reads words; `fuel` bounds how many. Without `mixed` the first argument ends the options. -/
def readWords (specs : List OptionSpec) (mixed : Bool) :
    (fuel : Nat) → List String → Except OptionFault CommandLine
  | 0, words => .ok ⟨[], words⟩
  | _ + 1, [] => .ok ⟨[], []⟩
  | fuel + 1, word :: rest =>
    if word = "--" then .ok ⟨[], rest⟩
    else if isOptionWord word then do
      let (given, rest) ← readOption specs word rest
      let line ← readWords specs mixed fuel rest
      return { line with given := given ++ line.given }
    else if mixed then do
      let line ← readWords specs mixed fuel rest
      return { line with arguments := word :: line.arguments }
    else .ok ⟨[], word :: rest⟩

namespace CommandLine

def read (specs : List OptionSpec) (mixed : Bool) (words : List String) :
    Except OptionFault CommandLine :=
  readWords specs mixed words.length words

def has (l : CommandLine) (o : OptionSpec) : Bool := l.given.any (·.option = o)

/-- The value of an option; of several the last one. -/
def value? (l : CommandLine) (o : OptionSpec) : Option String :=
  ((l.given.filter (·.option = o)).getLast?).map (·.value)

end CommandLine

end SecretSweep.Console
