import SecretSweep.Failure
import SecretSweep.Regex.Match
import SecretSweep.Regex.Reader

/-!
Detection rules: a name with a regular expression for paths and one for lines, either of which may
be absent.
-/

namespace SecretSweep

/-- A regular expression with the text it was read from. -/
structure Pattern where
  source : String
  expr : Regex.Expr
  deriving Repr

namespace Pattern

def find? (p : Pattern) (s : String) : Option String := p.expr.search s

def occursIn (p : Pattern) (s : String) : Bool := (p.find? s).isSome

end Pattern

structure Rule where
  name : String
  file : Option Pattern
  content : Option Pattern
  deriving Repr

namespace Rule

/-- An absent expression for paths applies to every path. -/
def appliesTo (r : Rule) (path : String) : Bool := r.file.all (·.occursIn path)

/-- The text that the rule finds in a line; nothing if it has no expression for lines. -/
def findIn (r : Rule) (line : String) : Option String := r.content.bind (·.find? line)

/-- An absent expression for lines covers every line. -/
def covers (r : Rule) (line : String) : Bool := r.content.all (·.occursIn line)

/-- The text of the expression that counts: the one for lines if there is one. -/
def regexp (r : Rule) : String :=
  match r.content, r.file with
  | some p, _ => p.source
  | none, some p => p.source
  | none, none => ""

end Rule

/-- A rule as it is configured; an empty text stands for an absent expression. -/
structure RuleSpec where
  name : String
  file : String
  content : String
  deriving DecidableEq, Repr

structure RuleFault where
  name : String
  source : String
  fault : Regex.Fault
  deriving Repr

namespace RuleFault

def toFailure (f : RuleFault) : Failure :=
  let text := f.fault.message f.source.toList
  match f.fault.cause.kind with
  | .expression => ⟨.configuration, "Invalid regex in pattern '" ++ f.name ++ "': " ++ text⟩
  | .overflow => ⟨.overflow, text⟩
  | .value => ⟨.value, text⟩

end RuleFault

namespace RuleSpec

def compilePattern (name source : String) : Except RuleFault (Option Pattern) :=
  if source.isEmpty then .ok none
  else match Regex.Expr.read .none source with
    | .ok expr => .ok (some ⟨source, expr⟩)
    | .error fault => .error ⟨name, source, fault⟩

/-- The rule of a specification; the expression for paths is read first. -/
def compile (s : RuleSpec) : Except RuleFault Rule := do
  let file ← compilePattern s.name s.file
  let content ← compilePattern s.name s.content
  return ⟨s.name, file, content⟩

def compileAll (specs : List RuleSpec) : Except RuleFault (List Rule) := specs.mapM compile

end RuleSpec

end SecretSweep
