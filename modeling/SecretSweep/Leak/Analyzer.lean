import SecretSweep.Leak.Basic
import SecretSweep.Rule.Builtin

/-!
Analysis of a diff: rules are matched against its lines, and what a filter suppresses is left out.
-/

namespace SecretSweep

structure Analyzer where
  rules : List Rule
  filters : List Rule
  deriving Repr

/-- What a rule found: the text, and how many lines below the first one. -/
structure Finding where
  rule : Rule
  text : String
  offset : Nat
  deriving Repr

namespace Analyzer

/-- The analyzer of explicit lists. Without rules, and without a list of filters, the built-in ones
stand in. -/
def ofLists (rules : List Rule) (filters : Option (List Rule)) : Analyzer :=
  { rules := if rules.isEmpty then Rule.builtinRules else rules
    filters := filters.getD Rule.builtinFilters }

def builtin : Analyzer := ofLists [] none

/-- Configured rules replace the built-in ones; configured filters are added to them. -/
def ofConfigured (rules filters : List Rule) : Analyzer :=
  ofLists rules (some (Rule.builtinFilters ++ filters))

def ofSpecs (rules filters : List RuleSpec) : Except RuleFault Analyzer := do
  let rules ← RuleSpec.compileAll rules
  return ofConfigured rules (← RuleSpec.compileAll filters)

def maxLeakLength : Nat := 512

def suppresses (filters : List Rule) (path line : String) : Bool :=
  filters.any fun f => f.appliesTo path && f.covers line

def linesOf (content : String) : List String :=
  (Text.splitLines content.toList).map String.ofList

/-- What one rule finds in the lines of a file. A rule for paths alone finds the first line,
whatever it holds. -/
def findingsOf (filters : List Rule) (path : String) (lines : List String) (r : Rule) :
    List Finding :=
  match r.content with
  | none =>
    let first := lines.headD ""
    if suppresses filters path first then [] else [⟨r, first, 0⟩]
  | some pattern =>
    lines.zipIdx.filterMap fun (line, offset) =>
      match pattern.find? line with
      | none => none
      | some text => if suppresses filters path line then none else some ⟨r, text, offset⟩

def applicable (a : Analyzer) (path : String) : List Rule := a.rules.filter (·.appliesTo path)

def findings (a : Analyzer) (path content : String) : List Finding :=
  (a.applicable path).flatMap (findingsOf a.filters path (linesOf content))

/-- The line of a finding; where the first line is unknown, so are all others. -/
def lineOf (lineBegin : Int) (offset : Nat) : Int := if lineBegin = 0 then 0 else lineBegin + offset

def leakOf (d : Diff) (f : Finding) (id : String) : Leak :=
  { patternName := f.rule.name
    regexp := f.rule.regexp
    filePath := d.filePath
    repoPath := d.repoPath
    repoUrl := d.repoUrl
    leakString := String.ofList (f.text.toList.take maxLeakLength)
    commitHash := d.commitHash
    commitAuthor := d.author
    commitEmail := d.authorEmail
    timestamp := d.timestamp
    line := lineOf d.lineBegin f.offset
    id }

/-- The leaks of a diff, numbered from `next`. -/
def analyze (a : Analyzer) (next : Nat) (d : Diff) : List Leak :=
  (a.findings d.filePath d.content).mapIdx fun i f => leakOf d f (idText (next + i))

/-- How many searches a diff takes at most: each rule is matched against its lines, or is for paths
alone. -/
def searches (a : Analyzer) (d : Diff) : Nat :=
  (a.applicable d.filePath).length * ((linesOf d.content).length + 1)

def searchesOfAll (a : Analyzer) : List Diff → Nat
  | [] => 0
  | d :: rest => a.searches d + a.searchesOfAll rest

def analyzeAll (a : Analyzer) : (next : Nat) → List Diff → List (List Leak)
  | _, [] => []
  | next, d :: rest =>
    let leaks := a.analyze next d
    leaks :: a.analyzeAll (next + leaks.length) rest

end Analyzer

end SecretSweep
