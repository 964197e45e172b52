import SecretSweep.Regex.SetReader

/-!
Reading a regular expression. The groups that are still open stand on a stack of frames; each step
takes at least one token, so the number of tokens bounds the number of steps.
-/

namespace SecretSweep.Regex

inductive ItemKind where
  | anchor
  | repetition
  | other
  deriving DecidableEq, Repr

structure Item where
  expr : Expr
  kind : ItemKind
  start : Nat
  deriving Repr

inductive FrameKind where
  | whole
  | capture (index : Nat)
  | plain
  | atomic
  | ahead (negated : Bool)
  /-- Holds the bound on references that was in force outside. -/
  | behind (negated : Bool) (bound : Option Nat)
  | conditional (index : Nat)
  deriving Repr

/-- A group that is still open: its branches and the items of the current one, latest first. -/
structure Frame where
  kind : FrameKind
  start : Nat
  flags : Flags
  branches : List Expr
  items : List Item
  deriving Repr

structure Reader where
  input : Input
  frame : Frame
  outer : List Frame
  globalFlags : Flags
  groupCount : Nat
  widths : List (Nat × Width)
  names : List (List Char × Nat)
  /-- Inside a look-behind, groups from this one on may not be referred to. -/
  bound : Option Nat
  /-- Groups that a condition mentions, and where. -/
  mentioned : List (Nat × Nat)
  /-- Faults that show only once the whole text has been read. -/
  late : List (Nat × Cause)
  repetitions : List (Nat × String)

namespace Reader

def flags (r : Reader) : Flags := r.frame.flags

def position (r : Reader) : Nat := r.input.position

def push (r : Reader) (item : Item) : Reader :=
  { r with frame := { r.frame with items := item :: r.frame.items } }

def add (r : Reader) (start : Nat) (expr : Expr) : Reader := r.push ⟨expr, .other, start⟩

def addCode (r : Reader) (start n : Nat) : Reader :=
  r.add start (.one (.ofCode r.flags.folding n))

def branch (f : Frame) : Expr := .ofList (f.items.reverse.map Item.expr)

def endBranch (r : Reader) : Reader :=
  { r with frame := { r.frame with branches := branch r.frame :: r.frame.branches, items := [] } }

def openFrame (r : Reader) (kind : FrameKind) (start : Nat) (flags : Flags) : Reader :=
  { r with frame := ⟨kind, start, flags, [], []⟩, outer := r.frame :: r.outer }

def isClosed (r : Reader) (index : Nat) : Bool := (r.widths.lookup index).isSome

/-- A look-behind can refer only to closed groups from before it. -/
def checkBound (r : Reader) (index : Nat) : Read Unit :=
  match r.bound with
  | none => .ok ()
  | some bound =>
    if !r.isClosed index then faultAt .openGroup r.position
    else if bound ≤ index then faultAt .groupInSameLookBehind r.position
    else .ok ()

def addReference (r : Reader) (start index : Nat) : Read Reader := do
  r.checkBound index
  return r.add start (.again index r.flags.folding)

def readEscape (r : Reader) (start : Nat) (c : Char) : Read Reader := do
  let (e, input) ← exprEscape c r.input
  let r := { r with input }
  match e with
  | .code n => return r.addCode start n
  | .category kind negated =>
    return r.add start (.one ⟨false, r.flags.folding, [.category kind r.flags.ascii negated]⟩)
  | .anchor make => return r.push ⟨.anchor (make r.flags.ascii), .anchor, start⟩
  | .reference index =>
    if r.groupCount ≤ index then faultAt (.unknownGroup index) (start + 1)
    else if !r.isClosed index then faultAt .openGroup start
    else r.addReference start index

/-- Repetitions count to less than this. -/
def maxRepeat : Nat := 4294967295

def repeatCount (digits : List Char) : Read Nat :=
  if Text.maxDecimalDigits < digits.length then .error ⟨.numeralTooLong digits.length, none⟩
  else
    let n := valueOf 10 digits
    if maxRepeat ≤ n then .error ⟨.repetitionTooLarge, none⟩ else .ok n

/-- The bounds in braces, the opening one at `start` having been taken; `none` if the braces hold
something else, so that the opening one stands for itself. -/
def braceBounds (start : Nat) (i : Input) : Read (Option (Nat × Option Nat × Input)) := do
  if i.peek? = some (.char '\x7d') then return none
  let fuel := i.tokens.length
  let (low, rest) ← i.takeWhile Char.isDigit fuel
  let (high, rest) ← match ← rest.accept ',' with
    | some rest => rest.takeWhile Char.isDigit fuel
    | none => pure (low, rest)
  match ← rest.accept '\x7d' with
  | none => return none
  | some rest =>
    let min ← if low.isEmpty then pure 0 else repeatCount low
    if high.isEmpty then return some (min, none, rest)
    let max ← repeatCount high
    if max < min then faultAt .minAboveMax (start + 1)
    return some (min, some max, rest)

def repeatLast (r : Reader) (start min : Nat) (max : Option Nat) : Read Reader := do
  match r.frame.items with
  | [] => faultAt .nothingToRepeat start
  | item :: items =>
    match item.kind with
    | .anchor => faultAt .nothingToRepeat start
    | .repetition => faultAt .multipleRepeat start
    | .other =>
      let (greed, name, input) ← match ← r.input.accept '?' with
        | some i => pure (Greed.reluctant, "MIN_REPEAT", i)
        | none => match ← r.input.accept '+' with
          | some i => pure (Greed.possessive, "POSSESSIVE_REPEAT", i)
          | none => pure (Greed.greedy, "MAX_REPEAT", r.input)
      let expr := match item.expr with
        | .one set => Expr.many set min max greed
        | body => .repeated body min max greed
      return { r with
        input
        frame := { r.frame with items := ⟨expr, .repetition, item.start⟩ :: items }
        repetitions := (item.start, name) :: r.repetitions }

def readRepeat (r : Reader) (start : Nat) (c : Char) : Read Reader :=
  match c with
  | '?' => r.repeatLast start 0 (some 1)
  | '*' => r.repeatLast start 0 none
  | '+' => r.repeatLast start 1 none
  | _ => do
    match ← braceBounds start r.input with
    | none => return r.addCode start '\x7b'.toNat
    | some (min, max, input) => repeatLast { r with input } start min max

def isGroupName (name : List Char) : Bool := Text.isIdentifier name

def openCapture (r : Reader) (start : Nat) (name : Option (List Char)) : Read Reader := do
  let index := r.groupCount
  if let some name := name then
    if let some first := r.names.lookup name then
      faultAt (.redefinedGroup name index first) (r.position - (name.length + 1))
  let names := match name with | some name => (name, index) :: r.names | none => r.names
  return { r with groupCount := index + 1, names }.openFrame (.capture index) start r.flags

def readName (r : Reader) (stop : Char) : Read (List Char × Reader) := do
  let (name, input) ← r.input.takeUntil stop "group name"
  return (name, { r with input })

def readNamed (r : Reader) (start : Nat) : Read Reader := do
  if let some input ← r.input.accept '<' then
    let (name, r) ← { r with input }.readName '>'
    if !isGroupName name then
      faultAt (.badGroupName name) (r.position - (name.length + 1))
    return ← r.openCapture start (some name)
  if let some input ← r.input.accept '=' then
    let (name, r) ← { r with input }.readName ')'
    let place := r.position - (name.length + 1)
    if !isGroupName name then faultAt (.badGroupName name) place
    match r.names.lookup name with
    | none => faultAt (.unknownGroupName name) place
    | some index =>
      if !r.isClosed index then faultAt .openGroup place
      return ← r.addReference start index
  let (t, input) ← r.input.take
  match t with
  | none => faultAt .unexpectedEnd input.position
  | some t =>
    faultAt (.unknownExtension ('?' :: 'P' :: t.text)) (input.position - (t.size + 2))

/-- Groups are numbered below this. -/
def maxGroups : Nat := 1073741823

/-- A group that is matched one way or another according to whether a group has matched. -/
def readConditional (r : Reader) (start : Nat) : Read Reader := do
  let (name, r) ← r.readName ')'
  let place := r.position - (name.length + 1)
  let (index, r) ←
    if isGroupName name then
      match r.names.lookup name with
      | none => faultAt (.unknownGroupName name) place
      | some index => pure (index, r)
    else
      match Text.readInteger 10 name with
      | .ok (.ofNat index) =>
        if index = 0 then faultAt .badGroupNumber place
        else if maxGroups ≤ index then faultAt (.unknownGroup index) place
        else
          let known := (r.mentioned.lookup index).isSome
          let mentioned := if known then r.mentioned else r.mentioned ++ [(index, place)]
          pure (index, { r with mentioned })
      | _ => faultAt (.badGroupName name) place
  r.checkBound index
  return r.openFrame (.conditional index) start r.flags

def skipComment (start : Nat) : (fuel : Nat) → Input → Read Input
  | 0, _ => faultAt .unterminatedComment start
  | fuel + 1, i => do
    let (t, rest) ← i.take
    match t with
    | none => faultAt .unterminatedComment start
    | some t => if t = .char ')' then return rest else skipComment start fuel rest

def readBehind (r : Reader) (start : Nat) : Read Reader := do
  let (t, input) ← r.input.take
  let opened (negated : Bool) : Reader :=
    { r with input, bound := some (r.bound.getD r.groupCount) }.openFrame (.behind negated r.bound)
      start r.flags
  match t with
  | none => faultAt .unexpectedEnd input.position
  | some (.char '=') => return opened false
  | some (.char '!') => return opened true
  | some t => faultAt (.unknownExtension ('?' :: '<' :: t.text)) (input.position - (t.size + 2))

def readFlagGroup (r : Reader) (start : Nat) (c : Char) : Read Reader := do
  let (group, input) ← readFlags c r.input
  let r := { r with input }
  match group with
  | .scoped on off => return r.openFrame .plain start (r.flags.within on off)
  | .whole on =>
    if !(r.outer.isEmpty && r.frame.branches.isEmpty && r.frame.items.isEmpty) then
      faultAt .flagsNotAtStart start
    let globalFlags := on.foldl (·.set true) r.globalFlags
    return { r with globalFlags, frame := { r.frame with flags := globalFlags } }

/-- A group whose opening parenthesis, at `start`, has been taken. -/
def readGroup (r : Reader) (start : Nat) : Read Reader := do
  match ← r.input.accept '?' with
  | none => r.openCapture start none
  | some input =>
    let (t, input) ← input.take
    let r := { r with input }
    match t with
    | none => faultAt .unexpectedEnd input.position
    | some (.char 'P') => r.readNamed start
    | some (.char ':') => return r.openFrame .plain start r.flags
    | some (.char '#') => return { r with input := ← skipComment start (input.tokens.length + 1) input }
    | some (.char '=') => return r.openFrame (.ahead false) start r.flags
    | some (.char '!') => return r.openFrame (.ahead true) start r.flags
    | some (.char '<') => r.readBehind start
    | some (.char '(') => r.readConditional start
    | some (.char '>') => return r.openFrame .atomic start r.flags
    | some t =>
      match t with
      | .char c =>
        if Flags.letters.contains c || c == '-' then r.readFlagGroup start c
        else faultAt (.unknownExtension ['?', c]) (r.position - 2)
      | t => faultAt (.unknownExtension ('?' :: t.text)) (r.position - (t.size + 1))

/-- A look-behind looks back by one number of characters, which has to be fixed. -/
def lookBehindFault? (w : Width) : Option Cause :=
  if 4294967295 < w.min then some .looksTooFarBehind
  else if w.max ≠ some w.min then some .unboundedLookBehind
  else none

/-- Closes the innermost group, whose closing parenthesis has been taken. -/
def closeGroup (r : Reader) (frame : Frame) (outer : Frame) (rest : List Frame) : Reader :=
  let branches := (branch frame :: frame.branches).reverse
  let body := Expr.anyOf branches
  let r := { r with frame := outer, outer := rest }
  match frame.kind with
  | .whole | .plain => r.add frame.start body
  | .capture index =>
    { r with widths := (index, body.width r.widths) :: r.widths }.add frame.start (.group index body)
  | .atomic => r.add frame.start (.atomic body)
  | .ahead negated => r.add frame.start (.ahead negated body)
  | .behind negated bound =>
    let width := body.width r.widths
    let late := match lookBehindFault? width with
      | some cause => (frame.start, cause) :: r.late
      | none => r.late
    { r with late, bound }.add frame.start (.behind width.min negated body)
  | .conditional index =>
    let no := match branches with | _ :: no :: _ => no | _ => .empty
    r.add frame.start (.ifGroup index (branches.headD .empty) no)

def skipLine : (fuel : Nat) → Input → Read Input
  | 0, i => .ok i
  | fuel + 1, i => do
    let (t, rest) ← i.take
    match t with
    | none => return rest
    | some t => if t = .char '\n' then return rest else skipLine fuel rest

def isVerboseBlank (c : Char) : Bool := c == ' ' || (9 ≤ c.toNat && c.toNat ≤ 13)

def lineAnchor (flags : Flags) (c : Char) : Anchor :=
  if c = '^' then if flags.multiline then .lineStart else .textStart
  else if flags.multiline then .lineEnd else .lastLineEnd

/-- One character that is no bar and no closing parenthesis; it has been taken, at `start`. -/
def readChar (r : Reader) (start : Nat) (c : Char) : Read Reader := do
  if r.flags.verbose && isVerboseBlank c then return r
  if r.flags.verbose && c == '#' then
    return { r with input := ← skipLine (r.input.tokens.length + 1) r.input }
  match c with
  | '[' =>
    let (set, input) ← readSet r.flags start r.input
    return { r with input }.add start (.one set)
  | '*' | '+' | '?' | '\x7b' => r.readRepeat start c
  | '.' => return r.add start (.one (if r.flags.dotAll then .all else .dot))
  | '(' => r.readGroup start
  | '^' | '$' => return r.push ⟨.anchor (lineAnchor r.flags c), .anchor, start⟩
  | c => return r.addCode start c.toNat

def readBar (r : Reader) : Read Reader := do
  let inCondition := match r.frame.kind with | .conditional _ => true | _ => false
  if inCondition && !r.frame.branches.isEmpty then faultAt .tooManyBranches r.position
  let r := { r with input := ← r.input.advance }.endBranch
  if r.outer.isEmpty then
    return { r with frame := { r.frame with
      flags := { r.frame.flags with verbose := r.globalFlags.verbose } } }
  return r

/-- Reads until the text ends or a parenthesis closes no group. -/
def readAll : (fuel : Nat) → Reader → Read Reader
  | 0, r => .ok r
  | fuel + 1, r => do
    match r.input.peek?, r.outer with
    | none, [] => return r
    | none, _ => faultAt .unterminatedGroup r.frame.start
    | some (.char ')'), [] => return r
    | some (.char ')'), outer :: rest =>
      let input ← r.input.advance
      readAll fuel ({ r with input }.closeGroup r.frame outer rest)
    | some (.char '|'), _ => readAll fuel (← r.readBar)
    | some t, _ =>
      let start := r.position
      let r := { r with input := ← r.input.advance }
      match t with
      | .char c => readAll fuel (← r.readChar start c)
      | .pair c => readAll fuel (← r.readEscape start c)
      | .loneBackslash => readAll fuel r

/-- The first of some faults by its place; of two in one place the first in the list. -/
def firstByPlace : List (Nat × Cause) → Option Cause
  | [] => none
  | f :: rest => some (rest.foldl (fun best g => if g.1 < best.1 then g else best) f).2

def finish (r : Reader) : Read Expr := do
  if r.globalFlags.ascii && r.globalFlags.unicode then .error ⟨.asciiAndUnicode, none⟩
  if r.input.peek?.isSome then faultAt .unbalancedParenthesis r.position
  if let some (index, place) := r.mentioned.find? fun m => r.groupCount ≤ m.1 then
    faultAt (.unknownGroup index) place
  let templates := if r.globalFlags.template then
      r.repetitions.reverse.map fun (start, name) => (start, Cause.templateRepeat name)
    else []
  if let some cause := firstByPlace (templates ++ r.late.reverse) then .error ⟨cause, none⟩
  return .anyOf (branch r.frame :: r.frame.branches).reverse

def init (flags : Flags) (input : Input) : Reader :=
  { input, frame := ⟨.whole, 0, flags, [], []⟩, outer := [], globalFlags := flags, groupCount := 1,
    widths := [], names := [], bound := none, mentioned := [], late := [], repetitions := [] }

end Reader

def Expr.read (flags : Flags) (source : String) : Except Fault Expr := do
  let input ← Input.ofSource source.toList
  let r ← Reader.readAll (input.tokens.length + 1) (Reader.init flags input)
  r.finish

end SecretSweep.Regex
