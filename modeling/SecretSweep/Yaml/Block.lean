import SecretSweep.Yaml.Cursor

/-!
Block scalars: indented lines below a `|`, where line breaks stay, or a `>`, where they fold. A
header says what becomes of the breaks at the end and, if need be, how far the lines are indented.
-/

namespace SecretSweep.Yaml.Block

/-- What becomes of the line breaks at the end of a block scalar. -/
inductive Chomping where
  | strip
  | clip
  | keep
  deriving DecidableEq, Repr

structure Header where
  chomping : Chomping
  increment : Option Nat
  deriving DecidableEq, Repr

def chomping? (c : Char) : Option Chomping :=
  if c == '+' then some .keep else if c == '-' then some .strip else none

/-- An indentation of one to nine columns. -/
def increment? (c : Char) : Except Fault (Option Nat) :=
  if c == '0' then .error .malformed
  else .ok (if c.isDigit then some (c.toNat - '0'.toNat) else none)

/-- Reads the header, whose two parts may come in either order. -/
def readHeader (c : Cursor) : Except Fault (Header × Cursor) := do
  let (header, c) ← match chomping? (c.peek 0) with
    | some chomping =>
      let c := c.advance
      let increment ← increment? (c.peek 0)
      pure (Header.mk chomping increment, if increment.isSome then c.advance else c)
    | none =>
      match ← increment? (c.peek 0) with
      | none => pure (⟨.clip, none⟩, c)
      | some n =>
        let c := c.advance
        pure (match chomping? (c.peek 0) with
          | some chomping => (⟨chomping, some n⟩, c.advance)
          | none => (⟨.clip, some n⟩, c))
  if endsToken (c.peek 0) then return (header, c) else .error .malformed

/-- The breaks of empty lines, and the greatest column that their spaces reach. -/
def leadingLines : (fuel : Nat) → Cursor → List Char × Nat × Cursor
  | 0, c => ([], 0, c)
  | fuel + 1, c =>
    let c := c.skipWhile (· == ' ')
    match c.lineBreak? with
    | none => ([], c.column, c)
    | some (b, next) =>
      let (more, column, c') := leadingLines fuel next
      (b :: more, max c.column column, c')

def indentTo (column : Nat) (c : Cursor) : Cursor :=
  c.skip ((c.rest.take (column - c.column)).takeWhile (· == ' ')).length

/-- The breaks of empty lines between lines that are indented to `column`. -/
def emptyLines (column : Nat) : (fuel : Nat) → Cursor → List Char × Cursor
  | 0, c => ([], c)
  | fuel + 1, c =>
    let c := indentTo column c
    match c.lineBreak? with
    | none => ([], c)
    | some (b, c) =>
      let (more, c) := emptyLines column fuel c
      (b :: more, c)

/-- What has been read of a block scalar: its text, the break of the last line, if it has one, and
the breaks of the empty lines below. -/
structure Lines where
  text : List Char
  lastBreak : List Char
  breaks : List Char
  next : Cursor

def lines (folded : Bool) (column : Nat) : (fuel : Nat) → (breaks : List Char) → Cursor → Lines
  | 0, breaks, c => ⟨[], [], breaks, c⟩
  | fuel + 1, breaks, c =>
    if c.column = column ∧ ¬c.rest.isEmpty then
      let indented := c.peek 0 == ' ' || c.peek 0 == '\t'
      let (text, c) := c.span (!endsLine ·)
      let (lineBreak, c) := match c.lineBreak? with
        | some (b, c) => ([b], c)
        | none => ([], c)
      let (below, c) := emptyLines column (c.rest.length + 1) c
      if c.column = column ∧ ¬c.rest.isEmpty then
        let ending :=
          if folded && lineBreak == ['\n'] && !indented && !(c.peek 0 == ' ' || c.peek 0 == '\t')
          then if below.isEmpty then [' '] else []
          else lineBreak
        let more := lines folded column fuel below c
        { more with text := breaks ++ text ++ ending ++ more.text }
      else ⟨breaks ++ text, lineBreak, below, c⟩
    else ⟨[], [], breaks, c⟩

/-- Reads a block scalar, `c` being the place of its mark and `indent` the column of the collection
around it. -/
def read (indent : Int) (c : Cursor) : Except Fault (List Char × Cursor) := do
  let folded := c.peek 0 == '>'
  let (header, c) ← readHeader c.advance
  let c ← c.endLine
  let least := (max (indent + 1) 1).toNat
  let (breaks, column, c) := match header.increment with
    | some n =>
      let column := least + n - 1
      let (breaks, c) := emptyLines column (c.rest.length + 1) c
      (breaks, column, c)
    | none =>
      let (breaks, reached, c) := leadingLines (c.rest.length + 1) c
      (breaks, max least reached, c)
  let found := lines folded column (c.rest.length + 1) breaks c
  let ending := match header.chomping with
    | .strip => []
    | .clip => found.lastBreak
    | .keep => found.lastBreak ++ found.breaks
  return (found.text ++ ending, found.next)

end SecretSweep.Yaml.Block
