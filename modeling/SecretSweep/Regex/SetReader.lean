import SecretSweep.Regex.Escape
import SecretSweep.Regex.Flags

/-!
Reading a set of characters between square brackets.
-/

namespace SecretSweep.Regex

def SetItem.ofEscape (ascii : Bool) : Escape → SetItem
  | .code n => .range n n
  | .category kind negated => .category kind ascii negated
  | _ => .range 0 0

/-- One member of a set, the token `t` of which has been taken. -/
def setMember (t : Token) (i : Input) : Read (Escape × Input) :=
  match t with
  | .char c => .ok (.code c.toNat, i)
  | .pair c => setEscape c i
  | .loneBackslash => .ok (.code '\\'.toNat, i)

/-- The second end of a range, after a minus; `none` if the minus stands for itself because the set
ends after it. -/
def rangeEnd (start : Nat) (first : Token) (low : Escape) (i : Input) :
    Read (Option (Nat × Nat) × Input) := do
  let (t, rest) ← i.take
  match t with
  | none => faultAt .unterminatedSet start
  | some (.char ']') => return (none, rest)
  | some t =>
    let (high, rest) ← setMember t rest
    let bad : Read (Option (Nat × Nat) × Input) :=
      faultAt (.badRange first.text t.text) (rest.position - (first.size + 1 + t.size))
    match low, high with
    | .code a, .code b => if b < a then bad else return (some (a, b), rest)
    | _, _ => bad

/-- The items up to the closing bracket. A closing bracket that comes first stands for itself. -/
def setItems (ascii : Bool) (start : Nat) :
    (fuel : Nat) → (items : List SetItem) → Input → Read (List SetItem × Input)
  | 0, _, _ => faultAt .unterminatedSet start
  | fuel + 1, items, i => do
    let (t, rest) ← i.take
    match t with
    | none => faultAt .unterminatedSet start
    | some t =>
      if t = .char ']' ∧ !items.isEmpty then return (items, rest)
      let (low, rest) ← setMember t rest
      let item := SetItem.ofEscape ascii low
      match ← rest.accept '-' with
      | none => setItems ascii start fuel (items ++ [item]) rest
      | some rest =>
        match ← rangeEnd start t low rest with
        | (none, rest) => return (items ++ [item, .range 45 45], rest)
        | (some (a, b), rest) => setItems ascii start fuel (items ++ [.range a b]) rest

/-- A set whose opening bracket, at `start`, has been taken. -/
def readSet (flags : Flags) (start : Nat) (i : Input) : Read (CharSet × Input) := do
  let negated ← i.accept '^'
  let i := negated.getD i
  let (items, rest) ← setItems flags.ascii start (i.tokens.length + 1) [] i
  return (⟨negated.isSome, flags.folding, items⟩, rest)

end SecretSweep.Regex
