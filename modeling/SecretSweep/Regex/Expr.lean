import SecretSweep.Regex.CharSet

/-!
Regular expressions as trees, and the least and greatest number of characters they can match.
-/

namespace SecretSweep.Regex

inductive Anchor where
  | textStart
  | lineStart
  | textEnd
  | lineEnd
  /-- At the end of the text, or before a line feed that ends it. -/
  | lastLineEnd
  | wordEdge (ascii : Bool)
  | notWordEdge (ascii : Bool)
  deriving DecidableEq, Repr

inductive Greed where
  /-- As many as possible, then fewer. -/
  | greedy
  /-- As few as possible, then more. -/
  | reluctant
  /-- As many as possible and nothing else. -/
  | possessive
  deriving DecidableEq, Repr

inductive Expr where
  | empty
  | one (set : CharSet)
  /-- A repetition of single characters. -/
  | many (set : CharSet) (min : Nat) (max : Option Nat) (greed : Greed)
  | seq (first second : Expr)
  /-- Ordered choice: the second only if the first leads nowhere. -/
  | alt (first second : Expr)
  | group (index : Nat) (body : Expr)
  /-- The text last matched by a group. -/
  | again (index : Nat) (folding : Folding)
  | repeated (body : Expr) (min : Nat) (max : Option Nat) (greed : Greed)
  /-- The first way in which the body matches, and no other. -/
  | atomic (body : Expr)
  | anchor (a : Anchor)
  | ahead (negated : Bool) (body : Expr)
  /-- Matches the body against the `width` characters before. -/
  | behind (width : Nat) (negated : Bool) (body : Expr)
  | ifGroup (index : Nat) (yes no : Expr)
  deriving Repr, DecidableEq

def Expr.ofList : List Expr → Expr
  | [] => .empty
  | [e] => e
  | e :: more => .seq e (ofList more)

def Expr.anyOf : List Expr → Expr
  | [] => .empty
  | [e] => e
  | e :: more => .alt e (anyOf more)

def Expr.literal (folding : Folding) (s : String) : Expr :=
  .ofList (s.toList.map fun c => .one (.ofCode folding c.toNat))

/-- Least and greatest number of characters; no greatest one if there is no bound. -/
structure Width where
  min : Nat
  max : Option Nat
  deriving DecidableEq, Repr

namespace Width

def zero : Width := ⟨0, some 0⟩

def add (a b : Width) : Width :=
  ⟨a.min + b.min, match a.max, b.max with | some x, some y => some (x + y) | _, _ => none⟩

def either (a b : Width) : Width :=
  ⟨Nat.min a.min b.min, match a.max, b.max with | some x, some y => some (Nat.max x y) | _, _ => none⟩

def times (a : Width) (min : Nat) (max : Option Nat) : Width :=
  ⟨a.min * min, match a.max, max with
    | some 0, _ => some 0
    | some x, some n => some (x * n)
    | none, some 0 => some 0
    | _, _ => none⟩

end Width

/-- The width of an expression whose groups, as far as it refers to them, have the given widths. -/
def Expr.width (groups : List (Nat × Width)) : Expr → Width
  | .empty | .anchor _ | .ahead _ _ | .behind _ _ _ => .zero
  | .one _ => ⟨1, some 1⟩
  | .many _ min max _ => Width.times ⟨1, some 1⟩ min max
  | .seq a b => (a.width groups).add (b.width groups)
  | .alt a b => (a.width groups).either (b.width groups)
  | .group _ e | .atomic e => e.width groups
  | .again n _ => (groups.lookup n).getD .zero
  | .repeated e min max _ => (e.width groups).times min max
  | .ifGroup _ yes no => (yes.width groups).either (no.width groups)

end SecretSweep.Regex
