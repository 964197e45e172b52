import SecretSweep.Text.Table.Case

/-!
Lower-case letters, and the characters that differ in case only.
-/

namespace SecretSweep.Text

namespace Table.CaseRun

def has (r : CaseRun) (n : Nat) : Bool :=
  r.first ≤ n && n ≤ r.last && (n - r.first) % r.stride == 0

def shifted (r : CaseRun) (n : Nat) : Nat := ((n : Int) + r.shift).toNat

end Table.CaseRun

/-- The lower-case letter of a code point; all but capital letters stay as they are. -/
def lowerCode (n : Nat) : Nat := go Table.lowerRuns
where
  go : List Table.CaseRun → Nat
    | [] => n
    | r :: rest => if n < r.first then n else if r.has n then r.shifted n else go rest

def lower (c : Char) : Char := Char.ofNat (lowerCode c.toNat)

/-- The lower-case letters that share an upper-case letter with `n`, other than `n`. -/
def kinOf (n : Nat) : List Nat := (Table.caseKin.lookup n).getD []

/-- The code points whose lower-case letter is `n`, other than `n`. -/
def capitalsOf (n : Nat) : List Nat :=
  Table.lowerRuns.filterMap fun r =>
    let capital := ((n : Int) - r.shift).toNat
    if r.has capital && r.shifted capital == n then some capital else none

/-- All code points that agree with `n` up to case. -/
def caseVariants (n : Nat) : List Nat :=
  let low := lowerCode n
  (low :: kinOf low).flatMap fun k => k :: capitalsOf k

def lowerAscii (n : Nat) : Nat := if 65 ≤ n ∧ n ≤ 90 then n + 32 else n

end SecretSweep.Text
