/-!
How far a scan has come, in thousandths.
-/

namespace SecretSweep

/-- Thousandths of a total; all of them if there is nothing to do, and -1 while the total is not
known. -/
def permilleOf (total : Option Int) (scanned : Int) : Int :=
  match total with
  | none => -1
  | some total => if total = 0 then 1000 else Int.fdiv (min scanned total * 1000) total

structure Progress where
  /-- The number of commits to look at, once it is known. -/
  total : Option Nat
  scanned : Nat
  deriving DecidableEq, Repr

namespace Progress

def unknown : Progress := ⟨none, 0⟩

def permille (p : Progress) : Int := permilleOf (p.total.map Int.ofNat) p.scanned

theorem permille_unknown : unknown.permille = -1 := rfl

theorem permille_nothing (scanned : Nat) : (Progress.mk (some 0) scanned).permille = 1000 := rfl

end Progress

end SecretSweep
