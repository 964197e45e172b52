/-!
How alike two words are: twice the number of characters in common parts, over the number of all
characters. The common parts are the longest common part, of several the one that begins first in
the first word, and the common parts on either side of it.
-/

namespace SecretSweep.Text

def commonLead : List Char → List Char → Nat
  | a :: as, b :: bs => if a = b then commonLead as bs + 1 else 0
  | _, _ => 0

/-- A part that two words have in common: where it begins in each, and its length. -/
structure CommonPart where
  first : Nat
  second : Nat
  size : Nat
  deriving DecidableEq, Repr

def CommonPart.longer (p q : CommonPart) : CommonPart := if p.size < q.size then q else p

def longestCommonPart (a b : List Char) : CommonPart :=
  (List.range a.length).foldl (fun best i =>
    (List.range b.length).foldl (fun best j =>
      best.longer ⟨i, j, commonLead (a.drop i) (b.drop j)⟩) best) ⟨0, 0, 0⟩

/-- How many characters stand in common parts; `depth` bounds how often the words are cut. -/
def commonCount : (depth : Nat) → List Char → List Char → Nat
  | 0, _, _ => 0
  | depth + 1, a, b =>
    let p := longestCommonPart a b
    if p.size = 0 then 0
    else commonCount depth (a.take p.first) (b.take p.second) + p.size
      + commonCount depth (a.drop (p.first + p.size)) (b.drop (p.second + p.size))

/-- A word from which another was likely meant, and how alike they are. -/
structure Candidate where
  word : String
  common : Nat
  total : Nat
  deriving Repr

def Candidate.of (meant : String) (word : String) : Candidate :=
  let (a, b) := (word.toList, meant.toList)
  ⟨word, commonCount (a.length + 1) a b, a.length + b.length⟩

/-- Three fifths are enough to be close. -/
def Candidate.isClose (c : Candidate) : Bool := 3 * c.total ≤ 10 * c.common

/-- Whether a candidate is at least as close as another; of equally close ones the later word. -/
def Candidate.leads (c d : Candidate) : Bool :=
  let (x, y) := (c.common * d.total, d.common * c.total)
  y < x || (x == y && d.word ≤ c.word)

/-- The words that are close to a given one, at most three, in ascending order. -/
def closeWords (meant : String) (words : List String) : List String :=
  ((((words.map (Candidate.of meant)).filter (·.isClose)).mergeSort Candidate.leads).take 3
    |>.map (·.word)).mergeSort fun a b => a ≤ b

end SecretSweep.Text
