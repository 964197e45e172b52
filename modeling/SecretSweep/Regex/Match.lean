import SecretSweep.Regex.Expr

/-!
Backtracking search. An expression is tried at a place in the text together with what has to follow
it; the first way in which both succeed is the answer. Ways are tried in the order that the
expression states: choices from left to right, repetitions by their greed.
-/

namespace SecretSweep.Regex

/-- A place between two characters, the characters before it nearest first, with the texts of the
groups matched so far. -/
structure Place where
  before : List Char
  rest : List Char
  groups : List (Nat × List Char)
  deriving Repr, DecidableEq

abbrev Continuation := Place → Option Place

namespace Place

/-- Past one character, which has to be in the set. -/
def step? (set : CharSet) (p : Place) : Option Place :=
  match p.rest with
  | [] => none
  | c :: rest => if set.has c then some { p with before := c :: p.before, rest } else none

/-- All places reached by up to `limit` characters of the set, nearest first. -/
def run (set : CharSet) : (limit : Nat) → Place → List Place
  | 0, p => [p]
  | limit + 1, p => p :: match p.step? set with
    | some q => q.run set limit
    | none => []

def back? : Nat → Place → Option Place
  | 0, p => some p
  | n + 1, p => match p.before with
    | [] => none
    | c :: before => back? n { p with before, rest := c :: p.rest }

def upTo (p q : Place) : List Char := p.rest.take (p.rest.length - q.rest.length)

def setGroup (index : Nat) (text : List Char) (p : Place) : Place :=
  { p with groups := (index, text) :: p.groups }

/-- Past a text that agrees with the given one. -/
def past? (folding : Folding) : List Char → Place → Option Place
  | [], p => some p
  | c :: more, p => match p.rest with
    | [] => none
    | d :: rest =>
      if folding.agree c d then past? folding more { p with before := d :: p.before, rest } else none

end Place

def atWordEdge (ascii : Bool) (p : Place) : Bool :=
  (p.before.head?.any (Category.word.has ascii)) != (p.rest.head?.any (Category.word.has ascii))

/-- In an empty text no place is an edge of a word, and none is not. -/
def Anchor.holds (p : Place) : Anchor → Bool
  | .textStart => p.before.isEmpty
  | .lineStart => p.before.isEmpty || p.before.head? == some '\n'
  | .textEnd => p.rest.isEmpty
  | .lineEnd => p.rest.isEmpty || p.rest.head? == some '\n'
  | .lastLineEnd => p.rest.isEmpty || p.rest == ['\n']
  | .wordEdge ascii => atWordEdge ascii p
  | .notWordEdge ascii => !(p.before.isEmpty && p.rest.isEmpty) && !atWordEdge ascii p

def times (body : Continuation → Continuation) : Nat → Continuation → Continuation
  | 0, k => k
  | n + 1, k => body (times body n k)

/-- A body that may match up to `left` more times. A round that consumed nothing is the last one;
`last` is the number of characters left before the previous round. The fuel is one more than the
number of rounds that can consume something. -/
def atMost (reluctant : Bool) (body : Continuation → Continuation) (k : Continuation) :
    (fuel : Nat) → (left last : Option Nat) → Continuation
  | 0, _, _, p => k p
  | fuel + 1, left, last, p =>
    if left = some 0 ∨ last = some p.rest.length then k p
    else
      let more (q : Place) : Option Place :=
        body (atMost reluctant body k fuel (left.map (· - 1)) (some q.rest.length)) q
      if reluctant then k p <|> more p else more p <|> k p

/-- Exactly `n` rounds, none of which is tried again another way. -/
def roundsExactly (round : Continuation) : Nat → Continuation
  | 0, p => some p
  | n + 1, p => (round p).bind (roundsExactly round n)

/-- As many rounds as there can be, none of which is tried again another way. -/
def roundsAtMost (round : Continuation) :
    (fuel : Nat) → (left last : Option Nat) → Place → Place
  | 0, _, _, p => p
  | fuel + 1, left, last, p =>
    if left = some 0 ∨ last = some p.rest.length then p
    else match round p with
      | none => p
      | some q => roundsAtMost round fuel (left.map (· - 1)) (some p.rest.length) q

def repeatBody (body : Continuation → Continuation) (min : Nat) (max : Option Nat) (greed : Greed)
    (k : Continuation) : Continuation :=
  let left := max.map (· - min)
  match greed with
  | .possessive => fun p =>
    match roundsExactly (body some) min p with
    | none => none
    | some q => k (roundsAtMost (body some) (q.rest.length + 2) left none q)
  | greed =>
    times body min fun p =>
      atMost (greed == .reluctant) body k (p.rest.length + 2) left none p

def repeatOne (set : CharSet) (min : Nat) (max : Option Nat) (greed : Greed) (k : Continuation)
    (p : Place) : Option Place :=
  let limit := match max with
    | some m => Nat.min m p.rest.length
    | none => p.rest.length
  let places := (p.run set limit).drop min
  match greed with
  | .greedy => places.reverse.findSome? k
  | .reluctant => places.findSome? k
  | .possessive => places.getLast?.bind k

/-- Tries the expression at a place, followed by `k`. -/
def Expr.tryAt : Expr → Continuation → Continuation
  | .empty, k, p => k p
  | .one set, k, p => (p.step? set).bind k
  | .many set min max greed, k, p => repeatOne set min max greed k p
  | .seq a b, k, p => a.tryAt (fun q => b.tryAt k q) p
  | .alt a b, k, p => a.tryAt k p <|> b.tryAt k p
  | .group n e, k, p => e.tryAt (fun q => k (q.setGroup n (p.upTo q))) p
  | .again n folding, k, p =>
    match p.groups.lookup n with
    | none => none
    | some text => (p.past? folding text).bind k
  | .repeated e min max greed, k, p => repeatBody (fun k q => e.tryAt k q) min max greed k p
  | .atomic e, k, p => (e.tryAt some p).bind k
  | .anchor a, k, p => if a.holds p then k p else none
  | .ahead negated e, k, p =>
    match e.tryAt some p, negated with
    | some q, false => k { p with groups := q.groups }
    | none, true => k p
    | _, _ => none
  | .behind width negated e, k, p =>
    match (p.back? width).bind (e.tryAt some), negated with
    | some q, false => k { p with groups := q.groups }
    | none, true => k p
    | _, _ => none
  | .ifGroup n yes no, k, p => if (p.groups.lookup n).isSome then yes.tryAt k p else no.tryAt k p

def Expr.searchFrom (e : Expr) (before : List Char) : List Char → Option (List Char)
  | [] => (e.tryAt some ⟨before, [], []⟩).map fun _ => []
  | c :: rest =>
    match e.tryAt some ⟨before, c :: rest, []⟩ with
    | some q => some ((c :: rest).take ((c :: rest).length - q.rest.length))
    | none => e.searchFrom (c :: before) rest

def Expr.search (e : Expr) (text : String) : Option String :=
  (e.searchFrom [] text.toList).map String.ofList

end SecretSweep.Regex
