import SecretSweep.Delivery.Router
import SecretSweep.Leak.Analyzer

/-!
The pipeline from diffs to deliveries. The scanner puts diffs on one queue, the analyzer takes them
off and puts leaks on another, and the router takes these off; both queues are bounded, and the
three take their steps in any order. When it has no more diffs the scanner waits for the queues, one
after the other: a queue counts what has been put on it, and counts down when a task has been done.
-/

namespace SecretSweep

inductive Actor where
  | scanner
  | analyzer
  | router
  deriving DecidableEq, Repr

/-- A queue that is waited for until all that was put on it has been done. -/
inductive Join where
  | diffs
  | leaks
  deriving DecidableEq, Repr

structure Pipeline (σ : Type) where
  capacity : Nat
  analyzer : Analyzer
  /-- The diffs that are still to be queued. -/
  source : List Diff
  /-- The queues that are waited for after that. -/
  joins : List Join
  diffs : List Diff
  /-- How many diffs have been queued and have not been done since. -/
  unfinished : Nat
  /-- The leaks that are not queued yet, of the diff in work. -/
  held : Option (List Leak)
  nextLeakId : Nat
  router : Router σ

namespace Pipeline

variable {σ : Type}

def init (capacity : Nat) (analyzer : Analyzer) (source : List Diff) (joins : List Join)
    (nextLeakId : Nat) (router : Router σ) : Pipeline σ :=
  { capacity, analyzer, source, joins, diffs := [], unfinished := 0, held := none, nextLeakId,
    router }

/-- The tasks of a queue that have not been done. -/
def tasks (p : Pipeline σ) : Join → Nat
  | .diffs => p.unfinished
  | .leaks => p.router.unfinished

/-- A step of the scanner: the next diff is queued, if there is room for it. After the last one, the
next queue has been waited for if no task of it is left. -/
def emit (p : Pipeline σ) : Pipeline σ :=
  match p.source, p.joins with
  | d :: source, _ =>
    if p.diffs.length < p.capacity then
      { p with source, diffs := p.diffs ++ [d], unfinished := p.unfinished + 1 }
    else p
  | [], join :: joins => if p.tasks join = 0 then { p with joins } else p
  | [], [] => p

/-- Takes a diff in work. -/
def take (p : Pipeline σ) (d : Diff) : Pipeline σ :=
  let leaks := p.analyzer.analyze p.nextLeakId d
  { p with held := some leaks, nextLeakId := p.nextLeakId + leaks.length }

/-- A step of the analyzer: the next leak is queued, if there is room for it. After the last one the
diff is marked as done, and then the next one is taken. -/
def examine (p : Pipeline σ) : Pipeline σ :=
  match p.held, p.diffs with
  | some (leak :: rest), _ =>
    if p.router.queue.length < p.capacity then
      { p with held := some rest, router := p.router.enqueue [leak] }
    else p
  | some [], _ => { p with held := none, unfinished := p.unfinished - 1 }
  | none, d :: diffs => { p with diffs }.take d
  | none, [] => p

def step (p : Pipeline σ) : Actor → Pipeline σ
  | .scanner => p.emit
  | .analyzer => p.examine
  | .router => { p with router := p.router.turn }

def run (p : Pipeline σ) (schedule : List Actor) : Pipeline σ := schedule.foldl step p

/-- Whether the scanner is through: all diffs are queued, and no queue is waited for. -/
def isJoined (p : Pipeline σ) : Bool := p.source.isEmpty && p.joins.isEmpty

/-- Whether the scanner is through and no diff is in work. -/
def isOver (p : Pipeline σ) : Bool := p.isJoined && p.held.isNone

/-- A step of each, and one more of the router, which takes two for a leak. -/
def round (p : Pipeline σ) : Pipeline σ := p.run [.scanner, .analyzer, .router, .router]

/-- Lets the three go on in turn until it is over; `fuel` bounds how often. -/
def rounds : (fuel : Nat) → Pipeline σ → Pipeline σ
  | 0, p => p
  | fuel + 1, p => if p.isOver then p else rounds fuel p.round

/-- How many things are left to do if so many more leaks are found. -/
def workFor (p : Pipeline σ) (leaks : Nat) : Nat :=
  3 * p.source.length + p.joins.length + 2 * p.diffs.length + 2 * leaks +
    (p.held.elim 0 fun rest => 2 * rest.length + 1) + p.router.queue.length

/-- The most leaks that are found in the diffs to come. -/
def mostLeaks (p : Pipeline σ) : Nat := p.analyzer.searchesOfAll (p.diffs ++ p.source)

/-- Goes on until it is over. -/
def finish (p : Pipeline σ) : Pipeline σ := rounds (2 * p.workFor p.mostLeaks + 1) p

end Pipeline

end SecretSweep
