import SecretSweep.Leak.Analyzer

/-!
The analysis worker. Each start sets a consumer going, which takes jobs from one queue, one after
the other, and puts the leaks that it finds on another. A stop is a signal to all consumers, and
waits for the one that was started last to come to its end.
-/

namespace SecretSweep

/-- A queued diff, or one whose text was lost, so that its analysis fails. -/
inductive Job where
  | diff (d : Diff)
  | unreadable (d : Diff)
  deriving DecidableEq, Repr

/-- How many searches a job takes at most. -/
def Job.searches (a : Analyzer) : Job → Nat
  | .diff d => a.searches d
  | .unreadable _ => 0

inductive Consumer where
  /-- It is about to look for the stop signal. -/
  | looking
  /-- It has seen no stop signal and waits for a job. It looks again when it is through with one or
  has waited in vain. -/
  | waiting
  /-- It analyzes a job, with so many searches left. -/
  | busy (job : Job) (left : Nat)
  /-- It has analyzed a job and puts the leaks on the queue. -/
  | passing (leaks : List Leak)
  | ended
  deriving DecidableEq, Repr

structure Worker where
  analyzer : Analyzer
  hasInput : Bool
  hasOutput : Bool
  /-- Whether there has been a start since the last stop. -/
  isStarted : Bool
  signalled : Bool
  /-- All consumers, in the order in which they were started. -/
  consumers : List Consumer
  pending : List Job
  leaks : List Leak
  nextId : Nat
  analyzed : Nat
  found : Nat
  deriving Repr

namespace Worker

def init (analyzer : Analyzer) (hasInput hasOutput : Bool) (nextId : Nat) : Worker :=
  { analyzer, hasInput, hasOutput, isStarted := false, signalled := false, consumers := [],
    pending := [], leaks := [], nextId, analyzed := 0, found := 0 }

/-- The leaks of a job, if its analysis succeeds. Without a text it fails as soon as a rule applies
to the path. -/
def leaksOf? (a : Analyzer) (next : Nat) : Job → Option (List Leak)
  | .diff d => some (a.analyze next d)
  | .unreadable d => if (a.applicable d.filePath).isEmpty then some [] else none

/-- What a consumer does next. A job whose analysis fails is dropped. -/
def advance (w : Worker) : Consumer → Worker × Consumer
  | .looking => (w, if w.signalled then .ended else .waiting)
  | .waiting =>
    match w.pending with
    | [] => (w, .looking)
    | j :: pending => ({ w with pending }, .busy j (j.searches w.analyzer))
  | .busy j (left + 1) => (w, .busy j left)
  | .busy j 0 =>
    match leaksOf? w.analyzer w.nextId j with
    | none => (w, .looking)
    | some leaks =>
      ({ w with nextId := w.nextId + leaks.length, analyzed := w.analyzed + 1 }, .passing leaks)
  | .passing (leak :: rest) =>
    ({ w with leaks := w.leaks ++ [leak], found := w.found + 1 }, .passing rest)
  | .passing [] => (w, .looking)
  | .ended => (w, .ended)

/-- A turn of one of the consumers. -/
def turn (w : Worker) (i : Nat) : Worker :=
  match w.consumers[i]? with
  | none => w
  | some c =>
    let (w, c) := w.advance c
    { w with consumers := w.consumers.set i c }

def turns (i : Nat) : (n : Nat) → Worker → Worker
  | 0, w => w
  | n + 1, w => turns i n (w.turn i)

def put (w : Worker) (jobs : List Job) : Worker := { w with pending := w.pending ++ jobs }

def queuesMissing : Failure :=
  ⟨.state, "LeakAnalyzer needs a diff queue and a leak queue"⟩

/-- Sets one more consumer going, whether or not there are others. -/
def start (w : Worker) : Except Failure Worker :=
  if w.hasInput && w.hasOutput then
    .ok { w with
      isStarted := true, signalled := false, consumers := w.consumers ++ [.looking] }
  else .error queuesMissing

def signal (w : Worker) : Worker := { w with signalled := true }

/-- How many turns a consumer takes at most to come to its end by the stop signal. -/
def turnsToEnd (w : Worker) : Consumer → Nat
  | .ended => 0
  | .looking => 1
  | .waiting =>
    match w.pending with
    | [] => 2
    | j :: _ => 2 * j.searches w.analyzer + 4
  | .busy j left => left + j.searches w.analyzer + 3
  | .passing leaks => leaks.length + 2

/-- Gives the stop signal, and lets the consumer that was started last come to its end. -/
def stop (w : Worker) : Worker :=
  let w := w.signal
  match w.isStarted, w.consumers.getLast? with
  | true, some c =>
    { turns (w.consumers.length - 1) (w.turnsToEnd c) w with isStarted := false }
  | _, _ => w

/-- Whether no consumer has anything to do. -/
def isSettled (w : Worker) : Bool :=
  w.consumers.all fun
    | .ended => true
    | .looking | .waiting => !w.signalled && w.pending.isEmpty
    | .busy .. | .passing _ => false

/-- Gives each consumer a turn. -/
def round (w : Worker) : Worker := (List.range w.consumers.length).foldl turn w

/-- Goes on in rounds until no consumer has anything to do; `fuel` bounds how many. -/
def rounds : (fuel : Nat) → Worker → Worker
  | 0, w => w
  | fuel + 1, w => if w.isSettled then w else rounds fuel w.round

/-- How many turns it takes at most to get from one job to the next. -/
def turnsFor (a : Analyzer) : List Job → Nat
  | [] => 0
  | j :: rest => 2 * j.searches a + 4 + turnsFor a rest

/-- How many turns it takes at most to be done with all jobs. -/
def turnsToSettle (w : Worker) : Nat :=
  w.consumers.foldr (fun c more => w.turnsToEnd c + more) (turnsFor w.analyzer w.pending)

def settle (w : Worker) : Worker := rounds w.turnsToSettle w

inductive Step where
  | start
  | stop
  | run
  | put (jobs : List Job)
  deriving Repr

/-- One step, after which the consumers go on until none has anything to do. Running the loop in
place ends at once, since it is done only after a stop. -/
def step (w : Worker) : Step → Except Failure Worker
  | .start => w.start.map settle
  | .stop => .ok w.stop.settle
  | .run => if w.hasInput && w.hasOutput then .ok w else .error queuesMissing
  | .put jobs => .ok (w.put jobs).settle

def stepRecorded (w : Worker) (s : Step) : Worker × Option Failure :=
  match w.step s with
  | .ok next => (next, none)
  | .error failure => (w, some failure)

end Worker

end SecretSweep
