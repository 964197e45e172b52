import SecretSweep.Failure
import SecretSweep.Leak.Basic

/-!
Delivery backends as the router sees them: each can be started, be sent leaks and be stopped, and
each may fail at any of these. What they act on, of the type `σ`, is theirs to choose.
-/

namespace SecretSweep

inductive Request where
  | start
  | send (leak : Leak)
  | stop
  deriving DecidableEq, Repr

structure Reply where
  failure : Option Failure
  /-- Whether the stop signal came meanwhile. -/
  signalled : Bool
  deriving DecidableEq, Repr

namespace Reply

def ofFailure (failure : Option Failure) : Reply := ⟨failure, false⟩

def done : Reply := ofFailure none

end Reply

structure Backend (σ : Type) where
  name : String
  answer : Request → σ → σ × Reply

structure Call where
  backend : String
  request : Request
  reply : Reply
  deriving DecidableEq, Repr

def requestsTo (name : String) (log : List Call) : List Request :=
  (log.filter (·.backend = name)).map (·.request)

def repliesOf (name : String) (log : List Call) : List Reply :=
  (log.filter (·.backend = name)).map (·.reply)

/-- A backend that does nothing but be called. How a request goes depends on the requests that it
has had before. -/
def Backend.scripted (name : String) (script : List Request → Request → Reply) :
    Backend (List Call) where
  name
  answer request log :=
    let reply := script (requestsTo name log) request
    (log ++ [⟨name, request, reply⟩], reply)

end SecretSweep
