import SecretSweep.Delivery.Backend
import SecretSweep.Delivery.FileLog
import SecretSweep.Delivery.Mailer

/-!
The outlets of a sweep: the backends that the settings ask for, what they act on, and a record of
how they were called.
-/

namespace SecretSweep

structure Outlets where
  tree : Files.Tree
  log : FileLog
  mailer : Mailer
  server : MailServer
  collected : List Leak
  calls : List Call

/-- A backend that the settings ask for. -/
inductive Outlet where
  | mail
  | log
  deriving DecidableEq, Repr

namespace Outlet

def name : Outlet → String
  | .mail => "email"
  | .log => "file"

/-- Mail comes before the log. -/
def configured (s : Settings) : List Outlet :=
  (if s.mail.enabled then [.mail] else []) ++ (if s.common.leaksFile.isSome then [.log] else [])

/-- Where an outlet delivers to: an address or a path. -/
def destination (s : Settings) : Outlet → String
  | .mail => (Mailer.init s.mail none).recipient
  | .log => (s.common.leaksFile.map (·.text)).getD ""

end Outlet

namespace Outlets

def init (s : Settings) (tree : Files.Tree) (server : MailServer) : Outlets :=
  { tree, log := .init (s.common.leaksFile.getD (.ofText "")), mailer := .init s.mail none, server
    collected := [], calls := [] }

/-- What a step of the log comes to. -/
def withLog (o : Outlets) :
    Except FileLog.Fault (FileLog × Files.Tree) → Outlets × Option Failure
  | .ok (log, tree) => ({ o with log, tree }, none)
  | .error fault => (o, some fault.toFailure)

def failure? : Except Failure Unit → Option Failure
  | .ok _ => none
  | .error failure => some failure

def answerMail (o : Outlets) : Request → Outlets × Option Failure
  | .start => (o, failure? o.mailer.start)
  | .send leak =>
    let (mailer, result) := o.mailer.send o.server leak
    ({ o with mailer }, failure? result)
  | .stop => (o, none)

def answerLog (o : Outlets) : Request → Outlets × Option Failure
  | .start => o.withLog (o.log.start o.tree)
  | .send leak => o.withLog (o.log.send o.tree leak)
  | .stop =>
    let (log, fault) := o.log.stop
    ({ o with log }, fault.map (·.toFailure))

def answerCollector (o : Outlets) : Request → Outlets × Option Failure
  | .start => ({ o with collected := [] }, none)
  | .send leak => ({ o with collected := o.collected ++ [leak] }, none)
  | .stop => (o, none)

/-- A backend that keeps a record of how it was called. -/
def recorded (name : String) (answer : Outlets → Request → Outlets × Option Failure) :
    Backend Outlets where
  name
  answer request o :=
    let (o, failure) := answer o request
    let reply := Reply.ofFailure failure
    ({ o with calls := o.calls ++ [⟨name, request, reply⟩] }, reply)

def backend (outlet : Outlet) : Backend Outlets :=
  recorded outlet.name <| match outlet with
    | .mail => answerMail
    | .log => answerLog

def collector : Backend Outlets := recorded "console" answerCollector

def backends (s : Settings) : List (Backend Outlets) := (Outlet.configured s).map backend

end Outlets

end SecretSweep
