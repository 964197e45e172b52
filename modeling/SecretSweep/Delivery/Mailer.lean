import SecretSweep.Delivery.Mail

/-!
Delivery by mail: one connection to the mail server per leak. A delivery that the server or the
network prevents is counted and goes no further; each leak that could be put into a mail is counted
either as sent or as failed.
-/

namespace SecretSweep

inductive MailStage where
  | connect
  | startTls
  | login
  | send
  | close
  deriving DecidableEq, Repr

inductive MailEvent where
  | connect (host : String) (port : Int) (timeout : Nat)
  | startTls
  | login (username password : String)
  | send (mail : Mail)
  | close
  deriving DecidableEq, Repr

namespace MailEvent

def stage : MailEvent → MailStage
  | .connect .. => .connect
  | .startTls => .startTls
  | .login .. => .login
  | .send _ => .send
  | .close => .close

end MailEvent

/-- How a server takes each stage of a delivery: it passes, or it fails. -/
abbrev MailServer := MailStage → Option Failure

/-- Whether a failure belongs to the delivery of mail, so that it is counted and goes no further. -/
def FailureKind.isMailTrouble : FailureKind → Bool
  | .mail _ | .system | .missing | .present | .notDirectory | .directory => true
  | _ => false

structure Mailer where
  settings : MailSettings
  recipient : String
  sent : Nat
  failed : Nat
  events : List MailEvent
  deriving DecidableEq, Repr

namespace Mailer

/-- A mailer to the given recipient, or else to the configured one. -/
def init (settings : MailSettings) (recipient : Option String) : Mailer :=
  { settings
    recipient := (recipient.filter (!·.isEmpty)).getD settings.recipient
    sent := 0, failed := 0, events := [] }

def missing (m : Mailer) : List String :=
  ([("host", m.settings.host), ("from", m.settings.sender), ("recipient", m.recipient)].filter
    (·.2.isEmpty)).map Prod.fst

def start (m : Mailer) : Except Failure Unit :=
  if m.missing.isEmpty then .ok ()
  else .error ⟨.delivery, "SMTP settings missing: " ++ ", ".intercalate m.missing⟩

/-- Seconds until a connection is given up. -/
def timeout : Nat := 30

def opening (s : MailSettings) : MailEvent := .connect s.host s.port timeout

def conversation (s : MailSettings) (mail : Mail) : List MailEvent :=
  (if s.tls then [.startTls] else [])
    ++ (if s.username.isEmpty then [] else [.login s.username s.password])
    ++ [.send mail]

def converse (server : MailServer) : List MailEvent → List MailEvent × Option Failure
  | [] => ([], none)
  | e :: rest =>
    match server e.stage with
    | some failure => ([e], some failure)
    | none =>
      let (events, failure) := converse server rest
      (e :: events, failure)

/-- Delivers a mail. A connection that was made is closed in any case, and a failure to close comes
before one in the conversation. -/
def deliver (s : MailSettings) (server : MailServer) (mail : Mail) :
    List MailEvent × Option Failure :=
  match server .connect with
  | some failure => ([opening s], some failure)
  | none =>
    let (events, failure) := converse server (conversation s mail)
    (opening s :: events ++ [.close], (server .close).or failure)

/-- Sends a leak. Only failures that have nothing to do with mail are passed on. -/
def send (m : Mailer) (server : MailServer) (leak : Leak) : Mailer × Except Failure Unit :=
  match Mail.compose leak m.settings.sender m.recipient with
  | .error fault => (m, .error fault.toFailure)
  | .ok mail =>
    let (events, failure) := deliver m.settings server mail
    let m := { m with events := m.events ++ events }
    match failure with
    | none => ({ m with sent := m.sent + 1 }, .ok ())
    | some failure =>
      if failure.kind.isMailTrouble then ({ m with failed := m.failed + 1 }, .ok ())
      else (m, .error failure)

def calm : MailServer := fun _ => none

theorem converse_calm (l : List MailEvent) : converse calm l = (l, none) := by
  induction l with
  | nil => rfl
  | cons e rest ih => simp [converse, calm, ih]

theorem deliver_calm (s : MailSettings) (mail : Mail) :
    deliver s calm mail = (opening s :: conversation s mail ++ [.close], none) := by
  simp [deliver, converse_calm]
  rfl

end Mailer

end SecretSweep
