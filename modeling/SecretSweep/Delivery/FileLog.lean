import SecretSweep.Delivery.Record
import SecretSweep.Files.Tree

/-!
The log of leaks: a file to which a line is appended for each leak that is sent while the log is
open. What was in the file stays in front.
-/

namespace SecretSweep

inductive LogHandle where
  | closed
  /-- The file is open; `unwritten` tells that lines are waiting for room on the device. -/
  | writing (place : Files.Place) (unwritten : Bool)
  /-- Lines were still waiting when the file was closed. -/
  | broken
  deriving DecidableEq, Repr

structure FileLog where
  path : Files.Path
  handle : LogHandle
  deriving DecidableEq, Repr

namespace FileLog

def init (path : Files.Path) : FileLog := ⟨path, .closed⟩

inductive Fault where
  /-- The file cannot be opened; `concerned` is the path that was refused. -/
  | cannotOpen (path : Files.Path) (refusal : Files.Refusal) (concerned : Files.Path)
  | nullInPath
  | noSpace
  | alreadyClosed
  /-- A number of the record has too many digits. -/
  | numberTooLong
  deriving DecidableEq, Repr

def Fault.toFailure : Fault → Failure
  | .cannotOpen path refusal concerned =>
    ⟨.delivery, "Cannot open leaks file " ++ path.text ++ ": " ++ refusal.message concerned.text⟩
  | .nullInPath => Files.nullInPath
  | .noSpace => ⟨.system, Files.Refusal.noSpace.text⟩
  | .alreadyClosed => ⟨.value, "I/O operation on closed file."⟩
  | .numberTooLong => ⟨.value, Text.notWritable⟩

/-- Opens the file, and makes it and the directories above it where they are missing. -/
def start (l : FileLog) (t : Files.Tree) : Except Fault (FileLog × Files.Tree) := do
  if l.path.hasNull then throw .nullInPath
  let t ← (t.ensureDirectory l.path.parent).mapError fun r => .cannotOpen l.path r.refusal r.path
  let (place, t) ← (t.openAppend l.path).mapError fun r => .cannotOpen l.path r l.path
  return ({ l with handle := .writing place false }, t)

/-- Appends the line of a leak. A log that is not open drops it, whatever it is; on a device without
room it waits to be written. -/
def send (l : FileLog) (t : Files.Tree) (leak : Leak) : Except Fault (FileLog × Files.Tree) :=
  match l.handle with
  | .closed => .ok (l, t)
  | .broken => .error (if leak.record.isWritable then .alreadyClosed else .numberTooLong)
  | .writing place unwritten =>
    if leak.record.isWritable then
      match t.append place leak.logLine with
      | .ok t => .ok ({ l with handle := .writing place unwritten }, t)
      | .error _ => .ok ({ l with handle := .writing place true }, t)
    else .error .numberTooLong

/-- Closes the file. Lines that still wait are lost, which is a fault. -/
def stop (l : FileLog) : FileLog × Option Fault :=
  match l.handle with
  | .writing _ true => ({ l with handle := .broken }, some .noSpace)
  | _ => ({ l with handle := .closed }, none)

theorem send_closed {l : FileLog} (h : l.handle = .closed) (t : Files.Tree) (leak : Leak) :
    l.send t leak = .ok (l, t) := by
  simp [send, h]

theorem handle_stop_of_noSpace {l m : FileLog} (h : l.stop = (m, some .noSpace)) :
    m.handle = .broken := by
  unfold stop at h
  split at h <;> simp at h
  simp [← h]

end FileLog

end SecretSweep
