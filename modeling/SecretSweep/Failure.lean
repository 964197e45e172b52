/-!
Failures as callers see them: a kind and a message.
-/

namespace SecretSweep

/-- What went wrong, as far as a caller can react to it. -/
inductive FailureKind where
  | configuration
  /-- A repository cannot be opened or listed. -/
  | repository
  | git
  | delivery
  | value
  /-- A number is too large for what it is to be. -/
  | overflow
  /-- A value is of a kind that cannot be used. -/
  | type
  /-- An operation came at the wrong time. -/
  | state
  /-- A record breaks a constraint of its table. -/
  | integrity
  | decoding
  | system
  /-- The system found nothing at a path. -/
  | missing
  /-- The system found something at a path that was to be free. -/
  | present
  /-- The system found no directory at a path that was to be one. -/
  | notDirectory
  /-- The system found a directory at a path that was to be a file. -/
  | directory
  | store
  /-- A file that was to be a store is none. -/
  | foreignStore
  | key
  /-- A position lies outside. -/
  | position
  /-- A value lacks a part. -/
  | part
  | mail (name : String)
  | other (name : String)
  deriving DecidableEq, Repr

structure Failure where
  kind : FailureKind
  message : String
  deriving DecidableEq, Repr

/-- Whether the failure is one that the program itself foresees and reports as such. -/
def FailureKind.isForeseen : FailureKind → Bool
  | .configuration | .repository | .git | .delivery => true
  | _ => false

end SecretSweep
