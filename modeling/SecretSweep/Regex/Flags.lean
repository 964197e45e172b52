import SecretSweep.Regex.CharSet
import SecretSweep.Regex.Token

/-!
Flags of a regular expression, set for all of it or for one group.
-/

namespace SecretSweep.Regex

structure Flags where
  ignoreCase : Bool
  multiline : Bool
  dotAll : Bool
  verbose : Bool
  ascii : Bool
  unicode : Bool
  template : Bool
  deriving DecidableEq, Repr

namespace Flags

def none : Flags := ⟨false, false, false, false, false, false, false⟩

def caseless : Flags := { none with ignoreCase := true }

def folding (f : Flags) : Folding :=
  if !f.ignoreCase then .exact else if f.ascii then .asciiCase else .anyCase

def set (f : Flags) (value : Bool) : Char → Flags
  | 'i' => { f with ignoreCase := value }
  | 'm' => { f with multiline := value }
  | 's' => { f with dotAll := value }
  | 'x' => { f with verbose := value }
  | 'a' => { f with ascii := value }
  | 'u' => { f with unicode := value }
  | 't' => { f with template := value }
  | _ => f

def letters : List Char := ['i', 'L', 'm', 's', 'x', 'a', 't', 'u']

/-- The kinds of characters exclude one another: setting one clears the other. -/
def within (f : Flags) (on off : List Char) : Flags :=
  let f := if on.contains 'a' || on.contains 'u' then { f with ascii := false, unicode := false } else f
  off.foldl (·.set false) (on.foldl (·.set true) f)

end Flags

/-- Flags for the whole expression, or flags turned on and off for one group. -/
inductive FlagGroup where
  | whole (on : List Char)
  | scoped (on off : List Char)

/-- The fault of a token that stands where a flag letter or one of a few other characters should. -/
def notAFlag (t : Token) (otherwise : Cause) (after : Input) : Fault :=
  let letter := match t with | .char c => Text.isLetter c | _ => false
  ⟨if letter then .unknownFlag else otherwise, some (after.position - t.size)⟩

/-- Letters that turn flags on, beginning with `c`; ends with one of `)`, `-` and `:`. -/
def flagsOn : (fuel : Nat) → (c : Char) → (on : List Char) → Input → Read (List Char × Char × Input)
  | 0, _, _, i => faultAt .missingFlagEnd i.position
  | fuel + 1, c, on, i => do
    if c = 'L' then faultAt .cannotUseLocale i.position
    let on := on ++ [c]
    if (c = 'a' ∧ on.contains 'u') ∨ (c = 'u' ∧ on.contains 'a') then
      faultAt .incompatibleFlags i.position
    let (t, rest) ← i.take
    match t with
    | none => faultAt .missingFlagEnd rest.position
    | some (.char d) =>
      if d = ')' ∨ d = '-' ∨ d = ':' then return (on, d, rest)
      else if Flags.letters.contains d then flagsOn fuel d on rest
      else .error (notAFlag (.char d) .missingFlagEnd rest)
    | some t => .error (notAFlag t .missingFlagEnd rest)

/-- Letters that turn flags off, beginning with `c`; ends with a colon. -/
def flagsOff : (fuel : Nat) → (c : Char) → (off : List Char) → Input → Read (List Char × Input)
  | 0, _, _, i => faultAt .missingColon i.position
  | fuel + 1, c, off, i => do
    if c = 'a' ∨ c = 'u' ∨ c = 'L' then faultAt .cannotTurnOff i.position
    let off := off ++ [c]
    let (t, rest) ← i.take
    match t with
    | none => faultAt .missingColon rest.position
    | some (.char ':') => return (off, rest)
    | some (.char d) =>
      if Flags.letters.contains d then flagsOff fuel d off rest
      else .error (notAFlag (.char d) .missingColon rest)
    | some t => .error (notAFlag t .missingColon rest)

/-- The flags of a group whose first character `c`, a flag letter or a minus, has been taken. -/
def readFlags (c : Char) (i : Input) : Read (FlagGroup × Input) := do
  let fuel := i.tokens.length + 1
  let (on, stop, i) ← if c = '-' then pure ([], '-', i) else flagsOn fuel c [] i
  if stop = ')' then return (.whole on, i)
  if on.contains 't' then faultAt .cannotTurnOnGlobal (i.position - 1)
  if stop = ':' then return (.scoped on [], i)
  let (t, i) ← i.take
  let (off, i) ← match t with
    | none => faultAt .missingFlag i.position
    | some (.char d) =>
      if Flags.letters.contains d then flagsOff fuel d [] i
      else .error (notAFlag (.char d) .missingFlag i)
    | some t => .error (notAFlag t .missingFlag i)
  if off.contains 't' then faultAt .cannotTurnOffGlobal (i.position - 1)
  if on.any off.contains then faultAt .flagOnAndOff (i.position - 1)
  return (.scoped on off, i)

end SecretSweep.Regex
