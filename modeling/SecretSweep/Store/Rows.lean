import SecretSweep.Store.Tables
import SecretSweep.Text.Fields
import SecretSweep.Text.Numeral

/-!
Tables as rows of fields, which is the form that a file keeps them in. The first field of a row says
what it holds; a time is written as the bits of the number.
-/

namespace SecretSweep.Tables

def timeField (t : Float) : String := toString t.toBits.toNat

def versionRow (version : Int) : List String := ["version", toString version]

def refRow (ref : String × String) : List String := ["ref", ref.1, ref.2]

def runRow (r : Run) : List String :=
  ["run", r.id, r.repoPath, r.repoUrl, r.status.text, toString r.commitsTotal,
    toString r.commitsScanned, r.error, timeField r.startedAt]
    ++ (r.finishedAt.map timeField).toList

def toRows (t : Tables) : List (List String) :=
  t.versions.map versionRow ++ t.refs.map refRow ++ t.runs.map runRow

def number? (field : String) : Option Int := (Text.readInteger 10 field.toList).toOption

def time? (field : String) : Option Float := do
  return .ofBits (← number? field).toNat.toUInt64

def addRow? (t : Tables) : List String → Option Tables
  | ["version", version] => do return { t with versions := t.versions ++ [← number? version] }
  | ["ref", path, hash] => some { t with refs := t.refs ++ [(path, hash)] }
  | "run" :: id :: repoPath :: repoUrl :: status :: total :: scanned :: error :: started ::
      finished => do
    let finishedAt ← match finished with
      | [] => some none
      | [time] => (time? time).map some
      | _ => none
    let run : Run :=
      { id, repoPath, repoUrl, error, finishedAt
        status := ← RunStatus.read? status
        commitsTotal := ← number? total
        commitsScanned := ← number? scanned
        startedAt := ← time? started }
    return { t with runs := t.runs ++ [run] }
  | _ => none

def ofRows? (rows : List (List String)) : Option Tables := rows.foldlM addRow? ⟨[], [], []⟩

def text (t : Tables) : String := Text.Fields.render t.toRows

/-- Reads what `text` writes. A text without a row is no text of tables. -/
def ofText? (s : String) : Option Tables :=
  match Text.Fields.read? s with
  | some (row :: rows) => ofRows? (row :: rows)
  | _ => none

theorem addRow?_refRow (t : Tables) (ref : String × String) :
    t.addRow? (refRow ref) = some { t with refs := t.refs ++ [ref] } := rfl

end SecretSweep.Tables
