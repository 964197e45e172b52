import SecretSweep.Yaml.Fault

/-!
Tokens of a document. Indentation appears as tokens of its own that open and close block
collections.
-/

namespace SecretSweep.Yaml

inductive Directive where
  | version (major : Nat)
  /-- Tags that begin with `handle` are short for tags that begin with `expansion`. -/
  | tagHandle (handle expansion : String)
  | other
  deriving DecidableEq, Repr

/-- A tag as it is written: its handle, if it has one, and the rest. -/
structure WrittenTag where
  handle : Option String
  suffix : String
  deriving DecidableEq, Repr

inductive Token where
  | directive (d : Directive)
  | documentStart
  | documentEnd
  | streamEnd
  | blockSequenceStart
  | blockMappingStart
  | blockEnd
  | blockEntry
  | flowSequenceStart
  | flowSequenceEnd
  | flowMappingStart
  | flowMappingEnd
  | flowEntry
  | key
  | value
  | alias (name : String)
  | anchor (name : String)
  | tag (t : WrittenTag)
  | scalar (plain : Bool) (text : String)
  deriving DecidableEq, Repr

/-- The tokens of a text, and the fault that follows them if it is no document. -/
structure TokenStream where
  tokens : List Token
  fault : Option Fault
  deriving DecidableEq, Repr

end SecretSweep.Yaml
