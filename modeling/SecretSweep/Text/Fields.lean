import SecretSweep.Text.Lines

/-!
Rows of fields: a tab stands between two fields and a line feed after each row. Escapes keep tabs
and line ends out of the fields, so that whatever is written is read back.
-/

namespace SecretSweep.Text.Fields

def escapeChar (c : Char) : List Char :=
  if c = '\\' then ['\\', '\\']
  else if c = '\t' then ['\\', 't']
  else if c = '\n' then ['\\', 'n']
  else if c = '\r' then ['\\', 'r']
  else [c]

def escape (s : List Char) : List Char := s.flatMap escapeChar

def escaped? : Char → Option Char
  | '\\' => some '\\'
  | 't' => some '\t'
  | 'n' => some '\n'
  | 'r' => some '\r'
  | _ => none

def unescape? : List Char → Option (List Char)
  | [] => some []
  | ['\\'] => none
  | '\\' :: e :: rest => do return (← escaped? e) :: (← unescape? rest)
  | c :: rest => (unescape? rest).map (c :: ·)

theorem unescape?_escape (s : List Char) : unescape? (escape s) = some s := by
  induction s with
  | nil => rfl
  | cons c rest ih =>
    simp only [escape, List.flatMap_cons] at *
    by_cases backslash : c = '\\'
    · subst c; simp [escapeChar, unescape?, escaped?, ih]
    by_cases tab : c = '\t'
    · subst c; simp [escapeChar, unescape?, escaped?, ih]
    by_cases lineFeed : c = '\n'
    · subst c; simp [escapeChar, unescape?, escaped?, ih]
    by_cases carriageReturn : c = '\r'
    · subst c; simp [escapeChar, unescape?, escaped?, ih]
    simp [escapeChar, backslash, tab, lineFeed, carriageReturn, unescape?, ih]

theorem not_mem_escape {c : Char} (hc : c = '\t' ∨ c = '\n') (s : List Char) : c ∉ escape s := by
  simp only [escape, List.mem_flatMap, not_exists, not_and]
  intro d _
  unfold escapeChar
  grind

def renderRow (row : List String) : List Char :=
  join ['\t'] (row.map fun field => escape field.toList) ++ ['\n']

def render (rows : List (List String)) : String := String.ofList (rows.flatMap renderRow)

def readRow? (line : List Char) : Option (List String) :=
  (splitOn '\t' line).mapM fun field => (unescape? field).map String.ofList

def read? (s : String) : Option (List (List String)) :=
  match (splitOn '\n' s.toList).reverse with
  | [] :: lines => lines.reverse.mapM readRow?
  | _ => none

theorem mapM_readField (row : List String) :
    (row.map fun field => escape field.toList).mapM
      (fun field => (unescape? field).map String.ofList) = some row := by
  induction row with
  | nil => rfl
  | cons field row ih => simp [unescape?_escape, ih]

theorem readRow?_renderRow {row : List String} (h : row ≠ []) :
    readRow? (join ['\t'] (row.map fun field => escape field.toList)) = some row := by
  rw [readRow?, splitOn_join (by simpa using h), mapM_readField]
  simp only [List.mem_map, forall_exists_index, and_imp]
  rintro _ field _ rfl
  exact not_mem_escape (.inl rfl) _

end SecretSweep.Text.Fields
