import Mathlib.Data.List.TakeWhile
import SecretSweep.Patch.Path
import SecretSweep.Proofs.Text.Encoding
import SecretSweep.Proofs.Text.Lines

/-!
How git writes the path of a new file, and that it is read as that path. Characters beyond ASCII
are unusual to git only if it is set so.
-/

namespace SecretSweep.Patch

/-- Whether a character puts its path in quotes. -/
def isUnusual (beyondAscii : Bool) (c : Char) : Bool :=
  c.toNat < 0x20 || c == '"' || c == '\\' || c.toNat == 0x7F || (beyondAscii && 0x80 ≤ c.toNat)

/-- The three octal digits of a byte. -/
def octal (b : UInt8) : List Char :=
  [b / 64, b / 8 % 8, b % 8].map fun d => Char.ofNat (48 + d.toNat)

/-- How a character is written between quotes. -/
def escape (beyondAscii : Bool) (c : Char) : List Char :=
  if isUnusual beyondAscii c then
    match escapes.find? fun e => e.2.toNat = c.toNat with
    | some (letter, _) => ['\\', letter]
    | none => (Text.Utf8.encodeChar c).flatMap fun b => '\\' :: octal b
  else [c]

def quotePath (beyondAscii : Bool) (path : List Char) : List Char :=
  '"' :: (path.flatMap (escape beyondAscii) ++ ['"'])

/-- The path below `b/`, in quotes if it needs them. -/
def writeTarget (beyondAscii : Bool) (path : List Char) : List Char :=
  if path.any (isUnusual beyondAscii) then quotePath beyondAscii ('b' :: '/' :: path)
  else 'b' :: '/' :: path

/-- The path as it stands in a header; a tab follows if it holds a space. -/
def writePath (beyondAscii : Bool) (path : List Char) : List Char :=
  writeTarget beyondAscii path ++ if path.contains ' ' then ['\t'] else []

theorem octal_eq (b : UInt8) : ∃ x y z, octal b = [x, y, z] ∧ escapes.lookup x = none ∧
    Text.isDigitSign x ∧ octalByte [x, y, z] = .ok b := by
  have hall : ∀ n < 256, escapes.lookup (octal n.toUInt8)[0]! = none ∧
      Text.isDigitSign (octal n.toUInt8)[0]! ∧ octalByte (octal n.toUInt8) = .ok n.toUInt8 := by
    decide +kernel
  have hb := hall b.toNat b.toNat_lt
  rw [Nat.toUInt8_eq, UInt8.ofNat_toNat] at hb
  exact ⟨_, _, _, rfl, hb⟩

theorem unquoteBytes_octal (b : UInt8) (rest : List Char) :
    unquoteBytes ('\\' :: (octal b ++ rest)) = (unquoteBytes rest).map (b :: ·) := by
  obtain ⟨x, y, z, ho, hlookup, hdigit, hbyte⟩ := octal_eq b
  rw [ho]
  simp only [List.cons_append, List.nil_append]
  rw [unquoteBytes]
  simp [hlookup, hdigit, hbyte]
  rfl

theorem unquoteBytes_octals (bytes : List UInt8) (rest : List Char) :
    unquoteBytes (bytes.flatMap (fun b => '\\' :: octal b) ++ rest) =
      (unquoteBytes rest).map (bytes ++ ·) := by
  induction bytes with
  | nil => cases h : unquoteBytes rest <;> simp [h, Except.map]
  | cons b bytes ih =>
    rw [List.flatMap_cons, List.append_assoc, List.cons_append, unquoteBytes_octal, ih]
    cases unquoteBytes rest <;> rfl

theorem unquoteBytes_letter {letter : Char} {b : UInt8} (h : (letter, b) ∈ escapes)
    (rest : List Char) :
    unquoteBytes ('\\' :: letter :: rest) = (unquoteBytes rest).map (b :: ·) := by
  have hall : ∀ e ∈ escapes, escapes.lookup e.1 = some e.2 := by decide
  rw [unquoteBytes, hall _ h]

theorem encodeChar_of_mem_escapes {letter c : Char} {b : UInt8} (h : (letter, b) ∈ escapes)
    (hc : b.toNat = c.toNat) : Text.Utf8.encodeChar c = [b] := by
  have hall : ∀ e ∈ escapes, e.2.toNat < 0x80 := by decide
  have hlow : b.toNat < 0x80 := hall _ h
  rw [Text.Utf8.encodeChar, ← hc, if_pos hlow, Nat.toUInt8_eq, UInt8.ofNat_toNat]

theorem unquoteBytes_cons {c : Char} (h : c ≠ '\\') (rest : List Char) :
    unquoteBytes (c :: rest) = (unquoteBytes rest).map (Text.Utf8.encodeChar c ++ ·) := by
  rw [unquoteBytes]
  rintro c' rest' rfl
  exact absurd rfl h

theorem unquoteBytes_escape (beyondAscii : Bool) (c : Char) (rest : List Char) :
    unquoteBytes (escape beyondAscii c ++ rest) =
      (unquoteBytes rest).map (Text.Utf8.encodeChar c ++ ·) := by
  unfold escape
  split
  · split
    · rename_i letter b hfind
      have hbyte : b.toNat = c.toNat := by simpa using List.find?_some hfind
      have hmem := List.mem_of_find?_eq_some hfind
      rw [encodeChar_of_mem_escapes hmem hbyte]
      exact unquoteBytes_letter hmem rest
    · exact unquoteBytes_octals _ rest
  · rename_i husual
    refine unquoteBytes_cons ?_ rest
    rintro rfl
    simp [isUnusual] at husual

theorem unquote_flatMap_escape (beyondAscii : Bool) (s : List Char) :
    unquote (s.flatMap (escape beyondAscii)) = .ok s := by
  have hbytes : unquoteBytes (s.flatMap (escape beyondAscii)) = .ok (Text.Utf8.encode s) := by
    induction s with
    | nil => simp [unquoteBytes, Text.Utf8.encode]
    | cons c s ih =>
      rw [List.flatMap_cons, unquoteBytes_escape, ih]
      rfl
  rw [unquote, hbytes]
  exact congrArg Except.ok (Text.Utf8.decodeReplacing_encode s)

theorem getLast?_quotePath (beyondAscii : Bool) (path : List Char) :
    (quotePath beyondAscii path).getLast? = some '"' := by
  rw [quotePath, ← List.cons_append, List.getLast?_concat]

theorem betweenQuotes?_quotePath (beyondAscii : Bool) (path : List Char) :
    betweenQuotes? (quotePath beyondAscii path) = some (path.flatMap (escape beyondAscii)) := by
  rw [betweenQuotes?, getLast?_quotePath]
  simp [quotePath]

theorem not_mem_of_usual {beyondAscii : Bool} {path : List Char} {c : Char}
    (hpath : path.any (isUnusual beyondAscii) = false) (hc : isUnusual beyondAscii c) :
    c ∉ path := fun hmem => List.any_eq_false.mp hpath c hmem hc

theorem isUnusual_of_ascii {c : Char} (h : isUnusual false c) (beyondAscii : Bool) :
    isUnusual beyondAscii c := by
  simp only [isUnusual, Bool.false_and, Bool.or_false] at h ⊢
  rw [h, Bool.true_or]

/-- Whether a text stands for a path: below `b/`, bare if no character of it needs quotes, or in
quotes. -/
inductive Spells (path : List Char) : (target : List Char) → Prop where
  | bare (h : path.any (isUnusual false) = false) : Spells path ('b' :: '/' :: path)
  | quoted (beyondAscii : Bool) : Spells path (quotePath beyondAscii ('b' :: '/' :: path))

theorem spells_writeTarget (beyondAscii : Bool) (path : List Char) :
    Spells path (writeTarget beyondAscii path) := by
  unfold writeTarget
  cases hpath : path.any (isUnusual beyondAscii) with
  | true => exact .quoted beyondAscii
  | false =>
    refine .bare (List.any_eq_false.mpr fun c hmem hc => ?_)
    exact List.any_eq_false.mp hpath c hmem (isUnusual_of_ascii hc beyondAscii)

variable {path target : List Char}

/-- No tab is taken off the end of a path for the one that may follow it. -/
theorem Spells.stripEnd_append (h : Spells path target) (spaced : Bool) :
    Text.stripEnd (· == '\t') (target ++ if spaced then ['\t'] else []) = target := by
  have hlast : ∀ c ∈ target.getLast?, (c == '\t') = false := by
    intro c hc
    rw [beq_eq_false_iff_ne]
    rintro rfl
    cases h with
    | bare hpath =>
      have hmem : '\t' ∈ 'b' :: '/' :: path := List.mem_of_getLast? hc
      simp [not_mem_of_usual hpath (c := '\t') (by simp [isUnusual])] at hmem
    | quoted beyondAscii => simp [getLast?_quotePath] at hc
  have hself := Text.stripEnd_of_getLast hlast
  cases spaced with
  | true => rw [if_pos rfl, Text.stripEnd_append_singleton _ (by decide), hself]
  | false => rw [if_neg (by decide), List.append_nil, hself]

theorem Spells.ne_null (h : Spells path target) : target ≠ "/dev/null".toList := by
  cases h <;> simp [quotePath]

/-- A text that stands for a path is read as that path, with a tab after it or without. -/
theorem Spells.readPath_append (h : Spells path target) (hne : path ≠ []) (spaced : Bool) :
    readPath (target ++ if spaced then ['\t'] else []) = .ok (some (String.ofList path)) := by
  have hbelow :
      (Text.dropLead? ['b', '/'] ('b' :: '/' :: path)).getD ('b' :: '/' :: path) = path := by
    simp [Text.dropLead?]
  unfold readPath
  rw [h.stripEnd_append, if_neg h.ne_null]
  cases h with
  | bare hpath =>
    have hbare : betweenQuotes? ('b' :: '/' :: path) = none := rfl
    rw [hbare]
    simp [hbelow, hne, pure, Except.pure, bind, Except.bind]
  | quoted beyondAscii =>
    have hread := unquote_flatMap_escape beyondAscii ('b' :: '/' :: path)
    rw [betweenQuotes?_quotePath]
    simp only [hread, bind, Except.bind, hbelow]
    simp [hne, pure, Except.pure]

/-- What git writes for a path is read as that path. -/
theorem readPath_writePath (beyondAscii : Bool) (h : path ≠ []) :
    readPath (writePath beyondAscii path) = .ok (some (String.ofList path)) :=
  (spells_writeTarget beyondAscii path).readPath_append h _

/-- The path as it stands in a header if characters beyond ASCII put nothing in quotes. Between
quotes they are written as their bytes, or as they are. A tab follows if the path holds a space. -/
def spellPath (beyondAscii : Bool) (path : List Char) : List Char :=
  (if path.any (isUnusual false) then quotePath beyondAscii ('b' :: '/' :: path)
    else 'b' :: '/' :: path) ++ if path.contains ' ' then ['\t'] else []

theorem readPath_spelled (beyondAscii : Bool) (h : path ≠ []) :
    readPath (spellPath beyondAscii path) = .ok (some (String.ofList path)) := by
  have hspells : Spells path (if path.any (isUnusual false) then
      quotePath beyondAscii ('b' :: '/' :: path) else 'b' :: '/' :: path) := by
    cases hpath : path.any (isUnusual false) with
    | true => exact .quoted beyondAscii
    | false => exact .bare hpath
  exact hspells.readPath_append h _

/-- A path below another `b/` that holds a space, a character beyond ASCII, what looks like an
escape, and a quote at its end. -/
def oddPath : List Char := "b/ä \\101\"".toList

theorem newline_not_mem_octal (b : UInt8) : '\n' ∉ octal b := by
  have hall : ∀ n < 256, '\n' ∉ octal n.toUInt8 := by decide +kernel
  have hb := hall b.toNat b.toNat_lt
  rwa [Nat.toUInt8_eq, UInt8.ofNat_toNat] at hb

theorem newline_not_mem_escape (beyondAscii : Bool) (c : Char) : '\n' ∉ escape beyondAscii c := by
  have hletters : ∀ e ∈ escapes, '\n' ≠ e.1 := by decide
  unfold escape
  split
  · split
    · rename_i letter b hfind
      simpa using hletters _ (List.mem_of_find?_eq_some hfind)
    · simp [newline_not_mem_octal]
  · rename_i husual
    rw [List.mem_singleton]
    rintro rfl
    simp [isUnusual] at husual

theorem newline_not_mem_writePath (beyondAscii : Bool) (path : List Char) :
    '\n' ∉ writePath beyondAscii path := by
  have htarget : '\n' ∉ writeTarget beyondAscii path := by
    unfold writeTarget
    cases hpath : path.any (isUnusual beyondAscii) with
    | true => simp [quotePath, newline_not_mem_escape]
    | false => simp [not_mem_of_usual hpath (c := '\n') (by simp [isUnusual])]
  unfold writePath
  split <;> simp [htarget]

end SecretSweep.Patch
