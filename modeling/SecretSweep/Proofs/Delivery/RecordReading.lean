import SecretSweep.Delivery.Record
import SecretSweep.Proofs.Text.Digits
import SecretSweep.Proofs.Text.Encoding

/-!
Reading records: objects of JSON whose values are texts and integers, with its blanks between tokens
and with all its ways to escape a character. A record that has been written is read again, and its
text holds no control character.
-/

namespace SecretSweep.Record

inductive Token where
  | leftBrace
  | rightBrace
  | colon
  | comma
  | value (v : FieldValue)
  deriving DecidableEq, Repr

/-- Where a reader of tokens stands. In a quoted text it keeps the codes of the characters so
far. -/
inductive Reading where
  | between
  | inText (codes : List Nat)
  | afterBackslash (codes : List Nat)
  /-- In an escape by four digits. -/
  | inNumber (codes digits : List Nat)
  /-- In an integer, of which it keeps the sign and the digits so far. -/
  | inInteger (s : List Char)
  deriving DecidableEq, Repr

def shortEscape? : Char → Option Char
  | '"' => some '"'
  | '\\' => some '\\'
  | '/' => some '/'
  | 'b' => some '\x08'
  | 'f' => some '\x0c'
  | 'n' => some '\n'
  | 'r' => some '\r'
  | 't' => some '\t'
  | _ => none

def hexValue? (c : Char) : Option Nat := "0123456789abcdef".toList.idxOf? c.toLower

/-- The characters with these codes; two surrogates stand for one character beyond U+FFFF. -/
def ofCodes? : List Nat → Option (List Char)
  | [] => some []
  | high :: rest =>
    if high < 0xD800 ∨ 0xDFFF < high then (ofCodes? rest).map (Char.ofNat high :: ·)
    else match rest with
      | [] => none
      | low :: rest =>
        if high < 0xDC00 ∧ 0xDC00 ≤ low ∧ low ≤ 0xDFFF then
          (ofCodes? rest).map (Char.ofNat (0x10000 + (high - 0xD800) * 0x400 + (low - 0xDC00)) :: ·)
        else none

/-- The only number that begins with a zero is zero. -/
def natural? (digits : List Char) : Option Nat :=
  if digits = [] ∨ digits.head? = some '0' ∧ digits ≠ ['0'] then none
  else some (Text.ofDigits 10 (digits.map fun c => c.toNat - 48))

def integer? : List Char → Option Int
  | '-' :: digits => (natural? digits).map fun n => -(n : Int)
  | digits => (natural? digits).map fun n => (n : Int)

def isBlank (c : Char) : Bool := c = ' ' ∨ c = '\t' ∨ c = '\n' ∨ c = '\r'

namespace Reading

/-- The tokens that a character between tokens completes, and where the reader stands then. -/
def start (c : Char) : Option (List Token × Reading) :=
  if c = '{' then some ([.leftBrace], .between)
  else if c = '}' then some ([.rightBrace], .between)
  else if c = ':' then some ([.colon], .between)
  else if c = ',' then some ([.comma], .between)
  else if c = '"' then some ([], .inText [])
  else if c = '-' ∨ c.isDigit then some ([], .inInteger [c])
  else if isBlank c then some ([], .between)
  else none

def step : Reading → Char → Option (List Token × Reading)
  | .between, c => start c
  | .inText codes, c =>
    if c = '"' then (ofCodes? codes).map fun s => ([.value (.text (String.ofList s))], .between)
    else if c = '\\' then some ([], .afterBackslash codes)
    else if c.toNat < 0x20 then none
    else some ([], .inText (codes ++ [c.toNat]))
  | .afterBackslash codes, c =>
    if c = 'u' then some ([], .inNumber codes [])
    else (shortEscape? c).map fun d => ([], .inText (codes ++ [d.toNat]))
  | .inNumber codes digits, c => (hexValue? c).map fun d =>
    if digits.length < 3 then ([], .inNumber codes (digits ++ [d]))
    else ([], .inText (codes ++ [Text.ofDigits 16 (digits ++ [d])]))
  | .inInteger s, c =>
    if c.isDigit then some ([], .inInteger (s ++ [c]))
    else do
      let n ← integer? s
      let (tokens, reading) ← start c
      return (.value (.number n) :: tokens, reading)

/-- The tokens of a text that is read from here on. -/
def tokens? : Reading → List Char → Option (List Token)
  | .between, [] => some []
  | .inInteger s, [] => (integer? s).map fun n => [.value (.number n)]
  | _, [] => none
  | r, c :: rest => do
    let (tokens, r) ← r.step c
    return tokens ++ (← r.tokens? rest)

end Reading

/-- The fields that tokens make up, with the brace behind them. -/
def fields? : List Token → Option Record
  | [.value (.text name), .colon, .value v, .rightBrace] => some [(name, v)]
  | .value (.text name) :: .colon :: .value v :: .comma :: rest =>
    (fields? rest).map ((name, v) :: ·)
  | _ => none

def ofTokens? : List Token → Option Record
  | [.leftBrace, .rightBrace] => some []
  | .leftBrace :: rest => fields? rest
  | _ => none

def read? (s : List Char) : Option Record := (Reading.between.tokens? s).bind ofTokens?

namespace Reading

theorem tokens?_of_step {r : Reading} {c : Char} (next : Reading) (h : r.step c = some ([], next))
    (rest : List Char) : r.tokens? (c :: rest) = next.tokens? rest := by
  simp [tokens?, h]

/-- A mark between tokens is a token of its own. -/
theorem tokens?_mark {c : Char} (token : Token) (h : start c = some ([token], .between))
    (rest : List Char) :
    between.tokens? (c :: rest) = (between.tokens? rest).map (token :: ·) := by
  cases hrest : between.tokens? rest <;> simp [tokens?, step, h, hrest]

theorem ofDigits_hex {n : Nat} (h : n < 0x10000) :
    Text.ofDigits 16 [n / 0x1000 % 16, n / 0x100 % 16, n / 0x10 % 16, n % 16] = n := by
  simp only [Text.ofDigits, List.foldl_cons, List.foldl_nil]
  omega

theorem hexValue?_hexDigit (n : Nat) : hexValue? (Text.hexDigit n) = some (n % 16) := by
  have hall : ∀ d < 16, hexValue? (Nat.digitChar d) = some d := by decide +kernel
  exact hall _ (Nat.mod_lt _ (by decide))

/-- An escape by its number is read as the character. -/
theorem tokens?_hex (codes : List Nat) {n : Nat} (h : n < 0x10000) (rest : List Char) :
    (inText codes).tokens? ('\\' :: 'u' :: Text.hex 4 n ++ rest) =
      (inText (codes ++ [n])).tokens? rest := by
  have hdigits : Text.hex 4 n = [Text.hexDigit (n / 0x1000), Text.hexDigit (n / 0x100),
      Text.hexDigit (n / 0x10), Text.hexDigit n] := by
    simp [Text.hex, Nat.div_div_eq_div_mul]
  have hvalue := hexValue?_hexDigit
  rw [hdigits, List.cons_append, tokens?_of_step (.afterBackslash codes) (by simp [step]),
    List.cons_append, tokens?_of_step (.inNumber codes []) (by simp [step])]
  simp only [List.cons_append, List.nil_append]
  rw [tokens?_of_step (.inNumber codes [n / 0x1000 % 16]) (by simp [step, hvalue]),
    tokens?_of_step (.inNumber codes [n / 0x1000 % 16, n / 0x100 % 16]) (by simp [step, hvalue]),
    tokens?_of_step (.inNumber codes [n / 0x1000 % 16, n / 0x100 % 16, n / 0x10 % 16])
      (by simp [step, hvalue]),
    tokens?_of_step (.inText (codes ++ [n])) (by simp [step, hvalue, ofDigits_hex h])]

theorem tokens?_shortEscape (codes : List Nat) {c d : Char} (hu : c ≠ 'u')
    (h : shortEscape? c = some d) (rest : List Char) :
    (inText codes).tokens? ('\\' :: c :: rest) = (inText (codes ++ [d.toNat])).tokens? rest := by
  rw [tokens?_of_step (.afterBackslash codes) (by simp [step]),
    tokens?_of_step (.inText (codes ++ [d.toNat])) (by simp [step, hu, h])]

/-- However a character is written, it is read as itself. -/
theorem tokens?_escape (codes : List Nat) (c : Char) (rest : List Char) :
    (inText codes).tokens? (escape c ++ rest) = (inText (codes ++ [c.toNat])).tokens? rest := by
  unfold escape
  split_ifs with hquote hline hreturn htab hback hfeed hcontrol
  · rcases hquote with rfl | rfl <;> exact tokens?_shortEscape codes (by decide) rfl rest
  · exact hline ▸ tokens?_shortEscape codes (by decide) rfl rest
  · exact hreturn ▸ tokens?_shortEscape codes (by decide) rfl rest
  · exact htab ▸ tokens?_shortEscape codes (by decide) rfl rest
  · exact hback ▸ tokens?_shortEscape codes (by decide) rfl rest
  · exact hfeed ▸ tokens?_shortEscape codes (by decide) rfl rest
  · exact tokens?_hex codes (by omega) rest
  · rw [not_or] at hquote
    exact tokens?_of_step _ (by simp [step, hquote, hcontrol]) rest

theorem tokens?_flatMap_escape (codes : List Nat) (s rest : List Char) :
    (inText codes).tokens? (s.flatMap escape ++ rest) =
      (inText (codes ++ s.map Char.toNat)).tokens? rest := by
  induction s generalizing codes with
  | nil => simp
  | cons c s ih => simp [List.append_assoc, tokens?_escape, ih]

theorem ofCodes?_toNat (s : List Char) : ofCodes? (s.map Char.toNat) = some s := by
  induction s with
  | nil => rfl
  | cons c s ih =>
    have hcode : c.toNat < 0xD800 ∨ 0xDFFF < c.toNat := (Text.Utf8.char_range c).imp_right And.left
    unfold ofCodes?
    simp [hcode, ih]

theorem tokens?_quoted (s : String) (rest : List Char) :
    between.tokens? (quoted s ++ rest) =
      (between.tokens? rest).map (.value (.text s) :: ·) := by
  have hend : (inText (s.toList.map Char.toNat)).step '"' =
      some ([.value (.text s)], .between) := by
    simp [step, ofCodes?_toNat]
  rw [quoted, List.cons_append, List.cons_append, List.append_assoc,
    tokens?_of_step (.inText []) rfl, tokens?_flatMap_escape, List.nil_append]
  cases h : between.tokens? rest <;> simp [tokens?, hend, h]

theorem natural?_toDigits (n : Nat) : natural? (Nat.toDigits 10 n) = some n := by
  have hlead : ¬((Nat.toDigits 10 n).head? = some '0' ∧ Nat.toDigits 10 n ≠ ['0']) := by
    rintro ⟨hhead, hmore⟩
    rw [Text.eq_zero_of_head?_toDigits hhead] at hmore
    exact hmore rfl
  simp only [natural?, Nat.toDigits_ne_nil, hlead, or_self, if_false, Text.ofDigits_toDigits]

theorem tokens?_digits (s digits : List Char) (h : ∀ c ∈ digits, c.isDigit) (rest : List Char) :
    (inInteger s).tokens? (digits ++ rest) = (inInteger (s ++ digits)).tokens? rest := by
  induction digits generalizing s with
  | nil => simp
  | cons c digits ih =>
    have hc : c.isDigit := h c (by simp)
    rw [List.cons_append, tokens?_of_step (.inInteger (s ++ [c])) (by simp [step, hc]),
      ih _ fun d hd => h d (by simp [hd])]
    simp

/-- An integer ends where something begins that is no digit. -/
theorem tokens?_inInteger {s : List Char} {n : Int} (hn : integer? s = some n) {c : Char}
    (hc : c.isDigit = false) (rest : List Char) :
    (inInteger s).tokens? (c :: rest) =
      (between.tokens? (c :: rest)).map (.value (.number n) :: ·) := by
  cases hstart : start c with
  | none => simp [tokens?, step, hc, hn, hstart]
  | some next =>
    obtain ⟨tokens, r⟩ := next
    cases hrest : r.tokens? rest <;> simp [tokens?, step, hc, hn, hstart, hrest]

theorem start_of_isDigit {c : Char} (h : c.isDigit) : start c = some ([], .inInteger [c]) := by
  have hall : "0123456789".toList.all fun c => start c = some ([], .inInteger [c]) := by
    decide +kernel
  simpa using List.all_eq_true.mp hall c (Text.mem_digits_of_isDigit h)

theorem integer?_toString (n : Int) : integer? (toString n).toList = some n := by
  rw [Text.toList_toString_int]
  by_cases hneg : n < 0
  · have habs : -((n.natAbs : Int)) = n := by omega
    rw [if_pos hneg, List.singleton_append, integer?, natural?_toDigits]
    exact congrArg some habs
  · have habs : (n.natAbs : Int) = n := by omega
    have hminus : ∀ rest, Nat.toDigits 10 n.natAbs ≠ '-' :: rest := by
      intro rest h
      exact absurd (Text.isDigit_of_mem_toDigits '-' (h ▸ List.mem_cons_self ..)) (by decide)
    rw [if_neg hneg, List.nil_append, integer?, natural?_toDigits]
    · exact congrArg some habs
    · exact hminus

theorem tokens?_number (n : Int) {c : Char} (hc : c.isDigit = false) (rest : List Char) :
    between.tokens? ((toString n).toList ++ c :: rest) =
      (between.tokens? (c :: rest)).map (.value (.number n) :: ·) := by
  have hend := tokens?_inInteger (integer?_toString n) hc rest
  rw [Text.toList_toString_int] at hend ⊢
  have hdigits := Text.isDigit_of_mem_toDigits (n := n.natAbs)
  split_ifs at hend ⊢
  · rw [← hend, List.cons_append, List.nil_append, List.cons_append,
      tokens?_of_step (.inInteger ['-']) rfl, tokens?_digits _ _ hdigits]
    rfl
  · obtain ⟨d, digits, hd⟩ := List.exists_cons_of_ne_nil
      (Nat.toDigits_ne_nil (b := 10) (n := n.natAbs))
    rw [List.nil_append, hd] at hend ⊢
    rw [hd] at hdigits
    obtain ⟨hfirst, hmore⟩ := List.forall_mem_cons.mp hdigits
    have hstep : between.step d = some ([], .inInteger [d]) := start_of_isDigit hfirst
    rw [← hend, List.cons_append, tokens?_of_step _ hstep, tokens?_digits _ _ hmore]
    rfl

theorem tokens?_valueText (v : FieldValue) {c : Char} (hc : c.isDigit = false) (rest : List Char) :
    between.tokens? (valueText v ++ c :: rest) =
      (between.tokens? (c :: rest)).map (.value v :: ·) := by
  cases v with
  | text s => exact tokens?_quoted s _
  | number n => exact tokens?_number n hc rest

theorem tokens?_fieldText (f : String × FieldValue) {c : Char} (hc : c.isDigit = false)
    (rest : List Char) :
    between.tokens? (fieldText f ++ c :: rest) = (between.tokens? (c :: rest)).map
      fun more => .value (.text f.1) :: .colon :: .value f.2 :: more := by
  rw [fieldText, List.append_assoc, List.append_assoc, tokens?_quoted, List.cons_append,
    List.cons_append, List.nil_append, tokens?_mark .colon rfl,
    tokens?_of_step .between rfl, tokens?_valueText _ hc, Option.map_map, Option.map_map]
  rfl

end Reading

theorem tokens?_fields {fields : Record} (hne : fields ≠ []) :
    (Reading.between.tokens? (Text.join [',', ' '] (fields.map fieldText) ++ ['}'])).bind fields? =
      some fields := by
  induction fields with
  | nil => exact absurd rfl hne
  | cons f more ih =>
    cases more with
    | nil =>
      have hend : Reading.between.tokens? ['}'] = some [.rightBrace] := rfl
      simp [Text.join, Reading.tokens?_fieldText, hend, fields?]
    | cons g more =>
      have hmore := ih (by simp)
      rw [List.map_cons, List.map_cons, Text.join, ← List.map_cons, List.append_assoc,
        List.append_assoc, List.cons_append, List.cons_append, List.nil_append,
        Reading.tokens?_fieldText f (by decide), Reading.tokens?_mark .comma rfl,
        Reading.tokens?_of_step .between rfl]
      generalize Reading.between.tokens? _ = tokens at hmore ⊢
      cases tokens with
      | none => cases hmore
      | some tokens => simpa [fields?] using hmore

theorem ofTokens?_of_fields? {tokens : List Token} {r : Record} (h : fields? tokens = some r) :
    ofTokens? (.leftBrace :: tokens) = some r := by
  unfold ofTokens?
  split
  · next he =>
    cases he
    cases h
  · next he =>
    cases he
    exact h
  · next hne => exact absurd rfl (hne tokens)

/-- What has been written is read again, whatever the fields hold. -/
theorem read?_text (r : Record) : read? r.text = some r := by
  rw [read?, text, List.cons_append, Reading.tokens?_mark .leftBrace rfl]
  cases r with
  | nil => rfl
  | cons f more =>
    obtain ⟨tokens, htokens, hfields⟩ := Option.bind_eq_some_iff.mp
      (tokens?_fields (List.cons_ne_nil f more))
    rw [htokens]
    exact ofTokens?_of_fields? hfields

example : read? "\x7b\"a\" : \"\\u0041\\/\\uD83d\\uDE00\", \"b\":-10 \x7d".toList =
    some [("a", .text "A/😀"), ("b", .number (-10))] := by decide +kernel

theorem not_control_of_mem_hex {width n : Nat} {c : Char} (h : c ∈ Text.hex width n) :
    0x20 ≤ c.toNat := by
  have hall : ∀ d < 16, 0x20 ≤ (Nat.digitChar d).toNat := by decide
  induction width generalizing n with
  | zero => cases h
  | succ width ih =>
    rcases List.mem_append.mp h with h | h
    · exact ih h
    · rw [List.mem_singleton.mp h]
      exact hall _ (Nat.mod_lt _ (by decide))

theorem not_control_of_mem_escape {c d : Char} (h : d ∈ escape c) : 0x20 ≤ d.toNat := by
  have hpair : ∀ e : Char, 0x20 ≤ e.toNat → d ∈ ['\\', e] → 0x20 ≤ d.toNat := by
    intro e he hd
    rcases List.mem_cons.mp hd with rfl | hd
    · decide
    · exact List.mem_singleton.mp hd ▸ he
  unfold escape at h
  split_ifs at h with hquote hline hreturn htab hback hfeed hcontrol
  · refine hpair c ?_ h
    rcases hquote with rfl | rfl <;> decide
  · exact hpair 'n' (by decide) h
  · exact hpair 'r' (by decide) h
  · exact hpair 't' (by decide) h
  · exact hpair 'b' (by decide) h
  · exact hpair 'f' (by decide) h
  · simp only [List.mem_cons] at h
    rcases h with rfl | rfl | h
    · decide
    · decide
    · exact not_control_of_mem_hex h
  · rw [List.mem_singleton.mp h]
    omega

theorem not_control_of_mem_quoted {s : String} {c : Char} (h : c ∈ quoted s) : 0x20 ≤ c.toNat := by
  simp only [quoted, List.cons_append, List.mem_cons, List.mem_append, List.mem_flatMap,
    List.not_mem_nil, or_false] at h
  rcases h with rfl | ⟨d, -, h⟩ | rfl
  · decide
  · exact not_control_of_mem_escape h
  · decide

theorem not_control_of_mem_valueText {v : FieldValue} {c : Char} (h : c ∈ valueText v) :
    0x20 ≤ c.toNat := by
  cases v with
  | text s => exact not_control_of_mem_quoted h
  | number n =>
    rw [valueText, Text.toList_toString_int] at h
    rcases List.mem_append.mp h with h | h
    · split_ifs at h
      · rw [List.mem_singleton.mp h]
        decide
      · cases h
    · have hc := Text.mem_digits_of_isDigit (Text.isDigit_of_mem_toDigits c h)
      have hall : "0123456789".toList.all fun c => 0x20 ≤ c.toNat := by decide +kernel
      simpa using List.all_eq_true.mp hall c hc

theorem not_control_of_mem_fieldText {f : String × FieldValue} {c : Char} (h : c ∈ fieldText f) :
    0x20 ≤ c.toNat := by
  simp only [fieldText, List.mem_append, List.mem_cons, List.not_mem_nil, or_false] at h
  rcases h with (h | rfl | rfl) | h
  · exact not_control_of_mem_quoted h
  · decide
  · decide
  · exact not_control_of_mem_valueText h

/-- All of a record stands on one line, since no line end is left in it. -/
theorem not_control_of_mem_text {r : Record} {c : Char} (h : c ∈ r.text) : 0x20 ≤ c.toNat := by
  simp only [text, List.cons_append, List.mem_cons, List.mem_append, List.not_mem_nil, or_false] at h
  rcases h with rfl | h | rfl
  · decide
  · rcases Text.mem_of_mem_join h with h | ⟨part, hpart, h⟩
    · simp only [List.mem_cons, List.not_mem_nil, or_false] at h
      rcases h with rfl | rfl <;> decide
    · obtain ⟨f, -, rfl⟩ := List.mem_map.mp hpart
      exact not_control_of_mem_fieldText h
  · decide

end SecretSweep.Record
