import Mathlib.Tactic.SplitIfs
import SecretSweep.Proofs.Regex.Meaning
import SecretSweep.Rule.Builtin

/-!
Tokens of a fixed shape: a lead and a run of letters and digits, with no character of a word on
either side. The built-in rules for them find the whole of the leftmost token in a line.
-/

namespace SecretSweep.Rule

open Regex

section Characters

variable {c d e : Char}

theorem isDigit_iff : c.isDigit ↔ 48 ≤ c.toNat ∧ c.toNat ≤ 57 := by
  simp [Char.isDigit, UInt32.le_iff_toNat_le, ← Char.toNat_val]

theorem isUpper_iff : c.isUpper ↔ 65 ≤ c.toNat ∧ c.toNat ≤ 90 := by
  show decide (65 ≤ c.val ∧ c.val ≤ 90) ↔ _
  simp [UInt32.le_iff_toNat_le, ← Char.toNat_val]

theorem isLower_iff : c.isLower ↔ 97 ≤ c.toNat ∧ c.toNat ≤ 122 := by
  show (decide (97 ≤ c.val) && decide (c.val ≤ 122)) ↔ _
  simp [UInt32.le_iff_toNat_le, ← Char.toNat_val]

theorem isAlphanum_iff : c.isAlphanum ↔ c.isUpper ∨ c.isLower ∨ c.isDigit := by
  show (c.isUpper || c.isLower || c.isDigit) ↔ _
  simp [or_assoc]

/-- The letters and digits of ASCII are characters of words. -/
theorem isWordChar_of_isAlphanum (h : c.isAlphanum) : Text.isWordChar c := by
  have hascii : ∀ n < 128, (Char.ofNat n).isAlphanum → Text.isWordChar (Char.ofNat n) := by
    decide +kernel
  have hcode : c.toNat < 128 := by
    rw [isAlphanum_iff, isUpper_iff, isLower_iff, isDigit_iff] at h
    omega
  have hword := hascii c.toNat hcode
  rw [Char.ofNat_toNat] at hword
  exact hword h

theorem has_range : (range c d).has .exact e ↔ c.toNat ≤ e.toNat ∧ e.toNat ≤ d.toNat := by
  simp [range, SetItem.has]

theorem has_char : (char c).has .exact d ↔ d = c := by
  rw [char, has_range, ← Char.toNat_inj]
  omega

theorem has_among {items : List SetItem} :
    (among .exact items).has c ↔ ∃ item ∈ items, item.has .exact c := by
  simp [among, CharSet.has]

end Characters

/-- A shape of secrets: one of some leads, all of the same length, and a run of characters. -/
structure TokenShape where
  leads : List String
  inRun : Char → Bool
  least : Nat
  most : Option Nat
  leads_length : ∀ a ∈ leads, ∀ b ∈ leads, a.length = b.length
  leads_word : ∀ lead ∈ leads, lead.toList.head?.any Text.isWordChar
  inRun_word : ∀ c, inRun c → Text.isWordChar c
  least_pos : 0 < least

namespace TokenShape

/-- Whether a text can be the run of a token. -/
structure IsRun (s : TokenShape) (run : List Char) : Prop where
  least : s.least ≤ run.length
  most : ∀ most ∈ s.most, run.length ≤ most
  inRun : ∀ c ∈ run, s.inRun c

def IsSpelled (s : TokenShape) (token : List Char) : Prop :=
  ∃ lead ∈ s.leads, ∃ run, token = lead.toList ++ run ∧ s.IsRun run

/-- Whether a text that stands between two others is a token: a lead and a run that is taken as far
as it goes, and no part of a longer word. -/
structure IsToken (s : TokenShape) (before token after : List Char) : Prop where
  spelled : s.IsSpelled token
  longest : after.head?.any s.inRun = false
  beginsWord : before.getLast?.any Text.isWordChar = false
  endsWord : after.head?.any Text.isWordChar = false

/-- The key of a cloud account. -/
def accessKey : TokenShape where
  leads := ["AKIA", "ASIA"]
  inRun c := c.isDigit || c.isUpper
  least := 16
  most := some 16
  leads_length := by decide
  leads_word := by decide +kernel
  inRun_word c hc := by
    apply isWordChar_of_isAlphanum
    rcases Bool.or_eq_true_iff.mp hc with h | h <;> simp [isAlphanum_iff, h]
  least_pos := by decide

/-- The token of an account at a code host, of any of its five kinds. -/
def accessToken : TokenShape where
  leads := ["ghp_", "gho_", "ghu_", "ghs_", "ghr_"]
  inRun := Char.isAlphanum
  least := 36
  most := none
  leads_length := by decide
  leads_word := by decide +kernel
  inRun_word _ := isWordChar_of_isAlphanum
  least_pos := by decide

/-- The key of an account at a service. -/
def serviceKey : TokenShape where
  leads := ["sk-"]
  inRun := Char.isAlphanum
  least := 20
  most := none
  leads_length := by decide
  leads_word := by decide +kernel
  inRun_word _ := isWordChar_of_isAlphanum
  least_pos := by decide

variable {s : TokenShape} {before token after : List Char}

theorem IsRun.ne_nil {run : List Char} (h : s.IsRun run) : run ≠ [] :=
  List.ne_nil_of_length_pos (Nat.lt_of_lt_of_le s.least_pos h.least)

/-- A run is as long as the text goes on with its characters. -/
theorem IsRun.eq_takeWhile {run : List Char} (h : s.IsRun run)
    (hlongest : after.head?.any s.inRun = false) : run = (run ++ after).takeWhile s.inRun := by
  rw [List.takeWhile_append_of_pos h.inRun]
  cases after with
  | nil => simp
  | cons c rest =>
    have hc : s.inRun c = false := by simpa using hlongest
    simp [hc]

theorem IsToken.eq_of_append_eq {token' after' : List Char} (h : s.IsToken before token after)
    (h' : s.IsToken before token' after') (heq : token ++ after = token' ++ after') :
    token = token' := by
  obtain ⟨lead, hlead, run, rfl, hrun⟩ := h.spelled
  obtain ⟨lead', hlead', run', rfl, hrun'⟩ := h'.spelled
  rw [List.append_assoc, List.append_assoc] at heq
  obtain ⟨hsame, hrest⟩ := List.append_inj heq (s.leads_length lead hlead lead' hlead')
  rw [hsame, hrun.eq_takeWhile h.longest, hrest, ← hrun'.eq_takeWhile h'.longest]

theorem IsSpelled.head?_append (h : s.IsSpelled token) (after : List Char) :
    (token ++ after).head?.any Text.isWordChar := by
  obtain ⟨lead, hlead, run, rfl, -⟩ := h
  obtain ⟨c, hc, hword⟩ := (Option.any_eq_true _ _).mp (s.leads_word lead hlead)
  simp [List.append_assoc, List.head?_append, hc, hword]

theorem IsSpelled.getLast?_append (h : s.IsSpelled token) (before : List Char) :
    (before ++ token).getLast?.any Text.isWordChar := by
  obtain ⟨lead, -, run, rfl, hrun⟩ := h
  have hne := hrun.ne_nil
  have hword := s.inRun_word _ (hrun.inRun _ (List.getLast_mem hne))
  simp [← List.append_assoc, List.getLast?_append, List.getLast?_eq_some_getLast hne, hword]

/-- What is no character of a word goes on no run. -/
theorem any_inRun (h : after.head?.any Text.isWordChar = false) :
    after.head?.any s.inRun = false := by
  cases after with
  | nil => rfl
  | cons c rest =>
    have hc : Text.isWordChar c = false := h
    have hnot := mt (s.inRun_word c) (by simp [hc])
    simpa using hnot

theorem atWordEdge_eq (before after : List Char) :
    atWordEdge false ⟨before.reverse, after, []⟩ =
      (before.getLast?.any Text.isWordChar != after.head?.any Text.isWordChar) := by
  rw [atWordEdge, List.head?_reverse]
  rfl

/-- Between two edges of words, what is spelled as a token is one. -/
theorem matches_delimited_iff {body : Expr}
    (hbody : ∀ before text after, body.Matches before text after ↔ s.IsSpelled text) :
    (delimited body).Matches before token after ↔ s.IsToken before token after := by
  have hdelimited : (delimited body).Matches before token after ↔
      atWordEdge false ⟨before.reverse, token ++ after, []⟩ ∧ s.IsSpelled token ∧
        atWordEdge false ⟨(before ++ token).reverse, after, []⟩ := by
    simp only [delimited, Expr.ofList, Expr.matches_seq_iff, Expr.matches_group_iff, hbody,
      Expr.matches_anchor_iff, Anchor.holds]
    constructor
    · rintro ⟨_, _, rfl, ⟨rfl, hbegins⟩, token, _, rfl, hspelled, rfl, hends⟩
      simp only [List.append_nil, List.nil_append] at *
      exact ⟨hbegins, hspelled, hends⟩
    · rintro ⟨hbegins, hspelled, hends⟩
      refine ⟨[], token, rfl, ⟨rfl, hbegins⟩, token, [], by simp, hspelled, rfl, ?_⟩
      simpa using hends
  rw [hdelimited, atWordEdge_eq, atWordEdge_eq]
  constructor
  · rintro ⟨hbegins, hspelled, hends⟩
    rw [hspelled.head?_append, Bool.bne_true, Bool.not_eq_true'] at hbegins
    rw [hspelled.getLast?_append, Bool.true_bne, Bool.not_eq_true'] at hends
    exact ⟨hspelled, any_inRun hends, hbegins, hends⟩
  · intro h
    rw [h.spelled.head?_append, h.spelled.getLast?_append, h.beginsWord, h.endsWord]
    exact ⟨rfl, h.spelled, rfl⟩

end TokenShape

section Spelling

variable {before text after : List Char}

theorem matches_code_iff {c : Char} :
    (Expr.one (.ofCode .exact c.toNat)).Matches before text after ↔ text = [c] := by
  simp [Expr.matches_one_iff, has_ofCode_exact]

/-- An expression that begins with the characters of a text. -/
theorem matches_spelled_iff {word : String} {rest : List Expr} :
    (Expr.ofList (spelled .exact word rest)).Matches before text after ↔
      ∃ more, text = word.toList ++ more ∧
        (Expr.ofList rest).Matches (before ++ word.toList) more after := by
  unfold spelled
  induction word.toList generalizing before text with
  | nil => simp
  | cons c word ih =>
    rw [List.map_cons, List.cons_append, Expr.matches_ofList_cons_iff, Expr.matches_seq_iff]
    simp only [matches_code_iff, ih]
    constructor
    · rintro ⟨_, _, rfl, rfl, more, rfl, hmore⟩
      exact ⟨more, rfl, by simpa using hmore⟩
    · rintro ⟨more, rfl, hmore⟩
      exact ⟨[c], word ++ more, rfl, rfl, more, rfl, by simpa using hmore⟩

theorem matches_literal_iff {word : String} :
    (Expr.literal .exact word).Matches before text after ↔ text = word.toList := by
  have h := @matches_spelled_iff before text after word []
  rw [spelled, List.append_nil] at h
  rw [Expr.literal, h]
  simp [Expr.ofList, Expr.matches_empty_iff]

end Spelling

/-- Whether the one built-in rule of this name finds something in a line just if a token of the
shape is in it, and then the whole of the leftmost one. The rule's expression is what its text
stands for. -/
def FindsTokens (name : String) (s : TokenShape) : Prop :=
  ∃ source expr, builtinRules.filter (·.name == name) = [forLines name source expr] ∧
    Expr.read .none source = .ok expr ∧
    ∀ line, (((forLines name source expr).findIn line).isSome ↔ OccursIn s.IsToken line.toList) ∧
      ∀ found, (forLines name source expr).findIn line = some found ↔
        IsLeftmost s.IsToken line.toList found.toList

theorem findsTokens_of_delimited {name source : String} {body : Expr} {s : TokenShape}
    (hrule : builtinRules.filter (·.name == name) = [forLines name source (delimited body)])
    (hread : Expr.read .none source = .ok (delimited body)) (hplain : body.isPlain)
    (hbody : ∀ before text after, body.Matches before text after ↔ s.IsSpelled text) :
    FindsTokens name s := by
  have hmatches : (delimited body).Matches = s.IsToken := by
    funext before token after
    exact propext (TokenShape.matches_delimited_iff hbody)
  have hplain : (delimited body).isPlain := by
    simpa [delimited, Expr.ofList, Expr.isPlain] using hplain
  refine ⟨source, delimited body, hrule, hread, fun line => ⟨?_, fun found => ?_⟩⟩
  · rw [← hmatches]
    exact Expr.search_isSome_iff_occursIn hplain
  · rw [← hmatches]
    refine Expr.search_eq_some_iff_isLeftmost hplain ?_
    rw [hmatches]
    intro before text after text' after' heq h h'
    exact h.eq_of_append_eq h' heq

theorem has_digitsCapitals (c : Char) :
    (among .exact [digits, capitals]).has c ↔ TokenShape.accessKey.inRun c := by
  simp [has_among, digits, capitals, has_range, TokenShape.accessKey, isDigit_iff, isUpper_iff]

theorem has_lettersDigits {items : List SetItem} (hitems : items.Perm [capitals, smalls, digits])
    (c : Char) : (among .exact items).has c ↔ c.isAlphanum := by
  simp [has_among, hitems.mem_iff, digits, capitals, smalls, has_range, isAlphanum_iff, isDigit_iff,
    isUpper_iff, isLower_iff]

section Bodies

variable {before text after : List Char}

theorem matches_run_iff {s : TokenShape} {set : CharSet} (hset : ∀ c, set.has c ↔ s.inRun c) :
    (Expr.many set s.least s.most .greedy).Matches before text after ↔ s.IsRun text := by
  simp only [Expr.matches_many_iff, hset]
  exact ⟨fun ⟨hleast, hmost, hin⟩ => ⟨hleast, hmost, hin⟩, fun h => ⟨h.least, h.most, h.inRun⟩⟩

theorem findsTokens_accessKey : FindsTokens "aws_access_key" .accessKey := by
  refine findsTokens_of_delimited rfl rfl rfl fun before text after => ?_
  have hrun : ∀ before run,
      (Expr.many (among .exact [digits, capitals]) 16 (some 16) .greedy).Matches before run after ↔
        TokenShape.accessKey.IsRun run := fun _ _ => matches_run_iff has_digitsCapitals
  simp only [Expr.matches_seq_iff, Expr.matches_alt_iff, matches_literal_iff, hrun]
  constructor
  · rintro ⟨_, run, rfl, rfl | rfl, hin⟩
    · exact ⟨"AKIA", by decide, run, rfl, hin⟩
    · exact ⟨"ASIA", by decide, run, rfl, hin⟩
  · rintro ⟨lead, hlead, run, rfl, hin⟩
    refine ⟨lead.toList, run, rfl, ?_, hin⟩
    revert lead
    decide

theorem findsTokens_accessToken : FindsTokens "github_token" .accessToken := by
  refine findsTokens_of_delimited rfl rfl rfl fun before text after => ?_
  have hrun : ∀ before run,
      (Expr.many (among .exact [capitals, smalls, digits]) 36 none .greedy).Matches before run
        after ↔ TokenShape.accessToken.IsRun run :=
    fun _ _ => matches_run_iff (s := .accessToken) (has_lettersDigits (.refl _))
  have hkind : ∀ c, (among .exact [char 'p', char 'o', char 'u', char 's', char 'r']).has c ↔
      c ∈ ['p', 'o', 'u', 's', 'r'] := by
    simp [has_among, has_char]
  have hleads : TokenShape.accessToken.leads =
      ['p', 'o', 'u', 's', 'r'].map fun c => String.ofList ['g', 'h', c, '_'] := by decide
  simp only [matches_spelled_iff, Expr.ofList, Expr.matches_seq_iff, Expr.matches_one_iff, hkind,
    has_ofCode_exact, beq_iff_eq, hrun]
  constructor
  · rintro ⟨_, rfl, _, _, rfl, ⟨c, rfl, hc⟩, _, run, rfl, ⟨_, rfl, rfl⟩, hin⟩
    refine ⟨String.ofList ['g', 'h', c, '_'], ?_, run, by simp, hin⟩
    rw [hleads]
    exact List.mem_map_of_mem hc
  · rintro ⟨lead, hlead, run, rfl, hin⟩
    rw [hleads] at hlead
    obtain ⟨c, hc, rfl⟩ := List.mem_map.mp hlead
    exact ⟨[c, '_'] ++ run, by simp, [c], ['_'] ++ run, rfl, ⟨c, rfl, hc⟩, ['_'], run, rfl,
      ⟨'_', rfl, rfl⟩, hin⟩

theorem findsTokens_serviceKey : FindsTokens "openai_api_key" .serviceKey := by
  refine findsTokens_of_delimited rfl rfl rfl fun before text after => ?_
  have hrun : ∀ before run,
      (Expr.many (among .exact [smalls, capitals, digits]) 20 none .greedy).Matches before run
        after ↔ TokenShape.serviceKey.IsRun run :=
    fun _ _ => matches_run_iff (s := .serviceKey) (has_lettersDigits (.swap ..))
  simp only [matches_spelled_iff, Expr.ofList, hrun]
  constructor
  · rintro ⟨run, rfl, hin⟩
    exact ⟨"sk-", by decide, run, rfl, hin⟩
  · rintro ⟨lead, hlead, run, rfl, hin⟩
    obtain rfl := List.mem_singleton.mp hlead
    exact ⟨run, rfl, hin⟩

end Bodies

/-- The built-in rules for tokens of a fixed shape find exactly the delimited tokens. -/
theorem builtinRules_findsTokens :
    FindsTokens "aws_access_key" .accessKey ∧ FindsTokens "github_token" .accessToken ∧
      FindsTokens "openai_api_key" .serviceKey :=
  ⟨findsTokens_accessKey, findsTokens_accessToken, findsTokens_serviceKey⟩

example : awsAccessKey.search "AKIA0123456789ABCDEFG AKIA0123456789ABCDEF_ ASIA0123456789ABCDEF;" =
    some "ASIA0123456789ABCDEF" := by decide +kernel

end SecretSweep.Rule
