import Mathlib.Algebra.Group.Nat.Defs
import SecretSweep.Proofs.Text.Lines
import SecretSweep.Text.Numeral

/-!
Decimal digits: a number that has been written in them is read again, unless there are too many.
-/

namespace SecretSweep.Text

/-- The ten digits of ASCII, for which what is said of digits can be looked up. -/
theorem mem_digits_of_isDigit {c : Char} (h : c.isDigit) : c ∈ "0123456789".toList := by
  have hall : ∀ n ≤ 57, 48 ≤ n → Char.ofNat n ∈ "0123456789".toList := by decide
  have hrange : 48 ≤ c.toNat ∧ c.toNat ≤ 57 := by
    simpa [Char.isDigit, Char.le_def, UInt32.le_iff_toNat_le] using h
  rw [← Char.ofNat_toNat c]
  exact hall c.toNat hrange.2 hrange.1

theorem isDecimal_of_isDigit {c : Char} (h : c.isDigit) : isDecimal c := by
  have hall : "0123456789".toList.all isDecimal := by decide +kernel
  exact List.all_eq_true.mp hall c (mem_digits_of_isDigit h)

/-- The decimal digits of all scripts are no blanks. -/
theorem isNumeralBlank_of_isDecimal {c : Char} (h : isDecimal c) : isNumeralBlank c = false := by
  have hapart : ∀ d ∈ Table.decimal, ∀ b ∈ blanks, d.2 < b.1 ∨ b.2 < d.1 := by decide +kernel
  cases hb : isBlank c with
  | false => simp [isNumeralBlank, hb]
  | true =>
    obtain ⟨d, hd, hlo, hhi⟩ := CodeRanges.exists_of_has h
    obtain ⟨b, hmem, hblo, hbhi⟩ := CodeRanges.exists_of_has hb
    have := hapart d hd b hmem
    omega

/-- The number that decimal digits of any script stand for. -/
def decimalValue (digits : List Char) : Nat :=
  ofDigits 10 (digits.map fun c => (digitValue? c).getD 0)

theorem numeralDigit?_of_isDecimal {c : Char} (h : isDecimal c) :
    numeralDigit? c = some ((digitValue? c).getD 0) ∧ (digitValue? c).getD 0 < 10 := by
  obtain ⟨r, hr, hlo, hhi⟩ := CodeRanges.exists_of_has h
  have hfound : (Table.decimal.find? fun r => r.1 ≤ c.toNat && c.toNat ≤ r.2).isSome := by
    rw [List.find?_isSome]
    exact ⟨r, hr, by simp [hlo, hhi]⟩
  obtain ⟨found, hfound⟩ := Option.isSome_iff_exists.mp hfound
  simp [numeralDigit?, digitValue?, hfound, Nat.mod_lt]

theorem digitsFrom?_of_isDecimal {s : List Char} (h : ∀ c ∈ s, isDecimal c) (afterDigit : Bool)
    (hne : afterDigit ∨ s ≠ []) :
    digitsFrom? 10 afterDigit s = some (s.map fun c => (digitValue? c).getD 0) := by
  induction s generalizing afterDigit with
  | nil => simpa [digitsFrom?] using hne
  | cons c rest ih =>
    have hc : isDecimal c := h c (by simp)
    have hlow : c ≠ '_' := by
      rintro rfl
      exact absurd hc (by decide +kernel)
    obtain ⟨hd, hlt⟩ := numeralDigit?_of_isDecimal hc
    have hrest := ih (fun x hx => h x (by simp [hx])) true (.inl rfl)
    simp [digitsFrom?, hlow, hd, hlt, hrest]

theorem numeralDigit?_of_isDigit {c : Char} (h : c.isDigit) :
    numeralDigit? c = some (c.toNat - 48) ∧ c.toNat - 48 < 10 := by
  have hall : "0123456789".toList.all fun c =>
      numeralDigit? c = some (c.toNat - 48) ∧ c.toNat - 48 < 10 := by decide +kernel
  simpa using List.all_eq_true.mp hall c (mem_digits_of_isDigit h)

theorem digitsFrom?_of_isDigit {s : List Char} (h : ∀ c ∈ s, c.isDigit) (afterDigit : Bool)
    (hne : afterDigit ∨ s ≠ []) :
    digitsFrom? 10 afterDigit s = some (s.map fun c => c.toNat - 48) := by
  induction s generalizing afterDigit with
  | nil => simpa [digitsFrom?] using hne
  | cons c rest ih =>
    have hc : c.isDigit := h c (by simp)
    have hlow : c ≠ '_' := by
      rintro rfl
      exact absurd hc (by decide)
    obtain ⟨hd, hlt⟩ := numeralDigit?_of_isDigit hc
    simp [digitsFrom?, hlow, hd, hlt, ih (fun x hx => h x (by simp [hx])) true (.inl rfl)]

theorem isDigit_of_mem_toDigits {n : Nat} : ∀ c ∈ Nat.toDigits 10 n, c.isDigit := fun _ hc =>
  Nat.isDigit_of_mem_toDigits (by decide) (by decide) hc

theorem eq_zero_of_head?_toDigits {n : Nat} (h : (Nat.toDigits 10 n).head? = some '0') :
    n = 0 := by
  induction n using Nat.strong_induction_on with
  | _ n ih =>
    rcases Nat.lt_or_ge n 10 with hlt | hge
    · have hall : ∀ d < 10, [Nat.digitChar d].head? = some '0' → d = 0 := by decide
      rw [Nat.toDigits_of_lt_base hlt] at h
      exact hall n hlt h
    · have hfront : (Nat.toDigits 10 (n / 10)).head? = some '0' := by
        rw [Nat.toDigits_of_base_le (by decide) hge] at h
        obtain ⟨d, digits, hd⟩ := List.exists_cons_of_ne_nil
          (Nat.toDigits_ne_nil (b := 10) (n := n / 10))
        simpa [hd] using h
      have := ih (n / 10) (by omega) hfront
      omega

theorem toList_toString_int (n : Int) : (toString n).toList =
    (if n < 0 then ['-'] else []) ++ Nat.toDigits 10 n.natAbs := by
  rw [Int.toString_eq_repr, Int.repr_eq_if]
  by_cases hneg : n < 0
  · have habs : (-n).toNat = n.natAbs := by omega
    simp [hneg, Int.not_le.mpr hneg, habs, Nat.repr_eq_ofList_toDigits]
  · have habs : n.toNat = n.natAbs := by omega
    simp [hneg, Int.not_lt.mp hneg, habs, Nat.repr_eq_ofList_toDigits]

theorem ofDigits_toDigits (n : Nat) :
    ofDigits 10 ((Nat.toDigits 10 n).map fun c => c.toNat - 48) = n := by
  have h := Nat.ofDigitChars_ten_toDigits (n := n)
  rw [Nat.ofDigitChars_eq_foldl] at h
  simpa [ofDigits, List.foldl_map, Nat.mul_comm] using h

theorem dropBaseLead_ten (s : List Char) : dropBaseLead 10 s = s := by
  simp only [dropBaseLead, Nat.reduceEqDiff, if_false, List.contains_nil]
  split <;> simp

theorem signed_stripBoth_of_isDecimal {s : List Char} (h : ∀ c ∈ s, isDecimal c) :
    signed (stripBoth isNumeralBlank s) = (false, s) := by
  rw [stripBoth_of_all_false fun c hc => isNumeralBlank_of_isDecimal (h c hc)]
  unfold signed
  split
  · exact absurd (h '-' (by simp)) (by decide +kernel)
  · exact absurd (h '+' (by simp)) (by decide +kernel)
  · rfl

/-- Digits are read as the number they stand for, unless there are too many of them. -/
theorem readInteger_of_isDecimal {s : List Char} (h : ∀ c ∈ s, isDecimal c) (hne : s ≠ []) :
    readInteger 10 s = if maxDecimalDigits < s.length then .error (.tooLong s.length)
      else .ok (decimalValue s : Int) := by
  have hread : digitsOf? 10 s = some (s.map fun c => (digitValue? c).getD 0) :=
    digitsFrom?_of_isDecimal h false (.inr hne)
  simp only [readInteger, signed_stripBoth_of_isDecimal h, dropBaseLead_ten, hread]
  simp [decimalValue]

theorem readInteger_eq_tooLong_iff {s : List Char} (h : ∀ c ∈ s, isDecimal c) (hne : s ≠ []) :
    (∃ n, readInteger 10 s = .error (.tooLong n)) ↔ maxDecimalDigits < s.length := by
  rw [readInteger_of_isDecimal h hne]
  by_cases hlong : maxDecimalDigits < s.length <;> simp [hlong]

/-- What is written in digits is read, as long as there are not too many of them. -/
theorem readInteger_toDigits (n : Nat) :
    readInteger 10 (Nat.toDigits 10 n) =
      if n < 10 ^ maxDecimalDigits then .ok (n : Int)
      else .error (.tooLong (Nat.toDigits 10 n).length) := by
  have hdigit : ∀ c ∈ Nat.toDigits 10 n, c.isDigit := isDigit_of_mem_toDigits
  have hne : Nat.toDigits 10 n ≠ [] := Nat.toDigits_ne_nil
  have hread : digitsOf? 10 (Nat.toDigits 10 n) =
      some ((Nat.toDigits 10 n).map fun c => c.toNat - 48) :=
    digitsFrom?_of_isDigit hdigit false (.inr hne)
  have hlong : maxDecimalDigits < (Nat.toDigits 10 n).length ↔ ¬ n < 10 ^ maxDecimalDigits := by
    rw [← Nat.length_toDigits_le_iff (by decide) (by decide), Nat.not_le]
  have hsigned := signed_stripBoth_of_isDecimal fun c hc => isDecimal_of_isDigit (hdigit c hc)
  simp only [readInteger, hsigned, dropBaseLead_ten, hread,
    List.length_map, ofDigits_toDigits, hlong]
  by_cases h : n < 10 ^ maxDecimalDigits <;> simp [h]

end SecretSweep.Text
