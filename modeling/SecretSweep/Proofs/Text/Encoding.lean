import Mathlib.Tactic.SplitIfs
import SecretSweep.Text.Utf8

/-!
Decoding undoes encoding: the bytes of a text hold no faulty part, and each character is found again
with all of its bytes.
-/

namespace SecretSweep.Text.Utf8

theorem char_range (c : Char) : c.toNat < 0xD800 ∨ (0xDFFF < c.toNat ∧ c.toNat < 0x110000) := by
  have h := c.valid
  simp only [UInt32.isValidChar, Nat.isValidChar] at h
  exact h

theorem toNat_toUInt8 {n : Nat} (h : n < 256) : n.toUInt8.toNat = n := by
  simpa using h

theorem lead?_two {n : Nat} (hlow : 0x80 ≤ n) (hhigh : n < 0x800) :
    lead? (0xC0 + n / 0x40) = some ⟨1, 0x80, 0xBF, n / 0x40⟩ := by
  have he : 0xC0 + n / 0x40 - 0xC0 = n / 0x40 := by omega
  unfold lead?
  rw [if_neg (by omega), if_neg (by omega), if_pos (by omega), he]

/-- Two first bytes of three narrow the second byte: one keeps out short numbers, the other one
surrogates. -/
theorem lead?_three {n : Nat} (hlow : 0x800 ≤ n) (hhigh : n < 0x10000)
    (hs : n < 0xD800 ∨ 0xDFFF < n) :
    ∃ low high, lead? (0xE0 + n / 0x1000) = some ⟨2, low, high, n / 0x1000⟩ ∧
      low ≤ 0x80 + n / 0x40 % 0x40 ∧ 0x80 + n / 0x40 % 0x40 ≤ high := by
  have he : 0xE0 + n / 0x1000 - 0xE0 = n / 0x1000 := by omega
  unfold lead?
  rw [if_neg (by omega), if_neg (by omega), if_neg (by omega)]
  split_ifs with h0 hD hF
  · have hz : n / 0x1000 = 0 := by omega
    exact ⟨_, _, by rw [hz], by omega, by omega⟩
  · have hd : n / 0x1000 = 0xD := by omega
    exact ⟨_, _, by rw [hd], by omega, by omega⟩
  · exact ⟨_, _, by rw [he], by omega, by omega⟩
  all_goals omega

/-- Two first bytes of four narrow the second byte to the numbers that are left. -/
theorem lead?_four {n : Nat} (hlow : 0x10000 ≤ n) (hhigh : n < 0x110000) :
    ∃ low high, lead? (0xF0 + n / 0x40000) = some ⟨3, low, high, n / 0x40000⟩ ∧
      low ≤ 0x80 + n / 0x1000 % 0x40 ∧ 0x80 + n / 0x1000 % 0x40 ≤ high := by
  have he : 0xF0 + n / 0x40000 - 0xF0 = n / 0x40000 := by omega
  unfold lead?
  rw [if_neg (by omega), if_neg (by omega), if_neg (by omega), if_neg (by omega),
    if_neg (by omega), if_neg (by omega)]
  split_ifs with h0 h4 hF
  · have hz : n / 0x40000 = 0 := by omega
    exact ⟨_, _, by rw [hz], by omega, by omega⟩
  · exact ⟨_, _, by rw [he], by omega, by omega⟩
  · have hf : n / 0x40000 = 4 := by omega
    exact ⟨_, _, by rw [hf], by omega, by omega⟩
  · omega

theorem readMore_cons {more low high payload size : Nat} {b : UInt8} (rest : List UInt8)
    (hl : low ≤ b.toNat) (hh : b.toNat ≤ high) :
    readMore (more + 1) low high payload size (b :: rest) =
      readMore more 0x80 0xBF (payload * 0x40 + b.toNat % 0x40) (size + 1) rest := by
  simp [readMore, hl, hh]

theorem piece_encodeChar (c : Char) (rest : List UInt8) :
    ∃ b bs, encodeChar c = b :: bs ∧ piece b (bs ++ rest) = .char c (bs.length + 1) := by
  have hc := char_range c
  have hchar : Char.ofNat c.toNat = c := Char.ofNat_toNat c
  unfold encodeChar
  generalize c.toNat = n at hc hchar
  dsimp only
  split_ifs with h1 h2 h3
  · have hb := toNat_toUInt8 (n := n) (by omega)
    exact ⟨_, [], rfl, by simp [piece, hb, lead?, h1, readMore, hchar]⟩
  · have hb := toNat_toUInt8 (n := 0xC0 + n / 0x40) (by omega)
    have hb₁ := toNat_toUInt8 (n := 0x80 + n % 0x40) (by omega)
    have hlead := lead?_two (by omega) h2
    have he : n / 0x40 * 0x40 + (0x80 + n % 0x40) % 0x40 = n := by omega
    refine ⟨_, _, rfl, ?_⟩
    simp only [piece, hb, hlead, List.cons_append, List.nil_append]
    rw [readMore_cons _ (by omega) (by omega), hb₁, he, readMore, hchar]
    rfl
  · have hb := toNat_toUInt8 (n := 0xE0 + n / 0x1000) (by omega)
    have hb₁ := toNat_toUInt8 (n := 0x80 + n / 0x40 % 0x40) (by omega)
    have hb₂ := toNat_toUInt8 (n := 0x80 + n % 0x40) (by omega)
    obtain ⟨low, high, hlead, hl, hh⟩ := lead?_three (by omega) h3 (by omega)
    have he : (n / 0x1000 * 0x40 + (0x80 + n / 0x40 % 0x40) % 0x40) * 0x40
        + (0x80 + n % 0x40) % 0x40 = n := by omega
    refine ⟨_, _, rfl, ?_⟩
    simp only [piece, hb, hlead, List.cons_append, List.nil_append]
    rw [readMore_cons _ (by omega) (by omega), hb₁, readMore_cons _ (by omega) (by omega), hb₂, he,
      readMore, hchar]
    rfl
  · have hb := toNat_toUInt8 (n := 0xF0 + n / 0x40000) (by omega)
    have hb₁ := toNat_toUInt8 (n := 0x80 + n / 0x1000 % 0x40) (by omega)
    have hb₂ := toNat_toUInt8 (n := 0x80 + n / 0x40 % 0x40) (by omega)
    have hb₃ := toNat_toUInt8 (n := 0x80 + n % 0x40) (by omega)
    obtain ⟨low, high, hlead, hl, hh⟩ := lead?_four (n := n) (by omega) (by omega)
    have he : ((n / 0x40000 * 0x40 + (0x80 + n / 0x1000 % 0x40) % 0x40) * 0x40
        + (0x80 + n / 0x40 % 0x40) % 0x40) * 0x40 + (0x80 + n % 0x40) % 0x40 = n := by omega
    refine ⟨_, _, rfl, ?_⟩
    simp only [piece, hb, hlead, List.cons_append, List.nil_append]
    rw [readMore_cons _ (by omega) (by omega), hb₁, readMore_cons _ (by omega) (by omega), hb₂,
      readMore_cons _ (by omega) (by omega), hb₃, he, readMore, hchar]
    rfl

theorem pieces_encodeChar (c : Char) (rest : List UInt8) :
    pieces (encodeChar c ++ rest) = .char c (encodeChar c).length :: pieces rest := by
  obtain ⟨b, bs, he, hp⟩ := piece_encodeChar c rest
  rw [he, List.cons_append, pieces, hp]
  simp [Piece.size]

theorem decodeReplacing_encode_append (s : List Char) (rest : List UInt8) :
    decodeReplacing (encode s ++ rest) = s ++ decodeReplacing rest := by
  induction s with
  | nil => rfl
  | cons c s ih =>
    unfold decodeReplacing encode at *
    rw [List.flatMap_cons, List.append_assoc, pieces_encodeChar, List.map_cons, ih]
    rfl

theorem decodeReplacing_encode (s : List Char) : decodeReplacing (encode s) = s := by
  have h := decodeReplacing_encode_append s []
  rw [List.append_nil] at h
  rw [h]
  simp [decodeReplacing, pieces]

end SecretSweep.Text.Utf8
