import SecretSweep.Regex.Match

/-!
What searching finds: the match that begins furthest left, of those that begin there the one that is
tried first. For an expression of one character that can be said in a word.
-/

namespace SecretSweep.Regex

namespace Expr

/-- Where a match ends that begins between the two parts of a text. -/
def matchAt? (e : Expr) (before rest : List Char) : Option Place :=
  e.tryAt some ⟨before.reverse, rest, []⟩

/-- Whether an expression matches somewhere in a text. -/
def MatchesIn (e : Expr) (text : List Char) : Prop :=
  ∃ before rest, text = before ++ rest ∧ (e.matchAt? before rest).isSome

/-- Whether a text is the first match in another one: that which begins furthest left. -/
def IsFirstMatch (e : Expr) (text found : List Char) : Prop :=
  ∃ before rest last, text = before ++ rest ∧ e.matchAt? before rest = some last ∧
    found = rest.take (rest.length - last.rest.length) ∧
    ∀ before' rest', text = before' ++ rest' → before'.length < before.length →
      e.matchAt? before' rest' = none

variable {e : Expr}

theorem searchFrom_of_match {before rest : List Char} {last : Place}
    (h : e.matchAt? before rest = some last) :
    e.searchFrom before.reverse rest = some (rest.take (rest.length - last.rest.length)) := by
  unfold matchAt? at h
  cases rest <;> simp [searchFrom, h]

theorem searchFrom_of_no_match {before : List Char} {c : Char} {rest : List Char}
    (h : e.matchAt? before (c :: rest) = none) :
    e.searchFrom before.reverse (c :: rest) = e.searchFrom (before ++ [c]).reverse rest := by
  unfold matchAt? at h
  simp [searchFrom, h]

/-- Where nothing matches up to some place, searching begins there. -/
theorem searchFrom_append (before : List Char) {front rest : List Char}
    (h : ∀ front' back, front = front' ++ back → back ≠ [] →
      e.matchAt? (before ++ front') (back ++ rest) = none) :
    e.searchFrom before.reverse (front ++ rest) = e.searchFrom (before ++ front).reverse rest := by
  induction front generalizing before with
  | nil => simp
  | cons c front ih =>
    have hhere : e.matchAt? before (c :: (front ++ rest)) = none := by
      simpa using h [] (c :: front) rfl (by simp)
    have hmore : ∀ front' back, front = front' ++ back → back ≠ [] →
        e.matchAt? (before ++ [c] ++ front') (back ++ rest) = none := by
      intro front' back hfront hback
      have hlater := h (c :: front') back (by rw [hfront, List.cons_append]) hback
      rwa [List.append_cons] at hlater
    rw [List.cons_append, searchFrom_of_no_match hhere, ih _ hmore, List.append_assoc,
      List.singleton_append]

/-- A place where an expression matches, if there is one, can be taken as far left as possible. -/
theorem MatchesIn.exists_isFirstMatch {text : List Char} (h : e.MatchesIn text) :
    ∃ found, e.IsFirstMatch text found := by
  obtain ⟨before, rest, htext, hmatch⟩ := h
  induction hn : before.length using Nat.strongRecOn generalizing before rest with
  | _ n ih =>
    by_cases hleft : ∃ before' rest', text = before' ++ rest' ∧ before'.length < n ∧
        (e.matchAt? before' rest').isSome
    · obtain ⟨before', rest', htext', hlt, hmatch'⟩ := hleft
      exact ih before'.length hlt before' rest' htext' hmatch' rfl
    · obtain ⟨last, hlast⟩ := Option.isSome_iff_exists.mp hmatch
      refine ⟨_, before, rest, last, htext, hlast, rfl, fun before' rest' htext' hlt => ?_⟩
      rw [← Option.not_isSome_iff_eq_none]
      exact fun hmatch' => hleft ⟨before', rest', htext', hn ▸ hlt, hmatch'⟩

theorem IsFirstMatch.matchesIn {text found : List Char} (h : e.IsFirstMatch text found) :
    e.MatchesIn text := by
  obtain ⟨before, rest, last, htext, hlast, -⟩ := h
  exact ⟨before, rest, htext, by rw [hlast]; rfl⟩

theorem IsFirstMatch.searchFrom_eq {text found : List Char} (h : e.IsFirstMatch text found) :
    e.searchFrom [] text = some found := by
  obtain ⟨before, rest, last, rfl, hlast, rfl, hleft⟩ := h
  have hskip : e.searchFrom [] (before ++ rest) = e.searchFrom before.reverse rest := by
    refine searchFrom_append [] fun front back hfront hback => ?_
    refine hleft _ _ (by rw [hfront]; simp) ?_
    have hpos := List.length_pos_iff.mpr hback
    simp only [hfront, List.nil_append, List.length_append]
    omega
  rw [hskip, searchFrom_of_match hlast]

/-- Where nothing matches, nothing is found. -/
theorem searchFrom_of_not_matchesIn {text : List Char} (h : ¬ e.MatchesIn text) :
    e.searchFrom [] text = none := by
  have hnone : ∀ before rest, text = before ++ rest → e.matchAt? before rest = none :=
    fun before rest htext =>
      Option.not_isSome_iff_eq_none.mp fun hmatch => h ⟨before, rest, htext, hmatch⟩
  have hskip : e.searchFrom [] (text ++ []) = e.searchFrom text.reverse [] :=
    searchFrom_append [] fun front back hfront _ =>
      hnone _ _ (by rw [hfront]; simp)
  have hend := hnone text [] (List.append_nil text).symm
  rw [List.append_nil] at hskip
  unfold matchAt? at hend
  rw [hskip, searchFrom, hend]
  rfl

/-- Searching finds the first match, and nothing only if there is none. -/
theorem searchFrom_eq_some_iff {text found : List Char} :
    e.searchFrom [] text = some found ↔ e.IsFirstMatch text found := by
  refine ⟨fun h => ?_, IsFirstMatch.searchFrom_eq⟩
  by_cases hmatches : e.MatchesIn text
  · obtain ⟨first, hfirst⟩ := hmatches.exists_isFirstMatch
    have hfound := hfirst.searchFrom_eq
    rw [h] at hfound
    exact Option.some.inj hfound ▸ hfirst
  · rw [searchFrom_of_not_matchesIn hmatches] at h
    cases h

theorem searchFrom_isSome_iff {text : List Char} :
    (e.searchFrom [] text).isSome ↔ e.MatchesIn text := by
  rw [Option.isSome_iff_exists]
  constructor
  · rintro ⟨found, hfound⟩
    exact (searchFrom_eq_some_iff.mp hfound).matchesIn
  · intro hmatches
    obtain ⟨found, hfound⟩ := hmatches.exists_isFirstMatch
    exact ⟨found, hfound.searchFrom_eq⟩

theorem search_eq_some_iff {text found : String} :
    e.search text = some found ↔ e.IsFirstMatch text.toList found.toList := by
  rw [← searchFrom_eq_some_iff, search, Option.map_eq_some_iff]
  constructor
  · rintro ⟨chars, hchars, rfl⟩
    rw [hchars, String.toList_ofList]
  · exact fun h => ⟨_, h, String.ofList_toList⟩

theorem search_isSome_iff {text : String} : (e.search text).isSome ↔ e.MatchesIn text.toList := by
  rw [search, Option.isSome_map, searchFrom_isSome_iff]

end Expr

theorem has_ofCode_exact (c d : Char) : (CharSet.ofCode .exact c.toNat).has d = (d == c) := by
  have heq : (c.toNat ≤ d.toNat ∧ d.toNat ≤ c.toNat) ↔ d = c := by
    constructor
    · rintro ⟨hlow, hhigh⟩
      exact Char.toNat_inj.mp (Nat.le_antisymm hhigh hlow)
    · rintro rfl
      exact ⟨Nat.le_refl _, Nat.le_refl _⟩
  rw [Bool.eq_iff_iff, beq_iff_eq, ← heq]
  simp [CharSet.ofCode, CharSet.has, SetItem.has]

theorem searchFrom_one (c : Char) (before text : List Char) :
    ((Expr.one (.ofCode .exact c.toNat)).searchFrom before text).isSome = text.contains c := by
  induction text generalizing before with
  | nil => rfl
  | cons d rest ih =>
    have hstep := has_ofCode_exact c d
    unfold Expr.searchFrom
    by_cases h : d = c
    · subst h
      simp [Expr.tryAt, Place.step?, hstep]
    · rw [beq_eq_false_iff_ne.mpr h] at hstep
      simp [Expr.tryAt, Place.step?, hstep, ih, Ne.symm h]

end SecretSweep.Regex
