import Mathlib.Tactic.SplitIfs
import SecretSweep.Proofs.Regex.Search

/-!
What an expression means, apart from the order in which backtracking tries its ways: the texts that
it matches between what stands before and after them. Trying finds a way if there is one, and each
way that it finds is one of them.
-/

namespace SecretSweep.Regex

/-- Whether an expression matches a text that stands between two others. -/
inductive Expr.Matches : Expr → (before text after : List Char) → Prop
  | empty {before after} : Matches .empty before [] after
  | one {set c before after} (hset : set.has c) : Matches (.one set) before [c] after
  | many {set min max greed before text after} (hleast : min ≤ text.length)
      (hmost : ∀ m ∈ max, text.length ≤ m) (hset : ∀ c ∈ text, set.has c) :
      Matches (.many set min max greed) before text after
  | seq {a b before first second after} (hfirst : Matches a before first (second ++ after))
      (hsecond : Matches b (before ++ first) second after) :
      Matches (.seq a b) before (first ++ second) after
  | first {a b before text after} (h : Matches a before text after) :
      Matches (.alt a b) before text after
  | second {a b before text after} (h : Matches b before text after) :
      Matches (.alt a b) before text after
  | group {n e before text after} (h : Matches e before text after) :
      Matches (.group n e) before text after
  | anchor {a before after} (h : Anchor.holds ⟨before.reverse, after, []⟩ a) :
      Matches (.anchor a) before [] after

namespace Expr

variable {a b e : Expr} {set : CharSet} {before text after : List Char}

theorem matches_empty_iff : empty.Matches before text after ↔ text = [] := by
  constructor
  · rintro ⟨⟩
    rfl
  · rintro rfl
    exact .empty

theorem matches_one_iff :
    (one set).Matches before text after ↔ ∃ c, text = [c] ∧ set.has c := by
  constructor
  · rintro ⟨⟩
    exact ⟨_, rfl, ‹_›⟩
  · rintro ⟨c, rfl, hset⟩
    exact .one hset

theorem matches_many_iff {min : Nat} {max : Option Nat} {greed : Greed} :
    (many set min max greed).Matches before text after ↔
      min ≤ text.length ∧ (∀ m ∈ max, text.length ≤ m) ∧ ∀ c ∈ text, set.has c := by
  constructor
  · rintro ⟨⟩
    exact ⟨‹_›, ‹_›, ‹_›⟩
  · rintro ⟨hleast, hmost, hset⟩
    exact .many hleast hmost hset

theorem matches_seq_iff : (seq a b).Matches before text after ↔ ∃ first second,
    text = first ++ second ∧ a.Matches before first (second ++ after) ∧
      b.Matches (before ++ first) second after := by
  constructor
  · rintro ⟨⟩
    exact ⟨_, _, rfl, ‹_›, ‹_›⟩
  · rintro ⟨first, second, rfl, hfirst, hsecond⟩
    exact .seq hfirst hsecond

theorem matches_alt_iff : (alt a b).Matches before text after ↔
    a.Matches before text after ∨ b.Matches before text after := by
  constructor
  · intro h
    cases h with
    | first h => exact .inl h
    | second h => exact .inr h
  · rintro (h | h)
    · exact .first h
    · exact .second h

theorem matches_group_iff {n : Nat} :
    (group n e).Matches before text after ↔ e.Matches before text after := by
  constructor
  · rintro ⟨⟩
    assumption
  · exact .group

theorem matches_anchor_iff {anchor : Anchor} : (Expr.anchor anchor).Matches before text after ↔
    text = [] ∧ anchor.holds ⟨before.reverse, after, []⟩ := by
  constructor
  · rintro ⟨⟩
    exact ⟨rfl, ‹_›⟩
  · rintro ⟨rfl, h⟩
    exact .anchor h

theorem matches_ofList_cons_iff {more : List Expr} :
    (ofList (e :: more)).Matches before text after ↔
      (seq e (ofList more)).Matches before text after := by
  cases more with
  | nil => simp [ofList, matches_seq_iff, matches_empty_iff]
  | cons f more => rfl

end Expr

/-- Whether all ways of an expression can be told from its parts: it neither looks around or back at
a group nor holds on to a way. -/
def Expr.isPlain : Expr → Bool
  | .empty | .one _ | .anchor _ => true
  | .many _ _ _ greed => greed != .possessive
  | .seq a b | .alt a b => a.isPlain && b.isPlain
  | .group _ e => e.isPlain
  | _ => false

namespace Place

/-- Whether a place lies behind another one, with this text between them. -/
structure IsPast (p : Place) (text : List Char) (q : Place) : Prop where
  rest : p.rest = text ++ q.rest
  before : q.before = text.reverse ++ p.before

namespace IsPast

variable {p q r : Place} {first second : List Char}

theorem refl (p : Place) : p.IsPast [] p := ⟨rfl, rfl⟩

theorem trans (hfirst : p.IsPast first q) (hsecond : q.IsPast second r) :
    p.IsPast (first ++ second) r where
  rest := by rw [hfirst.rest, hsecond.rest, List.append_assoc]
  before := by rw [hsecond.before, hfirst.before, List.reverse_append, List.append_assoc]

theorem setGroup (h : p.IsPast first q) (n : Nat) (text : List Char) :
    p.IsPast first (q.setGroup n text) := ⟨h.rest, h.before⟩

theorem rest_eq {after : List Char} (h : p.IsPast first q) (hrest : p.rest = first ++ after) :
    q.rest = after := List.append_cancel_left (h.rest.symm.trans hrest)

/-- What stands before the later place, read forwards. -/
theorem reverse_before (h : p.IsPast first q) :
    q.before.reverse = p.before.reverse ++ first := by
  rw [h.before, List.reverse_append, List.reverse_reverse]

end IsPast

variable {set : CharSet} {p q : Place}

theorem step?_eq_some (h : p.step? set = some q) : ∃ c, set.has c ∧ p.IsPast [c] q := by
  unfold step? at h
  split at h
  · cases h
  · rename_i c rest hrest
    split_ifs at h with hset
    rw [← Option.some.inj h]
    exact ⟨c, hset, hrest, rfl⟩

theorem exists_step? {c : Char} {after : List Char} (hrest : p.rest = c :: after)
    (hset : set.has c) : ∃ q, p.step? set = some q ∧ p.IsPast [c] q := by
  refine ⟨⟨c :: p.before, after, p.groups⟩, ?_, hrest, rfl⟩
  simp [step?, hrest, hset]

/-- Each place of a run is as many characters of the set further on as it has places before it. -/
theorem of_getElem?_run {limit n : Nat} (h : (p.run set limit)[n]? = some q) :
    ∃ text, text.length = n ∧ n ≤ limit ∧ (∀ c ∈ text, set.has c) ∧ p.IsPast text q := by
  induction limit generalizing p n with
  | zero =>
    obtain ⟨hn, hq⟩ := List.getElem?_eq_some_iff.mp h
    obtain rfl : n = 0 := by simpa [run] using hn
    obtain rfl : p = q := by simpa [run] using hq
    exact ⟨[], rfl, Nat.le_refl 0, by simp, .refl p⟩
  | succ limit ih =>
    cases n with
    | zero =>
      obtain rfl : p = q := by simpa [run] using h
      exact ⟨[], rfl, Nat.zero_le _, by simp, .refl p⟩
    | succ n =>
      rw [run, List.getElem?_cons_succ] at h
      split at h
      · rename_i next hstep
        obtain ⟨c, hc, hnext⟩ := step?_eq_some hstep
        obtain ⟨text, hlength, hlimit, htext, hpast⟩ := ih h
        refine ⟨c :: text, by simp [hlength], by omega, ?_, hnext.trans hpast⟩
        exact List.forall_mem_cons.mpr ⟨hc, htext⟩
      · simp at h

theorem exists_getElem?_run {limit : Nat} {text after : List Char} (hrest : p.rest = text ++ after)
    (hlimit : text.length ≤ limit) (hset : ∀ c ∈ text, set.has c) :
    ∃ q, (p.run set limit)[text.length]? = some q ∧ p.IsPast text q := by
  induction text generalizing p limit with
  | nil => exact ⟨p, by cases limit <;> simp [run], .refl p⟩
  | cons c text ih =>
    obtain ⟨hc, htext⟩ := List.forall_mem_cons.mp hset
    cases limit with
    | zero => simp at hlimit
    | succ limit =>
      obtain ⟨next, hstep, hnext⟩ := exists_step? hrest hc
      obtain ⟨q, hq, hpast⟩ := ih (hnext.rest_eq hrest) (Nat.le_of_succ_le_succ hlimit) htext
      refine ⟨q, ?_, hnext.trans hpast⟩
      rw [run, List.length_cons, List.getElem?_cons_succ, hstep]
      exact hq

end Place

section Repetition

variable {set : CharSet} {min : Nat} {max : Option Nat} {greed : Greed} {k : Continuation}
  {p q last : Place}

/-- How many characters a repetition takes at most. -/
def limitOf (max : Option Nat) (p : Place) : Nat :=
  match max with
  | some m => Nat.min m p.rest.length
  | none => p.rest.length

/-- The places that a repetition chooses among. -/
def reached (set : CharSet) (min : Nat) (max : Option Nat) (p : Place) : List Place :=
  (p.run set (limitOf max p)).drop min

theorem of_mem_reached (h : q ∈ reached set min max p) :
    ∃ text, min ≤ text.length ∧ (∀ m ∈ max, text.length ≤ m) ∧ (∀ c ∈ text, set.has c) ∧
      p.IsPast text q := by
  obtain ⟨n, hn⟩ := List.mem_iff_getElem?.mp h
  rw [reached, List.getElem?_drop] at hn
  obtain ⟨text, hlength, hlimit, hset, hpast⟩ := Place.of_getElem?_run hn
  refine ⟨text, by omega, ?_, hset, hpast⟩
  rintro m rfl
  exact hlength ▸ Nat.le_trans hlimit (Nat.min_le_left ..)

theorem exists_mem_reached {text after : List Char} (hrest : p.rest = text ++ after)
    (hleast : min ≤ text.length) (hmost : ∀ m ∈ max, text.length ≤ m)
    (hset : ∀ c ∈ text, set.has c) : ∃ q ∈ reached set min max p, p.IsPast text q := by
  have hlength : text.length ≤ p.rest.length := by simp [hrest]
  have hlimit : text.length ≤ limitOf max p := by
    cases max with
    | none => exact hlength
    | some m => exact Nat.le_min.mpr ⟨hmost m rfl, hlength⟩
  obtain ⟨q, hq, hpast⟩ := Place.exists_getElem?_run hrest hlimit hset
  refine ⟨q, List.mem_iff_getElem?.mpr ⟨text.length - min, ?_⟩, hpast⟩
  rw [reached, List.getElem?_drop, Nat.add_sub_cancel' hleast]
  exact hq

/-- In whichever order a repetition tries the places, it finds one from which it can go on. -/
theorem exists_of_repeatOne (hgreed : greed ≠ .possessive)
    (h : repeatOne set min max greed k p = some last) :
    ∃ q ∈ reached set min max p, k q = some last := by
  cases greed with
  | greedy =>
    obtain ⟨q, hq, hk⟩ := List.exists_of_findSome?_eq_some h
    exact ⟨q, List.mem_reverse.mp hq, hk⟩
  | reluctant => exact List.exists_of_findSome?_eq_some h
  | possessive => exact absurd rfl hgreed

theorem repeatOne_isSome (hgreed : greed ≠ .possessive) (hq : q ∈ reached set min max p)
    (hk : (k q).isSome) : (repeatOne set min max greed k p).isSome := by
  cases greed with
  | greedy => exact List.findSome?_isSome_iff.mpr ⟨q, List.mem_reverse.mpr hq, hk⟩
  | reluctant => exact List.findSome?_isSome_iff.mpr ⟨q, hq, hk⟩
  | possessive => exact absurd rfl hgreed

end Repetition

theorem Anchor.holds_iff (a : Anchor) (p : Place) :
    a.holds p = a.holds ⟨p.before.reverse.reverse, p.rest, []⟩ := by
  rw [List.reverse_reverse]
  cases a <;> rfl

namespace Expr

variable {e : Expr} {k : Continuation} {p last : Place}

/-- A way that is found is a text that the expression matches, from the end of which what follows
goes on. -/
theorem exists_of_tryAt (hplain : e.isPlain) (h : e.tryAt k p = some last) :
    ∃ text q, p.IsPast text q ∧ e.Matches p.before.reverse text q.rest ∧ k q = some last := by
  induction e generalizing k p with
  | empty => exact ⟨[], p, .refl p, .empty, h⟩
  | one set =>
    obtain ⟨q, hstep, hk⟩ := Option.bind_eq_some_iff.mp h
    obtain ⟨c, hc, hpast⟩ := Place.step?_eq_some hstep
    exact ⟨[c], q, hpast, .one hc, hk⟩
  | many set min max greed =>
    obtain ⟨q, hq, hk⟩ := exists_of_repeatOne (bne_iff_ne.mp hplain) h
    obtain ⟨text, hleast, hmost, hset, hpast⟩ := of_mem_reached hq
    exact ⟨text, q, hpast, .many hleast hmost hset, hk⟩
  | seq a b iha ihb =>
    obtain ⟨ha, hb⟩ := Bool.and_eq_true_iff.mp hplain
    obtain ⟨first, q, hpast, hfirst, hq⟩ := iha ha h
    obtain ⟨second, r, hpast', hsecond, hr⟩ := ihb hb hq
    rw [hpast'.rest] at hfirst
    rw [hpast.reverse_before] at hsecond
    exact ⟨first ++ second, r, hpast.trans hpast', .seq hfirst hsecond, hr⟩
  | alt a b iha ihb =>
    obtain ⟨ha, hb⟩ := Bool.and_eq_true_iff.mp hplain
    rw [tryAt, Option.orElse_eq_orElse, Option.orElse_eq_or] at h
    rcases Option.or_eq_some_iff.mp h with hfirst | ⟨-, hsecond⟩
    · obtain ⟨text, q, hpast, hmatches, hk⟩ := iha ha hfirst
      exact ⟨text, q, hpast, .first hmatches, hk⟩
    · obtain ⟨text, q, hpast, hmatches, hk⟩ := ihb hb hsecond
      exact ⟨text, q, hpast, .second hmatches, hk⟩
  | group n e ih =>
    obtain ⟨text, q, hpast, hmatches, hk⟩ := ih hplain h
    exact ⟨text, _, hpast.setGroup n _, .group hmatches, hk⟩
  | anchor a =>
    unfold tryAt at h
    split_ifs at h with hholds
    rw [a.holds_iff] at hholds
    exact ⟨[], p, .refl p, .anchor hholds, h⟩
  | _ => cases hplain

/-- A text that the expression matches is a way, if from its end what follows goes on. -/
theorem tryAt_isSome (hplain : e.isPlain) {before text after : List Char}
    (h : e.Matches before text after) (hbefore : p.before.reverse = before)
    (hrest : p.rest = text ++ after) (hk : ∀ q, p.IsPast text q → (k q).isSome) :
    (e.tryAt k p).isSome := by
  induction h generalizing k p with
  | empty => exact hk p (.refl p)
  | one hset =>
    obtain ⟨q, hstep, hpast⟩ := Place.exists_step? hrest hset
    rw [tryAt, hstep]
    exact hk q hpast
  | many hleast hmost hset =>
    obtain ⟨q, hq, hpast⟩ := exists_mem_reached hrest hleast hmost hset
    exact repeatOne_isSome (bne_iff_ne.mp hplain) hq (hk q hpast)
  | seq hfirst hsecond iha ihb =>
    obtain ⟨ha, hb⟩ := Bool.and_eq_true_iff.mp hplain
    rw [List.append_assoc] at hrest
    refine iha ha hbefore hrest fun q hpast => ?_
    refine ihb hb ?_ (hpast.rest_eq hrest) fun r hpast' => hk r (hpast.trans hpast')
    rw [hpast.reverse_before, hbefore]
  | first h ih =>
    have hfirst := ih (Bool.and_eq_true_iff.mp hplain).1 hbefore hrest hk
    simp [tryAt, hfirst]
  | second h ih =>
    have hsecond := ih (Bool.and_eq_true_iff.mp hplain).2 hbefore hrest hk
    simp [tryAt, hsecond]
  | group h ih => exact ih hplain hbefore hrest fun q hpast => hk _ (hpast.setGroup _ _)
  | anchor h =>
    rw [List.nil_append] at hrest
    rw [← hbefore, ← hrest, ← Anchor.holds_iff] at h
    rw [tryAt, if_pos h]
    exact hk p (.refl p)

end Expr

/-- Whether a text of some kind, which may depend on what stands before and after it, is in a
line. -/
def OccursIn (kind : List Char → List Char → List Char → Prop) (line : List Char) : Prop :=
  ∃ before text after, line = before ++ text ++ after ∧ kind before text after

/-- Whether a text is of some kind at the leftmost place of a line where a text is. -/
def IsLeftmost (kind : List Char → List Char → List Char → Prop) (line found : List Char) : Prop :=
  ∃ before after, line = before ++ found ++ after ∧ kind before found after ∧
    ∀ before' text after', line = before' ++ text ++ after' → kind before' text after' →
      before.length ≤ before'.length

namespace Expr

variable {e : Expr}

theorem exists_of_matchAt? (hplain : e.isPlain) {before rest : List Char} {last : Place}
    (h : e.matchAt? before rest = some last) :
    ∃ text, rest = text ++ last.rest ∧ e.Matches before text last.rest := by
  obtain ⟨text, q, hpast, hmatches, hlast⟩ := exists_of_tryAt hplain h
  obtain rfl := Option.some.inj hlast
  rw [List.reverse_reverse] at hmatches
  exact ⟨text, hpast.rest, hmatches⟩

theorem matchAt?_isSome_iff (hplain : e.isPlain) {before rest : List Char} :
    (e.matchAt? before rest).isSome ↔
      ∃ text after, rest = text ++ after ∧ e.Matches before text after := by
  constructor
  · intro h
    obtain ⟨last, hlast⟩ := Option.isSome_iff_exists.mp h
    obtain ⟨text, hrest, hmatches⟩ := exists_of_matchAt? hplain hlast
    exact ⟨text, last.rest, hrest, hmatches⟩
  · rintro ⟨text, after, hrest, hmatches⟩
    exact tryAt_isSome hplain hmatches before.reverse_reverse hrest fun q _ => rfl

/-- An expression is found in a line just if a text that it matches is in the line. -/
theorem search_isSome_iff_occursIn (hplain : e.isPlain) {line : String} :
    (e.search line).isSome ↔ OccursIn e.Matches line.toList := by
  rw [search_isSome_iff, MatchesIn]
  constructor
  · rintro ⟨before, rest, hline, hsome⟩
    obtain ⟨text, after, rfl, hmatches⟩ := (matchAt?_isSome_iff hplain).mp hsome
    exact ⟨before, text, after, by rw [hline, List.append_assoc], hmatches⟩
  · rintro ⟨before, text, after, hline, hmatches⟩
    exact ⟨before, text ++ after, by rw [hline, List.append_assoc],
      (matchAt?_isSome_iff hplain).mpr ⟨text, after, rfl, hmatches⟩⟩

/-- Where at most one text matches at each place, the order of the ways does not matter: what is
found is the text at the leftmost place. -/
theorem search_eq_some_iff_isLeftmost (hplain : e.isPlain)
    (hunique : ∀ before text after text' after', text ++ after = text' ++ after' →
      e.Matches before text after → e.Matches before text' after' → text = text')
    {line found : String} :
    e.search line = some found ↔ IsLeftmost e.Matches line.toList found.toList := by
  rw [search_eq_some_iff]
  constructor
  · rintro ⟨before, rest, last, hline, hlast, hfound, hleft⟩
    obtain ⟨text, hrest, hmatches⟩ := exists_of_matchAt? hplain hlast
    have htext : found.toList = text := by simp [hfound, hrest]
    rw [htext]
    refine ⟨before, last.rest, by rw [hline, hrest, List.append_assoc], hmatches, ?_⟩
    intro before' text' after' hline' hmatches'
    refine Nat.le_of_not_lt fun hlt => ?_
    have hnone := hleft before' (text' ++ after') (by rw [hline', List.append_assoc]) hlt
    have hsome := (matchAt?_isSome_iff hplain).mpr ⟨text', after', rfl, hmatches'⟩
    rw [hnone] at hsome
    cases hsome
  · rintro ⟨before, after, hline, hmatches, hleft⟩
    have hsome := (matchAt?_isSome_iff hplain).mpr ⟨found.toList, after, rfl, hmatches⟩
    obtain ⟨last, hlast⟩ := Option.isSome_iff_exists.mp hsome
    obtain ⟨text, hrest, hmatches'⟩ := exists_of_matchAt? hplain hlast
    have htext := hunique _ _ _ _ _ hrest hmatches hmatches'
    refine ⟨before, found.toList ++ after, last, by rw [hline, List.append_assoc], hlast, ?_, ?_⟩
    · rw [hrest, htext]
      simp
    · intro before' rest' hline' hlt
      rw [← Option.not_isSome_iff_eq_none, matchAt?_isSome_iff hplain]
      rintro ⟨text', after', rfl, hmatches''⟩
      have hle := hleft before' text' after' (by rw [hline', List.append_assoc]) hmatches''
      omega

end Expr

end SecretSweep.Regex
