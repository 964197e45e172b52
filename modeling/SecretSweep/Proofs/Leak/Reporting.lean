import SecretSweep.Proofs.Leak.Findings
import SecretSweep.Proofs.Regex.Search

/-!
What is reported of a diff: for each rule in order, and then for each line, the first match, unless
a filter suppresses the line. A rule without an expression for lines reports the first line instead.
-/

namespace SecretSweep

namespace Rule

/-- Whether a rule is about a path. -/
def Concerns (r : Rule) (path : String) : Prop := ∀ p ∈ r.file, p.expr.MatchesIn path.toList

/-- Whether there is nothing in a rule that keeps it from a line. -/
def Takes (r : Rule) (line : String) : Prop := ∀ p ∈ r.content, p.expr.MatchesIn line.toList

variable {r : Rule}

theorem appliesTo_iff {path : String} : r.appliesTo path ↔ r.Concerns path := by
  cases hf : r.file <;>
    simp [appliesTo, Concerns, hf, Pattern.occursIn, Pattern.find?, Regex.Expr.search_isSome_iff]

theorem covers_iff {line : String} : r.covers line ↔ r.Takes line := by
  cases hc : r.content <;>
    simp [covers, Takes, hc, Pattern.occursIn, Pattern.find?, Regex.Expr.search_isSome_iff]

end Rule

/-- Whether a leak says that a rule found a text so many lines below the first one of a diff. Of the
two expressions of the rule, it names the one for lines, or else the one for paths. -/
structure Leak.Tells (d : Diff) (r : Rule) (offset : Nat) (text : String) (l : Leak) : Prop where
  patternName : l.patternName = r.name
  regexpOfContent : ∀ p, r.content = some p → l.regexp = p.source
  regexpOfFile : ∀ p, r.content = none → r.file = some p → l.regexp = p.source
  regexpOfNone : r.content = none → r.file = none → l.regexp = ""
  filePath : l.filePath = d.filePath
  repoPath : l.repoPath = d.repoPath
  repoUrl : l.repoUrl = d.repoUrl
  commitHash : l.commitHash = d.commitHash
  commitAuthor : l.commitAuthor = d.author
  commitEmail : l.commitEmail = d.authorEmail
  timestamp : l.timestamp = d.timestamp
  leakString : l.leakString.toList = text.toList.take 512
  line : l.line = if d.lineBegin = 0 then 0 else d.lineBegin + offset

namespace Analyzer

/-- Whether there is a filter for a path and a line of it. -/
def Suppressed (filters : List Rule) (path line : String) : Prop :=
  ∃ f ∈ filters, f.Concerns path ∧ f.Takes line

/-- What a rule finds in the lines of a file, and how many lines below the first one. -/
inductive Finds (filters : List Rule) (path : String) (lines : List String) (r : Rule) :
    (offset : Nat) → (text : String) → Prop where
  | inLine {pattern : Pattern} {line text : String} {offset : Nat} (hr : r.content = some pattern)
      (hline : lines[offset]? = some line)
      (hfirst : pattern.expr.IsFirstMatch line.toList text.toList)
      (hfree : ¬ Suppressed filters path line) : Finds filters path lines r offset text
  | inFile (hr : r.content = none) (hfree : ¬ Suppressed filters path (lines.headD "")) :
      Finds filters path lines r 0 (lines.headD "")

variable {filters : List Rule} {path : String} {lines : List String} {r : Rule}

theorem suppresses_iff {line : String} :
    suppresses filters path line ↔ Suppressed filters path line := by
  simp [suppresses, Suppressed, Rule.appliesTo_iff, Rule.covers_iff]

theorem mem_findingsOf_iff {f : Finding} : f ∈ findingsOf filters path lines r ↔
    f.rule = r ∧ Finds filters path lines r f.offset f.text := by
  obtain ⟨rule, text, offset⟩ := f
  dsimp only
  constructor
  · intro h
    obtain rfl : rule = r := rule_of_mem_findingsOf h
    refine ⟨rfl, ?_⟩
    unfold findingsOf at h
    cases hr : rule.content with
    | none =>
      simp only [hr] at h
      split_ifs at h with hs
      · cases h
      · obtain ⟨-, rfl, rfl⟩ := Finding.mk.inj (List.mem_singleton.mp h)
        exact .inFile hr fun hsup => hs (suppresses_iff.mpr hsup)
    | some pattern =>
      simp only [hr, List.mem_filterMap] at h
      obtain ⟨⟨line, offset'⟩, hline, hf⟩ := h
      cases hfind : pattern.find? line with
      | none => simp [hfind] at hf
      | some found =>
        simp only [hfind] at hf
        split_ifs at hf with hs
        obtain ⟨-, rfl, rfl⟩ := Finding.mk.inj (Option.some.inj hf)
        exact .inLine hr (List.mk_mem_zipIdx_iff_getElem?.mp hline)
          (Regex.Expr.search_eq_some_iff.mp hfind) fun hsup => hs (suppresses_iff.mpr hsup)
  · rintro ⟨rfl, hfinds⟩
    unfold findingsOf
    cases hfinds with
    | inFile hr hfree =>
      rw [hr]
      dsimp only
      rw [if_neg (mt suppresses_iff.mp hfree)]
      exact List.mem_singleton_self _
    | @inLine pattern line _ _ hr hline hfirst hfree =>
      have hfind : pattern.find? line = some text := Regex.Expr.search_eq_some_iff.mpr hfirst
      simp only [hr, List.mem_filterMap]
      refine ⟨(line, offset), List.mk_mem_zipIdx_iff_getElem?.mpr hline, ?_⟩
      simp [hfind, mt suppresses_iff.mp hfree]

theorem pairwise_zipIdx {α : Type} (l : List α) : l.zipIdx.Pairwise (·.2 < ·.2) := by
  rw [← List.pairwise_map (f := Prod.snd) (R := (· < ·)), List.zipIdx_map_snd]
  exact List.pairwise_lt_range'

/-- A rule goes from line to line and finds one thing in each at most. -/
theorem pairwise_findingsOf (filters : List Rule) (path : String) (lines : List String) (r : Rule) :
    (findingsOf filters path lines r).Pairwise (·.offset < ·.offset) := by
  unfold findingsOf
  cases r.content with
  | none =>
    dsimp only
    split
    · exact .nil
    · exact List.pairwise_singleton ..
  | some pattern =>
    refine List.pairwise_filterMap.mpr ((pairwise_zipIdx lines).imp fun {x y} hlt f hf f' hf' => ?_)
    cases hx : pattern.find? x.1 with
    | none => simp [hx] at hf
    | some text =>
      cases hy : pattern.find? y.1 with
      | none => simp [hy] at hf'
      | some text' =>
        simp only [hx] at hf
        simp only [hy] at hf'
        split_ifs at hf hf'
        rw [← Option.some.inj hf, ← Option.some.inj hf']
        exact hlt

/-- What is found in a file, each with the position of the rule that found it. -/
def located (rules filters : List Rule) (path : String) (lines : List String) :
    List (Nat × Finding) :=
  rules.zipIdx.flatMap fun (r, i) =>
    if r.appliesTo path then (findingsOf filters path lines r).map (i, ·) else []

theorem map_snd_located (a : Analyzer) (path content : String) :
    (located a.rules a.filters path (linesOf content)).map Prod.snd = a.findings path content := by
  unfold located findings applicable
  generalize 0 = i
  induction a.rules generalizing i with
  | nil => rfl
  | cons r rest ih =>
    rw [List.zipIdx_cons, List.flatMap_cons, List.map_append, ih, List.filter_cons]
    split_ifs with happlies <;> simp [happlies, Function.comp_def]

theorem mem_located_iff {rules : List Rule} {i : Nat} {f : Finding} :
    (i, f) ∈ located rules filters path lines ↔
      rules[i]? = some f.rule ∧ f.rule.Concerns path ∧
        Finds filters path lines f.rule f.offset f.text := by
  simp only [located, List.mem_flatMap]
  constructor
  · rintro ⟨⟨r, j⟩, hr, hf⟩
    dsimp only at hf
    split_ifs at hf with happlies
    · obtain ⟨f', hf', heq⟩ := List.mem_map.mp hf
      obtain ⟨rfl, rfl⟩ := Prod.mk.inj heq
      obtain ⟨rfl, hfinds⟩ := mem_findingsOf_iff.mp hf'
      exact ⟨List.mk_mem_zipIdx_iff_getElem?.mp hr, Rule.appliesTo_iff.mp happlies, hfinds⟩
    · cases hf
  · rintro ⟨hr, hconcerns, hfinds⟩
    refine ⟨(f.rule, i), List.mk_mem_zipIdx_iff_getElem?.mpr hr, ?_⟩
    dsimp only
    rw [if_pos (Rule.appliesTo_iff.mpr hconcerns)]
    exact List.mem_map_of_mem (mem_findingsOf_iff.mpr ⟨rfl, hfinds⟩)

/-- Findings come rule by rule, and those of a rule line by line. -/
theorem pairwise_located (rules filters : List Rule) (path : String) (lines : List String) :
    ((located rules filters path lines).map fun (i, f) => (i, f.offset)).Pairwise
      (Prod.Lex (· < ·) (· < ·)) := by
  rw [List.pairwise_map, located, List.pairwise_flatMap]
  constructor
  · rintro ⟨r, i⟩ -
    dsimp only
    split_ifs
    · rw [List.pairwise_map]
      exact (pairwise_findingsOf filters path lines r).imp fun hlt => .right _ hlt
    · exact .nil
  · refine (pairwise_zipIdx rules).imp fun {x y} hlt u hu v hv => ?_
    have hfirst : ∀ z : Rule × Nat, ∀ w ∈ (if z.1.appliesTo path
        then (findingsOf filters path lines z.1).map (z.2, ·) else []), w.1 = z.2 := by
      intro z w hw
      split_ifs at hw
      · obtain ⟨f, -, rfl⟩ := List.mem_map.mp hw
        rfl
      · cases hw
    refine .left _ _ ?_
    rwa [hfirst x u hu, hfirst y v hv]

/-- Whatever a list is numbered through with, its items stay with what is made of them. -/
theorem forall₂_map_mapIdx {α β γ δ : Type} {R : β → γ → Prop} {l : List α} {f : α → β}
    {s : α → δ} {g : Nat → δ → γ} (h : ∀ x ∈ l, ∀ n, R (f x) (g n (s x))) :
    List.Forall₂ R (l.map f) ((l.map s).mapIdx g) := by
  induction l generalizing g with
  | nil => exact .nil
  | cons x l ih =>
    rw [List.map_cons, List.map_cons, List.mapIdx_cons]
    refine .cons (h x (List.mem_cons_self ..) 0) (ih fun y hy n => ?_)
    exact h y (List.mem_cons_of_mem _ hy) (n + 1)

theorem tells_leakOf (d : Diff) (f : Finding) (id : String) :
    (leakOf d f id).Tells d f.rule f.offset f.text where
  patternName := rfl
  regexpOfContent p hcontent := by simp [leakOf, Rule.regexp, hcontent]
  regexpOfFile p hcontent hfile := by simp [leakOf, Rule.regexp, hcontent, hfile]
  regexpOfNone hcontent hfile := by simp [leakOf, Rule.regexp, hcontent, hfile]
  filePath := rfl
  repoPath := rfl
  repoUrl := rfl
  commitHash := rfl
  commitAuthor := rfl
  commitEmail := rfl
  timestamp := rfl
  leakString := String.toList_ofList
  line := rfl

/-- Under rules and filters of one's own, the leaks of a diff stand for the places where a rule
finds something in it, for each of them exactly one, rule by rule and line by line. -/
theorem analyze_reports {rules : List Rule} (h : rules ≠ []) (filters : List Rule) (next : Nat)
    (d : Diff) : ∃ places : List (Nat × Nat),
      places.Pairwise (Prod.Lex (· < ·) (· < ·)) ∧
      (∀ i offset, (i, offset) ∈ places ↔ ∃ r text, rules[i]? = some r ∧ r.Concerns d.filePath ∧
        Finds filters d.filePath (linesOf d.content) r offset text) ∧
      List.Forall₂ (fun place leak => ∃ r text, rules[place.1]? = some r ∧
          Finds filters d.filePath (linesOf d.content) r place.2 text ∧
          leak.Tells d r place.2 text)
        places ((ofLists rules (some filters)).analyze next d) := by
  have hown : ofLists rules (some filters) = ⟨rules, filters⟩ := by simp [ofLists, h]
  have hfound := map_snd_located ⟨rules, filters⟩ d.filePath d.content
  refine ⟨_, pairwise_located rules filters d.filePath (linesOf d.content), fun i offset => ?_, ?_⟩
  · rw [List.mem_map]
    constructor
    · rintro ⟨⟨j, f⟩, hmem, heq⟩
      obtain ⟨rfl, rfl⟩ := Prod.mk.inj heq
      obtain ⟨hrule, hconcerns, hfinds⟩ := mem_located_iff.mp hmem
      exact ⟨f.rule, f.text, hrule, hconcerns, hfinds⟩
    · rintro ⟨r, text, hrule, hconcerns, hfinds⟩
      exact ⟨(i, ⟨r, text, offset⟩), mem_located_iff.mpr ⟨hrule, hconcerns, hfinds⟩, rfl⟩
  · rw [hown, analyze, ← hfound]
    refine forall₂_map_mapIdx fun entry hmem n => ?_
    obtain ⟨i, f⟩ := entry
    obtain ⟨hrule, -, hfinds⟩ := mem_located_iff.mp hmem
    exact ⟨f.rule, f.text, hrule, hfinds, tells_leakOf d f _⟩

def letter (c : Char) : Pattern := ⟨String.singleton c, .one (.ofCode .exact c.toNat)⟩

/-- A rule for paths alone, one for lines, and one for lines of some paths. -/
def maskedRules : List Rule :=
  [⟨"settings", some (letter 'g'), none⟩, ⟨"key", none, some (letter 'k')⟩,
   ⟨"one", some (letter 'f'), some (letter 'o')⟩]

def maskedFilters : List Rule := [⟨"dummy", none, some (letter 'z')⟩]

def maskedDiff : Diff :=
  ⟨"h", "u", "r", "f.cfg", 7, "one\nkey\nkeyz\nkeg", "Ann", "ann@x", ⟨0, 0, none⟩⟩

/-- The first line is reported for the path and for what is in it, and two of three keys, the third
one being masked. -/
theorem analyze_reports_masked : maskedRules ≠ [] ∧
    (((ofLists maskedRules (some maskedFilters)).analyze 0 maskedDiff).map fun l =>
      (l.patternName, l.regexp, l.leakString, l.line)) =
        [("settings", "g", "one", 7), ("key", "k", "k", 8), ("key", "k", "k", 10),
         ("one", "o", "o", 7)] ∧
    ∃ places : List (Nat × Nat),
      places.Pairwise (Prod.Lex (· < ·) (· < ·)) ∧
      (∀ i offset, (i, offset) ∈ places ↔ ∃ r text, maskedRules[i]? = some r ∧
        r.Concerns maskedDiff.filePath ∧
        Finds maskedFilters maskedDiff.filePath (linesOf maskedDiff.content) r offset text) ∧
      List.Forall₂ (fun place leak => ∃ r text, maskedRules[place.1]? = some r ∧
          Finds maskedFilters maskedDiff.filePath (linesOf maskedDiff.content) r place.2 text ∧
          leak.Tells maskedDiff r place.2 text)
        places ((ofLists maskedRules (some maskedFilters)).analyze 0 maskedDiff) := by
  have hne : maskedRules ≠ [] := List.cons_ne_nil _ _
  exact ⟨hne, by decide +kernel, analyze_reports hne maskedFilters 0 maskedDiff⟩

end Analyzer

end SecretSweep
