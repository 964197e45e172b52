import SecretSweep.Proofs.Leak.Findings
import SecretSweep.Proofs.Result

/-!
How the leaks of a diff depend on the rules and filters that are configured. Each filter takes away
the leaks in the lines that it suppresses, and each rule contributes its own leaks.
-/

namespace SecretSweep

def Leak.withoutId (l : Leak) : Leak := { l with id := "" }

namespace Analyzer

/-- The leaks of a diff without their ids, each with the line that it was found in. -/
def sightings (a : Analyzer) (d : Diff) : List (Leak × String) :=
  (a.findings d.filePath d.content).map fun f =>
    (leakOf d f "", (linesOf d.content).getD f.offset "")

theorem map_withoutId_analyze (a : Analyzer) (next : Nat) (d : Diff) :
    (a.analyze next d).map Leak.withoutId = (a.sightings d).map Prod.fst := by
  refine List.ext_getElem? fun n => ?_
  simp only [analyze, sightings, List.getElem?_map, List.getElem?_mapIdx, Option.map_map]
  rfl

theorem suppresses_append (filters added : List Rule) (path line : String) :
    suppresses (filters ++ added) path line =
      (suppresses filters path line || suppresses added path line) := List.any_append

theorem suppresses_congr {filters other : List Rule} (h : ∀ f, f ∈ other ↔ f ∈ filters)
    (path line : String) : suppresses other path line = suppresses filters path line := by
  rw [Bool.eq_iff_iff]
  simp [suppresses, h]

theorem findings_append (front back filters : List Rule) (path content : String) :
    (Analyzer.mk (front ++ back) filters).findings path content =
      (Analyzer.mk front filters).findings path content ++
        (Analyzer.mk back filters).findings path content := by
  simp [findings, applicable]

/-- Filters look at the line of a finding, whatever rule it is of. -/
theorem findings_eq_filter (rules filters : List Rule) (path content : String) :
    (Analyzer.mk rules filters).findings path content =
      ((Analyzer.mk rules []).findings path content).filter fun f =>
        !suppresses filters path ((linesOf content).getD f.offset "") := by
  simp only [findings, applicable, List.filter_flatMap, ← findingsOf_eq_filter]

theorem sightings_eq_filter (rules filters : List Rule) (d : Diff) :
    (Analyzer.mk rules filters).sightings d =
      ((Analyzer.mk rules []).sightings d).filter fun s =>
        !suppresses filters d.filePath s.2 := by
  simp only [sightings, findings_eq_filter rules filters, List.filter_map, Function.comp_def]

theorem sightings_append_filters (rules filters added : List Rule) (d : Diff) :
    (Analyzer.mk rules (filters ++ added)).sightings d =
      ((Analyzer.mk rules filters).sightings d).filter fun s =>
        !suppresses added d.filePath s.2 := by
  rw [sightings_eq_filter, sightings_eq_filter rules filters, List.filter_filter]
  refine List.filter_congr fun s _ => ?_
  rw [suppresses_append, Bool.not_or, Bool.and_comm]

theorem sightings_append_rules (front back filters : List Rule) (d : Diff) :
    (Analyzer.mk (front ++ back) filters).sightings d =
      (Analyzer.mk front filters).sightings d ++ (Analyzer.mk back filters).sightings d := by
  rw [sightings, findings_append, List.map_append]
  rfl

variable {rules filters : List RuleSpec} {a : Analyzer}

theorem ofSpecs_eq_ok_iff : ofSpecs rules filters = .ok a ↔
    ∃ rs fs, RuleSpec.compileAll rules = .ok rs ∧ RuleSpec.compileAll filters = .ok fs ∧
      a = ofConfigured rs fs := by
  unfold ofSpecs
  cases RuleSpec.compileAll rules with
  | error fault => simp
  | ok rs => cases RuleSpec.compileAll filters <;> simp [pure, Except.pure, eq_comm]

/-- Configured filters come after the built-in ones, whatever the rules are. -/
theorem ofConfigured_eq (rs fs : List Rule) :
    ofConfigured rs fs = ⟨(ofConfigured rs []).rules, Rule.builtinFilters ++ fs⟩ := rfl

theorem ofConfigured_of_ne_nil {rs : List Rule} (h : rs ≠ []) (fs : List Rule) :
    ofConfigured rs fs = ⟨rs, Rule.builtinFilters ++ fs⟩ := by
  simp [ofConfigured, ofLists, h]

theorem ne_nil_of_compileAll {rs : List Rule} (h : RuleSpec.compileAll rules = .ok rs)
    (hne : rules ≠ []) : rs ≠ [] := by
  obtain ⟨r, rest, rfl⟩ := List.exists_cons_of_ne_nil hne
  rw [RuleSpec.compileAll, List.mapM_cons] at h
  obtain ⟨r', -, h⟩ := eq_ok_of_bind h
  obtain ⟨rest', -, h⟩ := eq_ok_of_bind h
  obtain rfl := Except.ok.inj h
  exact List.cons_ne_nil _ _

theorem suppresses_builtin_of_mem_sightings {rs fs : List Rule} {d : Diff} {s : Leak × String}
    (h : s ∈ (ofConfigured rs fs).sightings d) :
    suppresses Rule.builtinFilters d.filePath s.2 = false := by
  rw [ofConfigured_eq, sightings_eq_filter] at h
  have hfree := (List.mem_filter.mp h).2
  rw [suppresses_append, Bool.not_or, Bool.and_eq_true] at hfree
  exact (Bool.not_eq_true' _).mp hfree.1

theorem sightings_ofConfigured_append_filters (rs fs extra : List Rule) (d : Diff) :
    (ofConfigured rs (fs ++ extra)).sightings d = ((ofConfigured rs fs).sightings d).filter fun s =>
      !suppresses extra d.filePath s.2 := by
  rw [ofConfigured_eq, ← List.append_assoc, sightings_append_filters]
  rfl

theorem sightings_ofConfigured_congr (rs : List Rule) {fs gs : List Rule}
    (h : ∀ f, f ∈ gs ↔ f ∈ fs) (d : Diff) :
    (ofConfigured rs gs).sightings d = (ofConfigured rs fs).sightings d := by
  rw [ofConfigured_eq, ofConfigured_eq rs fs, sightings_eq_filter,
    sightings_eq_filter _ (Rule.builtinFilters ++ fs)]
  refine List.filter_congr fun s _ => ?_
  rw [suppresses_append, suppresses_append, suppresses_congr h]

/-- Filters that are listed in another order, or more than once, are compiled to the same ones. -/
theorem exists_compileAll_of_mem_iff {other : List RuleSpec} {fs : List Rule}
    (hfilters : RuleSpec.compileAll filters = .ok fs) (h : ∀ f, f ∈ other ↔ f ∈ filters) :
    ∃ gs, RuleSpec.compileAll other = .ok gs ∧ ∀ f, f ∈ gs ↔ f ∈ fs := by
  have hsome : (RuleSpec.compileAll other).isOk := by
    refine isOk_mapM.mpr fun f hf => ?_
    exact isOk_mapM.mp (isOk_iff.mpr ⟨fs, hfilters⟩) f ((h f).mp hf)
  obtain ⟨gs, hgs⟩ := isOk_iff.mp hsome
  refine ⟨gs, hgs, fun f => ?_⟩
  rw [mem_mapM_iff hgs, mem_mapM_iff hfilters]
  simp only [h]

/-- Whether configured rules and filters act each for itself in an analyzer: no filter undoes
another one, the order of filters is no matter, and no rule gets in the way of another one. -/
structure Composes (rules filters : List RuleSpec) (a : Analyzer) (d : Diff) : Prop where
  analyzed : ∀ next, (a.analyze next d).map Leak.withoutId = (a.sightings d).map Prod.fst
  guarded : ∀ s ∈ a.sightings d, suppresses Rule.builtinFilters d.filePath s.2 = false
  narrowed : ∀ added extra, RuleSpec.compileAll added = .ok extra →
    ∃ b, ofSpecs rules (filters ++ added) = .ok b ∧
      b.sightings d = (a.sightings d).filter fun s => !suppresses extra d.filePath s.2
  unordered : ∀ other, (∀ f, f ∈ other ↔ f ∈ filters) →
    ∃ b, ofSpecs rules other = .ok b ∧ b.sightings d = a.sightings d
  divided : ∀ front back, front ≠ [] → back ≠ [] → rules = front ++ back →
    ∃ b c, ofSpecs front filters = .ok b ∧ ofSpecs back filters = .ok c ∧
      a.sightings d = b.sightings d ++ c.sightings d
  extended : ∀ front r back, front ++ back ≠ [] → rules = front ++ r :: back →
    ∃ b, ofSpecs (front ++ back) filters = .ok b ∧ (b.sightings d).Sublist (a.sightings d)

theorem ofSpecs_composes (h : ofSpecs rules filters = .ok a) (d : Diff) :
    Composes rules filters a d := by
  obtain ⟨rs, fs, hrules, hfilters, rfl⟩ := ofSpecs_eq_ok_iff.mp h
  refine ⟨fun next => map_withoutId_analyze _ next d,
    fun s => suppresses_builtin_of_mem_sightings, ?_, ?_, ?_, ?_⟩
  · intro added extra hadded
    refine ⟨_, ofSpecs_eq_ok_iff.mpr ⟨rs, fs ++ extra, hrules, ?_, rfl⟩,
      sightings_ofConfigured_append_filters rs fs extra d⟩
    exact mapM_append_eq_ok_iff.mpr ⟨fs, extra, hfilters, hadded, rfl⟩
  · intro other hother
    obtain ⟨gs, hgs, hmem⟩ := exists_compileAll_of_mem_iff hfilters hother
    exact ⟨_, ofSpecs_eq_ok_iff.mpr ⟨rs, gs, hrules, hgs, rfl⟩,
      sightings_ofConfigured_congr rs hmem d⟩
  · rintro front back hfront hback rfl
    obtain ⟨front', back', hf, hb, rfl⟩ := mapM_append_eq_ok_iff.mp hrules
    have hf' := ne_nil_of_compileAll hf hfront
    have hb' := ne_nil_of_compileAll hb hback
    refine ⟨_, _, ofSpecs_eq_ok_iff.mpr ⟨front', fs, hf, hfilters, rfl⟩,
      ofSpecs_eq_ok_iff.mpr ⟨back', fs, hb, hfilters, rfl⟩, ?_⟩
    rw [ofConfigured_of_ne_nil hf', ofConfigured_of_ne_nil hb',
      ofConfigured_of_ne_nil (by simp [hf']), sightings_append_rules]
  · rintro front r back hothers rfl
    obtain ⟨front', rest', hf, hrest, rfl⟩ := mapM_append_eq_ok_iff.mp hrules
    obtain ⟨own', back', hown, hb, rfl⟩ := mapM_append_eq_ok_iff.mp
      (show ([r] ++ back).mapM RuleSpec.compile = .ok rest' from hrest)
    have hcompiled : RuleSpec.compileAll (front ++ back) = .ok (front' ++ back') :=
      mapM_append_eq_ok_iff.mpr ⟨front', back', hf, hb, rfl⟩
    have hothers' := ne_nil_of_compileAll hcompiled hothers
    have hall' := ne_nil_of_compileAll hrules (by simp)
    refine ⟨_, ofSpecs_eq_ok_iff.mpr ⟨front' ++ back', fs, hcompiled, hfilters, rfl⟩, ?_⟩
    rw [ofConfigured_of_ne_nil hothers', ofConfigured_of_ne_nil hall', sightings_append_rules,
      sightings_append_rules, sightings_append_rules]
    exact .append (.refl _) (List.sublist_append_right _ _)

def pairedRules : List RuleSpec := [⟨"key", "", "key="⟩, ⟨"pin", "", "pin=[0-9]"⟩]

def pairedFilters : List RuleSpec := [⟨"dummy", "", "dummy"⟩]

def pairedDiff : Diff :=
  ⟨"h", "u", "r", "f", 1, "pin=1 key=2\nkey=dummy\nkey=changeme\nkey=3", "Ann", "ann@x",
    ⟨0, 0, none⟩⟩

/-- Two rules, one of them with a match in two lines that are not suppressed. -/
theorem ofSpecs_composes_paired : ∃ a, ofSpecs pairedRules pairedFilters = .ok a ∧
    ((a.analyze 0 pairedDiff).map fun l => (l.patternName, l.line)) =
      [("key", 1), ("key", 4), ("pin", 1)] ∧
    Composes pairedRules pairedFilters a pairedDiff := by
  have h := eq_ok_getD (e := ofSpecs pairedRules pairedFilters) (by decide +kernel) ⟨[], []⟩
  exact ⟨_, h, by decide +kernel, ofSpecs_composes h pairedDiff⟩

end Analyzer

end SecretSweep
