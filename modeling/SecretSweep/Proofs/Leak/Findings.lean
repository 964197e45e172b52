import Mathlib.Algebra.Order.BigOperators.Group.List
import Mathlib.Algebra.Order.Group.Nat
import Mathlib.Data.List.Basic
import Mathlib.Tactic.SplitIfs
import SecretSweep.Leak.Analyzer

/-!
The leaks of one rule among those of all: what the other rules find and how leaks are numbered is
no matter to it.
-/

namespace SecretSweep.Analyzer

/-- The files and lines of the leaks that bear the name of a rule. -/
def sitesOf (r : Rule) (leaks : List Leak) : List (String × Int) :=
  (leaks.filter (·.patternName = r.name)).map fun l => (l.filePath, l.line)

variable {a : Analyzer} {r : Rule}

theorem sitesOf_mapIdx (d : Diff) (findings : List Finding) (ids : Nat → String) :
    sitesOf r (findings.mapIdx fun i f => leakOf d f (ids i)) =
      (findings.filter (·.rule.name = r.name)).map fun f =>
        (d.filePath, lineOf d.lineBegin f.offset) := by
  induction findings generalizing ids with
  | nil => rfl
  | cons f rest ih =>
    have hrest := ih fun i => ids (i + 1)
    unfold sitesOf at hrest ⊢
    by_cases hname : f.rule.name = r.name <;> simp [List.mapIdx_cons, leakOf, hname] <;> exact hrest

theorem rule_of_mem_findingsOf {filters : List Rule} {path : String} {lines : List String}
    {f : Finding} (h : f ∈ findingsOf filters path lines r) : f.rule = r := by
  unfold findingsOf at h
  cases hc : r.content with
  | none =>
    simp only [hc] at h
    split_ifs at h
    · simp at h
    · rw [List.mem_singleton.mp h]
  | some pattern =>
    simp only [hc, List.mem_filterMap] at h
    obtain ⟨⟨line, offset⟩, -, hf⟩ := h
    cases hfind : pattern.find? line with
    | none => simp [hfind] at hf
    | some text =>
      simp only [hfind] at hf
      split_ifs at hf
      rw [← Option.some.inj hf]

theorem length_findingsOf_le (filters : List Rule) (path : String) (lines : List String)
    (r : Rule) : (findingsOf filters path lines r).length ≤ lines.length + 1 := by
  unfold findingsOf
  cases r.content with
  | none =>
    dsimp only
    split_ifs
    · exact Nat.zero_le _
    · exact Nat.le_add_left 1 _
  | some pattern =>
    refine Nat.le_trans (List.length_filterMap_le ..) ?_
    rw [List.length_zipIdx]
    exact Nat.le_succ _

/-- No search finds more than one leak. -/
theorem length_analyze_le (a : Analyzer) (next : Nat) (d : Diff) :
    (a.analyze next d).length ≤ a.searches d := by
  rw [analyze, List.length_mapIdx, findings, List.length_flatMap]
  refine Nat.le_trans (List.sum_le_card_nsmul _ ((linesOf d.content).length + 1) ?_) ?_
  · intro n hn
    obtain ⟨r, -, rfl⟩ := List.mem_map.mp hn
    exact length_findingsOf_le ..
  · rw [List.length_map]
    exact Nat.le_refl _

/-- Filters take away what was found in the lines that they suppress, and nothing else. -/
theorem findingsOf_eq_filter (filters : List Rule) (path : String) (lines : List String)
    (r : Rule) : findingsOf filters path lines r =
      (findingsOf [] path lines r).filter fun f =>
        !suppresses filters path (lines.getD f.offset "") := by
  have hfree : ∀ line, suppresses [] path line = false := fun _ => rfl
  cases hc : r.content with
  | none =>
    have hfirst : lines.getD 0 "" = lines.headD "" := by cases lines <;> rfl
    simp only [findingsOf, hc, hfree, Bool.false_eq_true, if_false, List.filter_cons, hfirst]
    cases suppresses filters path (lines.headD "") <;> rfl
  | some pattern =>
    simp only [findingsOf, hc, hfree, Bool.false_eq_true, if_false, List.filter_filterMap]
    refine List.filterMap_congr fun (line, offset) hline => ?_
    have hat : lines.getD offset "" = line := by
      rw [List.getD_eq_getElem?_getD, List.mk_mem_zipIdx_iff_getElem?.mp hline, Option.getD_some]
    cases pattern.find? line with
    | none => rfl
    | some text =>
      simp only [Option.filter, hat]
      cases suppresses filters path line <;> rfl

/-- A rule that alone has its name finds the same whatever other rules there are. -/
theorem filter_findings (h : a.rules.filter (·.name = r.name) = [r]) (path content : String) :
    (a.findings path content).filter (·.rule.name = r.name) =
      if r.appliesTo path then findingsOf a.filters path (linesOf content) r else [] := by
  have hown : ∀ r' : Rule, (findingsOf a.filters path (linesOf content) r').filter
      (·.rule.name = r.name) =
        if r'.name = r.name then findingsOf a.filters path (linesOf content) r' else [] := by
    intro r'
    split_ifs with hname
    · refine List.filter_eq_self.mpr fun f hf => ?_
      simpa [rule_of_mem_findingsOf hf] using hname
    · refine List.filter_eq_nil_iff.mpr fun f hf => ?_
      simpa [rule_of_mem_findingsOf hf] using hname
  have hcut : ∀ rules : List Rule, (rules.flatMap fun r' => if r'.name = r.name
      then findingsOf a.filters path (linesOf content) r' else []) =
        (rules.filter (·.name = r.name)).flatMap (findingsOf a.filters path (linesOf content)) := by
    intro rules
    induction rules with
    | nil => rfl
    | cons r' rest ih => by_cases hname : r'.name = r.name <;> simp [hname, ih]
  have happlicable : (a.applicable path).filter (·.name = r.name) =
      if r.appliesTo path then [r] else [] := by
    have hcomm : (a.rules.filter (·.appliesTo path)).filter (·.name = r.name) =
        (a.rules.filter (·.name = r.name)).filter (·.appliesTo path) := by
      rw [List.filter_filter, List.filter_filter]
      exact List.filter_congr fun r' _ => Bool.and_comm _ _
    rw [applicable, hcomm, h]
    cases hr : r.appliesTo path <;> simp [hr]
  rw [findings, List.filter_flatMap]
  simp only [hown]
  rw [hcut, happlicable]
  split_ifs <;> simp

theorem sitesOf_analyze (h : a.rules.filter (·.name = r.name) = [r]) (next : Nat) (d : Diff) :
    sitesOf r (a.analyze next d) =
      if r.appliesTo d.filePath then
        (findingsOf a.filters d.filePath (linesOf d.content) r).map fun f =>
          (d.filePath, lineOf d.lineBegin f.offset)
      else [] := by
  rw [analyze, sitesOf_mapIdx, filter_findings h]
  split_ifs <;> rfl

theorem sitesOf_append (r : Rule) (leaks more : List Leak) :
    sitesOf r (leaks ++ more) = sitesOf r leaks ++ sitesOf r more := by
  simp [sitesOf]

/-- The diffs contribute one after the other, and how leaks are numbered through does not matter. -/
theorem sitesOf_analyzeAll (h : a.rules.filter (·.name = r.name) = [r]) (next : Nat)
    (diffs : List Diff) : sitesOf r (a.analyzeAll next diffs).flatten =
      diffs.flatMap fun d => sitesOf r (a.analyze 0 d) := by
  induction diffs generalizing next with
  | nil => rfl
  | cons d rest ih =>
    rw [analyzeAll, List.flatten_cons, sitesOf_append, ih, List.flatMap_cons, sitesOf_analyze h,
      sitesOf_analyze h]

/-- Whether a rule matches a line of a file, and no filter suppresses it. -/
def reports (a : Analyzer) (r : Rule) (path line : String) : Bool :=
  r.appliesTo path && (r.findIn line).isSome && !suppresses a.filters path line

/-- A rule for lines is matched against each line by itself. -/
theorem sitesOf_analyze_lines (h : a.rules.filter (·.name = r.name) = [r]) (hr : r.content.isSome)
    (next : Nat) (d : Diff) : sitesOf r (a.analyze next d) =
      ((linesOf d.content).zipIdx.filter fun (line, _) => a.reports r d.filePath line).map
        fun (_, offset) => (d.filePath, lineOf d.lineBegin offset) := by
  obtain ⟨pattern, hpattern⟩ := Option.isSome_iff_exists.mp hr
  rw [sitesOf_analyze h]
  cases happlies : r.appliesTo d.filePath with
  | false => simp [reports, happlies]
  | true =>
    rw [if_pos rfl, findingsOf, hpattern]
    generalize linesOf d.content = lines
    generalize 0 = offset
    induction lines generalizing offset with
    | nil => rfl
    | cons line rest ih =>
      have hrest := ih (offset + 1)
      have hreports : a.reports r d.filePath line =
          ((pattern.find? line).isSome && !suppresses a.filters d.filePath line) := by
        simp [reports, happlies, Rule.findIn, hpattern]
      simp only [List.zipIdx_cons, List.filterMap_cons, List.filter_cons, hreports]
      cases pattern.find? line with
      | none => simpa using hrest
      | some text => cases suppresses a.filters d.filePath line <;> simpa using hrest

end SecretSweep.Analyzer
