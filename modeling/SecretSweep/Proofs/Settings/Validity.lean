import SecretSweep.Proofs.Result
import SecretSweep.Settings.Load

/-!
What is known of settings that are accepted.
-/

namespace SecretSweep

/-- Whether a rule looks at paths or at lines. -/
def RuleSpec.IsSelective (rule : RuleSpec) : Prop := rule.file ≠ "" ∨ rule.content ≠ ""

namespace Settings

/-- Whether a run can use settings: the history does not start in the future, the queue holds
something, and each rule selects something. -/
structure IsValid (s : Settings) : Prop where
  history : 0 ≤ s.common.historyDays
  queue : 1 ≤ s.common.queueSize
  rules : ∀ rule ∈ s.rules ++ s.filters, rule.IsSelective

variable {loader : Yaml.Loader} {e : Files.Environment} {t : Files.Tree} {d : Yaml.Document}

theorem inBounds_eq_ok_iff {c common : CommonSettings} : inBounds c = .ok common ↔
    common = c ∧ 0 ≤ c.historyDays ∧ 1 ≤ c.queueSize := by
  unfold inBounds
  split
  · simp
    omega
  · split
    · simp
      omega
    · constructor
      · rintro ⟨⟩
        exact ⟨rfl, by omega, by omega⟩
      · rintro ⟨rfl, -⟩
        rfl

theorem bounds_of_commonOf {s : Section} {common : CommonSettings}
    (h : commonOf d e s = .ok common) : 0 ≤ common.historyDays ∧ 1 ≤ common.queueSize := by
  unfold commonOf at h
  split at h
  · -- Two paths and then the numbers are read before any of them is looked at.
    iterate 3 obtain ⟨_, -, h⟩ := eq_ok_of_bind h
    obtain ⟨rfl, hbounds⟩ := inBounds_eq_ok_iff.mp h
    exact hbounds
  · cases h

theorem isSelective_of_namedRule {sectionName : String} {s : Section} {v : Yaml.Value}
    {rule : RuleSpec} (h : namedRule d sectionName s v = .ok rule) : rule.IsSelective := by
  obtain ⟨file, -, h⟩ := eq_ok_of_bind h
  obtain ⟨content, -, h⟩ := eq_ok_of_bind h
  obtain ⟨name, -, h⟩ := eq_ok_of_bind h
  split at h
  · cases h
  · next hempty =>
    obtain rfl := Except.ok.inj h
    simpa [RuleSpec.IsSelective, Decidable.imp_iff_not_or] using hempty

theorem isSelective_of_ruleOf {sectionName : String} {entry : Yaml.Value} {rule : RuleSpec}
    (h : ruleOf d sectionName entry = .ok rule) : rule.IsSelective := by
  unfold ruleOf at h
  split at h
  · cases h
  · dsimp only at h
    split at h
    · cases h
    · exact isSelective_of_namedRule h

theorem isSelective_of_rulesOf {root : Section} {sectionName : String} {rules : List RuleSpec}
    (h : rulesOf d root sectionName = .ok rules) : ∀ rule ∈ rules, rule.IsSelective := by
  obtain ⟨entries, -, h⟩ := eq_ok_of_bind h
  intro rule hrule
  obtain ⟨entry, -, hentry⟩ := exists_of_mem_mapM h hrule
  exact isSelective_of_ruleOf hentry

/-- What is read after the common settings leaves them as they are. -/
theorem isValid_of_ofDocument {settings : Settings} (h : ofDocument e t d = .ok settings) :
    settings.IsValid := by
  obtain ⟨root, -, h⟩ := eq_ok_of_bind h
  obtain ⟨entries, -, h⟩ := eq_ok_of_bind h
  obtain ⟨common, hcommon, h⟩ := eq_ok_of_bind h
  -- Then come the mail settings and the targets.
  iterate 4 obtain ⟨_, -, h⟩ := eq_ok_of_bind h
  obtain ⟨rules, hrules, h⟩ := eq_ok_of_bind h
  obtain ⟨filters, hfilters, h⟩ := eq_ok_of_bind h
  obtain rfl := Except.ok.inj h
  obtain ⟨hhistory, hqueue⟩ := bounds_of_commonOf hcommon
  refine ⟨hhistory, hqueue, fun rule hrule => ?_⟩
  obtain hrule | hrule := List.mem_append.mp hrule
  · exact isSelective_of_rulesOf hrules rule hrule
  · exact isSelective_of_rulesOf hfilters rule hrule

theorem isValid_of_ofText {text : String} {settings : Settings}
    (h : ofText loader e t text = .ok settings) : settings.IsValid := by
  obtain ⟨d, -, hd⟩ := eq_ok_of_bind h
  exact isValid_of_ofDocument hd

/-- Settings that are accepted do not ask for a history that starts in the future. -/
theorem historyDays_nonneg {text : String} {settings : Settings}
    (h : ofText loader e t text = .ok settings) : 0 ≤ settings.common.historyDays :=
  (isValid_of_ofText h).history

theorem isValid_default (stateFile : Files.Path) : (default stateFile).IsValid where
  history := show (0 : Int) ≤ 365 by decide
  queue := show (1 : Int) ≤ 1000 by decide
  rules := nofun

/-- The environment has no say in what makes settings valid. -/
theorem isValid_of_applyEnvironment {s settings : Settings} (hs : s.IsValid)
    (h : applyEnvironment e s = .ok settings) : settings.IsValid := by
  obtain ⟨interval, -, h⟩ := eq_ok_of_bind h
  obtain ⟨stateFile, -, h⟩ := eq_ok_of_bind h
  obtain rfl := Except.ok.inj h
  exact ⟨hs.history, hs.queue, hs.rules⟩

theorem isValid_of_loadFile {path : Files.Path} {settings : Settings}
    (h : loadFile loader e t path = .ok settings) : settings.IsValid := by
  unfold loadFile at h
  split at h
  · cases h
  · obtain ⟨content, -, h⟩ := eq_ok_of_bind h
    obtain ⟨text, -, h⟩ := eq_ok_of_bind h
    obtain ⟨s, hs, h⟩ := eq_ok_of_bind h
    exact isValid_of_applyEnvironment (isValid_of_ofText hs) h

theorem isValid_of_load {path : Option String} {settings : Settings}
    (h : load loader e t path = .ok settings) : settings.IsValid := by
  unfold load at h
  split at h
  · exact isValid_of_loadFile h
  · split at h
    · cases h
    · obtain ⟨isFile, -, h⟩ := eq_ok_of_bind h
      split at h
      · exact isValid_of_loadFile h
      · split at h
        · exact isValid_of_applyEnvironment (isValid_default _) h
        · cases h

end Settings

end SecretSweep
