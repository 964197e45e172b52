import SecretSweep.Proofs.Settings.Acceptance

/-!
Which settings are refused as a failure of the configuration, and which ones fail in another way.
What is read is gone through in order, and the first thing that is wrong counts. Sections of the
wrong kind, entries without a name and values that are no numbers are failures of the configuration.
Others are what a loader runs into beside texts that are no documents, infinite reals where an
integer is wanted, integers that are too large for a real, values that are too deep to be shown, and
entries of a list whose values have no text. Nothing is assumed of the loader.
-/

namespace SecretSweep

open Yaml (Document Loader Value)

theorem TextFault.kind_ne_configuration (fault : TextFault) :
    fault.toFailure.kind ≠ .configuration := by
  cases fault with
  | unshown reason => cases reason <;> decide
  | nullInUser => decide

theorem Files.Refusal.kind_ne_configuration (r : Files.Refusal) : r.kind ≠ .configuration := by
  cases r <;> decide

namespace SettingsFault

/-- Whether a caller sees something else than a failure of the configuration. -/
def IsForeign (fault : SettingsFault) : Prop := fault.toFailure.kind ≠ .configuration

instance : DecidablePred IsForeign := fun fault =>
  inferInstanceAs (Decidable (fault.toFailure.kind ≠ .configuration))

theorem isForeign_number {sectionName : String} {fault : NumberFault} :
    (number sectionName fault).IsForeign ↔ fault.isOverflow := by
  unfold IsForeign toFailure
  cases h : fault.isOverflow <;> simp [h]

theorem isForeign_yaml {fault : Yaml.LoadFault} : (yaml fault).IsForeign ↔
    ∃ failure, fault = .other failure ∧ failure.kind ≠ .configuration := by
  cases fault <;> simp [IsForeign, toFailure]

theorem isForeign_text {sectionName : String} {fault : TextFault} :
    (text sectionName fault).IsForeign ↔ fault.isTooDeep := by
  unfold IsForeign toFailure
  cases h : fault.isTooDeep <;> simp [h, fault.kind_ne_configuration]

theorem isForeign_noText (fault : TextFault) : (noText fault).IsForeign :=
  fault.kind_ne_configuration

theorem isForeign_encoding (error : Text.Utf8.DecodeError) : (encoding error).IsForeign := nofun

theorem isForeign_refused (path : String) (refusal : Files.Refusal) :
    (refused path refusal).IsForeign := refusal.kind_ne_configuration

end SettingsFault

namespace Settings

open SettingsFault

/-- Whether settings are valid, or are refused as a failure of the configuration. -/
inductive Settles : Except SettingsFault Settings → Prop
  | accepted {settings : Settings} (valid : settings.IsValid) : Settles (.ok settings)
  | refused {fault : SettingsFault} (kind : fault.toFailure.kind = .configuration) :
    Settles (.error fault)

/-- Whether something fails in another way than as a failure of the configuration. -/
abbrev Escapes {α : Type} (r : Except SettingsFault α) : Prop := FailsWith IsForeign r

theorem settles_iff {r : Except SettingsFault Settings}
    (h : ∀ settings, r = .ok settings → settings.IsValid) : Settles r ↔ ¬ Escapes r := by
  cases r with
  | ok settings => exact iff_of_true (.accepted (h settings rfl)) (not_failsWith_ok settings)
  | error fault =>
    have hforeign : Escapes (.error fault : Except SettingsFault Settings) ↔ fault.IsForeign :=
      failsWith_error
    rw [hforeign, IsForeign, Decidable.not_not]
    exact ⟨fun | .refused kind => kind, .refused⟩

variable {loader : Loader} {d : Document} {e : Files.Environment} {t : Files.Tree}
  {s root : Section} {name : String}

/-- Whether a number is beyond the range of its kind. -/
abbrev Overflows {α : Type} (r : Except NumberFault α) : Prop := FailsWith (·.isOverflow) r

/-- An infinite real stands under a name. -/
def InfiniteAt (s : Section) (name : String) : Prop :=
  ∃ x negative, s.get? name = some (.float x) ∧ Decimal.Binary.ofFloat x = .infinite negative

/-- An integer stands under a name that is beyond all reals. -/
def TooLargeAt (s : Section) (name : String) : Prop :=
  ∃ n, s.get? name = some (.int n) ∧ (Decimal.nearestInt n).isInf

theorem overflows_integerOf {v : Value} : Overflows (integerOf d v) ↔
    ∃ x negative, v = .float x ∧ Decimal.Binary.ofFloat x = .infinite negative := by
  cases v with
  | float x =>
    cases hx : Decimal.Binary.ofFloat x <;> simp [integerOf, hx, NumberFault.isOverflow]
  | _ => simp [integerOf, failsWith_mapError, NumberFault.isOverflow, FailsWith]

theorem overflows_integerIn {default : Int} :
    Overflows (integerIn d s name default) ↔ InfiniteAt s name := by
  simp only [integerIn, failsWith_readOr, overflows_integerOf, InfiniteAt]
  constructor
  · rintro ⟨_, hv, x, negative, rfl, hx⟩
    exact ⟨x, negative, hv, hx⟩
  · rintro ⟨x, negative, hv, hx⟩
    exact ⟨_, hv, x, negative, rfl, hx⟩

theorem not_overflows_realOfText {text shown : List Char} :
    ¬ Overflows (realOfText text shown) := by
  unfold realOfText
  split <;> simp [NumberFault.isOverflow]

theorem overflows_realOf {v : Value} : Overflows (realOf d v) ↔
    ∃ n, v = .int n ∧ (Decimal.nearestInt n).isInf := by
  cases v with
  | int n =>
    cases hn : (Decimal.nearestInt n).isInf <;> simp [realOf, hn, NumberFault.isOverflow]
  | text s => simpa [realOf] using not_overflows_realOfText
  | bytes b => simpa [realOf] using not_overflows_realOfText
  | _ => simp [realOf, NumberFault.isOverflow]

theorem overflows_realIn {default : Float} :
    Overflows (realIn d s name default) ↔ TooLargeAt s name := by
  simp only [realIn, failsWith_readOr, overflows_realOf, TooLargeAt]
  constructor
  · rintro ⟨_, hv, n, rfl, hn⟩
    exact ⟨n, hv, hn⟩
  · rintro ⟨n, hv, hn⟩
    exact ⟨_, hv, n, rfl, hn⟩

/-- The first of the numbers of a section that is none is out of range. -/
def NumbersOverflow (d : Document) (s : Section) : Prop :=
  InfiniteAt s "history_limit_days" ∨ Reads (integerOf d) (s.get? "history_limit_days") ∧
  (TooLargeAt s "scan_interval" ∨ Reads (realOf d) (s.get? "scan_interval") ∧
  (InfiniteAt s "queue_size" ∨ Reads (integerOf d) (s.get? "queue_size") ∧
  TooLargeAt s "drain_timeout"))

theorem overflows_numbersOf {default : CommonSettings} :
    Overflows (numbersOf d s default) ↔ NumbersOverflow d s := by
  -- Of the numbers before it, a number depends on nothing but their being there.
  simp only [numbersOf, failsWith_bind, overflows_integerIn, overflows_realIn, not_failsWith_pure,
    and_false, exists_false, or_false, exists_and_right, ← isOk_iff, isOk_integerIn, isOk_realIn,
    NumbersOverflow]

/-- Whether there is no text since a value is too deep. -/
abbrev IsTooDeep {α : Type} (r : Except TextFault α) : Prop := FailsWith (·.isTooDeep) r

/-- A value is found that is too deep to be shown. -/
def FindsTooDeep (d : Document) (found : Option Value) : Prop :=
  ∃ v, found = some v ∧ d.text v = .error .tooDeep

theorem isTooDeep_stringOf {v : Value} : IsTooDeep (stringOf d v) ↔ d.text v = .error .tooDeep := by
  cases h : d.text v <;> simp [stringOf, h, TextFault.isTooDeep]

theorem isTooDeep_pathOf {v : Value} : IsTooDeep (pathOf d e v) ↔ d.text v = .error .tooDeep := by
  have hhome (path : String) : ¬ IsTooDeep (homeIn e path) := by
    unfold homeIn
    split <;> simp [TextFault.isTooDeep]
  simp only [pathOf, failsWith_bind, isTooDeep_stringOf, hhome, not_failsWith_pure, and_false,
    exists_false, or_false]

theorem isTooDeep_textIn {default : String} :
    IsTooDeep (textIn d s name default) ↔ FindsTooDeep d (s.get? name) := by
  simp only [textIn, failsWith_readOr, isTooDeep_stringOf, FindsTooDeep]

theorem isTooDeep_pathIn :
    IsTooDeep (pathIn d e s name) ↔ FindsTooDeep d (s.true? d name) := by
  simp only [pathIn, failsWith_readOr, failsWith_map, isTooDeep_pathOf, FindsTooDeep]

/-- There is no home for the default state file; or the first of the paths and the numbers that
cannot be read is a path that is too deep, or a number that is out of range. -/
def CommonEscapes (d : Document) (e : Files.Environment) (s : Section) : Prop :=
  CommonSettings.defaultStateFile? e = none ∨
  FindsTooDeep d (s.true? d "state_db") ∨ Reads (pathOf d e) (s.true? d "state_db") ∧
  (FindsTooDeep d (s.true? d "leaks_file") ∨ Reads (pathOf d e) (s.true? d "leaks_file") ∧
  NumbersOverflow d s)

theorem escapes_text {α : Type} {r : Except TextFault α} {sectionName : String} :
    Escapes (r.mapError (.text sectionName)) ↔ IsTooDeep r := by
  simp only [failsWith_mapError, isForeign_text]

theorem escapes_number {α : Type} {r : Except NumberFault α} {sectionName : String} :
    Escapes (r.mapError (.number sectionName)) ↔ Overflows r := by
  simp only [failsWith_mapError, isForeign_number]

theorem not_escapes_inBounds {common : CommonSettings} : ¬ Escapes (inBounds common) := by
  unfold inBounds
  split
  · simp [IsForeign, toFailure]
  · split <;> simp [IsForeign, toFailure]

theorem escapes_commonOf : Escapes (commonOf d e s) ↔ CommonEscapes d e s := by
  unfold commonOf CommonEscapes
  cases hfile : CommonSettings.defaultStateFile? e with
  | none => exact iff_of_true (failsWith_error.mpr nofun) (.inl rfl)
  | some stateFile =>
    simp only [failsWith_bind, escapes_text, isTooDeep_pathIn, escapes_number, overflows_numbersOf,
      not_escapes_inBounds, and_false, exists_false, or_false, false_or, exists_and_right,
      ← isOk_iff, isOk_mapError, isOk_pathIn, reduceCtorEq]

/-- The first of the mail settings that cannot be read is a text that is too deep, or a port that is
out of range. -/
def MailEscapes (d : Document) (s : Section) : Prop :=
  FindsTooDeep d (s.get? "host") ∨ Reads (stringOf d) (s.get? "host") ∧
  (InfiniteAt s "port" ∨ Reads (integerOf d) (s.get? "port") ∧
  (FindsTooDeep d (s.get? "username") ∨ Reads (stringOf d) (s.get? "username") ∧
  (FindsTooDeep d (s.get? "password") ∨ Reads (stringOf d) (s.get? "password") ∧
  (FindsTooDeep d (s.get? "from") ∨ Reads (stringOf d) (s.get? "from") ∧
  FindsTooDeep d (s.get? "recipient")))))

theorem escapes_mailOf : Escapes (mailOf d s) ↔ MailEscapes d s := by
  simp only [mailOf, MailEscapes, failsWith_bind, escapes_text, isTooDeep_textIn, escapes_number,
    overflows_integerIn, not_failsWith_pure, and_false, exists_false, or_false,
    exists_and_right, ← isOk_iff, isOk_mapError, isOk_textIn, isOk_integerIn]

theorem failsOnlyWith_noText {α : Type} {r : Except TextFault α} :
    FailsOnlyWith IsForeign (r.mapError .noText) := failsOnlyWith_mapError isForeign_noText

theorem escapes_showing {α : Type} {v : Value} {fault : String → SettingsFault}
    (h : ∀ shown, ¬ (fault shown).IsForeign) :
    Escapes (.error (showing d v fault) : Except SettingsFault α) ↔ ¬ (d.shownText v).isOk := by
  refine failsWith_error.trans ?_
  unfold showing
  cases d.shownText v with
  | error reason => exact iff_of_true (isForeign_noText _) nofun
  | ok shown => exact iff_of_false (h shown) (not_not_intro rfl)

/-- An entry without a target cannot be shown in the message about it; or a value of one that has
targets has no text, or the paths that it covers cannot be looked up. -/
inductive TargetEscapes (d : Document) (e : Files.Environment) (t : Files.Tree) (entry : Value) :
    Prop
  | unshown (useless : ∀ s : Section, d.entries? entry = some s →
      s.get? "path" = none ∧ s.get? "glob" = none)
    (shown : ¬ (d.shownText entry).isOk) : TargetEscapes d e t entry
  | path {s : Section} {v : Value} (fields : d.entries? entry = some s)
    (path : s.get? "path" = some v)
    (unread : ¬ ((pathOf d e v).isOk ∧ Reads (stringOf d) (s.get? "url"))) :
    TargetEscapes d e t entry
  | pattern {s : Section} {v : Value} (fields : d.entries? entry = some s)
    (path : s.get? "path" = none) (glob : s.get? "glob" = some v)
    (unread : ¬ (Reads (stringOf d) (s.get? "url_prefix") ∧ IsCoverable d e t v)) :
    TargetEscapes d e t entry

theorem escapes_targetAt {v : Value} : Escapes (targetAt d e s v) ↔
    ¬ ((pathOf d e v).isOk ∧ Reads (stringOf d) (s.get? "url")) := by
  have h : FailsOnlyWith IsForeign (targetAt d e s v) :=
    failsOnlyWith_noText.bind fun _ => failsOnlyWith_noText.bind fun _ => failsOnlyWith_ok _
  exact h.failsWith_iff.trans (not_congr isOk_targetAt)

theorem failsOnlyWith_coveredTarget (start path : String) :
    FailsOnlyWith IsForeign (coveredTarget t start path) :=
  (failsOnlyWith_mapError (isForeign_refused _)).bind fun _ => failsOnlyWith_ok _

theorem failsOnlyWith_targetsAlong (start pattern : String) :
    FailsOnlyWith IsForeign (targetsAlong t start pattern) := by
  unfold targetsAlong
  split
  · exact (FailsOnlyWith.mapM (failsOnlyWith_coveredTarget start) _).bind
      fun _ => failsOnlyWith_ok _
  · rintro _ ⟨⟩
    exact nofun

theorem escapes_targetsCovered {v : Value} : Escapes (targetsCovered d e t s v) ↔
    ¬ (Reads (stringOf d) (s.get? "url_prefix") ∧ IsCoverable d e t v) := by
  have h : FailsOnlyWith IsForeign (targetsCovered d e t s v) :=
    failsOnlyWith_noText.bind fun start =>
      failsOnlyWith_noText.bind (failsOnlyWith_targetsAlong start)
  exact h.failsWith_iff.trans (not_congr isOk_targetsCovered)

theorem escapes_targetsOf {entry : Value} :
    Escapes (targetsOf d e t entry) ↔ TargetEscapes d e t entry := by
  unfold targetsOf
  constructor
  · intro h
    split at h
    · next hnone =>
      exact .unshown (fun s hs => by rw [hnone] at hs; cases hs)
        ((escapes_showing fun _ h => h rfl).mp h)
    · next fields hfields =>
      dsimp only at h
      split at h
      · next v hpath => exact .path hfields hpath (escapes_targetAt.mp h)
      · next v hpath hglob => exact .pattern hfields hpath hglob (escapes_targetsCovered.mp h)
      · next hpath hglob =>
        refine .unshown (fun s hs => ?_) ((escapes_showing fun _ h => h rfl).mp h)
        obtain rfl := Option.some.inj (hfields.symm.trans hs)
        exact ⟨hpath, hglob⟩
  · rintro (⟨useless, shown⟩ | ⟨fields, path, unread⟩ | ⟨fields, path, glob, unread⟩)
    · split
      · exact (escapes_showing fun _ h => h rfl).mpr shown
      · next fields hfields =>
        obtain ⟨hpath, hglob⟩ := useless fields hfields
        simp only [hpath, hglob]
        exact (escapes_showing fun _ h => h rfl).mpr shown
    · simp only [fields, path]
      exact escapes_targetAt.mpr unread
    · simp only [fields, path, glob]
      exact escapes_targetsCovered.mpr unread

/-- An entry that is no rule cannot be shown in the message about it, or a value of one that is has
no text. -/
inductive RuleEscapes (d : Document) (entry : Value) : Prop
  | unshown (nameless : ∀ s : Section, d.entries? entry = some s → s.get? "name" = none)
    (shown : ¬ (d.shownText entry).isOk) : RuleEscapes d entry
  | text {s : Section} {v : Value} (fields : d.entries? entry = some s)
    (name : s.get? "name" = some v)
    (unread : ¬ (Reads (stringOf d) (s.true? d "file") ∧ Reads (stringOf d) (s.true? d "content") ∧
      (stringOf d v).isOk)) : RuleEscapes d entry

theorem escapes_namedRule {sectionName : String} {v : Value} :
    Escapes (namedRule d sectionName s v) ↔ ¬ (Reads (stringOf d) (s.true? d "file") ∧
      Reads (stringOf d) (s.true? d "content") ∧ (stringOf d v).isOk) := by
  have hempty (rule : RuleSpec) (isEmpty : Bool) :
      ¬ Escapes (if isEmpty then .error (.emptyEntry sectionName rule.name) else .ok rule) := by
    cases isEmpty
    · exact not_failsWith_ok rule
    · exact fun h => failsWith_error.mp h rfl
  have hend (file content name : String) :=
    hempty ⟨name, file, content⟩ (file.isEmpty && content.isEmpty)
  simp only [namedRule, failsWith_bind, failsOnlyWith_noText.failsWith_iff, hend, isOk_mapError,
    isOk_trueTextIn, and_false, exists_false, or_false, exists_and_right, ← isOk_iff]
  grind

theorem escapes_ruleOf {sectionName : String} {entry : Value} :
    Escapes (ruleOf d sectionName entry) ↔ RuleEscapes d entry := by
  unfold ruleOf
  constructor
  · intro h
    split at h
    · next hnone =>
      exact .unshown (fun s hs => by rw [hnone] at hs; cases hs)
        ((escapes_showing fun _ h => h rfl).mp h)
    · next fields hfields =>
      dsimp only at h
      split at h
      · next hname =>
        refine .unshown (fun s hs => ?_) ((escapes_showing fun _ h => h rfl).mp h)
        obtain rfl := Option.some.inj (hfields.symm.trans hs)
        exact hname
      · next v hname => exact .text hfields hname (escapes_namedRule.mp h)
  · rintro (⟨nameless, shown⟩ | ⟨fields, name, unread⟩)
    · split
      · exact (escapes_showing fun _ h => h rfl).mpr shown
      · next fields hfields =>
        simp only [nameless fields hfields]
        exact (escapes_showing fun _ h => h rfl).mpr shown
    · simp only [fields, name]
      exact escapes_namedRule.mpr unread

/-- Of the entries of a list, which are gone through in order, the first that cannot be read is one
that escapes. -/
def ListEscapes (reads escapes : Value → Prop) (entries : List Value) : Prop :=
  ∃ before entry after, entries = before ++ entry :: after ∧ (∀ b ∈ before, reads b) ∧ escapes entry

def RulesEscape (d : Document) (root : Section) (sectionName : String) : Prop :=
  ∃ entries, listOf d root sectionName = .ok entries ∧
    ListEscapes (RuleReads d) (RuleEscapes d) entries

theorem not_escapes_rootOf : ¬ Escapes (rootOf d) := by
  unfold rootOf
  split
  · exact not_failsWith_ok []
  · split
    · exact not_failsWith_ok _
    · exact fun h => failsWith_error.mp h rfl

theorem not_escapes_sectionOf : ¬ Escapes (sectionOf d root name) := by
  rintro h
  obtain ⟨v, -, h⟩ := failsWith_readOr.mp h
  unfold entriesOf at h
  split at h
  · exact not_failsWith_ok _ h
  · exact failsWith_error.mp h rfl

theorem not_escapes_listOf : ¬ Escapes (listOf d root name) := by
  rintro h
  obtain ⟨v, -, h⟩ := failsWith_readOr.mp h
  unfold itemsOf at h
  split at h
  · exact not_failsWith_ok _ h
  · exact failsWith_error.mp h rfl

theorem escapes_rulesOf {sectionName : String} :
    Escapes (rulesOf d root sectionName) ↔ RulesEscape d root sectionName := by
  simp only [rulesOf, failsWith_bind, not_escapes_listOf, failsWith_mapM, isOk_ruleOf,
    escapes_ruleOf, false_or, RulesEscape, ListEscapes]

/-- Of the sections of a document, which are gone through in order, the first that cannot be read is
one that escapes. -/
def DocumentEscapes (e : Files.Environment) (t : Files.Tree) (d : Document) : Prop :=
  ∃ root, rootOf d = .ok root ∧
  ∃ common, sectionOf d root "common" = .ok common ∧
    (CommonEscapes d e common ∨ CommonReads d e common ∧
  ∃ mail, sectionOf d root "smtp" = .ok mail ∧
    (MailEscapes d mail ∨ MailReads d mail ∧
  ∃ targets, listOf d root "inspect" = .ok targets ∧
    (ListEscapes (TargetReads d e t) (TargetEscapes d e t) targets ∨
      (∀ entry ∈ targets, TargetReads d e t entry) ∧
  (RulesEscape d root "patterns" ∨ RulesRead d root "patterns" ∧ RulesEscape d root "filters"))))

theorem escapes_ofDocument : Escapes (ofDocument e t d) ↔ DocumentEscapes e t d := by
  -- What is read later depends on the sections before it only in that they can be read.
  simp only [ofDocument, failsWith_bind, not_escapes_rootOf, not_escapes_sectionOf,
    not_escapes_listOf, escapes_commonOf, escapes_mailOf, failsWith_mapM, escapes_targetsOf,
    escapes_rulesOf, not_failsWith_pure, false_or, and_false, exists_false, or_false,
    exists_and_right, ← isOk_iff, isOk_commonOf, isOk_mailOf, isOk_mapM, isOk_targetsOf,
    isOk_rulesOf, DocumentEscapes, ListEscapes]

/-- The loader runs into something else than a text that is no document, or it loads a document with
something that escapes. -/
inductive TextEscapes (loader : Loader) (e : Files.Environment) (t : Files.Tree) (text : String) :
    Prop
  | load {failure : Failure} (loaded : loader text = .error (.other failure))
    (foreign : failure.kind ≠ .configuration) : TextEscapes loader e t text
  | document {d : Document} (loaded : loader text = .ok d) (escapes : DocumentEscapes e t d) :
    TextEscapes loader e t text

theorem escapes_ofText {text : String} :
    Escapes (ofText loader e t text) ↔ TextEscapes loader e t text := by
  unfold ofText
  cases hloaded : loader text with
  | error fault =>
    rw [mapError_error, error_bind]
    refine failsWith_error.trans (isForeign_yaml.trans ⟨?_, ?_⟩)
    · rintro ⟨failure, rfl, foreign⟩
      exact .load hloaded foreign
    · rintro (⟨loaded, foreign⟩ | ⟨loaded, -⟩)
      · cases hloaded.symm.trans loaded
        exact ⟨_, rfl, foreign⟩
      · cases hloaded.symm.trans loaded
  | ok d =>
    rw [mapError_ok, ok_bind]
    refine escapes_ofDocument.trans ⟨.document hloaded, ?_⟩
    rintro (⟨loaded, -⟩ | ⟨loaded, escapes⟩)
    · cases hloaded.symm.trans loaded
    · cases hloaded.symm.trans loaded
      exact escapes

/-- The interval of the environment can be read and its state file cannot. -/
def EnvironmentEscapes (e : Files.Environment) : Prop := IntervalReads e ∧ ¬ StateFileReads e

theorem not_escapes_scanIntervalOf {configured : Float} :
    ¬ Escapes (scanIntervalOf e configured) := by
  unfold scanIntervalOf
  split
  · exact not_failsWith_ok _
  · simp [failsWith_mapError, FailsWith, IsForeign, toFailure]

theorem escapes_stateFileOf {configured : Files.Path} :
    Escapes (stateFileOf e configured) ↔ ¬ StateFileReads e := by
  have h : FailsOnlyWith IsForeign (stateFileOf e configured) := by
    unfold stateFileOf
    split
    · exact failsOnlyWith_ok _
    · exact failsOnlyWith_noText.map _
  exact h.failsWith_iff.trans (not_congr isOk_stateFileOf)

theorem escapes_applyEnvironment {settings : Settings} :
    Escapes (applyEnvironment e settings) ↔ EnvironmentEscapes e := by
  simp only [applyEnvironment, failsWith_bind, not_escapes_scanIntervalOf, escapes_stateFileOf,
    not_failsWith_pure, false_or, and_false, exists_false, or_false, exists_and_right, ← isOk_iff,
    isOk_scanIntervalOf, EnvironmentEscapes]

/-- A file cannot be asked for, its bytes are no text, its text escapes, or the text is accepted and
the environment escapes. -/
def FileEscapes (loader : Loader) (e : Files.Environment) (t : Files.Tree) (path : Files.Path) :
    Prop :=
  path.hasNull ∨ ∃ content, t.content path.text = .ok content ∧
    ((∃ b, content = .bytes b ∧ ¬ (Text.Utf8.decode b).isOk) ∨
  ∃ text, textOf content = .ok text ∧
    (TextEscapes loader e t (String.ofList text) ∨ TextReads loader e t (String.ofList text) ∧
  EnvironmentEscapes e))

theorem escapes_textOf {content : Files.Content} : Escapes (textOf content) ↔
    ∃ b, content = .bytes b ∧ ¬ (Text.Utf8.decode b).isOk := by
  cases content with
  | text s => simp [textOf]
  | bytes b =>
    have h : FailsOnlyWith IsForeign ((Text.Utf8.decode b).mapError .encoding) :=
      failsOnlyWith_mapError isForeign_encoding
    have hmap : Escapes (textOf (.bytes b)) ↔
        Escapes ((Text.Utf8.decode b).mapError .encoding) := failsWith_map
    refine (hmap.trans h.failsWith_iff).trans ?_
    simp [isOk_mapError]

theorem escapes_loadFile {path : Files.Path} :
    Escapes (loadFile loader e t path) ↔ FileEscapes loader e t path := by
  have hunreadable (fault : Files.Refusal) : ¬ IsForeign (.unreadable path fault) := fun h => h rfl
  unfold loadFile FileEscapes
  cases path.hasNull with
  | true => exact iff_of_true (failsWith_error.mpr nofun) (.inl rfl)
  | false =>
    have hcontent : ¬ Escapes ((t.content path.text).mapError (.unreadable path)) := by
      simp only [failsWith_mapError, hunreadable, FailsWith, and_false, exists_false, not_false_iff]
    simp only [Bool.false_eq_true, if_false, failsWith_bind, hcontent, mapError_eq_ok_iff,
      escapes_textOf, escapes_ofText, escapes_applyEnvironment, exists_and_right, ← isOk_iff,
      isOk_ofText, false_or]

/-- The default settings file has no place, it cannot be told whether it is there, it is there and
escapes, or it is not and there is no home for the state or the environment escapes. -/
def DefaultEscapes (loader : Loader) (e : Files.Environment) (t : Files.Tree) : Prop :=
  CommonSettings.defaultSettingsFile? e = none ∨
  ∃ path, CommonSettings.defaultSettingsFile? e = some path ∧
    (¬ (t.isFile path.text).isOk ∨
    t.isFile path.text = .ok true ∧ FileEscapes loader e t path ∨
    t.isFile path.text = .ok false ∧
      (CommonSettings.defaultStateFile? e = none ∨ EnvironmentEscapes e))

/-- Loading a file that is asked for escapes, or the default one. -/
inductive LoadEscapes (loader : Loader) (e : Files.Environment) (t : Files.Tree) :
    Option String → Prop
  | asked {path : String} (escapes : FileEscapes loader e t (.ofText path)) :
    LoadEscapes loader e t (some path)
  | default (escapes : DefaultEscapes loader e t) : LoadEscapes loader e t none

theorem escapes_load_none : Escapes (load loader e t none) ↔ DefaultEscapes loader e t := by
  have hnoHome : Escapes (.error .noHome : Except SettingsFault Settings) :=
    failsWith_error.mpr nofun
  unfold load DefaultEscapes
  dsimp only
  cases CommonSettings.defaultSettingsFile? e with
  | none => exact iff_of_true hnoHome (.inl rfl)
  | some path =>
    dsimp only
    cases hisFile : t.isFile path.text with
    | error refusal =>
      exact iff_of_true (failsWith_error.mpr (isForeign_refused _ _))
        (.inr ⟨path, rfl, .inl (by simp [hisFile])⟩)
    | ok isFile =>
      cases isFile with
      | true => simp [hisFile, escapes_loadFile]
      | false =>
        cases hstate : CommonSettings.defaultStateFile? e with
        | none => simp [hisFile, hnoHome]
        | some stateFile => simp [hisFile, escapes_applyEnvironment]

theorem escapes_load {path : Option String} :
    Escapes (load loader e t path) ↔ LoadEscapes loader e t path := by
  cases path with
  | none => exact escapes_load_none.trans ⟨.default, fun | .default escapes => escapes⟩
  | some path => exact escapes_loadFile.trans ⟨.asked, fun | .asked escapes => escapes⟩

end Settings

end SecretSweep
