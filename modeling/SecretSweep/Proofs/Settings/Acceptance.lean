import SecretSweep.Proofs.Settings.Validity

/-!
Which settings are accepted: those of which every section, entry and value can be read and is within
its bounds. What is left out has its default and is no hindrance.
-/

namespace SecretSweep.Settings

open Yaml (Document Loader Value)

section ReadOr

variable {ε α : Type} {p : ε → Prop} {read : Value → Except ε α} {default : α}
  {found : Option Value}

/-- Whether what is found, if anything is, can be read. -/
def Reads (read : Value → Except ε α) (found : Option Value) : Prop :=
  ∀ v, found = some v → (read v).isOk

theorem isOk_readOr : (readOr read default found).isOk ↔ Reads read found := by
  cases found with
  | none => exact iff_of_true rfl nofun
  | some v => simp [Reads, readOr]

theorem exists_readOr {P : α → Prop} (h : P default) :
    (∃ a, readOr read default found = .ok a ∧ P a) ↔
      ∀ v, found = some v → ∃ a, read v = .ok a ∧ P a := by
  cases found with
  | none => exact iff_of_true ⟨default, rfl, h⟩ nofun
  | some v => simp [readOr]

theorem failsWith_readOr : FailsWith p (readOr read default found) ↔
    ∃ v, found = some v ∧ FailsWith p (read v) := by
  cases found <;> simp [readOr]

end ReadOr

variable {loader : Loader} {d : Document} {e : Files.Environment} {t : Files.Tree}
  {s root : Section} {name : String}

theorem isOk_integerIn (default : Int) :
    (integerIn d s name default).isOk ↔ Reads (integerOf d) (s.get? name) := isOk_readOr

theorem isOk_realIn (default : Float) :
    (realIn d s name default).isOk ↔ Reads (realOf d) (s.get? name) := isOk_readOr

theorem isOk_textIn (default : String) :
    (textIn d s name default).isOk ↔ Reads (stringOf d) (s.get? name) := isOk_readOr

theorem isOk_trueTextIn : (trueTextIn d s name).isOk ↔ Reads (stringOf d) (s.true? d name) :=
  isOk_readOr

theorem isOk_pathIn : (pathIn d e s name).isOk ↔ Reads (pathOf d e) (s.true? d name) := by
  simp [pathIn, isOk_readOr, Reads]

/-- An integer under a name, if any, is not less than a bound. -/
def AtLeast (d : Document) (s : Section) (name : String) (bound : Int) : Prop :=
  ∀ v, s.get? name = some v → ∃ n, integerOf d v = .ok n ∧ bound ≤ n

theorem exists_integerIn {default bound : Int} (h : bound ≤ default) :
    (∃ n, integerIn d s name default = .ok n ∧ bound ≤ n) ↔ AtLeast d s name bound :=
  exists_readOr h

/-- Whether the common settings can be read. They need a home for the default state file even if
another one is given. -/
structure CommonReads (d : Document) (e : Files.Environment) (s : Section) : Prop where
  home : (CommonSettings.defaultStateFile? e).isSome
  stateFile : Reads (pathOf d e) (s.true? d "state_db")
  leaksFile : Reads (pathOf d e) (s.true? d "leaks_file")
  historyDays : AtLeast d s "history_limit_days" 0
  scanInterval : Reads (realOf d) (s.get? "scan_interval")
  queueSize : AtLeast d s "queue_size" 1
  drainTimeout : Reads (realOf d) (s.get? "drain_timeout")

theorem isOk_inBounds {common : CommonSettings} :
    (inBounds common).isOk ↔ 0 ≤ common.historyDays ∧ 1 ≤ common.queueSize := by
  simp [isOk_iff, inBounds_eq_ok_iff]

/-- The numbers of the common settings, and their bounds. -/
theorem isOk_numbersOf_bind {default : CommonSettings} (hdays : 0 ≤ default.historyDays)
    (hqueue : 1 ≤ default.queueSize) :
    ((numbersOf d s default).mapError (.number "common") >>= inBounds).isOk ↔
      AtLeast d s "history_limit_days" 0 ∧ Reads (realOf d) (s.get? "scan_interval") ∧
        AtLeast d s "queue_size" 1 ∧ Reads (realOf d) (s.get? "drain_timeout") := by
  constructor
  · intro h
    obtain ⟨common, hnumbers, hbounds⟩ := isOk_bind.mp h
    obtain ⟨days, hread, h⟩ := eq_ok_of_bind (mapError_eq_ok_iff.mp hnumbers)
    obtain ⟨interval, hinterval, h⟩ := eq_ok_of_bind h
    obtain ⟨size, hsize, h⟩ := eq_ok_of_bind h
    obtain ⟨timeout, htimeout, h⟩ := eq_ok_of_bind h
    obtain rfl := Except.ok.inj h
    obtain ⟨hlow, hpositive⟩ := isOk_inBounds.mp hbounds
    exact ⟨(exists_integerIn hdays).mp ⟨days, hread, hlow⟩,
      (isOk_realIn _).mp (isOk_iff.mpr ⟨interval, hinterval⟩),
      (exists_integerIn hqueue).mp ⟨size, hsize, hpositive⟩,
      (isOk_realIn _).mp (isOk_iff.mpr ⟨timeout, htimeout⟩)⟩
  · rintro ⟨hlow, hinterval, hpositive, htimeout⟩
    obtain ⟨days, hdays, hlow⟩ := (exists_integerIn hdays).mpr hlow
    obtain ⟨interval, hinterval⟩ := isOk_iff.mp ((isOk_realIn default.scanInterval).mpr hinterval)
    obtain ⟨size, hsize, hpositive⟩ := (exists_integerIn hqueue).mpr hpositive
    obtain ⟨timeout, htimeout⟩ := isOk_iff.mp ((isOk_realIn default.drainTimeout).mpr htimeout)
    have hnumbers : numbersOf d s default = .ok { default with
        historyDays := days, scanInterval := interval, queueSize := size,
        drainTimeout := timeout } := by
      simp only [numbersOf, hdays, hinterval, hsize, htimeout, ok_bind]
      rfl
    rw [hnumbers, mapError_ok, ok_bind]
    exact isOk_inBounds.mpr ⟨hlow, hpositive⟩

theorem isOk_commonOf : (commonOf d e s).isOk ↔ CommonReads d e s := by
  have hdays : (0 : Int) ≤ 365 := by decide
  have hqueue : (1 : Int) ≤ 1000 := by decide
  unfold commonOf
  cases hfile : CommonSettings.defaultStateFile? e with
  | none => exact iff_of_false nofun fun h => by simpa [hfile] using h.home
  | some file =>
    constructor
    · intro h
      obtain ⟨stateFile, hstate, h⟩ := isOk_bind.mp h
      obtain ⟨leaksFile, hleaks, h⟩ := isOk_bind.mp h
      obtain ⟨hlow, hinterval, hpositive, htimeout⟩ := (isOk_numbersOf_bind hdays hqueue).mp h
      exact ⟨by simp [hfile], isOk_pathIn.mp (isOk_iff.mpr ⟨_, mapError_eq_ok_iff.mp hstate⟩),
        isOk_pathIn.mp (isOk_iff.mpr ⟨_, mapError_eq_ok_iff.mp hleaks⟩), hlow, hinterval,
        hpositive, htimeout⟩
    · intro h
      obtain ⟨stateFile, hstate⟩ := isOk_iff.mp (isOk_pathIn.mpr h.stateFile)
      obtain ⟨leaksFile, hleaks⟩ := isOk_iff.mp (isOk_pathIn.mpr h.leaksFile)
      simp only [hstate, hleaks, mapError_ok, ok_bind]
      exact (isOk_numbersOf_bind hdays hqueue).mpr
        ⟨h.historyDays, h.scanInterval, h.queueSize, h.drainTimeout⟩

structure MailReads (d : Document) (s : Section) : Prop where
  host : Reads (stringOf d) (s.get? "host")
  port : Reads (integerOf d) (s.get? "port")
  username : Reads (stringOf d) (s.get? "username")
  password : Reads (stringOf d) (s.get? "password")
  sender : Reads (stringOf d) (s.get? "from")
  recipient : Reads (stringOf d) (s.get? "recipient")

theorem isOk_mailOf : (mailOf d s).isOk ↔ MailReads d s := by
  simp only [mailOf, isOk_bind, mapError_eq_ok_iff, isOk_pure, and_true, exists_and_right,
    ← isOk_iff, isOk_textIn, isOk_integerIn]
  exact ⟨fun ⟨host, port, username, password, sender, recipient⟩ =>
      ⟨host, port, username, password, sender, recipient⟩,
    fun ⟨host, port, username, password, sender, recipient⟩ =>
      ⟨host, port, username, password, sender, recipient⟩⟩

/-- A pattern for paths has a text, and what it covers can be looked up. -/
def IsCoverable (d : Document) (e : Files.Environment) (t : Files.Tree) (v : Value) : Prop :=
  ∃ pattern covered, (stringOf d v >>= homeIn e) = .ok pattern ∧
    Files.Glob.sorted? t pattern = some covered ∧
    ∀ path ∈ covered, (t.isDirectory (Files.Path.ofText path).text).isOk

/-- Whether an entry of the targets can be read: it has a path or else a pattern for paths. -/
inductive TargetReads (d : Document) (e : Files.Environment) (t : Files.Tree) (entry : Value) :
    Prop
  | path {s : Section} {v : Value} (fields : d.entries? entry = some s)
    (path : s.get? "path" = some v) (read : (pathOf d e v).isOk)
    (url : Reads (stringOf d) (s.get? "url")) : TargetReads d e t entry
  | pattern {s : Section} {v : Value} (fields : d.entries? entry = some s)
    (path : s.get? "path" = none) (glob : s.get? "glob" = some v)
    (start : Reads (stringOf d) (s.get? "url_prefix")) (coverable : IsCoverable d e t v) :
    TargetReads d e t entry

theorem isOk_targetAt {v : Value} : (targetAt d e s v).isOk ↔
    (pathOf d e v).isOk ∧ Reads (stringOf d) (s.get? "url") := by
  simp only [targetAt, isOk_bind, isOk_bind_pure, isOk_mapError, isOk_textIn, exists_and_right,
    ← isOk_iff]

theorem isOk_coveredTarget {start path : String} : (coveredTarget t start path).isOk =
    (t.isDirectory (Files.Path.ofText path).text).isOk := by
  simp [coveredTarget]

theorem isOk_targetsAlong {start pattern : String} : (targetsAlong t start pattern).isOk ↔
    ∃ covered, Files.Glob.sorted? t pattern = some covered ∧
      ∀ path ∈ covered, (t.isDirectory (Files.Path.ofText path).text).isOk := by
  unfold targetsAlong
  cases Files.Glob.sorted? t pattern with
  | none => simp
  | some covered => simp [isOk_mapM, isOk_coveredTarget]

theorem isOk_targetsCovered {v : Value} : (targetsCovered d e t s v).isOk ↔
    Reads (stringOf d) (s.get? "url_prefix") ∧ IsCoverable d e t v := by
  simp only [targetsCovered, isOk_bind, isOk_targetsAlong, mapError_eq_ok_iff, exists_and_right,
    exists_and_left, ← isOk_iff, isOk_textIn, IsCoverable]

theorem isOk_targetsOf {entry : Value} :
    (targetsOf d e t entry).isOk ↔ TargetReads d e t entry := by
  unfold targetsOf
  constructor
  · intro h
    split at h
    · cases h
    · next fields hfields =>
      dsimp only at h
      split at h
      · next v hpath =>
        obtain ⟨hread, hurl⟩ := isOk_targetAt.mp h
        exact .path hfields hpath hread hurl
      · next v hpath hglob =>
        obtain ⟨hstart, hcoverable⟩ := isOk_targetsCovered.mp h
        exact .pattern hfields hpath hglob hstart hcoverable
      · cases h
  · rintro (⟨fields, path, read, url⟩ | ⟨fields, path, glob, start, coverable⟩)
    · simp only [fields, path]
      exact isOk_targetAt.mpr ⟨read, url⟩
    · simp only [fields, path, glob]
      exact isOk_targetsCovered.mpr ⟨start, coverable⟩

/-- Whether an entry of the rules can be read: it has a name, and something to look for. -/
inductive RuleReads (d : Document) (entry : Value) : Prop
  | named {s : Section} {v : Value} {file content : String} (fields : d.entries? entry = some s)
    (name : s.get? "name" = some v) (read : (stringOf d v).isOk)
    (fileRead : trueTextIn d s "file" = .ok file)
    (contentRead : trueTextIn d s "content" = .ok content)
    (selective : file ≠ "" ∨ content ≠ "") : RuleReads d entry

theorem isOk_namedRule {sectionName : String} {v : Value} :
    (namedRule d sectionName s v).isOk ↔ (stringOf d v).isOk ∧ ∃ file content,
      trueTextIn d s "file" = .ok file ∧ trueTextIn d s "content" = .ok content ∧
        (file ≠ "" ∨ content ≠ "") := by
  have hend (file content name : String) :
      (if file.isEmpty && content.isEmpty then .error (.emptyEntry sectionName name)
        else .ok ⟨name, file, content⟩ : Except SettingsFault RuleSpec).isOk ↔
      file ≠ "" ∨ content ≠ "" := by
    split
    · next h => simpa using h
    · next h => simpa [Decidable.imp_iff_not_or] using h
  simp only [namedRule, isOk_bind, mapError_eq_ok_iff, hend, exists_and_right, exists_and_left,
    ← isOk_iff]
  constructor
  · rintro ⟨file, hfile, content, hcontent, hread, hselective⟩
    exact ⟨hread, file, hfile, content, hcontent, hselective⟩
  · rintro ⟨hread, file, hfile, content, hcontent, hselective⟩
    exact ⟨file, hfile, content, hcontent, hread, hselective⟩

theorem isOk_ruleOf {sectionName : String} {entry : Value} :
    (ruleOf d sectionName entry).isOk ↔ RuleReads d entry := by
  unfold ruleOf
  constructor
  · intro h
    split at h
    · cases h
    · next fields hfields =>
      dsimp only at h
      split at h
      · cases h
      · next v hname =>
        obtain ⟨hread, file, content, hfile, hcontent, hselective⟩ := isOk_namedRule.mp h
        exact .named hfields hname hread hfile hcontent hselective
  · rintro ⟨fields, name, read, fileRead, contentRead, selective⟩
    simp only [fields, name]
    exact isOk_namedRule.mpr ⟨read, _, _, fileRead, contentRead, selective⟩

/-- Whether all entries of a section of rules can be read. -/
def RulesRead (d : Document) (root : Section) (sectionName : String) : Prop :=
  ∃ entries, listOf d root sectionName = .ok entries ∧ ∀ entry ∈ entries, RuleReads d entry

theorem isOk_rulesOf {sectionName : String} :
    (rulesOf d root sectionName).isOk ↔ RulesRead d root sectionName := by
  simp only [rulesOf, isOk_bind, isOk_mapM, isOk_ruleOf, RulesRead]

/-- Whether each section of a document can be read. -/
def DocumentReads (e : Files.Environment) (t : Files.Tree) (d : Document) : Prop :=
  ∃ root, rootOf d = .ok root ∧
  (∃ common, sectionOf d root "common" = .ok common ∧ CommonReads d e common) ∧
  (∃ mail, sectionOf d root "smtp" = .ok mail ∧ MailReads d mail) ∧
  (∃ targets, listOf d root "inspect" = .ok targets ∧ ∀ entry ∈ targets, TargetReads d e t entry) ∧
  RulesRead d root "patterns" ∧ RulesRead d root "filters"

theorem isOk_ofDocument : (ofDocument e t d).isOk ↔ DocumentReads e t d := by
  simp only [ofDocument, isOk_bind, isOk_pure, and_true, exists_and_right, ← isOk_iff,
    isOk_commonOf, isOk_mailOf, isOk_mapM, isOk_targetsOf, isOk_rulesOf, DocumentReads]
  constructor
  · rintro ⟨root, hroot, common, hcommon, commonReads, mail, hmail, mailReads, targets, htargets,
      targetsRead, rulesRead, filtersRead⟩
    exact ⟨root, hroot, ⟨common, hcommon, commonReads⟩, ⟨mail, hmail, mailReads⟩,
      ⟨targets, htargets, targetsRead⟩, rulesRead, filtersRead⟩
  · rintro ⟨root, hroot, ⟨common, hcommon, commonReads⟩, ⟨mail, hmail, mailReads⟩,
      ⟨targets, htargets, targetsRead⟩, rulesRead, filtersRead⟩
    exact ⟨root, hroot, common, hcommon, commonReads, mail, hmail, mailReads, targets, htargets,
      targetsRead, rulesRead, filtersRead⟩

/-- Whether a text is a document that can be read. -/
def TextReads (loader : Loader) (e : Files.Environment) (t : Files.Tree) (text : String) : Prop :=
  ∃ d, loader text = .ok d ∧ DocumentReads e t d

theorem isOk_ofText {text : String} :
    (ofText loader e t text).isOk ↔ TextReads loader e t text := by
  simp only [ofText, isOk_bind, mapError_eq_ok_iff, isOk_ofDocument, TextReads]

/-- The interval that the environment asks for, if any, is a number. -/
def IntervalReads (e : Files.Environment) : Prop :=
  ∀ text, e.nonempty? "LEAKWATCH_SCAN_INTERVAL" = some text →
    (Text.readNumeral? text.toList).isSome

/-- The state file that the environment asks for, if any, is a path. -/
def StateFileReads (e : Files.Environment) : Prop :=
  ∀ path, e.nonempty? "LEAKWATCH_STATE_DB" = some path → Files.Environment.nullInUser path = false

theorem isOk_scanIntervalOf {configured : Float} :
    (scanIntervalOf e configured).isOk ↔ IntervalReads e := by
  unfold scanIntervalOf IntervalReads
  cases e.nonempty? "LEAKWATCH_SCAN_INTERVAL" with
  | none => simp
  | some text =>
    simp only [isOk_mapError, Option.some.injEq, forall_eq', realOfText]
    cases Text.readNumeral? text.toList <;> simp

theorem isOk_stateFileOf {configured : Files.Path} :
    (stateFileOf e configured).isOk ↔ StateFileReads e := by
  unfold stateFileOf StateFileReads
  cases e.nonempty? "LEAKWATCH_STATE_DB" with
  | none => simp
  | some path =>
    simp only [isOk_map, isOk_mapError, homeIn, Option.some.injEq, forall_eq']
    cases Files.Environment.nullInUser path <;> simp

theorem isOk_applyEnvironment {settings : Settings} :
    (applyEnvironment e settings).isOk ↔ IntervalReads e ∧ StateFileReads e := by
  simp only [applyEnvironment, isOk_bind, isOk_pure, and_true, exists_and_right, ← isOk_iff,
    isOk_scanIntervalOf, isOk_stateFileOf]

/-- Whether a file is there with a text that can be read, as can the environment. -/
def FileReads (loader : Loader) (e : Files.Environment) (t : Files.Tree) (path : Files.Path) :
    Prop :=
  path.hasNull = false ∧
  ∃ content text, t.content path.text = .ok content ∧ textOf content = .ok text ∧
    TextReads loader e t (String.ofList text) ∧ IntervalReads e ∧ StateFileReads e

theorem isOk_loadFile {path : Files.Path} :
    (loadFile loader e t path).isOk ↔ FileReads loader e t path := by
  unfold loadFile FileReads
  cases path.hasNull with
  | true => exact iff_of_false nofun nofun
  | false =>
    simp only [Bool.false_eq_true, if_false, isOk_bind, mapError_eq_ok_iff, isOk_applyEnvironment,
      exists_and_right, exists_and_left, ← isOk_iff, isOk_ofText, true_and]

/-- Whether the file that is asked for can be read; or, if none is, the one at the default place,
which need not be there if there is a home for the state file. -/
inductive LoadReads (loader : Loader) (e : Files.Environment) (t : Files.Tree) :
    Option String → Prop
  | asked {path : String} (read : FileReads loader e t (.ofText path)) :
    LoadReads loader e t (some path)
  | present {path : Files.Path} (place : CommonSettings.defaultSettingsFile? e = some path)
    (isFile : t.isFile path.text = .ok true) (read : FileReads loader e t path) :
    LoadReads loader e t none
  | absent {path : Files.Path} (place : CommonSettings.defaultSettingsFile? e = some path)
    (isFile : t.isFile path.text = .ok false)
    (home : (CommonSettings.defaultStateFile? e).isSome) (interval : IntervalReads e)
    (stateFile : StateFileReads e) : LoadReads loader e t none

theorem isOk_load {path : Option String} :
    (load loader e t path).isOk ↔ LoadReads loader e t path := by
  cases path with
  | some path => exact isOk_loadFile.trans ⟨.asked, fun | .asked read => read⟩
  | none =>
    unfold load
    constructor
    · intro h
      dsimp only at h
      split at h
      · cases h
      · next path hplace =>
        obtain ⟨isFile, hisFile, h⟩ := isOk_bind.mp h
        have hisFile := mapError_eq_ok_iff.mp hisFile
        split at h
        · next htrue => exact .present hplace (htrue ▸ hisFile) (isOk_loadFile.mp h)
        · next hfalse =>
          split at h
          · next stateFile hstate =>
            obtain ⟨interval, stateFile⟩ := isOk_applyEnvironment.mp h
            refine .absent hplace ?_ (by simp [hstate]) interval stateFile
            rw [hisFile, Bool.eq_false_iff.mpr hfalse]
          · cases h
    · rintro (_ | ⟨place, isFile, read⟩ | ⟨place, isFile, home, interval, stateFile⟩)
      · simp only [place, isFile, mapError_ok, ok_bind]
        exact isOk_loadFile.mpr read
      · obtain ⟨file, hfile⟩ := Option.isSome_iff_exists.mp home
        simp only [place, isFile, hfile, mapError_ok, ok_bind]
        exact isOk_applyEnvironment.mpr ⟨interval, stateFile⟩

end SecretSweep.Settings
