import Mathlib.Data.List.Basic
import SecretSweep.Proofs.Git.Listing
import SecretSweep.Proofs.Git.Printing
import SecretSweep.Proofs.Scan.Abort

/-!
The hashes that a scanner looks up for its next checkpoint. They are those of the references that
git lists and the latest commit, except that a name which falls into several lines adds its later
pieces, and that a directory which cannot be looked up is not reported as a repository that cannot
be opened.
-/

namespace SecretSweep

theorem length_flatMap_le_append {α β : Type} (f g : α → List β) (l : List α) :
    (l.flatMap f).length ≤ (l.flatMap fun a => f a ++ g a).length := by
  induction l with
  | nil => exact Nat.le_refl _
  | cons a rest ih =>
    simp only [List.flatMap_cons, List.length_append]
    omega

/-- What is added to the parts of a list shows unless nothing is added to any of them. -/
theorem flatMap_append_eq_iff {α β : Type} (f g : α → List β) (l : List α) :
    (l.flatMap fun a => f a ++ g a) = l.flatMap f ↔ ∀ a ∈ l, g a = [] := by
  induction l with
  | nil => simp
  | cons a rest ih =>
    simp only [List.flatMap_cons, List.append_assoc, List.append_cancel_left_eq,
      List.forall_mem_cons]
    constructor
    · intro h
      have hlength := congrArg List.length h
      have hle := length_flatMap_le_append f g rest
      rw [List.length_append] at hlength
      have hnone : g a = [] := List.eq_nil_of_length_eq_zero (by omega)
      rw [hnone, List.nil_append] at h
      exact ⟨hnone, ih.mp h⟩
    · rintro ⟨hnone, hrest⟩
      rw [hnone, List.nil_append]
      exact ih.mpr hrest

namespace Git.Reference

/-- The start of the names of references that are kept for other reasons than history. -/
def keptAround : List Char := "refs/keep-around/".toList

/-- Whether a reference belongs to the history: its hash is not all zeros, and its name does not say
that it is kept for other reasons. -/
def IsHistory (r : Reference) : Prop :=
  (∃ c ∈ r.hash.toList, c ≠ '0') ∧ ¬ keptAround <+: r.name.toList

instance (r : Reference) : Decidable r.IsHistory :=
  decidable_of_iff (r.hash.toList.any (· != '0') ∧ ¬ keptAround <+: r.name.toList) (by
    simp [IsHistory])

/-- Whether what follows the line breaks in the name of a reference comes to nothing. -/
def IsWhole (r : Reference) : Prop := ∀ piece ∈ r.pieces, ∀ c ∈ Text.strip piece, c = '0'

instance (r : Reference) : Decidable r.IsWhole :=
  decidable_of_iff (r.pieces.all fun piece => (Text.strip piece).all (· == '0')) (by
    simp [IsWhole])

end Git.Reference

namespace Scanner

theorem tips_append (references more : List Git.Reference) :
    tips (references ++ more) = tips references ++ tips more := by
  simp [tips]

theorem tips_flatMap {α : Type} (f : α → List Git.Reference) (l : List α) :
    tips (l.flatMap f) = l.flatMap fun a => tips (f a) := by
  simp [tips, List.filter_flatMap, List.map_flatMap]

theorem isZeroHash_iff {text : List Char} (h : '\n' ∉ text) :
    Git.isZeroHash (String.ofList text) ↔ text ≠ [] ∧ ∀ c ∈ text, c = '0' := by
  have hlast : text.getLast? ≠ some '\n' := fun hl => h (List.mem_of_getLast? hl)
  simp [Git.isZeroHash, hlast]

theorem isHousekeeping_iff (hash : String) (text : List Char) :
    isHousekeeping ⟨hash, String.ofList text⟩ ↔ Git.Reference.keptAround <+: text := by
  have hname : (⟨hash, String.ofList text⟩ : Git.Reference).name.toList = text :=
    String.toList_ofList
  rw [isHousekeeping, String.startsWith_string_iff, hname]
  rfl

variable {r : Git.Reference}

/-- What is left of a blank and a text without the blanks at its end. -/
theorem stripEnd_blank_cons (text : List Char) :
    Text.stripEnd Text.isBlank (' ' :: text) = [] ∨
      ∃ rest, Text.stripEnd Text.isBlank (' ' :: text) = ' ' :: rest ∧ rest <+: text :=
  List.prefix_cons_iff.mp (Text.isPrefix_stripEnd _ _)

/-- A name shows in its first line what it is kept for. -/
theorem keptAround_prefix_iff (r : Git.Reference) :
    Git.Reference.keptAround <+: (Text.stripEnd Text.isBlank (' ' :: r.front)).drop 1 ↔
      Git.Reference.keptAround <+: r.name.toList := by
  constructor
  · intro h
    have hfront : r.front <+: r.name.toList := List.takeWhile_prefix _
    rcases stripEnd_blank_cons r.front with hnone | ⟨rest, hrest, hprefix⟩
    · rw [hnone] at h
      exact absurd (List.prefix_nil.mp h) (by decide)
    · rw [hrest] at h
      exact (h.trans hprefix).trans hfront
  · rintro ⟨rest, hrest⟩
    have hplain : ∀ c ∈ Git.Reference.keptAround, (!Text.isLineBreak c) = true :=
      List.all_eq_true.mp (by decide)
    have hend : (' ' :: Git.Reference.keptAround).getLast? = some '/' := by decide
    have hlast : ∀ c ∈ (' ' :: Git.Reference.keptAround).getLast?, Text.isBlank c = false := by
      rw [hend]
      rintro c ⟨⟩
      rfl
    have hfront : r.front =
        Git.Reference.keptAround ++ rest.takeWhile (!Text.isLineBreak ·) := by
      rw [Git.Reference.front, ← hrest, List.takeWhile_append_of_pos hplain]
    rw [hfront, ← List.cons_append, Text.stripEnd_append (List.cons_ne_nil _ _) hlast]
    exact List.prefix_append _ _

theorem tips_singleton (r : Git.Reference) :
    tips [r] = if Git.isZeroHash r.hash ∨ isHousekeeping r then [] else [r.hash] := by
  cases hz : Git.isZeroHash r.hash <;> cases hk : isHousekeeping r <;> simp [tips, hz, hk]

/-- The line of a reference gives its hash if it belongs to the history. -/
theorem tips_line (h : r.IsListed) :
    tips (Git.referencesOf [r.hash.toList ++ ' ' :: r.front]) =
      if r.IsHistory then [r.hash] else [] := by
  have hhead : ∀ c ∈ (Text.stripEnd Text.isBlank (' ' :: r.front)).head?, c = ' ' := by
    rcases stripEnd_blank_cons r.front with hnone | ⟨rest, hrest, -⟩
    · simp [hnone]
    · simp [hrest]
  have hread : Git.referencesOf [r.hash.toList ++ ' ' :: r.front] =
      [⟨r.hash, String.ofList ((Text.stripEnd Text.isBlank (' ' :: r.front)).drop 1)⟩] := by
    simp [Git.referencesOf, h.strip_line, h.hash_ne_nil, h.ofLine_append hhead]
  have hnewline : '\n' ∉ r.hash.toList := by
    intro hmem
    exact absurd (Git.hexDigits_plain _ (h.hash _ hmem)).2.2 (by decide)
  have hzero := isZeroHash_iff hnewline
  rw [String.ofList_toList] at hzero
  have hkept := (isHousekeeping_iff r.hash _).trans (keptAround_prefix_iff r)
  rw [hread, tips_singleton]
  by_cases hhistory : r.IsHistory
  · obtain ⟨⟨c, hc, hne⟩, hname⟩ := hhistory
    have hnot : ¬ Git.isZeroHash r.hash := fun hall => hne ((hzero.mp hall).2 c hc)
    rw [if_neg (not_or.mpr ⟨hnot, fun hk => hname (hkept.mp hk)⟩), if_pos ⟨⟨c, hc, hne⟩, hname⟩]
  · have hdropped : Git.isZeroHash r.hash ∨ Git.Reference.keptAround <+: r.name.toList := by
      by_cases hname : Git.Reference.keptAround <+: r.name.toList
      · exact .inr hname
      · refine .inl (hzero.mpr ⟨h.hash_ne_nil, fun c hc => ?_⟩)
        by_cases hne : c = '0'
        · exact hne
        · exact absurd ⟨⟨c, hc, hne⟩, hname⟩ hhistory
    rw [if_neg hhistory, if_pos (hdropped.imp_right hkept.mpr)]

theorem not_mem_piece (h : r.IsListed) {piece : List Char} (hp : piece ∈ r.pieces) {d : Char}
    (hd : d.toNat ≤ 0x20) : d ∉ Text.strip piece := by
  intro hmem
  have hname : d ∈ r.name.toList :=
    Text.mem_of_mem_splitOnP (List.mem_of_mem_tail hp) (Text.mem_of_mem_strip hmem)
  exact Git.ne_of_isNameChar (h.name d hname) hd rfl

/-- A later piece of a name is read as a hash without a name. -/
theorem tips_piece_eq_nil_iff (h : r.IsListed) {piece : List Char} (hp : piece ∈ r.pieces) :
    tips (Git.referencesOf [piece]) = [] ↔ ∀ c ∈ Text.strip piece, c = '0' := by
  have hblank := not_mem_piece h hp (d := ' ') (by decide)
  have hzero := isZeroHash_iff (not_mem_piece h hp (d := '\n') (by decide))
  by_cases hnone : Text.strip piece = []
  · simp [Git.referencesOf, hnone, tips]
  · have hread : Git.referencesOf [piece] =
        [⟨String.ofList (Text.strip piece), String.ofList []⟩] := by
      simp [Git.referencesOf, hnone, Git.Reference.ofLine, Text.partitionAt_of_not_mem hblank]
    have hkept : ¬ isHousekeeping ⟨String.ofList (Text.strip piece), String.ofList []⟩ := by
      rw [isHousekeeping_iff]
      decide
    rw [hread, tips_singleton, ite_eq_left_iff]
    constructor
    · intro hdropped
      by_cases hz : Git.isZeroHash (String.ofList (Text.strip piece))
      · exact (hzero.mp hz).2
      · exact absurd (hdropped (not_or.mpr ⟨hz, hkept⟩)) (List.cons_ne_nil _ _)
    · intro hall hread
      exact absurd (.inl (hzero.mpr ⟨hnone, hall⟩)) hread

/-- The later pieces of a name give nothing exactly if the name is whole. -/
theorem tips_pieces_eq_nil_iff (h : r.IsListed) :
    tips (Git.referencesOf r.pieces) = [] ↔ r.IsWhole := by
  have hsplit : Git.referencesOf r.pieces = r.pieces.flatMap fun p => Git.referencesOf [p] := by
    induction r.pieces with
    | nil => rfl
    | cons p rest ih =>
      rw [List.flatMap_cons, ← ih, ← Git.referencesOf_append, List.singleton_append]
  rw [hsplit, tips_flatMap, List.flatMap_eq_nil_iff]
  exact forall₂_congr fun piece hp => tips_piece_eq_nil_iff h hp

/-- The hashes of those references that belong to the history. -/
def historyHashes (references : List Git.Reference) : List String :=
  (references.filter (·.IsHistory)).map (·.hash)

theorem historyHashes_eq (references : List Git.Reference) :
    historyHashes references =
      references.flatMap fun r => if r.IsHistory then [r.hash] else [] := by
  induction references with
  | nil => rfl
  | cons r rest ih =>
    rw [List.flatMap_cons, ← ih]
    by_cases h : r.IsHistory <;> simp [historyHashes, h]

/-- Of references that git has listed, exactly those of the history are looked up if their names are
whole. -/
theorem tips_print_iff {references : List Git.Reference} (h : ∀ r ∈ references, r.IsListed) :
    tips (Git.readReferences (String.ofList (Git.printReferences references))) =
      historyHashes references ↔ ∀ r ∈ references, r.IsWhole := by
  have hlines : ∀ r ∈ references,
      tips (Git.referencesOf [r.hash.toList ++ ' ' :: r.front] ++ Git.referencesOf r.pieces) =
        (if r.IsHistory then [r.hash] else []) ++ tips (Git.referencesOf r.pieces) := by
    intro r hr
    rw [tips_append, tips_line (h r hr)]
  rw [Git.readReferences_print h, tips_flatMap, List.flatMap_congr hlines, historyHashes_eq,
    flatMap_append_eq_iff]
  exact forall₂_congr fun r hr => tips_pieces_eq_nil_iff (h r hr)

variable {s : Scanner} {clone : Git.Clone}

/-- Whether the repository of a scanner is open or can be opened. -/
def CanOpen (s : Scanner) (clone : Git.Clone) : Prop :=
  s.isOpen ∨ clone.directory = .ok true ∧ (clone.run .gitDirectory).isOk

instance (s : Scanner) (clone : Git.Clone) : Decidable (s.CanOpen clone) :=
  inferInstanceAs (Decidable (_ ∨ _))

theorem ensureOpen_isOk_iff : (s.ensureOpen clone).result.isOk ↔ s.CanOpen clone := by
  unfold ensureOpen start CanOpen
  split_ifs with ho
  · simp [Turn.quiet, ho]
  · dsimp only
    cases clone.directory with
    | error refusal => simp [ho]
    | ok found =>
      cases found with
      | false => simp [ho]
      | true => cases clone.run .gitDirectory <;> simp [ho]

/-- Whether an operation reports that a repository cannot be opened or listed. -/
def ReportsRepository {α : Type} (result : Except ScanFault α) : Prop :=
  ∃ fault, result = .error fault ∧ fault.toFailure.kind = .repository

theorem not_reportsRepository_refused {α : Type} (path : Files.Path) (refusal : Files.Refusal) :
    ¬ ReportsRepository (.error (.refused path refusal) : Except ScanFault α) := by
  rintro ⟨fault, hfault, hkind⟩
  obtain rfl := Except.error.inj hfault
  cases refusal <;> cases hkind

/-- The latest commit that git tells of, if it tells of one. -/
def latestHash (clone : Git.Clone) : Option String :=
  (clone.run (.revisions (some 1))).toOption.bind fun output => (Git.readRevisions output).head?

theorem newest_eq (clone : Git.Clone) : newest clone = (latestHash clone).toList := by
  unfold newest latestHash Git.Clone.revisions
  cases clone.run (.revisions (some 1)) with
  | error failure => rfl
  | ok output => cases h : Git.readRevisions output <;> simp [Except.map, h]

theorem currentRefs_of_isOk (h : s.CanOpen clone) :
    (s.currentRefs clone).result = match clone.references with
      | .ok references => .ok (tips references ++ newest clone)
      | .error failure => .error (.repository s.scope.path (.references failure)) := by
  have hopen := ensureOpen_isOk_iff.mpr h
  cases ho : (s.ensureOpen clone).result with
  | error fault => simp [ho] at hopen
  | ok _ =>
    rw [currentRefs, Turn.bind_of_ok _ ho, (ensureOpen_of_ok ho).1]
    cases clone.references <;> rfl

theorem currentRefs_of_error {fault : ScanFault} (h : (s.ensureOpen clone).result = .error fault) :
    (s.currentRefs clone).result = .error fault := by
  rw [currentRefs, Turn.bind_of_error _ h]

/-- Whether a scanner looks up what it is to look up where git can list the given references: if the
repository can be opened and the references are listed, the hashes of those that belong to the
history and that of the latest commit; and else it reports that the repository cannot be opened or
listed. -/
structure LooksUp (s : Scanner) (clone : Git.Clone) (references : List Git.Reference) : Prop where
  found : s.CanOpen clone → (clone.run .references).isOk →
    (s.currentRefs clone).result =
      .ok (historyHashes references ++ (latestHash clone).toList)
  reported : ReportsRepository (s.currentRefs clone).result ↔
    ¬ (s.CanOpen clone ∧ (clone.run .references).isOk)

/-- Whether references are those that git lists, if it does list them. -/
def Lists (clone : Git.Clone) (references : List Git.Reference) : Prop :=
  ∀ stdout stderr, clone.answer .references = .exited 0 stdout stderr →
    stdout = Text.Utf8.encode (Git.printReferences references)

theorem run_of_lists {references : List Git.Reference} (h : Lists clone references)
    (hok : (clone.run .references).isOk) :
    clone.run .references = .ok (String.ofList (Git.printReferences references)) := by
  unfold Git.Clone.run Git.Reaction.output at *
  cases hanswer : clone.answer .references with
  | timedOut => simp [hanswer] at hok
  | missing => simp [hanswer] at hok
  | exited code stdout stderr =>
    simp only [hanswer] at hok ⊢
    split_ifs at hok ⊢ with hcode
    · subst hcode
      rw [h stdout stderr hanswer, Git.decoded, Text.Utf8.decodeReplacing_encode]
    · cases hok

theorem not_canOpen_iff (h : s.isOpen ∨ clone.directory.isOk) :
    ¬ s.CanOpen clone ↔ ∃ fault, s.openingFault? clone = some fault := by
  rw [← ensureOpen_isOk_iff, ensureOpen_result h]
  cases s.openingFault? clone <;> simp

theorem reported_iff (h : s.isOpen ∨ clone.directory.isOk) :
    ReportsRepository (s.currentRefs clone).result ↔
      ¬ (s.CanOpen clone ∧ (clone.run .references).isOk) := by
  by_cases hcan : s.CanOpen clone
  · rw [currentRefs_of_isOk hcan, Git.Clone.references]
    cases clone.run .references with
    | error failure => simp [Except.map, ReportsRepository, ScanFault.toFailure]
    | ok output => simp [Except.map, ReportsRepository, hcan]
  · obtain ⟨fault, hfault⟩ := (not_canOpen_iff h).mp hcan
    have hresult := ensureOpen_result h
    rw [hfault] at hresult
    rw [currentRefs_of_error hresult]
    simp [ReportsRepository, ScanFault.toFailure, hcan]

theorem not_reported_of_refused {refusal : Files.Refusal} (ho : ¬ s.isOpen)
    (hd : clone.directory = .error refusal) :
    ¬ ReportsRepository (s.currentRefs clone).result := by
  have hresult : (s.ensureOpen clone).result = .error (.refused s.scope.path refusal) := by
    simp [ensureOpen, start, ho, hd]
  rw [currentRefs_of_error hresult]
  exact not_reportsRepository_refused _ _

theorem found_iff {references : List Git.Reference} (hlists : Lists clone references)
    (hlisted : ∀ r ∈ references, r.IsListed) (hcan : s.CanOpen clone)
    (hok : (clone.run .references).isOk) :
    (s.currentRefs clone).result = .ok (historyHashes references ++ (latestHash clone).toList) ↔
      ∀ r ∈ references, r.IsWhole := by
  rw [currentRefs_of_isOk hcan, Git.Clone.references, run_of_lists hlists hok, Except.map,
    newest_eq, ← tips_print_iff hlisted]
  exact ⟨fun h => List.append_cancel_right (Except.ok.inj h),
    fun h => congrArg (fun hashes => Except.ok (hashes ++ _)) h⟩

/-- What is to be looked up is looked up exactly if the directory can be looked up and the names of
all references that git lists are whole. -/
theorem looksUp_iff {references : List Git.Reference} (hlists : Lists clone references)
    (hlisted : ∀ r ∈ references, r.IsListed) :
    s.LooksUp clone references ↔
      (s.isOpen ∨ clone.directory.isOk) ∧
        (s.CanOpen clone → (clone.run .references).isOk → ∀ r ∈ references, r.IsWhole) := by
  constructor
  · rintro ⟨hfound, hreported⟩
    refine ⟨?_, fun hcan hok => (found_iff hlists hlisted hcan hok).mp (hfound hcan hok)⟩
    cases hd : clone.directory with
    | ok found => exact .inr rfl
    | error refusal =>
      by_cases ho : s.isOpen
      · exact .inl ho
      · -- the directory is refused, which is a fault, but none of a repository
        have hcannot : ¬ s.CanOpen clone := by simp [CanOpen, ho, hd]
        exact absurd (hreported.mpr fun h => hcannot h.1) (not_reported_of_refused ho hd)
  · rintro ⟨hfound, hwhole⟩
    exact ⟨fun hcan hok => (found_iff hlists hlisted hcan hok).mpr (hwhole hcan hok),
      reported_iff hfound⟩

theorem lists_printing {path : Files.Path} {prints : Git.Command → Option String}
    {references : List Git.Reference}
    (h : prints .references = some (String.ofList (Git.printReferences references))) :
    Lists (.printing path prints) references := by
  intro stdout stderr hanswer
  simp only [Git.Clone.printing, h, Option.elim_some, Git.Reaction.printing,
    Git.Reaction.exited.injEq, String.toList_ofList] at hanswer
  exact hanswer.2.1.symm

/-- A clone in which git lists references, and a latest commit if there is one. -/
def listingClone (references : List Git.Reference) (latest : Option String) : Git.Clone :=
  .printing (.ofText "r") fun
    | .gitDirectory => some ".git\n"
    | .references => some (String.ofList (Git.printReferences references))
    | .revisions (some 1) => latest
    | _ => none

def shutScanner : Scanner := init (.of (.ofText "r") "u" ⟨1000, 0, none⟩)

/-- Two branches beside a reference to nothing and one that is kept around. A line separator at the
end of a name and one between zeros do no harm. -/
def sundryReferences : List Git.Reference :=
  [⟨"1a", "refs/heads/main"⟩, ⟨"2b", "refs/keep-around/2b"⟩, ⟨"00", "refs/heads/none"⟩,
   ⟨"3c", "refs/heads/end\u2028"⟩, ⟨"4d", "refs/heads/zero\u20280\u008500"⟩]

theorem looksUp_sundry :
    shutScanner.LooksUp (listingClone sundryReferences (some "5e\n")) sundryReferences :=
  (looksUp_iff (lists_printing rfl) (by decide +kernel)).mpr
    ⟨.inr rfl, fun _ _ => by decide +kernel⟩

/-- What follows a line separator in the name of a branch is looked up as a hash. -/
theorem not_looksUp_separated :
    ¬ shutScanner.LooksUp (listingClone [⟨"1a", "refs/heads/a\u2028b"⟩] none)
      [⟨"1a", "refs/heads/a\u2028b"⟩] := by
  intro h
  have hfound := h.found (by decide +kernel) (by decide +kernel)
  exact absurd hfound (by decide +kernel)

end Scanner

end SecretSweep
