import Mathlib.Data.List.Basic
import SecretSweep.Proofs.Leak.Findings
import SecretSweep.Proofs.Patch.AddedLine
import SecretSweep.Proofs.Patch.RoundTrip
import SecretSweep.Proofs.Regex.Search
import SecretSweep.Scan.Walk

/-!
At which lines leaks are reported. A patch is cut at line feeds, an added chunk at line breaks of
any kind, so that the two agree on the lines of a file as long as no added line holds another line
break.
-/

namespace SecretSweep

open Patch

namespace Analyzer

/-- The added lines of a patch that a rule is to be reported at. -/
def expectedSites (a : Analyzer) (r : Rule) (lines : List AddedLine) : List (String × Int) :=
  (lines.filter fun l => a.reports r l.path l.text).map fun l => (l.path, (l.number : Int))

theorem expectedSites_flatMap {α : Type} (a : Analyzer) (r : Rule) (parts : List α)
    (lines : α → List AddedLine) : a.expectedSites r (parts.flatMap lines) =
      parts.flatMap fun part => a.expectedSites r (lines part) := by
  simp [expectedSites, List.filter_flatMap, List.map_flatMap]

theorem linesOf_contentOf {lines : List (List Char)}
    (h : ∀ line ∈ lines, ∀ c ∈ line, Text.isLineBreak c = false) :
    linesOf (Reading.contentOf lines) = lines.map String.ofList := by
  rw [linesOf, Reading.contentOf, String.toList_ofList, Text.splitLines_lines h]

variable {a : Analyzer} {r : Rule}

/-- The lines of a run have numbers that follow each other. -/
theorem expectedSites_addedFrom (a : Analyzer) (r : Rule) (h : Hunk) (path : String)
    {lines : List BodyLine} (hadded : ∀ l ∈ lines, l.isAdded) {first offset : Nat}
    {before : List BodyLine} (hfirst : 0 < first)
    (hnumber : h.numberAfter before = first + offset) :
    (((lines.map fun l => String.ofList l.text.text).zipIdx offset).filter
        fun (line, _) => a.reports r path line).map (fun (_, i) => (path, lineOf first i)) =
      a.expectedSites r (h.addedFrom path before lines) := by
  induction lines generalizing offset before with
  | nil => rfl
  | cons l rest ih =>
    have hl : l.isAdded = true := hadded l (by simp)
    have hnew := BodyLine.isNew_of_isAdded hl
    have hnext : h.numberAfter (before ++ [l]) = first + (offset + 1) := by
      rw [h.numberAfter_concat, hnew, hnumber, if_pos rfl, Nat.add_assoc]
    have hline : lineOf first offset = ((h.numberAfter before : Nat) : Int) := by
      rw [hnumber, lineOf, if_neg (by omega), Int.natCast_add]
    have hrest := ih (fun l' hl' => hadded l' (by simp [hl'])) hnext
    unfold expectedSites at hrest ⊢
    cases hreports : a.reports r path (String.ofList l.text.text) <;>
      simpa [Hunk.addedFrom, hl, hreports, hline] using hrest

theorem sitesOf_chunk (hname : a.rules.filter (·.name = r.name) = [r]) (hr : r.content.isSome)
    (next : Nat) (scope : Scope) (c : Git.Commit) (author email : String) (h : Hunk) (path : String)
    (run : AddedRun) (hadded : ∀ l ∈ run.lines, l.isAdded)
    (hnumber : ∀ l ∈ h.addedFrom path run.before run.lines, 0 < l.number)
    (hbreak : ∀ l ∈ h.addedFrom path run.before run.lines, ∀ ch ∈ l.text.toList,
      Text.isLineBreak ch = false) :
    sitesOf r (a.analyze next (scope.diff c author email (h.chunk path run))) =
      a.expectedSites r (h.addedFrom path run.before run.lines) := by
  have hplain : ∀ text ∈ run.lines.map (·.text.text), ∀ ch ∈ text, Text.isLineBreak ch = false := by
    intro text htext
    obtain ⟨l, hl, rfl⟩ := List.mem_map.mp htext
    obtain ⟨line, hline, hcopy⟩ := h.exists_mem_addedFrom path run.before hl (hadded l hl)
    simpa [hcopy] using hbreak line hline
  have hlines : linesOf (h.chunk path run).content =
      run.lines.map fun l => String.ofList l.text.text := by
    rw [Hunk.chunk, linesOf_contentOf hplain, List.map_map]
    rfl
  rw [sitesOf_analyze_lines hname hr]
  cases hcut : run.lines with
  | nil =>
    rw [hcut] at hlines
    simp [Scope.diff, hlines, expectedSites, Hunk.addedFrom]
  | cons l rest =>
    have hl : l.isAdded = true := hadded l (by simp [hcut])
    have hfirst : 0 < h.numberAfter run.before := by
      refine hnumber ⟨path, h.numberAfter run.before, String.ofList l.text.text⟩ ?_
      simp [hcut, Hunk.addedFrom, hl]
    have hsites := expectedSites_addedFrom a r h path hadded hfirst (Nat.add_zero _).symm
    rw [← hlines, hcut] at hsites
    exact hsites

variable {sections : List FileSection}

theorem sitesOf_print (hname : a.rules.filter (·.name = r.name) = [r]) (hr : r.content.isSome)
    (next : Nat) (scope : Scope) (c : Git.Commit) (author email : String)
    (hnumber : ∀ l ∈ addedLines sections, 0 < l.number)
    (hbreak : ∀ l ∈ addedLines sections, ∀ ch ∈ l.text.toList, Text.isLineBreak ch = false) :
    sitesOf r (a.analyzeAll next
        ((sections.flatMap (·.body.chunks)).map (scope.diff c author email))).flatten =
      a.expectedSites r (addedLines sections) := by
  rw [sitesOf_analyzeAll hname, addedLines, expectedSites_flatMap, List.map_flatMap,
    List.flatMap_assoc]
  refine List.flatMap_congr fun s hs => ?_
  have hmem : ∀ l ∈ s.body.addedLines, l ∈ addedLines sections :=
    fun l hl => List.mem_flatMap.mpr ⟨s, hs, hl⟩
  cases hbody : s.body with
  | text old new hunks =>
    cases new with
    | none => rfl
    | some path =>
      rw [hbody] at hmem
      simp only [Body.chunks, Body.addedLines, expectedSites_flatMap, List.map_flatMap,
        List.flatMap_assoc]
      refine List.flatMap_congr fun h hh => ?_
      rw [Hunk.addedLines_eq, expectedSites_flatMap, Hunk.chunks, List.map_map, List.flatMap_map]
      refine List.flatMap_congr fun run hrun => ?_
      have hsub : ∀ l ∈ h.addedFrom (String.ofList path.text) run.before run.lines,
          l ∈ addedLines sections := by
        intro l hl
        refine hmem l (List.mem_flatMap.mpr ⟨h, hh, ?_⟩)
        rw [Hunk.addedLines_eq]
        exact List.mem_flatMap.mpr ⟨run, hrun, hl⟩
      obtain ⟨_, _, _, _, hlongest⟩ := isLongest_of_mem_runsFrom hrun
      exact sitesOf_chunk hname hr 0 scope c author email h _ run hlongest.added
        (fun l hl => hnumber l (hsub l hl)) (fun l hl => hbreak l (hsub l hl))
  | _ => rfl

def patchLeaks (a : Analyzer) (next : Nat) (toDiff : AddedChunk → Diff) (patch : String) :
    Except PatchError (List Leak) :=
  (addedChunks patch).map fun chunks => (a.analyzeAll next (chunks.map toDiff)).flatten

def charRule (c : Char) : Rule :=
  ⟨"character", none, some ⟨String.singleton c, .one (.ofCode .exact c.toNat)⟩⟩

theorem reports_charRule (c : Char) (path line : String) :
    (Analyzer.mk [charRule c] []).reports (charRule c) path line = line.toList.contains c := by
  simp [reports, charRule, Rule.appliesTo, Rule.findIn, Pattern.find?, Regex.Expr.search,
    Regex.searchFrom_one, suppresses]

/-- A line break is in no line, so that no leak can be about one. -/
theorem sitesOf_charRule {c : Char} (hc : Text.isLineBreak c) (next : Nat) (diffs : List Diff) :
    sitesOf (charRule c) ((Analyzer.mk [charRule c] []).analyzeAll next diffs).flatten = [] := by
  rw [sitesOf_analyzeAll (by simp), List.flatMap_eq_nil_iff]
  intro d _
  rw [sitesOf_analyze_lines (by simp) rfl, List.map_eq_nil_iff, List.filter_eq_nil_iff]
  rintro ⟨line, offset⟩ hline
  simp only [reports_charRule, List.contains_iff_mem]
  intro hmem
  obtain ⟨text, htext, rfl⟩ := List.mem_map.mp (List.fst_mem_of_mem_zipIdx hline)
  rw [String.toList_ofList] at hmem
  rw [Text.not_isLineBreak_of_mem_splitLines _ _ htext _ hmem] at hc
  cases hc

/-- In a patch that numbers lines from one, each rule is reported exactly once at each line that it
matches and no filter suppresses, and nowhere else, if the patch can be read and its added lines
hold no line break of another kind; else there is a rule that is not. -/
theorem sitesOf_patchLeaks_iff (beyondAscii : Bool)
    (hnumber : ∀ l ∈ addedLines sections, 0 < l.number) :
    (∀ (a : Analyzer) (r : Rule) (next : Nat) (scope : Scope) (c : Git.Commit)
      (author email : String), a.rules.filter (·.name = r.name) = [r] → r.content.isSome →
        (a.patchLeaks next (scope.diff c author email) (print beyondAscii sections)).map (sitesOf r) =
          .ok (a.expectedSites r (addedLines sections))) ↔
      (∀ s ∈ sections, ∀ h ∈ s.body.hunks, h.IsReadable) ∧
        ∀ l ∈ addedLines sections, ∀ ch ∈ l.text.toList, Text.isLineBreak ch = false := by
  constructor
  · intro hall
    have hchar : ∀ ch, ∃ chunks diffs, addedChunks (print beyondAscii sections) = .ok chunks ∧
        sitesOf (charRule ch) ((Analyzer.mk [charRule ch] []).analyzeAll 0 diffs).flatten =
          (Analyzer.mk [charRule ch] []).expectedSites (charRule ch) (addedLines sections) := by
      intro ch
      have hsites := hall (.mk [charRule ch] []) (charRule ch) 0 ⟨.ofText "", "", ⟨0, 0, none⟩⟩
        ⟨"", [], "", "", ⟨0, 0, none⟩, ⟨0, 0, none⟩⟩ "" "" (by simp) rfl
      unfold patchLeaks at hsites
      cases hchunks : addedChunks (print beyondAscii sections) with
      | error e => simp [hchunks, Except.map] at hsites
      | ok chunks =>
        rw [hchunks] at hsites
        exact ⟨chunks, _, rfl, Except.ok.inj hsites⟩
    obtain ⟨chunks, _, hchunks, _⟩ := hchar 'x'
    refine ⟨isReadable_of_addedChunks hchunks, fun l hl ch hch => ?_⟩
    by_contra hbreak
    obtain ⟨_, diffs, _, hsites⟩ := hchar ch
    rw [sitesOf_charRule (by simpa using hbreak)] at hsites
    have hreported : l ∈ (addedLines sections).filter fun l =>
        (Analyzer.mk [charRule ch] []).reports (charRule ch) l.path l.text := by
      simp [reports_charRule, hl, hch]
    rw [List.map_eq_nil_iff.mp hsites.symm] at hreported
    cases hreported
  · rintro ⟨hread, hbreak⟩ a r next scope c author email hname hr
    rw [patchLeaks, addedChunks_of_isReadable beyondAscii hread]
    exact congrArg Except.ok (sitesOf_print hname hr next scope c author email hnumber hbreak)

/-- Two lines that are added at the top of a file, the second of them a key. -/
def keySection (first : Line) : FileSection :=
  addedSection ⟨1, some 2⟩ [first, ⟨"key".toList, by decide⟩]

theorem sitesOf_patchLeaks_iff_key :
    (∀ l ∈ addedLines [keySection ⟨"one".toList, by decide⟩], 0 < l.number) ∧
    ∀ (a : Analyzer) (r : Rule) (next : Nat) (scope : Scope) (c : Git.Commit)
      (author email : String), a.rules.filter (·.name = r.name) = [r] → r.content.isSome →
        (a.patchLeaks next (scope.diff c author email)
            (print false [keySection ⟨"one".toList, by decide⟩])).map (sitesOf r) =
          .ok (a.expectedSites r (addedLines [keySection ⟨"one".toList, by decide⟩])) := by
  have hnumber : ∀ l ∈ addedLines [keySection ⟨"one".toList, by decide⟩], 0 < l.number := by
    decide +kernel
  have hread : ∀ s ∈ [keySection ⟨"one".toList, by decide⟩], ∀ h ∈ s.body.hunks, h.IsReadable := by
    intro s hs h hh
    obtain rfl := List.mem_singleton.mp hs
    obtain rfl := List.mem_singleton.mp hh
    exact Nat.one_lt_pow (by decide) (by decide)
  have hbreak : ∀ l ∈ addedLines [keySection ⟨"one".toList, by decide⟩],
      ∀ ch ∈ l.text.toList, Text.isLineBreak ch = false := by
    have hall : (addedLines [keySection ⟨"one".toList, by decide⟩]).all fun l =>
        l.text.toList.all fun ch => !Text.isLineBreak ch := by decide +kernel
    simpa using hall
  exact ⟨hnumber, (sitesOf_patchLeaks_iff false hnumber).mpr ⟨hread, hbreak⟩⟩

/-- A form feed in the first line moves the key of the second line to the third. -/
theorem sitesOf_patchLeaks_formFeed :
    ((Analyzer.mk [charRule 'k'] []).patchLeaks 0
        ((Scope.mk (.ofText "r") "u" ⟨0, 0, none⟩).diff
          ⟨"h", ["p"], "Ann", "ann@x", ⟨0, 0, none⟩, ⟨0, 0, none⟩⟩ "Ann" "ann@x")
        (print false [keySection ⟨"x\x0cy".toList, by decide⟩])).map (sitesOf (charRule 'k')) =
      .ok [("f", 3)] ∧
    (Analyzer.mk [charRule 'k'] []).expectedSites (charRule 'k')
      (addedLines [keySection ⟨"x\x0cy".toList, by decide⟩]) = [("f", 2)] := by
  constructor <;> decide +kernel

end Analyzer

end SecretSweep
