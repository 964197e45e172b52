import SecretSweep.Files.Tree
import SecretSweep.Proofs.Result
import SecretSweep.Proofs.Text.Encoding
import SecretSweep.Proofs.Text.Lines

/-!
Reaching places in a tree of files: the text of a path in normal form is read as the path again, the
directory of a place that can be reached can be reached too, and what is put where no directory
stands changes no way through the tree. Text can be added to a file wherever it can be reached.
-/

namespace SecretSweep.Files

namespace Path

/-- The names of a path as they stand between slashes. -/
def IsNormal (p : Path) : Prop := ∀ name ∈ p.parts, name ≠ "" ∧ name ≠ "." ∧ '/' ∉ name.toList

variable {p : Path}

theorem isNormal_ofText (s : String) : (ofText s).IsNormal := by
  intro name hname
  obtain ⟨part, hpart, rfl⟩ := List.mem_map.mp hname
  obtain ⟨hmem, hkeep⟩ := List.mem_filter.mp hpart
  have hslash := Text.not_mem_of_mem_splitOn hmem
  obtain ⟨hempty, hpoint⟩ := of_decide_eq_true hkeep
  refine ⟨fun h => hempty ?_, fun h => hpoint ?_, by simpa using hslash⟩
  · rw [← String.toList_ofList (l := part), h]
    rfl
  · rw [← String.toList_ofList (l := part), h]
    rfl

theorem IsNormal.parent (h : p.IsNormal) : p.parent.IsNormal := fun name hname =>
  h name (List.dropLast_subset _ hname)

/-- Only the path that leads nowhere has a text that is not made of its root and names. -/
theorem toList_text (h : ¬(p.root = .relative ∧ p.parts = [])) :
    p.text.toList = p.root.text ++ Text.join ['/'] (p.parts.map String.toList) := by
  rw [text, if_neg h, String.toList_ofList]

/-- Names are found again between the slashes that join them. -/
theorem IsNormal.filter_splitOn_join (h : p.IsNormal) :
    ((Text.splitOn '/' (Text.join ['/'] (p.parts.map String.toList))).filter
      fun part => part ≠ [] ∧ part ≠ ['.']) = p.parts.map String.toList := by
  have hkeep : ∀ part ∈ p.parts.map String.toList, part ≠ [] ∧ part ≠ ['.'] ∧ '/' ∉ part := by
    intro part hpart
    obtain ⟨name, hname, rfl⟩ := List.mem_map.mp hpart
    obtain ⟨hempty, hpoint, hslash⟩ := h name hname
    exact ⟨fun he => hempty (String.toList_inj.mp he), fun he => hpoint (String.toList_inj.mp he),
      hslash⟩
  by_cases hne : p.parts.map String.toList = []
  · rw [hne]
    rfl
  · rw [Text.splitOn_join hne fun part hpart => (hkeep part hpart).2.2, List.filter_eq_self]
    intro part hpart
    obtain ⟨hempty, hpoint, -⟩ := hkeep part hpart
    exact decide_eq_true ⟨hempty, hpoint⟩

theorem IsNormal.parts_ofText_text (h : p.IsNormal) : (ofText p.text).parts = p.parts := by
  by_cases hnone : p.root = .relative ∧ p.parts = []
  · rw [text, if_pos hnone, hnone.2]
    rfl
  · have hparts := h.filter_splitOn_join
    have hroot : ∀ s, (Text.splitOn '/' (p.root.text ++ s)).filter
        (fun part => part ≠ [] ∧ part ≠ ['.']) =
        (Text.splitOn '/' s).filter fun part => part ≠ [] ∧ part ≠ ['.'] := by
      intro s
      cases p.root <;> simp [Root.text, Text.splitOn]
    simp only [ofText, toList_text hnone, hroot, hparts, List.map_map]
    simp

/-- The text of a path is not empty, and begins with a slash if the path begins at a root. -/
theorem IsNormal.exists_head? (h : p.IsNormal) :
    ∃ c, p.text.toList.head? = some c ∧ (c = '/' ↔ p.root ≠ .relative) := by
  obtain ⟨root, parts⟩ := p
  cases root with
  | slash => exact ⟨'/', by simp [toList_text, Root.text], by simp⟩
  | doubleSlash => exact ⟨'/', by simp [toList_text, Root.text], by simp⟩
  | relative =>
    cases parts with
    | nil => exact ⟨'.', rfl, by simp⟩
    | cons name more =>
      obtain ⟨hempty, -, hslash⟩ := h name (List.mem_cons_self ..)
      obtain ⟨c, rest, hc⟩ := List.exists_cons_of_ne_nil fun he => hempty (String.toList_inj.mp he)
      have hne : c ≠ '/' := by
        rintro rfl
        exact hslash (hc ▸ List.mem_cons_self ..)
      refine ⟨c, ?_, by simp [hne]⟩
      rw [toList_text (by simp)]
      cases more <;> simp [Root.text, Text.join, hc]

theorem length_encode_parent (p : Path) :
    (Text.Utf8.encode p.parent.text.toList).length ≤
      max 1 (Text.Utf8.encode p.text.toList).length := by
  by_cases hnone : p.parent.root = .relative ∧ p.parent.parts = []
  · rw [text, if_pos hnone]
    exact le_max_left ..
  · have hsome : ¬(p.root = .relative ∧ p.parts = []) := by
      rintro ⟨hroot, hparts⟩
      exact hnone ⟨hroot, by simp [parent, hparts]⟩
    have hprefix : p.parent.text.toList <+: p.text.toList := by
      have hjoin := Text.join_dropLast_prefix ['/'] (p.parts.map String.toList)
      rw [← List.map_dropLast] at hjoin
      rw [toList_text hnone, toList_text hsome, parent, List.prefix_append_right_inj]
      exact hjoin
    obtain ⟨rest, hrest⟩ := hprefix
    rw [← hrest, Text.Utf8.encode, Text.Utf8.encode, List.flatMap_append, List.length_append]
    omega

end Path

def Content.toBytes : Content → List UInt8
  | .text s => Text.Utf8.encode s.toList
  | .bytes b => b

theorem Content.toBytes_append (c : Content) (more : String) :
    (c.append more).toBytes = c.toBytes ++ Text.Utf8.encode more.toList := by
  cases c <;> simp [append, toBytes, Text.Utf8.encode]

namespace Tree

variable {t : Tree} {p q : Place}

/-- Where the names of a path are followed from. -/
def origin (t : Tree) (path : String) : Place :=
  if path.toList.head? = some '/' then [] else t.here

/-- Whether a path is spelled as one of a directory. -/
def namesDirectory (path : String) : Bool :=
  let last := (Text.splitOn '/' path.toList).getLastD []
  last.isEmpty || last == ['.']

/-- What is found at the end of the names of a path, which a spelling as a directory binds. -/
def arrive (t : Tree) (path : String) (found : Place) : Except Refusal Place :=
  if namesDirectory path then
    match t.entryAt found with
    | none => .error .notFound
    | some .directory => .ok found
    | some _ => .error .notDirectory
  else .ok found

theorem arrive_eq_ok_iff {path : String} {found : Place} : t.arrive path found = .ok p ↔
    found = p ∧ (namesDirectory path → t.entryAt p = some .directory) := by
  unfold arrive
  split_ifs with hnames
  · split <;> grind
  · simp [hnames]

theorem place_eq {path : String} (hne : path ≠ "")
    (hlen : (Text.Utf8.encode path.toList).length ≤ 4095) :
    t.place path = t.follow (t.origin path) (Path.ofText path).parts >>= t.arrive path := by
  rw [place, if_neg (by simpa using hne), if_neg (Nat.not_lt.mpr hlen)]
  rfl

theorem place_eq_ok_iff {path : String} : t.place path = .ok p ↔
    path ≠ "" ∧ (Text.Utf8.encode path.toList).length ≤ 4095 ∧
      t.follow (t.origin path) (Path.ofText path).parts = .ok p ∧
      (namesDirectory path → t.entryAt p = some .directory) := by
  by_cases hne : path = ""
  · simp [place, hne]
  by_cases hlen : (Text.Utf8.encode path.toList).length ≤ 4095
  · rw [place_eq hne hlen]
    cases hfollow : t.follow (t.origin path) (Path.ofText path).parts with
    | error refusal => simp
    | ok found => simp [arrive_eq_ok_iff, hne, hlen]
  · simp [place, hne, hlen, Nat.not_le.mp hlen]

theorem entryAt_put_of_ne (e : Entry) (h : p ≠ q) : (t.put q e).entryAt p = t.entryAt p := by
  have hlookup : ∀ entries : List (Place × Entry),
      (entries.filter fun f => f.1 ≠ q).lookup p = entries.lookup p := by
    intro entries
    induction entries with
    | nil => rfl
    | cons f rest ih =>
      obtain ⟨r, e⟩ := f
      by_cases hr : r = q
      · have hp : (p == r) = false := by simpa [hr] using h
        rw [List.filter_cons_of_neg (by simp [hr]), List.lookup_cons, hp, ih]
      · rw [List.filter_cons_of_pos (by simp [hr]), List.lookup_cons, List.lookup_cons, ih]
  have hne : (p == q) = false := by simpa using h
  simp only [entryAt, put, List.lookup_cons, hne, hlookup]

theorem follow_put {e : Entry} (hq : t.entryAt q ≠ some .directory) {at_ : Place}
    {names : List String} (h : t.follow at_ names = .ok p) :
    (t.put q e).follow at_ names = .ok p := by
  induction names generalizing at_ with
  | nil => exact h
  | cons name rest ih =>
    rw [follow] at h ⊢
    split at h
    · cases h
    · next hat =>
      have hne : at_ ≠ q := fun he => hq (he ▸ hat)
      rw [entryAt_put_of_ne e hne, hat]
      dsimp only
      split_ifs at h ⊢
      · exact ih h
      · exact ih h
    · cases h

theorem place_put {e : Entry} (hq : t.entryAt q ≠ some .directory) {path : String}
    (h : t.place path = .ok p) : (t.put q e).place path = .ok p := by
  obtain ⟨hne, hlen, hfollow, hdir⟩ := place_eq_ok_iff.mp h
  refine place_eq_ok_iff.mpr ⟨hne, hlen, follow_put hq hfollow, fun hnames => ?_⟩
  have hp := hdir hnames
  have hpq : p ≠ q := by
    rintro rfl
    exact hq hp
  rw [entryAt_put_of_ne e hpq, hp]

theorem follow_concat {at_ : Place} {names : List String} {name : String}
    (h : t.follow at_ (names ++ [name]) = .ok p) :
    ∃ d, t.follow at_ names = .ok d ∧ t.entryAt d = some .directory := by
  induction names generalizing at_ with
  | nil =>
    rw [List.nil_append, follow] at h
    split at h
    · cases h
    · next hat => exact ⟨at_, rfl, hat⟩
    · cases h
  | cons first rest ih =>
    rw [List.cons_append, follow] at h
    rw [follow]
    cases hat : t.entryAt at_ with
    | none =>
      rw [hat] at h
      cases h
    | some e =>
      rw [hat] at h
      cases e with
      | directory =>
        dsimp only at h ⊢
        split_ifs at h ⊢
        · exact ih h
        · exact ih h
      | file c => cases h
      | sink => cases h
      | full => cases h

theorem namesDirectory_of_parts {path : Path} (h : path.parts = []) : namesDirectory path.text := by
  obtain ⟨root, parts⟩ := path
  obtain rfl : parts = [] := h
  cases root <;> decide

/-- What can be reached, and is no directory itself, stands in a directory that can be reached. -/
theorem place_parent {path : Path} (hn : path.IsNormal) (h : t.place path.text = .ok p)
    (hp : t.entryAt p ≠ some .directory) :
    ∃ d, t.place path.parent.text = .ok d ∧ t.entryAt d = some .directory := by
  obtain ⟨-, hlen, hfollow, hdir⟩ := place_eq_ok_iff.mp h
  obtain ⟨c, hc, hroot⟩ := hn.exists_head?
  obtain ⟨c', hc', hroot'⟩ := hn.parent.exists_head?
  have horigin : t.origin path.parent.text = t.origin path.text := by
    have hiff : c' = '/' ↔ c = '/' := hroot'.trans hroot.symm
    simp [origin, hc, hc', hiff]
  rw [hn.parts_ofText_text] at hfollow
  rcases path.parts.eq_nil_or_concat with hparts | ⟨names, name, hparts⟩
  · exact absurd (hdir (namesDirectory_of_parts hparts)) hp
  · rw [hparts, List.concat_eq_append] at hfollow
    obtain ⟨d, hd, hentry⟩ := follow_concat hfollow
    have hnames : path.parent.parts = names := by simp [Path.parent, hparts]
    refine ⟨d, place_eq_ok_iff.mpr ⟨?_, ?_, ?_, fun _ => hentry⟩, hentry⟩
    · rintro he
      rw [he] at hc'
      cases hc'
    · have := path.length_encode_parent
      omega
    · rw [horigin, hn.parent.parts_ofText_text, hnames, hd]

theorem ensureDirectory_of_directory {path : Path} (h : t.place path.text = .ok p)
    (hp : t.entryAt p = some .directory) : t.ensureDirectory path = .ok t := by
  have hmake : t.makeDirectory path = .error .exists := by
    rw [makeDirectory, h, ok_bind, hp]
  have hlook : t.look path.text = .ok .directory := by
    rw [look, h, ok_bind, hp]
    rfl
  have hthere : t.orPresent path (.error .exists) = .ok t := by
    simp [orPresent, isDirectory, hlook]
  rw [ensureDirectory]
  cases path.parts.length with
  | zero => rw [makeDirectories, hmake, hthere]
  | succ depth =>
    rw [makeDirectories, hmake]
    exact hthere

variable {s : List Char} {path : Path}

/-- A place holds a text in a file. A file that is still to be made there counts as empty. -/
inductive HoldsText (t : Tree) (p : Place) (s : List Char) : Prop
  | file {c : Content} (entry : t.entryAt p = some (.file c))
      (bytes : c.toBytes = Text.Utf8.encode s)
  | room (entry : t.entryAt p = none) (above : t.entryAt p.dropLast = some .directory)
      (empty : s = [])

theorem HoldsText.ne_directory (h : t.HoldsText p s) : t.entryAt p ≠ some .directory := by
  cases h with
  | file entry bytes => simp [entry]
  | room entry above empty => simp [entry]

theorem HoldsText.unique {s' : List Char} (h : t.HoldsText p s) (h' : t.HoldsText p s') :
    s = s' := by
  cases h with
  | file entry bytes =>
    cases h' with
    | file entry' bytes' =>
      rw [entry] at entry'
      cases entry'
      rw [← Text.Utf8.decodeReplacing_encode s, ← bytes, bytes', Text.Utf8.decodeReplacing_encode]
    | room entry' => simp [entry] at entry'
  | room entry above empty =>
    cases h' with
    | file entry' => simp [entry] at entry'
    | room entry' above' empty' => rw [empty, empty']

theorem holdsText_put {c : Content} (hp : p ≠ []) (hc : c.toBytes = Text.Utf8.encode s) :
    (t.put p (.file c)).HoldsText p s :=
  .file (entryAt_put _ hp) hc

theorem ne_nil_of_entryAt (h : t.entryAt p ≠ some .directory) : p ≠ [] := by
  rintro rfl
  exact h rfl

/-- A log is opened where its text is, and is there to be written then. -/
theorem HoldsText.openAppend (h : t.HoldsText p s) (hplace : t.place path.text = .ok p) :
    ∃ t', t.openAppend path = .ok (p, t') ∧ t'.place path.text = .ok p ∧ t'.HoldsText p s ∧
      (t'.entryAt p).isSome := by
  have hne := ne_nil_of_entryAt h.ne_directory
  have hput := place_put (e := .file (.text "")) h.ne_directory hplace
  cases h with
  | file entry bytes =>
    refine ⟨t, ?_, hplace, .file entry bytes, by simp [entry]⟩
    rw [Tree.openAppend, hplace, ok_bind, entry]
    rfl
  | room entry above empty =>
    refine ⟨_, ?_, hput, holdsText_put hne (empty ▸ rfl), by simp [entryAt_put _ hne]⟩
    rw [Tree.openAppend, hplace, ok_bind, entry]
    simp only [above]
    rfl

theorem HoldsText.append (h : t.HoldsText p s) (hsome : (t.entryAt p).isSome)
    (hplace : t.place path.text = .ok p) (more : String) :
    ∃ t', t.append p more = .ok t' ∧ t'.place path.text = .ok p ∧
      t'.HoldsText p (s ++ more.toList) ∧ (t'.entryAt p).isSome := by
  have hne := ne_nil_of_entryAt h.ne_directory
  have hdir := h.ne_directory
  cases h with
  | @file c entry bytes =>
    refine ⟨t.put p (.file (c.append more)), by simp only [Tree.append, entry],
      place_put hdir hplace, holdsText_put hne ?_, by simp [entryAt_put _ hne]⟩
    rw [Content.toBytes_append, bytes, Text.Utf8.encode, Text.Utf8.encode, Text.Utf8.encode,
      List.flatMap_append]
  | room entry => simp [entry] at hsome

end Tree

end SecretSweep.Files
