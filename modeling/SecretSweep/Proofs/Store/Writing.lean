import SecretSweep.Store.Basic

/-!
Records that are written as they are. A record whose counts fit and whose times are numbers is added
under a new id, and takes the place of the record that was added when its scan started.
-/

namespace SecretSweep

namespace Run

structure Storable (r : Run) : Prop where
  total : isStorable r.commitsTotal
  scanned : isStorable r.commitsScanned
  started : r.startedAt.isNaN = false
  finished : ∀ t ∈ r.finishedAt, t.isNaN = false

/-- Whether two records are of one scan, at different times. -/
structure SameScan (r r' : Run) : Prop where
  id : r.id = r'.id
  repoPath : r.repoPath = r'.repoPath
  repoUrl : r.repoUrl = r'.repoUrl
  startedAt : r.startedAt = r'.startedAt

@[simp] theorem id_draft (r : Run) : r.draft.id = r.id := rfl

theorem presentTime_eq_self {t : Option Float} (h : ∀ x ∈ t, x.isNaN = false) :
    presentTime t = t := by
  cases t with
  | none => rfl
  | some x => simp only [presentTime, Option.filter, h x rfl, Bool.not_false, if_true]

theorem checkNumbers_draft {r : Run} (ht : isStorable r.commitsTotal)
    (hs : isStorable r.commitsScanned) : r.draft.checkNumbers = .ok () := by
  simp [RunDraft.checkNumbers, draft, ht, hs]

theorem complete_draft {r : Run} (h : r.Storable) : r.draft.complete = .ok r := by
  have hstarted : presentTime (some r.startedAt) = some r.startedAt :=
    presentTime_eq_self fun x hx => by
      obtain rfl := Option.some.inj hx
      exact h.started
  simp only [RunDraft.complete, checkNumbers_draft h.total h.scanned]
  simp [draft, column, hstarted, presentTime_eq_self h.finished, bind, Except.bind, pure,
    Except.pure]

theorem applyTo_draft_eq (r old : Run) : r.draft.applyTo old = .ok { old with
    status := r.status
    commitsTotal := r.commitsTotal
    commitsScanned := r.commitsScanned
    error := r.error
    finishedAt := presentTime r.finishedAt } := rfl

theorem applyTo_draft {r old : Run} (h : r.Storable) (hsame : old.SameScan r) :
    r.draft.applyTo old = .ok r := by
  obtain ⟨hid, hpath, hurl, hstarted⟩ := hsame
  rw [applyTo_draft_eq, presentTime_eq_self h.finished, hid, hpath, hurl, hstarted]

end Run

namespace Store

theorem create_draft {s : Store} {r : Run} (h : r.Storable)
    (hnew : s.current.run? r.id = none) :
    s.create r.draft = (commit { s.current with runs := s.current.runs ++ [r] }, .ok ()) := by
  simp [create, Run.complete_draft h, hnew]

/-- Every record but the last one has another id and stays as it is. -/
theorem finish_draft {s : Store} {earlier : List Run} {old r : Run} (h : r.Storable)
    (hruns : s.current.runs = earlier ++ [old]) (hother : ∀ e ∈ earlier, e.id ≠ r.id)
    (hsame : old.SameScan r) :
    s.finish r.draft = (commit { s.current with runs := earlier ++ [r] }, .ok ()) := by
  have hfound : s.current.run? r.id = some old := by
    have hnone : earlier.find? (·.id = r.id) = none :=
      List.find?_eq_none.mpr fun e he => by simpa using hother e he
    rw [Tables.run?, hruns, List.find?_append, hnone, Option.none_or, List.find?_cons_of_pos]
    simpa using hsame.id
  have hkept : earlier.map (fun e => if e.id = r.id then r else e) = earlier := by
    rw [List.map_congr_left fun e he => if_neg (hother e he), List.map_id']
  simp only [finish, Run.id_draft, Run.checkNumbers_draft h.total h.scanned, hfound,
    Run.applyTo_draft h hsame, hruns, List.map_append, hkept]
  simp [hsame.id]

/-- Once the counts fit, recording what a scan came to does not fail. -/
theorem finish_isOk {s : Store} {r : Run} (ht : isStorable r.commitsTotal)
    (hs : isStorable r.commitsScanned) : (s.finish r.draft).2 = .ok () := by
  unfold finish
  rw [Run.checkNumbers_draft ht hs]
  cases s.current.run? r.draft.id with
  | none => rfl
  | some old => simp only [Run.applyTo_draft_eq]

end Store

end SecretSweep
