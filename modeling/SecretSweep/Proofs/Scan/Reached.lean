import SecretSweep.Proofs.Scan.Emission

/-!
Which commits a walk looks at: all up to the first boundary, that one included.
-/

namespace SecretSweep

def Git.Command.commitName? : Git.Command → Option String
  | .commit name => some name
  | _ => none

/-- The commits that an operation has looked at. -/
def Turn.visited {α : Type} (t : Turn α) : List String :=
  t.commands.filterMap Git.Command.commitName?

/-- The commits up to the first boundary. -/
def Scope.reached (s : Scope) (clone : Git.Clone) (names : List String) : List String :=
  (names.takeWhile fun name => !s.isBoundary clone name) ++
    (names.find? (s.isBoundary clone)).toList

namespace Visit

theorem commands_ofPatch (commands : List Git.Command) (boundary : Bool)
    (make : Patch.AddedChunk → Diff) (patch : Except Git.Fault (List Patch.AddedChunk)) :
    (ofPatch commands boundary make patch).commands = commands := by
  unfold ofPatch
  split <;> rfl

theorem visited_of (scope : Scope) (clone : Git.Clone) (name : String) :
    (of scope clone name).commands.filterMap Git.Command.commitName? = [name] := by
  unfold of
  dsimp only
  split
  · rfl
  · rfl
  · split
    · split_ifs
      · unfold snapshot
        split
        · rfl
        · rw [commands_ofPatch]
          rfl
      · rw [changes, commands_ofPatch]
        rfl
    · rfl

end Visit

theorem Walk.visited_of {scope : Scope} {clone : Git.Clone} {scanned : Nat} {names : List String}
    (h : (of scope clone scanned names).fault = none) :
    (of scope clone scanned names).commands.filterMap Git.Command.commitName? =
      scope.reached clone names := by
  induction names generalizing scanned with
  | nil => rfl
  | cons name rest ih =>
    have hname := Visit.visited_of scope clone name
    have hv := fault_visit h
    rw [of_cons hv] at h ⊢
    cases hb : scope.isBoundary clone name with
    | true => simp [Scope.reached, hb, hname]
    | false =>
      simp only [hb, Bool.false_eq_true, if_false] at h ⊢
      have hrest := ih h
      simp only [Scope.reached] at hrest ⊢
      simp [List.filterMap_append, hb, hname, hrest]

/-- A commit that has not been reached comes after the boundary. -/
theorem Scope.mem_reached_or (s : Scope) (clone : Git.Clone) {names : List String} {name : String}
    (h : name ∈ names) :
    name ∈ s.reached clone names ∨
      ∃ b, names.find? (s.isBoundary clone) = some b ∧ [b, name].Sublist names := by
  induction names with
  | nil => simp at h
  | cons first rest ih =>
    cases hb : s.isBoundary clone first with
    | true =>
      rcases List.mem_cons.mp h with rfl | hrest
      · exact .inl (by simp [reached, hb])
      · refine .inr ⟨first, by simp [hb], ?_⟩
        exact List.cons_sublist_cons.mpr (List.singleton_sublist.mpr hrest)
    | false =>
      rcases List.mem_cons.mp h with rfl | hrest
      · exact .inl (by simp [reached, hb])
      · rcases ih hrest with hr | ⟨b, hfind, hsub⟩
        · have hcons : s.reached clone (first :: rest) = first :: s.reached clone rest := by
            simp [reached, hb]
          exact .inl (hcons ▸ List.mem_cons_of_mem first hr)
        · exact .inr ⟨b, by simp [hb, hfind], hsub.cons first⟩

end SecretSweep
