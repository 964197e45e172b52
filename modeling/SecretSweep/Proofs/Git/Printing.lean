import SecretSweep.Git.Clone
import SecretSweep.Proofs.Result
import SecretSweep.Proofs.Text.Encoding

/-!
Clones in which git prints known texts: what has been printed is what is read.
-/

namespace SecretSweep.Git

/-- A command that succeeds and prints a text. -/
def Reaction.printing (s : String) : Reaction := .exited 0 (Text.Utf8.encode s.toList) []

theorem output_printing (command : Command) (s : String) :
    (Reaction.printing s).output command = .ok s := by
  simp [Reaction.printing, Reaction.output, decoded, Text.Utf8.decodeReplacing_encode]

/-- A clone in a directory where each command prints a text or fails. -/
def Clone.printing (path : Files.Path) (prints : Command → Option String) : Clone :=
  { path
    directory := .ok true
    answer := fun command => (prints command).elim (.exited 128 [] []) .printing }

theorem toOption_revisions_printing (path : Files.Path) (directory : Except Files.Refusal Bool)
    (prints : Command → Option String) (limit : Option Int) :
    (({ Clone.printing path prints with directory } : Clone).revisions limit).toOption =
      (prints (.revisions limit)).map readRevisions := by
  simp only [Clone.revisions, Clone.run, Clone.printing]
  cases prints (.revisions limit) with
  | none => rfl
  | some text => rw [Option.elim_some, output_printing]; rfl

theorem commit_printing {path : Files.Path} {prints : Command → Option String} {name : String}
    {c : Commit} (h : (Clone.printing path prints).commit name = .ok c) :
    ∃ text, prints (.commit name) = some text ∧ readCommit name text = .ok c := by
  simp only [Clone.commit, Clone.ask, Clone.run, Clone.printing] at h
  cases hp : prints (.commit name) with
  | none =>
    rw [hp] at h
    cases h
  | some text =>
    simp only [hp, Option.elim_some, output_printing] at h
    exact ⟨text, rfl, h⟩

/-- What holds of every commit of a table holds of what git shows when it prints the table. -/
theorem commit_of_table {path : Files.Path} {prints : Command → Option String}
    {table : List (String × String)} {P : String → Commit → Bool}
    (hprints : ∀ name, prints (.commit name) = (table.find? (·.1 = name)).map Prod.snd)
    (hall : ∀ e ∈ table, (readCommit e.1 e.2).toOption.all (P e.1)) {name : String} {c : Commit}
    (h : (Clone.printing path prints).commit name = .ok c) : P name c := by
  obtain ⟨text, hp, hr⟩ := commit_printing h
  rw [hprints] at hp
  obtain ⟨⟨name', text'⟩, hfind, rfl⟩ := Option.map_eq_some_iff.mp hp
  obtain rfl : name' = name := by simpa using List.find?_some hfind
  simpa [hr] using hall _ (List.mem_of_find?_eq_some hfind)

end SecretSweep.Git
