import SecretSweep.Git.Clone
import SecretSweep.Proofs.Patch.Legible
import SecretSweep.Proofs.Time.Calendar

/-!
Which answers about a commit can be used. Where git can be asked and answers, what it says of a
commit is refused only for its times, and a patch only for a line that cannot be read.
-/

namespace SecretSweep.Git

/-- Whether a fault is that of a command, and not one of what a command printed. -/
def Fault.isCommand : Fault → Bool
  | .command _ => true
  | _ => false

/-- Whether all that can have gone wrong is a command. -/
def Printed {α : Type} (answer : Except Fault α) : Prop :=
  ∀ fault, answer = .error fault → fault.isCommand

/-- Whether a text is a number of seconds of which the calendar has the day. -/
def IsTime (source : List Char) : Prop :=
  ∃ n, Text.readInteger 10 source = .ok n ∧
    Time.firstDay * 86400 ≤ n ∧ n < (Time.lastDay + 1) * 86400

theorem readStamp_isOk_iff (source : List Char) : (readStamp source).isOk ↔ IsTime source := by
  unfold readStamp IsTime
  cases hread : Text.readInteger 10 source with
  | error e => simp
  | ok n =>
    have hstamp := Time.Moment.ofStamp_isOk_iff n
    simp only [mapError_ok, ok_bind, Except.ok.injEq, exists_eq_left', ← hstamp]
    cases Time.Moment.ofStamp n <;> rfl

theorem isCommand_of_readStamp {source : List Char} {fault : Fault}
    (h : readStamp source = .error fault) : fault.isCommand = false := by
  unfold readStamp at h
  cases hread : Text.readInteger 10 source with
  | error e =>
    simp only [hread, mapError_error, error_bind, Except.error.injEq] at h
    rw [← h]
    rfl
  | ok n =>
    cases hstamp : Time.Moment.ofStamp n with
    | error e =>
      simp only [hread, hstamp, mapError_ok, mapError_error, ok_bind, Except.error.injEq] at h
      rw [← h]
      rfl
    | ok m => simp [hread, hstamp] at h

/-- Whether the last two of six fields are times. -/
def HasTimes (output : String) : Prop :=
  ∀ hash parents author email authored committed,
    Text.splitOn '\x00' (Text.stripEnd (· == '\n') output.toList) =
      [hash, parents, author, email, authored, committed] → IsTime authored ∧ IsTime committed

theorem printed_readCommit_iff (name output : String) :
    Printed (readCommit name output) ↔ HasTimes output := by
  unfold readCommit HasTimes
  split
  · rename_i hash parents author email authored committed hfields
    have hone : (∀ hash' parents' author' email' authored' committed',
        [hash, parents, author, email, authored, committed] =
          [hash', parents', author', email', authored', committed'] →
        IsTime authored' ∧ IsTime committed') ↔ IsTime authored ∧ IsTime committed := by
      refine ⟨fun h => h _ _ _ _ _ _ rfl, ?_⟩
      rintro h _ _ _ _ _ _ heq
      simp only [List.cons.injEq, and_true] at heq
      obtain ⟨-, -, -, -, rfl, rfl⟩ := heq
      exact h
    rw [hfields, hone, ← readStamp_isOk_iff, ← readStamp_isOk_iff]
    cases ha : readStamp authored with
    | error fault =>
      have hfault := isCommand_of_readStamp ha
      simp [Printed, hfault]
    | ok written =>
      cases hc : readStamp committed with
      | error fault =>
        have hfault := isCommand_of_readStamp hc
        simp [Printed, hfault]
      | ok kept => simp [Printed, pure, Except.pure]
  · rename_i hother
    refine iff_of_true ?_ fun _ _ _ _ _ _ hfields => absurd hfields (hother _ _ _ _ _ _)
    intro fault h
    obtain rfl := Except.error.inj h
    rfl

namespace Clone

/-- Whether git can be asked, and what it prints then is of some use. -/
def Tells (clone : Clone) (command : Command) (isUsable : String → Prop) : Prop :=
  clone.refusal command = none ∧ ∀ output, clone.run command = .ok output → isUsable output

/-- Something other than a command goes wrong exactly if a command is not started, or what it prints
cannot be read. -/
theorem printed_ask_iff {α : Type} (clone : Clone) (command : Command)
    (read : String → Except Fault α) :
    Printed (clone.ask command >>= read) ↔
      clone.Tells command fun output => Printed (read output) := by
  unfold ask Tells
  cases hrefusal : clone.refusal command with
  | some fault => simp [Printed, Fault.isCommand]
  | none =>
    cases hrun : clone.run command with
    | error failure => simp [Printed, Fault.isCommand]
    | ok output => simp

theorem printed_commit_iff (clone : Clone) (name : String) :
    Printed (clone.commit name) ↔ clone.Tells (.commit name) HasTimes :=
  (clone.printed_ask_iff (.commit name) (readCommit name)).trans <| by
    simp only [Tells, printed_readCommit_iff]

theorem printed_addedChunks_iff (clone : Clone) (old new : String) :
    Printed (clone.addedChunks old new) ↔ clone.Tells (.diff old new) Patch.Legible := by
  have hread (patch : String) :
      Printed ((Patch.addedChunks patch).mapError Fault.patch) ↔ Patch.Legible patch := by
    rw [← Patch.addedChunks_isOk_iff]
    cases Patch.addedChunks patch with
    | ok chunks => simp [Printed]
    | error e => simp [Printed, Fault.isCommand]
  refine (clone.printed_ask_iff (.diff old new) _).trans ?_
  simp only [Tells, hread]

end Clone

end SecretSweep.Git
