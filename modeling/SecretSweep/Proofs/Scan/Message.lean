import SecretSweep.Scan.Scanner

/-!
The messages of failed scans: there is always something to say.
-/

namespace SecretSweep

theorem append_ne_empty {lead : String} (h : lead ≠ "") (rest : String) : lead ++ rest ≠ "" := by
  simp [h]

theorem Text.NumeralError.message_ne_empty (base : Nat) (source : List Char)
    (e : Text.NumeralError) : e.message base source ≠ "" := by
  cases e with
  | malformed => exact append_ne_empty (append_ne_empty (append_ne_empty (by decide) _) _) _
  | tooLong n =>
    exact append_ne_empty
      (append_ne_empty (append_ne_empty (append_ne_empty (by decide) _) _) _) _

theorem Git.CommandFailure.message_ne_empty (f : CommandFailure) : f.message ≠ "" :=
  append_ne_empty (append_ne_empty (append_ne_empty (append_ne_empty (by decide) _) _) _) _

theorem Git.Fault.message_ne_empty (f : Git.Fault) : f.toFailure.message ≠ "" := by
  cases f with
  | command failure => exact failure.message_ne_empty
  | start fault => cases fault <;> decide
  | stampText source error => exact error.message_ne_empty 10 _
  | stamp error =>
    cases error with
    | tooLarge => decide
    | beyondClock => decide
    | year y => exact append_ne_empty (append_ne_empty (by decide) _) _
  | patch error =>
    cases error with
    | octal text => exact Text.NumeralError.message_ne_empty 8 _ .malformed
    | byte => decide
    | lineNumber digits => exact Text.NumeralError.message_ne_empty 10 [] (.tooLong digits)

theorem Git.RepositoryFault.message_ne_empty (path : Files.Path) (f : RepositoryFault) :
    f.message path ≠ "" := by
  cases f with
  | noDirectory => exact append_ne_empty (by decide) _
  | notRepository failure =>
    exact append_ne_empty (append_ne_empty (append_ne_empty (by decide) _) _) _
  | references failure =>
    exact append_ne_empty (append_ne_empty (append_ne_empty (by decide) _) _) _
  | revisions failure =>
    exact append_ne_empty (append_ne_empty (append_ne_empty (by decide) _) _) _

theorem ScanFault.message_ne_empty (f : ScanFault) : f.toFailure.message ≠ "" := by
  cases f with
  | repository path fault => exact fault.message_ne_empty path
  | git fault => exact fault.message_ne_empty
  | refused path refusal =>
    have hreason : "[Errno " ++ toString refusal.number ++ "] " ≠ "" :=
      append_ne_empty (append_ne_empty (by decide) _) _
    exact append_ne_empty (append_ne_empty (append_ne_empty hreason _) _) _

end SecretSweep
