import SecretSweep.Delivery.Outlets
import SecretSweep.Proofs.Delivery.RecordReading
import SecretSweep.Proofs.Files.Reach

/-!
The log of leaks over any number of sessions: its file keeps what was in it and gets one line for
each leak that is sent while the log is started. The lines are read back as the records of these
leaks, whatever stands in their fields.
-/

namespace SecretSweep

variable {σ : Type}

def Backend.answerAll (b : Backend σ) (requests : List Request) (w : σ) : σ :=
  requests.foldl (fun w request => (b.answer request w).1) w

/-- The leaks that are sent between a start and the stop after it. -/
def sentWhileStarted : (started : Bool) → List Request → List Leak
  | _, [] => []
  | _, .start :: rest => sentWhileStarted true rest
  | _, .stop :: rest => sentWhileStarted false rest
  | started, .send leak :: rest =>
    (if started then [leak] else []) ++ sentWhileStarted started rest

namespace Outlets

variable {o : Outlets} {path : Files.Path} {place : Files.Place} {started : Bool} {s : List Char}

/-- The log at a path, and the text that its file holds. -/
structure LogsTo (o : Outlets) (path : Files.Path) (place : Files.Place) (started : Bool)
    (s : List Char) : Prop where
  path_eq : o.log.path = path
  handle_eq : o.log.handle = if started then .writing place false else .closed
  reached : o.tree.place path.text = .ok place
  holds : o.tree.HoldsText place s
  opened : started → (o.tree.entryAt place).isSome

def writable (leaks : List Leak) : List Leak := leaks.filter (·.record.isWritable)

/-- The lines of some leaks. -/
def linesOf (leaks : List Leak) : List Char := leaks.flatMap fun leak => leak.record.line

theorem LogsTo.start (h : o.LogsTo path place started s) (hn : path.IsNormal)
    (hnull : path.hasNull = false) :
    ((backend .log).answer .start o).1.LogsTo path place true s := by
  obtain ⟨d, hd, hdir⟩ := Files.Tree.place_parent hn h.reached h.holds.ne_directory
  obtain ⟨tree, hopen, hreached, hholds, hsome⟩ := h.holds.openAppend h.reached
  have hstart : o.log.start o.tree = .ok ({ o.log with handle := .writing place false }, tree) := by
    simp [FileLog.start, h.path_eq, hnull, Files.Tree.ensureDirectory_of_directory hd hdir, hopen]
  simp only [backend, recorded, answerLog, hstart, withLog]
  exact ⟨h.path_eq, rfl, hreached, hholds, fun _ => hsome⟩

theorem LogsTo.stop (h : o.LogsTo path place started s) :
    ((backend .log).answer .stop o).1.LogsTo path place false s := by
  have hstop : o.log.stop = ({ o.log with handle := .closed }, none) := by
    cases started <;> simp [FileLog.stop, h.handle_eq]
  simp only [backend, recorded, answerLog, hstop]
  exact ⟨h.path_eq, rfl, h.reached, h.holds, nofun⟩

theorem LogsTo.send_closed (h : o.LogsTo path place false s) (leak : Leak) :
    ((backend .log).answer (.send leak) o).1.LogsTo path place false s := by
  have hsend : o.log.send o.tree leak = .ok (o.log, o.tree) := FileLog.send_closed h.handle_eq _ _
  simp only [backend, recorded, answerLog, hsend, withLog]
  exact ⟨h.path_eq, h.handle_eq, h.reached, h.holds, nofun⟩

theorem LogsTo.send_unwritable (h : o.LogsTo path place true s) {leak : Leak}
    (hleak : leak.record.isWritable = false) :
    ((backend .log).answer (.send leak) o).1.LogsTo path place true s := by
  have hsend : o.log.send o.tree leak = .error .numberTooLong := by
    simp [FileLog.send, h.handle_eq, hleak]
  simp only [backend, recorded, answerLog, hsend, withLog]
  exact ⟨h.path_eq, h.handle_eq, h.reached, h.holds, h.opened⟩

theorem LogsTo.send (h : o.LogsTo path place true s) {leak : Leak}
    (hleak : leak.record.isWritable) :
    ((backend .log).answer (.send leak) o).1.LogsTo path place true (s ++ leak.record.line) := by
  obtain ⟨tree, happend, hreached, hholds, hsome⟩ :=
    h.holds.append (h.opened rfl) h.reached leak.logLine
  have hsend : o.log.send o.tree leak =
      .ok ({ o.log with handle := .writing place false }, tree) := by
    simp [FileLog.send, h.handle_eq, hleak, happend]
  simp only [backend, recorded, answerLog, hsend, withLog]
  rw [Leak.logLine, String.toList_ofList] at hholds
  exact ⟨h.path_eq, rfl, hreached, hholds, fun _ => hsome⟩

/-- The text grows by a line for each leak that is sent while the log is started. -/
theorem LogsTo.answerAll (h : o.LogsTo path place started s) (hn : path.IsNormal)
    (hnull : path.hasNull = false) (requests : List Request) :
    ∃ started', ((backend .log).answerAll requests o).LogsTo path place started'
      (s ++ linesOf (writable (sentWhileStarted started requests))) := by
  induction requests generalizing o started s with
  | nil => exact ⟨started, by simpa [Backend.answerAll, sentWhileStarted, writable, linesOf] using h⟩
  | cons request rest ih =>
    rw [Backend.answerAll, List.foldl_cons, ← Backend.answerAll]
    cases request with
    | start => exact ih (h.start hn hnull)
    | stop => exact ih h.stop
    | send leak =>
      cases started with
      | false => exact ih (h.send_closed leak)
      | true =>
        cases hleak : leak.record.isWritable with
        | false =>
          have hrest := ih (h.send_unwritable hleak)
          simpa [sentWhileStarted, writable, hleak] using hrest
        | true =>
          have hrest := ih (h.send hleak)
          simpa [sentWhileStarted, writable, hleak, linesOf] using hrest

/-- The file of a log over any sessions: one line is added for each leak that is sent while the log
is started and that can be written, and these lines are read as the records of these leaks. -/
theorem answerAll_log_appends {name : String} (hnull : (Files.Path.ofText name).hasNull = false)
    (hlog : o.log = .init (.ofText name))
    (hplace : o.tree.place (Files.Path.ofText name).text = .ok place)
    (hold : o.tree.HoldsText place s) (hend : s = [] ∨ s.getLast? = some '\n')
    (requests : List Request) :
    ∃ lines : List (List Char),
      ((backend .log).answerAll requests o).tree.HoldsText place
        (s ++ lines.flatMap (· ++ ['\n'])) ∧
      (∀ line ∈ lines, '\n' ∉ line) ∧
      Text.splitOn '\n' (s ++ lines.flatMap (· ++ ['\n'])) =
        (Text.splitOn '\n' s).dropLast ++ lines ++ [[]] ∧
      lines.map Record.read? =
        (writable (sentWhileStarted false requests)).map fun leak => some leak.record := by
  have hstart : o.LogsTo (.ofText name) place false s :=
    ⟨by rw [hlog]; rfl, by rw [hlog]; rfl, hplace, hold, nofun⟩
  obtain ⟨started, hafter⟩ := hstart.answerAll (Files.Path.isNormal_ofText name) hnull requests
  generalize writable (sentWhileStarted false requests) = leaks at hafter ⊢
  have hlines : linesOf leaks = (leaks.map (·.record.text)).flatMap (· ++ ['\n']) := by
    simp [linesOf, Record.line, List.flatMap_map]
  have hbody : ∀ line ∈ leaks.map (·.record.text), '\n' ∉ line := by
    intro line hline hmem
    obtain ⟨leak, -, rfl⟩ := List.mem_map.mp hline
    exact absurd (Record.not_control_of_mem_text hmem) (by decide)
  refine ⟨_, hlines ▸ hafter.holds, hbody, Text.splitOn_append_lines hend hbody, ?_⟩
  simp [Record.read?_text]

/-- A leak whose fields try to end the line and to begin another record. -/
def forgingLeak (line : Int) : Leak :=
  { patternName := "key", regexp := "\\", filePath := "a\u2028b", repoPath := "r", repoUrl := "u"
    leakString := "x\"\x7d\n\x7b\"line\": 1\x7d\r\x00", commitHash := "c", commitAuthor := "😀"
    commitEmail := "", timestamp := ⟨0, 0, some 0⟩, line, id := "1" }

def logSite : Outlets :=
  { tree := ⟨[], [(["log"], .file (.text "\x7b\x7d\n"))]⟩
    log := .init (.ofText "log")
    mailer := .init .default none
    server := fun _ => none
    collected := []
    calls := [] }

theorem holdsText_logSite : logSite.tree.HoldsText ["log"] "\x7b\x7d\n".toList := .file rfl rfl

def forgingRequests : List Request :=
  [.send (forgingLeak 1), .start, .send (forgingLeak 2), .start, .stop, .send (forgingLeak 3),
    .start, .send (forgingLeak (-4)), .stop]

theorem answerAll_log_appends_forging :
    (Files.Path.ofText "log").hasNull = false ∧ logSite.log = .init (.ofText "log") ∧
      logSite.tree.place (Files.Path.ofText "log").text = .ok ["log"] ∧
      logSite.tree.HoldsText ["log"] "\x7b\x7d\n".toList ∧
      "\x7b\x7d\n".toList.getLast? = some '\n' ∧
      ∃ lines : List (List Char),
        ((backend .log).answerAll forgingRequests logSite).tree.HoldsText ["log"]
            ("\x7b\x7d\n".toList ++ lines.flatMap (· ++ ['\n'])) ∧
        (∀ line ∈ lines, '\n' ∉ line) ∧
        Text.splitOn '\n' ("\x7b\x7d\n".toList ++ lines.flatMap (· ++ ['\n'])) =
          "\x7b\x7d".toList :: lines ++ [[]] ∧
        lines.map Record.read? = [some (forgingLeak 2).record, some (forgingLeak (-4)).record] := by
  have hplace : logSite.tree.place (Files.Path.ofText "log").text = .ok ["log"] := by
    decide +kernel
  have hsent : writable (sentWhileStarted false forgingRequests) =
      [forgingLeak 2, forgingLeak (-4)] := by decide +kernel
  obtain ⟨lines, hholds, hbody, hsplit, hread⟩ := answerAll_log_appends (o := logSite)
    (by decide +kernel) rfl hplace holdsText_logSite (.inr (by decide +kernel)) forgingRequests
  rw [hsent] at hread
  exact ⟨by decide +kernel, rfl, hplace, holdsText_logSite, by decide +kernel, lines, hholds, hbody,
    hsplit, hread⟩

/-- A leak whose line has a number of one digit too many is not logged, although it is sent while
the log is started. -/
theorem answerAll_log_drops_long :
    let leak := forgingLeak ((10 ^ Text.maxDecimalDigits : Nat) : Int)
    sentWhileStarted false [.start, .send leak] = [leak] ∧
      ¬∃ lines : List (List Char),
        ((backend .log).answerAll [.start, .send leak] logSite).tree.HoldsText ["log"]
          ("\x7b\x7d\n".toList ++ lines.flatMap (· ++ ['\n'])) ∧
        lines.map Record.read? = [some leak.record] := by
  intro leak
  refine ⟨rfl, ?_⟩
  rintro ⟨lines, hholds, hread⟩
  have hlong : leak.record.isWritable = false := by decide +kernel
  have hsite : logSite.LogsTo (.ofText "log") ["log"] false "\x7b\x7d\n".toList :=
    ⟨rfl, rfl, by decide +kernel, holdsText_logSite, nofun⟩
  obtain ⟨started, hafter⟩ :=
    hsite.answerAll (Files.Path.isNormal_ofText "log") (by decide +kernel) [.start, .send leak]
  have hsent : linesOf (writable (sentWhileStarted false [.start, .send leak])) = [] := by
    simp [sentWhileStarted, writable, linesOf, hlong]
  have hlines := hholds.unique hafter.holds
  rw [hsent, List.append_right_inj] at hlines
  cases lines with
  | nil => cases hread
  | cons line rest => simp at hlines

end Outlets

end SecretSweep
