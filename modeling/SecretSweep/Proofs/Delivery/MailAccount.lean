import Mathlib.Data.List.Induction
import Mathlib.Tactic.SplitIfs
import SecretSweep.Delivery.Mailer
import SecretSweep.Proofs.Result
import SecretSweep.Proofs.Text.Lines

/-!
The account that a mailer keeps of the leaks it is offered: as sent or as failed, whatever goes
wrong on the way to the mail server. It keeps the account just as long as the leaks can be put into
mails; a leak that cannot is on neither side.
-/

namespace SecretSweep

/-- A leak that a mailer is offered, and how the server takes its delivery. -/
structure Offer where
  leak : Leak
  server : MailServer

/-- Whether a server fails in no other way than mail servers and networks do. -/
def FailsAsMail (server : MailServer) : Prop :=
  ∀ stage failure, server stage = some failure → failure.kind.isMailTrouble

namespace Mail

/-- Whether a leak can be put into a mail: its subject takes one line, which may have a line end,
sender and recipient can be read as addresses, and the number of its line can be written. -/
structure CanCompose (l : Leak) (sender recipient : String) : Prop where
  subject : Text.TakesOneLine (subjectOf l).toList
  sender : (addressHeader sender).isOk
  recipient : (addressHeader recipient).isOk
  line : Text.isWritable l.line

theorem header_isOk_iff (s : String) : (header s).isOk ↔ Text.TakesOneLine s.toList := by
  rw [← Text.length_splitLines_le_one_iff, header, isOk_bind_pure, oneLine]
  split_ifs with h <;> simp [h]

theorem bodyOf_isOk_iff (l : Leak) : (bodyOf l).isOk ↔ Text.isWritable l.line := by
  rw [bodyOf, isOk_bind_pure, location]
  split_ifs with hzero hwritable
  · simp [hzero, show Text.isWritable 0 by decide +kernel]
  · simp [hwritable]
  · simp [hwritable]

theorem compose_isOk_iff {l : Leak} {sender recipient : String} :
    (compose l sender recipient).isOk ↔ CanCompose l sender recipient := by
  have hparts : (compose l sender recipient).isOk ↔ (header (subjectOf l)).isOk ∧
      (addressHeader sender).isOk ∧ (addressHeader recipient).isOk ∧ (bodyOf l).isOk := by
    unfold compose
    cases header (subjectOf l) <;> cases addressHeader sender <;>
      cases addressHeader recipient <;> cases bodyOf l <;> simp
  rw [hparts, header_isOk_iff, bodyOf_isOk_iff]
  exact ⟨fun ⟨hsubject, hsender, hrecipient, hline⟩ => ⟨hsubject, hsender, hrecipient, hline⟩,
    fun h => ⟨h.subject, h.sender, h.recipient, h.line⟩⟩

end Mail

namespace Mailer

/-- The stages that a delivery goes through. -/
def stages (s : MailSettings) : List MailStage :=
  .connect :: (if s.tls then [.startTls] else []) ++
    (if s.username.isEmpty then [] else [.login]) ++ [.send, .close]

/-- Whether a mail is sent and the connection closed without a failure. -/
def goesThrough (s : MailSettings) (server : MailServer) : Bool :=
  (stages s).all fun stage => (server stage).isNone

/-- Whether an offer is put on the account: on one side of it, and without a failure. -/
structure Counts (now : Mailer) (o : Offer) : Prop where
  returns : (now.send o.server o.leak).2 = .ok ()
  sent : (now.send o.server o.leak).1.sent =
    now.sent + if goesThrough now.settings o.server then 1 else 0
  failed : (now.send o.server o.leak).1.failed =
    now.failed + if goesThrough now.settings o.server then 0 else 1

/-- What a mailer comes to by offers. -/
def offerAll (m : Mailer) (offers : List Offer) : Mailer :=
  offers.foldl (fun now o => (now.send o.server o.leak).1) m

/-- Whether a mailer counts each of the offers, so that the numbers of the account make up the
number of the offers at all times. -/
structure KeepsAccount (m : Mailer) (offers : List Offer) : Prop where
  counts : ∀ before o after, offers = before ++ o :: after → (m.offerAll before).Counts o
  total : ∀ before after, offers = before ++ after →
    (m.offerAll before).sent + (m.offerAll before).failed = m.sent + m.failed + before.length

section Delivery

variable {s : MailSettings} {server : MailServer} {mail : Mail}

theorem converse_none_iff (l : List MailEvent) :
    (converse server l).2 = none ↔ ∀ e ∈ l, server e.stage = none := by
  induction l with
  | nil => simp [converse]
  | cons e rest ih =>
    unfold converse
    cases h : server e.stage with
    | none => simp [h, ih]
    | some failure => simp [h]

theorem exists_of_converse {l : List MailEvent} {failure : Failure}
    (h : (converse server l).2 = some failure) : ∃ e ∈ l, server e.stage = some failure := by
  induction l with
  | nil => simp [converse] at h
  | cons e rest ih =>
    unfold converse at h
    cases hstage : server e.stage with
    | none =>
      rw [hstage] at h
      obtain ⟨later, hmem, hlater⟩ := ih h
      exact ⟨later, List.mem_cons_of_mem _ hmem, hlater⟩
    | some other =>
      rw [hstage] at h
      exact ⟨e, List.mem_cons_self .., by rw [hstage]; exact h⟩

theorem stages_eq (s : MailSettings) (mail : Mail) :
    stages s = .connect :: (conversation s mail).map (·.stage) ++ [.close] := by
  unfold stages conversation
  split_ifs <;> rfl

theorem deliver_none_iff : (deliver s server mail).2 = none ↔ goesThrough s server := by
  have hall : goesThrough s server ↔ server .connect = none ∧
      (converse server (conversation s mail)).2 = none ∧ server .close = none := by
    rw [goesThrough, stages_eq s mail, converse_none_iff]
    simp
  rw [hall, deliver]
  cases hconnect : server .connect with
  | some failure => simp
  | none => simp [and_comm]

theorem exists_of_deliver {failure : Failure} (h : (deliver s server mail).2 = some failure) :
    ∃ stage, server stage = some failure := by
  unfold deliver at h
  cases hconnect : server .connect with
  | some other =>
    rw [hconnect] at h
    exact ⟨.connect, hconnect.trans h⟩
  | none =>
    rw [hconnect] at h
    rcases Option.or_eq_some_iff.mp h with hclose | ⟨-, hconverse⟩
    · exact ⟨.close, hclose⟩
    · obtain ⟨e, -, he⟩ := exists_of_converse hconverse
      exact ⟨e.stage, he⟩

end Delivery

section Send

variable {m : Mailer} {o : Offer} {mail : Mail}

theorem send_of_goesThrough
    (hmail : Mail.compose o.leak m.settings.sender m.recipient = .ok mail)
    (h : goesThrough m.settings o.server) : m.send o.server o.leak =
      ({ m with
        events := m.events ++ (deliver m.settings o.server mail).1
        sent := m.sent + 1 }, .ok ()) := by
  simp [send, hmail, deliver_none_iff.mpr h]

theorem send_of_not_goesThrough (hserver : FailsAsMail o.server)
    (hmail : Mail.compose o.leak m.settings.sender m.recipient = .ok mail)
    (h : ¬ goesThrough m.settings o.server) : m.send o.server o.leak =
      ({ m with
        events := m.events ++ (deliver m.settings o.server mail).1
        failed := m.failed + 1 }, .ok ()) := by
  have hne : (deliver m.settings o.server mail).2 ≠ none := mt deliver_none_iff.mp h
  obtain ⟨failure, hfailure⟩ := Option.ne_none_iff_exists'.mp hne
  obtain ⟨stage, hstage⟩ := exists_of_deliver hfailure
  simp [send, hmail, hfailure, hserver stage failure hstage]

theorem send_of_not_canCompose (h : ¬ Mail.CanCompose o.leak m.settings.sender m.recipient) :
    ∃ failure, m.send o.server o.leak = (m, .error failure) := by
  rw [← Mail.compose_isOk_iff] at h
  cases hmail : Mail.compose o.leak m.settings.sender m.recipient with
  | ok mail => simp [hmail] at h
  | error fault => exact ⟨fault.toFailure, by simp [send, hmail]⟩

theorem counts_iff (hserver : FailsAsMail o.server) :
    m.Counts o ↔ Mail.CanCompose o.leak m.settings.sender m.recipient := by
  constructor
  · intro h
    by_contra hnot
    obtain ⟨failure, hsend⟩ := send_of_not_canCompose hnot
    have hreturns := h.returns
    rw [hsend] at hreturns
    cases hreturns
  · intro h
    obtain ⟨mail, hmail⟩ := isOk_iff.mp (Mail.compose_isOk_iff.mpr h)
    by_cases hthrough : goesThrough m.settings o.server
    · have hsend := send_of_goesThrough hmail hthrough
      exact ⟨by rw [hsend], by simp [hsend, hthrough], by simp [hsend, hthrough]⟩
    · have hsend := send_of_not_goesThrough hserver hmail hthrough
      exact ⟨by rw [hsend], by simp [hsend, hthrough], by simp [hsend, hthrough]⟩

/-- Whatever comes of a leak, the mailer keeps its settings. -/
theorem settings_send (m : Mailer) (o : Offer) :
    (m.send o.server o.leak).1.settings = m.settings ∧
      (m.send o.server o.leak).1.recipient = m.recipient := by
  unfold send
  split
  · exact ⟨rfl, rfl⟩
  · dsimp only
    split
    · exact ⟨rfl, rfl⟩
    · split_ifs <;> exact ⟨rfl, rfl⟩

theorem offerAll_concat (m : Mailer) (offers : List Offer) (o : Offer) :
    m.offerAll (offers ++ [o]) = ((m.offerAll offers).send o.server o.leak).1 := by
  rw [offerAll, List.foldl_append]
  rfl

theorem settings_offerAll (m : Mailer) (offers : List Offer) :
    (m.offerAll offers).settings = m.settings ∧ (m.offerAll offers).recipient = m.recipient := by
  induction offers using List.reverseRecOn with
  | nil => exact ⟨rfl, rfl⟩
  | append_singleton offers o ih =>
    rw [offerAll_concat, (settings_send _ o).1, (settings_send _ o).2]
    exact ih

theorem Counts.total {now : Mailer} (h : now.Counts o) :
    (now.send o.server o.leak).1.sent + (now.send o.server o.leak).1.failed =
      now.sent + now.failed + 1 := by
  rw [h.sent, h.failed]
  split_ifs <;> omega

end Send

/-- If each offer is counted when it comes, the numbers of the account make up that of the offers.
-/
theorem total_offerAll {m : Mailer} {offers : List Offer}
    (h : ∀ before o after, offers = before ++ o :: after → (m.offerAll before).Counts o)
    (before after : List Offer) (hoffers : offers = before ++ after) :
    (m.offerAll before).sent + (m.offerAll before).failed = m.sent + m.failed + before.length := by
  induction before using List.reverseRecOn generalizing after with
  | nil => rfl
  | append_singleton before o ih =>
    rw [List.append_assoc, List.singleton_append] at hoffers
    have hcounts := h before o after hoffers
    rw [offerAll_concat, hcounts.total, ih (o :: after) hoffers, List.length_append,
      List.length_singleton, Nat.add_assoc]

def auditMail : MailSettings :=
  { enabled := true, host := "smtp.example.com", port := 587, username := "bot", password := "pw"
    tls := true, sender := "leakwatch", recipient := "audit" }

def keyLeak (name : String) : Leak :=
  ⟨name, "K", "f", "r", "u", "KEY", "c", "Ann", "ann@x", ⟨1500, 0, none⟩, 1, idText 1⟩

/-- A server that fails at one stage. -/
def failingAt (stage : MailStage) (kind : FailureKind) : MailServer :=
  fun other => if other = stage then some ⟨kind, "x"⟩ else none

theorem failsAsMail_failingAt (stage : MailStage) {kind : FailureKind} (h : kind.isMailTrouble) :
    FailsAsMail (failingAt stage kind) := by
  intro other failure hfailure
  unfold failingAt at hfailure
  split_ifs at hfailure
  rw [← Option.some.inj hfailure]
  exact h

/-- Three leaks, of which the first is refused by the server and the last is sent on a connection
that breaks before it is closed. -/
def flakyOffers : List Offer :=
  [⟨keyLeak "key", failingAt .login (.mail "SMTPAuthenticationError")⟩, ⟨keyLeak "key", calm⟩,
   ⟨keyLeak "token", failingAt .close .system⟩]

end Mailer

end SecretSweep
