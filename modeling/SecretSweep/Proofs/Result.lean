/-!
Results of operations that may fail: whether there is one, and what it is.
-/

namespace SecretSweep

variable {ε α β : Type}

@[simp] theorem isOk_ok (a : α) : (Except.ok a : Except ε α).isOk = true := rfl

@[simp] theorem isOk_pure (a : α) : (pure a : Except ε α).isOk = true := rfl

@[simp] theorem isOk_error (e : ε) : (Except.error e : Except ε α).isOk = false := rfl

@[simp] theorem toOption_ok (a : α) : (Except.ok a : Except ε α).toOption = some a := rfl

@[simp] theorem toOption_error (e : ε) : (Except.error e : Except ε α).toOption = none := rfl

@[simp] theorem ok_bind (a : α) (f : α → Except ε β) : (Except.ok a >>= f) = f a := rfl

@[simp] theorem error_bind (e : ε) (f : α → Except ε β) :
    (Except.error e >>= f) = .error e := rfl

@[simp] theorem mapError_ok {ε' : Type} (f : ε → ε') (a : α) :
    (Except.ok a).mapError f = .ok a := rfl

@[simp] theorem mapError_error {ε' : Type} (f : ε → ε') (e : ε) :
    (Except.error e : Except ε α).mapError f = .error (f e) := rfl

theorem mapError_eq_ok_iff {ε' : Type} {f : ε → ε'} {e : Except ε α} {a : α} :
    e.mapError f = .ok a ↔ e = .ok a := by
  cases e <;> simp

@[simp] theorem isOk_bind_pure (e : Except ε α) (f : α → β) :
    (e >>= fun a => pure (f a)).isOk = e.isOk := by
  cases e <;> rfl

theorem eq_ok_of_bind {e : Except ε α} {f : α → Except ε β} {b : β} (h : e >>= f = .ok b) :
    ∃ a, e = .ok a ∧ f a = .ok b := by
  cases e with
  | error fault => cases h
  | ok a => exact ⟨a, rfl, h⟩

theorem isOk_iff {e : Except ε α} : e.isOk ↔ ∃ a, e = .ok a := by
  cases e <;> simp

@[simp] theorem isOk_map (e : Except ε α) (f : α → β) : (f <$> e).isOk = e.isOk := by
  cases e <;> rfl

@[simp] theorem isOk_mapError {ε' : Type} (e : Except ε α) (f : ε → ε') :
    (e.mapError f).isOk = e.isOk := by
  cases e <;> rfl

theorem exists_of_map_toOption {e : Except ε α} {f : α → β} {b : β}
    (h : e.toOption.map f = some b) : ∃ a, e = .ok a ∧ f a = b := by
  cases e with
  | error fault => simp at h
  | ok a => exact ⟨a, rfl, by simpa using h⟩

theorem eq_ok_getD {e : Except ε α} (h : e.isOk) (default : α) :
    e = .ok (e.toOption.getD default) := by
  cases e with
  | error fault => cases h
  | ok a => rfl

theorem isOk_bind {e : Except ε α} {f : α → Except ε β} :
    (e >>= f).isOk ↔ ∃ a, e = .ok a ∧ (f a).isOk := by
  cases e <;> simp

theorem isOk_mapM {f : α → Except ε β} {l : List α} : (l.mapM f).isOk ↔ ∀ a ∈ l, (f a).isOk := by
  induction l with
  | nil => exact iff_of_true rfl (by simp)
  | cons x l ih =>
    rw [List.mapM_cons, List.forall_mem_cons, ← ih]
    cases f x <;> simp

theorem mem_mapM_iff {f : α → Except ε β} {l : List α} {r : List β} (h : l.mapM f = .ok r)
    {b : β} : b ∈ r ↔ ∃ a ∈ l, f a = .ok b := by
  induction l generalizing r with
  | nil =>
    obtain rfl := Except.ok.inj h
    simp
  | cons a l ih =>
    rw [List.mapM_cons] at h
    obtain ⟨b', hb', h⟩ := eq_ok_of_bind h
    obtain ⟨r', hr', h⟩ := eq_ok_of_bind h
    obtain rfl := Except.ok.inj h
    simp [hb', ih hr', eq_comm]

theorem exists_of_mem_mapM {f : α → Except ε β} {l : List α} {r : List β} (h : l.mapM f = .ok r)
    {b : β} (hb : b ∈ r) : ∃ a ∈ l, f a = .ok b :=
  (mem_mapM_iff h).mp hb

theorem mapM_append_eq_ok_iff {f : α → Except ε β} {l l' : List α} {r : List β} :
    (l ++ l').mapM f = .ok r ↔
      ∃ s t, l.mapM f = .ok s ∧ l'.mapM f = .ok t ∧ r = s ++ t := by
  rw [List.mapM_append]
  cases l.mapM f with
  | error fault => simp
  | ok s => cases l'.mapM f <;> simp [pure, Except.pure, eq_comm]

/-- Items that are gone through in another order give the same results in another order. -/
theorem exists_mapM_of_perm {f : α → Except ε β} {l l' : List α} (hperm : l.Perm l') {r : List β}
    (h : l.mapM f = .ok r) : ∃ r', l'.mapM f = .ok r' ∧ r'.Perm r := by
  induction hperm generalizing r with
  | nil => exact ⟨r, h, .refl r⟩
  | cons a _ ih =>
    rw [List.mapM_cons] at h
    obtain ⟨b, hb, h⟩ := eq_ok_of_bind h
    obtain ⟨s, hs, h⟩ := eq_ok_of_bind h
    obtain rfl := Except.ok.inj h
    obtain ⟨s', hs', hsame⟩ := ih hs
    refine ⟨b :: s', ?_, hsame.cons b⟩
    rw [List.mapM_cons, hb, hs']
    rfl
  | swap x y l =>
    rw [List.mapM_cons, List.mapM_cons] at h
    obtain ⟨c, hc, h⟩ := eq_ok_of_bind h
    obtain ⟨tail, htail, h⟩ := eq_ok_of_bind h
    obtain ⟨b, hb, htail⟩ := eq_ok_of_bind htail
    obtain ⟨s, hs, htail⟩ := eq_ok_of_bind htail
    obtain rfl := Except.ok.inj htail
    obtain rfl := Except.ok.inj h
    refine ⟨b :: c :: s, ?_, .swap c b s⟩
    rw [List.mapM_cons, List.mapM_cons, hb, hc, hs]
    rfl
  | trans _ _ ih ih' =>
    obtain ⟨s, hs, hsame⟩ := ih h
    obtain ⟨r', hr', hsame'⟩ := ih' hs
    exact ⟨r', hr', hsame'.trans hsame⟩

/-- Whether there is no result, and the reason has a property. -/
def FailsWith (p : ε → Prop) (e : Except ε α) : Prop := ∃ fault, e = .error fault ∧ p fault

section FailsWith

variable {p : ε → Prop}

@[simp] theorem not_failsWith_ok (a : α) : ¬ FailsWith p (.ok a) := by
  rintro ⟨fault, h, -⟩
  cases h

@[simp] theorem not_failsWith_pure (a : α) : ¬ FailsWith p (pure a : Except ε α) :=
  not_failsWith_ok a

@[simp] theorem failsWith_error {fault : ε} :
    FailsWith p (.error fault : Except ε α) ↔ p fault :=
  ⟨fun ⟨_, h, hp⟩ => by cases h; exact hp, fun hp => ⟨fault, rfl, hp⟩⟩

instance [DecidablePred p] (e : Except ε α) : Decidable (FailsWith p e) :=
  match e with
  | .error _ => decidable_of_iff _ failsWith_error.symm
  | .ok a => .isFalse (not_failsWith_ok a)

theorem failsWith_bind {e : Except ε α} {f : α → Except ε β} :
    FailsWith p (e >>= f) ↔ FailsWith p e ∨ ∃ a, e = .ok a ∧ FailsWith p (f a) := by
  cases e <;> simp

@[simp] theorem failsWith_map {e : Except ε α} {f : α → β} :
    FailsWith p (f <$> e) ↔ FailsWith p e := by
  cases e with
  | error fault => exact failsWith_error.trans failsWith_error.symm
  | ok a => exact iff_of_false (not_failsWith_ok (f a)) (not_failsWith_ok a)

theorem failsWith_mapError {ε' : Type} {p : ε' → Prop} {e : Except ε α} {g : ε → ε'} :
    FailsWith p (e.mapError g) ↔ FailsWith (fun fault => p (g fault)) e := by
  cases e <;> simp

/-- Of a list that is gone through in order, the first item without a result counts. -/
theorem failsWith_mapM {f : α → Except ε β} {l : List α} :
    FailsWith p (l.mapM f) ↔ ∃ before a after, l = before ++ a :: after ∧
      (∀ b ∈ before, (f b).isOk) ∧ FailsWith p (f a) := by
  induction l with
  | nil => exact iff_of_false (not_failsWith_ok []) (by simp)
  | cons x l ih =>
    rw [List.mapM_cons, failsWith_bind]
    constructor
    · rintro (h | ⟨y, hy, h⟩)
      · exact ⟨[], x, l, rfl, nofun, h⟩
      · rw [failsWith_bind, ih] at h
        obtain ⟨before, a, after, rfl, hbefore, ha⟩ | ⟨_, -, h⟩ := h
        · refine ⟨x :: before, a, after, rfl, ?_, ha⟩
          rintro b (_ | ⟨_, hb⟩)
          · exact isOk_iff.mpr ⟨y, hy⟩
          · exact hbefore b hb
        · exact absurd h (not_failsWith_ok _)
    · rintro ⟨_ | ⟨b, before⟩, a, after, hl, hbefore, ha⟩
      · obtain ⟨rfl, rfl⟩ := List.cons.inj hl
        exact .inl ha
      · obtain ⟨rfl, rfl⟩ := List.cons.inj hl
        obtain ⟨y, hy⟩ := isOk_iff.mp (hbefore x (List.mem_cons_self ..))
        refine .inr ⟨y, hy, failsWith_bind.mpr (.inl (ih.mpr ⟨before, a, after, rfl, ?_, ha⟩))⟩
        exact fun b hb => hbefore b (List.mem_cons_of_mem _ hb)

end FailsWith

/-- Whether a reason for there being no result can only be one that has a property. -/
def FailsOnlyWith (p : ε → Prop) (e : Except ε α) : Prop := ∀ fault, e = .error fault → p fault

section FailsOnlyWith

variable {p : ε → Prop} {e : Except ε α}

theorem FailsOnlyWith.failsWith_iff (h : FailsOnlyWith p e) : FailsWith p e ↔ ¬ e.isOk := by
  cases e with
  | error fault => exact iff_of_true ⟨fault, rfl, h fault rfl⟩ nofun
  | ok a => exact iff_of_false (not_failsWith_ok a) (not_not_intro rfl)

theorem failsOnlyWith_ok (a : α) : FailsOnlyWith p (.ok a) := nofun

theorem failsOnlyWith_mapError {ε' : Type} {e : Except ε' α} {g : ε' → ε}
    (h : ∀ fault, p (g fault)) : FailsOnlyWith p (e.mapError g) := by
  cases e with
  | error fault => exact fun _ hf => Except.error.inj hf ▸ h fault
  | ok a => exact failsOnlyWith_ok a

theorem FailsOnlyWith.bind {f : α → Except ε β} (he : FailsOnlyWith p e)
    (hf : ∀ a, FailsOnlyWith p (f a)) : FailsOnlyWith p (e >>= f) := by
  cases e with
  | error fault => exact fun _ h => Except.error.inj h ▸ he fault rfl
  | ok a => exact hf a

theorem FailsOnlyWith.map (he : FailsOnlyWith p e) (f : α → β) : FailsOnlyWith p (f <$> e) := by
  cases e with
  | error fault => exact fun _ h => Except.error.inj h ▸ he fault rfl
  | ok a => exact failsOnlyWith_ok (f a)

theorem FailsOnlyWith.mapM {f : α → Except ε β} (hf : ∀ a, FailsOnlyWith p (f a)) (l : List α) :
    FailsOnlyWith p (l.mapM f) := by
  induction l with
  | nil => exact failsOnlyWith_ok []
  | cons a l ih =>
    rw [List.mapM_cons]
    exact (hf a).bind fun _ => ih.bind fun _ => failsOnlyWith_ok _

end FailsOnlyWith

end SecretSweep
