import ApiContract.Message

/-!
# Results with what was said on the way

A `Trace` is the outcome of a computation together with the messages up to it, whether it succeeded
or failed. Steps are put together with `>>=`: a failure ends the run and keeps what was said.

Main facts: the `simp` lemmas that give the outcome of every way to build a trace, `bind_eq_ok` (a
sequence succeeds when its steps do) and `bind_eq_error` (it fails as its first step that does),
which also hold of outcomes alone.
-/

namespace Except

variable {ε α β : Type}

theorem bind_eq_ok {x : Except ε α} {f : α → Except ε β} {b : β} :
    (x >>= f) = .ok b ↔ ∃ a, x = .ok a ∧ f a = .ok b := by
  cases x with
  | error e => exact iff_of_false nofun nofun
  | ok a => exact ⟨fun h => ⟨a, rfl, h⟩, fun ⟨_, ha, h⟩ => by cases ha; exact h⟩

theorem bind_eq_error {x : Except ε α} {f : α → Except ε β} {e : ε} :
    (x >>= f) = .error e ↔ x = .error e ∨ ∃ a, x = .ok a ∧ f a = .error e := by
  cases x with
  | error _ => exact ⟨fun h => .inl (by cases h; rfl), fun h => h.elim (by rintro ⟨⟩; rfl) nofun⟩
  | ok a => exact ⟨fun h => .inr ⟨a, rfl, h⟩, fun h => h.elim nofun fun ⟨_, ha, h⟩ => by
      cases ha; exact h⟩

end Except

namespace ApiContract

/-- An outcome and the messages up to it. -/
structure Trace (ε α : Type) where
  messages : List Message
  outcome : Except ε α

namespace Trace

variable {ε α β : Type}

/-- A step after another; it is not taken if the first one failed. -/
def andThen (x : Trace ε α) (f : α → Trace ε β) : Trace ε β :=
  match x.outcome with
  | .error e => ⟨x.messages, .error e⟩
  | .ok a => ⟨x.messages ++ (f a).messages, (f a).outcome⟩

instance : Monad (Trace ε) where
  pure a := ⟨[], .ok a⟩
  bind := andThen

/-- An outcome by itself. -/
def ofExcept (x : Except ε α) : Trace ε α := ⟨[], x⟩

/-- A failure. -/
def fail (e : ε) : Trace ε α := ⟨[], .error e⟩

/-- One message. -/
def say (m : Message) : Trace ε Unit := ⟨[m], .ok ()⟩

/-- A report to the user. -/
def report (channel : Channel) (text : String) : Trace ε Unit := say (.report channel text)

/-- A line of a log. -/
def note (topic : Topic) (text : String) : Trace ε Unit := say (.note topic text)

/-- The trace with its failure, if it has one, seen as another. -/
def mapError {δ : Type} (f : ε → δ) (x : Trace ε α) : Trace δ α :=
  ⟨x.messages, x.outcome.mapError f⟩

@[simp] theorem outcome_pure (a : α) : (pure a : Trace ε α).outcome = .ok a := rfl

@[simp] theorem messages_pure (a : α) : (pure a : Trace ε α).messages = [] := rfl

@[simp] theorem outcome_bind (x : Trace ε α) (f : α → Trace ε β) :
    (x >>= f).outcome = x.outcome.bind fun a => (f a).outcome := by
  show (andThen x f).outcome = _
  cases h : x.outcome <;> simp [andThen, h, Except.bind]

@[simp] theorem outcome_ofExcept (x : Except ε α) : (ofExcept x).outcome = x := rfl

@[simp] theorem outcome_fail (e : ε) : (fail e : Trace ε α).outcome = .error e := rfl

@[simp] theorem outcome_say (m : Message) : (say m : Trace ε Unit).outcome = .ok () := rfl

@[simp] theorem outcome_report (c : Channel) (s : String) :
    (report c s : Trace ε Unit).outcome = .ok () := rfl

@[simp] theorem outcome_note (t : Topic) (s : String) :
    (note t s : Trace ε Unit).outcome = .ok () := rfl

@[simp] theorem outcome_mapError {δ : Type} (f : ε → δ) (x : Trace ε α) :
    (x.mapError f).outcome = x.outcome.mapError f := rfl

theorem bind_eq_ok {x : Trace ε α} {f : α → Trace ε β} {b : β} :
    (x >>= f).outcome = .ok b ↔ ∃ a, x.outcome = .ok a ∧ (f a).outcome = .ok b := by
  rw [outcome_bind]
  exact Except.bind_eq_ok

theorem bind_eq_error {x : Trace ε α} {f : α → Trace ε β} {e : ε} :
    (x >>= f).outcome = .error e ↔
      x.outcome = .error e ∨ ∃ a, x.outcome = .ok a ∧ (f a).outcome = .error e := by
  rw [outcome_bind]
  exact Except.bind_eq_error

theorem map_eq_ok {f : α → β} {x : Trace ε α} {b : β} :
    (f <$> x).outcome = .ok b ↔ ∃ a, x.outcome = .ok a ∧ f a = b := by
  show (x >>= fun a => pure (f a)).outcome = .ok b ↔ _
  rw [bind_eq_ok]
  simp only [outcome_pure, Except.ok.injEq]

theorem map_eq_error {f : α → β} {x : Trace ε α} {e : ε} :
    (f <$> x).outcome = .error e ↔ x.outcome = .error e := by
  show (x >>= fun a => pure (f a)).outcome = .error e ↔ _
  simp only [bind_eq_error, outcome_pure, reduceCtorEq, and_false, exists_false, or_false]

instance : LawfulMonad (Trace ε) :=
  LawfulMonad.mk' (Trace ε)
    (fun x => by
      show andThen x pure = x
      cases x with
      | mk messages outcome => cases outcome <;> simp [andThen])
    (fun a f => by
      show andThen (pure a) f = f a
      simp [andThen])
    (fun x f g => by
      show andThen (andThen x f) g = andThen x fun a => andThen (f a) g
      cases x with
      | mk messages outcome =>
        cases outcome with
        | error e => rfl
        | ok a =>
          simp only [andThen]
          split <;> simp)

/-- What a run over a list gives, each element of it gives. -/
theorem exists_of_mem_mapM {f : α → Trace ε β} {as : List α} {bs : List β}
    (h : (as.mapM f).outcome = .ok bs) : ∀ b ∈ bs, ∃ a ∈ as, (f a).outcome = .ok b := by
  induction as generalizing bs with
  | nil =>
    cases h
    exact List.forall_mem_nil _
  | cons a as ih =>
    rw [List.mapM_cons, bind_eq_ok] at h
    obtain ⟨first, hfirst, h⟩ := h
    obtain ⟨others, hothers, h⟩ := bind_eq_ok.1 h
    cases h
    refine List.forall_mem_cons.2 ⟨⟨a, List.mem_cons_self, hfirst⟩, fun b hb => ?_⟩
    obtain ⟨c, hc, hfc⟩ := ih hothers b hb
    exact ⟨c, List.mem_cons_of_mem a hc, hfc⟩

/-- A run over a list succeeds only if each element does. -/
theorem exists_ok_of_mapM {f : α → Trace ε β} {as : List α} {bs : List β}
    (h : (as.mapM f).outcome = .ok bs) : ∀ a ∈ as, ∃ b, (f a).outcome = .ok b := by
  induction as generalizing bs with
  | nil => exact List.forall_mem_nil _
  | cons a as ih =>
    rw [List.mapM_cons, bind_eq_ok] at h
    obtain ⟨first, hfirst, h⟩ := h
    obtain ⟨others, hothers, -⟩ := bind_eq_ok.1 h
    exact List.forall_mem_cons.2 ⟨⟨first, hfirst⟩, ih hothers⟩

/-- A run over a list fails as one of its elements does. -/
theorem exists_error_of_mapM {f : α → Trace ε β} {as : List α} {e : ε}
    (h : (as.mapM f).outcome = .error e) : ∃ a ∈ as, (f a).outcome = .error e := by
  induction as with
  | nil => cases h
  | cons a as ih =>
    rw [List.mapM_cons, bind_eq_error] at h
    obtain h | ⟨_, -, h⟩ := h
    · exact ⟨a, List.mem_cons_self, h⟩
    · obtain h | ⟨_, -, h⟩ := bind_eq_error.1 h
      · obtain ⟨b, hb, h⟩ := ih h
        exact ⟨b, List.mem_cons_of_mem a hb, h⟩
      · cases h

theorem ofExcept_mapError_eq_ok {δ : Type} {f : ε → δ} {x : Except ε α} {a : α} :
    (ofExcept (x.mapError f)).outcome = .ok a ↔ x = .ok a := by
  cases x with
  | error e => exact iff_of_false nofun nofun
  | ok b =>
    show (Except.ok b : Except δ α) = .ok a ↔ _
    rw [Except.ok.injEq, Except.ok.injEq]

theorem mapError_eq_ok {δ : Type} {f : ε → δ} {x : Trace ε α} {a : α} :
    (x.mapError f).outcome = .ok a ↔ x.outcome = .ok a :=
  ofExcept_mapError_eq_ok

theorem ofExcept_mapError_eq_error {δ : Type} {f : ε → δ} {x : Except ε α} {e : δ} :
    (ofExcept (x.mapError f)).outcome = .error e ↔ ∃ reason, x = .error reason ∧ f reason = e := by
  rw [outcome_ofExcept]
  cases x with
  | error reason =>
    show Except.error (f reason) = (Except.error e : Except δ α) ↔ _
    simp
  | ok a =>
    show (Except.ok a : Except δ α) = .error e ↔ _
    simp

theorem mapError_eq_error {δ : Type} {f : ε → δ} {x : Trace ε α} {e : δ} :
    (x.mapError f).outcome = .error e ↔ ∃ reason, x.outcome = .error reason ∧ f reason = e :=
  ofExcept_mapError_eq_error

end Trace

/-- What is read off a success tells that there is one. -/
theorem exists_of_toOption_map {α β ε : Type} {x : Except ε α} {f : α → β} {b : β}
    (h : x.toOption.map f = some b) : ∃ a, x = .ok a ∧ f a = b := by
  cases x with
  | error e => cases h
  | ok a => exact ⟨a, rfl, Option.some.inj h⟩

end ApiContract
