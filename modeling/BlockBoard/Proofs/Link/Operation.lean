import BlockBoard.Link.Receiving
/-!
# Reasoning about operations

An operation runs from a state to an outcome and a state. This module says so for each way of putting
operations together, so that no proof has to look inside the monad.

- `Operation.outcome_bind`: what a sequence comes to.
- `Operation.eq_ok_of_bind`, `Operation.bind_cases`: what is known of the parts of a sequence.
- `Operation.Never`, `Operation.FailsOnly`: an operation never fails with an error, or with nothing but
  errors of some kind.
- `Operation.Relates`: **a relation between the states before and after, whatever the outcome**. It holds
  of a sequence if it is transitive and holds of the parts.
- `Transport.Steady`, `Connector.Stable`: a relation between the states of a link that reading keeps, or
  everything that can be asked of it.
-/

namespace BlockBoard

namespace Operation

variable {σ τ ε ε' α β : Type}

/-! ## Outcomes -/

@[simp] theorem outcome_pure (a : α) (s : σ) : (pure a : Operation σ ε α).outcome s = (.ok a, s) := rfl

@[simp] theorem outcome_throw (e : ε) (s : σ) :
    (throw e : Operation σ ε α).outcome s = (.error e, s) := rfl

@[simp] theorem outcome_of (f : σ → Except ε α × σ) (s : σ) : (of f).outcome s = f s := rfl

/-- The second part of a sequence runs only if the first succeeds. -/
theorem outcome_bind (x : Operation σ ε α) (f : α → Operation σ ε β) (s : σ) :
    (x >>= f).outcome s =
      match x.outcome s with
      | (.ok a, s') => (f a).outcome s'
      | (.error e, s') => (.error e, s') := by
  show (ExceptT.bindCont f (x s).1) (x s).2 = _
  unfold outcome
  rcases x s with ⟨r, s'⟩
  cases r <;> rfl

theorem bind_of_ok {x : Operation σ ε α} {f : α → Operation σ ε β} {s s' : σ} {a : α}
    (h : x.outcome s = (.ok a, s')) : (x >>= f).outcome s = (f a).outcome s' := by
  rw [outcome_bind, h]

theorem bind_of_error {x : Operation σ ε α} {f : α → Operation σ ε β} {s s' : σ} {e : ε}
    (h : x.outcome s = (.error e, s')) : (x >>= f).outcome s = (.error e, s') := by
  rw [outcome_bind, h]

/-- A sequence either fails in its first part, or its second part runs after the first. -/
theorem bind_cases {x : Operation σ ε α} {f : α → Operation σ ε β} {s s' : σ} {r : Except ε β}
    (h : (x >>= f).outcome s = (r, s')) :
    (∃ e, x.outcome s = (.error e, s') ∧ r = .error e) ∨
      ∃ a s₁, x.outcome s = (.ok a, s₁) ∧ (f a).outcome s₁ = (r, s') := by
  rw [outcome_bind] at h
  rcases hx : x.outcome s with ⟨rx, s₁⟩
  rw [hx] at h
  cases rx with
  | error e =>
    cases h
    exact .inl ⟨e, rfl, rfl⟩
  | ok a => exact .inr ⟨a, s₁, rfl, h⟩

/-- Both parts of a sequence that succeeds do. -/
theorem eq_ok_of_bind {x : Operation σ ε α} {f : α → Operation σ ε β} {s s' : σ} {b : β}
    (h : (x >>= f).outcome s = (.ok b, s')) :
    ∃ a s₁, x.outcome s = (.ok a, s₁) ∧ (f a).outcome s₁ = (.ok b, s') := by
  rcases bind_cases h with ⟨e, -, he⟩ | h
  · cases he
  · exact h

/-- A sequence that ends with a value made of the first part's. -/
theorem outcome_bind_pure (f : α → β) (x : Operation σ ε α) (s : σ) :
    (x >>= fun a => pure (f a)).outcome s = ((x.outcome s).1.map f, (x.outcome s).2) := by
  rw [outcome_bind]
  rcases x.outcome s with ⟨e | a, s'⟩ <;> rfl

theorem outcome_mapError (f : ε → ε') (x : Operation σ ε α) (s : σ) :
    (x.mapError f).outcome s = ((x.outcome s).1.mapError f, (x.outcome s).2) := by
  rcases h : x.outcome s with ⟨r, s'⟩
  unfold mapError
  rw [outcome, h]
  cases r <;> rfl

theorem mapError_of_ok {f : ε → ε'} {x : Operation σ ε α} {s s' : σ} {a : α}
    (h : x.outcome s = (.ok a, s')) : (x.mapError f).outcome s = (.ok a, s') := by
  rw [outcome_mapError, h]
  rfl

@[simp] theorem outcome_onPart (part : τ → σ) (withPart : τ → σ → τ) (x : Operation σ ε α) (t : τ) :
    (x.onPart part withPart).outcome t =
      ((x.outcome (part t)).1, withPart t (x.outcome (part t)).2) := rfl

/-! ## Errors that do not occur -/

/-- An operation never fails with an error. -/
def Never (e : ε) (x : Operation σ ε α) : Prop := ∀ s, (x.outcome s).1 ≠ .error e

theorem Never.ne {e : ε} {x : Operation σ ε α} (h : x.Never e) {s s' : σ} :
    x.outcome s ≠ (.error e, s') :=
  fun heq => h s (by rw [heq])

/-- A sequence does not fail with an error if its first part does not, and its second part does not
where the first leaves off. -/
theorem bind_ne_error {e : ε} {x : Operation σ ε α} {f : α → Operation σ ε β} {s : σ}
    (hx : (x.outcome s).1 ≠ .error e)
    (hf : ∀ a s', x.outcome s = (.ok a, s') → ((f a).outcome s').1 ≠ .error e) :
    ((x >>= f).outcome s).1 ≠ .error e := by
  intro h
  rcases bind_cases (Prod.ext h rfl) with ⟨e', he, heq⟩ | ⟨a, s', hfirst, hsecond⟩
  · cases heq
    exact hx (by rw [he])
  · exact hf a s' hfirst (by rw [hsecond])

theorem never_bind {e : ε} {x : Operation σ ε α} {f : α → Operation σ ε β} (hx : x.Never e)
    (hf : ∀ a, (f a).Never e) : (x >>= f).Never e :=
  fun s => bind_ne_error (hx s) fun a s' _ => hf a s'

/-- An error that renaming does not lead to. -/
theorem never_mapError {e : ε'} {f : ε → ε'} (h : ∀ e₀, f e₀ ≠ e) (x : Operation σ ε α) :
    (x.mapError f).Never e := by
  intro s
  rw [outcome_mapError]
  cases (x.outcome s).1 with
  | ok a => nofun
  | error e₀ =>
    intro heq
    exact h e₀ (Except.error.inj heq)

/-- Whatever an operation fails with is of some kind. -/
def FailsOnly (P : ε → Prop) (x : Operation σ ε α) : Prop := ∀ s e, (x.outcome s).1 = .error e → P e

theorem FailsOnly.never {P : ε → Prop} {x : Operation σ ε α} (h : x.FailsOnly P) {e : ε} (he : ¬ P e) :
    x.Never e :=
  fun s heq => he (h s e heq)

theorem failsOnly_bind {P : ε → Prop} {x : Operation σ ε α} {f : α → Operation σ ε β}
    (hx : x.FailsOnly P) (hf : ∀ a, (f a).FailsOnly P) : (x >>= f).FailsOnly P := by
  intro s e he
  have houtcome : (x >>= f).outcome s = (.error e, ((x >>= f).outcome s).2) := Prod.ext he rfl
  rcases bind_cases houtcome with ⟨e', hx', heq⟩ | ⟨a, s₁, -, hfa⟩
  · cases heq
    exact hx s e (by rw [hx'])
  · exact hf a s₁ e (by rw [hfa])

/-- Renaming leads to errors of some kind only. -/
theorem failsOnly_mapError {P : ε' → Prop} {f : ε → ε'} (h : ∀ e₀, P (f e₀)) (x : Operation σ ε α) :
    (x.mapError f).FailsOnly P := by
  intro s e
  rw [outcome_mapError]
  cases (x.outcome s).1 with
  | ok a => nofun
  | error e₀ =>
    intro heq
    cases heq
    exact h e₀

/-! ## Relations between the states before and after -/

/-- An operation relates the state before it to the one after it, whatever its outcome. -/
def Relates (R : σ → σ → Prop) (x : Operation σ ε α) : Prop := ∀ s, R s (x.outcome s).2

variable {R : σ → σ → Prop}

theorem relates_pure (hrefl : ∀ s, R s s) (a : α) : (pure a : Operation σ ε α).Relates R := hrefl

theorem relates_throw (hrefl : ∀ s, R s s) (e : ε) : (throw e : Operation σ ε α).Relates R := hrefl

theorem relates_bind (htrans : ∀ s s' s'', R s s' → R s' s'' → R s s'') {x : Operation σ ε α}
    {f : α → Operation σ ε β} (hx : x.Relates R) (hf : ∀ a, (f a).Relates R) : (x >>= f).Relates R := by
  intro s
  have hx := hx s
  rw [outcome_bind]
  rcases h : x.outcome s with ⟨r, s'⟩
  rw [h] at hx
  cases r with
  | error e => exact hx
  | ok a => exact htrans _ _ _ hx (hf a s')

theorem relates_mapError {f : ε → ε'} {x : Operation σ ε α} (h : x.Relates R) :
    (x.mapError f).Relates R := by
  intro s
  rw [outcome_mapError]
  exact h s

end Operation

/-! ## Links that are read -/

/-- A relation between an earlier and a later state of a link that any number of reads keeps. -/
structure Transport.Steady {σ : Type} [Transport σ] (R : σ → σ → Prop) : Prop where
  refl : ∀ s, R s s
  trans : ∀ s s' s'', R s s' → R s' s'' → R s s''
  read : ∀ n s, R s (Transport.read n s).2

/-- A relation between an earlier and a later state of a link that everything that can be asked of it
keeps. -/
structure Connector.Stable {σ : Type} [Connector σ] (R : σ → σ → Prop) : Prop
    extends Transport.Steady R where
  write : ∀ bs s, R s (Transport.write bs s).2
  setBaud : ∀ baud s, R s (Transport.setBaud baud s).2
  enterLoader : ∀ s, R s (Transport.enterLoader s).2
  hardReset : ∀ s, R s (Transport.hardReset s).2
  openLink : ∀ settings s, R s (Connector.openLink settings s).2

theorem Transport.Steady.of_read {σ : Type} [Transport σ] {R : σ → σ → Prop}
    (hR : Transport.Steady R) {n : Nat} {s s' : σ} {answer : Reading}
    (h : Transport.read n s = (answer, s')) : R s s' := by
  have hread := hR.read n s
  rwa [h] at hread

theorem relates_drainWithin {σ : Type} [Transport σ] {R : σ → σ → Prop} (hR : Transport.Steady R)
    (fuel total : Nat) (s : σ) : R s (drainWithin fuel total s).2 := by
  induction fuel generalizing total s with
  | zero => exact hR.refl s
  | succ fuel ih =>
    rw [drainWithin]
    rcases h : Transport.read answerChunk s with ⟨answer, s'⟩
    have hread := hR.of_read h
    cases answer with
    | silent => exact hread
    | failed e => exact hread
    | bytes bs =>
      cases bs with
      | nil => exact hread
      | cons b r => exact hR.trans _ _ _ hread (ih _ s')

/-- Forgetting what has arrived only reads. -/
theorem relates_drain {σ : Type} [Transport σ] {R : σ → σ → Prop} (hR : Transport.Steady R) :
    (drain : Operation σ LinkError Nat).Relates R :=
  fun s => relates_drainWithin hR _ 0 s

/-- Waiting for a pattern only reads. -/
theorem relates_readUntilWithin {σ : Type} [Transport σ] {R : σ → σ → Prop} (hR : Transport.Steady R)
    (pattern : List UInt8) (timeout fuel : Nat) (received : List UInt8) (s : σ) :
    R s (readUntilWithin pattern timeout fuel received s).2 := by
  induction fuel generalizing received s with
  | zero => exact hR.refl s
  | succ fuel ih =>
    rw [readUntilWithin]
    split
    · exact hR.refl s
    · rcases h : Transport.read answerChunk s with ⟨answer, s'⟩
      have hread := hR.of_read h
      cases answer with
      | silent => exact hread
      | failed e => exact hread
      | bytes bs =>
        cases bs with
        | nil => exact hread
        | cons b r => exact hR.trans _ _ _ hread (ih _ s')

theorem relates_readUntil {σ : Type} [Transport σ] {R : σ → σ → Prop} (hR : Transport.Steady R)
    (pattern : List UInt8) (timeout : Nat) :
    (readUntil pattern timeout : Operation σ LinkError (List UInt8)).Relates R :=
  fun s => relates_readUntilWithin hR pattern timeout _ [] s

/-- Whoever has received a pattern does not read on. -/
theorem readMoreUntil_of_contains {σ : Type} [Transport σ] {received pattern : List UInt8}
    (h : containsBytes received pattern = true) (timeout : Nat) (s : σ) :
    (readMoreUntil received pattern timeout).outcome s = (.ok received, s) := by
  show readUntilWithin pattern timeout (Transport.backlog s + 1) received s = _
  rw [readUntilWithin, if_pos h]

end BlockBoard
