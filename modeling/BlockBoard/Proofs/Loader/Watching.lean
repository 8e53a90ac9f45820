import BlockBoard.Proofs.Loader.Calls
/-!
# Watching a flash

Writing down what is asked of a link changes nothing. A flash over a link that is being watched goes
as it would over the link by itself, so that what is said about the calls of a recorded link is said
about every link.

- `Operation.Mirrors`: one operation does to what is behind a state what another does to the state.
- `Flash.mirrors_takeAll`: the steps of a flash.
- `flash_watched`: **a flash over a link that is being watched is the flash over the link behind it**, and
  `flash_recorded` over one that is recorded.
-/

namespace BlockBoard

namespace Operation

variable {σ τ ε ε' α β : Type} {behind : τ → σ}

/-- What one operation does to a state, another does to what is behind it, with the same outcome. -/
def Mirrors (behind : τ → σ) (x : Operation τ ε α) (y : Operation σ ε α) : Prop :=
  ∀ t, y.outcome (behind t) = ((x.outcome t).1, behind (x.outcome t).2)

theorem mirrors_pure (a : α) : Mirrors behind (pure a : Operation τ ε α) (pure a) := fun _ => rfl

theorem mirrors_throw (e : ε) : Mirrors behind (throw e : Operation τ ε α) (throw e) := fun _ => rfl

theorem mirrors_bind {x : Operation τ ε α} {y : Operation σ ε α} {f : α → Operation τ ε β}
    {g : α → Operation σ ε β} (hx : Mirrors behind x y) (hf : ∀ a, Mirrors behind (f a) (g a)) :
    Mirrors behind (x >>= f) (y >>= g) := by
  intro t
  rw [outcome_bind, outcome_bind, hx t]
  rcases x.outcome t with ⟨e | a, t'⟩
  · rfl
  · exact hf a t'

theorem mirrors_mapError {x : Operation τ ε α} {y : Operation σ ε α} (h : Mirrors behind x y)
    (f : ε → ε') : Mirrors behind (x.mapError f) (y.mapError f) := by
  intro t
  rw [outcome_mapError, outcome_mapError, h t]

theorem mirrors_ite {c : Prop} [Decidable c] {x x' : Operation τ ε α} {y y' : Operation σ ε α}
    (h : Mirrors behind x y) (h' : Mirrors behind x' y') :
    Mirrors behind (if c then x else x') (if c then y else y') := by
  split
  · exact h
  · exact h'

end Operation

open Operation

variable {σ τ : Type} {behind : τ → σ}

namespace Flash

/-- A run over the link behind the one that is being watched. -/
def Run.over (behind : τ → σ) (r : Run τ) : Run σ where
  link := behind r.link
  decoder := r.decoder
  frames := r.frames
  progress := r.progress
  notices := r.notices

theorem mirrors_onLink {α : Type} {x : Operation τ LinkError α} {y : Operation σ LinkError α}
    (h : Mirrors behind x y) : Mirrors (Run.over behind) (onLink x) (onLink y) := by
  intro r
  rw [outcome_onLink, outcome_onLink]
  show ((y.outcome (behind r.link)).1.mapError _, { r.over behind with
    link := (y.outcome (behind r.link)).2 }) = _
  rw [h r.link]
  rfl

end Flash

variable [Transport σ] [Transport τ]

/-! ## Reading -/

theorem Observes.drainWithin_eq (h : Observes behind) (fuel total : Nat) (t : τ) :
    drainWithin fuel total (behind t) =
      ((drainWithin fuel total t).1, behind (drainWithin fuel total t).2) := by
  induction fuel generalizing total t with
  | zero => rfl
  | succ fuel ih =>
    rw [drainWithin, drainWithin, h.read]
    rcases Transport.read answerChunk t with ⟨answer, t'⟩
    cases answer with
    | silent => rfl
    | failed e => rfl
    | bytes bs =>
      cases bs with
      | nil => rfl
      | cons b r => exact ih _ t'

theorem Observes.mirrors_drain (h : Observes behind) :
    Mirrors behind (drain : Operation τ LinkError Nat) drain := by
  intro t
  show drainWithin (Transport.backlog (behind t) + 1) 0 (behind t) = _
  rw [h.backlog, h.drainWithin_eq]
  rfl

namespace Flash

/-! ## Steps -/

theorem awaitWithin_over (h : Observes behind) (op : Loader.Op) (timeout fuel : Nat) (r : Run τ) :
    awaitWithin op timeout fuel (r.over behind) =
      ((awaitWithin op timeout fuel r).1, (awaitWithin op timeout fuel r).2.over behind) := by
  induction fuel generalizing r with
  | zero =>
    rw [awaitWithin, awaitWithin, show (r.over behind).frames = r.frames from rfl]
    cases findAnswer? op r.frames <;> rfl
  | succ fuel ih =>
    rw [awaitWithin, awaitWithin, show (r.over behind).frames = r.frames from rfl]
    cases findAnswer? op r.frames with
    | some answer => rfl
    | none =>
      dsimp only
      rw [show (r.over behind).link = behind r.link from rfl, h.read]
      rcases Transport.read loaderChunk r.link with ⟨answer, t⟩
      cases answer with
      | silent => rfl
      | failed e => rfl
      | bytes bs =>
        cases bs with
        | nil => rfl
        | cons b rest =>
          exact ih { r with
            link := t
            frames := (r.decoder.feed (b :: rest)).1
            decoder := (r.decoder.feed (b :: rest)).2 }

theorem Command.mirrors_perform (h : Observes behind) (c : Command) :
    Mirrors (Run.over behind) (c.perform : Operation (Run τ) SessionError Unit) c.perform := by
  refine mirrors_bind (mirrors_onLink (h.write _)) fun _ r => ?_
  show awaitWithin _ _ (Transport.backlog (behind r.link) + 1) (r.over behind) = _
  rw [h.backlog, awaitWithin_over h]
  rfl

theorem mirrors_forget (h : Observes behind) :
    Mirrors (Run.over behind) (forget : Operation (Run τ) SessionError Unit) forget :=
  mirrors_bind (mirrors_onLink h.mirrors_drain) fun _ _ => rfl

theorem syncWithin_over (h : Observes behind) (attempts left : Nat) (r : Run τ) :
    syncWithin attempts left (r.over behind) =
      ((syncWithin attempts left r).1, (syncWithin attempts left r).2.over behind) := by
  induction left generalizing r with
  | zero => rfl
  | succ left ih =>
    rw [syncWithin, syncWithin, syncCommand.mirrors_perform h r]
    rcases syncCommand.perform.outcome r with ⟨result, r'⟩
    -- an attempt is answered, or not in time, or fails for good
    cases result with
    | ok _ => exact mirrors_forget h r'
    | error e =>
      cases e with
      | link e =>
        cases e with
        | timeout ms => exact ih r'
        | _ => rfl
      | _ => rfl

/-- What a step asks of a link that is being watched it asks of the link behind it. -/
theorem Action.mirrors_perform (h : Observes behind) (j : Job) (cancelled : σ → Bool) (a : Action) :
    Mirrors (Run.over behind) (a.perform j fun t => cancelled (behind t)) (a.perform j cancelled) := by
  cases a with
  | verify actual =>
    intro r
    rw [outcome_verify, outcome_verify]
    cases verifyTransferSize actual j.expected j.settings.minTransferRatio with
    | error e => rfl
    | ok _ => dsimp only; split <;> rfl
  | checkCancel => exact fun r => rfl
  | checkCancelAt baud =>
    intro r
    rw [outcome_checkCancelAt, outcome_checkCancelAt, show (r.over behind).link = behind r.link from rfl]
    split
    · exact mirrors_bind (mirrors_onLink (h.setBaud baud)) (fun _ => mirrors_throw _) r
    · rfl
  | enterLoader => exact mirrors_onLink h.enterLoader
  | sync attempts => exact fun r => syncWithin_over h attempts attempts r
  | command c => exact c.mirrors_perform h
  | setBaud baud => exact mirrors_onLink (h.setBaud baud)
  | settle => exact mirrors_forget h
  | noteCancel =>
    intro r
    rw [outcome_noteCancel, outcome_noteCancel, show (r.over behind).link = behind r.link from rfl]
    dsimp only
    split <;> rfl
  | publish written => exact fun r => rfl
  | hardReset => exact mirrors_onLink h.hardReset

theorem Step.mirrors_take (h : Observes behind) (j : Job) (cancelled : σ → Bool) (s : Step) :
    Mirrors (Run.over behind) (s.take j fun t => cancelled (behind t)) (s.take j cancelled) := by
  intro r
  rw [Step.outcome_take, Step.outcome_take, s.action.mirrors_perform h]
  rcases (s.action.perform j fun t => cancelled (behind t)).outcome r with ⟨result, r'⟩
  cases result with
  | ok _ => rfl
  | error e =>
    cases e with
    | link e => cases s.written? <;> rfl
    | _ => rfl

/-- What the steps of a flash ask of a link that is being watched they ask of the link behind it. -/
theorem mirrors_takeAll (h : Observes behind) (j : Job) (cancelled : σ → Bool) (steps : List Step) :
    Mirrors (Run.over behind) (takeAll j (fun t => cancelled (behind t)) steps)
      (takeAll j cancelled steps) := by
  induction steps with
  | nil => exact mirrors_pure ()
  | cons s rest ih => exact mirrors_bind (s.mirrors_take h j cancelled) fun _ => ih

end Flash

/-! ## A whole flash -/

/-- What a flash leaves behind, with the link behind the one that is being watched. -/
def Flashed.over (behind : τ → σ) (f : Flashed τ) : Flashed σ where
  result := f.result
  link := behind f.link
  progress := f.progress
  notices := f.notices

/-- **A flash over a link that is being watched is the flash over the link behind it**: it has the same
result, publishes the same progress, gives the same warnings, and leaves the same link behind. -/
theorem flash_watched (h : Observes behind) (j : Flash.Job) (cancelled : σ → Bool) (t : τ) :
    flash j cancelled (behind t) = (flash j (fun t => cancelled (behind t)) t).over behind := by
  have hrun : (Flash.takeAll j cancelled j.plan).outcome (.start j (behind t)) = _ :=
    Flash.mirrors_takeAll h j cancelled j.plan (.start j t)
  rw [flash_eq j cancelled (behind t), hrun]
  rfl

/-- A flash over a link that is recorded is the flash over the link itself. -/
theorem flash_recorded (j : Flash.Job) (cancelled : σ → Bool) (r : Recorded σ) :
    flash j cancelled r.link =
      (flash j (fun r : Recorded σ => cancelled r.link) r).over Recorded.link :=
  flash_watched observes_recorded j cancelled r

end BlockBoard
