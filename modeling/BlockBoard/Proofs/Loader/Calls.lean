import BlockBoard.Proofs.Link.Recorded
import BlockBoard.Proofs.Loader.Wire
/-!
# What the steps of a flash ask of the link

Whatever the link answers, and whether a step succeeds or not, it asks only for what it is there for:
a command step writes the frame of its command and reads, and so on.

- `Flash.Action.MayCall`: the calls that a step of a plan may make.
- `Flash.relates_takeAll`: a run keeps every relation between states of the link that admits all that
  its steps ask.
- `Flash.takeAll_adds`: **a run makes only calls that one of its steps may make**.
- `Flash.takeAll_append`: a run of two plans in a row.
- `Flash.Action.MayFail`: the errors that a step may end in, and `Flash.takeAll_error`: where a run fails.
- `Flash.takeAll_ne_cancelled`: without a step that looks at the request to cancel, no run is
  cancelled.
-/

namespace BlockBoard

/-- A failure of an exchange with a board: the link fails, or the board breaks the rules. -/
def FromBoard (e : SessionError) : Prop := (∃ l, e = .link l) ∨ ∃ f, e = .fault f

/-! ## Elementary calls -/

section Elementary

variable {σ : Type} [Transport σ]

theorem calls_read {n : Nat} {s s' : Recorded σ} {answer : Reading}
    (h : Transport.read n s = (answer, s')) : s'.calls = s.calls ++ [.read n answer] := by
  cases h
  rfl

theorem calls_write {bs : List UInt8} {s s' : Recorded σ} {answer : Except LinkError Unit}
    (h : Transport.write bs s = (answer, s')) : s'.calls = s.calls ++ [.write bs answer] := by
  cases h
  rfl

theorem calls_setBaud {baud : UInt32} {s s' : Recorded σ} {answer : Except LinkError Unit}
    (h : Transport.setBaud baud s = (answer, s')) : s'.calls = s.calls ++ [.setBaud baud answer] := by
  cases h
  rfl

theorem calls_enterLoader {s s' : Recorded σ} {answer : Except LinkError Unit}
    (h : Transport.enterLoader s = (answer, s')) : s'.calls = s.calls ++ [.enterLoader answer] := by
  cases h
  rfl

theorem calls_hardReset {s s' : Recorded σ} {answer : Except LinkError Unit}
    (h : Transport.hardReset s = (answer, s')) : s'.calls = s.calls ++ [.hardReset answer] := by
  cases h
  rfl

end Elementary

namespace Flash

/-! ## The calls of a step -/

/-- The commands that a step sends. -/
def Action.commands : Action → List Command
  | .sync _ => [syncCommand]
  | .command c => [c]
  | _ => []

/-- The speeds that a step asks for. -/
def Action.bauds : Action → List UInt32
  | .setBaud baud | .checkCancelAt baud => [baud]
  | _ => []

/-- The calls that a step may make. -/
def Action.MayCall (a : Action) : LinkCall → Prop
  | .read _ _ => True
  | .write bs _ => bs ∈ a.commands.map Command.frame
  | .setBaud baud _ => baud ∈ a.bauds
  | .enterLoader _ => a = .enterLoader
  | .hardReset _ => a = .hardReset
  | .openLink _ _ => False

/-- All that a step asks of the link, apart from reads, is in a relation. -/
structure Action.Admits {σ : Type} [Transport σ] (a : Action) (R : σ → σ → Prop) : Prop where
  write : ∀ c ∈ a.commands, ∀ s, R s (Transport.write c.frame s).2
  setBaud : ∀ baud ∈ a.bauds, ∀ s, R s (Transport.setBaud baud s).2
  enterLoader : a = .enterLoader → ∀ s, R s (Transport.enterLoader s).2
  hardReset : a = .hardReset → ∀ s, R s (Transport.hardReset s).2

variable {σ : Type}

/-- The link of a run before and after is in a relation. -/
def OnRun (R : σ → σ → Prop) (r r' : Run σ) : Prop := R r.link r'.link

variable {R : σ → σ → Prop}

@[simp] theorem outcome_onLink {τ α : Type} (x : Operation τ LinkError α) (r : Run τ) :
    (onLink x).outcome r =
      ((x.outcome r.link).1.mapError .link, { r with link := (x.outcome r.link).2 }) := by
  rw [onLink, Operation.outcome_onPart, Operation.outcome_mapError]

/-- An operation of the link, and what follows it if it succeeds. -/
theorem outcome_onLink_bind {α β : Type} (x : Operation σ LinkError α)
    (f : α → Operation (Run σ) SessionError β) (r : Run σ) :
    (onLink x >>= f).outcome r =
      match x.outcome r.link with
      | (.error e, s) => (.error (.link e), { r with link := s })
      | (.ok a, s) => (f a).outcome { r with link := s } := by
  rw [Operation.outcome_bind, outcome_onLink]
  rcases x.outcome r.link with ⟨_ | _, s⟩ <;> rfl

theorem relates_onLink {α : Type} {x : Operation σ LinkError α} (h : x.Relates R) :
    (onLink x).Relates (OnRun R) := by
  intro r
  rw [outcome_onLink]
  exact h r.link

theorem failsOnly_onLink {α : Type} {P : SessionError → Prop} {x : Operation σ LinkError α}
    (h : ∀ l, P (.link l)) : (onLink x).FailsOnly P :=
  fun r => Operation.failsOnly_mapError h x r.link

theorem onLink_never {α : Type} {e : SessionError} (h : ∀ l, e ≠ .link l)
    (x : Operation σ LinkError α) : (onLink x).Never e :=
  fun r => Operation.never_mapError (fun l => (h l).symm) x r.link

variable [Transport σ]

theorem relates_bind_onRun (hR : Transport.Steady R) {α β : Type}
    {x : Operation (Run σ) SessionError α} {f : α → Operation (Run σ) SessionError β}
    (hx : x.Relates (OnRun R)) (hf : ∀ a, (f a).Relates (OnRun R)) :
    (x >>= f).Relates (OnRun R) :=
  Operation.relates_bind (R := OnRun R) (fun _ _ _ => hR.trans _ _ _) hx hf

/-- Waiting for an answer only reads. -/
theorem relates_awaitWithin (hR : Transport.Steady R) (op : Loader.Op) (timeout fuel : Nat)
    (r : Run σ) : R r.link (awaitWithin op timeout fuel r).2.link := by
  induction fuel generalizing r with
  | zero =>
    rw [awaitWithin]
    split <;> exact hR.refl r.link
  | succ fuel ih =>
    rw [awaitWithin]
    split
    · exact hR.refl r.link
    · rcases h : Transport.read loaderChunk r.link with ⟨answer, s'⟩
      have hread := hR.of_read h
      simp only [h]
      cases answer with
      | silent => exact hread
      | failed e => exact hread
      | bytes bs =>
        cases bs with
        | nil => exact hread
        | cons b rest =>
          have hmore := ih { r with
            link := s'
            frames := (r.decoder.feed (b :: rest)).1
            decoder := (r.decoder.feed (b :: rest)).2 }
          exact hR.trans _ _ _ hread hmore

/-- A command writes its frame, and then only reads. -/
theorem Command.relates_perform (hR : Transport.Steady R) {c : Command}
    (hwrite : ∀ s, R s (Transport.write c.frame s).2) :
    (c.perform : Operation (Run σ) SessionError Unit).Relates (OnRun R) :=
  relates_bind_onRun hR (relates_onLink hwrite) fun _ r =>
    relates_awaitWithin hR c.op c.timeout _ r

theorem relates_forget (hR : Transport.Steady R) :
    (forget : Operation (Run σ) SessionError Unit).Relates (OnRun R) :=
  relates_bind_onRun hR (relates_onLink (relates_drain hR)) fun _ r => hR.refl r.link

theorem relates_syncWithin (hR : Transport.Steady R)
    (hwrite : ∀ s, R s (Transport.write syncCommand.frame s).2) (attempts left : Nat) (r : Run σ) :
    R r.link (syncWithin attempts left r).2.link := by
  induction left generalizing r with
  | zero => exact hR.refl r.link
  | succ left ih =>
    have hone := syncCommand.relates_perform hR hwrite r
    rw [syncWithin]
    rcases h : syncCommand.perform.outcome r with ⟨result, r'⟩
    rw [h] at hone
    split
    · rename_i heq
      cases heq
      exact hR.trans _ _ _ hone (relates_forget hR _)
    · rename_i heq
      cases heq
      exact hR.trans _ _ _ hone (ih _)
    · rename_i heq
      cases heq
      exact hone

/-- A look at the request to cancel. -/
theorem outcome_checkCancel (j : Job) (cancelled : σ → Bool) (r : Run σ) :
    (Action.checkCancel.perform j cancelled).outcome r =
      (if cancelled r.link then .error .cancelled else .ok (), r) := rfl

/-- A late look at the request to cancel: it goes back to a speed before it stops. -/
theorem outcome_checkCancelAt (j : Job) (cancelled : σ → Bool) (baud : UInt32) (r : Run σ) :
    ((Action.checkCancelAt baud).perform j cancelled).outcome r =
      if cancelled r.link then
        (onLink (Transport.setBaud baud) >>= fun _ => throw .cancelled :
          Operation (Run σ) SessionError Unit).outcome r
      else (.ok (), r) := rfl

theorem outcome_noteCancel (j : Job) (cancelled : σ → Bool) (r : Run σ) :
    (Action.noteCancel.perform j cancelled).outcome r =
      (.ok (), if cancelled r.link then { r with notices := r.notices ++ [.cancelIgnored] } else r) := by
  show ((if cancelled r.link then note .cancelIgnored else pure () :
    Operation (Run σ) SessionError Unit).outcome r) = _
  split <;> rfl

/-- A check of sizes leaves at most a warning. -/
theorem outcome_verify (j : Job) (cancelled : σ → Bool) (actual : Nat) (r : Run σ) :
    ((Action.verify actual).perform j cancelled).outcome r =
      match verifyTransferSize actual j.expected j.settings.minTransferRatio with
      | .error e => (.error (.transfer e), r)
      | .ok () => (.ok (), if isShort actual j.expected then
          { r with notices := r.notices ++ [.transferShort actual j.expected] } else r) := by
  rw [Action.perform]
  rcases verifyTransferSize actual j.expected j.settings.minTransferRatio with e | _
  · rfl
  · dsimp only
    split <;> rfl

/-- A step keeps a relation that admits all that it asks. -/
theorem Action.relates_perform (hR : Transport.Steady R) {a : Action} (ha : a.Admits R) (j : Job)
    (cancelled : σ → Bool) : (a.perform j cancelled).Relates (OnRun R) := by
  cases a with
  | verify actual =>
    intro r
    rw [outcome_verify]
    repeat' split
    all_goals exact hR.refl r.link
  | checkCancel => exact fun r => hR.refl r.link
  | checkCancelAt baud =>
    have hset : (onLink (Transport.setBaud baud) >>= fun _ => throw .cancelled :
        Operation (Run σ) SessionError Unit).Relates (OnRun R) :=
      relates_bind_onRun hR (relates_onLink (ha.setBaud baud (List.mem_singleton_self baud)))
        fun _ r => hR.refl r.link
    intro r
    rw [outcome_checkCancelAt]
    split
    · exact hset r
    · exact hR.refl r.link
  | enterLoader => exact relates_onLink (ha.enterLoader rfl)
  | sync attempts =>
    exact fun r => relates_syncWithin hR (ha.write syncCommand (List.mem_singleton_self _)) _ _ r
  | command c => exact c.relates_perform hR (ha.write c (List.mem_singleton_self c))
  | setBaud baud => exact relates_onLink (ha.setBaud baud (List.mem_singleton_self baud))
  | settle => exact relates_forget hR
  | noteCancel =>
    intro r
    rw [outcome_noteCancel]
    dsimp only
    split <;> exact hR.refl r.link
  | publish written => exact fun r => hR.refl r.link
  | hardReset => exact relates_onLink (ha.hardReset rfl)

/-- What a step asks of a link that is recorded is what it may ask. -/
theorem Action.admits_adds {P : LinkCall → Prop} {a : Action} (h : ∀ c, a.MayCall c → P c) :
    a.Admits (Recorded.Adds P : Recorded σ → Recorded σ → Prop) where
  write _ hc := Recorded.adds_call fun _ => h _ (List.mem_map_of_mem hc)
  setBaud _ hbaud := Recorded.adds_call fun _ => h _ hbaud
  enterLoader ha := Recorded.adds_call fun _ => h _ ha
  hardReset ha := Recorded.adds_call fun _ => h _ ha

/-- What taking a step comes to: the step's own outcome, with failures of the link renamed while data
is being written. -/
theorem Step.outcome_take (j : Job) (cancelled : σ → Bool) (s : Step) (r : Run σ) :
    (s.take j cancelled).outcome r =
      match (s.action.perform j cancelled).outcome r, s.written? with
      | (.error (.link e), r), some written =>
        (.error (.interrupted written e),
          { r with notices := r.notices ++ [.writingInterrupted written e] })
      | result, _ => result := rfl

theorem Step.link_take (j : Job) (cancelled : σ → Bool) (s : Step) (r : Run σ) :
    ((s.take j cancelled).outcome r).2.link = ((s.action.perform j cancelled).outcome r).2.link := by
  rw [Step.outcome_take]
  split
  · rename_i h _
    rw [h]
  · rfl

/-- A step succeeds if what it does succeeds. -/
theorem Step.perform_of_take {j : Job} {cancelled : σ → Bool} {s : Step} {r r' : Run σ}
    (h : (s.take j cancelled).outcome r = (.ok (), r')) :
    (s.action.perform j cancelled).outcome r = (.ok (), r') := by
  rw [Step.outcome_take] at h
  split at h
  · cases h
  · exact h

/-- A step is cancelled if what it does is. -/
theorem Step.perform_of_take_cancelled {j : Job} {cancelled : σ → Bool} {s : Step} {r r' : Run σ}
    (h : (s.take j cancelled).outcome r = (.error .cancelled, r')) :
    (s.action.perform j cancelled).outcome r = (.error .cancelled, r') := by
  rw [Step.outcome_take] at h
  split at h
  · cases h
  · exact h

theorem Step.relates_take (hR : Transport.Steady R) {s : Step} (hs : s.action.Admits R) (j : Job)
    (cancelled : σ → Bool) : (s.take j cancelled).Relates (OnRun R) := by
  intro r
  have h := s.action.relates_perform hR hs j cancelled r
  rw [OnRun] at h ⊢
  rwa [s.link_take]

/-! ## The calls of a run -/

theorem takeAll_cons (j : Job) (cancelled : σ → Bool) (s : Step) (rest : List Step) :
    (takeAll j cancelled (s :: rest) : Operation (Run σ) SessionError Unit) =
      (s.take j cancelled >>= fun _ => takeAll j cancelled rest) := rfl

/-- A run keeps a relation that admits all that its steps ask. -/
theorem relates_takeAll (hR : Transport.Steady R) {steps : List Step}
    (h : ∀ s ∈ steps, s.action.Admits R) (j : Job) (cancelled : σ → Bool) :
    (takeAll j cancelled steps).Relates (OnRun R) := by
  induction steps with
  | nil => exact fun r => hR.refl r.link
  | cons s rest ih =>
    rw [takeAll_cons]
    exact relates_bind_onRun hR (s.relates_take hR (h s (by simp)) j cancelled) fun _ =>
      ih fun s' hs' => h s' (List.mem_cons_of_mem _ hs')

/-- **A run makes only calls that one of its steps may make.** -/
theorem takeAll_adds (j : Job) (cancelled : Recorded σ → Bool) (steps : List Step) :
    (takeAll j cancelled steps).Relates
      (OnRun (Recorded.Adds fun c => c.isRead = true ∨ ∃ s ∈ steps, s.action.MayCall c)) :=
  relates_takeAll (Recorded.steady_adds fun _ => .inl)
    (fun s hs => Action.admits_adds fun _ hc => .inr ⟨s, hs, hc⟩) j cancelled

/-- Two plans in a row: the second is begun only when the first has been carried out. -/
theorem takeAll_append (j : Job) (cancelled : σ → Bool) (a b : List Step) :
    (takeAll j cancelled (a ++ b) : Operation (Run σ) SessionError Unit) =
      (takeAll j cancelled a >>= fun _ => takeAll j cancelled b) := by
  induction a with
  | nil => exact (pure_bind _ _).symm
  | cons s rest ih => rw [List.cons_append, takeAll_cons, ih, takeAll_cons, bind_assoc]

/-- A run of two plans in a row ends in the first of them, or in the second after the first. -/
theorem takeAll_append_cases {j : Job} {cancelled : σ → Bool} {a b : List Step} {r r' : Run σ}
    {result : Except SessionError Unit}
    (h : (takeAll j cancelled (a ++ b)).outcome r = (result, r')) :
    (∃ e, (takeAll j cancelled a).outcome r = (.error e, r') ∧ result = .error e) ∨
      ∃ r₁, (takeAll j cancelled a).outcome r = (.ok (), r₁) ∧
        (takeAll j cancelled b).outcome r₁ = (result, r') := by
  rw [takeAll_append] at h
  rcases Operation.bind_cases h with h | ⟨_, r₁, h, h'⟩
  · exact .inl h
  · exact .inr ⟨r₁, h, h'⟩

/-! ## How a step can fail -/

theorem verdict_failsOnly {op : Loader.Op} {response : Loader.Response} {e : SessionError}
    (h : verdict op response = .error e) : ∃ f, e = .fault f := by
  unfold verdict at h
  split at h <;> cases h <;> exact ⟨_, rfl⟩

theorem findAnswer?_failsOnly {op : Loader.Op} {frames rest : List (List UInt8)} {e : SessionError}
    (h : findAnswer? op frames = some (.error e, rest)) : ∃ f, e = .fault f := by
  induction frames with
  | nil => cases h
  | cons f r ih =>
    rw [findAnswer?] at h
    split at h
    · split at h
      · exact verdict_failsOnly (Prod.mk.inj (Option.some.inj h)).1
      · exact ih h
    · exact ih h

theorem awaitWithin_failsOnly {op : Loader.Op} {timeout fuel : Nat} {r : Run σ} {e : SessionError}
    (h : (awaitWithin op timeout fuel r).1 = .error e) : FromBoard e := by
  induction fuel generalizing r with
  | zero =>
    rw [awaitWithin] at h
    split at h
    · rename_i hfound
      cases h
      exact .inr (findAnswer?_failsOnly hfound)
    · cases h
      exact .inl ⟨_, rfl⟩
  | succ fuel ih =>
    rw [awaitWithin] at h
    split at h
    · rename_i hfound
      cases h
      exact .inr (findAnswer?_failsOnly hfound)
    · rcases hread : Transport.read loaderChunk r.link with ⟨answer, s'⟩
      simp only [hread] at h
      cases answer with
      | silent =>
        cases h
        exact .inl ⟨_, rfl⟩
      | failed l =>
        cases h
        exact .inl ⟨_, rfl⟩
      | bytes bs =>
        cases bs with
        | nil =>
          cases h
          exact .inl ⟨_, rfl⟩
        | cons b rest => exact ih h

theorem Command.perform_failsOnly (c : Command) :
    (c.perform : Operation (Run σ) SessionError Unit).FailsOnly FromBoard :=
  Operation.failsOnly_bind (failsOnly_onLink fun l => .inl ⟨l, rfl⟩) fun _ _ _ h =>
    awaitWithin_failsOnly h

theorem forget_failsOnly :
    (forget : Operation (Run σ) SessionError Unit).FailsOnly fun e => ∃ l, e = .link l :=
  Operation.failsOnly_bind (failsOnly_onLink fun l => ⟨l, rfl⟩) fun _ _ _ h => nomatch h

theorem syncWithin_failsOnly {attempts left : Nat} {r : Run σ} {e : SessionError}
    (h : (syncWithin attempts left r).1 = .error e) : FromBoard e := by
  induction left generalizing r with
  | zero =>
    cases h
    exact .inr ⟨_, rfl⟩
  | succ left ih =>
    rw [syncWithin] at h
    rcases hperform : syncCommand.perform.outcome r with ⟨result, r'⟩
    rw [hperform] at h
    split at h
    · exact .inl (forget_failsOnly _ _ h)
    · exact ih h
    · rename_i heq
      cases heq
      cases h
      exact syncCommand.perform_failsOnly r e (by rw [hperform])

/-- The errors that a step may end in. -/
def Action.MayFail : Action → SessionError → Prop
  | .verify _, e => ∃ t, e = .transfer t
  | .checkCancel, e => e = .cancelled
  | .checkCancelAt _, e => e = .cancelled ∨ ∃ l, e = .link l
  | .enterLoader, e | .setBaud _, e | .settle, e | .hardReset, e => ∃ l, e = .link l
  | .sync _, e | .command _, e => FromBoard e
  | .noteCancel, _ | .publish _, _ => False

/-- A step ends in no other error than those that it may end in. -/
theorem Action.perform_failsOnly (a : Action) (j : Job) (cancelled : σ → Bool) :
    (a.perform j cancelled).FailsOnly a.MayFail := by
  cases a with
  | verify actual =>
    intro r e h
    rw [outcome_verify] at h
    split at h
    · cases h
      exact ⟨_, rfl⟩
    · cases h
  | checkCancel =>
    intro r e h
    rw [outcome_checkCancel] at h
    dsimp only at h
    split at h
    · cases h
      rfl
    · cases h
  | checkCancelAt baud =>
    have hback : (onLink (Transport.setBaud baud) >>= fun _ => throw .cancelled :
        Operation (Run σ) SessionError Unit).FailsOnly (checkCancelAt baud).MayFail :=
      Operation.failsOnly_bind (failsOnly_onLink fun l => .inr ⟨l, rfl⟩) fun _ _ _ h => by
        cases h
        exact .inl rfl
    intro r e h
    rw [outcome_checkCancelAt] at h
    split at h
    · exact hback r e h
    · cases h
  | enterLoader => exact failsOnly_onLink fun l => ⟨l, rfl⟩
  | sync attempts => exact fun r e h => syncWithin_failsOnly h
  | command c => exact c.perform_failsOnly
  | setBaud baud => exact failsOnly_onLink fun l => ⟨l, rfl⟩
  | settle => exact forget_failsOnly
  | noteCancel =>
    intro r e h
    rw [outcome_noteCancel] at h
    cases h
  | publish written => exact fun r e h => nomatch h
  | hardReset => exact failsOnly_onLink fun l => ⟨l, rfl⟩

/-! ## Where a run fails -/

/-- A run that fails fails in one of its steps, after those before it were carried out. -/
theorem takeAll_error {j : Job} {cancelled : σ → Bool} {steps : List Step} {r r' : Run σ}
    {e : SessionError} (h : (takeAll j cancelled steps).outcome r = (.error e, r')) :
    ∃ before s after r₁, steps = before ++ s :: after ∧
      (takeAll j cancelled before).outcome r = (.ok (), r₁) ∧
      (s.take j cancelled).outcome r₁ = (.error e, r') := by
  induction steps generalizing r with
  | nil => cases h
  | cons s rest ih =>
    rw [takeAll_cons] at h
    rcases Operation.bind_cases h with ⟨e', htake, he⟩ | ⟨_, r₁, htake, hrest⟩
    · cases he
      exact ⟨[], s, rest, r, rfl, rfl, htake⟩
    · obtain ⟨before, s', after, r₂, rfl, hbefore, hfails⟩ := ih hrest
      refine ⟨s :: before, s', after, r₂, rfl, ?_, hfails⟩
      rw [takeAll_cons, Operation.bind_of_ok htake, hbefore]

/-- Nothing is done after a step that fails. -/
theorem takeAll_of_error {j : Job} {cancelled : σ → Bool} {before after : List Step} {s : Step}
    {r r₁ r' : Run σ} {e : SessionError}
    (hbefore : (takeAll j cancelled before).outcome r = (.ok (), r₁))
    (h : (s.take j cancelled).outcome r₁ = (.error e, r')) :
    (takeAll j cancelled (before ++ s :: after)).outcome r = (.error e, r') := by
  rw [takeAll_append, Operation.bind_of_ok hbefore, takeAll_cons, Operation.bind_of_error h]

/-- A run ends in no other error than an interruption and those that one of its steps may end in. -/
theorem takeAll_failsOnly (j : Job) (cancelled : σ → Bool) (steps : List Step) :
    (takeAll j cancelled steps).FailsOnly fun e =>
      (∃ written l, e = .interrupted written l) ∨ ∃ s ∈ steps, s.action.MayFail e := by
  intro r e h
  obtain ⟨before, s, after, r₁, rfl, -, htake⟩ := takeAll_error (Prod.ext h rfl)
  have he := congrArg Prod.fst htake
  rw [Step.outcome_take] at he
  split at he
  · cases he
    exact .inl ⟨_, _, rfl⟩
  · exact .inr ⟨s, by simp, s.action.perform_failsOnly j cancelled r₁ e he⟩

/-- Whether a step looks at the request to cancel. -/
def Action.isCheck : Action → Bool
  | .checkCancel | .checkCancelAt _ => true
  | _ => false

/-- Only the steps that look at the request to cancel can be cancelled. -/
theorem Action.isCheck_of_mayFail {a : Action} (h : a.MayFail .cancelled) : a.isCheck = true := by
  cases a <;> first | rfl | simp [MayFail, FromBoard] at h

/-- Without a step that looks at the request to cancel, no run is cancelled. -/
theorem takeAll_ne_cancelled {steps : List Step} (h : ∀ s ∈ steps, s.action.isCheck = false) (j : Job)
    (cancelled : σ → Bool) : (takeAll j cancelled steps).Never .cancelled := by
  refine (takeAll_failsOnly j cancelled steps).never ?_
  rintro (⟨written, l, he⟩ | ⟨s, hs, hfails⟩)
  · cases he
  · have hno := h s hs
    rw [Action.isCheck_of_mayFail hfails] at hno
    cases hno

end Flash

/-! ## A whole flash -/

section Whole

variable {σ : Type} [Transport σ] {j : Flash.Job} {cancelled : σ → Bool} {link : σ}

/-- A run before its first step. -/
def Flash.Run.start (j : Flash.Job) (link : σ) : Flash.Run σ :=
  { link, progress := [⟨0, j.image.length⟩] }

/-- A flash is what a run of its plan comes to. -/
theorem flash_eq (j : Flash.Job) (cancelled : σ → Bool) (link : σ) : flash j cancelled link =
    { result := ((Flash.takeAll j cancelled j.plan).outcome (.start j link)).1.map fun () => j.report
      link := ((Flash.takeAll j cancelled j.plan).outcome (.start j link)).2.link
      progress := ((Flash.takeAll j cancelled j.plan).outcome (.start j link)).2.progress
      notices := ((Flash.takeAll j cancelled j.plan).outcome (.start j link)).2.notices } := rfl

/-- A flash that succeeds is a run that succeeds. -/
theorem outcome_of_ok {report : FlashReport} (h : (flash j cancelled link).result = .ok report) :
    ∃ r', (Flash.takeAll j cancelled j.plan).outcome (.start j link) = (.ok (), r') ∧
      (flash j cancelled link).link = r'.link ∧ report = j.report := by
  have hresult : (flash j cancelled link).result =
      ((Flash.takeAll j cancelled j.plan).outcome (.start j link)).1.map fun () => j.report := rfl
  rw [h] at hresult
  cases hrun : ((Flash.takeAll j cancelled j.plan).outcome (.start j link)).1 with
  | ok a =>
    rw [hrun] at hresult
    cases hresult
    exact ⟨_, Prod.ext hrun rfl, rfl, rfl⟩
  | error e =>
    rw [hrun] at hresult
    cases hresult

/-- A flash that fails is a run that fails. -/
theorem outcome_of_error {e : SessionError} (h : (flash j cancelled link).result = .error e) :
    ∃ r', (Flash.takeAll j cancelled j.plan).outcome (.start j link) = (.error e, r') ∧
      (flash j cancelled link).link = r'.link := by
  have hresult : (flash j cancelled link).result =
      ((Flash.takeAll j cancelled j.plan).outcome (.start j link)).1.map fun () => j.report := rfl
  rw [h] at hresult
  cases hrun : ((Flash.takeAll j cancelled j.plan).outcome (.start j link)).1 with
  | ok a =>
    rw [hrun] at hresult
    cases hresult
  | error e' =>
    rw [hrun] at hresult
    cases hresult
    exact ⟨_, Prod.ext hrun rfl, rfl⟩

/-- A run that succeeds is a flash that succeeds. -/
theorem flash_of_takeAll {r' : Flash.Run σ}
    (h : (Flash.takeAll j cancelled j.plan).outcome (.start j link) = (.ok (), r')) :
    (flash j cancelled link).result = .ok j.report ∧ (flash j cancelled link).link = r'.link := by
  rw [flash_eq, h]
  exact ⟨rfl, rfl⟩

end Whole

end BlockBoard
