import BlockBoard.Proofs.Loader.Calls
import BlockBoard.Proofs.Session.Reachable
/-!
# How a request fails

Talking to the raw prompt fails because of the link or because of the board. A request fails besides
because the session is not in a state for it, or because the flash was cancelled; and only such a failure
leaves the link as it is.

- `RawMode.writeFile_failsOnly` and its like: how talking to the raw prompt fails.
- `Conduct.perform_ne_notConnected`: **a session that is sound never lacks a link**, unless something is
  typed where no board is.
- `Conduct.perform_costsLink`: **every failure that is not mild costs the link**.
- `Conduct.flash_of_cancelled`: **only a flash is ever cancelled**.
-/

namespace BlockBoard

/-! ## The raw prompt -/

namespace RawMode

variable {σ : Type}

theorem ofLink_failsOnly {α : Type} (x : Operation σ LinkError α) :
    (ofLink x).FailsOnly FromBoard :=
  Operation.failsOnly_mapError (fun l => .inl ⟨l, rfl⟩) x

variable [Transport σ]

theorem enter_failsOnly (timeout : Nat) :
    (enter timeout : Operation σ SessionError Unit).FailsOnly FromBoard :=
  Operation.failsOnly_bind (ofLink_failsOnly _) fun _ => ofLink_failsOnly _

theorem upload_failsOnly (timeout : Nat) (program : List UInt8) :
    (upload timeout program : Operation σ SessionError (List UInt8)).FailsOnly FromBoard := by
  unfold upload
  exact ofLink_failsOnly _

/-- The reply of a program either reads well, or reports a fault. -/
theorem outcomeOf_failsOnly {reply : List UInt8} {e : SessionError}
    (h : outcomeOf reply = .error e) : FromBoard e := by
  unfold outcomeOf at h
  dsimp only at h
  split at h
  · cases h
  · cases h
    exact .inr ⟨_, rfl⟩

theorem exec_failsOnly (timeout : Nat) (program : String) :
    (exec timeout program : Operation σ SessionError String).FailsOnly FromBoard := by
  unfold exec
  refine Operation.failsOnly_bind (upload_failsOnly timeout _) fun begun => ?_
  refine Operation.failsOnly_bind (ofLink_failsOnly _) fun reply => ?_
  intro s e h
  rw [Operation.outcome_of] at h
  dsimp only at h
  exact outcomeOf_failsOnly h

theorem execAll_failsOnly (timeout : Nat) (programs : List String) :
    (execAll timeout programs : Operation σ SessionError Unit).FailsOnly FromBoard := by
  induction programs with
  | nil => exact fun s e h => nomatch h
  | cons p r ih => exact Operation.failsOnly_bind (exec_failsOnly timeout p) fun _ => ih

theorem writeFile_failsOnly (timeout : Nat) (name : String) (contents : List UInt8) :
    (writeFile timeout name contents : Operation σ SessionError Unit).FailsOnly FromBoard :=
  execAll_failsOnly timeout _

end RawMode

theorem not_fromBoard_notConnected : ¬ FromBoard .notConnected := by
  rintro (⟨l, hl⟩ | ⟨f, hf⟩)
  · cases hl
  · cases hf

theorem not_fromBoard_cancelled : ¬ FromBoard .cancelled := by
  rintro (⟨l, hl⟩ | ⟨f, hf⟩)
  · cases hl
  · cases hf

/-- A flash does not fail for the lack of a link. -/
theorem flash_ne_notConnected {σ : Type} [Transport σ] (j : Flash.Job) (cancelled : σ → Bool) (link : σ) :
    (flash j cancelled link).result ≠ .error .notConnected := by
  intro h
  obtain ⟨r', hrun, -⟩ := outcome_of_error h
  rcases Flash.takeAll_failsOnly j cancelled j.plan _ _ (congrArg Prod.fst hrun) with
    ⟨written, l, he⟩ | ⟨s, -, hfails⟩
  · cases he
  · cases haction : s.action <;> rw [haction] at hfails <;>
      simp [Flash.Action.MayFail, FromBoard] at hfails

namespace Conduct

variable {σ α β : Type}

/-! ## Requests that need a link -/

/-- Passing on output does not fail. -/
theorem relay_never (e : SessionError) (bs : List UInt8) : (relay bs : Conduct σ Unit).Never e := by
  intro d
  cases bs with
  | nil => nofun
  | cons b r =>
    rw [outcome_relay (List.cons_ne_nil b r)]
    nofun

theorem move_ne_notConnected (next : SessionState) (d : Desk σ) :
    ((move next).outcome d).1 ≠ .error .notConnected := by
  rw [outcome_move]
  split <;> simp

theorem require_ne_notConnected (next : SessionState) (d : Desk σ) :
    ((require next : Conduct σ Unit).outcome d).1 ≠ .error .notConnected := by
  rw [outcome_require]
  split <;> simp

/-- What costs the link if it fails fails in the way that it would by itself. -/
theorem result_orAbandon (x : Conduct σ α) (d : Desk σ) :
    ((orAbandon x).outcome d).1 = (x.outcome d).1 := by
  rcases hrun : x.outcome d with ⟨e | a, d₁⟩
  · obtain ⟨notices, habandon⟩ := orAbandon_of_error hrun
    rw [habandon]
  · rw [orAbandon_of_ok hrun]

/-- Where there is a link, talking to the board does not fail for the lack of one. -/
theorem orAbandon_onLink_ne_notConnected {x : Operation σ SessionError α} (hx : x.FailsOnly FromBoard)
    {d : Desk σ} (hlinked : d.session.linked = true) :
    ((orAbandon (onLink x)).outcome d).1 ≠ .error .notConnected := by
  rw [result_orAbandon, outcome_onLink, if_pos hlinked]
  exact hx.never not_fromBoard_notConnected d.port

/-- A session is sound after whatever it does. -/
theorem sound_of_outcome {x : Conduct σ α} (hx : x.Relates Changes) {d d' : Desk σ}
    {result : Except SessionError α} (hd : d.session.Sound) (h : x.outcome d = (result, d')) :
    d'.session.Sound := by
  have hchanges := hx d
  rw [h] at hchanges
  exact hchanges.keeps.sound hd

/-- Whoever moves on from a board to a program or a flash holds a link. -/
theorem linked_of_move {next : SessionState} (hnext : next.isConnected = true) {d d' : Desk σ}
    (hd : d.session.Sound) (h : (move next).outcome d = (.ok (), d')) : d'.session.linked = true := by
  rw [outcome_move] at h
  split at h
  · rename_i hmove
    cases h
    exact hd.linked (SessionState.isConnected_of_canMoveTo hd.settled hnext hmove)
  · cases h

section Transport

variable [Transport σ]

theorem halt_failsOnly : (halt : Operation σ SessionError Unit).FailsOnly FromBoard :=
  Operation.failsOnly_bind (RawMode.ofLink_failsOnly _) fun _ => RawMode.ofLink_failsOnly _

theorem upload_program_failsOnly (timeout : Nat) (program : List UInt8) :
    (do
      RawMode.enter timeout
      RawMode.upload timeout program : Operation σ SessionError (List UInt8)).FailsOnly FromBoard :=
  Operation.failsOnly_bind (RawMode.enter_failsOnly timeout) fun _ => RawMode.upload_failsOnly timeout _

theorem writeBootProgram_failsOnly (timeout : Nat) (p : Program) :
    (writeBootProgram timeout p : Operation σ SessionError Unit).FailsOnly FromBoard :=
  Operation.failsOnly_bind (RawMode.enter_failsOnly _) fun _ =>
    Operation.failsOnly_bind (RawMode.writeFile_failsOnly _ _ _) fun _ =>
      Operation.failsOnly_bind (RawMode.ofLink_failsOnly _) fun _ => RawMode.ofLink_failsOnly _

theorem quiesce_ne_notConnected {d : Desk σ} (hd : d.session.Sound) :
    ((quiesce : Conduct σ Unit).outcome d).1 ≠ .error .notConnected := by
  rw [outcome_quiesce]
  split
  · rename_i hrunning
    have hlinked := hd.linked (by rw [hrunning]; rfl)
    refine Operation.bind_ne_error (orAbandon_onLink_ne_notConnected halt_failsOnly hlinked) ?_
    intro _ d₁ _
    exact Operation.bind_ne_error (by simp) fun _ d₂ _ => move_ne_notConnected _ d₂
  · simp

/-- What begins with a move to a program or a flash, once a running program is stopped, has a link. -/
theorem begin_ne_notConnected (next : SessionState) (hnext : next.isConnected = true)
    {x : Conduct σ α} {d : Desk σ} (hd : d.session.Sound)
    (hx : ∀ d', d'.session.linked = true → (x.outcome d').1 ≠ .error .notConnected) :
    ((do quiesce; move next; x : Conduct σ α).outcome d).1 ≠ .error .notConnected := by
  refine Operation.bind_ne_error (quiesce_ne_notConnected hd) fun _ d₁ hquiesce => ?_
  refine Operation.bind_ne_error (move_ne_notConnected next d₁) fun _ d₂ hmove => ?_
  exact hx d₂ (linked_of_move hnext (sound_of_outcome changes_quiesce hd hquiesce) hmove)

theorem stop_ne_notConnected {d : Desk σ} (hd : d.session.Sound) :
    ((stop : Conduct σ Unit).outcome d).1 ≠ .error .notConnected := by
  rw [stop, outcome_session_bind]
  split
  · exact quiesce_ne_notConnected hd
  · simp
  · simp

theorem run_ne_notConnected (p : Program) {d : Desk σ} (hd : d.session.Sound) :
    ((run p : Conduct σ Unit).outcome d).1 ≠ .error .notConnected := by
  refine Operation.bind_ne_error (require_ne_notConnected _ d) fun _ d₁ hrequire => ?_
  refine begin_ne_notConnected .running rfl
    (sound_of_outcome (changes_require _) hd hrequire) fun d₂ hlinked => ?_
  rw [timeout, bind_assoc, outcome_session_bind, pure_bind]
  have hbegins := orAbandon_onLink_ne_notConnected
    (upload_program_failsOnly d₂.session.flashing.commandTimeout.toNat p.bytes) hlinked
  refine Operation.bind_ne_error hbegins fun begun d₃ _ => ?_
  exact Operation.bind_ne_error (by simp) fun _ d₄ _ => relay_never _ begun d₄

theorem save_ne_notConnected (p : Program) {d : Desk σ} (hd : d.session.Sound) :
    ((save p : Conduct σ SaveOutcome).outcome d).1 ≠ .error .notConnected := by
  rw [outcome_save]
  split
  · nofun
  split
  · nofun
  refine Operation.bind_ne_error ?_ fun _ d₁ _ => Operation.bind_ne_error (by simp) fun _ _ _ => nofun
  refine begin_ne_notConnected .running rfl hd fun d₂ hlinked => ?_
  rw [timeout, bind_assoc, outcome_session_bind, pure_bind]
  exact orAbandon_onLink_ne_notConnected (writeBootProgram_failsOnly _ p) hlinked

theorem deliver_ne_notConnected {cancelled : σ → Bool} {j : Flash.Job} {d : Desk σ}
    (hlinked : d.session.linked = true) :
    ((deliver cancelled j).outcome d).1 ≠ .error .notConnected := by
  cases hresult : (BlockBoard.flash j cancelled d.port).result with
  | ok report =>
    rw [deliver_of_ok hlinked hresult]
    exact Operation.bind_ne_error (move_ne_notConnected _ _) fun _ _ _ => nofun
  | error e =>
    by_cases he : e = .cancelled
    · obtain ⟨notices, hreset⟩ := deliver_of_cancelled hlinked (he ▸ hresult)
      rw [hreset]
      exact Operation.bind_ne_error (move_ne_notConnected _ _) fun _ _ _ => nofun
    · obtain ⟨notices, hfails⟩ := deliver_of_error cancelled j d he
        (by rw [outcome_sendImage, if_pos hlinked, hresult])
      rw [hfails]
      rintro heq
      cases heq
      exact flash_ne_notConnected j cancelled d.port hresult

theorem flash_request_ne_notConnected (cancelled : σ → Bool) (image : List UInt8) (expected : Nat)
    {d : Desk σ} (hd : d.session.Sound) :
    ((flash cancelled image expected).outcome d).1 ≠ .error .notConnected := by
  rw [outcome_flash]
  refine Operation.bind_ne_error (require_ne_notConnected _ _) fun _ d₁ hrequire => ?_
  have hbegun : (begun image d).session.Sound := hd
  refine begin_ne_notConnected .flashing rfl
    (sound_of_outcome (changes_require _) hbegun hrequire) fun d₂ hlinked => ?_
  rw [outcome_session_bind]
  exact deliver_ne_notConnected hlinked

end Transport

theorem connect_ne_notConnected [Connector σ] (d : Desk σ) :
    ((connect : Conduct σ Unit).outcome d).1 ≠ .error .notConnected := by
  have hopen : ∀ settings, ((Operation.of (Connector.openLink settings)).mapError .link :
      Operation σ SessionError String).Never .notConnected :=
    fun _ => Operation.never_mapError nofun _
  refine Operation.bind_ne_error (move_ne_notConnected _ d) fun _ d₁ _ => ?_
  rw [outcome_session_bind]
  refine Operation.bind_ne_error ?_ fun _ d₂ _ =>
    Operation.bind_ne_error (by simp) fun _ d₃ _ => move_ne_notConnected _ d₃
  rw [result_orAbandon]
  exact hopen _ d₁.port

/-- **A session that is sound never lacks a link**, unless something is typed. -/
theorem perform_ne_notConnected [Connector σ] (cancelled : σ → Bool) {r : Request}
    (hr : ∀ bs, r ≠ .input bs) {d : Desk σ} (hd : d.session.Sound) :
    ((r.perform cancelled).outcome d).1 ≠ .error .notConnected := by
  -- a request ends with its answer, which does not fail
  cases r with
  | connect => exact Operation.bind_ne_error (connect_ne_notConnected d) fun _ _ _ => nofun
  | disconnect =>
    refine Operation.bind_ne_error ?_ fun _ _ _ => nofun
    rw [outcome_disconnect]
    nofun
  | stop => exact Operation.bind_ne_error (stop_ne_notConnected hd) fun _ _ _ => nofun
  | clear => exact Operation.bind_ne_error (by simp) fun _ _ _ => nofun
  | snapshot => exact Operation.bind_ne_error (by simp) fun _ _ _ => nofun
  | run p => exact Operation.bind_ne_error (run_ne_notConnected p hd) fun _ _ _ => nofun
  | save p => exact Operation.bind_ne_error (save_ne_notConnected p hd) fun _ _ _ => nofun
  | input bs => exact absurd rfl (hr bs)
  | flash image expected =>
    exact Operation.bind_ne_error (flash_request_ne_notConnected _ _ _ hd) fun _ _ _ => nofun

/-! ## What a failure costs -/

/-- No board is at the other end of a session, and it holds no link. -/
def Detached (s : Session) : Prop := s.linked = false ∧ s.state.isConnected = false

/-- A failure that leaves the link as it is: the session is in no state for what it is asked, or a flash
was cancelled. -/
def Mild (e : SessionError) : Prop :=
  e = .cancelled ∨ e = .notConnected ∨ ∃ source target, e = .invalidMove source target

/-- Every failure that is not mild costs the link. -/
def CostsLink (x : Conduct σ α) : Prop :=
  ∀ d e d', x.outcome d = (.error e, d') → Mild e ∨ Detached d'.session

theorem detached_abandoned (d : Desk σ) : Detached d.abandoned.session := by
  unfold Desk.abandoned Desk.movedIfPossible
  split
  · exact ⟨rfl, rfl⟩
  · rename_i hmove
    refine ⟨rfl, Bool.eq_false_iff.mpr fun hconnected => ?_⟩
    exact hmove (SessionState.canMoveTo_error_of_isConnected hconnected)

theorem detached_closed (d : Desk σ) : Detached d.closed.session := by
  unfold Desk.closed Desk.movedIfPossible
  split
  · exact ⟨rfl, rfl⟩
  · rename_i hmove
    refine ⟨rfl, ?_⟩
    show SessionState.isConnected d.session.state = false
    rw [SessionState.eq_disconnected_of_not_canMoveTo hmove]
    rfl

theorem costsLink_bind {x : Conduct σ α} {f : α → Conduct σ β} (hx : CostsLink x)
    (hf : ∀ a, CostsLink (f a)) : CostsLink (x >>= f) := by
  intro d e d' h
  rcases Operation.bind_cases h with ⟨e', hfirst, he⟩ | ⟨a, d₁, -, hsecond⟩
  · cases he
    exact hx d e d' hfirst
  · exact hf a d₁ e d' hsecond

theorem costsLink_of_never {x : Conduct σ α} (h : ∀ e, x.Never e) : CostsLink x :=
  fun _ e _ hfails => absurd hfails (h e).ne

theorem costsLink_pure (a : α) : CostsLink (pure a : Conduct σ α) :=
  costsLink_of_never fun _ _ => nofun

theorem costsLink_session : CostsLink (session : Conduct σ Session) :=
  costsLink_of_never fun _ _ => nofun

theorem costsLink_update (f : Session → Session) : CostsLink (update f : Conduct σ Unit) :=
  costsLink_of_never fun _ _ => nofun

theorem costsLink_timeout : CostsLink (timeout : Conduct σ Nat) :=
  costsLink_bind costsLink_session fun _ => costsLink_pure _

theorem costsLink_throw {e : SessionError} (h : Mild e) : CostsLink (throw e : Conduct σ α) := by
  intro d e' d' hthrow
  cases hthrow
  exact .inl h

theorem costsLink_move (next : SessionState) : CostsLink (move next : Conduct σ Unit) := by
  intro d e d' h
  rw [outcome_move] at h
  split at h
  · cases h
  · cases h
    exact .inl (.inr (.inr ⟨_, _, rfl⟩))

theorem costsLink_require (next : SessionState) : CostsLink (require next : Conduct σ Unit) := by
  intro d e d' h
  rw [outcome_require] at h
  split at h
  · cases h
    exact .inl (.inr (.inr ⟨_, _, rfl⟩))
  · cases h

theorem costsLink_orAbandon (x : Conduct σ α) : CostsLink (orAbandon x) := by
  intro d e d' h
  rcases hrun : x.outcome d with ⟨e' | a, d₁⟩
  · obtain ⟨notices, habandon⟩ := orAbandon_of_error hrun
    cases habandon.symm.trans h
    exact .inr (detached_abandoned d₁)
  · cases (orAbandon_of_ok hrun).symm.trans h

section Transport

variable [Transport σ]

theorem costsLink_quiesce : CostsLink (quiesce : Conduct σ Unit) := by
  unfold quiesce
  refine costsLink_bind costsLink_session fun s => ?_
  split
  · exact costsLink_bind (costsLink_orAbandon _) fun _ =>
      costsLink_bind (costsLink_update _) fun _ => costsLink_move _
  · exact costsLink_pure ()

theorem costsLink_stop : CostsLink (stop : Conduct σ Unit) := by
  refine costsLink_bind costsLink_session fun s => ?_
  split
  · exact costsLink_quiesce
  · exact costsLink_pure ()
  · exact costsLink_throw (.inr (.inr ⟨_, _, rfl⟩))

theorem costsLink_run (p : Program) : CostsLink (run p : Conduct σ Unit) := by
  refine costsLink_bind (costsLink_require _) fun _ => costsLink_bind costsLink_quiesce fun _ =>
    costsLink_bind (costsLink_move _) fun _ => costsLink_bind costsLink_timeout fun _ => ?_
  exact costsLink_bind (costsLink_orAbandon _) fun begun => costsLink_bind (costsLink_update _) fun _ =>
    costsLink_of_never fun e => relay_never e begun

theorem costsLink_save (p : Program) : CostsLink (save p : Conduct σ SaveOutcome) := by
  have hwrites : CostsLink (saveProgram p : Conduct σ Unit) :=
    costsLink_bind costsLink_quiesce fun _ => costsLink_bind (costsLink_move _) fun _ =>
      costsLink_bind costsLink_timeout fun _ => costsLink_orAbandon _
  intro d e d' h
  rw [outcome_save] at h
  split at h
  · cases h
    exact .inl (.inr (.inr ⟨_, _, rfl⟩))
  split at h
  · cases h
  · exact costsLink_bind hwrites (fun _ => costsLink_bind (costsLink_update _) fun _ => costsLink_pure _)
      d e d' h

theorem costsLink_input (bs : List UInt8) : CostsLink (input bs : Conduct σ Unit) := by
  refine costsLink_bind costsLink_session fun s => ?_
  dsimp only
  split
  · exact costsLink_throw (.inr (.inl rfl))
  split
  · exact costsLink_throw (.inr (.inl rfl))
  · refine costsLink_bind (costsLink_of_never fun _ _ => nofun) fun result => ?_
    cases result with
    | ok a => exact costsLink_pure ()
    | error e =>
      intro d e' d' h
      rw [Operation.bind_of_ok (outcome_lose _ d)] at h
      cases h
      exact .inr (detached_closed _)

theorem costsLink_flash (cancelled : σ → Bool) (image : List UInt8) (expected : Nat) :
    CostsLink (flash cancelled image expected) := by
  have hdeliver : CostsLink (do
      move .flashing
      let s ← session
      deliver cancelled ⟨s.device, s.flashing, image, expected⟩ : Conduct σ FlashReport) := by
    intro d e d' h
    rcases Operation.bind_cases h with ⟨e', hmove, he⟩ | ⟨_, d₁, hmove, hrest⟩
    · cases he
      exact costsLink_move _ d e d' hmove
    · rw [outcome_move] at hmove
      split at hmove
      · cases hmove
        rw [outcome_session_bind] at hrest
        obtain ⟨port, progress, notices, hends⟩ := deliver_cases rfl hrest
        rcases hends with ⟨⟨report, hok⟩ | hcancelled, -⟩ | ⟨later, -, rfl⟩
        · cases hok
        · exact .inl (.inl (Except.error.inj hcancelled))
        · exact .inr (detached_abandoned _)
      · cases hmove
  intro d e d' h
  rw [outcome_flash] at h
  exact costsLink_bind (costsLink_require _) (fun _ => costsLink_bind costsLink_quiesce fun _ => hdeliver)
    _ e d' h

end Transport

theorem costsLink_connect [Connector σ] : CostsLink (connect : Conduct σ Unit) :=
  costsLink_bind (costsLink_move _) fun _ => costsLink_bind costsLink_session fun _ =>
    costsLink_bind (costsLink_orAbandon _) fun _ => costsLink_bind (costsLink_update _) fun _ =>
      costsLink_move _

/-- **Every failure of a request that is not mild costs the link.** -/
theorem perform_costsLink [Connector σ] (cancelled : σ → Bool) (r : Request) :
    CostsLink (r.perform cancelled) := by
  cases r with
  | connect => exact costsLink_bind costsLink_connect fun _ => costsLink_pure _
  | disconnect =>
    refine costsLink_bind (costsLink_of_never fun e d => ?_) fun _ => costsLink_pure _
    rw [outcome_disconnect]
    nofun
  | stop => exact costsLink_bind costsLink_stop fun _ => costsLink_pure _
  | clear => exact costsLink_bind (costsLink_update _) fun _ => costsLink_pure _
  | snapshot => exact costsLink_bind costsLink_session fun _ => costsLink_pure _
  | run p => exact costsLink_bind (costsLink_run p) fun _ => costsLink_pure _
  | save p => exact costsLink_bind (costsLink_save p) fun _ => costsLink_pure _
  | input bs => exact costsLink_bind (costsLink_input bs) fun _ => costsLink_pure _
  | flash image expected => exact costsLink_bind (costsLink_flash _ _ _) fun _ => costsLink_pure _

/-! ## Only a flash is cancelled -/

theorem require_never_cancelled (next : SessionState) :
    (require next : Conduct σ Unit).Never .cancelled := by
  intro d
  rw [outcome_require]
  split <;> nofun

/-- Talking to the board is not cancelled, whether or not there is a link. -/
theorem onLink_never_cancelled {x : Operation σ SessionError α} (hx : x.FailsOnly FromBoard) :
    (onLink x : Conduct σ α).Never .cancelled := by
  intro d
  rw [outcome_onLink]
  split
  · exact hx.never not_fromBoard_cancelled d.port
  · nofun

section Transport

variable [Transport σ]

theorem stop_never_cancelled : (stop : Conduct σ Unit).Never .cancelled := by
  intro d
  rw [stop, outcome_session_bind]
  split
  · exact quiesce_never_cancelled d
  · nofun
  · nofun

theorem run_never_cancelled (p : Program) : (run p : Conduct σ Unit).Never .cancelled := by
  refine Operation.never_bind (require_never_cancelled _) fun _ =>
    Operation.never_bind quiesce_never_cancelled fun _ =>
      Operation.never_bind (move_never_cancelled _) fun _ =>
        Operation.never_bind (fun _ => nofun) fun timeout => ?_
  exact Operation.never_bind
    (orAbandon_never (onLink_never_cancelled (upload_program_failsOnly timeout p.bytes))) fun begun =>
      Operation.never_bind (fun _ => nofun) fun _ => relay_never _ begun

theorem save_never_cancelled (p : Program) : (save p : Conduct σ SaveOutcome).Never .cancelled := by
  have hsaves : (saveProgram p : Conduct σ Unit).Never .cancelled :=
    Operation.never_bind quiesce_never_cancelled fun _ =>
      Operation.never_bind (move_never_cancelled _) fun _ =>
        Operation.never_bind (fun _ => nofun) fun timeout =>
          orAbandon_never (onLink_never_cancelled (writeBootProgram_failsOnly timeout p))
  intro d
  rw [outcome_save]
  split
  · nofun
  split
  · nofun
  · exact Operation.never_bind hsaves (fun _ => Operation.never_bind (fun _ => by simp) fun _ _ => by simp) d

theorem input_never_cancelled (bs : List UInt8) : (input bs : Conduct σ Unit).Never .cancelled := by
  have hsend : ((send bs).mapError .link : Operation σ SessionError Unit).Never .cancelled :=
    Operation.never_mapError nofun _
  intro d
  rw [input, outcome_session_bind]
  dsimp only
  split
  · nofun
  split
  · nofun
  rw [outcome_attempt_bind]
  rcases hrun : (onPort ((send bs).mapError .link) : Conduct σ Unit).outcome d with ⟨e | a, d₁⟩
  · rw [Operation.bind_of_ok (outcome_lose _ d₁)]
    intro heq
    cases heq
    exact hsend d.port (congrArg Prod.fst hrun)
  · nofun

end Transport

theorem connect_never_cancelled [Connector σ] : (connect : Conduct σ Unit).Never .cancelled := by
  refine Operation.never_bind (move_never_cancelled _) fun _ =>
    Operation.never_bind (fun _ => nofun) fun s => ?_
  have hopen : ((Operation.of (Connector.openLink s.device)).mapError .link :
      Operation σ SessionError String).Never .cancelled :=
    Operation.never_mapError nofun _
  exact Operation.never_bind (orAbandon_never fun d => hopen d.port) fun _ =>
    Operation.never_bind (fun _ => nofun) fun _ => move_never_cancelled _

/-- **Only a flash is ever cancelled.** -/
theorem flash_of_cancelled [Connector σ] {cancelled : σ → Bool} {r : Request} {d d' : Desk σ}
    (h : (r.perform cancelled).outcome d = (.error .cancelled, d')) :
    ∃ image expected, r = .flash image expected := by
  have hanswer : ∀ {α : Type} {x : Conduct σ α} (f : α → Reply), x.Never .cancelled →
      (do return f (← x) : Conduct σ Reply).Never .cancelled :=
    fun _ hx => Operation.never_bind hx fun _ _ => nofun
  cases r with
  | connect => exact absurd h (hanswer (fun _ => .done) connect_never_cancelled).ne
  | disconnect =>
    refine absurd h (hanswer (fun _ => .done) fun d => ?_).ne
    rw [outcome_disconnect]
    nofun
  | stop => exact absurd h (hanswer (fun _ => .done) stop_never_cancelled).ne
  | clear => exact nomatch h
  | snapshot => exact nomatch h
  | run p => exact absurd h (hanswer (fun _ => .done) (run_never_cancelled p)).ne
  | save p => exact absurd h (hanswer .saved (save_never_cancelled p)).ne
  | input bs => exact absurd h (hanswer (fun _ => .done) (input_never_cancelled bs)).ne
  | flash image expected => exact ⟨image, expected, rfl⟩

end Conduct

end BlockBoard
