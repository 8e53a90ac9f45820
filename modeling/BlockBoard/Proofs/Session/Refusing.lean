import BlockBoard.Proofs.Link.Recorded
import BlockBoard.Proofs.Session.Idle
import BlockBoard.Proofs.Session.Watching
/-!
# Requests that are refused

A session refuses a request if it is in no state for it. It does so before it asks anything of the link:
once a request has been admitted, no later move of it can fail, and what fails is the board, the link or the
image.

- `SessionError.isRefusal`: the failures that say that a request is refused.
- `Session.Failed`: a session that has failed is in error and holds no link.
- `Conduct.Latches`: an operation refuses nothing, and wherever it fails the session has failed, unless a
  flash was cancelled.
- `Conduct.quiesce_cases`: how stopping a program ends.
- `Request.refusal?`: which requests a session refuses, and how.
- `Conduct.perform_of_refusal`, `Conduct.latches_perform`: **a session either refuses a request at once, or
  never**.
- `refused_unchanged`: **a request that is refused changes nothing**.
-/

namespace BlockBoard

/-- Whether a failure says that a request is refused: the session is in no state for it, or holds no
link. -/
def SessionError.isRefusal : SessionError → Bool
  | .invalidMove _ _ | .notConnected => true
  | _ => false

/-- What the board or the link fails with is no refusal. -/
theorem FromBoard.not_refusal {e : SessionError} (h : FromBoard e) : e.isRefusal = false := by
  rcases h with ⟨l, rfl⟩ | ⟨f, rfl⟩ <;> rfl

theorem Flash.Action.MayFail.not_refusal {a : Flash.Action} {e : SessionError} (h : a.MayFail e) :
    e.isRefusal = false := by
  cases e with
  | invalidMove source target => cases a <;> simp [Flash.Action.MayFail, FromBoard] at h
  | notConnected => cases a <;> simp [Flash.Action.MayFail, FromBoard] at h
  | _ => rfl

/-- A flash over a link refuses nothing. -/
theorem isRefusal_of_flash {σ : Type} [Transport σ] {j : Flash.Job} {cancelled : σ → Bool} {link : σ}
    {e : SessionError} (h : (flash j cancelled link).result = .error e) : e.isRefusal = false := by
  obtain ⟨r', hrun, -⟩ := outcome_of_error h
  rcases Flash.takeAll_failsOnly j cancelled j.plan _ _ (congrArg Prod.fst hrun) with
    ⟨written, l, rfl⟩ | ⟨s, -, hfails⟩
  · rfl
  · exact hfails.not_refusal

/-- A session that has failed is in error, and holds no link. -/
structure Session.Failed (s : Session) : Prop where
  state : s.state = .error
  linked : s.linked = false

theorem Desk.failed_abandoned {σ : Type} {d : Desk σ} (h : d.session.state.canMoveTo .error = true) :
    d.abandoned.session.Failed := by
  rw [Desk.abandoned, Desk.movedIfPossible, if_pos h]
  exact ⟨rfl, rfl⟩

namespace Conduct

variable {σ α β : Type}

/-! ## Failing for good -/

/-- An operation refuses nothing, and wherever it fails the session has failed, unless a flash was
cancelled. -/
def Latches (x : Conduct σ α) (d : Desk σ) : Prop :=
  ∀ e d', x.outcome d = (.error e, d') → e.isRefusal = false ∧ (e ≠ .cancelled → d'.session.Failed)

theorem latches_of_ok {x : Conduct σ α} {d d' : Desk σ} {a : α} (h : x.outcome d = (.ok a, d')) :
    Latches x d := by
  intro e d₁ hfails
  cases h.symm.trans hfails

theorem latches_of_never {x : Conduct σ α} (h : ∀ e, x.Never e) (d : Desk σ) : Latches x d :=
  fun e _ hfails => absurd hfails (h e).ne

theorem latches_bind {x : Conduct σ α} {f : α → Conduct σ β} {d : Desk σ} (hx : Latches x d)
    (hf : ∀ a d₁, x.outcome d = (.ok a, d₁) → Latches (f a) d₁) : Latches (x >>= f) d := by
  intro e d' h
  rcases Operation.bind_cases h with ⟨e', hfirst, he⟩ | ⟨a, d₁, hfirst, hsecond⟩
  · cases he
    exact hx e d' hfirst
  · exact hf a d₁ hfirst e d' hsecond

/-- A request latches if what it does before it answers does. -/
theorem latches_bind_pure {x : Conduct σ α} (f : α → β) {d : Desk σ} (hx : Latches x d) :
    Latches (x >>= fun a => pure (f a)) d :=
  latches_bind hx fun _ _ _ => latches_of_ok rfl

/-- What costs the link if it fails leaves nothing but the port changed, or gives up the link. -/
theorem orAbandon_onPort_cases {x : Operation σ SessionError α} {d d' : Desk σ}
    {result : Except SessionError α} (h : (orAbandon (onPort x)).outcome d = (result, d')) :
    ∃ port, x.outcome d.port = (result, port) ∧
      ((∃ a, result = .ok a) ∧ d' = { d with port } ∨
        (∃ e, result = .error e) ∧ ∃ notices, d' = { Desk.abandoned { d with port } with notices }) := by
  rcases hrun : x.outcome d.port with ⟨e | a, port⟩
  · have hport : (onPort x).outcome d = (.error e, { d with port }) := by rw [outcome_onPort, hrun]
    obtain ⟨notices, habandon⟩ := orAbandon_of_error hport
    cases habandon.symm.trans h
    exact ⟨port, rfl, .inr ⟨⟨e, rfl⟩, notices, rfl⟩⟩
  · have hport : (onPort x).outcome d = (.ok a, { d with port }) := by rw [outcome_onPort, hrun]
    cases (orAbandon_of_ok hport).symm.trans h
    exact ⟨port, rfl, .inl ⟨⟨a, rfl⟩, rfl⟩⟩

/-- A session that holds a link talks over it. -/
theorem orAbandon_onLink_of_linked (x : Operation σ SessionError α) {d : Desk σ}
    (h : d.session.linked = true) : (orAbandon (onLink x)).outcome d = (orAbandon (onPort x)).outcome d := by
  rw [orAbandon, outcome_attempt_bind, outcome_onLink, if_pos h, orAbandon, outcome_attempt_bind]

/-- What is asked of the link latches, wherever a session can fail. -/
theorem latches_orAbandon_onPort {x : Operation σ SessionError α} (hx : x.FailsOnly FromBoard) {d : Desk σ}
    (hstate : d.session.state.canMoveTo .error = true) : Latches (orAbandon (onPort x)) d := by
  intro e d' h
  obtain ⟨port, hrun, ⟨⟨a, ha⟩, -⟩ | ⟨-, notices, rfl⟩⟩ := orAbandon_onPort_cases h
  · cases ha
  · have hrefusal := (hx d.port e (by rw [hrun])).not_refusal
    have hfailed := Desk.failed_abandoned (d := { d with port }) hstate
    exact ⟨hrefusal, fun _ => ⟨hfailed.state, hfailed.linked⟩⟩

/-- What is said over a link latches, and leaves nothing but the port changed if it succeeds. -/
theorem latches_talk {x : Operation σ SessionError α} (hx : x.FailsOnly FromBoard) {f : α → Conduct σ β}
    {d : Desk σ} (hlinked : d.session.linked = true) (hstate : d.session.state.canMoveTo .error = true)
    (hf : ∀ a port, Latches (f a) { d with port }) : Latches (orAbandon (onLink x) >>= f) d := by
  refine latches_bind ?_ fun a d₁ h => ?_
  · intro e d'
    rw [orAbandon_onLink_of_linked x hlinked]
    exact latches_orAbandon_onPort hx hstate e d'
  · rw [orAbandon_onLink_of_linked x hlinked] at h
    obtain ⟨port, -, ⟨-, rfl⟩ | ⟨⟨e, he⟩, -⟩⟩ := orAbandon_onPort_cases h
    · exact hf a port
    · cases he

/-- What costs the link if it fails has succeeded over a link, and has changed nothing but the port. -/
theorem orAbandon_onLink_of_ok {x : Operation σ SessionError α} {d d' : Desk σ} {a : α}
    (h : (orAbandon (onLink x)).outcome d = (.ok a, d')) :
    d.session.linked = true ∧ ∃ port, x.outcome d.port = (.ok a, port) ∧ d' = { d with port } := by
  by_cases hlinked : d.session.linked = true
  · rw [orAbandon_onLink_of_linked x hlinked] at h
    obtain ⟨port, hrun, ⟨-, rfl⟩ | ⟨⟨e, he⟩, -⟩⟩ := orAbandon_onPort_cases h
    · exact ⟨hlinked, port, hrun, rfl⟩
    · cases he
  · have hfails : (onLink x).outcome d = (.error .notConnected, d) := by rw [outcome_onLink, if_neg hlinked]
    obtain ⟨notices, habandon⟩ := orAbandon_of_error hfails
    cases habandon.symm.trans h

/-- A session has a board at the other end and is not flashing, so that it can be asked for more. -/
def Attentive (s : Session) : Prop := s.state = .connected ∨ s.state = .running

/-- A session that can be asked for more can get to a program or a flash. -/
theorem require_of_attentive {next : SessionState} (hnext : next = .running ∨ next = .flashing) {d : Desk σ}
    (h : Attentive d.session) : (require next : Conduct σ Unit).outcome d = (.ok (), d) := by
  rw [outcome_require]
  rcases h with h | h <;> rcases hnext with rfl | rfl <;> rw [h] <;> rfl

section Transport

variable [Transport σ]

/-- **How stopping a program ends**: the program is stopped and the session is connected, or the link fails
and so does the session. Either way the port is left as the attempt leaves it. -/
theorem quiesce_cases {d d' : Desk σ} {result : Except SessionError Unit}
    (hstate : d.session.state = .running) (hlinked : d.session.linked = true)
    (h : (quiesce : Conduct σ Unit).outcome d = (result, d')) :
    ∃ port, (halt : Operation σ SessionError Unit).outcome d.port = (result, port) ∧ d'.port = port ∧
      (result = .ok () →
        d' = { d with port, session := { d.session with tail := [] } }.moved .connected) := by
  rw [outcome_quiesce, if_pos hstate] at h
  rcases Operation.bind_cases h with ⟨e, hstop, rfl⟩ | ⟨_, d₁, hstop, hrest⟩
  · rw [orAbandon_onLink_of_linked halt hlinked] at hstop
    obtain ⟨port, hhalt, ⟨⟨a, ha⟩, -⟩ | ⟨-, notices, rfl⟩⟩ := orAbandon_onPort_cases hstop
    · cases ha
    · exact ⟨port, hhalt, Desk.port_movedIfPossible _ _, nofun⟩
  · rw [orAbandon_onLink_of_linked halt hlinked] at hstop
    obtain ⟨port, hhalt, ⟨-, rfl⟩ | ⟨⟨e, he⟩, -⟩⟩ := orAbandon_onPort_cases hstop
    · have hmove : (move .connected : Conduct σ Unit).outcome
          { d with port, session := { d.session with tail := [] } } = (.ok (), _) :=
        outcome_move_of (by show SessionState.canMoveTo d.session.state _ = true; rw [hstate]; rfl)
      rw [Operation.bind_of_ok (outcome_update _ _)] at hrest
      cases hmove.symm.trans hrest
      exact ⟨port, hhalt, rfl, fun _ => rfl⟩
    · cases he

/-- Stopping a program over a link fails because of the link or the board. -/
theorem quiesce_fromBoard {d d' : Desk σ} {e : SessionError} (hlinked : d.session.linked = true)
    (h : (quiesce : Conduct σ Unit).outcome d = (.error e, d')) : FromBoard e := by
  by_cases hrunning : d.session.state = .running
  · obtain ⟨port, hhalt, -⟩ := quiesce_cases hrunning hlinked h
    exact halt_failsOnly d.port e (congrArg Prod.fst hhalt)
  · cases (quiesce_of_not_running hrunning).symm.trans h

/-- Stopping a program that runs, where it succeeds, leaves the session connected; where none runs, there is
nothing to do. -/
theorem quiesce_of_ok {d d' : Desk σ} (h : (quiesce : Conduct σ Unit).outcome d = (.ok (), d')) :
    d.session.state ≠ .running ∧ d' = d ∨ d.session.state = .running ∧ ∃ port,
      d' = { d with port, session := { d.session with tail := [] } }.moved .connected := by
  by_cases hrunning : d.session.state = .running
  · rw [outcome_quiesce, if_pos hrunning] at h
    obtain ⟨_, d₁, hstop, hrest⟩ := Operation.eq_ok_of_bind h
    obtain ⟨-, port, -, rfl⟩ := orAbandon_onLink_of_ok hstop
    rw [Operation.bind_of_ok (outcome_update _ _), outcome_move_of (by
      show SessionState.canMoveTo d.session.state .connected = true
      rw [hrunning]
      rfl)] at hrest
    cases hrest
    exact .inr ⟨hrunning, port, rfl⟩
  · cases (quiesce_of_not_running hrunning).symm.trans h
    exact .inl ⟨hrunning, rfl⟩

/-- Wherever stopping a program succeeds, the session is connected over its link. -/
theorem quiesce_ok {d d₁ : Desk σ} (hlinked : d.session.linked = true) (h : Attentive d.session)
    (hquiesce : (quiesce : Conduct σ Unit).outcome d = (.ok (), d₁)) :
    d₁.session.state = .connected ∧ d₁.session.linked = true := by
  rcases quiesce_of_ok hquiesce with ⟨hidle, rfl⟩ | ⟨-, port, rfl⟩
  · exact ⟨h.resolve_right hidle, hlinked⟩
  · exact ⟨rfl, hlinked⟩

/-- Stopping a program refuses nothing. -/
theorem latches_quiesce {d : Desk σ} (hlinked : d.session.linked = true) :
    Latches (quiesce : Conduct σ Unit) d := by
  by_cases hrunning : d.session.state = .running
  · have hmove : ∀ d₁ : Desk σ, d₁.session.state = .running →
        (move .connected : Conduct σ Unit).outcome d₁ = (.ok (), d₁.moved .connected) :=
      fun d₁ h => outcome_move_of (by rw [h]; rfl)
    have hstop : Latches (do
        orAbandon (onLink halt)
        update fun s => { s with tail := [] }
        move .connected : Conduct σ Unit) d :=
      latches_talk halt_failsOnly hlinked (by rw [hrunning]; rfl) fun _ port =>
        latches_of_ok ((Operation.bind_of_ok (outcome_update _ _)).trans (hmove _ hrunning))
    intro e d'
    rw [outcome_quiesce, if_pos hrunning]
    exact hstop e d'
  · exact latches_of_ok (quiesce_of_not_running hrunning)

/-- What begins with a move to a program or a flash, once a running program is stopped, refuses nothing. -/
theorem latches_begin {next : SessionState} (hnext : next = .running ∨ next = .flashing) {x : Conduct σ α}
    {d : Desk σ} (hlinked : d.session.linked = true) (h : Attentive d.session)
    (hx : ∀ d₁ : Desk σ, d₁.session.state = next → d₁.session.linked = true → Latches x d₁) :
    Latches (do quiesce; move next; x : Conduct σ α) d := by
  refine latches_bind (latches_quiesce hlinked) fun _ d₁ hquiesce => ?_
  obtain ⟨hstate, hlinked⟩ := quiesce_ok hlinked h hquiesce
  have hmove : (move next : Conduct σ Unit).outcome d₁ = (.ok (), d₁.moved next) :=
    outcome_move_of (by rw [hstate]; rcases hnext with rfl | rfl <;> rfl)
  refine latches_bind (latches_of_ok hmove) fun _ d₂ h₂ => ?_
  cases hmove.symm.trans h₂
  exact hx _ rfl hlinked

theorem latches_stop {d : Desk σ} (hlinked : d.session.linked = true) (h : Attentive d.session) :
    Latches (stop : Conduct σ Unit) d := by
  intro e d'
  rw [stop, outcome_session_bind]
  rcases h with h | h
  · intro hrun
    rw [h] at hrun
    cases hrun
  · rw [h]
    exact latches_quiesce hlinked e d'

theorem latches_run (p : Program) {d : Desk σ} (hlinked : d.session.linked = true)
    (h : Attentive d.session) : Latches (run p : Conduct σ Unit) d := by
  have hrequire := require_of_attentive (.inl rfl) h
  refine latches_bind (latches_of_ok hrequire) fun _ d₁ h₁ => ?_
  cases hrequire.symm.trans h₁
  refine latches_begin (.inl rfl) hlinked h fun d₂ hstate hlinked => ?_
  intro e d'
  rw [timeout, bind_assoc, outcome_session_bind, pure_bind]
  refine latches_talk (upload_program_failsOnly _ _) hlinked (by rw [hstate]; rfl) (fun begun port => ?_) e d'
  exact latches_bind (latches_of_ok (outcome_update _ _)) fun _ d₃ _ =>
    latches_of_never (fun e => relay_never e begun) d₃

theorem latches_saveProgram (p : Program) {d : Desk σ} (hlinked : d.session.linked = true)
    (h : Attentive d.session) : Latches (saveProgram p : Conduct σ Unit) d := by
  refine latches_begin (.inl rfl) hlinked h fun d₂ hstate hlinked => ?_
  intro e d'
  rw [timeout, bind_assoc, outcome_session_bind, pure_bind, orAbandon_onLink_of_linked _ hlinked]
  exact latches_orAbandon_onPort (writeBootProgram_failsOnly _ p) (by rw [hstate]; rfl) e d'

theorem latches_save (p : Program) {d : Desk σ} (hlinked : d.session.linked = true)
    (h : Attentive d.session) : Latches (save p : Conduct σ SaveOutcome) d := by
  intro e d'
  rw [outcome_save, if_neg (by rcases h with h | h <;> rw [h] <;> decide)]
  split
  · nofun
  · exact latches_bind (latches_saveProgram p hlinked h) (fun _ _ _ => latches_of_ok rfl) e d'

/-- A flash over the link refuses nothing, and a flash that fails costs the link unless it was
cancelled. -/
theorem latches_deliver {cancelled : σ → Bool} {j : Flash.Job} {d : Desk σ}
    (hstate : d.session.state = .flashing) (hlinked : d.session.linked = true) :
    Latches (deliver cancelled j) d := by
  intro e d' h
  obtain ⟨port, progress, notices, ⟨⟨report, hok⟩ | hcancelled, -⟩ | ⟨later, ⟨e', he, hsend⟩, rfl⟩⟩ :=
    deliver_cases hstate h
  · cases hok
  · cases hcancelled
    exact ⟨rfl, fun hne => absurd rfl hne⟩
  · cases he
    rw [outcome_sendImage, if_pos hlinked] at hsend
    have hfailed := Desk.failed_abandoned (d := { d with port, progress, notices })
      (by show SessionState.canMoveTo d.session.state _ = true; rw [hstate]; rfl)
    exact ⟨isRefusal_of_flash hsend, fun _ => ⟨hfailed.state, hfailed.linked⟩⟩

theorem latches_flash (cancelled : σ → Bool) (image : List UInt8) (expected : Nat) {d : Desk σ}
    (hlinked : d.session.linked = true) (h : Attentive d.session) :
    Latches (flash cancelled image expected) d := by
  have hbegun : Attentive (begun image d).session := h
  have hflash : Latches (do
      quiesce
      move .flashing
      let s ← session
      deliver cancelled ⟨s.device, s.flashing, image, expected⟩ : Conduct σ FlashReport) (begun image d) := by
    refine latches_begin (.inr rfl) hlinked hbegun fun d₁ hstate hlinked e d' => ?_
    rw [outcome_session_bind]
    exact latches_deliver hstate hlinked e d'
  intro e d'
  rw [outcome_flash, Operation.bind_of_ok (require_of_attentive (.inr rfl) hbegun)]
  exact hflash e d'

end Transport

/-- Opening a link refuses nothing where there is none. -/
theorem latches_connect [Connector σ] {d : Desk σ} (h : d.session.state = .disconnected) :
    Latches (connect : Conduct σ Unit) d := by
  have hmove : (move .connecting : Conduct σ Unit).outcome d = (.ok (), d.moved .connecting) :=
    outcome_move_of (by rw [h]; rfl)
  have hopen : ∀ settings, ((Operation.of (Connector.openLink settings)).mapError .link :
      Operation σ SessionError String).FailsOnly FromBoard :=
    fun _ => Operation.failsOnly_mapError (fun l => .inl ⟨l, rfl⟩) _
  intro e d'
  rw [connect, Operation.bind_of_ok hmove, outcome_session_bind]
  refine latches_bind (latches_orAbandon_onPort (hopen _) rfl) (fun _ d₁ h₁ => ?_) e d'
  obtain ⟨port, -, ⟨-, rfl⟩ | ⟨⟨e, he⟩, -⟩⟩ := orAbandon_onPort_cases h₁
  · exact latches_of_ok ((Operation.bind_of_ok (outcome_update _ _)).trans (outcome_move_of rfl))
  · cases he

/-! ## Requests -/

instance (s : Session) : Decidable (Attentive s) := inferInstanceAs (Decidable (_ ∨ _))

/-- A session that cannot be asked for more is disconnected, or has failed. -/
theorem state_of_not_attentive {s : Session} (hs : s.Sound) (h : ¬ Attentive s) :
    s.state = .disconnected ∨ s.state = .error := by
  rcases hs.state_cases with hstate | hstate | hstate | hstate
  · exact .inl hstate
  · exact absurd (.inl hstate) h
  · exact absurd (.inr hstate) h
  · exact .inr hstate

end Conduct

open Conduct in
/-- How a session refuses a request, if it does: a link is opened only where there is none, and all else
needs a board at the other end. Nobody is kept from disconnecting, or from looking at the terminal. -/
def Request.refusal? (s : Session) : Request → Option SessionError
  | connect => if s.state = .disconnected then none else some (.invalidMove s.state .connecting)
  | stop => if Attentive s then none else some (.invalidMove s.state .connected)
  | run _ | save _ => if Attentive s then none else some (.invalidMove s.state .running)
  | flash _ _ => if Attentive s then none else some (.invalidMove s.state .flashing)
  | input _ => if Attentive s then none else some .notConnected
  | disconnect | clear | snapshot => none

theorem Request.isRefusal_of_refusal? {r : Request} {s : Session} {e : SessionError}
    (h : r.refusal? s = some e) : e.isRefusal = true := by
  cases r <;> rw [refusal?] at h
  case disconnect | clear | snapshot => cases h
  all_goals
    split at h <;> cases h
    rfl

namespace Conduct

variable {σ : Type}

/-- **A request that is refused ends at once.** All that may change is that a flash has been announced. -/
theorem perform_of_refusal [Connector σ] (cancelled : σ → Bool) {r : Request} {d : Desk σ}
    {e : SessionError} (hd : d.session.Sound) (h : r.refusal? d.session = some e) :
    ∃ progress, (r.perform cancelled).outcome d = (.error e, { d with progress }) := by
  have hrefused : ∀ e', (if Attentive d.session then none else some e') = some e →
      (d.session.state = .disconnected ∨ d.session.state = .error) ∧ e' = e := by
    intro e' h
    split at h
    · cases h
    · exact ⟨state_of_not_attentive hd ‹_›, Option.some.inj h⟩
  cases r with
  | connect =>
    rw [Request.refusal?] at h
    split at h
    · cases h
    rename_i hne
    cases h
    refine ⟨d.progress, Operation.bind_of_error (Operation.bind_of_error ?_)⟩
    rw [outcome_move, if_neg]
    rcases hd.state_cases with hstate | hstate | hstate | hstate
    · exact absurd hstate hne
    all_goals rw [hstate]; decide
  | stop =>
    obtain ⟨hstate, rfl⟩ := hrefused _ h
    refine ⟨d.progress, Operation.bind_of_error ?_⟩
    rw [stop, outcome_session_bind]
    rcases hstate with hstate | hstate <;> rw [hstate] <;> rfl
  | run p =>
    obtain ⟨hstate, rfl⟩ := hrefused _ h
    refine ⟨d.progress, Operation.bind_of_error (Operation.bind_of_error ?_)⟩
    rw [outcome_require]
    rcases hstate with hstate | hstate <;> rw [hstate] <;> rfl
  | save p =>
    obtain ⟨hstate, rfl⟩ := hrefused _ h
    refine ⟨d.progress, Operation.bind_of_error ?_⟩
    rw [outcome_save]
    rcases hstate with hstate | hstate <;> rw [hstate] <;> rfl
  | flash image expected =>
    obtain ⟨hstate, rfl⟩ := hrefused _ h
    refine ⟨[⟨0, image.length⟩], Operation.bind_of_error ?_⟩
    rw [outcome_flash]
    refine Operation.bind_of_error ?_
    rw [outcome_require]
    have hbegun : (begun image d).session.state = d.session.state := rfl
    rw [hbegun]
    rcases hstate with hstate | hstate <;> rw [hstate] <;> rfl
  | input bs =>
    obtain ⟨hstate, rfl⟩ := hrefused _ h
    refine ⟨d.progress, Operation.bind_of_error ?_⟩
    rw [input, outcome_session_bind]
    rcases hstate with hstate | hstate <;> rw [hstate] <;> rfl
  | disconnect | clear | snapshot => cases h

/-- **A request that is admitted refuses nothing**, and if it fails the session has failed, unless a flash
was cancelled. -/
theorem latches_perform [Connector σ] (cancelled : σ → Bool) {r : Request} {d : Desk σ}
    (hd : d.session.Sound) (hr : ∀ bs, r ≠ .input bs) (h : r.refusal? d.session = none) :
    Latches (r.perform cancelled) d := by
  have hready : ∀ e : SessionError, (if Attentive d.session then none else some e) = none →
      d.session.linked = true ∧ Attentive d.session := by
    intro e h
    split at h
    · exact ⟨hd.linked_iff.mpr ‹_›, ‹_›⟩
    · cases h
  cases r with
  | connect =>
    rw [Request.refusal?] at h
    split at h
    · exact latches_bind_pure _ (latches_connect ‹_›)
    · cases h
  | stop =>
    obtain ⟨hlinked, hattentive⟩ := hready _ h
    exact latches_bind_pure _ (latches_stop hlinked hattentive)
  | run p =>
    obtain ⟨hlinked, hattentive⟩ := hready _ h
    exact latches_bind_pure _ (latches_run p hlinked hattentive)
  | save p =>
    obtain ⟨hlinked, hattentive⟩ := hready _ h
    exact latches_bind_pure _ (latches_save p hlinked hattentive)
  | flash image expected =>
    obtain ⟨hlinked, hattentive⟩ := hready _ h
    exact latches_bind_pure _ (latches_flash cancelled image expected hlinked hattentive)
  | disconnect => exact latches_bind_pure _ (latches_of_ok (outcome_disconnect d))
  | clear => exact latches_bind_pure _ (latches_of_ok (outcome_update _ d))
  | snapshot => exact latches_bind_pure _ (latches_of_ok (outcome_session d))
  | input bs => exact absurd rfl (hr bs)

/-- What is typed goes to the board, and the link is lost if it does not reach it. -/
theorem outcome_input [Transport σ] {bs : List UInt8} {d : Desk σ} {answer : Except LinkError Unit}
    {port : σ} (hlinked : d.session.linked = true) (h : Attentive d.session)
    (hwrite : Transport.write bs d.port = (answer, port)) :
    (input bs : Conduct σ Unit).outcome d =
      (match answer.mapError SessionError.link with
        | .ok () => pure ()
        | .error e => do
          lose e.message
          throw e : Conduct σ Unit).outcome { d with port } := by
  have hadmit : ¬ (d.session.state ≠ .connected ∧ d.session.state ≠ .running) := by
    rintro ⟨hne, hne'⟩
    exact h.elim hne hne'
  have hsend : (onPort ((send bs).mapError .link) : Conduct σ Unit).outcome d =
      (answer.mapError .link, { d with port }) := by
    rw [outcome_onPort, Operation.outcome_mapError]
    show ((Transport.write bs d.port).1.mapError _, { d with port := (Transport.write bs d.port).2 }) = _
    rw [hwrite]
  have hattempt : (attempt (onPort ((send bs).mapError .link)) : Conduct σ _).outcome d =
      (.ok (answer.mapError .link), { d with port }) := by
    rw [outcome_attempt, hsend]
  rw [input, outcome_session_bind]
  dsimp only
  rw [if_neg hadmit, hlinked]
  exact Operation.bind_of_ok hattempt

/-- What is typed reaches the board, or the link is lost. -/
theorem input_cases [Connector σ] (cancelled : σ → Bool) {bs : List UInt8} {d d' : Desk σ}
    {result : Except SessionError Reply} (hlinked : d.session.linked = true) (h : Attentive d.session)
    (hinput : ((Request.input bs).perform cancelled).outcome d = (result, d')) :
    ∃ answer port, Transport.write bs d.port = (answer, port) ∧
      ((answer = .ok () ∧ result = .ok .done ∧ d' = { d with port }) ∨
        ∃ l, answer = .error l ∧ result = .error (.link l) ∧
          (lose (SessionError.link l).message).outcome { d with port } = (.ok (), d')) := by
  rcases hwrite : Transport.write bs d.port with ⟨answer, port⟩
  have hrest := outcome_input hlinked h hwrite
  replace hinput : (input bs >>= fun _ => pure Reply.done : Conduct σ Reply).outcome d = (result, d') :=
    hinput
  cases answer with
  | ok a =>
    rw [Operation.bind_of_ok hrest] at hinput
    cases hinput
    exact ⟨_, port, rfl, .inl ⟨rfl, rfl, rfl⟩⟩
  | error l =>
    have hlose := outcome_lose (σ := σ) (SessionError.link l).message { d with port }
    rw [Operation.bind_of_error (hrest.trans (Operation.bind_of_ok hlose))] at hinput
    cases hinput
    exact ⟨_, port, rfl, .inr ⟨l, rfl, rfl, hlose⟩⟩

/-- **A request that is admitted is never refused afterwards.** -/
theorem refusal?_of_isRefusal [Connector σ] (cancelled : σ → Bool) {r : Request} {d d' : Desk σ}
    {e : SessionError} (hd : d.session.Sound) (h : (r.perform cancelled).outcome d = (.error e, d'))
    (he : e.isRefusal = true) : r.refusal? d.session = some e := by
  cases hrefusal : r.refusal? d.session with
  | some e' =>
    obtain ⟨progress, hends⟩ := perform_of_refusal cancelled hd hrefusal
    cases hends.symm.trans h
    rfl
  | none =>
    exfalso
    by_cases hr : ∀ bs, r ≠ .input bs
    · obtain ⟨hnot, -⟩ := latches_perform cancelled hd hr hrefusal e d' h
      rw [he] at hnot
      cases hnot
    · obtain ⟨bs, rfl⟩ : ∃ bs, r = .input bs := by simpa using hr
      rw [Request.refusal?] at hrefusal
      split at hrefusal
      · obtain ⟨answer, port, -, ⟨-, hok, -⟩ | ⟨l, -, hlost, -⟩⟩ :=
          input_cases cancelled (hd.linked_iff.mpr ‹_›) ‹_› h
        · cases hok
        · cases hlost
          cases he
      · cases hrefusal

end Conduct

open Conduct in
/-- **A request that is refused changes nothing.**

For all settings, every link and every history: if a request fails because the session is in no state for
it, or holds no link, then nothing has been asked of the link, and the session, what it has announced and
the port are what they were before. The record of the calls changes nothing: every session that can be reached
is behind one whose link is recorded, and the two go the same way. -/
theorem refused_unchanged {σ : Type} [Connector σ] {s : Settings} {d d' : Desk (Recorded σ)}
    (h : d.Reachable s) (cancelled : Recorded σ → Bool) (r : Request) {e : SessionError}
    (hr : (r.perform cancelled).outcome d = (.error e, d')) (he : e.isRefusal = true) :
    d'.port.calls = d.port.calls ∧ d'.port.link = d.port.link ∧ d'.session = d.session ∧
      d'.events = d.events ∧ Recorded.Transparent σ := by
  have hsound := h.sound.1
  obtain ⟨progress, hends⟩ :=
    perform_of_refusal cancelled hsound (refusal?_of_isRefusal cancelled hsound hr he)
  cases hends.symm.trans hr
  exact ⟨rfl, rfl, rfl, rfl, Recorded.transparent σ⟩

/-- A session whose link is being watched runs a program that never ends. -/
def watchedDesk : Desk (Recorded Board) :=
  ((Desk.start smallBlocks.device smallBlocks.flash smallBlocks.maxLines.toNat ⟨{}, []⟩).after
    (.request (fun _ => false) .connect)).after (.request (fun _ => false) (.run endlessProgram))

theorem watchedDesk_reachable : watchedDesk.Reachable smallBlocks :=
  ((Desk.Reachable.start _).after _).after _

theorem refused_unchanged_running :
    watchedDesk.Reachable smallBlocks ∧ watchedDesk.session.state = .running ∧
    watchedDesk.port.calls ≠ [] ∧
    ∃ d', (Request.connect.perform fun _ => false).outcome watchedDesk =
        (.error (.invalidMove .running .connecting), d') ∧
      d'.port.calls = watchedDesk.port.calls ∧ d'.session = watchedDesk.session ∧
      d'.events = watchedDesk.events := by
  have hdesk : watchedDesk.session.state = .running ∧ watchedDesk.port.calls ≠ [] := by decide +kernel
  obtain ⟨hstate, hcalls⟩ := hdesk
  have hrefusal : Request.connect.refusal? watchedDesk.session =
      some (.invalidMove .running .connecting) := by
    rw [Request.refusal?, hstate]
    rfl
  obtain ⟨progress, hends⟩ :=
    Conduct.perform_of_refusal (fun _ => false) watchedDesk_reachable.sound.1 hrefusal
  obtain ⟨hport, -, hsession, hevents, -⟩ :=
    refused_unchanged watchedDesk_reachable (fun _ => false) .connect hends rfl
  exact ⟨watchedDesk_reachable, hstate, hcalls, _, hends, hport, hsession, hevents⟩

end BlockBoard
