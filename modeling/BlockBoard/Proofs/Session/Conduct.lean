import BlockBoard.Proofs.Link.Operation
import BlockBoard.Session.Conduct
/-!
# Reasoning about the conduct of a session

What the parts of a request come to: looking at what the session remembers, moving to another state,
giving up the link, stopping a program. No proof about a request has to look inside them.

- `Conduct.outcome_move`, `Conduct.outcome_abandon`, `Conduct.outcome_onLink`: the parts.
- `Conduct.relates_quiesce`: stopping a program keeps relations between states of the port.
- `Conduct.flash_cancelled`: **how a flash goes that is cancelled**.
-/

namespace BlockBoard

/-- A session at work after it has moved to another state. -/
def Desk.moved {σ : Type} (d : Desk σ) (next : SessionState) : Desk σ :=
  { d with
    session := { d.session with state := next, status := next }
    events := d.events ++ [.stateChanged next] }

/-- A session at work that has moved to another state, if that was possible. -/
def Desk.movedIfPossible {σ : Type} (d : Desk σ) (next : SessionState) : Desk σ :=
  if d.session.state.canMoveTo next then d.moved next else d

/-- A session at work that has given up its link after a failure. -/
def Desk.abandoned {σ : Type} (d : Desk σ) : Desk σ :=
  { d with session := { d.session with linked := false } }.movedIfPossible .error

/-- A session at work that has no link any more, and remembers nothing of it. -/
def Desk.closed {σ : Type} (d : Desk σ) : Desk σ :=
  { d with session := { d.session with linked := false, saved := none, tail := [] } }.movedIfPossible
    .disconnected

/-- A session at work that has passed on some output, and keeps an end of it. -/
def Desk.told {σ : Type} (d : Desk σ) (bs tail : List UInt8) : Desk σ :=
  { d with
    session := { d.session with scrollback := (d.session.scrollback.push bs).2, tail }
    events := d.events ++ [.output (utf8Text bs)] }

@[simp] theorem Desk.port_movedIfPossible {σ : Type} (d : Desk σ) (next : SessionState) :
    (d.movedIfPossible next).port = d.port := by
  unfold movedIfPossible
  split <;> rfl

namespace Conduct

variable {σ α β : Type}

/-! ## The parts of a request -/

@[simp] theorem outcome_session (d : Desk σ) :
    (session : Conduct σ Session).outcome d = (.ok d.session, d) := rfl

@[simp] theorem outcome_update (f : Session → Session) (d : Desk σ) :
    (update f : Conduct σ Unit).outcome d = (.ok (), { d with session := f d.session }) := rfl

@[simp] theorem outcome_announce (e : SessionEvent) (d : Desk σ) :
    (announce e : Conduct σ Unit).outcome d = (.ok (), { d with events := d.events ++ [e] }) := rfl

@[simp] theorem outcome_warn (n : Notice) (d : Desk σ) :
    (warn n : Conduct σ Unit).outcome d = (.ok (), { d with notices := d.notices ++ [n] }) := rfl

@[simp] theorem outcome_attempt (x : Conduct σ α) (d : Desk σ) :
    (attempt x).outcome d = (.ok (x.outcome d).1, (x.outcome d).2) := rfl

@[simp] theorem outcome_onPort (x : Operation σ SessionError α) (d : Desk σ) :
    (onPort x).outcome d =
      ((x.outcome d.port).1, { d with port := (x.outcome d.port).2 }) := rfl

/-- Looking at what the session remembers changes nothing. -/
theorem outcome_session_bind (f : Session → Conduct σ α) (d : Desk σ) :
    (session >>= f).outcome d = (f d.session).outcome d :=
  Operation.bind_of_ok rfl

theorem outcome_attempt_bind (x : Conduct σ α) (f : Except SessionError α → Conduct σ β) (d : Desk σ) :
    (attempt x >>= f).outcome d = (f (x.outcome d).1).outcome (x.outcome d).2 :=
  Operation.bind_of_ok rfl

theorem outcome_onLink (x : Operation σ SessionError α) (d : Desk σ) :
    (onLink x).outcome d =
      if d.session.linked then (onPort x).outcome d else (.error .notConnected, d) := by
  rw [onLink, outcome_session_bind]
  split <;> rfl

theorem onLink_of_ok {x : Operation σ SessionError α} {d : Desk σ} {a : α} {port : σ}
    (hlinked : d.session.linked = true) (h : x.outcome d.port = (.ok a, port)) :
    (onLink x).outcome d = (.ok a, { d with port }) := by
  rw [outcome_onLink, if_pos hlinked, outcome_onPort, h]

/-- A move is made if it is possible, and fails otherwise. -/
theorem outcome_move (next : SessionState) (d : Desk σ) :
    (move next).outcome d =
      if d.session.state.canMoveTo next then (.ok (), d.moved next)
      else (.error (.invalidMove d.session.state next), d) := by
  rw [move, outcome_session_bind]
  split <;> rfl

theorem outcome_move_of {next : SessionState} {d : Desk σ}
    (h : d.session.state.canMoveTo next = true) : (move next).outcome d = (.ok (), d.moved next) := by
  rw [outcome_move, if_pos h]

theorem outcome_require (next : SessionState) (d : Desk σ) :
    (require next : Conduct σ Unit).outcome d =
      if !d.session.state.canMoveTo next && d.session.state != .running then
        (.error (.invalidMove d.session.state next), d)
      else (.ok (), d) := by
  rw [require, outcome_session_bind]
  dsimp only
  split <;> rfl

theorem outcome_moveIfPossible (next : SessionState) (d : Desk σ) :
    (moveIfPossible next).outcome d = (.ok (), d.movedIfPossible next) := by
  rw [moveIfPossible, outcome_attempt_bind, outcome_move, Desk.movedIfPossible]
  split <;> rfl

/-- Nothing fails while the link is given up. -/
theorem outcome_abandon (e : SessionError) (d : Desk σ) :
    ∃ notices, (abandon e).outcome d = (.ok (), { d.abandoned with notices }) := by
  rw [abandon, Operation.bind_of_ok (outcome_warn _ _), Operation.bind_of_ok (outcome_update _ _),
    outcome_attempt_bind, outcome_move, Desk.abandoned, Desk.movedIfPossible]
  by_cases h : d.session.state.canMoveTo .error = true
  · rw [if_pos h, if_pos h]
    exact ⟨_, rfl⟩
  · rw [if_neg h, if_neg h]
    exact ⟨_, rfl⟩

/-- Nothing fails when the link is lost. -/
theorem outcome_lose (reason : String) (d : Desk σ) :
    (lose reason).outcome d =
      (.ok (), Desk.closed { d with
        events := d.events ++ [.disconnected reason]
        notices := d.notices ++ [.connectionLost reason] }) := by
  rw [lose, Operation.bind_of_ok (outcome_warn _ _), Operation.bind_of_ok (outcome_update _ _),
    Operation.bind_of_ok (outcome_announce _ _), outcome_moveIfPossible]
  rfl

theorem outcome_disconnect (d : Desk σ) :
    (disconnect : Conduct σ Unit).outcome d = (.ok (), d.closed) := by
  rw [disconnect, Operation.bind_of_ok (outcome_update _ _), outcome_moveIfPossible]
  rfl

theorem orAbandon_of_ok {x : Conduct σ α} {d d' : Desk σ} {a : α} (h : x.outcome d = (.ok a, d')) :
    (orAbandon x).outcome d = (.ok a, d') := by
  rw [orAbandon, outcome_attempt_bind, h]
  rfl

/-- What costs the link if it fails fails in the way that it would by itself. -/
theorem orAbandon_of_error {x : Conduct σ α} {d d₁ : Desk σ} {e : SessionError}
    (h : x.outcome d = (.error e, d₁)) :
    ∃ notices, (orAbandon x).outcome d = (.error e, { d₁.abandoned with notices }) := by
  obtain ⟨notices, habandon⟩ := outcome_abandon e d₁
  rw [orAbandon, outcome_attempt_bind, h]
  exact ⟨notices, Operation.bind_of_ok habandon⟩

/-- The states of the port before and after are in a relation. -/
def OnPort (R : σ → σ → Prop) (d d' : Desk σ) : Prop := R d.port d'.port

theorem relates_onLink_port {R : σ → σ → Prop} (hrefl : ∀ s, R s s) {x : Operation σ SessionError α}
    (h : x.Relates R) : (onLink x).Relates (OnPort R) := by
  intro d
  rw [outcome_onLink]
  split
  · exact h d.port
  · exact hrefl d.port

theorem relates_orAbandon_port {R : σ → σ → Prop} {x : Conduct σ α} (h : x.Relates (OnPort R)) :
    (orAbandon x).Relates (OnPort R) := by
  intro d
  have hx := h d
  rcases hrun : x.outcome d with ⟨e | a, d₁⟩
  · obtain ⟨notices, habandon⟩ := orAbandon_of_error hrun
    rw [hrun] at hx
    rw [habandon]
    simpa [OnPort, Desk.abandoned] using hx
  · rw [hrun] at hx
    rwa [orAbandon_of_ok hrun]

theorem orAbandon_never {e : SessionError} {x : Conduct σ α} (h : x.Never e) : (orAbandon x).Never e := by
  intro d
  rcases hrun : x.outcome d with ⟨e' | a, d₁⟩
  · obtain ⟨notices, habandon⟩ := orAbandon_of_error hrun
    rw [habandon]
    rintro heq
    cases heq
    exact h.ne hrun
  · rw [orAbandon_of_ok hrun]
    nofun

theorem relates_move_port {R : σ → σ → Prop} (hrefl : ∀ s, R s s) (next : SessionState) :
    (move next : Conduct σ Unit).Relates (OnPort R) := by
  intro d
  rw [outcome_move]
  split <;> exact hrefl d.port

theorem move_never_cancelled (next : SessionState) : (move next : Conduct σ Unit).Never .cancelled := by
  intro d
  rw [outcome_move]
  split <;> simp

/-! ## Passing on output -/

theorem outcome_relay_nil (d : Desk σ) : (relay []).outcome d = (.ok (), d) := rfl

/-- **Output is shown and announced.** If a program runs, the mark of its end is looked for in what was kept
of the output before it and in the output itself. -/
theorem outcome_relay {bs : List UInt8} (hne : bs ≠ []) (d : Desk σ) :
    (relay bs).outcome d = (.ok (),
      if d.session.state = .running then
        if containsBytes (d.session.tail ++ bs) finishMark then (d.told bs []).movedIfPossible .connected
        else d.told bs (lastByte (d.session.tail ++ bs))
      else d.told bs d.session.tail) := by
  unfold relay
  rw [if_neg (by simpa using hne)]
  by_cases hrunning : d.session.state = .running
  · rw [if_pos hrunning, Operation.bind_of_ok (outcome_update _ _), Operation.bind_of_ok (outcome_announce _ _),
      outcome_session_bind, if_pos hrunning]
    dsimp only
    split
    · rw [Operation.bind_of_ok (outcome_update _ _), outcome_moveIfPossible]
      rfl
    · rfl
  · rw [if_neg hrunning, Operation.bind_of_ok (outcome_update _ _),
      Operation.bind_of_ok (outcome_announce _ _), outcome_session_bind, if_neg hrunning]
    rfl

/-! ## Stopping a program -/

section Quiesce

variable [Transport σ]

/-- What is sent to stop a program. -/
def interruption : List UInt8 := [carriageReturn, ctrlC, ctrlC]

/-- What is sent to leave the raw prompt. -/
def leave : List UInt8 := [carriageReturn, ctrlB]

/-- Stops a program, and leaves the raw prompt. -/
def halt : Operation σ SessionError Unit := do
  RawMode.interrupt
  RawMode.exit

theorem relates_halt {R : σ → σ → Prop} (hR : Transport.Steady R)
    (hinterrupt : ∀ s, R s (Transport.write interruption s).2)
    (hleave : ∀ s, R s (Transport.write leave s).2) :
    (halt : Operation σ SessionError Unit).Relates R := by
  have hsend : (do send interruption; let _ ← drain : Operation σ LinkError Unit).Relates R := by
    refine Operation.relates_bind hR.trans hinterrupt fun _ => ?_
    exact Operation.relates_bind hR.trans (relates_drain hR) fun _ => hR.refl
  exact Operation.relates_bind hR.trans (Operation.relates_mapError hsend) fun _ =>
    Operation.relates_mapError hleave

theorem halt_never_cancelled : (halt : Operation σ SessionError Unit).Never .cancelled :=
  Operation.never_bind (Operation.never_mapError (by nofun) _) fun _ =>
    Operation.never_mapError (by nofun) _

/-- A program is stopped only if one runs. -/
theorem outcome_quiesce (d : Desk σ) :
    (quiesce : Conduct σ Unit).outcome d =
      if d.session.state = .running then
        (do
          orAbandon (onLink halt)
          update fun s => { s with tail := [] }
          move .connected : Conduct σ Unit).outcome d
      else (.ok (), d) := by
  rw [quiesce, outcome_session_bind]
  split <;> rfl

/-- Stopping a program keeps a relation between states of the port that admits what is sent. -/
theorem relates_quiesce {R : σ → σ → Prop} (hR : Transport.Steady R)
    (hinterrupt : ∀ s, R s (Transport.write interruption s).2)
    (hleave : ∀ s, R s (Transport.write leave s).2) :
    (quiesce : Conduct σ Unit).Relates (OnPort R) := by
  have htrans : ∀ d d' d'' : Desk σ, OnPort R d d' → OnPort R d' d'' → OnPort R d d'' :=
    fun _ _ _ => hR.trans _ _ _
  have hstop : (do
      orAbandon (onLink halt)
      update fun s => { s with tail := [] }
      move .connected : Conduct σ Unit).Relates (OnPort R) := by
    refine Operation.relates_bind htrans
      (relates_orAbandon_port (relates_onLink_port hR.refl (relates_halt hR hinterrupt hleave)))
      fun _ => ?_
    exact Operation.relates_bind htrans (fun d => hR.refl d.port) fun _ =>
      relates_move_port hR.refl .connected
  intro d
  rw [outcome_quiesce]
  split
  · exact hstop d
  · exact hR.refl d.port

theorem quiesce_never_cancelled : (quiesce : Conduct σ Unit).Never .cancelled := by
  have hhalt : (onLink halt : Conduct σ Unit).Never .cancelled := by
    intro d
    rw [outcome_onLink]
    split
    · exact halt_never_cancelled d.port
    · simp
  have hstop : (do
      orAbandon (onLink halt)
      update fun s => { s with tail := [] }
      move .connected : Conduct σ Unit).Never .cancelled :=
    Operation.never_bind (orAbandon_never hhalt) fun _ =>
      Operation.never_bind (fun _ => by simp) fun _ => move_never_cancelled .connected
  intro d
  rw [outcome_quiesce]
  split
  · exact hstop d
  · simp

/-- A running program is stopped, and the session is connected again. -/
theorem quiesce_of_halt {d : Desk σ} {port : σ} (hstate : d.session.state = .running)
    (hlinked : d.session.linked = true) (h : (halt : Operation σ SessionError Unit).outcome d.port =
      (.ok (), port)) :
    (quiesce : Conduct σ Unit).outcome d =
      (.ok (), { d with port, session := { d.session with tail := [] } }.moved .connected) := by
  rw [outcome_quiesce, if_pos hstate, Operation.bind_of_ok (orAbandon_of_ok (onLink_of_ok hlinked h)),
    Operation.bind_of_ok (outcome_update _ _)]
  exact outcome_move_of (by show SessionState.canMoveTo d.session.state _ = true; rw [hstate]; rfl)

/-- Nothing is stopped where nothing runs. -/
theorem quiesce_of_not_running {d : Desk σ} (h : d.session.state ≠ .running) :
    (quiesce : Conduct σ Unit).outcome d = (.ok (), d) := by
  rw [outcome_quiesce, if_neg h]

/-! ## Flashing -/

/-- A session at work that begins to flash an image. -/
def begun (image : List UInt8) (d : Desk σ) : Desk σ := { d with progress := [⟨0, image.length⟩] }

/-- What a session is to flash. -/
def job (d : Desk σ) (image : List UInt8) (expected : Nat) : Flash.Job :=
  ⟨d.session.device, d.session.flashing, image, expected⟩

/-- A session at work after a flash over its port. -/
def sent (d : Desk σ) (f : Flashed σ) : Desk σ :=
  { d with port := f.link, progress := f.progress, notices := d.notices ++ f.notices }

/-- What a session does once it has moved to flashing. -/
def deliver (cancelled : σ → Bool) (j : Flash.Job) : Conduct σ FlashReport := do
  match ← attempt (sendImage cancelled j) with
  | .ok r =>
    move .connected
    return r
  | .error .cancelled =>
    if (← session).linked then
      match ← attempt (onPort ((Operation.of Transport.hardReset).mapError .link)) with
      | .error (.link e) => warn (.resetFailed e)
      | _ => pure ()
    move .connected
    throw .cancelled
  | .error e =>
    abandon e
    throw e

theorem outcome_sendImage (cancelled : σ → Bool) (j : Flash.Job) (d : Desk σ) :
    (sendImage cancelled j).outcome d =
      if d.session.linked then
        ((BlockBoard.flash j cancelled d.port).result, sent d (BlockBoard.flash j cancelled d.port))
      else (.error .notConnected, d) := by
  rw [sendImage, outcome_session_bind]
  split <;> rfl

theorem outcome_flash (cancelled : σ → Bool) (image : List UInt8) (expected : Nat) (d : Desk σ) :
    (flash cancelled image expected).outcome d =
      (do
        require .flashing
        quiesce
        move .flashing
        let s ← session
        deliver cancelled ⟨s.device, s.flashing, image, expected⟩ : Conduct σ FlashReport).outcome
          (begun image d) := rfl

theorem deliver_of_ok {cancelled : σ → Bool} {j : Flash.Job} {d : Desk σ} {report : FlashReport}
    (hlinked : d.session.linked = true)
    (h : (BlockBoard.flash j cancelled d.port).result = .ok report) :
    (deliver cancelled j).outcome d =
      (do move .connected; return report : Conduct σ FlashReport).outcome
        (sent d (BlockBoard.flash j cancelled d.port)) := by
  rw [deliver, outcome_attempt_bind, outcome_sendImage, if_pos hlinked, h]

/-- A request to flash goes as far as its delivery, once no program runs. -/
theorem flash_of_quiesced {cancelled : σ → Bool} {image : List UInt8} {expected : Nat} {d d₁ : Desk σ}
    (hstate : d.session.state = .connected ∨ d.session.state = .running)
    (hquiesce : (quiesce : Conduct σ Unit).outcome (begun image d) = (.ok (), d₁))
    (hready : d₁.session.state = .connected) :
    (flash cancelled image expected).outcome d =
      (deliver cancelled (job d₁ image expected)).outcome (d₁.moved .flashing) := by
  have hrequire : (require .flashing : Conduct σ Unit).outcome (begun image d) =
      (.ok (), begun image d) := by
    rw [outcome_require, if_neg]
    show ¬ (!d.session.state.canMoveTo .flashing && d.session.state != .running) = true
    rcases hstate with hstate | hstate <;> rw [hstate] <;> decide
  have hmove : (move .flashing : Conduct σ Unit).outcome d₁ = (.ok (), d₁.moved .flashing) :=
    outcome_move_of (by rw [hready]; rfl)
  rw [outcome_flash, Operation.bind_of_ok hrequire, Operation.bind_of_ok hquiesce,
    Operation.bind_of_ok hmove, outcome_session_bind]
  rfl

/-- A flash over the link that succeeds, once no program runs, is a request that succeeds. -/
theorem flash_of_ok {cancelled : σ → Bool} {image : List UInt8} {expected : Nat} {d d₁ : Desk σ}
    {report : FlashReport} (hstate : d.session.state = .connected ∨ d.session.state = .running)
    (hquiesce : (quiesce : Conduct σ Unit).outcome (begun image d) = (.ok (), d₁))
    (hready : d₁.session.state = .connected) (hlinked : d₁.session.linked = true)
    (h : (BlockBoard.flash (job d₁ image expected) cancelled d₁.port).result = .ok report) :
    (flash cancelled image expected).outcome d = (.ok report,
      (sent (d₁.moved .flashing)
        (BlockBoard.flash (job d₁ image expected) cancelled d₁.port)).moved .connected) := by
  have hdeliver : (deliver cancelled (job d₁ image expected)).outcome (d₁.moved .flashing) = _ :=
    deliver_of_ok hlinked h
  rw [flash_of_quiesced hstate hquiesce hready]
  -- the session is flashing, from where it can go back
  exact hdeliver.trans (Operation.bind_of_ok (outcome_move_of rfl))

/-- After a flash that was cancelled the board is restarted; that this can fail is only warned of. -/
theorem deliver_of_cancelled {cancelled : σ → Bool} {j : Flash.Job} {d : Desk σ}
    (hlinked : d.session.linked = true)
    (h : (BlockBoard.flash j cancelled d.port).result = .error .cancelled) :
    ∃ notices, (deliver cancelled j).outcome d =
      (do move .connected; throw .cancelled : Conduct σ FlashReport).outcome
        { sent d (BlockBoard.flash j cancelled d.port) with
          port := (Transport.hardReset (BlockBoard.flash j cancelled d.port).link).2
          notices } := by
  rw [deliver, outcome_attempt_bind, outcome_sendImage, if_pos hlinked, h]
  dsimp only
  rw [outcome_session_bind]
  split
  · rw [outcome_attempt_bind, outcome_onPort, Operation.outcome_mapError]
    have hreset : ((Operation.of Transport.hardReset : Operation σ LinkError Unit).outcome
        (sent d (BlockBoard.flash j cancelled d.port)).port) =
        Transport.hardReset (BlockBoard.flash j cancelled d.port).link := rfl
    rw [hreset]
    rcases Transport.hardReset (BlockBoard.flash j cancelled d.port).link with ⟨answer, port⟩
    cases answer with
    | ok a => exact ⟨_, rfl⟩
    | error e => exact ⟨_, rfl⟩
  · exact absurd hlinked ‹_›

/-- A failure that is no request to cancel costs the link, and is what the request fails with. -/
theorem deliver_of_error (cancelled : σ → Bool) (j : Flash.Job) (d : Desk σ) {d₁ : Desk σ}
    {e : SessionError} (he : e ≠ .cancelled) (h : (sendImage cancelled j).outcome d = (.error e, d₁)) :
    ∃ notices, (deliver cancelled j).outcome d = (.error e, { d₁.abandoned with notices }) := by
  obtain ⟨notices, habandon⟩ := outcome_abandon e d₁
  refine ⟨notices, ?_⟩
  rw [deliver, outcome_attempt_bind, h]
  cases e with
  | cancelled => exact absurd rfl he
  | _ => exact Operation.bind_of_ok habandon

/-- A flash over the link that fails, once no program runs, is a request that fails and costs the link. -/
theorem flash_of_error {cancelled : σ → Bool} {image : List UInt8} {expected : Nat} {d d₁ : Desk σ}
    {e : SessionError} (he : e ≠ .cancelled)
    (hstate : d.session.state = .connected ∨ d.session.state = .running)
    (hquiesce : (quiesce : Conduct σ Unit).outcome (begun image d) = (.ok (), d₁))
    (hready : d₁.session.state = .connected) (hlinked : d₁.session.linked = true)
    (h : (BlockBoard.flash (job d₁ image expected) cancelled d₁.port).result = .error e) :
    ∃ notices, (flash cancelled image expected).outcome d = (.error e,
      { (sent (d₁.moved .flashing)
          (BlockBoard.flash (job d₁ image expected) cancelled d₁.port)).abandoned with notices }) := by
  have hsend : (sendImage cancelled (job d₁ image expected)).outcome (d₁.moved .flashing) =
      (.error e, sent (d₁.moved .flashing)
        (BlockBoard.flash (job d₁ image expected) cancelled d₁.port)) := by
    rw [outcome_sendImage, if_pos (show (d₁.moved .flashing).session.linked = true from hlinked)]
    exact Prod.ext h rfl
  rw [flash_of_quiesced hstate hquiesce hready]
  exact deliver_of_error _ _ _ he hsend

theorem deliver_never_cancelled {cancelled : σ → Bool} {j : Flash.Job} {d d' : Desk σ}
    (h : d.session.linked = false ∨
      (BlockBoard.flash j cancelled d.port).result ≠ .error .cancelled) :
    (deliver cancelled j).outcome d ≠ (.error .cancelled, d') := by
  -- every other failure is what the request fails with
  have hlost : ∀ e d₁, e ≠ .cancelled → (sendImage cancelled j).outcome d = (.error e, d₁) →
      (deliver cancelled j).outcome d ≠ (.error .cancelled, d') := by
    intro e d₁ he hsend hdeliver
    obtain ⟨notices, hfails⟩ := deliver_of_error _ _ _ he hsend
    cases hfails.symm.trans hdeliver
    exact he rfl
  by_cases hlinked : d.session.linked = true
  · cases hresult : (BlockBoard.flash j cancelled d.port).result with
    | ok report =>
      rw [deliver_of_ok hlinked hresult]
      exact (Operation.never_bind (move_never_cancelled _) fun _ _ => by simp).ne
    | error e =>
      refine hlost e (sent d (BlockBoard.flash j cancelled d.port)) ?_ ?_
      · rintro rfl
        rcases h with h | h
        · rw [hlinked] at h
          cases h
        · exact h hresult
      · rw [outcome_sendImage, if_pos hlinked, hresult]
  · exact hlost .notConnected d nofun (by rw [outcome_sendImage, if_neg hlinked])

/-- **How a flash goes that is cancelled.** A program is stopped if one runs; the flash over the port is
cancelled; the board is restarted, whatever comes of that; and the session is connected. -/
theorem flash_cancelled {cancelled : σ → Bool} {image : List UInt8} {expected : Nat} {d d' : Desk σ}
    (h : (flash cancelled image expected).outcome d = (.error .cancelled, d')) :
    ∃ d₁, (quiesce : Conduct σ Unit).outcome (begun image d) = (.ok (), d₁) ∧
      (BlockBoard.flash (job d₁ image expected) cancelled d₁.port).result = .error .cancelled ∧
      d'.port =
        (Transport.hardReset (BlockBoard.flash (job d₁ image expected) cancelled d₁.port).link).2 ∧
      d'.session.state = .connected := by
  rw [outcome_flash] at h
  -- what comes before the flash itself is not cancelled, and has succeeded
  rcases Operation.bind_cases h with ⟨e, hrequire, he⟩ | ⟨_, d₀, hrequire, hrest⟩
  · cases he
    rw [outcome_require] at hrequire
    split at hrequire <;> cases hrequire
  obtain rfl : begun image d = d₀ := by
    rw [outcome_require] at hrequire
    split at hrequire
    · cases hrequire
    · exact (Prod.mk.inj hrequire).2
  rcases Operation.bind_cases hrest with ⟨e, hquiesce, he⟩ | ⟨_, d₁, hquiesce, hrest⟩
  · cases he
    exact absurd hquiesce quiesce_never_cancelled.ne
  rcases Operation.bind_cases hrest with ⟨e, hmove, he⟩ | ⟨_, d₂, hmove, hdeliver⟩
  · cases he
    exact absurd hmove (move_never_cancelled _).ne
  obtain rfl : d₁.moved .flashing = d₂ := by
    rw [outcome_move] at hmove
    split at hmove
    · exact (Prod.mk.inj hmove).2
    · cases hmove
  rw [outcome_session_bind] at hdeliver
  have hdeliver : (deliver cancelled (job d₁ image expected)).outcome (d₁.moved .flashing) =
    (.error .cancelled, d') := hdeliver
  have hlinked : (d₁.moved .flashing).session.linked = true := by
    cases hnot : (d₁.moved .flashing).session.linked with
    | true => rfl
    | false => exact absurd hdeliver (deliver_never_cancelled (.inl hnot))
  have hresult : (BlockBoard.flash (job d₁ image expected) cancelled d₁.port).result =
      .error .cancelled :=
    Classical.byContradiction fun hnot =>
      deliver_never_cancelled (d := d₁.moved .flashing) (.inr hnot) hdeliver
  obtain ⟨notices, hreset⟩ := deliver_of_cancelled hlinked hresult
  -- the session is flashing, from where it can go back
  have hdone := hdeliver.symm.trans (hreset.trans (Operation.bind_of_ok (outcome_move_of rfl)))
  obtain ⟨-, rfl⟩ := Prod.mk.inj hdone
  exact ⟨d₁, hquiesce, hresult, rfl, rfl⟩

end Quiesce

end Conduct

end BlockBoard
