import Mathlib.Logic.Relation
import BlockBoard.Proofs.Session.Conduct
/-!
# What a request does to a session

Whatever is asked of a session, and however the link behaves, the session changes in a few elementary
ways only, each of which leads from a moment at which it is not busy to another one. An invariant of
sessions has to be proved for these changes, and for no request.

- `Desk.states`: the states that a session has announced.
- `Conduct.Change`: the elementary changes, and `Conduct.Changes`: any number of them.
- `Conduct.changes_relayWithin`: passing on output is a number of such changes.
- `Conduct.changes_perform`: **so is every request that does not save**.
- `Conduct.save_cases`: a save that does not write is so too, and one that writes notes what it wrote
  after such changes.
-/

namespace BlockBoard

/-- The state that an event announces. -/
def SessionEvent.state? : SessionEvent → Option SessionState
  | .stateChanged s => some s
  | _ => none

/-- The states that a session has announced, in order. -/
def Desk.states {σ : Type} (d : Desk σ) : List SessionState := d.events.filterMap SessionEvent.state?

/-- A session at work that has opened a link. -/
def Desk.opened {σ : Type} (d : Desk σ) : Desk σ :=
  Desk.moved { d.moved .connecting with
    session := { (d.moved .connecting).session with linked := true, saved := none } } .connected

namespace Conduct

variable {σ α β : Type}

/-! ## Elementary changes -/

/-- All that matters about the state of a session is the same before and after: only what it shows, what
it has passed on and the port may differ. -/
structure Aside (d d' : Desk σ) : Prop where
  device : d'.session.device = d.session.device
  flashing : d'.session.flashing = d.session.flashing
  state : d'.session.state = d.session.state
  status : d'.session.status = d.session.status
  linked : d'.session.linked = d.session.linked
  saved : d'.session.saved = d.session.saved
  states : d'.states = d.states

/-- An elementary change of a session. -/
inductive Change : Desk σ → Desk σ → Prop
  | aside {d d' : Desk σ} (h : Aside d d') : Change d d'
  /-- A program begins or ends. -/
  | moved {d : Desk σ} {next : SessionState} (hnext : next = .connected ∨ next = .running)
      (h : d.session.state.canMoveTo next = true) : Change d (d.moved next)
  /-- The link is given up after a failure. -/
  | abandoned (d : Desk σ) : Change d d.abandoned
  /-- The link is closed, or lost. -/
  | closed (d : Desk σ) : Change d d.closed
  /-- A link is opened. -/
  | opened {d : Desk σ} (h : d.session.state.canMoveTo .connecting = true) : Change d d.opened
  /-- A link cannot be opened. -/
  | refused {d : Desk σ} (h : d.session.state.canMoveTo .connecting = true) :
      Change d (d.moved .connecting).abandoned
  /-- A flash succeeds, or is cancelled. -/
  | flashed {d : Desk σ} (h : d.session.state.canMoveTo .flashing = true) :
      Change d ((d.moved .flashing).moved .connected)
  /-- A flash fails. -/
  | failed {d : Desk σ} (h : d.session.state.canMoveTo .flashing = true) :
      Change d (d.moved .flashing).abandoned

/-- Any number of elementary changes. -/
def Changes : Desk σ → Desk σ → Prop := Relation.ReflTransGen Change

theorem Changes.refl (d : Desk σ) : Changes d d := Relation.ReflTransGen.refl

theorem Changes.trans (d d' d'' : Desk σ) (h : Changes d d') (h' : Changes d' d'') : Changes d d'' :=
  Relation.ReflTransGen.trans h h'

theorem Change.changes {d d' : Desk σ} (h : Change d d') : Changes d d' :=
  Relation.ReflTransGen.single h

/-- The port, the warnings and the progress do not matter. -/
theorem Aside.of_session_eq {d d' : Desk σ} (h : d'.session = d.session)
    (hevents : d'.events = d.events) : Aside d d' := by
  refine ⟨?_, ?_, ?_, ?_, ?_, ?_, congrArg (List.filterMap SessionEvent.state?) hevents⟩ <;> rw [h]

theorem Changes.of_session_eq {d d' : Desk σ} (h : d'.session = d.session)
    (hevents : d'.events = d.events) : Changes d d' :=
  (Change.aside (.of_session_eq h hevents)).changes

/-- Changes that keep a relation keep it together. -/
theorem Changes.induction {R : Desk σ → Desk σ → Prop} (hrefl : ∀ d, R d d)
    (htrans : ∀ d d' d'', R d d' → R d' d'' → R d d'') (hstep : ∀ {d d'}, Change d d' → R d d')
    {d d' : Desk σ} (h : Changes d d') : R d d' := by
  induction h with
  | refl => exact hrefl d
  | tail _ hlast ih => exact htrans _ _ _ ih (hstep hlast)

/-! ## The parts of a request -/

theorem changes_bind {x : Conduct σ α} {f : α → Conduct σ β} (hx : x.Relates Changes)
    (hf : ∀ a, (f a).Relates Changes) : (x >>= f).Relates Changes :=
  Operation.relates_bind (R := Changes) Changes.trans hx hf

theorem changes_pure (a : α) : (pure a : Conduct σ α).Relates Changes :=
  Operation.relates_pure Changes.refl a

theorem changes_throw (e : SessionError) : (throw e : Conduct σ α).Relates Changes :=
  Operation.relates_throw Changes.refl e

theorem changes_session : (session : Conduct σ Session).Relates Changes := Changes.refl

theorem changes_timeout : (timeout : Conduct σ Nat).Relates Changes :=
  changes_bind changes_session fun _ => changes_pure _

theorem changes_attempt {x : Conduct σ α} (h : x.Relates Changes) : (attempt x).Relates Changes := h

theorem changes_onPort (x : Operation σ SessionError α) : (onPort x).Relates Changes :=
  fun _ => .of_session_eq rfl rfl

theorem changes_onLink (x : Operation σ SessionError α) : (onLink x).Relates Changes := by
  intro d
  rw [outcome_onLink]
  split
  · exact changes_onPort x d
  · exact .refl d

/-- Events other than moves change no state. -/
theorem aside_announced (d : Desk σ) {e : SessionEvent} (h : e.state? = none) (notices : List Notice) :
    Aside d { d with events := d.events ++ [e], notices } := by
  refine ⟨rfl, rfl, rfl, rfl, rfl, rfl, ?_⟩
  show (d.events ++ [e]).filterMap _ = _
  rw [List.filterMap_append, List.filterMap_cons, h]
  exact List.append_nil _

theorem changes_announce {e : SessionEvent} (h : e.state? = none) :
    (announce e : Conduct σ Unit).Relates Changes := by
  intro d
  exact (Change.aside (aside_announced d h d.notices)).changes

/-- What is shown on the terminal, and the end of the output, do not matter. -/
theorem changes_update {f : Session → Session}
    (h : ∀ s, ∃ scrollback tail, f s = { s with scrollback, tail }) :
    (update f : Conduct σ Unit).Relates Changes := by
  intro d
  obtain ⟨scrollback, tail, hf⟩ := h d.session
  have haside : Aside d { d with session := f d.session } := by
    rw [hf]
    exact ⟨rfl, rfl, rfl, rfl, rfl, rfl, rfl⟩
  exact (Change.aside haside).changes

theorem changes_move {next : SessionState} (hnext : next = .connected ∨ next = .running) :
    (move next : Conduct σ Unit).Relates Changes := by
  intro d
  rw [outcome_move]
  split
  · exact (Change.moved hnext ‹_›).changes
  · exact .refl d

theorem changes_moveIfPossible {next : SessionState} (hnext : next = .connected ∨ next = .running) :
    (moveIfPossible next : Conduct σ Unit).Relates Changes :=
  changes_bind (changes_attempt (changes_move hnext)) fun _ => changes_pure ()

/-- The link is given up, with a warning or two. -/
theorem changes_abandoned (d : Desk σ) (notices : List Notice) :
    Changes d { d.abandoned with notices } :=
  (Change.abandoned d).changes.trans _ _ _ (.of_session_eq rfl rfl)

theorem changes_orAbandon {x : Conduct σ α} (h : x.Relates Changes) : (orAbandon x).Relates Changes := by
  intro d
  have hx := h d
  rcases hrun : x.outcome d with ⟨e | a, d₁⟩
  · obtain ⟨notices, habandon⟩ := orAbandon_of_error hrun
    rw [hrun] at hx
    rw [habandon]
    exact hx.trans _ _ _ (changes_abandoned d₁ notices)
  · rw [hrun] at hx
    rwa [orAbandon_of_ok hrun]

theorem changes_require (next : SessionState) : (require next : Conduct σ Unit).Relates Changes := by
  intro d
  rw [outcome_require]
  split <;> exact .refl d

theorem changes_disconnect : (disconnect : Conduct σ Unit).Relates Changes := by
  intro d
  rw [outcome_disconnect]
  exact (Change.closed d).changes

theorem changes_lose (reason : String) : (lose reason : Conduct σ Unit).Relates Changes := by
  intro d
  rw [outcome_lose]
  have haside := (Change.aside (aside_announced d (e := .disconnected reason) rfl
    (d.notices ++ [.connectionLost reason]))).changes
  exact haside.trans _ _ _ (Change.closed _).changes

/-! ## Passing on output -/

theorem changes_relay (bs : List UInt8) : (relay bs : Conduct σ Unit).Relates Changes := by
  unfold relay
  split
  · exact changes_pure ()
  refine changes_bind (changes_update fun s => ⟨(s.scrollback.push bs).2, s.tail, rfl⟩) fun _ =>
    changes_bind (changes_announce rfl) fun _ => changes_bind changes_session fun s => ?_
  split
  · dsimp only
    split
    · exact changes_bind (changes_update fun s => ⟨s.scrollback, [], rfl⟩) fun _ =>
        changes_moveIfPossible (.inl rfl)
    · exact changes_update fun s => ⟨s.scrollback, _, rfl⟩
  · exact changes_pure ()

/-- Passing on output is a number of elementary changes. -/
theorem changes_relayWithin [Transport σ] (fuel : Nat) :
    (relayWithin fuel : Conduct σ Unit).Relates Changes := by
  induction fuel with
  | zero => exact changes_pure ()
  | succ fuel ih =>
    refine changes_bind changes_session fun s => ?_
    split
    · refine changes_bind (changes_onPort _) fun answer => ?_
      cases answer with
      | silent => exact changes_pure ()
      | failed e => exact changes_lose _
      | bytes bs =>
        cases bs with
        | nil => exact changes_lose _
        | cons b r => exact changes_bind (changes_relay _) fun _ => ih
    · exact changes_pure ()

/-! ## Requests -/

theorem outcome_openLink [Connector σ] {settings : DeviceSettings} {d : Desk σ} {port : σ}
    {answer : Except LinkError String} (h : Connector.openLink settings d.port = (answer, port)) :
    (onPort ((Operation.of (Connector.openLink settings)).mapError .link) : Conduct σ String).outcome d =
      (answer.mapError .link, { d with port }) := by
  rw [outcome_onPort, Operation.outcome_mapError, Operation.outcome_of, h]

/-- A link that can be opened is opened. -/
theorem connect_of_ok [Connector σ] {d : Desk σ} {port : σ} {name : String}
    (hmove : d.session.state.canMoveTo .connecting = true)
    (hopen : Connector.openLink d.session.device d.port = (.ok name, port)) :
    (connect : Conduct σ Unit).outcome d = (.ok (), Desk.opened { d with port }) := by
  have hlink := outcome_openLink (d := d.moved .connecting) hopen
  rw [connect, Operation.bind_of_ok (outcome_move_of hmove), outcome_session_bind]
  exact (Operation.bind_of_ok (orAbandon_of_ok hlink)).trans
    ((Operation.bind_of_ok (outcome_update _ _)).trans (outcome_move_of rfl))

/-- Connecting passes through a state in which the session is busy, and ends either with a link or in a
failure. -/
theorem changes_connect [Connector σ] : (connect : Conduct σ Unit).Relates Changes := by
  intro d
  by_cases hmove : d.session.state.canMoveTo .connecting = true
  · rcases hopen : Connector.openLink d.session.device d.port with ⟨answer, port⟩
    -- the port may as well have changed before the session moved
    have haside : Changes d { d with port } := .of_session_eq rfl rfl
    cases answer with
    | error e =>
      obtain ⟨notices, habandon⟩ := orAbandon_of_error (outcome_openLink (d := d.moved .connecting) hopen)
      have hconnect : (connect : Conduct σ Unit).outcome d =
          (.error (.link e), { (Desk.moved { d with port } .connecting).abandoned with notices }) := by
        rw [connect, Operation.bind_of_ok (outcome_move_of hmove), outcome_session_bind]
        exact Operation.bind_of_error habandon
      have hrefused : Changes { d with port } (Desk.moved { d with port } .connecting).abandoned :=
        (Change.refused (d := { d with port }) hmove).changes
      rw [hconnect]
      exact haside.trans _ _ _ (hrefused.trans _ _ _ (.of_session_eq rfl rfl))
    | ok name =>
      have hopened : Changes { d with port } (Desk.opened { d with port }) :=
        (Change.opened (d := { d with port }) hmove).changes
      rw [connect_of_ok hmove hopen]
      exact haside.trans _ _ _ hopened
  · rw [connect, Operation.bind_of_error ((outcome_move _ d).trans (if_neg hmove))]
    exact .refl d

section Transport

variable [Transport σ]

theorem changes_quiesce : (quiesce : Conduct σ Unit).Relates Changes := by
  unfold quiesce
  refine changes_bind changes_session fun s => ?_
  split
  · exact changes_bind (changes_orAbandon (changes_onLink _)) fun _ =>
      changes_bind (changes_update fun s => ⟨s.scrollback, [], rfl⟩) fun _ => changes_move (.inl rfl)
  · exact changes_pure ()

theorem changes_stop : (stop : Conduct σ Unit).Relates Changes := by
  refine changes_bind changes_session fun s => ?_
  split
  · exact changes_quiesce
  · exact changes_pure ()
  · exact changes_throw _

theorem changes_run (p : Program) : (run p : Conduct σ Unit).Relates Changes := by
  refine changes_bind (changes_require _) fun _ => changes_bind changes_quiesce fun _ =>
    changes_bind (changes_move (.inr rfl)) fun _ => changes_bind changes_timeout fun _ => ?_
  exact changes_bind (changes_orAbandon (changes_onLink _)) fun _ =>
    changes_bind (changes_update fun s => ⟨s.scrollback, [], rfl⟩) fun _ => changes_relay _

theorem changes_input (bs : List UInt8) : (input bs : Conduct σ Unit).Relates Changes := by
  refine changes_bind changes_session fun s => ?_
  dsimp only
  split
  · exact changes_throw _
  split
  · exact changes_throw _
  · refine changes_bind (changes_attempt (changes_onPort _)) fun result => ?_
    cases result with
    | ok a => exact changes_pure ()
    | error e => exact changes_bind (changes_lose _) fun _ => changes_throw e

/-- A session that flashes is connected again after a flash that succeeded or was cancelled, and has given
up its link otherwise. -/
theorem deliver_cases {cancelled : σ → Bool} {j : Flash.Job} {d d' : Desk σ}
    {result : Except SessionError FlashReport} (hstate : d.session.state = .flashing)
    (h : (deliver cancelled j).outcome d = (result, d')) :
    ∃ port progress notices,
      ((∃ report, result = .ok report) ∨ result = .error .cancelled) ∧
        d' = Desk.moved { d with port, progress, notices } .connected ∨
      ∃ later, (∃ e, result = .error e ∧ ((sendImage cancelled j).outcome d).1 = .error e) ∧
        d' = { Desk.abandoned { d with port, progress, notices } with notices := later } := by
  -- the session is flashing, from where it can go back
  have hback : ∀ port progress notices,
      (move .connected : Conduct σ Unit).outcome { d with port, progress, notices } =
        (.ok (), Desk.moved { d with port, progress, notices } .connected) :=
    fun _ _ _ => outcome_move_of (by
      show SessionState.canMoveTo d.session.state _ = true
      rw [hstate]
      rfl)
  by_cases hlinked : d.session.linked = true
  · cases hresult : (BlockBoard.flash j cancelled d.port).result with
    | ok report =>
      rw [deliver_of_ok hlinked hresult, sent, Operation.bind_of_ok (hback _ _ _)] at h
      cases h
      exact ⟨_, _, _, .inl ⟨.inl ⟨report, rfl⟩, rfl⟩⟩
    | error e =>
      by_cases he : e = .cancelled
      · obtain ⟨notices, hreset⟩ := deliver_of_cancelled hlinked (he ▸ hresult)
        rw [hreset] at h
        cases (Operation.bind_of_ok (hback _ _ _)).symm.trans h
        exact ⟨_, _, _, .inl ⟨.inr rfl, rfl⟩⟩
      · have hsend : (sendImage cancelled j).outcome d =
            (.error e, sent d (BlockBoard.flash j cancelled d.port)) := by
          rw [outcome_sendImage, if_pos hlinked, hresult]
        obtain ⟨later, hfails⟩ := deliver_of_error cancelled j d he hsend
        rw [hfails] at h
        cases h
        exact ⟨_, _, _, .inr ⟨later, ⟨e, rfl, by rw [hsend]⟩, rfl⟩⟩
  · have hsend : (sendImage cancelled j).outcome d = (.error .notConnected, d) := by
      rw [outcome_sendImage, if_neg hlinked]
    have hne : SessionError.notConnected ≠ .cancelled := nofun
    obtain ⟨later, hfails⟩ := deliver_of_error cancelled j d hne hsend
    rw [hfails] at h
    cases h
    exact ⟨d.port, d.progress, d.notices, .inr ⟨later, ⟨_, rfl, by rw [hsend]⟩, rfl⟩⟩

/-- Flashing passes through a state in which the session is busy, from where a session is connected. -/
theorem changes_deliver {cancelled : σ → Bool} {j : Flash.Job} {d : Desk σ}
    (hmove : d.session.state.canMoveTo .flashing = true) :
    Changes d ((deliver cancelled j).outcome (d.moved .flashing)).2 := by
  rcases hdeliver : (deliver cancelled j).outcome (d.moved .flashing) with ⟨result, d'⟩
  obtain ⟨port, progress, notices, hends⟩ := deliver_cases rfl hdeliver
  have haside : Changes d { d with port, progress, notices } := .of_session_eq rfl rfl
  rcases hends with ⟨-, rfl⟩ | ⟨later, -, rfl⟩
  · exact haside.trans _ _ _ (Change.flashed (d := { d with port, progress, notices }) hmove).changes
  · have hfailed := (Change.failed (d := { d with port, progress, notices }) hmove).changes
    exact haside.trans _ _ _ (hfailed.trans _ _ _ (.of_session_eq rfl rfl))

theorem changes_flash (cancelled : σ → Bool) (image : List UInt8) (expected : Nat) :
    (flash cancelled image expected).Relates Changes := by
  have hflash : (do
      move .flashing
      let s ← session
      deliver cancelled ⟨s.device, s.flashing, image, expected⟩ : Conduct σ FlashReport).Relates
        Changes := by
    intro d
    by_cases hmove : d.session.state.canMoveTo .flashing = true
    · rw [Operation.bind_of_ok (outcome_move_of hmove), outcome_session_bind]
      exact changes_deliver hmove
    · rw [Operation.bind_of_error ((outcome_move _ d).trans (if_neg hmove))]
      exact .refl d
  intro d
  rw [outcome_flash]
  have hbegun : Changes d (begun image d) := .of_session_eq rfl rfl
  exact hbegun.trans _ _ _ (changes_bind (changes_require _)
    (fun _ => changes_bind changes_quiesce fun _ => hflash) _)

/-- What a save does before it notes what it has written. -/
def saveProgram (p : Program) : Conduct σ Unit := do
  quiesce
  move .running
  let timeout ← timeout
  orAbandon (onLink (writeBootProgram timeout p))

theorem changes_saveProgram (p : Program) : (saveProgram p : Conduct σ Unit).Relates Changes :=
  changes_bind changes_quiesce fun _ => changes_bind (changes_move (.inr rfl)) fun _ =>
    changes_bind changes_timeout fun _ => changes_orAbandon (changes_onLink _)

/-- A session at work that notes what it has saved. -/
def noted (d : Desk σ) (p : Program) : Desk σ :=
  { d with session := { d.session with tail := [], saved := some p.digest } }

theorem outcome_save (p : Program) (d : Desk σ) :
    (save p : Conduct σ SaveOutcome).outcome d =
      if !d.session.state.isConnected || d.session.state == .flashing then
        (.error (.invalidMove d.session.state .running), d)
      else if d.session.saved = some p.digest then (.ok (.unchanged p.digest), d)
      else (do
        saveProgram p
        update fun s => { s with tail := [], saved := some p.digest }
        return .written p.bytes.length p.digest : Conduct σ SaveOutcome).outcome d := by
  rw [save, outcome_session_bind, saveProgram]
  dsimp only
  split
  · rfl
  split
  · rfl
  · simp only [bind_assoc]

/-- A program that was the last one saved is not written again. -/
theorem save_of_saved {p : Program} {d : Desk σ} (hsaved : d.session.saved = some p.digest)
    (hstate : d.session.state = .connected ∨ d.session.state = .running) :
    (save p : Conduct σ SaveOutcome).outcome d = (.ok (.unchanged p.digest), d) := by
  rw [outcome_save, if_neg, if_pos hsaved]
  rcases hstate with hstate | hstate <;> rw [hstate] <;> decide

/-- A save is skipped only over a link, for the program that was saved last, and changes nothing. -/
theorem save_of_unchanged {p : Program} {d d' : Desk σ} {digest : String}
    (h : (save p : Conduct σ SaveOutcome).outcome d = (.ok (.unchanged digest), d')) :
    digest = p.digest ∧ d' = d ∧ d.session.saved = some p.digest ∧
      d.session.state.isConnected = true := by
  rw [outcome_save] at h
  split at h
  · cases h
  rename_i hconnected
  split at h
  · rename_i hsaved
    cases h
    simp only [Bool.or_eq_true, not_or, Bool.not_eq_true', Bool.not_eq_false] at hconnected
    exact ⟨rfl, rfl, hsaved, hconnected.1⟩
  · obtain ⟨_, d₁, -, hrest⟩ := Operation.eq_ok_of_bind h
    cases hrest

/-- A program that can be written, once none runs, is saved. -/
theorem save_of_ok {p : Program} {d d₁ : Desk σ} {port : σ}
    (hsaved : d.session.saved ≠ some p.digest)
    (hstate : d.session.state = .connected ∨ d.session.state = .running)
    (hquiesce : (quiesce : Conduct σ Unit).outcome d = (.ok (), d₁))
    (hready : d₁.session.state = .connected) (hlinked : d₁.session.linked = true)
    (hwrite : (writeBootProgram d₁.session.flashing.commandTimeout.toNat p).outcome d₁.port =
      (.ok (), port)) :
    (save p).outcome d =
      (.ok (.written p.bytes.length p.digest), noted { d₁.moved .running with port } p) := by
  have hconnected : ¬ (!d.session.state.isConnected || d.session.state == .flashing) = true := by
    rcases hstate with hstate | hstate <;> rw [hstate] <;> decide
  have hmove : (move .running : Conduct σ Unit).outcome d₁ = (.ok (), d₁.moved .running) :=
    outcome_move_of (by rw [hready]; rfl)
  have honLink : (onLink (writeBootProgram d₁.session.flashing.commandTimeout.toNat p)).outcome
      (d₁.moved .running) = (.ok (), { d₁.moved .running with port }) := by
    have hlinked' : (d₁.moved .running).session.linked = true := hlinked
    have hwrite' : (writeBootProgram d₁.session.flashing.commandTimeout.toNat p).outcome
      (d₁.moved .running).port = (.ok (), port) := hwrite
    rw [outcome_onLink, if_pos hlinked', outcome_onPort, hwrite']
  rw [outcome_save, if_neg hconnected, if_neg hsaved, saveProgram, timeout]
  simp only [bind_assoc, pure_bind]
  rw [Operation.bind_of_ok hquiesce, Operation.bind_of_ok hmove, outcome_session_bind]
  exact Operation.bind_of_ok (orAbandon_of_ok honLink)

/-- A save that writes notes what it has written, after elementary changes. Any other one comes to
nothing else. -/
theorem save_cases {p : Program} {d d' : Desk σ} {result : Except SessionError SaveOutcome}
    (h : (save p).outcome d = (result, d')) :
    (Changes d d' ∧ ∀ n digest, result ≠ .ok (.written n digest)) ∨
      ∃ d₁, Changes d d₁ ∧ result = .ok (.written p.bytes.length p.digest) ∧
        d' = noted d₁ p := by
  rw [outcome_save] at h
  split at h
  · cases h
    exact .inl ⟨.refl d, nofun⟩
  split at h
  · cases h
    exact .inl ⟨.refl d, nofun⟩
  · have hwrites := changes_saveProgram p d
    rcases Operation.bind_cases h with ⟨e, hfails, rfl⟩ | ⟨_, d₁, hsaves, hrest⟩
    · rw [hfails] at hwrites
      exact .inl ⟨hwrites, nofun⟩
    · rw [hsaves] at hwrites
      cases hrest
      exact .inr ⟨d₁, hwrites, rfl, rfl⟩

end Transport

/-- A request to save answers how the save ended. -/
theorem perform_save [Connector σ] (cancelled : σ → Bool) (p : Program) (d : Desk σ) :
    ((Request.save p).perform cancelled).outcome d =
      (((save p).outcome d).1.map .saved, ((save p).outcome d).2) :=
  Operation.outcome_bind_pure _ _ d

/-- **Every request that does not save is a number of elementary changes.** -/
theorem changes_perform [Connector σ] (cancelled : σ → Bool) {r : Request} (hr : ∀ p, r ≠ .save p) :
    (r.perform cancelled).Relates Changes := by
  cases r with
  | connect => exact changes_bind changes_connect fun _ => changes_pure _
  | disconnect => exact changes_bind changes_disconnect fun _ => changes_pure _
  | stop => exact changes_bind changes_stop fun _ => changes_pure _
  | clear => exact changes_bind (changes_update fun s => ⟨_, s.tail, rfl⟩) fun _ => changes_pure _
  | snapshot => exact changes_bind changes_session fun _ => changes_pure _
  | run p => exact changes_bind (changes_run p) fun _ => changes_pure _
  | save p => exact absurd rfl (hr p)
  | input bs => exact changes_bind (changes_input bs) fun _ => changes_pure _
  | flash image expected => exact changes_bind (changes_flash _ image expected) fun _ => changes_pure _

end Conduct

end BlockBoard
