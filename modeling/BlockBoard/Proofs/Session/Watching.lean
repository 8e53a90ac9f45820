import BlockBoard.Proofs.Loader.Watching
import BlockBoard.Proofs.Session.Reachable
/-!
# Watching a session

A session over a link that is being watched goes as it would over the link behind it: it answers the same,
remembers and announces the same, and leaves the same link behind. What is said about the calls of sessions
over recorded links is therefore said about every session.

- `Desk.over`: a session over the link behind the one that is being watched.
- `RawMode.mirrors_enter` and its like: talking to the raw prompt.
- `Conduct.mirrors_perform`: **a request**, and `Conduct.mirrors_relayWithin`: what is passed on between two
  requests.
- `Desk.Reachable.exists_recorded`: every session that can be reached is behind one whose link is recorded.
- `Recorded.transparent`: **recording the link of a session changes nothing**.
-/

namespace BlockBoard

open Operation

variable {σ τ α : Type} {behind : τ → σ}

/-! ## The raw prompt -/

section Transport

variable [Transport σ] [Transport τ]

theorem Observes.readUntilWithin_eq (h : Observes behind) (pattern : List UInt8) (timeout fuel : Nat)
    (received : List UInt8) (t : τ) :
    readUntilWithin pattern timeout fuel received (behind t) =
      ((readUntilWithin pattern timeout fuel received t).1,
        behind (readUntilWithin pattern timeout fuel received t).2) := by
  induction fuel generalizing received t with
  | zero => rfl
  | succ fuel ih =>
    rw [readUntilWithin, readUntilWithin, h.read]
    split
    · rfl
    · rcases Transport.read answerChunk t with ⟨answer, t'⟩
      cases answer with
      | silent => rfl
      | failed e => rfl
      | bytes bs =>
        cases bs with
        | nil => rfl
        | cons b r => exact ih _ t'

theorem Observes.mirrors_readMoreUntil (h : Observes behind) (received pattern : List UInt8) (timeout : Nat) :
    Mirrors behind (readMoreUntil received pattern timeout : Operation τ LinkError (List UInt8))
      (readMoreUntil received pattern timeout) := by
  intro t
  show readUntilWithin pattern timeout (Transport.backlog (behind t) + 1) received (behind t) = _
  rw [h.backlog, h.readUntilWithin_eq]
  rfl

namespace RawMode

theorem mirrors_interrupt (h : Observes behind) :
    Mirrors behind (interrupt : Operation τ SessionError Unit) interrupt :=
  mirrors_mapError (mirrors_bind (h.write _) fun _ => mirrors_bind h.mirrors_drain fun _ => mirrors_pure ()) _

theorem mirrors_enter (h : Observes behind) (timeout : Nat) :
    Mirrors behind (enter timeout : Operation τ SessionError Unit) (enter timeout) := by
  have hask : Mirrors behind
      (do send [carriageReturn, ctrlA]; let _ ← readUntil rawBanner timeout : Operation τ LinkError Unit)
      (do send [carriageReturn, ctrlA]; let _ ← readUntil rawBanner timeout) :=
    mirrors_bind (h.write _) fun _ => mirrors_bind (h.mirrors_readMoreUntil _ _ _) fun _ => mirrors_pure ()
  exact mirrors_bind (mirrors_interrupt h) fun _ => mirrors_mapError hask _

theorem mirrors_sendAll (h : Observes behind) (pieces : List (List UInt8)) :
    Mirrors behind (sendAll pieces : Operation τ LinkError Unit) (sendAll pieces) := by
  induction pieces with
  | nil => exact mirrors_pure ()
  | cons p r ih => exact mirrors_bind (h.write p) fun _ => ih

theorem mirrors_upload (h : Observes behind) (timeout : Nat) (program : List UInt8) :
    Mirrors behind (upload timeout program : Operation τ SessionError (List UInt8))
      (upload timeout program) :=
  mirrors_mapError (mirrors_bind (mirrors_sendAll h _) fun _ => mirrors_bind (h.write _) fun _ =>
    mirrors_bind (h.mirrors_readMoreUntil _ _ _) fun _ => mirrors_pure _) _

theorem mirrors_exec (h : Observes behind) (timeout : Nat) (program : String) :
    Mirrors behind (exec timeout program : Operation τ SessionError String) (exec timeout program) := by
  unfold exec
  refine mirrors_bind (mirrors_upload h timeout _) fun begun => ?_
  refine mirrors_bind (mirrors_mapError (h.mirrors_readMoreUntil begun finishMark timeout) _) fun reply => ?_
  -- how the reply reads has nothing to do with the link
  generalize outcomeOf reply = result
  exact fun _ => rfl

theorem mirrors_execAll (h : Observes behind) (timeout : Nat) (programs : List String) :
    Mirrors behind (execAll timeout programs : Operation τ SessionError Unit)
      (execAll timeout programs) := by
  induction programs with
  | nil => exact mirrors_pure ()
  | cons p r ih => exact mirrors_bind (mirrors_exec h timeout p) fun _ => ih

theorem mirrors_exit (h : Observes behind) :
    Mirrors behind (exit : Operation τ SessionError Unit) exit := mirrors_mapError (h.write _) _

theorem mirrors_restart (h : Observes behind) :
    Mirrors behind (restart : Operation τ SessionError Unit) restart := mirrors_mapError (h.write _) _

end RawMode

end Transport

/-! ## The parts of a request -/

/-- A session over the link behind the one that is being watched. -/
def Desk.over (behind : τ → σ) (d : Desk τ) : Desk σ where
  session := d.session
  port := behind d.port
  events := d.events
  notices := d.notices
  progress := d.progress

namespace Conduct

theorem mirrors_session : Mirrors (Desk.over behind) (session : Conduct τ Session) session := fun _ => rfl

theorem mirrors_update (f : Session → Session) :
    Mirrors (Desk.over behind) (update f : Conduct τ Unit) (update f) := fun _ => rfl

theorem mirrors_announce (e : SessionEvent) :
    Mirrors (Desk.over behind) (announce e : Conduct τ Unit) (announce e) := fun _ => rfl

theorem mirrors_warn (n : Notice) : Mirrors (Desk.over behind) (warn n : Conduct τ Unit) (warn n) :=
  fun _ => rfl

theorem mirrors_timeout : Mirrors (Desk.over behind) (timeout : Conduct τ Nat) timeout := fun _ => rfl

theorem mirrors_attempt {x : Conduct τ α} {y : Conduct σ α} (h : Mirrors (Desk.over behind) x y) :
    Mirrors (Desk.over behind) (attempt x) (attempt y) := by
  intro d
  rw [outcome_attempt, outcome_attempt, h d]

theorem mirrors_onPort {x : Operation τ SessionError α} {y : Operation σ SessionError α}
    (h : Mirrors behind x y) : Mirrors (Desk.over behind) (onPort x) (onPort y) := by
  intro d
  rw [outcome_onPort, outcome_onPort, show (d.over behind).port = behind d.port from rfl, h d.port]
  rfl

theorem mirrors_onLink {x : Operation τ SessionError α} {y : Operation σ SessionError α}
    (h : Mirrors behind x y) : Mirrors (Desk.over behind) (onLink x) (onLink y) :=
  mirrors_bind mirrors_session fun _ => mirrors_ite (mirrors_onPort h) (mirrors_throw _)

theorem mirrors_move (next : SessionState) :
    Mirrors (Desk.over behind) (move next : Conduct τ Unit) (move next) :=
  mirrors_bind mirrors_session fun _ =>
    mirrors_ite (mirrors_bind (mirrors_update _) fun _ => mirrors_announce _) (mirrors_throw _)

theorem mirrors_moveIfPossible (next : SessionState) :
    Mirrors (Desk.over behind) (moveIfPossible next : Conduct τ Unit) (moveIfPossible next) :=
  mirrors_bind (mirrors_attempt (mirrors_move next)) fun _ => mirrors_pure ()

theorem mirrors_abandon (e : SessionError) :
    Mirrors (Desk.over behind) (abandon e : Conduct τ Unit) (abandon e) := by
  refine mirrors_bind (mirrors_warn _) fun _ => mirrors_bind (mirrors_update _) fun _ =>
    mirrors_bind (mirrors_attempt (mirrors_move _)) fun result => ?_
  cases result with
  | ok _ => exact mirrors_pure ()
  | error _ => exact mirrors_bind mirrors_session fun _ => mirrors_warn _

theorem mirrors_orAbandon {x : Conduct τ α} {y : Conduct σ α} (h : Mirrors (Desk.over behind) x y) :
    Mirrors (Desk.over behind) (orAbandon x) (orAbandon y) := by
  refine mirrors_bind (mirrors_attempt h) fun result => ?_
  cases result with
  | ok a => exact mirrors_pure a
  | error e => exact mirrors_bind (mirrors_abandon e) fun _ => mirrors_throw e

theorem mirrors_lose (reason : String) :
    Mirrors (Desk.over behind) (lose reason : Conduct τ Unit) (lose reason) :=
  mirrors_bind (mirrors_warn _) fun _ => mirrors_bind (mirrors_update _) fun _ =>
    mirrors_bind (mirrors_announce _) fun _ => mirrors_moveIfPossible _

theorem mirrors_relay (bs : List UInt8) :
    Mirrors (Desk.over behind) (relay bs : Conduct τ Unit) (relay bs) := by
  refine mirrors_ite (mirrors_pure ()) ?_
  refine mirrors_bind (mirrors_update _) fun _ => mirrors_bind (mirrors_announce _) fun _ =>
    mirrors_bind mirrors_session fun s => mirrors_ite ?_ (mirrors_pure ())
  -- the mark of the end may have come
  exact mirrors_ite (mirrors_bind (mirrors_update _) fun _ => mirrors_moveIfPossible _) (mirrors_update _)

theorem mirrors_disconnect :
    Mirrors (Desk.over behind) (disconnect : Conduct τ Unit) disconnect :=
  mirrors_bind (mirrors_update _) fun _ => mirrors_moveIfPossible _

theorem mirrors_require (next : SessionState) :
    Mirrors (Desk.over behind) (require next : Conduct τ Unit) (require next) :=
  mirrors_bind mirrors_session fun _ => mirrors_ite (mirrors_throw _) (mirrors_pure ())

/-! ## Requests -/

section Transport

variable [Transport σ] [Transport τ] (h : Observes behind)

include h

theorem mirrors_relayWithin (reads : Nat) :
    Mirrors (Desk.over behind) (relayWithin reads : Conduct τ Unit) (relayWithin reads) := by
  induction reads with
  | zero => exact mirrors_pure ()
  | succ reads ih =>
    have hread : Mirrors behind
        (Operation.of fun port => (.ok (Transport.read relayChunk port).1, (Transport.read relayChunk port).2) :
          Operation τ SessionError Reading)
        (.of fun port => (.ok (Transport.read relayChunk port).1, (Transport.read relayChunk port).2)) := by
      intro t
      show (Except.ok (Transport.read relayChunk (behind t)).1, (Transport.read relayChunk (behind t)).2) = _
      rw [h.read]
      rfl
    refine mirrors_bind mirrors_session fun s => mirrors_ite ?_ (mirrors_pure ())
    refine mirrors_bind (mirrors_onPort hread) fun answer => ?_
    cases answer with
    | silent => exact mirrors_pure ()
    | failed e => exact mirrors_lose _
    | bytes bs =>
      cases bs with
      | nil => exact mirrors_lose _
      | cons b r => exact mirrors_bind (mirrors_relay _) fun _ => ih

theorem mirrors_quiesce : Mirrors (Desk.over behind) (quiesce : Conduct τ Unit) quiesce := by
  have hstop : Mirrors behind (do RawMode.interrupt; RawMode.exit : Operation τ SessionError Unit)
      (do RawMode.interrupt; RawMode.exit) :=
    mirrors_bind (RawMode.mirrors_interrupt h) fun _ => RawMode.mirrors_exit h
  refine mirrors_bind mirrors_session fun s => mirrors_ite ?_ (mirrors_pure ())
  exact mirrors_bind (mirrors_orAbandon (mirrors_onLink hstop)) fun _ =>
    mirrors_bind (mirrors_update _) fun _ => mirrors_move _

theorem mirrors_stop : Mirrors (Desk.over behind) (stop : Conduct τ Unit) stop := by
  refine mirrors_bind mirrors_session fun s => ?_
  split
  · exact mirrors_quiesce h
  · exact mirrors_pure ()
  · exact mirrors_throw _

theorem mirrors_run (p : Program) : Mirrors (Desk.over behind) (run p : Conduct τ Unit) (run p) := by
  have hbegin : ∀ timeout, Mirrors behind
      (do RawMode.enter timeout; RawMode.upload timeout p.bytes : Operation τ SessionError (List UInt8))
      (do RawMode.enter timeout; RawMode.upload timeout p.bytes) := fun timeout =>
    mirrors_bind (RawMode.mirrors_enter h timeout) fun _ => RawMode.mirrors_upload h timeout _
  refine mirrors_bind (mirrors_require _) fun _ => mirrors_bind (mirrors_quiesce h) fun _ =>
    mirrors_bind (mirrors_move _) fun _ => mirrors_bind mirrors_timeout fun timeout => ?_
  exact mirrors_bind (mirrors_orAbandon (mirrors_onLink (hbegin timeout))) fun _ =>
    mirrors_bind (mirrors_update _) fun _ => mirrors_relay _

theorem mirrors_writeBootProgram (timeout : Nat) (p : Program) :
    Mirrors behind (writeBootProgram timeout p : Operation τ SessionError Unit)
      (writeBootProgram timeout p) :=
  mirrors_bind (RawMode.mirrors_enter h timeout) fun _ =>
    mirrors_bind (RawMode.mirrors_execAll h timeout _) fun _ =>
      mirrors_bind (RawMode.mirrors_exit h) fun _ => RawMode.mirrors_restart h

theorem mirrors_save (p : Program) :
    Mirrors (Desk.over behind) (save p : Conduct τ SaveOutcome) (save p) := by
  refine mirrors_bind mirrors_session fun s => mirrors_ite (mirrors_throw _) ?_
  refine mirrors_ite (mirrors_pure _) ?_
  exact mirrors_bind (mirrors_quiesce h) fun _ => mirrors_bind (mirrors_move _) fun _ =>
    mirrors_bind mirrors_timeout fun timeout =>
      mirrors_bind (mirrors_orAbandon (mirrors_onLink (mirrors_writeBootProgram h timeout p))) fun _ =>
        mirrors_bind (mirrors_update _) fun _ => mirrors_pure _

theorem mirrors_input (bs : List UInt8) :
    Mirrors (Desk.over behind) (input bs : Conduct τ Unit) (input bs) := by
  refine mirrors_bind mirrors_session fun s => mirrors_ite (mirrors_throw _) ?_
  refine mirrors_ite (mirrors_throw _) ?_
  refine mirrors_bind (mirrors_attempt (mirrors_onPort (mirrors_mapError (h.write bs) _))) fun result => ?_
  cases result with
  | ok _ => exact mirrors_pure ()
  | error e => exact mirrors_bind (mirrors_lose _) fun _ => mirrors_throw e

theorem mirrors_sendImage (cancelled : σ → Bool) (j : Flash.Job) :
    Mirrors (Desk.over behind) (sendImage (fun t => cancelled (behind t)) j) (sendImage cancelled j) := by
  intro d
  rw [outcome_sendImage, outcome_sendImage, show (d.over behind).port = behind d.port from rfl,
    flash_watched h]
  show (if d.session.linked then _ else _) = _
  split <;> rfl

theorem mirrors_deliver (cancelled : σ → Bool) (j : Flash.Job) :
    Mirrors (Desk.over behind) (deliver (fun t => cancelled (behind t)) j) (deliver cancelled j) := by
  have hend : Mirrors (Desk.over behind)
      (do move .connected; throw .cancelled : Conduct τ FlashReport)
      (do move .connected; throw .cancelled) :=
    mirrors_bind (mirrors_move _) fun _ => mirrors_throw _
  refine mirrors_bind (mirrors_attempt (mirrors_sendImage h cancelled j)) fun result => ?_
  split
  · exact mirrors_bind (mirrors_move _) fun _ => mirrors_pure _
  · refine mirrors_bind mirrors_session fun s => mirrors_ite ?_ hend
    -- the restart may fail, which is only warned of
    refine mirrors_bind (mirrors_attempt (mirrors_onPort (mirrors_mapError h.hardReset _))) fun answer => ?_
    split
    · exact mirrors_bind (mirrors_warn _) fun _ => hend
    · exact hend
  · exact mirrors_bind (mirrors_abandon _) fun _ => mirrors_throw _

theorem mirrors_flash (cancelled : σ → Bool) (image : List UInt8) (expected : Nat) :
    Mirrors (Desk.over behind) (flash (fun t => cancelled (behind t)) image expected)
      (flash cancelled image expected) :=
  mirrors_bind (fun _ => rfl) fun _ => mirrors_bind (mirrors_require _) fun _ =>
    mirrors_bind (mirrors_quiesce h) fun _ => mirrors_bind (mirrors_move _) fun _ =>
      mirrors_bind mirrors_session fun _ => mirrors_deliver h cancelled _

end Transport

theorem mirrors_connect [Connector σ] [Connector τ]
    (hopen : ∀ settings (t : τ), Connector.openLink settings (behind t) =
      ((Connector.openLink settings t).1, behind (Connector.openLink settings t).2)) :
    Mirrors (Desk.over behind) (connect : Conduct τ Unit) connect :=
  mirrors_bind (mirrors_move _) fun _ => mirrors_bind mirrors_session fun s =>
    mirrors_bind (mirrors_orAbandon (mirrors_onPort (mirrors_mapError (hopen s.device) _))) fun _ =>
      mirrors_bind (mirrors_update _) fun _ => mirrors_move _

/-- **A request over a link that is recorded goes as it would over the link itself.** -/
theorem mirrors_perform [Connector σ] (cancelled : σ → Bool) (r : Request) :
    Mirrors (Desk.over Recorded.link) (r.perform fun l : Recorded σ => cancelled l.link)
      (r.perform cancelled) := by
  have hlink : Observes (Recorded.link : Recorded σ → σ) := observes_recorded
  cases r with
  | connect => exact mirrors_bind (mirrors_connect fun _ _ => rfl) fun _ => mirrors_pure _
  | disconnect => exact mirrors_bind mirrors_disconnect fun _ => mirrors_pure _
  | stop => exact mirrors_bind (mirrors_stop hlink) fun _ => mirrors_pure _
  | clear => exact mirrors_bind (mirrors_update _) fun _ => mirrors_pure _
  | snapshot => exact mirrors_bind mirrors_session fun _ => mirrors_pure _
  | run p => exact mirrors_bind (mirrors_run hlink p) fun _ => mirrors_pure _
  | save p => exact mirrors_bind (mirrors_save hlink p) fun _ => mirrors_pure _
  | input bs => exact mirrors_bind (mirrors_input hlink bs) fun _ => mirrors_pure _
  | flash image expected =>
    exact mirrors_bind (mirrors_flash hlink cancelled image expected) fun _ => mirrors_pure _

end Conduct

/-! ## Histories -/

/-- What happens to a session over a recorded link when something happens to the session over the link. -/
def Occurrence.recorded : Occurrence σ → Occurrence (Recorded σ)
  | .request cancelled r => .request (fun l => cancelled l.link) r
  | .relay reads => .relay reads
  | .change f => .change fun l => { l with link := f l.link }

theorem Desk.after_over [Connector σ] (d : Desk (Recorded σ)) (o : Occurrence σ) :
    (d.over Recorded.link).after o = (d.after o.recorded).over Recorded.link := by
  cases o with
  | request cancelled r => exact congrArg Prod.snd (Conduct.mirrors_perform cancelled r d)
  | relay reads => exact congrArg Prod.snd (Conduct.mirrors_relayWithin observes_recorded reads d)
  | change f => rfl

/-- Every session that can be reached is behind one whose link is recorded. -/
theorem Desk.Reachable.exists_recorded [Connector σ] {s : Settings} {d : Desk σ} (h : d.Reachable s) :
    ∃ d' : Desk (Recorded σ), d'.Reachable s ∧ d'.over Recorded.link = d := by
  induction h with
  | start port => exact ⟨_, .start { link := port }, rfl⟩
  | after _ o ih =>
    obtain ⟨d', hd', rfl⟩ := ih
    exact ⟨d'.after o.recorded, hd'.after o.recorded, (d'.after_over o).symm⟩

/-- Recording a link is transparent to the sessions over it: each that can be reached is behind one whose link
is recorded, and whatever they are asked for, the two go the same way. -/
structure Recorded.Transparent (σ : Type) [Connector σ] : Prop where
  reached : ∀ (s : Settings) (d : Desk σ), d.Reachable s →
    ∃ d' : Desk (Recorded σ), d'.Reachable s ∧ d'.over Recorded.link = d
  asked : ∀ (cancelled : σ → Bool) (r : Request),
    Mirrors (Desk.over Recorded.link) (r.perform fun l : Recorded σ => cancelled l.link)
      (r.perform cancelled)

/-- **Recording the link of a session changes nothing.** -/
theorem Recorded.transparent (σ : Type) [Connector σ] : Recorded.Transparent σ where
  reached _ _ h := h.exists_recorded
  asked := Conduct.mirrors_perform

end BlockBoard
