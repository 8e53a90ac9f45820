import BlockBoard.Proofs.Session.Agreeing
import BlockBoard.Proofs.Session.Cancelling
import BlockBoard.Proofs.Session.Failing
import BlockBoard.Proofs.Session.Flashing
/-!
# Saves that are skipped

A save is skipped if a program with the same digest was saved before over the same connection. What a
session has been asked since then, and what it answered, shows what can have happened to the board in
between.

- `Desk.Lived`: a session with everything that it has been asked, and its answers.
- `LeavesSaved`: an answered request that neither opens nor closes a link, nor writes a program.
- `Conduct.holds_after`: what has been saved over a link is found in its history one step earlier.
- `Conduct.cancelled_calls`: a request that was cancelled has asked for nothing that changes the flash.
- `save_unchanged`: **a save that is skipped was written before over the same connection**, and what was
  cancelled since then has erased nothing.
- `unchanged_after_flash`: a flash of the board in between goes unnoticed.
-/

namespace BlockBoard

/-! ## Histories with answers -/

/-- A request with its answer. -/
abbrev Exchange : Type := Request × Except SessionError Reply

variable {σ : Type} [Connector σ]

/-- The request and the answer in an occurrence, if it is a request. -/
def Desk.exchange? (d : Desk σ) : Occurrence σ → Option Exchange
  | .request cancelled r => some (r, ((r.perform cancelled).outcome d).1)
  | .relay _ | .change _ => none

/-- A session that can be reached from its start with some settings, by a history with these requests and
answers. -/
inductive Desk.Lived (s : Settings) : List Exchange → Desk σ → Prop
  | start (port : σ) : Lived s [] (Desk.start s.device s.flash s.maxLines.toNat port)
  | after {log : List Exchange} {d : Desk σ} (h : Lived s log d) (o : Occurrence σ) :
      Lived s (log ++ (d.exchange? o).toList) (d.after o)

theorem Desk.Lived.reachable {s : Settings} {log : List Exchange} {d : Desk σ} (h : d.Lived s log) :
    d.Reachable s := by
  induction h with
  | start port => exact .start port
  | after _ o ih => exact ih.after o

/-- An exchange after which the connection is the same, and so is the program that was saved over it: what
is carried out neither connects nor disconnects nor writes a program, and what fails is refused or a flash
that was cancelled. -/
structure LeavesSaved (e : Exchange) : Prop where
  connection : ∀ reply, e.2 = .ok reply → e.1 ≠ .connect ∧ e.1 ≠ .disconnect
  program : ∀ n digest, e.2 ≠ .ok (.saved (.written n digest))
  failure : ∀ error, e.2 = .error error → Conduct.Mild error
  cancelled : e.2 = .error .cancelled → ∃ image expected, e.1 = .flash image expected

namespace Conduct

/-! ## What a session holds -/

/-- A board is at the other end, and a program with a digest was saved over the connection. -/
def Holds (digest : String) (s : Session) : Prop := s.saved = some digest ∧ s.state.isConnected = true

theorem Holds.not_detached {digest : String} {s : Session} (h : Holds digest s) : ¬ Detached s := by
  rintro ⟨-, hdetached⟩
  rw [h.2] at hdetached
  cases hdetached

section Change

omit [Connector σ]

/-- Nothing is held over a link that has just been opened. -/
theorem not_holds_opened (d : Desk σ) (digest : String) : ¬ Holds digest d.opened.session :=
  fun h => nomatch h.1

/-- **No elementary change makes a session hold a program.** -/
theorem Change.holds {d d' : Desk σ} (h : Change d d') (hsound : d.session.Sound) {digest : String}
    (hholds : Holds digest d'.session) : Holds digest d.session := by
  cases h with
  | aside h => exact ⟨h.saved ▸ hholds.1, h.state ▸ hholds.2⟩
  | moved hnext hmove =>
    exact ⟨hholds.1, SessionState.isConnected_of_canMoveTo hsound.settled hholds.2 hmove⟩
  | abandoned => exact absurd (detached_abandoned d) hholds.not_detached
  | closed => exact absurd (detached_closed d) hholds.not_detached
  | opened hmove => exact absurd hholds (not_holds_opened d digest)
  | refused hmove => exact absurd (detached_abandoned _) hholds.not_detached
  | flashed hmove =>
    exact ⟨hholds.1, SessionState.isConnected_of_canMoveTo hsound.settled rfl hmove⟩
  | failed hmove => exact absurd (detached_abandoned _) hholds.not_detached

theorem Changes.holds {d d' : Desk σ} (h : Changes d d') (hsound : d.session.Sound) {digest : String}
    (hholds : Holds digest d'.session) : Holds digest d.session := by
  induction h with
  | refl => exact hholds
  | tail hbefore hlast ih =>
    exact ih (hlast.holds ((Changes.keeps hbefore).sound hsound) hholds)

end Change

/-! ## One step back in a history -/

/-- A link that was opened has nothing saved over it. -/
theorem saved_of_connect {cancelled : σ → Bool} {d d' : Desk σ} {reply : Reply}
    (h : (Request.connect.perform cancelled).outcome d = (.ok reply, d')) :
    d'.session.saved = none := by
  obtain ⟨_, d₁, hconnect, hreply⟩ := Operation.eq_ok_of_bind h
  cases hreply
  obtain ⟨_, d₂, -, hconnect⟩ := Operation.eq_ok_of_bind hconnect
  rw [outcome_session_bind] at hconnect
  obtain ⟨_, d₃, -, hconnect⟩ := Operation.eq_ok_of_bind hconnect
  obtain ⟨_, d₄, hupdate, hmove⟩ := Operation.eq_ok_of_bind hconnect
  cases hupdate
  rw [outcome_move] at hmove
  split at hmove
  · cases hmove
    rfl
  · cases hmove

theorem detached_of_disconnect (cancelled : σ → Bool) (d : Desk σ) :
    Detached ((Request.disconnect.perform cancelled).outcome d).2.session := by
  have hperform : (Request.disconnect.perform cancelled).outcome d = (.ok .done, d.closed) :=
    Operation.bind_of_ok (outcome_disconnect d)
  rw [hperform]
  exact detached_closed d

/-- Only a request to save answers that a program was saved. -/
theorem save_of_answer {cancelled : σ → Bool} {r : Request} {d d' : Desk σ} {outcome : SaveOutcome}
    (h : (r.perform cancelled).outcome d = (.ok (.saved outcome), d')) : ∃ p, r = .save p := by
  cases r with
  | save p => exact ⟨p, rfl⟩
  | _ =>
    obtain ⟨_, d₁, -, hreply⟩ := Operation.eq_ok_of_bind h
    cases hreply

/-- A request after which a session holds a program has left it alone, or has written it. -/
theorem leavesSaved_perform {cancelled : σ → Bool} {r : Request} {d d' : Desk σ}
    {answer : Except SessionError Reply} (h : (r.perform cancelled).outcome d = (answer, d'))
    {digest : String} (hholds : Holds digest d'.session)
    (hanswer : ∀ n digest, answer ≠ .ok (.saved (.written n digest))) : LeavesSaved (r, answer) := by
  refine ⟨fun reply hreply => ⟨?_, ?_⟩, hanswer, fun error herror => ?_, fun hcancelled => ?_⟩
  · rintro rfl
    cases hreply
    rw [Holds, saved_of_connect h] at hholds
    cases hholds.1
  · rintro rfl
    have hdetached := detached_of_disconnect cancelled d
    rw [h] at hdetached
    exact hholds.not_detached hdetached
  · cases herror
    rcases perform_costsLink cancelled r d error d' h with hmild | hdetached
    · exact hmild
    · exact absurd hdetached hholds.not_detached
  · cases hcancelled
    exact flash_of_cancelled h

/-- What a session holds after something has happened it held before, or it has just been written. -/
theorem holds_after {d : Desk σ} (hsound : d.session.Sound) (o : Occurrence σ) {digest : String}
    (hholds : Holds digest (d.after o).session) :
    (∃ q : Program, q.digest = digest ∧
      d.exchange? o = some (.save q, .ok (.saved (.written q.bytes.length digest)))) ∨
    Holds digest d.session ∧ ∀ e ∈ d.exchange? o, LeavesSaved e := by
  cases o with
  | relay reads => exact .inr ⟨(changes_relayWithin reads d).holds hsound hholds, nofun⟩
  | change f => exact .inr ⟨hholds, nofun⟩
  | request cancelled r =>
    rcases hperform : (r.perform cancelled).outcome d with ⟨answer, d'⟩
    have hafter : d.after (.request cancelled r) = d' := by rw [Desk.after_request, hperform]
    have hexchange : d.exchange? (.request cancelled r) = some (r, answer) := by
      rw [Desk.exchange?, hperform]
    rw [hafter] at hholds
    rw [hexchange]
    -- a request that writes nothing comes to elementary changes
    have hleaves : Changes d d' → (∀ n digest, answer ≠ .ok (.saved (.written n digest))) →
        Holds digest d.session ∧ ∀ e ∈ some (r, answer), LeavesSaved e := by
      intro hchanges hanswer
      refine ⟨hchanges.holds hsound hholds, fun e he => ?_⟩
      cases he
      exact leavesSaved_perform hperform hholds hanswer
    by_cases hr : ∀ p, r ≠ .save p
    · have hchanges := changes_perform cancelled hr d
      rw [hperform] at hchanges
      refine .inr (hleaves hchanges ?_)
      rintro n digest rfl
      obtain ⟨p, hp⟩ := save_of_answer hperform
      exact hr p hp
    · obtain ⟨p, rfl⟩ : ∃ p, r = .save p := by simpa using hr
      rcases hsave : (save p : Conduct σ SaveOutcome).outcome d with ⟨result, d₁⟩
      rw [perform_save, hsave] at hperform
      obtain ⟨rfl, rfl⟩ := Prod.mk.inj hperform
      rcases save_cases hsave with ⟨hchanges, hresult⟩ | ⟨d₂, -, rfl, rfl⟩
      · refine .inr (hleaves hchanges fun n digest hanswer => ?_)
        cases result with
        | ok outcome =>
          cases hanswer
          exact hresult n digest rfl
        | error e => cases hanswer
      · obtain rfl : p.digest = digest := Option.some.inj hholds.1
        exact .inl ⟨p, rfl, rfl⟩

/-! ## Requests that were cancelled -/

/-- **A request that was cancelled has asked for nothing that changes the flash**, and then for one
restart. -/
theorem cancelled_calls {cancelled : Recorded σ → Bool} {r : Request} {d d' : Desk (Recorded σ)}
    (h : (r.perform cancelled).outcome d = (.error .cancelled, d')) :
    ∃ calls answer, d'.port.calls = d.port.calls ++ calls ++ [.hardReset answer] ∧
      ∀ c ∈ calls, Gentle c := by
  obtain ⟨image, expected, rfl⟩ := flash_of_cancelled h
  have hflash : (flash cancelled image expected).outcome d = (.error .cancelled, d') := flash_of_perform h
  exact (flash_cancelled_calls hflash).2

/-- The flash of a simulated board is what it was before a request that was cancelled. -/
theorem cancelled_storage {cancelled : Board → Bool} {r : Request} {d d' : Desk Board}
    (h : (r.perform cancelled).outcome d = (.error .cancelled, d')) :
    d'.port.storage = d.port.storage := by
  obtain ⟨image, expected, rfl⟩ := flash_of_cancelled h
  exact (flash_cancelled_board (flash_of_perform h)).1

end Conduct

/-! ## Whole histories -/

/-- A program that a session holds was written, and everything since then has left it alone. -/
theorem Desk.Lived.written_of_holds {s : Settings} {log : List Exchange} {d : Desk σ}
    (h : d.Lived s log) {digest : String} (hholds : Conduct.Holds digest d.session) :
    ∃ before q after,
      log = before ++ (.save q, .ok (.saved (.written q.bytes.length digest))) :: after ∧
      q.digest = digest ∧ ∀ e ∈ after, LeavesSaved e := by
  induction h with
  | start port => cases hholds.1
  | @after log d hlived o ih =>
    rcases Conduct.holds_after hlived.reachable.sound.1 o hholds with
      ⟨q, hq, hexchange⟩ | ⟨hbefore, hleaves⟩
    · exact ⟨log, q, [], by rw [hexchange]; rfl, hq, by simp⟩
    · obtain ⟨before, q, after, rfl, hq, hafter⟩ := ih hbefore
      refine ⟨before, q, after ++ (d.exchange? o).toList, by simp, hq, fun e he => ?_⟩
      rcases List.mem_append.mp he with he | he
      · exact hafter e he
      · exact hleaves e (by simpa using he)

/-- **A save that is skipped was written before over the same connection.**

For all settings, every link and every board, and every history: if a save is skipped, then nothing has
changed, and an earlier save of a program with the same digest was written; since then the session has
neither connected nor disconnected nor saved anything else, and every failure was a refusal or a flash that
was cancelled. Over every link, whose record changes nothing, a request that was cancelled has asked for nothing
that changes the flash, and on a simulated board the flash is what it was. A flash in between that succeeded is
not excluded. -/
theorem save_unchanged {s : Settings} {log : List Exchange} {d d' : Desk σ} (h : d.Lived s log)
    {cancelled : σ → Bool} {p : Program} {digest : String}
    (hsave : ((Request.save p).perform cancelled).outcome d =
      (.ok (.saved (.unchanged digest)), d')) :
    digest = p.digest ∧ d' = d ∧
    (∃ before q after,
      log = before ++ (.save q, .ok (.saved (.written q.bytes.length p.digest))) :: after ∧
      q.digest = p.digest ∧ ∀ e ∈ after, LeavesSaved e) ∧
    (∀ (τ : Type) [Connector τ] (stop : Recorded τ → Bool) (r : Request) (b b' : Desk (Recorded τ)),
      (r.perform stop).outcome b = (.error .cancelled, b') → ∃ calls answer,
        b'.port.calls = b.port.calls ++ calls ++ [.hardReset answer] ∧
        ∀ c ∈ calls, Conduct.Gentle c) ∧
    (∀ (τ : Type) [Connector τ], Recorded.Transparent τ) ∧
    ∀ (stop : Board → Bool) (r : Request) (b b' : Desk Board),
      (r.perform stop).outcome b = (.error .cancelled, b') → b'.port.storage = b.port.storage := by
  obtain ⟨outcome, d₁, hskipped, hreply⟩ := Operation.eq_ok_of_bind hsave
  cases hreply
  obtain ⟨rfl, rfl, hsaved, hconnected⟩ := Conduct.save_of_unchanged hskipped
  have hholds : Conduct.Holds p.digest d'.session := ⟨hsaved, hconnected⟩
  exact ⟨rfl, rfl, h.written_of_holds hholds, fun _ _ _ _ _ _ => Conduct.cancelled_calls,
    fun τ _ => Recorded.transparent τ, fun _ _ _ _ => Conduct.cancelled_storage⟩

/-! ## A flash in between -/

/-- A session that has connected. -/
def agreedDesk : Desk AgreeingLink :=
  (Desk.start smallBlocks.device smallBlocks.flash smallBlocks.maxLines.toNat {}).after
    (.request (fun _ => false) .connect)

/-- A session that has connected and saved a program. -/
def savedDesk (p : Program) : Desk AgreeingLink := agreedDesk.after (.request (fun _ => false) (.save p))

/-- A session that has connected, saved a program and flashed the board. -/
def reflashedDesk (p : Program) : Desk AgreeingLink :=
  (savedDesk p).after (.request (fun _ => false) (.flash [0xE9, 1, 2, 3, 4] 5))

theorem agreedDesk_lived : agreedDesk.Lived smallBlocks [(.connect, .ok .done)] := by
  have hanswer : ((Request.connect.perform fun _ => false).outcome
      (Desk.start smallBlocks.device smallBlocks.flash smallBlocks.maxLines.toNat
        ({} : AgreeingLink))).1 = .ok .done := by decide +kernel
  have hlived := (Desk.Lived.start (s := smallBlocks) ({} : AgreeingLink)).after
    (.request (fun _ => false) .connect)
  rw [Desk.exchange?, hanswer] at hlived
  exact hlived

/-- The program is written, and runs. -/
theorem save_agreed (p : Program) : ∃ d : Desk AgreeingLink,
    ((Request.save p).perform fun _ => false).outcome agreedDesk =
      (.ok (.saved (.written p.bytes.length p.digest)), d) ∧
    d.session.device = smallBlocks.device ∧ d.session.flashing = smallBlocks.flash ∧
    d.session.state = .running ∧ d.session.linked = true ∧ d.session.saved = some p.digest := by
  have hagreed : agreedDesk.session.state = .connected ∧ agreedDesk.session.linked = true ∧
      agreedDesk.session.device = smallBlocks.device ∧
      agreedDesk.session.flashing = smallBlocks.flash ∧ agreedDesk.session.saved = none := by
    decide +kernel
  obtain ⟨hstate, hlinked, hdevice, hflashing, hsaved⟩ := hagreed
  obtain ⟨_, port, hwrite⟩ := AgreeingLink.grants_writeBootProgram
    agreedDesk.session.flashing.commandTimeout.toNat p agreedDesk.port
  have hsave := Conduct.save_of_ok (p := p) (by rw [hsaved]; nofun) (.inl hstate)
    (Conduct.quiesce_of_not_running (by rw [hstate]; nofun)) hstate hlinked hwrite
  refine ⟨Conduct.noted { agreedDesk.moved .running with port } p, ?_, hdevice, hflashing, rfl, hlinked,
    rfl⟩
  rw [Conduct.perform_save, hsave]
  rfl

theorem savedDesk_lived (p : Program) : (savedDesk p).Lived smallBlocks
    [(.connect, .ok .done), (.save p, .ok (.saved (.written p.bytes.length p.digest)))] := by
  obtain ⟨d, hsave, -⟩ := save_agreed p
  have hlived := agreedDesk_lived.after (.request (fun _ => false) (.save p))
  rw [Desk.exchange?, hsave] at hlived
  exact hlived

theorem save_unchanged_twice :
    (savedDesk endlessProgram).Lived smallBlocks [(.connect, .ok .done), (.save endlessProgram,
      .ok (.saved (.written endlessProgram.bytes.length endlessProgram.digest)))] ∧
    ((Request.save endlessProgram).perform fun _ => false).outcome (savedDesk endlessProgram) =
      (.ok (.saved (.unchanged endlessProgram.digest)), savedDesk endlessProgram) ∧
    ∃ before q after,
      [(.connect, .ok .done), (.save endlessProgram,
        .ok (.saved (.written endlessProgram.bytes.length endlessProgram.digest)))] =
        before ++ (.save q, .ok (.saved (.written q.bytes.length endlessProgram.digest))) :: after ∧
      ∀ e ∈ after, LeavesSaved e := by
  have hlived := savedDesk_lived endlessProgram
  obtain ⟨d, hsave, -, -, hstate, -, hsaved⟩ := save_agreed endlessProgram
  have hdesk : savedDesk endlessProgram = d := by rw [savedDesk, Desk.after_request, hsave]
  have hunchanged : ((Request.save endlessProgram).perform fun _ => false).outcome
      (savedDesk endlessProgram) = (.ok (.saved (.unchanged endlessProgram.digest)),
        savedDesk endlessProgram) := by
    rw [Conduct.perform_save, hdesk, Conduct.save_of_saved hsaved (.inr hstate)]
    rfl
  obtain ⟨-, -, ⟨before, q, after, hlog, -, hafter⟩, -⟩ := save_unchanged hlived hunchanged
  exact ⟨hlived, hunchanged, before, q, after, hlog, hafter⟩

theorem AgreeingLink.flash_ok (l : AgreeingLink) :
    (flash ⟨smallBlocks.device, smallBlocks.flash, [0xE9, 1, 2, 3, 4], 5⟩ (fun _ => false) l).result =
      .ok ⟨5, 5, 2, 0⟩ := by
  rcases l with ⟨_ | _⟩ <;> decide +kernel

/-- A program that runs is stopped, and the board is flashed; what was saved is remembered. -/
theorem flash_agreed {d : Desk AgreeingLink} (hdevice : d.session.device = smallBlocks.device)
    (hflashing : d.session.flashing = smallBlocks.flash) (hstate : d.session.state = .running)
    (hlinked : d.session.linked = true) : ∃ d',
    ((Request.flash [0xE9, 1, 2, 3, 4] 5).perform fun _ => false).outcome d =
      (.ok (.flashed ⟨5, 5, 2, 0⟩), d') ∧
    d'.session.state = .connected ∧ d'.session.saved = d.session.saved := by
  obtain ⟨_, port, hhalt⟩ := AgreeingLink.grants_halt d.port
  have hquiesce := Conduct.quiesce_of_halt (d := Conduct.begun [0xE9, 1, 2, 3, 4] d) hstate hlinked hhalt
  have hresult : (flash ⟨d.session.device, d.session.flashing, [0xE9, 1, 2, 3, 4], 5⟩ (fun _ => false)
      port).result = .ok ⟨5, 5, 2, 0⟩ := by
    rw [hdevice, hflashing]
    exact AgreeingLink.flash_ok port
  have hflash : (Conduct.flash (fun _ => false) [0xE9, 1, 2, 3, 4] 5).outcome d = _ :=
    Conduct.flash_of_ok (.inr hstate) hquiesce rfl hlinked hresult
  exact ⟨_, Operation.bind_of_ok hflash, rfl, rfl⟩

/-- **A flash in between goes unnoticed**: although the region was erased, the next save is skipped. -/
theorem unchanged_after_flash :
    (reflashedDesk endlessProgram).Lived smallBlocks [(.connect, .ok .done), (.save endlessProgram,
      .ok (.saved (.written endlessProgram.bytes.length endlessProgram.digest))),
      (.flash [0xE9, 1, 2, 3, 4] 5, .ok (.flashed ⟨5, 5, 2, 0⟩))] ∧
    ((Request.save endlessProgram).perform fun _ => false).outcome (reflashedDesk endlessProgram) =
      (.ok (.saved (.unchanged endlessProgram.digest)), reflashedDesk endlessProgram) := by
  obtain ⟨d, hsave, hdevice, hflashing, hstate, hlinked, hsaved⟩ := save_agreed endlessProgram
  obtain ⟨d', hflash, hstate', hsaved'⟩ := flash_agreed hdevice hflashing hstate hlinked
  have hdesk : savedDesk endlessProgram = d := by rw [savedDesk, Desk.after_request, hsave]
  have hdesk' : reflashedDesk endlessProgram = d' := by
    rw [reflashedDesk, hdesk, Desk.after_request, hflash]
  have hlived := (savedDesk_lived endlessProgram).after
    (.request (fun _ => false) (.flash [0xE9, 1, 2, 3, 4] 5))
  rw [Desk.exchange?, hdesk, hflash] at hlived
  refine ⟨by rw [reflashedDesk, hdesk]; exact hlived, ?_⟩
  rw [Conduct.perform_save, hdesk', Conduct.save_of_saved (hsaved'.trans hsaved) (.inl hstate')]
  rfl

end BlockBoard
