import Mathlib.Control.Monad.Basic
import BlockBoard.Proofs.Board.Cancelling
import BlockBoard.Proofs.Loader.Completeness
import BlockBoard.Proofs.Session.Watching
/-!
# Cancelling a flash

A request to cancel is honoured only before the region is erased, and then nothing is left behind: the
flash of the board is what it was, the link is at its first speed, and the board is restarted.

- `flash_cancelled_clean`: what a flash that was cancelled has asked of the link.
- `Conduct.flash_cancelled_calls`: the same for a whole request to a session, which ends with a restart.
- `Conduct.flash_cancelled_board`: what is left of it on a simulated board.
- `cancelled_before_erasing`: **all of this, for every link, every job and every moment at which the
  request to cancel is made**.
-/

namespace BlockBoard

open Flash

/-! ## A flash over a link -/

section Link

variable {σ : Type} [Transport σ]

/-- A flash over a link whose calls are recorded from the first on. -/
def recordedFlash (j : Job) (cancelled : Recorded σ → Bool) (port : σ) : Flashed (Recorded σ) :=
  flash j cancelled { link := port }

/-- The record changes nothing: this is the flash over the link by itself. -/
theorem flash_eq_recordedFlash (j : Job) (stop : σ → Bool) (port : σ) :
    flash j stop port = (recordedFlash j (fun l => stop l.link) port).over Recorded.link :=
  flash_recorded j stop { link := port }

/-- **A flash that is cancelled is cancelled cleanly.** -/
theorem flash_cancelled_clean {j : Job} {cancelled : Recorded σ → Bool} {link : Recorded σ}
    (h : (flash j cancelled link).result = .error .cancelled) :
    ∃ calls, (flash j cancelled link).link.calls = link.calls ++ calls ∧ CleanCancel j calls := by
  obtain ⟨r', hrun, hlink⟩ := outcome_of_error h
  rw [hlink]
  exact cleanCancel_of_takeAll hrun

end Link

/-! ## A request to a session -/

namespace Conduct

/-- A call that neither changes the flash nor restarts the board. -/
def Gentle (c : LinkCall) : Prop :=
  (∀ op : Loader.Op, op.writesFlash = true → ¬ c.tells op) ∧ ∀ answer, c ≠ .hardReset answer

theorem gentle_of_isRead {c : LinkCall} (h : c.isRead = true) : Gentle c :=
  ⟨fun op _ => c.not_tells_of_isRead h op, by rintro answer rfl; cases h⟩

/-- What is written to stop a program tells the loader nothing. -/
theorem gentle_write {bs : List UInt8} (h : (({} : Slip.Decoder).feed bs).1 = [])
    (answer : Except LinkError Unit) : Gentle (.write bs answer) := by
  refine ⟨fun op _ => ?_, by nofun⟩
  rintro ⟨rest, hmem⟩
  rw [h] at hmem
  cases hmem

theorem gentle_of_cleanCancel {j : Job} {calls : List LinkCall} (h : CleanCancel j calls) :
    ∀ c ∈ calls, Gentle c :=
  fun c hc => ⟨fun op hop => h.writes op hop c hc, fun answer heq => h.resets answer (heq ▸ hc)⟩

/-- Stopping a program is gentle. -/
theorem quiesce_gentle {σ : Type} [Transport σ] :
    (quiesce : Conduct (Recorded σ) Unit).Relates (OnPort (Recorded.Adds Gentle)) :=
  relates_quiesce (Recorded.steady_adds fun _ => gentle_of_isRead)
    (Recorded.adds_call (gentle_write rfl)) (Recorded.adds_call (gentle_write rfl))

/-- **A request that is cancelled asks for one restart of the board, at its end**, and before that for
nothing that changes the flash. -/
theorem flash_cancelled_calls {σ : Type} [Transport σ] {cancelled : Recorded σ → Bool}
    {image : List UInt8} {expected : Nat} {d d' : Desk (Recorded σ)}
    (h : (Conduct.flash cancelled image expected).outcome d = (.error .cancelled, d')) :
    d'.session.state = .connected ∧ ∃ calls answer,
      d'.port.calls = d.port.calls ++ calls ++ [.hardReset answer] ∧ ∀ c ∈ calls, Gentle c := by
  obtain ⟨d₁, hquiesce, hresult, hport, hstate⟩ := flash_cancelled h
  have hstop := quiesce_gentle (begun image d)
  rw [hquiesce] at hstop
  obtain ⟨before, hbefore, hgentle⟩ := hstop
  obtain ⟨calls, hcalls, hclean⟩ := flash_cancelled_clean hresult
  rcases hreset : Transport.hardReset
    (BlockBoard.flash (job d₁ image expected) cancelled d₁.port).link with ⟨answer, port⟩
  rw [hreset] at hport
  -- what stops a program comes first, then the flash, then the restart
  refine ⟨hstate, before ++ calls, answer, ?_, ?_⟩
  · rw [hport, calls_hardReset hreset, hcalls, hbefore]
    simp [begun]
  · intro c hc
    rcases List.mem_append.mp hc with hc | hc
    · exact hgentle c hc
    · exact gentle_of_cleanCancel hclean c hc

/-- **A request that is cancelled leaves the flash of a simulated board alone.** If the board is still
connected then it has left its loader. -/
theorem flash_cancelled_board {cancelled : Board → Bool} {image : List UInt8} {expected : Nat}
    {d d' : Desk Board}
    (h : (Conduct.flash cancelled image expected).outcome d = (.error .cancelled, d')) :
    d'.port.storage = d.port.storage ∧ (d'.port.connected = true → d'.port.mode ≠ .loader) := by
  obtain ⟨d₁, hquiesce, hresult, hport, -⟩ := flash_cancelled h
  have hstop : (quiesce : Conduct Board Unit).Relates (OnPort Board.Untouched) := by
    refine relates_quiesce Board.steady_untouched (fun b => ?_) fun b => ?_
    · exact Board.untouched_write (by decide) b
    · exact Board.untouched_write (by decide) b
  have hstop := hstop (begun image d)
  rw [hquiesce] at hstop
  obtain ⟨r', hrun, hlink⟩ := outcome_of_error hresult
  have hsame : Board.SameFlash d.port r'.link :=
    hstop.sameFlash.trans (Board.sameFlash_of_cancelled hrun)
  rw [hlink, Board.hardReset_eq, Board.ifConnected] at hport
  rw [hport, ← hsame.storage]
  split
  · exact ⟨(Board.untouched_boot _).storage, fun _ => by rw [Board.mode_boot]; decide⟩
  · rename_i hlost
    exact ⟨rfl, fun hconnected => absurd hconnected hlost⟩

/-- A request to flash fails as the flash does. -/
theorem flash_of_perform {σ : Type} [Connector σ] {cancelled : σ → Bool} {image : List UInt8}
    {expected : Nat} {e : SessionError} {d d' : Desk σ}
    (h : ((Request.flash image expected).perform cancelled).outcome d = (.error e, d')) :
    (Conduct.flash cancelled image expected).outcome d = (.error e, d') := by
  rcases Operation.bind_cases h with ⟨e', hflash, he⟩ | ⟨report, d₁, -, hreply⟩
  · cases he
    exact hflash
  · cases hreply

end Conduct

/-! ## Everything together -/

/-- **A request to cancel is honoured only before the erase, and cleanly.**

For every link, every job and every rule by which the request to cancel is made: a flash that is
cancelled is cancelled cleanly; one that has begun to erase is not cancelled; and if the request is made
at the latest with the command that changes the speed, and stands from then on, then nothing is erased.
For a session: a flash that is cancelled is followed by one restart of the board, and the session is
connected; on a simulated board, its flash is what it was, and if it is still connected then it has left
its loader. The record of the calls changes nothing: over the link by itself, a flash and a session go the same
way. -/
theorem cancelled_before_erasing :
    (∀ (σ : Type) [Transport σ] (j : Job) (cancelled : Recorded σ → Bool) (port : σ),
      ((recordedFlash j cancelled port).result = .error .cancelled →
        CleanCancel j (recordedFlash j cancelled port).link.calls) ∧
      ((∃ c ∈ (recordedFlash j cancelled port).link.calls, c.tells .flashBegin) →
        (recordedFlash j cancelled port).result ≠ .error .cancelled)) ∧
    (∀ (σ : Type) [Transport σ] (j : Job) (token : List LinkCall → Bool) (port : σ),
      (∀ before after, token before = true → token (before ++ after) = true) →
      (∀ before, before ++ [.write j.speedCommand.frame (.ok ())] <+:
          (recordedFlash j (fun l => token l.calls) port).link.calls →
        token (before ++ [.write j.speedCommand.frame (.ok ())]) = true) →
      ∀ c ∈ (recordedFlash j (fun l => token l.calls) port).link.calls, ¬ c.tells .flashBegin) ∧
    (∀ (σ : Type) [Connector σ] (cancelled : Recorded σ → Bool) (image : List UInt8) (expected : Nat)
      (d d' : Desk (Recorded σ)),
      ((Request.flash image expected).perform cancelled).outcome d = (.error .cancelled, d') →
      d'.session.state = .connected ∧ ∃ calls answer,
        d'.port.calls = d.port.calls ++ calls ++ [.hardReset answer] ∧
        ∀ c ∈ calls, Conduct.Gentle c) ∧
    (∀ (cancelled : Board → Bool) (image : List UInt8) (expected : Nat) (d d' : Desk Board),
      ((Request.flash image expected).perform cancelled).outcome d = (.error .cancelled, d') →
      d'.port.connected = true →
      d'.port.flash = d.port.flash ∧ d'.port.flashOffset = d.port.flashOffset ∧
        d'.port.blocks = d.port.blocks ∧ d'.port.mode ≠ .loader) ∧
    (∀ (σ : Type) [Transport σ] (j : Job) (stop : σ → Bool) (port : σ),
      flash j stop port = (recordedFlash j (fun l => stop l.link) port).over Recorded.link) ∧
    ∀ (σ : Type) [Connector σ], Recorded.Transparent σ := by
  have hclean : ∀ (σ : Type) [Transport σ] (j : Job) (cancelled : Recorded σ → Bool) (port : σ),
      (recordedFlash j cancelled port).result = .error .cancelled →
        CleanCancel j (recordedFlash j cancelled port).link.calls := by
    intro σ _ j cancelled port h
    obtain ⟨calls, hcalls, hclean⟩ := flash_cancelled_clean h
    rw [recordedFlash, hcalls]
    exact hclean
  refine ⟨fun σ _ j cancelled port => ⟨hclean σ j cancelled port, ?_⟩, ?_, ?_, ?_,
    fun σ _ => flash_eq_recordedFlash, fun σ _ => Recorded.transparent σ⟩
  · rintro ⟨c, hc, htells⟩ h
    exact (hclean σ j cancelled port h).writes .flashBegin rfl c hc htells
  · intro σ _ j token port hstands hmade c hc
    rcases hrun : (takeAll j (fun l : Recorded σ => token l.calls) j.plan).outcome
      (Run.start j { link := port }) with ⟨result, r'⟩
    have hlink : (recordedFlash j (fun l => token l.calls) port).link = r'.link :=
      congrArg (fun x => x.2.link) hrun
    rw [hlink] at hmade hc
    obtain ⟨calls, hcalls, hnot⟩ := not_begun_of_token hstands hmade hrun
    exact hnot c (by rw [hcalls] at hc; exact hc)
  · intro σ _ cancelled image expected d d' h
    exact Conduct.flash_cancelled_calls (Conduct.flash_of_perform h)
  · intro cancelled image expected d d' h hconnected
    obtain ⟨hstorage, hmode⟩ := Conduct.flash_cancelled_board (Conduct.flash_of_perform h)
    exact ⟨congrArg Board.Storage.flash hstorage, congrArg Board.Storage.offset hstorage,
      congrArg Board.Storage.blocks hstorage, hmode hconnected⟩

/-- A link that answers every command of the loader. -/
def loaderLink : ScriptedLink := { script := { rule := .loader } }

/-- Whether the command that changes the speed for the flash of two blocks has been written. -/
def speedToken (calls : List LinkCall) : Bool :=
  calls.any fun c => match c with
    | .write bs _ => bs == twoBlocks.speedCommand.frame
    | _ => false

/-- A session that is connected to a board. -/
def connectedDesk {σ : Type} (port : σ) : Desk σ :=
  { session := { state := .connected, status := .connected, linked := true }, port }

/-- A request to flash three bytes that is cancelled as soon as the board has changed its speed. -/
def lateCancel {σ : Type} [Connector σ] (board : σ → Board) (port : σ) :
    Except SessionError Reply × Desk σ :=
  ((Request.flash [1, 2, 3] 3).perform fun p => !(board p).bauds.isEmpty).outcome (connectedDesk port)

theorem cancelled_before_erasing_late :
    CleanCancel twoBlocks (recordedFlash twoBlocks (fun l => speedToken l.calls) loaderLink).link.calls ∧
    (∀ c ∈ (recordedFlash twoBlocks (fun l => speedToken l.calls) loaderLink).link.calls,
      ¬ c.tells .flashBegin) ∧
    (∃ d' : Desk (Recorded Board), d'.session.state = .connected ∧ ∃ calls answer,
      d'.port.calls = calls ++ [.hardReset answer] ∧ ∀ c ∈ calls, Conduct.Gentle c) ∧
    ∃ d' : Desk Board, d'.port.bauds = [921600, 115200] ∧ d'.port.flash = [7] ∧
      d'.port.mode ≠ .loader := by
  obtain ⟨hlink, htoken, hsession, hboard, -⟩ := cancelled_before_erasing
  have hcancelled : (recordedFlash twoBlocks (fun l => speedToken l.calls) loaderLink).result =
      .error .cancelled := by decide +kernel
  refine ⟨(hlink ScriptedLink twoBlocks _ loaderLink).1 hcancelled,
    htoken ScriptedLink twoBlocks speedToken loaderLink ?_ ?_, ?_, ?_⟩
  · intro before after h
    rw [speedToken, List.any_append, ← speedToken, h, Bool.true_or]
  · intro before _
    simp [speedToken]
  · have hresult : (lateCancel Recorded.link { link := { connected := true } }).1 =
        .error .cancelled := by decide +kernel
    rcases hrun : lateCancel Recorded.link { link := { connected := true } } with ⟨result, d'⟩
    rw [hrun] at hresult
    cases hresult
    obtain ⟨hstate, calls, answer, hcalls, hgentle⟩ := hsession Board _ [1, 2, 3] 3 _ d' hrun
    exact ⟨d', hstate, calls, answer, hcalls, hgentle⟩
  · have hresult : (lateCancel id { connected := true, flash := [7] }).1 = .error .cancelled := by
      decide +kernel
    have hport : (lateCancel id { connected := true, flash := [7] }).2.port.connected = true ∧
        (lateCancel id { connected := true, flash := [7] }).2.port.bauds = [921600, 115200] := by
      decide +kernel
    rcases hrun : lateCancel id { connected := true, flash := [7] } with ⟨result, d'⟩
    rw [hrun] at hresult hport
    cases hresult
    obtain ⟨hflash, -, -, hmode⟩ := hboard _ [1, 2, 3] 3 _ d' hrun hport.1
    exact ⟨d', hport.2, hflash, hmode⟩

end BlockBoard
