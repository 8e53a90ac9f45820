import BlockBoard.Proofs.Session.Ports
import BlockBoard.Proofs.Session.Refusing
/-!
# Images of a wrong size

The flash itself checks the size of its image, as the first of its steps. By then a session has stopped the
program that was running: an image that is rejected leaves the port alone where no program runs, and costs
the program where one does. It costs no more than that.

- `flash_of_verify_error`: a flash that is rejected asks nothing of its link.
- `LinkCall.IsHalting`: what stopping a program asks of a link.
- `flash_rejected`: **an image of a wrong size is never sent**, whatever session that can be reached is
  asked to: at most what stopping a program takes is asked of the link.
-/

namespace BlockBoard

/-! ## The flash -/

/-- **A flash that is rejected asks nothing of its link.** -/
theorem flash_of_verify_error {σ : Type} [Transport σ] {j : Flash.Job} {e : TransferError}
    (h : verifyTransferSize j.image.length j.expected j.settings.minTransferRatio = .error e)
    (cancelled : σ → Bool) (link : σ) :
    (flash j cancelled link).result = .error (.transfer e) ∧ (flash j cancelled link).link = link := by
  let check := Flash.plainStep (.verify j.image.length)
  have hperform : (check.action.perform j cancelled).outcome (.start j link) =
      (.error (.transfer e), Flash.Run.start j link) := by
    show ((Flash.Action.verify j.image.length).perform j cancelled).outcome _ = _
    rw [Flash.outcome_verify, h]
  have hcheck : (check.take j cancelled).outcome (.start j link) =
      (.error (.transfer e), Flash.Run.start j link) := by
    rw [Flash.Step.outcome_take, hperform]
  have hplan : j.plan = [] ++ check :: j.plan.tail := rfl
  have hrun : (Flash.takeAll j cancelled j.plan).outcome (.start j link) =
      (.error (.transfer e), Flash.Run.start j link) := by
    rw [hplan]
    exact Flash.takeAll_of_error rfl hcheck
  rw [flash_eq, hrun]
  exact ⟨rfl, rfl⟩

/-! ## Stopping a program -/

open Conduct in
/-- What stopping a program asks of a link: the program is interrupted, what it has said is read, and the
raw prompt is left. -/
def LinkCall.IsHalting (c : LinkCall) : Prop :=
  c.isRead = true ∨ ∃ answer, c = .write interruption answer ∨ c = .write leave answer

namespace Conduct

variable {σ : Type}

theorem halt_adds [Transport σ] :
    (halt : Operation (Recorded σ) SessionError Unit).Relates (Recorded.Adds LinkCall.IsHalting) :=
  relates_halt (Recorded.steady_adds fun _ => .inl)
    (Recorded.adds_call fun answer => .inr ⟨answer, .inl rfl⟩)
    (Recorded.adds_call fun answer => .inr ⟨answer, .inr rfl⟩)

/-! ## A request to flash -/

/-- A flash that is rejected, once no program runs, leaves the port alone. -/
theorem flash_rejected_of_quiesced [Transport σ] {image : List UInt8} (expected : Nat) {d d₁ : Desk σ}
    {e : TransferError} (cancelled : σ → Bool) (hstate : Attentive d.session)
    (hquiesce : (quiesce : Conduct σ Unit).outcome (begun image d) = (.ok (), d₁))
    (hready : d₁.session.state = .connected) (hlinked : d₁.session.linked = true)
    (hsizes : verifyTransferSize image.length expected d₁.session.flashing.minTransferRatio = .error e) :
    ∃ d', (flash cancelled image expected).outcome d = (.error (.transfer e), d') ∧
      d'.port = d₁.port := by
  obtain ⟨hresult, hlink⟩ := flash_of_verify_error (j := job d₁ image expected) hsizes cancelled d₁.port
  obtain ⟨notices, hflash⟩ := flash_of_error (by nofun) hstate hquiesce hready hlinked hresult
  refine ⟨_, hflash, ?_⟩
  show (Desk.abandoned _).port = _
  rw [Desk.abandoned, Desk.port_movedIfPossible]
  exact hlink

/-- Where no program runs, an image that is rejected leaves the port alone. -/
theorem flash_rejected_connected [Transport σ] {image : List UInt8} {expected : Nat} {d : Desk σ}
    {e : TransferError} (cancelled : σ → Bool) (hstate : d.session.state = .connected)
    (hlinked : d.session.linked = true)
    (hsizes : verifyTransferSize image.length expected d.session.flashing.minTransferRatio = .error e) :
    ∃ d', (flash cancelled image expected).outcome d = (.error (.transfer e), d') ∧ d'.port = d.port := by
  have hready : (begun image d).session.state = .connected := hstate
  have hquiesce : (quiesce : Conduct σ Unit).outcome (begun image d) = (.ok (), begun image d) :=
    quiesce_of_not_running (by rw [hready]; decide)
  obtain ⟨d', hflash, hport⟩ :=
    flash_rejected_of_quiesced expected cancelled (.inl hstate) hquiesce hready hlinked hsizes
  exact ⟨d', hflash, hport⟩

/-- Where a program runs, an image that is rejected leaves the port as stopping the program does. -/
theorem flash_rejected_running [Transport σ] {image : List UInt8} {expected : Nat} {d : Desk σ}
    {e : TransferError} (cancelled : σ → Bool) (hstate : d.session.state = .running)
    (hlinked : d.session.linked = true)
    (hsizes : verifyTransferSize image.length expected d.session.flashing.minTransferRatio = .error e) :
    ∃ d' answer failure, (flash cancelled image expected).outcome d = (.error failure, d') ∧
      (halt : Operation σ SessionError Unit).outcome d.port = (answer, d'.port) ∧
      (answer = .ok () → failure = .transfer e) := by
  rcases hquiesce : (quiesce : Conduct σ Unit).outcome (begun image d) with ⟨answer, d₁⟩
  obtain ⟨port, hhalt, hport, hdone⟩ := quiesce_cases (d := begun image d) hstate hlinked hquiesce
  cases answer with
  | ok a =>
    obtain rfl := hdone rfl
    obtain ⟨d', hflash, hsame⟩ := flash_rejected_of_quiesced expected cancelled (.inr hstate) hquiesce
      rfl hlinked hsizes
    have hleft : d'.port = port := hsame
    exact ⟨d', .ok a, .transfer e, hflash, by rw [hleft]; exact hhalt, fun _ => rfl⟩
  | error failure =>
    have hrequire := require_of_attentive (d := begun image d) (.inr rfl) (.inr hstate)
    have hflash : (flash cancelled image expected).outcome d = (.error failure, d₁) := by
      rw [outcome_flash, Operation.bind_of_ok hrequire]
      exact Operation.bind_of_error hquiesce
    exact ⟨d₁, .error failure, failure, hflash, by rw [hport]; exact hhalt, nofun⟩

end Conduct

/-! ## Everything together -/

open Conduct in
/-- **An image of a wrong size is never sent.**

For all settings, every link, every session that can be reached and every image whose size is not in order:
the flash fails. If no program runs, nothing has been asked of the link, and a session that is connected
answers with the sizes. If one runs, it is stopped first: nothing but what that takes has been asked of the
link, and the session answers with the sizes unless the link has failed. The record of the calls changes
nothing. -/
theorem flash_rejected {σ : Type} [Connector σ] {s : Settings} {d d' : Desk (Recorded σ)}
    (hd : d.Reachable s) (cancelled : Recorded σ → Bool) {image : List UInt8} {expected : Nat}
    {e : TransferError} {result : Except SessionError Reply}
    (hsizes : verifyTransferSize image.length expected s.flash.minTransferRatio = .error e)
    (h : ((Request.flash image expected).perform cancelled).outcome d = (result, d')) :
    (∃ failure, result = .error failure) ∧
    (d.session.state ≠ .running → d'.port = d.port ∧
      (d.session.state = .connected → result = .error (.transfer e))) ∧
    (d.session.state = .running → d.port.Adds LinkCall.IsHalting d'.port ∧
      ∃ answer, (halt : Operation (Recorded σ) SessionError Unit).outcome d.port = (answer, d'.port) ∧
        (answer = .ok () → result = .error (.transfer e))) ∧
    Recorded.Transparent σ := by
  obtain ⟨hsound, -, hflashing⟩ := hd.sound
  rw [← hflashing] at hsizes
  by_cases hattentive : Attentive d.session
  · have hlinked : d.session.linked = true := hsound.linked_iff.mpr hattentive
    rcases hattentive with hstate | hstate
    · obtain ⟨d₁, hflash, hport⟩ := flash_rejected_connected cancelled hstate hlinked hsizes
      cases (Operation.bind_of_error hflash).symm.trans h
      exact ⟨⟨_, rfl⟩, fun _ => ⟨hport, fun _ => rfl⟩,
        fun hrunning => (nomatch hstate.symm.trans hrunning), Recorded.transparent σ⟩
    · obtain ⟨d₁, answer, failure, hflash, hhalt, hfailure⟩ :=
        flash_rejected_running cancelled hstate hlinked hsizes
      cases (Operation.bind_of_error hflash).symm.trans h
      have hadds := halt_adds d.port
      rw [hhalt] at hadds
      exact ⟨⟨_, rfl⟩, fun hnot => absurd hstate hnot, fun _ =>
        ⟨hadds, answer, hhalt, fun hok => congrArg Except.error (hfailure hok)⟩, Recorded.transparent σ⟩
  · -- no board is at the other end
    have hrefusal : (Request.flash image expected).refusal? d.session =
        some (.invalidMove d.session.state .flashing) := if_neg hattentive
    obtain ⟨progress, hends⟩ := perform_of_refusal cancelled hsound hrefusal
    cases hends.symm.trans h
    exact ⟨⟨_, rfl⟩, fun _ => ⟨rfl, fun hstate => absurd (.inl hstate) hattentive⟩,
      fun hstate => absurd (.inr hstate) hattentive, Recorded.transparent σ⟩

theorem watchedDesk_rejects :
    watchedDesk.session.state = .running ∧ watchedDesk.port.link.running = true ∧
    (((Request.flash [0xE9] 5).perform fun _ => false).outcome watchedDesk).1 =
      .error (.transfer (.truncated 1 5)) ∧
    (((Request.flash [0xE9] 5).perform fun _ => false).outcome watchedDesk).2.port.calls.flatMap
        LinkCall.written =
      watchedDesk.port.calls.flatMap LinkCall.written ++ Conduct.interruption ++ Conduct.leave ∧
    (((Request.flash [0xE9] 5).perform fun _ => false).outcome watchedDesk).2.port.link.running = false := by
  decide +kernel

theorem flash_rejected_truncated :
    watchedDesk.Reachable smallBlocks ∧ watchedDesk.session.state = .running ∧
    ∃ d', ((Request.flash [0xE9] 5).perform fun _ => false).outcome watchedDesk =
        (.error (.transfer (.truncated 1 5)), d') ∧
      watchedDesk.port.Adds LinkCall.IsHalting d'.port := by
  obtain ⟨hstate, -, hresult, -, -⟩ := watchedDesk_rejects
  rcases hrun : ((Request.flash [0xE9] 5).perform fun _ => false).outcome watchedDesk with ⟨result, d'⟩
  rw [hrun] at hresult
  obtain rfl : result = _ := hresult
  obtain ⟨-, -, hrunning, -⟩ := flash_rejected watchedDesk_reachable (fun _ => false)
    (show verifyTransferSize ([0xE9] : List UInt8).length 5 smallBlocks.flash.minTransferRatio =
      .error (.truncated 1 5) by decide +kernel) hrun
  exact ⟨watchedDesk_reachable, hstate, d', rfl, (hrunning hstate).1⟩

/-- **An image that is rejected stops the program that runs**: it is interrupted before the size of the
image is looked at. -/
theorem rejected_stops_program :
    watchedDesk.Reachable smallBlocks ∧
    verifyTransferSize 1 5 smallBlocks.flash.minTransferRatio = .error (.truncated 1 5) ∧
    watchedDesk.port.link.running = true ∧
    ∃ d', ((Request.flash [0xE9] 5).perform fun _ => false).outcome watchedDesk =
        (.error (.transfer (.truncated 1 5)), d') ∧
      d'.port.calls.flatMap LinkCall.written =
        watchedDesk.port.calls.flatMap LinkCall.written ++ Conduct.interruption ++ Conduct.leave ∧
      d'.port.link.running = false := by
  obtain ⟨-, hrunning, hresult⟩ := watchedDesk_rejects
  rcases hrun : ((Request.flash [0xE9] 5).perform fun _ => false).outcome watchedDesk with ⟨result, d'⟩
  rw [hrun] at hresult
  obtain ⟨rfl, hleft⟩ := hresult
  exact ⟨watchedDesk_reachable, by decide +kernel, hrunning, d', rfl, hleft⟩

end BlockBoard
