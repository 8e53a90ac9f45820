import BlockBoard.Proofs.Session.Refusing
import BlockBoard.Proofs.Session.Relaying
/-!
# What becomes of a session that has failed

A failure costs the link in one of two ways. A request that has been admitted and fails leaves the session
in error, where it stays until it is disconnected, and does nothing meanwhile. What is typed, or passed on,
over a link that fails leaves it disconnected at once, and says so to everybody who watches.

- `Desk.Latched`: what a session that has failed still does.
- `Desk.failed_run`: **it stays so until it is disconnected**, whatever else happens.
- `Conduct.Lost`: what it comes to that a link is lost.
- `Reading.ends?`: the answers to a read that mean that the link is lost.
- `failures_latch`: **every failure leads to one of the two**.
-/

namespace BlockBoard

variable {σ : Type}

/-! ## In error -/

/-- What happens is that somebody disconnects. -/
def Occurrence.Disconnects : Occurrence σ → Prop
  | .request _ .disconnect => True
  | _ => False

/-- What a session does for which nothing is left but to disconnect: it refuses everything else that needs a
link, and reads nothing. -/
structure Desk.Latched [Connector σ] (d : Desk σ) : Prop where
  failed : d.session.Failed
  refuses : ∀ (cancelled : σ → Bool) (r : Request), r ≠ .disconnect → r ≠ .clear → r ≠ .snapshot →
    ∃ e progress, e.isRefusal = true ∧ (r.perform cancelled).outcome d = (.error e, { d with progress })
  reads_nothing : ∀ reads, (Conduct.relayWithin reads).outcome d = (.ok (), d)
  disconnects : ∀ cancelled : σ → Bool, ∃ d', (Request.disconnect.perform cancelled).outcome d =
    (.ok .done, d') ∧ d'.session.state = .disconnected ∧ d'.session.linked = false ∧ d'.port = d.port

namespace Conduct

/-- A session without a link passes nothing on. -/
theorem relayWithin_of_not_relays [Transport σ] {d : Desk σ} (h : relays d.session = false) (reads : Nat) :
    (relayWithin reads).outcome d = (.ok (), d) := by
  cases reads with
  | zero => rfl
  | succ n =>
    rw [relayWithin, outcome_session_bind, h]
    rfl

theorem relays_of_failed {s : Session} (h : s.Failed) : relays s = false := by
  rw [relays, h.linked, Bool.false_and]

/-- A session that has failed refuses whatever needs a link. -/
theorem refusal?_of_failed {s : Session} (h : s.Failed) {r : Request} (hr : r ≠ .disconnect)
    (hr' : r ≠ .clear) (hr'' : r ≠ .snapshot) : ∃ e, r.refusal? s = some e ∧ e.isRefusal = true := by
  have hnot : ¬ Attentive s := by
    rintro (hstate | hstate) <;> cases h.state.symm.trans hstate
  cases r with
  | connect => exact ⟨.invalidMove s.state .connecting, if_neg (by rw [h.state]; nofun), rfl⟩
  | stop => exact ⟨.invalidMove s.state .connected, if_neg hnot, rfl⟩
  | run p => exact ⟨.invalidMove s.state .running, if_neg hnot, rfl⟩
  | save p => exact ⟨.invalidMove s.state .running, if_neg hnot, rfl⟩
  | flash image expected => exact ⟨.invalidMove s.state .flashing, if_neg hnot, rfl⟩
  | input bs => exact ⟨.notConnected, if_neg hnot, rfl⟩
  | disconnect => exact absurd rfl hr
  | clear => exact absurd rfl hr'
  | snapshot => exact absurd rfl hr''

end Conduct

/-- A session that is sound and has failed does nothing but disconnect. -/
theorem Desk.latched_of_failed [Connector σ] {d : Desk σ} (hd : d.session.Sound) (h : d.session.Failed) :
    d.Latched where
  failed := h
  refuses cancelled r hr hr' hr'' := by
    obtain ⟨e, hrefusal, he⟩ := Conduct.refusal?_of_failed h hr hr' hr''
    obtain ⟨progress, hends⟩ := Conduct.perform_of_refusal cancelled hd hrefusal
    exact ⟨e, progress, he, hends⟩
  reads_nothing := Conduct.relayWithin_of_not_relays (Conduct.relays_of_failed h)
  disconnects cancelled := by
    refine ⟨d.closed, Operation.bind_of_ok (Conduct.outcome_disconnect d), ?_⟩
    rw [Desk.closed, Desk.movedIfPossible, if_pos]
    · exact ⟨rfl, rfl, rfl⟩
    · show SessionState.canMoveTo d.session.state _ = true
      rw [h.state]
      rfl

/-- Whatever happens to a session that has failed, but for disconnecting, it has failed afterwards. -/
theorem Desk.failed_after [Connector σ] {d : Desk σ} (hd : d.session.Sound) (h : d.session.Failed)
    {o : Occurrence σ} (ho : ¬ o.Disconnects) : (d.after o).session.Failed := by
  have hlatched := d.latched_of_failed hd h
  cases o with
  | change f => exact h
  | relay reads =>
    show ((Conduct.relayWithin reads).outcome d).2.session.Failed
    rw [hlatched.reads_nothing]
    exact h
  | request cancelled r =>
    show ((r.perform cancelled).outcome d).2.session.Failed
    by_cases hr : r = .clear ∨ r = .snapshot
    · rcases hr with rfl | rfl
      · exact ⟨h.state, h.linked⟩
      · exact h
    · obtain ⟨hclear, hsnapshot⟩ := not_or.mp hr
      have hdisconnect : r ≠ .disconnect := by
        rintro rfl
        exact ho trivial
      obtain ⟨e, progress, -, hends⟩ := hlatched.refuses cancelled r hdisconnect hclear hsnapshot
      rw [hends]
      exact h

/-- **A session that has failed stays so until it is disconnected.** -/
theorem Desk.failed_run [Connector σ] {s : Settings} {d : Desk σ} (hd : d.Reachable s)
    (h : d.session.Failed) {os : List (Occurrence σ)} (hos : ∀ o ∈ os, ¬ o.Disconnects) :
    (os.foldl Desk.after d).Reachable s ∧ (os.foldl Desk.after d).session.Failed := by
  induction os generalizing d with
  | nil => exact ⟨hd, h⟩
  | cons o r ih =>
    obtain ⟨ho, hr⟩ := List.forall_mem_cons.mp hos
    exact ih (hd.after o) (Desk.failed_after hd.sound.1 h ho) hr

/-! ## Lost -/

/-- The answers to a read that mean that the link is lost, and what is said about it. -/
def Reading.ends? : Reading → Option String
  | .failed e => some e.message
  | .bytes [] => some "end of stream"
  | _ => none

namespace Conduct

/-- The link is lost: the session is disconnected, it remembers nothing of the link, and it has said so
once. -/
structure Lost (reason : String) (d d' : Desk σ) : Prop where
  state : d'.session.state = .disconnected
  linked : d'.session.linked = false
  saved : d'.session.saved = none
  events : d'.events = d.events ++ [.disconnected reason, .stateChanged .disconnected]

theorem lost_of_lose {reason : String} {d d' : Desk σ} (h : Attentive d.session)
    (hlose : (lose reason).outcome d = (.ok (), d')) : Lost reason d d' := by
  rw [outcome_lose, Desk.closed, Desk.movedIfPossible, if_pos] at hlose
  · cases hlose
    exact ⟨rfl, rfl, rfl, List.append_assoc _ _ _⟩
  · show SessionState.canMoveTo d.session.state _ = true
    rcases h with h | h <;> rw [h] <;> rfl

/-- What is typed over a link that fails loses it. -/
theorem lost_of_input [Connector σ] (cancelled : σ → Bool) {bs : List UInt8} {d d' : Desk σ}
    {e : SessionError} (hd : d.session.Sound)
    (h : ((Request.input bs).perform cancelled).outcome d = (.error e, d')) (he : e ≠ .notConnected) :
    ∃ l, e = .link l ∧ Lost l.message d d' := by
  cases hrefusal : (Request.input bs).refusal? d.session with
  | some e' =>
    obtain ⟨progress, hends⟩ := perform_of_refusal cancelled hd hrefusal
    cases hends.symm.trans h
    rw [Request.refusal?] at hrefusal
    split at hrefusal
    · cases hrefusal
    · cases hrefusal
      exact absurd rfl he
  | none =>
    rw [Request.refusal?] at hrefusal
    split at hrefusal
    · rename_i hattentive
      obtain ⟨answer, port, -, ⟨-, hok, -⟩ | ⟨l, -, hlost, hlose⟩⟩ :=
        input_cases cancelled (hd.linked_iff.mpr hattentive) hattentive h
      · cases hok
      · cases hlost
        obtain ⟨hstate, hlinked, hsaved, hevents⟩ := lost_of_lose (d := { d with port }) hattentive hlose
        exact ⟨l, rfl, hstate, hlinked, hsaved, hevents⟩
    · cases hrefusal

/-- A read that fails, or that finds the end of what the board says, loses the link. -/
theorem lost_of_read [Transport σ] {d : Desk σ} (h : relays d.session = true) {reason : String}
    (hread : (Transport.read relayChunk d.port).1.ends? = some reason) (reads : Nat) :
    Lost reason d ((relayWithin (reads + 1)).outcome d).2 := by
  have hattentive : Attentive d.session := by simpa [relays, Attentive] using (Bool.and_eq_true_iff.mp h).2
  rcases hport : Transport.read relayChunk d.port with ⟨answer, port⟩
  rw [hport] at hread
  have hlose := outcome_lose (σ := σ) reason { d with port }
  have hlost := lost_of_lose (d := { d with port }) hattentive hlose
  have hends : (relayWithin (reads + 1)).outcome d = (lose reason).outcome { d with port } := by
    rw [relayWithin, outcome_session_bind, if_pos h, Operation.bind_of_ok (outcome_read hport)]
    cases answer with
    | silent => cases hread
    | failed e =>
      cases hread
      rfl
    | bytes bs =>
      cases bs with
      | nil =>
        cases hread
        rfl
      | cons b r => cases hread
  rw [hends, hlose]
  exact ⟨hlost.state, hlost.linked, hlost.saved, hlost.events⟩

end Conduct

open Conduct in
/-- **Every failure drops the link, and leaves the session in error until it is disconnected, or
disconnected at once.**

For all settings, every link and every history. If a request other than to type something is admitted and
fails, and was not cancelled, the session is in error without a link; and whatever happens then, but for
disconnecting, it remains so, refuses everything but to disconnect, to clear the terminal and to show it,
and asks nothing of the link. If something is typed and does not reach the board, or if a read of what is
passed on fails or finds the end, after any number of reads that gave something, then the session is
disconnected without a link, remembers no program that was saved, and has announced once that the link was
lost. -/
theorem failures_latch [Connector σ] {s : Settings} {d : Desk σ} (hd : d.Reachable s) :
    (∀ (cancelled : σ → Bool) (r : Request) (e : SessionError) (d' : Desk σ),
      (r.perform cancelled).outcome d = (.error e, d') → (∀ bs, r ≠ .input bs) → e.isRefusal = false →
      e ≠ .cancelled → d'.session.Failed ∧
        ∀ os : List (Occurrence σ), (∀ o ∈ os, ¬ o.Disconnects) → (os.foldl Desk.after d').Latched) ∧
    (∀ (cancelled : σ → Bool) (bs : List UInt8) (e : SessionError) (d' : Desk σ),
      ((Request.input bs).perform cancelled).outcome d = (.error e, d') → e ≠ .notConnected →
        ∃ l, e = .link l ∧ Lost l.message d d') ∧
    (∀ (ps : List (List UInt8)) (d₁ : Desk σ) (reason : String) (reads : Nat), Relayed ps d d₁ →
      relays d₁.session = true → (Transport.read relayChunk d₁.port).1.ends? = some reason →
        d₁.losses = d.losses ∧ Lost reason d₁ (d.after (.relay (ps.length + (reads + 1))))) := by
  refine ⟨fun cancelled r e d' h hr he hcancelled => ?_,
    fun cancelled bs e d' => lost_of_input cancelled hd.sound.1,
    fun ps d₁ reason reads hrelayed hrelays hread => ⟨hrelayed.passed.losses, ?_⟩⟩
  · have hafter : d'.Reachable s := by
      have hrequest := hd.after (.request cancelled r)
      rwa [Desk.after_request, h] at hrequest
    have hfailed : d'.session.Failed := by
      cases hrefusal : r.refusal? d.session with
      | none => exact (latches_perform cancelled hd.sound.1 hr hrefusal e d' h).2 hcancelled
      | some e' =>
        obtain ⟨progress, hends⟩ := perform_of_refusal cancelled hd.sound.1 hrefusal
        cases hends.symm.trans h
        rw [Request.isRefusal_of_refusal? hrefusal] at he
        cases he
    refine ⟨hfailed, fun os hos => ?_⟩
    obtain ⟨hreachable, hstill⟩ := Desk.failed_run hafter hfailed hos
    exact Desk.latched_of_failed hreachable.sound.1 hstill
  · have hlost := lost_of_read hrelays hread reads
    rwa [← relayWithin_of_relayed hrelayed] at hlost

/-- A session whose board has been unplugged. -/
def unpluggedDesk : Desk Board :=
  ((Desk.start smallBlocks.device smallBlocks.flash smallBlocks.maxLines.toNat ({} : Board)).after
    (.request (fun _ => false) .connect)).after (.change Board.unplug)

theorem failures_latch_unplugged :
    unpluggedDesk.Reachable smallBlocks ∧
    (∃ d', ((Request.run endlessProgram).perform fun _ => false).outcome unpluggedDesk =
        (.error (.link .closed), d') ∧ d'.session.Failed ∧
      ([.change Board.plugIn, .request (fun _ => false) .connect, .relay 1].foldl Desk.after d').Latched) ∧
    (∃ d', ((Request.input [0x61]).perform fun _ => false).outcome unpluggedDesk =
      (.error (.link .closed), d') ∧ Conduct.Lost LinkError.closed.message unpluggedDesk d') ∧
    Conduct.Lost LinkError.closed.message unpluggedDesk (unpluggedDesk.after (.relay 1)) := by
  have hreachable : unpluggedDesk.Reachable smallBlocks := ((Desk.Reachable.start _).after _).after _
  obtain ⟨hrequest, hinput, hread⟩ := failures_latch hreachable
  have hfails : ∀ r ∈ [Request.run endlessProgram, Request.input [0x61]],
      ((r.perform fun _ => false).outcome unpluggedDesk).1 = .error (.link .closed) := by decide +kernel
  refine ⟨hreachable, ?_, ?_, (hread [] unpluggedDesk _ 0 (.nil _) ?_ ?_).2⟩
  · have houtcome := Prod.ext (hfails (.run endlessProgram) (by simp)) rfl
    obtain ⟨hfailed, hlatched⟩ := hrequest (fun _ => false) (.run endlessProgram) _ _ houtcome nofun rfl nofun
    exact ⟨_, houtcome, hfailed, hlatched _ (by simp [Occurrence.Disconnects])⟩
  · have houtcome := Prod.ext (hfails (.input [0x61]) (by simp)) rfl
    obtain ⟨l, hl, hlost⟩ := hinput (fun _ => false) [0x61] _ _ houtcome nofun
    cases hl
    exact ⟨_, houtcome, hlost⟩
  · decide +kernel
  · decide +kernel

end BlockBoard
