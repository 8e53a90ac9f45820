import BlockBoard.Proofs.Board.Stopping
import BlockBoard.Proofs.Session.Ports
import BlockBoard.Proofs.Session.Refusing
import BlockBoard.Proofs.Session.Running
/-!
# Stopping a program from a session

A session that says that a program runs stops it, whatever the board really does. A session that says that
none runs has nothing to stop, and leaves the board alone: a program that the board has started by itself, or
that was left running when the link was given up, runs on.

- `Occurrence.Ordinary`, `Desk.Operated`: what can happen to a session and its board, and where it leads.
- `Desk.Operated.exclusive`: no program runs while the loader listens, after every such history.
- `Board.not_running_of_halt`: no program runs on a board that has been told to stop.
- `Desk.Reachable.stop_ok`: over a connected board a stop succeeds.
- `Desk.Reachable.stop_reconnected`: **a session that has connected again stops nothing**, whatever the board
  does.
- `stop_halts`: **a stop that succeeds leaves a session connected, and stops the program that it says
  runs**.
-/

namespace BlockBoard

/-! ## Histories -/

/-- Something that can happen to a session and its board: any request, any reading, and, to the board alone,
that the cable is pulled out or put back and that it says something of its own. -/
def Occurrence.Ordinary : Occurrence Board → Prop
  | .change f => f = Board.unplug ∨ f = Board.plugIn ∨ ∃ bs, f = (·.emit bs)
  | _ => True

/-- A session over a simulated board after some of it. At first no program runs while the loader of the board
listens; nothing else is asked of the board. -/
inductive Desk.Operated (s : Settings) : Desk Board → Prop
  | start {port : Board} (h : port.Exclusive) :
    Operated s (Desk.start s.device s.flash s.maxLines.toNat port)
  | after {d : Desk Board} (h : Operated s d) {o : Occurrence Board} (ho : o.Ordinary) :
    Operated s (d.after o)

theorem Desk.Operated.reachable {s : Settings} {d : Desk Board} (h : d.Operated s) : d.Reachable s := by
  induction h with
  | start _ => exact .start _
  | after _ _ ih => exact ih.after _

/-- **No program runs while the loader listens**, whatever has happened to a session and its board. -/
theorem Desk.Operated.exclusive {s : Settings} {d : Desk Board} (h : d.Operated s) : d.port.Exclusive := by
  induction h with
  | start h => exact h
  | @after d _ o ho ih =>
    cases o with
    | request cancelled r => exact Conduct.relates_perform_port Board.stable_exclusive cancelled r d ih
    | relay reads => exact Conduct.relates_relayWithin_port Board.stable_exclusive.toSteady reads d ih
    | change f =>
      obtain rfl | rfl | ⟨bs, rfl⟩ := ho
      · exact fun _ => rfl
      · exact ih
      · exact ih

/-! ## Stopping -/

/-- **No program runs on a board that has been told to stop**, whoever listened and whatever ran. -/
theorem Board.not_running_of_halt {b b' : Board} (h : b.Exclusive)
    (hhalt : (Conduct.halt : Operation Board SessionError Unit).outcome b = (.ok (), b')) :
    b'.running = false := by
  obtain ⟨_, _, hinterrupt, -⟩ := Operation.eq_ok_of_bind hhalt
  have hconnected := connected_of_interrupt hinterrupt
  cases (halt_connected hconnected).symm.trans hhalt
  have htold := running_receive_interruption h hconnected
  exact running_receive_of_stopped (b := { b.receive Conduct.interruption with outbox := [] }) htold
    (by decide)

namespace Conduct

/-- A stop succeeds in two ways: a running program is stopped, or there is nothing to stop. -/
theorem stop_cases {σ : Type} [Transport σ] {d d' : Desk σ}
    (h : (stop : Conduct σ Unit).outcome d = (.ok (), d')) :
    d.session.state = .running ∧ (quiesce : Conduct σ Unit).outcome d = (.ok (), d') ∨
      d.session.state = .connected ∧ d' = d := by
  rw [stop, outcome_session_bind] at h
  split at h
  · exact .inl ⟨‹_›, h⟩
  · cases h
    exact .inr ⟨‹_›, rfl⟩
  · cases h

theorem stop_of_connected {σ : Type} [Transport σ] {d : Desk σ} (h : d.session.state = .connected) :
    (stop : Conduct σ Unit).outcome d = (.ok (), d) := by
  rw [stop, outcome_session_bind, h]
  rfl

/-- A connected session, with its link, at a connected board on which a program runs or not. -/
structure Resting (running : Bool) (d : Desk Board) : Prop where
  state : d.session.state = .connected
  linked : d.session.linked = true
  connected : d.port.connected = true
  running : d.port.running = running

/-- Passing on output leaves it so. -/
theorem relay_resting {running : Bool} {d : Desk Board} (h : Resting running d) (bs : List UInt8) :
    ∃ d', (relay bs : Conduct Board Unit).outcome d = (.ok (), d') ∧ Resting running d' := by
  cases bs with
  | nil => exact ⟨d, outcome_relay_nil d, h⟩
  | cons byte r =>
    rw [outcome_relay (List.cons_ne_nil byte r), if_neg (by rw [h.state]; decide)]
    exact ⟨_, rfl, h.state, h.linked, h.connected, h.running⟩

theorem relayWithin_resting {running : Bool} {d : Desk Board} (h : Resting running d) (fuel : Nat) :
    ∃ d', (relayWithin fuel : Conduct Board Unit).outcome d = (.ok (), d') ∧ Resting running d' :=
  relayWithin_keeps (fun d h => ⟨by simp [relays, h.linked, h.state], h.connected⟩)
    (fun _ h => relay_resting ⟨h.state, h.linked, h.connected, h.running⟩ _) h fuel

end Conduct

/-- Over a connected board a stop always succeeds. -/
theorem Desk.Reachable.stop_ok {s : Settings} {d : Desk Board} (hd : d.Reachable s)
    (hstate : d.session.state = .connected ∨ d.session.state = .running)
    (hconnected : d.port.connected = true) (cancelled : Board → Bool) :
    ∃ d', (Request.stop.perform cancelled).outcome d = (.ok .done, d') := by
  obtain ⟨d', hquiesce, -⟩ := Conduct.quiesce_connected hstate (hd.linked hstate) hconnected
  rcases hstate with hstate | hstate
  · exact ⟨d, Operation.bind_of_ok (Conduct.stop_of_connected hstate)⟩
  · refine ⟨d', Operation.bind_of_ok (a := ()) ?_⟩
    rw [Conduct.stop, Conduct.outcome_session_bind, hstate]
    exact hquiesce

/-- A session that has given up its link, and opened it again. -/
def Desk.reconnected {σ : Type} [Connector σ] (d : Desk σ) : Desk σ :=
  (d.after (.request (fun _ => false) .disconnect)).after (.request (fun _ => false) .connect)

/-- **A session that has connected again stops nothing**: it does not know what the board does, which is what
it did before. -/
theorem Desk.Reachable.stop_reconnected {s : Settings} {d : Desk Board} (hd : d.Reachable s)
    (hplugged : d.port.plugged = true)
    (hfound : (s.device.port.isSome || s.device.allows d.port.options.usbId) = true)
    (cancelled : Board → Bool) :
    (Request.stop.perform cancelled).outcome d.reconnected = (.ok .done, d.reconnected) ∧
      d.reconnected.session.state = .connected ∧ d.reconnected.port.connected = true ∧
      d.reconnected.port.running = d.port.running := by
  have hclosed : d.after (.request (fun _ => false) .disconnect) = d.closed :=
    congrArg Prod.snd (Operation.bind_of_ok (Conduct.outcome_disconnect d))
  have hport : d.closed.port = d.port := Desk.port_movedIfPossible _ _
  have hdevice : d.closed.session.device = s.device := (Conduct.keeps_closed d).device.trans hd.sound.2.1
  -- the board is there, and connecting does not look further
  let port : Board := { d.port with connected := true, outbox := [] }
  have hopen : Connector.openLink d.closed.session.device d.closed.port =
      (.ok (s.device.port.getD "sim0"), port) := by
    rw [hdevice, hport]
    exact if_pos (by rw [hplugged, hfound]; rfl)
  have hconnect := Conduct.connect_of_ok (d := d.closed) (by rw [Conduct.state_closed]; rfl) hopen
  have hopened : d.reconnected = Desk.opened { d.closed with port } := by
    rw [reconnected, hclosed]
    exact congrArg Prod.snd (Operation.bind_of_ok hconnect)
  rw [hopened]
  exact ⟨Operation.bind_of_ok (Conduct.stop_of_connected rfl), rfl, rfl, rfl⟩

/-! ## Everything together -/

/-- What a stop that succeeds leaves behind: the session is connected. The program that it said was running
does not run any more; if it said that none was, what the board does is as it was. -/
structure Desk.Stopped (d d' : Desk Board) : Prop where
  state : d'.session.state = .connected
  stopped : d.session.state = .running → d'.port.running = false
  left : d.session.state ≠ .running → d'.port.running = d.port.running

/-- **A stop that succeeds leaves the session connected, and stops the program that it says runs.**

For all settings, every board and everything that can happen to a session and its board: if a request to stop
succeeds, the session is connected. If it said before that a program runs, no program runs on the board, even
if it was another one or the session was wrong. Otherwise nothing has changed at all. When everything that
the board has said is passed on, the session is still connected if its board is, and the board still does
what it did. -/
theorem stop_halts {s : Settings} {d : Desk Board} (hd : d.Operated s) (cancelled : Board → Bool)
    {reply : Reply} {d' : Desk Board} (h : (Request.stop.perform cancelled).outcome d = (.ok reply, d')) :
    d.Stopped d' ∧ (d.session.state ≠ .running → d' = d) ∧
    ((d.handle cancelled .stop).2.port.connected = true → d.Stopped (d.handle cancelled .stop).2) := by
  obtain ⟨_, d₁, hstop, hreply⟩ := Operation.eq_ok_of_bind h
  obtain rfl : d₁ = d' := (Prod.mk.inj hreply).2
  have hleft : d₁.session.linked = true ∧ d.Stopped d₁ ∧ (d.session.state ≠ .running → d₁ = d) := by
    rcases Conduct.stop_cases hstop with ⟨hstate, hquiesce⟩ | ⟨hstate, rfl⟩
    · have hlinked := hd.reachable.linked (.inr hstate)
      obtain ⟨port, hhalt, hport, hdone⟩ := Conduct.quiesce_cases hstate hlinked hquiesce
      obtain rfl := hdone rfl
      have hstopped : port.running = false := Board.not_running_of_halt hd.exclusive hhalt
      exact ⟨hlinked, ⟨rfl, fun _ => hstopped, fun hnot => absurd hstate hnot⟩,
        fun hnot => absurd hstate hnot⟩
    · have hlinked := hd.reachable.linked (.inl hstate)
      refine ⟨hlinked, ⟨hstate, fun hrunning => ?_, fun _ => rfl⟩, fun _ => rfl⟩
      cases hstate.symm.trans hrunning
  obtain ⟨hlinked, hstopped, hsame⟩ := hleft
  refine ⟨hstopped, hsame, fun hconnected => ?_⟩
  -- what is read afterwards comes from a board that was connected all the time
  have hhandle : (d.handle cancelled .stop).2 =
      ((Conduct.relayWithin (Transport.backlog d₁.port + 1)).outcome d₁).2 := by
    rw [Desk.handle, h]
    rfl
  have hbefore := Conduct.relates_relayWithin_port Board.steady_untouched (Transport.backlog d₁.port + 1) d₁
  rw [hhandle] at hconnected ⊢
  obtain ⟨d₂, hrelay, hrests⟩ := Conduct.relayWithin_resting
    ⟨hstopped.state, hlinked, hbefore.connected.symm.trans hconnected, rfl⟩ (Transport.backlog d₁.port + 1)
  rw [hrelay]
  exact ⟨hrests.state, fun hrunning => hrests.running.trans (hstopped.stopped hrunning),
    fun hnot => hrests.running.trans (hstopped.left hnot)⟩

theorem runningDesk_operated : runningDesk.Operated smallBlocks := by
  have hstart : Desk.Operated smallBlocks (Desk.start smallBlocks.device smallBlocks.flash
      smallBlocks.maxLines.toNat ({} : Board)) := .start fun _ => rfl
  exact (hstart.after (o := .request (fun _ => false) .connect) trivial).after
    (o := .request (fun _ => false) (.run endlessProgram)) trivial

theorem stop_halts_running :
    runningDesk.Operated smallBlocks ∧ runningDesk.port.running = true ∧
    ∃ d', (Request.stop.perform fun _ => false).outcome runningDesk = (.ok .done, d') ∧
      d'.session.state = .connected ∧ d'.port.running = false := by
  obtain ⟨hstate, -, hport⟩ := runningDesk_runs
  obtain ⟨d', h⟩ := runningDesk_reachable.stop_ok (.inr hstate) (by rw [hport]) fun _ => false
  obtain ⟨hstopped, -, -⟩ := stop_halts runningDesk_operated (fun _ => false) h
  exact ⟨runningDesk_operated, by rw [hport], d', h, hstopped.state, hstopped.stopped hstate⟩

/-- **A program that the session knows nothing of is not stopped**: the stop succeeds, the board is connected,
and its program runs on. -/
theorem stop_leaves_running :
    runningDesk.reconnected.Operated smallBlocks ∧
    ∃ d', (Request.stop.perform fun _ => false).outcome runningDesk.reconnected = (.ok .done, d') ∧
      d'.port.connected = true ∧ d'.session.state = .connected ∧ d'.port.running = true := by
  obtain ⟨-, -, hport⟩ := runningDesk_runs
  have hfound : (smallBlocks.device.port.isSome ||
      smallBlocks.device.allows runningDesk.port.options.usbId) = true := by
    rw [hport]
    decide
  have hoperated : runningDesk.reconnected.Operated smallBlocks :=
    (runningDesk_operated.after (o := .request (fun _ => false) .disconnect) trivial).after
      (o := .request (fun _ => false) .connect) trivial
  obtain ⟨hstop, hstate, hconnected, hleft⟩ :=
    runningDesk_reachable.stop_reconnected (by rw [hport]) hfound fun _ => false
  exact ⟨hoperated, _, hstop, hconnected, hstate, hleft.trans (by rw [hport])⟩

end BlockBoard
