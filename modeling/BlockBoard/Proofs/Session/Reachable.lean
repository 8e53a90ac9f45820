import BlockBoard.Proofs.Session.Changes
import BlockBoard.Settings.Config
/-!
# Reachable sessions

What can happen to a session: it is asked for something, it passes on what the board says, and things
happen to the board. What is true after every such history is an invariant: it holds at the start, and
each occurrence keeps it.

- `Occurrence`, `Desk.Reachable`: what can happen, and where it leads.
- `Session.Sound`: the invariant, whatever state a session is in while it is not busy.
- `SessionState.Path`: a way from one state to another along possible moves.
- `Conduct.Change.keeps`: **every elementary change keeps the invariant**, leaves the settings alone, and
  announces a path.
- `Desk.Reachable.sound`, `Desk.Reachable.path`: **the invariant holds of every session that can be
  reached**, and the states that it has announced are a path to its state.
-/

namespace BlockBoard

/-! ## What can happen -/

/-- Something that happens to a session. -/
inductive Occurrence (σ : Type) where
  /-- The session is asked for something. -/
  | request (cancelled : σ → Bool) (r : Request)
  /-- The session passes on what the board has said, for at most so many reads. -/
  | relay (reads : Nat)
  /-- Something happens to the board. -/
  | change (f : σ → σ)

/-- A session after something has happened. -/
def Desk.after {σ : Type} [Connector σ] (d : Desk σ) : Occurrence σ → Desk σ
  | .request cancelled r => ((r.perform cancelled).outcome d).2
  | .relay reads => ((Conduct.relayWithin reads).outcome d).2
  | .change f => { d with port := f d.port }

theorem Desk.after_request {σ : Type} [Connector σ] (d : Desk σ) (cancelled : σ → Bool) (r : Request) :
    d.after (.request cancelled r) = ((r.perform cancelled).outcome d).2 := rfl

/-- A session that can be reached from its start with some settings. -/
inductive Desk.Reachable {σ : Type} [Connector σ] (s : Settings) : Desk σ → Prop
  | start (port : σ) : Reachable s (Desk.start s.device s.flash s.maxLines.toNat port)
  | after {d : Desk σ} (h : Reachable s d) (o : Occurrence σ) : Reachable s (d.after o)

/-- A session that has handled a request can be reached. -/
theorem Desk.Reachable.handle {σ : Type} [Connector σ] {s : Settings} {d : Desk σ}
    (h : d.Reachable s) (cancelled : σ → Bool) (r : Request) : (d.handle cancelled r).2.Reachable s :=
  (h.after (.request cancelled r)).after (.relay _)

/-- A session after something has happened to its board can be reached. -/
theorem Desk.Reachable.touch {σ : Type} [Connector σ] {s : Settings} {d : Desk σ}
    (h : d.Reachable s) (f : σ → σ) : (d.touch f).Reachable s :=
  (h.after (.change f)).after (.relay _)

/-! ## The invariant -/

/-- A session that is not busy neither connects nor flashes, holds a link if and only if a board is at the
other end, and tells observers the state it is in. -/
structure Session.Sound (s : Session) : Prop where
  settled : s.state ≠ .connecting
  landed : s.state ≠ .flashing
  linked : s.state.isConnected = true → s.linked = true
  unlinked : s.state.isConnected = false → s.linked = false
  status : s.status = s.state

namespace SessionState

/-- Some states are a way from one state to another along possible moves. -/
def Path : SessionState → List SessionState → SessionState → Prop
  | a, [], b => a = b
  | a, c :: r, b => a.canMoveTo c = true ∧ Path c r b

theorem Path.append {a b c : SessionState} {x y : List SessionState} (h : Path a x b)
    (h' : Path b y c) : Path a (x ++ y) c := by
  induction x generalizing a with
  | nil =>
    obtain rfl : a = b := h
    exact h'
  | cons s r ih => exact ⟨h.1, ih h.2⟩

theorem Path.single {a b : SessionState} (h : a.canMoveTo b = true) : Path a [b] b := ⟨h, rfl⟩

/-- Every state with a board at the other end can fail. -/
theorem canMoveTo_error_of_isConnected {a : SessionState} (h : a.isConnected = true) :
    a.canMoveTo .error = true := by
  cases a <;> first | rfl | cases h

/-- A session can disconnect from everywhere else. -/
theorem eq_disconnected_of_not_canMoveTo {a : SessionState} (h : ¬ a.canMoveTo .disconnected = true) :
    a = .disconnected := by
  cases a <;> first | rfl | exact absurd rfl h

/-- Only where a board is at the other end, a program or a flash can begin. -/
theorem isConnected_of_canMoveTo {a b : SessionState} (ha : a ≠ .connecting) (hb : b.isConnected = true)
    (h : a.canMoveTo b = true) : a.isConnected = true := by
  revert ha hb h
  cases a <;> cases b <;> decide

end SessionState

namespace Conduct

variable {σ : Type}

/-- The settings are the same before and after, the invariant is kept, and what is announced in between is
a path from one state to the other. -/
structure Keeps (d d' : Desk σ) : Prop where
  device : d'.session.device = d.session.device
  flashing : d'.session.flashing = d.session.flashing
  sound : d.session.Sound → d'.session.Sound
  path : ∃ new, d'.states = d.states ++ new ∧ SessionState.Path d.session.state new d'.session.state

theorem Keeps.refl (d : Desk σ) : Keeps d d := ⟨rfl, rfl, id, [], (List.append_nil _).symm, rfl⟩

theorem Keeps.trans (d d' d'' : Desk σ) (h : Keeps d d') (h' : Keeps d' d'') : Keeps d d'' := by
  obtain ⟨new, hstates, hpath⟩ := h.path
  obtain ⟨new', hstates', hpath'⟩ := h'.path
  refine ⟨h'.device.trans h.device, h'.flashing.trans h.flashing, h'.sound ∘ h.sound, new ++ new', ?_,
    hpath.append hpath'⟩
  rw [hstates', hstates, List.append_assoc]

theorem Keeps.of_aside {d d' : Desk σ} (h : Aside d d') : Keeps d d' := by
  refine ⟨h.device, h.flashing, fun hsound => ?_, [], by rw [h.states, List.append_nil], h.state.symm⟩
  constructor
  · rw [h.state]
    exact hsound.settled
  · rw [h.state]
    exact hsound.landed
  · rw [h.state, h.linked]
    exact hsound.linked
  · rw [h.state, h.linked]
    exact hsound.unlinked
  · rw [h.status, h.state]
    exact hsound.status

theorem states_moved (d : Desk σ) (next : SessionState) :
    (d.moved next).states = d.states ++ [next] := by
  show (d.events ++ [SessionEvent.stateChanged next]).filterMap _ = _
  rw [List.filterMap_append]
  rfl

theorem states_abandoned {d : Desk σ} (h : d.session.state.canMoveTo .error = true) :
    d.abandoned.states = d.states ++ [.error] := by
  rw [Desk.abandoned, Desk.movedIfPossible, if_pos h]
  exact states_moved _ _

theorem states_opened (d : Desk σ) : d.opened.states = d.states ++ [.connecting, .connected] := by
  rw [Desk.opened, states_moved]
  show (d.moved .connecting).states ++ _ = _
  rw [states_moved, List.append_assoc]
  rfl

/-- A session without a link is sound wherever there is no board at the other end. -/
theorem sound_of_unlinked {s : Session} (hlinked : s.linked = false) (hstatus : s.status = s.state)
    (hstate : s.state = .disconnected ∨ s.state = .error) : s.Sound := by
  rcases hstate with h | h <;>
    exact ⟨by rw [h]; decide, by rw [h]; decide, by rw [h]; nofun, fun _ => hlinked, hstatus⟩

/-- A session that gives up its link has failed, or had no board at the other end. -/
theorem keeps_abandoned (d : Desk σ) : Keeps d d.abandoned := by
  unfold Desk.abandoned Desk.movedIfPossible
  split
  · rename_i hmove
    exact ⟨rfl, rfl, fun _ => sound_of_unlinked rfl rfl (.inr rfl), [.error], states_moved _ _,
      .single hmove⟩
  · rename_i hmove
    refine ⟨rfl, rfl, fun hsound => ⟨hsound.settled, hsound.landed, fun hconnected => ?_, fun _ => rfl,
      hsound.status⟩, [], (List.append_nil _).symm, rfl⟩
    exact absurd (SessionState.canMoveTo_error_of_isConnected hconnected) hmove

theorem state_closed (d : Desk σ) : d.closed.session.state = .disconnected := by
  unfold Desk.closed Desk.movedIfPossible
  split
  · rfl
  · exact SessionState.eq_disconnected_of_not_canMoveTo ‹_›

theorem keeps_closed (d : Desk σ) : Keeps d d.closed := by
  unfold Desk.closed Desk.movedIfPossible
  split
  · rename_i hmove
    exact ⟨rfl, rfl, fun _ => sound_of_unlinked rfl rfl (.inl rfl), [.disconnected], states_moved _ _,
      .single hmove⟩
  · rename_i hmove
    have hstate := SessionState.eq_disconnected_of_not_canMoveTo hmove
    exact ⟨rfl, rfl, fun hsound => sound_of_unlinked rfl hsound.status (.inl hstate), [],
      (List.append_nil _).symm, rfl⟩

/-- A session that moves on to a board from one keeps its link. -/
theorem sound_moved {d : Desk σ} {next : SessionState} (hnext : next = .connected ∨ next = .running)
    (hlinked : d.session.linked = true) : (d.moved next).session.Sound := by
  rcases hnext with rfl | rfl <;> exact ⟨nofun, nofun, fun _ => hlinked, nofun, rfl⟩

/-- **Every elementary change keeps the invariant**, leaves the settings alone, and announces a path. -/
theorem Change.keeps {d d' : Desk σ} (h : Change d d') : Keeps d d' := by
  cases h with
  | aside h => exact .of_aside h
  | @moved next hnext hmove =>
    refine ⟨rfl, rfl, fun hsound => sound_moved hnext (hsound.linked ?_), [next], states_moved d next,
      .single hmove⟩
    exact SessionState.isConnected_of_canMoveTo hsound.settled (by rcases hnext with rfl | rfl <;> rfl)
      hmove
  | abandoned => exact keeps_abandoned d
  | closed => exact keeps_closed d
  | opened hmove =>
    exact ⟨rfl, rfl, fun _ => sound_moved (.inl rfl) rfl, _, states_opened d, hmove, rfl, rfl⟩
  | refused hmove =>
    refine ⟨rfl, rfl, fun _ => sound_of_unlinked rfl rfl (.inr rfl), [.connecting, .error], ?_, hmove, rfl,
      rfl⟩
    rw [states_abandoned rfl, states_moved, List.append_assoc]
    rfl
  | flashed hmove =>
    refine ⟨rfl, rfl, fun hsound => sound_moved (.inl rfl) (hsound.linked ?_), [.flashing, .connected], ?_,
      hmove, rfl, rfl⟩
    · exact SessionState.isConnected_of_canMoveTo hsound.settled rfl hmove
    · rw [states_moved, states_moved, List.append_assoc]
      rfl
  | failed hmove =>
    refine ⟨rfl, rfl, fun _ => sound_of_unlinked rfl rfl (.inr rfl), [.flashing, .error], ?_, hmove, rfl,
      rfl⟩
    rw [states_abandoned rfl, states_moved, List.append_assoc]
    rfl

theorem Changes.keeps {d d' : Desk σ} (h : Changes d d') : Keeps d d' :=
  h.induction Keeps.refl Keeps.trans Change.keeps

/-- **Every request keeps the invariant**, leaves the settings alone, and announces a path. -/
theorem keeps_perform [Connector σ] (cancelled : σ → Bool) (r : Request) :
    (r.perform cancelled).Relates Keeps := by
  intro d
  by_cases hr : ∀ p, r ≠ .save p
  · exact (changes_perform cancelled hr d).keeps
  · -- what a save notes in the end has nothing to do with the invariant
    obtain ⟨p, rfl⟩ : ∃ p, r = .save p := by simpa using hr
    rcases hsave : (save p : Conduct σ SaveOutcome).outcome d with ⟨result, d'⟩
    have hkeeps : Keeps d d' := by
      rcases save_cases hsave with ⟨hchanges, -⟩ | ⟨d₁, hchanges, -, rfl⟩
      · exact hchanges.keeps
      · refine hchanges.keeps.trans _ _ _ ⟨rfl, rfl, fun hsound => ?_, [], (List.append_nil _).symm, rfl⟩
        exact ⟨hsound.settled, hsound.landed, hsound.linked, hsound.unlinked, hsound.status⟩
    rw [perform_save, hsave]
    exact hkeeps

end Conduct

/-! ## Every history -/

open Conduct in
/-- Nothing that can happen breaks the invariant. -/
theorem Desk.keeps_after {σ : Type} [Connector σ] (d : Desk σ) (o : Occurrence σ) :
    Keeps d (d.after o) := by
  cases o with
  | request cancelled r => exact keeps_perform cancelled r d
  | relay reads => exact (changes_relayWithin reads d).keeps
  | change f =>
    have hsame : Changes d (d.after (.change f)) := .of_session_eq rfl rfl
    exact hsame.keeps

/-- **Every session that can be reached is sound, and has the settings that it was given.** -/
theorem Desk.Reachable.sound {σ : Type} [Connector σ] {s : Settings} {d : Desk σ}
    (h : d.Reachable s) :
    d.session.Sound ∧ d.session.device = s.device ∧ d.session.flashing = s.flash := by
  induction h with
  | start port => exact ⟨Conduct.sound_of_unlinked rfl rfl (.inl rfl), rfl, rfl⟩
  | @after d h o ih =>
    -- the settings stay the same all the way back to the start
    obtain ⟨hsound, hdevice, hflashing⟩ := ih
    have hkeeps := d.keeps_after o
    exact ⟨hkeeps.sound hsound, hkeeps.device.trans hdevice, hkeeps.flashing.trans hflashing⟩

/-- **The states that a session has announced are a path to its state.** -/
theorem Desk.Reachable.path {σ : Type} [Connector σ] {s : Settings} {d : Desk σ}
    (h : d.Reachable s) : SessionState.Path .disconnected d.states d.session.state := by
  induction h with
  | start port => exact rfl
  | @after d h o ih =>
    obtain ⟨new, hstates, hpath⟩ := (d.keeps_after o).path
    rw [hstates]
    exact ih.append hpath

end BlockBoard
