import BlockBoard.Proofs.Session.Failing
import BlockBoard.Proofs.Session.Flashing
/-!
# Sessions that are not busy

Between two requests a session neither connects nor flashes, and what it holds, tells and has announced
agrees with the state it is in.

- `Session.Sound.state_cases`, `Session.Sound.linked_iff`: the states of a session that is sound, and when
  it holds a link.
- `idle_reachable`: **what is true of every session that can be reached**, whatever the link and the
  board do.
-/

namespace BlockBoard

theorem Session.Sound.state_cases {s : Session} (h : s.Sound) :
    s.state = .disconnected ∨ s.state = .connected ∨ s.state = .running ∨ s.state = .error := by
  obtain ⟨hsettled, hlanded, -⟩ := h
  cases hstate : s.state with
  | connecting => exact absurd hstate hsettled
  | flashing => exact absurd hstate hlanded
  | _ => simp

/-- A session holds a link exactly if it is connected, or runs a program. -/
theorem Session.Sound.linked_iff {s : Session} (h : s.Sound) :
    s.linked = true ↔ s.state = .connected ∨ s.state = .running := by
  constructor
  · intro hlinked
    rcases h.state_cases with hstate | hstate | hstate | hstate
    · rw [h.unlinked (by rw [hstate]; rfl)] at hlinked
      cases hlinked
    · exact .inl hstate
    · exact .inr hstate
    · rw [h.unlinked (by rw [hstate]; rfl)] at hlinked
      cases hlinked
  · rintro (hstate | hstate) <;> exact h.linked (by rw [hstate]; rfl)

/-- **What is true of every session that is not busy.**

For all settings, every link and every board, and every history of requests, output and events: the
session is disconnected, connected, running or failed; it holds a link exactly if it is connected or
running; the state that observers are told is its state; the states that it has announced are a path from
disconnected to it along possible moves; and no request fails for the lack of a link, unless something is
typed. A session that handles a request or hears of its board, and passes on all the output, is such a
session again. -/
theorem idle_reachable {σ : Type} [Connector σ] {s : Settings} {d : Desk σ} (h : d.Reachable s) :
    (d.session.state = .disconnected ∨ d.session.state = .connected ∨ d.session.state = .running ∨
      d.session.state = .error) ∧
    (d.session.linked = true ↔ d.session.state = .connected ∨ d.session.state = .running) ∧
    d.session.status = d.session.state ∧
    SessionState.Path .disconnected d.states d.session.state ∧
    (∀ (cancelled : σ → Bool) (r : Request), (∀ bs, r ≠ .input bs) →
      ((r.perform cancelled).outcome d).1 ≠ .error .notConnected) ∧
    (∀ (cancelled : σ → Bool) (r : Request), (d.handle cancelled r).2.Reachable s) ∧
    ∀ f : σ → σ, (d.touch f).Reachable s := by
  obtain ⟨hsound, -⟩ := h.sound
  refine ⟨hsound.state_cases, hsound.linked_iff, hsound.status, h.path, ?_, h.handle, h.touch⟩
  exact fun cancelled r hr => Conduct.perform_ne_notConnected cancelled hr hsound

theorem idle_reachable_running :
    runningDesk.Reachable smallBlocks ∧ runningDesk.session.linked = true ∧
    runningDesk.session.status = .running ∧
    SessionState.Path .disconnected [.connecting, .connected, .running] .running ∧
    ((Request.stop.perform fun _ => false).outcome runningDesk).1 ≠ .error .notConnected := by
  obtain ⟨hstate, hstates, -⟩ := runningDesk_runs
  obtain ⟨-, hlinked, hstatus, hrest⟩ := idle_reachable runningDesk_reachable
  rw [hstates, hstate] at hrest
  obtain ⟨hpath, hlink, -⟩ := hrest
  exact ⟨runningDesk_reachable, hlinked.mpr (.inr hstate), hstatus.trans hstate, hpath, hlink _ .stop nofun⟩

end BlockBoard
