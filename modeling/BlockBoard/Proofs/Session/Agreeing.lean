import Mathlib.Control.Monad.Basic
import BlockBoard.Proofs.Session.Conduct
/-!
# A link that agrees

A link to nothing in particular, which says after every write all that the raw prompt and the loader say
when they succeed. Requests over it succeed, whatever program or image they are about.

- `AgreeingLink`: the link.
- `AgreeingLink.Grants`: an operation succeeds over it.
- `AgreeingLink.grants_writeBootProgram`: **every program can be saved over it**.
-/

namespace BlockBoard

/-- All that the raw prompt and the loader say when they succeed. -/
def agreement : List UInt8 :=
  rawBanner ++ accepted ++ ctrlD :: finishMark ++
    [0x08, 0x0D, 0x0B, 0x0F, 0x02, 0x03, 0x04].flatMap fun op =>
      [0xC0, 0x01, op, 4, 0, 0, 0, 0, 0, 0, 0, 0, 0, 0xC0]

/-- A link that agrees to everything, once for each write. -/
structure AgreeingLink where
  talking : Bool := false
  deriving DecidableEq, Repr

instance : Transport AgreeingLink where
  read _ l := (if l.talking then .bytes agreement else .silent, {})
  write _ _ := (.ok (), { talking := true })
  setBaud _ l := (.ok (), l)
  enterLoader l := (.ok (), l)
  hardReset l := (.ok (), l)
  backlog l := if l.talking then 1 else 0

instance : Connector AgreeingLink where
  openLink _ l := (.ok "agreeing", l)

namespace AgreeingLink

/-- What an operation comes to is a success, whatever it is told. -/
def Grants {ε α : Type} (x : Operation AgreeingLink ε α) : Prop :=
  ∀ l, ∃ a l', x.outcome l = (.ok a, l')

theorem grants_bind {ε α β : Type} {x : Operation AgreeingLink ε α}
    {f : α → Operation AgreeingLink ε β} (hx : Grants x) (hf : ∀ a, Grants (f a)) :
    Grants (x >>= f) := by
  intro l
  obtain ⟨a, l₁, hfirst⟩ := hx l
  rw [Operation.bind_of_ok hfirst]
  exact hf a l₁

theorem grants_ofLink {α : Type} {x : Operation AgreeingLink LinkError α} (h : Grants x) :
    Grants (RawMode.ofLink x) := by
  intro l
  obtain ⟨a, l', hx⟩ := h l
  exact ⟨a, l', Operation.mapError_of_ok hx⟩

theorem grants_send (bs : List UInt8) : Grants (send bs : Operation AgreeingLink LinkError Unit) :=
  fun _ => ⟨(), _, rfl⟩

theorem grants_drain : Grants (drain : Operation AgreeingLink LinkError Nat) := by
  rintro ⟨_ | _⟩
  · exact ⟨_, _, rfl⟩
  · exact ⟨_, _, rfl⟩

theorem grants_interrupt : Grants (RawMode.interrupt : Operation AgreeingLink SessionError Unit) :=
  grants_ofLink (grants_bind (grants_send _) fun _ => grants_bind grants_drain fun _ _ => ⟨_, _, rfl⟩)

/-- Whoever has written something hears the agreement. -/
theorem readUntil_talking (pattern : List UInt8) (hempty : containsBytes [] pattern = false)
    (h : containsBytes agreement pattern = true) (timeout : Nat) :
    (readUntil pattern timeout).outcome { talking := true } = (.ok agreement, ({} : AgreeingLink)) := by
  have hread : Transport.read answerChunk ({ talking := true } : AgreeingLink) =
      (.bytes agreement, {}) := rfl
  show readUntilWithin pattern timeout 2 [] ({ talking := true } : AgreeingLink) = _
  rw [readUntilWithin, hempty, hread]
  show readUntilWithin pattern timeout 1 agreement ({} : AgreeingLink) = _
  rw [readUntilWithin, if_pos h]

theorem grants_enter (timeout : Nat) :
    Grants (RawMode.enter timeout : Operation AgreeingLink SessionError Unit) := by
  refine grants_bind grants_interrupt fun _ => grants_ofLink fun l => ?_
  have hread := readUntil_talking rawBanner (by decide +kernel) (by decide +kernel) timeout
  have hsend : (send [carriageReturn, ctrlA]).outcome l =
      (.ok (), ({ talking := true } : AgreeingLink)) := rfl
  exact ⟨(), {}, (Operation.bind_of_ok hsend).trans (Operation.bind_of_ok hread)⟩

theorem grants_sendAll (pieces : List (List UInt8)) :
    Grants (RawMode.sendAll pieces : Operation AgreeingLink LinkError Unit) := by
  induction pieces with
  | nil => exact fun l => ⟨(), l, rfl⟩
  | cons p r ih => exact grants_bind (grants_send p) fun _ => ih

/-- A program is accepted, and has ended by then without printing anything. -/
theorem grants_exec (timeout : Nat) (program : String) :
    Grants (RawMode.exec timeout program : Operation AgreeingLink SessionError String) := by
  intro l
  have haccept := readUntil_talking accepted (by decide +kernel) (by decide +kernel) timeout
  obtain ⟨_, l₁, hpieces⟩ := grants_sendAll (piecesOf RawMode.uploadPiece (utf8 program)) l
  have hsend : (send [ctrlD]).outcome l₁ = (.ok (), ({ talking := true } : AgreeingLink)) := rfl
  have hupload : (RawMode.upload timeout (utf8 program)).outcome l =
      (.ok (RawMode.afterAcceptance agreement), ({} : AgreeingLink)) := by
    unfold RawMode.upload
    refine Operation.mapError_of_ok ((Operation.bind_of_ok hpieces).trans ?_)
    exact (Operation.bind_of_ok hsend).trans (Operation.bind_of_ok haccept)
  have hfinish : (readMoreUntil (RawMode.afterAcceptance agreement) finishMark timeout).outcome
      ({} : AgreeingLink) = _ := readMoreUntil_of_contains (by decide +kernel) timeout _
  have houtcome : RawMode.outcomeOf (RawMode.afterAcceptance agreement) = .ok "" := by decide +kernel
  refine ⟨"", {}, ?_⟩
  unfold RawMode.exec
  refine (Operation.bind_of_ok hupload).trans ?_
  refine (Operation.bind_of_ok (Operation.mapError_of_ok hfinish)).trans ?_
  rw [Operation.outcome_of, houtcome]

theorem grants_writeBootProgram (timeout : Nat) (p : Program) :
    Grants (Conduct.writeBootProgram timeout p : Operation AgreeingLink SessionError Unit) := by
  have hall : ∀ programs, Grants (RawMode.execAll timeout programs :
      Operation AgreeingLink SessionError Unit) := by
    intro programs
    induction programs with
    | nil => exact fun l => ⟨(), l, rfl⟩
    | cons program r ih => exact grants_bind (grants_exec timeout program) fun _ => ih
  exact grants_bind (grants_enter timeout) fun _ => grants_bind (hall _) fun _ =>
    grants_bind (grants_ofLink (grants_send _)) fun _ => grants_ofLink (grants_send _)

theorem grants_halt : Grants (Conduct.halt : Operation AgreeingLink SessionError Unit) :=
  grants_bind grants_interrupt fun _ => grants_ofLink (grants_send _)

end AgreeingLink

end BlockBoard
