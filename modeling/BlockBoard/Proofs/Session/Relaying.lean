import BlockBoard.Proofs.Session.Cancelling
import BlockBoard.Proofs.Session.Flashing
import BlockBoard.Proofs.Text.Pieces
/-!
# Passing on what the board says

What the board says is read in pieces, and each piece is announced as a text and added to what the terminal
shows. The terminal joins the pieces of a line before it reads them as a text; what is announced is read
piece by piece, so that a character that is cut is lost there.

- `Conduct.Relayed`: reads that each give something, one after the other, and where they lead.
- `Conduct.relayWithin_of_relayed`: passing on output goes through such reads.
- `Scrollback.push_append`: what a terminal shows does not depend on how the output was cut.
- `relayed_texts`: **what is announced does not depend on it as long as no character is cut**.
- `split_character_lost`: a character that is cut is announced as two others.
-/

namespace BlockBoard

/-! ## What is announced, and what is shown -/

/-- The text of output that an event announces. -/
def SessionEvent.text? : SessionEvent → Option String
  | .output t => some t
  | _ => none

/-- The texts of output that a session has announced, in order. -/
def Desk.texts {σ : Type} (d : Desk σ) : List String := d.events.filterMap SessionEvent.text?

/-- The reason that an event gives for the loss of the link. -/
def SessionEvent.loss? : SessionEvent → Option String
  | .disconnected reason => some reason
  | _ => none

/-- The losses of the link that a session has announced, in order. -/
def Desk.losses {σ : Type} (d : Desk σ) : List String := d.events.filterMap SessionEvent.loss?

theorem Desk.texts_append {σ : Type} (d : Desk σ) (session : Session) (e : SessionEvent) :
    Desk.texts { d with session, events := d.events ++ [e] } = d.texts ++ e.text?.toList := by
  rw [texts, List.filterMap_append]
  cases e <;> rfl

theorem Desk.losses_append {σ : Type} (d : Desk σ) (session : Session) (e : SessionEvent) :
    Desk.losses { d with session, events := d.events ++ [e] } = d.losses ++ e.loss?.toList := by
  rw [losses, List.filterMap_append]
  cases e <;> rfl

/-- A move announces neither a text nor a loss. -/
theorem Desk.said_movedIfPossible {σ : Type} (d : Desk σ) (next : SessionState) :
    (d.movedIfPossible next).texts = d.texts ∧ (d.movedIfPossible next).losses = d.losses := by
  unfold movedIfPossible
  split
  · exact ⟨(d.texts_append _ _).trans (List.append_nil _), (d.losses_append _ _).trans (List.append_nil _)⟩
  · exact ⟨rfl, rfl⟩

/-- What a terminal shows does not depend on how the output was cut. -/
theorem Scrollback.push_append (b : Scrollback) (x y : List UInt8) :
    (b.push (x ++ y)).2 = ((b.push x).2.push y).2 := by
  induction x generalizing b with
  | nil => rfl
  | cons byte r ih => exact ih _

namespace Conduct

variable {σ : Type}

/-- Some output has been passed on in pieces: each is announced, and all together are shown. No link has
been lost meanwhile. -/
structure Passed (ps : List (List UInt8)) (d d' : Desk σ) : Prop where
  texts : d'.texts = d.texts ++ ps.map utf8Text
  losses : d'.losses = d.losses
  scrollback : d'.session.scrollback = (d.session.scrollback.push ps.flatten).2

theorem Passed.nil (d : Desk σ) : Passed [] d d := ⟨(List.append_nil _).symm, rfl, rfl⟩

theorem Passed.trans {ps qs : List (List UInt8)} {d d' d'' : Desk σ} (h : Passed ps d d')
    (h' : Passed qs d' d'') : Passed (ps ++ qs) d d'' where
  texts := by rw [h'.texts, h.texts, List.map_append, List.append_assoc]
  losses := h'.losses.trans h.losses
  scrollback := by rw [h'.scrollback, h.scrollback, List.flatten_append, Scrollback.push_append]

theorem passed_told (d : Desk σ) (bs tail : List UInt8) : Passed [bs] d (d.told bs tail) where
  texts := d.texts_append _ (.output (utf8Text bs))
  losses := (d.losses_append _ (.output (utf8Text bs))).trans (List.append_nil _)
  scrollback := by rw [List.flatten_singleton]; rfl

/-- A move passes nothing on. -/
theorem Passed.movedIfPossible {ps : List (List UInt8)} {d d' : Desk σ} (h : Passed ps d d')
    (next : SessionState) : Passed ps d (d'.movedIfPossible next) := by
  obtain ⟨htexts, hlosses⟩ := d'.said_movedIfPossible next
  refine ⟨htexts.trans h.texts, hlosses.trans h.losses, Eq.trans ?_ h.scrollback⟩
  unfold Desk.movedIfPossible
  split <;> rfl

/-- A piece that is passed on is announced and shown, and asks nothing of the link. -/
theorem passed_relay {bs : List UInt8} (hne : bs ≠ []) (d : Desk σ) :
    ∃ d', (relay bs).outcome d = (.ok (), d') ∧ Passed [bs] d d' ∧ d'.port = d.port ∧
      d'.session.linked = d.session.linked := by
  refine ⟨_, outcome_relay hne d, ?_⟩
  split
  · split
    · refine ⟨(passed_told d bs []).movedIfPossible .connected, Desk.port_movedIfPossible _ _, ?_⟩
      unfold Desk.movedIfPossible
      split <;> rfl
    · exact ⟨passed_told d bs _, rfl, rfl⟩
  · exact ⟨passed_told d bs _, rfl, rfl⟩

variable [Transport σ]

/-- Reads that each give something, one after the other: all of it is passed on. -/
inductive Relayed : List (List UInt8) → Desk σ → Desk σ → Prop
  | nil (d : Desk σ) : Relayed [] d d
  | cons {byte : UInt8} {bs : List UInt8} {ps : List (List UInt8)} {port : σ} {d d₁ d' : Desk σ}
    (hrelays : relays d.session = true)
    (hread : Transport.read relayChunk d.port = (.bytes (byte :: bs), port))
    (hrelay : (relay (byte :: bs)).outcome { d with port } = (.ok (), d₁)) (hrest : Relayed ps d₁ d') :
    Relayed ((byte :: bs) :: ps) d d'

/-- What is read in turn is passed on in turn. -/
theorem Relayed.passed {ps : List (List UInt8)} {d d' : Desk σ} (h : Relayed ps d d') : Passed ps d d' := by
  induction h with
  | nil d => exact .nil d
  | @cons byte bs ps port d d₁ d' _ _ hrelay _ ih =>
    obtain ⟨d₂, hrun, hpassed, -⟩ := passed_relay (List.cons_ne_nil byte bs) { d with port }
    cases hrun.symm.trans hrelay
    have hfirst : Passed [byte :: bs] d d₁ := ⟨hpassed.texts, hpassed.losses, hpassed.scrollback⟩
    exact hfirst.trans ih

/-- A read of the output. -/
theorem outcome_read {d : Desk σ} {answer : Reading} {port : σ}
    (hread : Transport.read relayChunk d.port = (answer, port)) :
    (onPort (.of fun port =>
      let (r, port) := Transport.read relayChunk port; (.ok r, port)) : Conduct σ Reading).outcome d =
        (.ok answer, { d with port }) := by
  rw [outcome_onPort, Operation.outcome_of, hread]

theorem relayWithin_succ_of_bytes {d : Desk σ} (hrelays : relays d.session = true) {byte : UInt8}
    {bs : List UInt8} {port : σ} (hread : Transport.read relayChunk d.port = (.bytes (byte :: bs), port))
    {d₁ : Desk σ} (hrelay : (relay (byte :: bs)).outcome { d with port } = (.ok (), d₁)) (reads : Nat) :
    (relayWithin (reads + 1)).outcome d = (relayWithin reads).outcome d₁ := by
  rw [relayWithin, outcome_session_bind, if_pos hrelays, Operation.bind_of_ok (outcome_read hread)]
  exact Operation.bind_of_ok hrelay

/-- Passing on output goes through what is read in turn. -/
theorem relayWithin_of_relayed {ps : List (List UInt8)} {d d' : Desk σ} (h : Relayed ps d d') (reads : Nat) :
    (relayWithin (ps.length + reads)).outcome d = (relayWithin reads).outcome d' := by
  induction h with
  | nil d => rw [List.length_nil, Nat.zero_add]
  | cons hrelays hread hrelay _ ih =>
    rw [List.length_cons, Nat.add_right_comm, relayWithin_succ_of_bytes hrelays hread hrelay, ih]

end Conduct

open Conduct in
/-- **What is announced and what is shown of the output, however it is cut.**

For every link and every session, and all reads one after the other: each piece is announced as the text
that it is by itself. The terminal shows the pieces together, and so does not depend on where they were cut;
the texts that are announced are together the text of the pieces exactly if no character is cut. -/
theorem relayed_texts {σ : Type} [Transport σ] {ps : List (List UInt8)} {d d' : Desk σ}
    (h : Relayed ps d d') :
    d'.texts = d.texts ++ ps.map utf8Text ∧
    d'.session.scrollback = (d.session.scrollback.push ps.flatten).2 ∧
    ∀ s, ps.flatten = utf8 s → (String.join (ps.map utf8Text) = s ↔ ∀ p ∈ ps, ∃ t, p = utf8 t) :=
  ⟨h.passed.texts, h.passed.scrollback, fun _ => join_utf8Text_iff⟩

/-- A link that gives two characters, the second of two bytes, two bytes at a time. -/
def cutLink : ScriptedLink := { script := { initial := [0x61, 0xC3, 0xA9], chunk := some 2 } }

theorem relayed_texts_cut :
    ∃ d' : Desk ScriptedLink, Conduct.Relayed [[0x61, 0xC3], [0xA9]] (connectedDesk cutLink) d' ∧
      d'.texts = ["a\uFFFD", "\uFFFD"] ∧ d'.session.scrollback.snapshot = ⟨[], "aé"⟩ ∧
      String.join d'.texts ≠ "aé" := by
  have hrelayed : ∃ d', Conduct.Relayed [[0x61, 0xC3], [0xA9]] (connectedDesk cutLink) d' :=
    ⟨_, .cons rfl rfl rfl (.cons rfl rfl rfl (.nil _))⟩
  obtain ⟨d', h⟩ := hrelayed
  obtain ⟨htexts, hshown, hjoin⟩ := relayed_texts h
  refine ⟨d', h, htexts, ?_, fun hsame => ?_⟩
  · rw [hshown]
    decide +kernel
  · rw [htexts] at hsame
    obtain ⟨t, ht⟩ := (hjoin "aé" (by decide +kernel)).mp hsame [0xA9] (by simp)
    have hread : utf8Text [0xA9] = t := by rw [ht, utf8Text_utf8]
    rw [← hread] at ht
    exact absurd ht (by decide +kernel)

open Conduct in
/-- **A character that is cut is announced as two others**, while the terminal shows it. -/
theorem split_character_lost :
    ∃ d : Desk Board, d.Reachable smallBlocks ∧
      ((d.touch (·.emit [0xC3])).touch (·.emit [0xA9])).texts = ["\uFFFD", "\uFFFD"] ∧
      (d.touch (·.emit [0xC3, 0xA9])).texts = ["é"] ∧ utf8 "é" = [0xC3, 0xA9] ∧
      ((d.touch (·.emit [0xC3])).touch (·.emit [0xA9])).session.scrollback.snapshot = ⟨[], "é"⟩ ∧
      (d.touch (·.emit [0xC3, 0xA9])).session.scrollback.snapshot = ⟨[], "é"⟩ := by
  refine ⟨(Desk.start smallBlocks.device smallBlocks.flash smallBlocks.maxLines.toNat {}).after
    (.request (fun _ => false) .connect), (Desk.Reachable.start _).after _, ?_⟩
  decide +kernel

end BlockBoard
