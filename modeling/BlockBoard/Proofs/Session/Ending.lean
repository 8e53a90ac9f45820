import BlockBoard.Proofs.Link.Arriving
import BlockBoard.Proofs.Session.Installing
import BlockBoard.Proofs.Session.Relaying
/-!
# The end of a program

A program has ended when the board says the finish mark, two bytes that may come in two reads. The session
keeps the last byte of what it has heard of a program, so that it finds the mark wherever it is cut, and it
finds it with the read that completes it.

- `finishMark_infix_iff`: the last byte of what was heard is enough to find the mark.
- `Conduct.Follows`: a session that has heard so much of a program, and whether the program has ended.
- `Conduct.follows_relay`: one more read, `Conduct.follows_arrives`: any number of them, by induction.
- `Conduct.run_of_ok`: what a run that succeeds has done.
- `end_noticed`: **the end of a program is noticed once, with the read that completes the mark**.
-/

namespace BlockBoard

open Conduct (lastByte)

/-! ## The last byte -/

theorem lastByte_concat (bs : List UInt8) (b : UInt8) : lastByte (bs ++ [b]) = [b] := by
  rw [lastByte, List.length_append, List.length_singleton, Nat.add_sub_cancel, List.drop_left]

/-- The last byte of what was heard is enough to find the mark in what comes next. -/
theorem finishMark_infix_iff {heard : List UInt8} (h : ¬ finishMark <:+: heard) (bs : List UInt8) :
    finishMark <:+: lastByte heard ++ bs ↔ finishMark <:+: heard ++ bs := by
  rcases List.eq_nil_or_concat' heard with rfl | ⟨r, b, rfl⟩
  · rfl
  · rw [lastByte_concat, List.append_assoc, List.singleton_append]
    exact ⟨fun hmark => pair_infix_iff.mpr (.inr hmark), fun hmark => (pair_infix_iff.mp hmark).resolve_left h⟩

theorem lastByte_append (heard bs : List UInt8) : lastByte (lastByte heard ++ bs) = lastByte (heard ++ bs) := by
  rcases List.eq_nil_or_concat' bs with rfl | ⟨r, b, rfl⟩
  · rw [List.append_nil, List.append_nil]
    rcases List.eq_nil_or_concat' heard with rfl | ⟨r, b, rfl⟩
    · rfl
    · rw [lastByte_concat]
      rfl
  · rw [← List.append_assoc, ← List.append_assoc, lastByte_concat, lastByte_concat]

/-! ## Following a program -/

theorem Desk.states_told {σ : Type} (d : Desk σ) (bs tail : List UInt8) : (d.told bs tail).states = d.states := by
  show (d.events ++ [SessionEvent.output (utf8Text bs)]).filterMap SessionEvent.state? = _
  rw [List.filterMap_append]
  exact List.append_nil _

namespace Conduct

variable {σ : Type}

/-- A session that has heard so much of a program. As long as there was no mark in it the program runs, and
the last byte of it is kept; after the mark the session is connected again. The states are those that it has
announced before. -/
structure Follows (states : List SessionState) (heard : List UInt8) (d : Desk σ) : Prop where
  linked : d.session.linked = true
  running : ¬ finishMark <:+: heard →
    d.session.state = .running ∧ d.session.tail = lastByte heard ∧ d.states = states
  ended : finishMark <:+: heard → d.session.state = .connected ∧ d.states = states ++ [.connected]

/-- A session that follows a program passes on what it says. -/
theorem Follows.relays {states : List SessionState} {heard : List UInt8} {d : Desk σ}
    (h : Follows states heard d) : relays d.session = true := by
  by_cases hmark : finishMark <:+: heard
  · simp [Conduct.relays, h.linked, (h.ended hmark).1]
  · simp [Conduct.relays, h.linked, (h.running hmark).1]

/-- The port is of no account. -/
theorem Follows.withPort {states : List SessionState} {heard : List UInt8} {d : Desk σ}
    (h : Follows states heard d) (port : σ) : Follows states heard { d with port } :=
  ⟨h.linked, h.running, h.ended⟩

/-- **One more piece**: the program ends with the piece that completes the mark, and not again. -/
theorem follows_relay {states : List SessionState} {heard : List UInt8} {d : Desk σ}
    (h : Follows states heard d) (bs : List UInt8) :
    ∃ d', (relay bs).outcome d = (.ok (), d') ∧ Follows states (heard ++ bs) d' ∧ d'.port = d.port := by
  cases bs with
  | nil => exact ⟨d, outcome_relay_nil d, by rwa [List.append_nil], rfl⟩
  | cons b r =>
    have hrelay := outcome_relay (List.cons_ne_nil b r) d
    by_cases hbefore : finishMark <:+: heard
    · -- the program has ended before
      obtain ⟨hstate, hstates⟩ := h.ended hbefore
      have hmark : finishMark <:+: heard ++ b :: r := hbefore.trans (List.prefix_append _ _).isInfix
      rw [if_neg (by rw [hstate]; decide)] at hrelay
      refine ⟨_, hrelay, ⟨h.linked, fun hnone => absurd hmark hnone, fun _ => ⟨hstate, ?_⟩⟩, rfl⟩
      rw [Desk.states_told, hstates]
    · obtain ⟨hstate, htail, hstates⟩ := h.running hbefore
      have hseen : containsBytes (d.session.tail ++ b :: r) finishMark = true ↔
          finishMark <:+: heard ++ b :: r := by
        rw [htail, containsBytes_iff, finishMark_infix_iff hbefore]
      rw [if_pos hstate] at hrelay
      by_cases hmark : finishMark <:+: heard ++ b :: r
      · -- the program ends now
        have hmove : (d.told (b :: r) []).session.state.canMoveTo .connected = true := by
          show SessionState.canMoveTo d.session.state .connected = true
          rw [hstate]
          rfl
        rw [if_pos (hseen.mpr hmark), Desk.movedIfPossible, if_pos hmove] at hrelay
        refine ⟨_, hrelay, ⟨h.linked, fun hnone => absurd hmark hnone, fun _ => ⟨rfl, ?_⟩⟩, rfl⟩
        rw [states_moved, Desk.states_told, hstates]
      · -- the program goes on
        rw [if_neg fun hcontains => hmark (hseen.mp hcontains)] at hrelay
        refine ⟨_, hrelay, ⟨h.linked, fun _ => ⟨hstate, ?_, ?_⟩, fun hcome => absurd hcome hmark⟩, rfl⟩
        · show lastByte (d.session.tail ++ b :: r) = _
          rw [htail, lastByte_append]
        · rw [Desk.states_told, hstates]

variable [Transport σ]

/-- **Any number of reads**, by induction on them: all that arrives is passed on, and the program has ended
exactly if the mark has come. -/
theorem follows_arrives {states : List SessionState} {heard : List UInt8} {ps : List (List UInt8)} {s port : σ}
    (hps : Arrives relayChunk ps s port) {d : Desk σ} (hport : d.port = s) (h : Follows states heard d) :
    ∃ d', Relayed ps d d' ∧ d'.port = port ∧ Follows states (heard ++ ps.flatten) d' := by
  induction hps generalizing heard d with
  | nil s => exact ⟨d, .nil d, hport, by rwa [List.flatten_nil, List.append_nil]⟩
  | @cons b bs ps s s₁ port hread _ ih =>
    subst hport
    obtain ⟨d₁, hrelay, h₁, hport₁⟩ := follows_relay (h.withPort s₁) (b :: bs)
    obtain ⟨d', hrest, hport', h'⟩ := ih hport₁ h₁
    refine ⟨d', .cons h.relays hread hrelay hrest, hport', ?_⟩
    rwa [List.flatten_cons, ← List.append_assoc]

/-! ## Beginning a program -/

/-- The states that a session has announced once it has begun a program: one that runs is stopped first. -/
def statesOnceRunning (d : Desk σ) : List SessionState :=
  d.states ++ (if d.session.state = .running then [.connected] else []) ++ [.running]

/-- The upload of a program, after another one has been stopped, gives these bytes, which have come after its
acceptance. -/
def LeavesOver (p : Program) (d : Desk σ) (begun : List UInt8) : Prop :=
  ∃ d₁ port, (quiesce : Conduct σ Unit).outcome d = (.ok (), d₁) ∧
    (do
      RawMode.enter d₁.session.flashing.commandTimeout.toNat
      RawMode.upload d₁.session.flashing.commandTimeout.toNat p.bytes :
      Operation σ SessionError (List UInt8)).outcome d₁.port = (.ok begun, port)

/-- A session that has just begun a program follows it. -/
theorem follows_begun {d d₁ : Desk σ} (hquiesce : (quiesce : Conduct σ Unit).outcome d = (.ok (), d₁))
    (hlinked : d₁.session.linked = true) (port : σ) (saved : Option String) :
    Follows (statesOnceRunning d) [] { d₁.moved .running with
      port, session := { (d₁.moved .running).session with tail := [], saved } } := by
  refine ⟨hlinked, fun _ => ⟨rfl, rfl, ?_⟩, fun hmark => absurd (List.eq_nil_of_infix_nil hmark) (by decide)⟩
  show (d₁.moved .running).states = _
  rw [states_moved, statesOnceRunning]
  rcases quiesce_of_ok hquiesce with ⟨hidle, rfl⟩ | ⟨hrunning, port₁, rfl⟩
  · rw [if_neg hidle, List.append_nil]
  · rw [if_pos hrunning, states_moved]
    rfl

/-- What a run that succeeds has done. -/
theorem run_of_ok {p : Program} {d d' : Desk σ} (h : (run p : Conduct σ Unit).outcome d = (.ok (), d')) :
    ∃ begun, LeavesOver p d begun ∧ Follows (statesOnceRunning d) begun d' := by
  obtain ⟨_, d₀, hrequire, h⟩ := Operation.eq_ok_of_bind h
  rw [outcome_require] at hrequire
  split at hrequire
  · cases hrequire
  cases hrequire
  obtain ⟨_, d₁, hquiesce, h⟩ := Operation.eq_ok_of_bind h
  obtain ⟨_, d₂, hmove, h⟩ := Operation.eq_ok_of_bind h
  rw [outcome_move] at hmove
  split at hmove
  · cases hmove
    rw [timeout, bind_assoc, outcome_session_bind, pure_bind] at h
    obtain ⟨begun, d₃, hupload, h⟩ := Operation.eq_ok_of_bind h
    obtain ⟨hlinked, port, hbegun, rfl⟩ := orAbandon_onLink_of_ok hupload
    rw [Operation.bind_of_ok (outcome_update _ _)] at h
    have hbegins := follows_begun hquiesce hlinked port d₁.session.saved
    obtain ⟨d₄, hrelay, hfollows, -⟩ := follows_relay hbegins begun
    cases hrelay.symm.trans h
    exact ⟨begun, ⟨d₁, port, hquiesce, hbegun⟩, hfollows⟩
  · cases hmove

/-- From a session on that has just begun a program, and has heard so much of it: however what arrives is
cut, the program has ended exactly if the mark has come. -/
def NoticesEnd (states : List SessionState) (begun : List UInt8) (d : Desk σ) : Prop :=
  ∀ {ps : List (List UInt8)} {port : σ}, Arrives relayChunk ps d.port port →
    ∃ d', (relayWithin ps.length).outcome d = (.ok (), d') ∧ d'.port = port ∧
      (¬ finishMark <:+: begun ++ ps.flatten → d'.session.state = .running ∧ d'.states = states) ∧
      (finishMark <:+: begun ++ ps.flatten →
        d'.session.state = .connected ∧ d'.states = states ++ [.connected])

theorem Follows.noticesEnd {states : List SessionState} {begun : List UInt8} {d : Desk σ}
    (h : Follows states begun d) : NoticesEnd states begun d := by
  intro ps port hps
  obtain ⟨d', hrelayed, hport, h'⟩ := follows_arrives hps rfl h
  have hall := relayWithin_of_relayed hrelayed 0
  rw [Nat.add_zero] at hall
  exact ⟨d', hall, hport, fun hnone => ⟨(h'.running hnone).1, (h'.running hnone).2.2⟩, h'.ended⟩

end Conduct

open Conduct in
/-- **The end of a program is noticed once, with the read that completes the mark.**

For every link, every session and every program: after a run, what the upload has left over and what arrives
from then on is looked at as one, and after a save what arrives. As long as there is no mark in it the session
runs the program. Once there is one the session is connected again, and it announces that once, however the
bytes were cut and whatever comes after the mark. -/
theorem end_noticed {σ : Type} [Transport σ] (p : Program) (d d' : Desk σ) :
    ((run p : Conduct σ Unit).outcome d = (.ok (), d') →
      ∃ begun, LeavesOver p d begun ∧ NoticesEnd (statesOnceRunning d) begun d') ∧
    ∀ n digest, (save p : Conduct σ SaveOutcome).outcome d = (.ok (.written n digest), d') →
      NoticesEnd (statesOnceRunning d) [] d' := by
  constructor
  · intro hrun
    obtain ⟨begun, hbegun, hfollows⟩ := run_of_ok hrun
    exact ⟨begun, hbegun, hfollows.noticesEnd⟩
  · intro n digest hsave
    obtain ⟨-, -, d₁, port, hquiesce, hlinked, -, rfl⟩ := save_of_written hsave
    exact (follows_begun hquiesce hlinked port (some p.digest)).noticesEnd

/-- A link whose answers come four bytes at a time, so that the finish mark is cut. -/
def splitLink : ScriptedLink := { script := { rule := .rawPrompt, chunk := some 4 } }

open Conduct in
/-- The program says twice that it ends something, and its mark is cut between what the upload leaves over and
the first read: the session runs the program up to that read, and is connected after it. -/
theorem end_noticed_split :
    ∃ d' d'' : Desk ScriptedLink,
      (run endlessProgram).outcome (connectedDesk splitLink) = (.ok (), d') ∧
      LeavesOver endlessProgram (connectedDesk splitLink) [ctrlD, ctrlD] ∧
      d'.session.state = .running ∧ d'.states = [.running] ∧
      Arrives relayChunk [[promptMark]] d'.port d''.port ∧
      (relayWithin 1).outcome d' = (.ok (), d'') ∧ d''.session.state = .connected ∧
      d''.states = [.running, .connected] := by
  have hresult : ((run endlessProgram).outcome (connectedDesk splitLink)).1 = .ok () ∧
      (Transport.read relayChunk ((run endlessProgram).outcome (connectedDesk splitLink)).2.port).1 =
        .bytes [promptMark] := by decide +kernel
  have hupload : ((do
      RawMode.enter (connectedDesk splitLink).session.flashing.commandTimeout.toNat
      RawMode.upload (connectedDesk splitLink).session.flashing.commandTimeout.toNat endlessProgram.bytes :
      Operation ScriptedLink SessionError (List UInt8)).outcome splitLink).1 = .ok [ctrlD, ctrlD] := by
    decide +kernel
  rcases hrun : (run endlessProgram).outcome (connectedDesk splitLink) with ⟨result, d'⟩
  rw [hrun] at hresult
  obtain ⟨rfl, hbytes⟩ := hresult
  obtain ⟨begun, ⟨d₁, port, hquiesce, hbegun⟩, hnotices⟩ :=
    (end_noticed endlessProgram (connectedDesk splitLink) d').1 hrun
  cases hquiesce
  -- nothing else can be left over
  have hleft : begun = [ctrlD, ctrlD] := Except.ok.inj ((congrArg Prod.fst hbegun).symm.trans hupload)
  subst hleft
  obtain ⟨before, hnone, -, hbefore, -⟩ := hnotices (.nil d'.port)
  cases hnone
  obtain ⟨hstate, hstates⟩ := hbefore (by decide)
  have hread : Arrives relayChunk [[promptMark]] d'.port (Transport.read relayChunk d'.port).2 :=
    .cons (Prod.ext hbytes rfl) (.nil _)
  obtain ⟨d'', hrelay, hport, -, hafter⟩ := hnotices hread
  obtain ⟨hended, hstates'⟩ := hafter (by decide)
  exact ⟨d', d'', rfl, ⟨_, port, rfl, hbegun⟩, hstate, hstates, hport ▸ hread, hrelay, hended, hstates'⟩

end BlockBoard
