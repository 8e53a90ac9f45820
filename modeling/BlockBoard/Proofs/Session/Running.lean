import BlockBoard.Proofs.Board.Running
import BlockBoard.Proofs.Program.Requirements
import BlockBoard.Proofs.Session.Flashing
/-!
# Running a program from end to end

A session that is asked to run the program of a graph stops a program that runs, uploads the new one, and
passes on what it prints. Over a simulated board whose interpreter listens nothing of this fails, whatever
has happened to the session and to the board before, and the board is given the program as it is.

- `BlockGraph.endless_source`: the program of a graph can be typed, and never ends.
- `Conduct.Presents`: a session that runs the latest of the programs that its board has been given.
- `Conduct.relayWithin_keeps`: what is kept with every piece of output is kept however much there is.
- `Conduct.relay_presents`, `Conduct.relayWithin_presents`: it does so while output is passed on.
- `run_reachable_board`: **a program that is run ends up on the board as it is**, for every session that can
  be reached.
-/

namespace BlockBoard

/-! ## The program of a graph -/

namespace Board

theorem occursIn_of_isPrefixOf {word s : List Char} (h : word.isPrefixOf s = true) :
    occursIn word s = true := by
  cases s with
  | nil => simpa [occursIn] using h
  | cons c r => rw [occursIn, h, Bool.true_or]

theorem occursIn_append {word s : List Char} (before : List Char) (h : occursIn word s = true) :
    occursIn word (before ++ s) = true := by
  induction before with
  | nil => exact h
  | cons c r ih => rw [List.cons_append, occursIn, ih, Bool.or_true]

/-- A text whose first line is something else does not consist of statements about files. -/
theorem fileStatements?_of_lines {source first : String} {rest : List String}
    (h : lines source = first :: rest) (hfull : (dropBlanks first.toList).isEmpty = false)
    (hfirst : FileStatement.ofLine? (dropBlanks first.toList) = none) :
    fileStatements? source = none := by
  have hlines : linesOf source.toList = first.toList :: rest.map String.toList := by
    have hback := congrArg (List.map String.toList) h
    simpa only [lines, List.map_map, Function.comp_def, String.toList_ofList, List.map_id',
      List.map_cons] using hback
  unfold fileStatements?
  rw [hlines, List.map_cons, List.filter_cons_of_pos (by rw [hfull]; rfl)]
  dsimp only
  rw [List.mapM_cons, hfirst]
  rfl

end Board

/-- **The program of a graph can be typed at the raw prompt, and never ends**: there is no control character
in it, its first line is an import, and its last lines are the loop. -/
theorem BlockGraph.endless_source (g : BlockGraph) : Board.Endless g.compile.source := by
  refine ⟨fun c hc => ?_, ?_, ?_⟩
  · rw [g.source_compile, toList_unlines] at hc
    obtain ⟨l, hl, hmem⟩ := List.mem_flatMap.mp hc
    rcases List.mem_append.mp hmem with hmem | hmem
    · exact Nat.lt_of_lt_of_le (by decide) (g.controlFree_sourceLines l hl c hmem)
    · rw [List.mem_singleton.mp hmem]
      decide
  · exact Board.fileStatements?_of_lines g.lines_source (by decide) (by decide)
  · have hloop : ∃ before, g.compile.source = before ++ tickLoop := ⟨_, rfl⟩
    obtain ⟨before, hsource⟩ := hloop
    rw [hsource, String.toList_append]
    exact Board.occursIn_append _ (Board.occursIn_of_isPrefixOf (by decide))

/-! ## Passing on output -/

/-- A byte of a pattern that is not among some bytes: the pattern does not occur in them. -/
theorem containsBytes_of_not_mem {bs pattern : List UInt8} {b : UInt8} (hb : b ∈ pattern)
    (h : b ∉ bs) : containsBytes bs pattern = false := by
  rw [Bool.eq_false_iff]
  intro hcontains
  exact h ((containsBytes_iff.mp hcontains).subset hb)

/-- What is left of stopping a program: the interpreter listens, and has been given no other one. -/
theorem Board.halt_atPrompt {log : List String} {b : Board} (h : b.AtPrompt log) :
    ∃ b', (Conduct.halt : Operation Board SessionError Unit).outcome b = (.ok (), b') ∧
      b'.AtPrompt log := by
  have htold : (b.receive Conduct.interruption).AtPrompt log := h.receive (by decide)
  have hheard : Board.AtPrompt log { b.receive Conduct.interruption with outbox := [] } :=
    ⟨htold.connected, htold.interpreter, htold.programs⟩
  exact ⟨_, halt_connected h.connected, hheard.receive (by decide)⟩

namespace Conduct

/-- A session in which a program runs, on a board that runs the latest of the programs that it has been
given. Nothing has been said that could be a part of the mark at a program's end. -/
structure Presents (log : List String) (d : Desk Board) : Prop where
  state : d.session.state = .running
  linked : d.session.linked = true
  port : d.port.Runs log
  tail : ctrlD ∉ d.session.tail

/-- Passing on output without the mark leaves the program running. -/
theorem relay_presents {log : List String} {d : Desk Board} (h : Presents log d) {bs : List UInt8}
    (hbs : ctrlD ∉ bs) :
    ∃ d', (relay bs : Conduct Board Unit).outcome d = (.ok (), d') ∧ Presents log d' := by
  cases bs with
  | nil => exact ⟨d, outcome_relay_nil d, h⟩
  | cons byte r =>
    have hseen : ctrlD ∉ d.session.tail ++ byte :: r := fun hmem =>
      (List.mem_append.mp hmem).elim h.tail hbs
    have hmark : ¬ containsBytes (d.session.tail ++ byte :: r) finishMark = true := by
      rw [containsBytes_of_not_mem (b := ctrlD) (by decide) hseen]
      exact Bool.false_ne_true
    rw [outcome_relay (List.cons_ne_nil byte r), if_pos h.state, if_neg hmark]
    exact ⟨_, rfl, h.state, h.linked, h.port, fun hmem => hseen (List.mem_of_mem_drop hmem)⟩

/-- What a session that reads from a connected board keeps with every piece that it passes on, it keeps
however much it passes on. -/
theorem relayWithin_keeps {P : Desk Board → Prop}
    (hlistens : ∀ d, P d → relays d.session = true ∧ d.port.connected = true)
    (hpiece : ∀ d : Desk Board, P d → ∃ d',
      (relay (d.port.outbox.take relayChunk) : Conduct Board Unit).outcome
          { d with port := { d.port with outbox := d.port.outbox.drop relayChunk } } = (.ok (), d') ∧ P d')
    {d : Desk Board} (h : P d) (fuel : Nat) :
    ∃ d', (relayWithin fuel : Conduct Board Unit).outcome d = (.ok (), d') ∧ P d' := by
  induction fuel generalizing d with
  | zero => exact ⟨d, rfl, h⟩
  | succ fuel ih =>
    obtain ⟨hrelays, hconnected⟩ := hlistens d h
    obtain ⟨d₁, hrelay, h₁⟩ := hpiece d h
    rw [relayWithin, outcome_session_bind, if_pos hrelays, Operation.outcome_bind, outcome_onPort,
      Operation.outcome_of, Board.read_eq]
    cases hsaid : d.port.outbox with
    | nil =>
      rw [List.isEmpty_nil, if_pos rfl, if_pos hconnected]
      exact ⟨d, rfl, h⟩
    | cons byte r =>
      rw [List.isEmpty_cons, if_neg Bool.false_ne_true]
      rw [hsaid] at hrelay
      obtain ⟨d', hmore, h'⟩ := ih h₁
      exact ⟨d', (Operation.bind_of_ok hrelay).trans hmore, h'⟩

/-- **However much output is passed on, the program runs on.** -/
theorem relayWithin_presents {log : List String} {d : Desk Board} (h : Presents log d) (fuel : Nat) :
    ∃ d', (relayWithin fuel : Conduct Board Unit).outcome d = (.ok (), d') ∧ Presents log d' := by
  refine relayWithin_keeps (fun d h => ⟨by simp [relays, h.linked, h.state], h.port.connected⟩)
    (fun d h => ?_) h fuel
  have hread : Presents log { d with port := { d.port with outbox := d.port.outbox.drop relayChunk } } :=
    ⟨h.state, h.linked, ⟨h.port.connected, h.port.interpreter, h.port.running, h.port.programs,
      fun hmem => h.port.quiet (List.mem_of_mem_drop hmem)⟩, h.tail⟩
  exact relay_presents hread fun hmem => h.port.quiet (List.mem_of_mem_take hmem)

/-! ## A request to run -/

/-- Whether a program runs or not, none does afterwards, and the interpreter listens. -/
theorem quiesce_atPrompt {log : List String} {d : Desk Board}
    (hstate : d.session.state = .connected ∨ d.session.state = .running)
    (hlinked : d.session.linked = true) (hboard : d.port.AtPrompt log) :
    ∃ d', (quiesce : Conduct Board Unit).outcome d = (.ok (), d') ∧ d'.session.state = .connected ∧
      d'.session.linked = true ∧ d'.port.AtPrompt log := by
  rcases hstate with hconnected | hrunning
  · exact ⟨d, quiesce_of_not_running (by simp [hconnected]), hconnected, hlinked, hboard⟩
  · obtain ⟨port, hhalt, hport⟩ := Board.halt_atPrompt hboard
    exact ⟨_, quiesce_of_halt hrunning hlinked hhalt, rfl, hlinked, hport⟩

/-- **A session that holds a link to a board whose interpreter listens runs every program that never
ends.** -/
theorem run_endless {log : List String} {p : Program} (hp : Board.Endless p.source) {d : Desk Board}
    (hstate : d.session.state = .connected ∨ d.session.state = .running)
    (hlinked : d.session.linked = true) (hboard : d.port.AtPrompt log) :
    ∃ d', (run p : Conduct Board Unit).outcome d = (.ok (), d') ∧ Presents (log ++ [p.source]) d' := by
  have hrequire : (require .running : Conduct Board Unit).outcome d = (.ok (), d) := by
    rw [outcome_require, if_neg]
    rcases hstate with hstate | hstate <;> rw [hstate] <;> decide
  obtain ⟨d₁, hquiesce, hready, hlinked₁, hprompt⟩ := quiesce_atPrompt hstate hlinked hboard
  have hmove : (move .running : Conduct Board Unit).outcome d₁ = (.ok (), d₁.moved .running) :=
    outcome_move_of (by rw [hready]; rfl)
  -- the upload
  let timeout := (d₁.moved .running).session.flashing.commandTimeout.toNat
  obtain ⟨raw, henter, hraw⟩ := Board.enter_connected hprompt timeout
  obtain ⟨begun, port, hupload, hruns, hquiet, -⟩ := Board.upload_endless hp hraw timeout
  have hsend : (do RawMode.enter timeout; RawMode.upload timeout p.bytes :
      Operation Board SessionError (List UInt8)).outcome d₁.port = (.ok begun, port) :=
    (Operation.bind_of_ok henter).trans hupload
  have hlink : (onLink (do RawMode.enter timeout; RawMode.upload timeout p.bytes) :
      Conduct Board (List UInt8)).outcome (d₁.moved .running) =
        (.ok begun, { d₁.moved .running with port }) :=
    onLink_of_ok (d := d₁.moved .running) hlinked₁ hsend
  -- what the program has printed by then is passed on
  let started : Desk Board :=
    { d₁.moved .running with port, session := { (d₁.moved .running).session with tail := [] } }
  have hstarted : Presents (log ++ [p.source]) started := ⟨rfl, hlinked₁, hruns, List.not_mem_nil⟩
  obtain ⟨d', hrelay, hdone⟩ := relay_presents hstarted hquiet
  refine ⟨d', ?_, hdone⟩
  rw [run, Operation.bind_of_ok hrequire, Operation.bind_of_ok hquiesce, Operation.bind_of_ok hmove,
    Conduct.timeout, bind_assoc, outcome_session_bind, pure_bind,
    Operation.bind_of_ok (orAbandon_of_ok hlink), Operation.bind_of_ok (outcome_update _ _)]
  exact hrelay

end Conduct

/-! ## Everything together -/

/-- A session in which a program runs on a board, the latest of those that the board has been given. -/
structure Desk.Running (log : List String) (d : Desk Board) : Prop where
  state : d.session.state = .running
  running : d.port.running = true
  programs : d.port.programs = log

theorem Conduct.Presents.running {log : List String} {d : Desk Board} (h : Conduct.Presents log d) :
    d.Running log :=
  ⟨h.state, h.port.running, h.port.programs⟩

/-- **A program that is run ends up on the board as it is.**

For every graph, every session that can be reached and is connected, whether or not a program runs, and
every connected board at its other end that is not in its loader, whatever prompt it is at, whatever has
been typed there and whatever it has left to say: the request succeeds, the board has been given one more
program, which is the program of the graph, it runs it, and the session says so. That stays so when
everything that the board has said is passed on. -/
theorem run_reachable_board {s : Settings} {d : Desk Board} (hd : d.Reachable s)
    (hstate : d.session.state = .connected ∨ d.session.state = .running)
    (hconnected : d.port.connected = true) (hmode : d.port.mode ≠ .loader) (cancelled : Board → Bool)
    (g : BlockGraph) :
    (∃ d', ((Request.run g.compile).perform cancelled).outcome d = (.ok .done, d') ∧
      d'.Running (d.port.programs ++ [g.compile.source])) ∧
    ∃ d', d.handle cancelled (.run g.compile) = (.ok .done, d') ∧
      d'.Running (d.port.programs ++ [g.compile.source]) := by
  have hlinked : d.session.linked = true := by
    refine hd.sound.1.linked ?_
    rcases hstate with h | h <;> rw [h] <;> rfl
  have hprompt : d.port.AtPrompt d.port.programs := by
    refine ⟨hconnected, ?_, rfl⟩
    cases h : d.port.mode with
    | interpreter raw => exact ⟨raw, h⟩
    | loader => exact absurd h hmode
  obtain ⟨d₁, hrun, h₁⟩ := Conduct.run_endless g.endless_source hstate hlinked hprompt
  have hperform : ((Request.run g.compile).perform cancelled).outcome d = (.ok .done, d₁) :=
    Operation.bind_of_ok hrun
  obtain ⟨d₂, hmore, h₂⟩ := Conduct.relayWithin_presents h₁ (Transport.backlog d₁.port + 1)
  have hsettle : (Conduct.settle : Conduct Board Unit).outcome d₁ = (.ok (), d₂) := hmore
  refine ⟨⟨d₁, hperform, h₁.running⟩, d₂, ?_, h₂.running⟩
  rw [Desk.handle, hperform]
  dsimp only
  rw [hsettle]

theorem run_reachable_board_running : runningDesk.Reachable smallBlocks ∧
    ∃ d', ((Request.run (BlockGraph.compile ⟨[]⟩)).perform fun _ => false).outcome runningDesk =
        (.ok .done, d') ∧
      d'.Running [endlessProgram.source, (BlockGraph.compile ⟨[]⟩).source] := by
  obtain ⟨hstate, -, hport⟩ := runningDesk_runs
  obtain ⟨⟨d', hrun, hdone⟩, -⟩ := run_reachable_board runningDesk_reachable (.inr hstate)
    (by rw [hport]) (by rw [hport]; nofun) (fun _ => false) ⟨[]⟩
  rw [hport] at hdone
  exact ⟨runningDesk_reachable, d', hrun, hdone⟩

end BlockBoard
