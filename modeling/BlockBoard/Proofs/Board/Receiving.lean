import BlockBoard.Board.Simulated
import BlockBoard.Proofs.Link.Operation
import BlockBoard.Proofs.Loader.Wire
/-!
# What a simulated board does with bytes

The interpreter and the loader share a wire. What the interpreter does leaves the flash and the wiring
of the board alone; the loader does something only when a frame is complete, and then what its command
says.

- `Board.storage`, `Board.wiring`: what a board holds in its flash, and how it is connected.
- `Board.Untouched`: both are the same before and after.
- `Board.untouched_receive`: **bytes that complete no frame touch neither**.
- `Board.receive_frame`: **a loader that holds nothing does what a frame says**.
-/

namespace BlockBoard

namespace Board

/-! ## What lasts -/

/-- What a board holds in its flash. -/
structure Storage where
  flash : List UInt8
  offset : UInt32
  blockSize : UInt32
  blocks : Nat
  finished : Bool

/-- How a board is connected. -/
structure Wiring where
  options : BoardOptions
  plugged : Bool
  connected : Bool
  bauds : List UInt32

def storage (b : Board) : Storage :=
  ⟨b.flash, b.flashOffset, b.flashBlockSize, b.blocks, b.flashFinished⟩

def wiring (b : Board) : Wiring := ⟨b.options, b.plugged, b.connected, b.bauds⟩

/-- Flash and wiring are the same before and after. -/
structure Untouched (b b' : Board) : Prop where
  storage : b'.storage = b.storage
  wiring : b'.wiring = b.wiring

namespace Untouched

variable {a b c : Board}

theorem refl (b : Board) : Untouched b b := ⟨rfl, rfl⟩

theorem trans (h : Untouched a b) (h' : Untouched b c) : Untouched a c :=
  ⟨h'.storage.trans h.storage, h'.wiring.trans h.wiring⟩

theorem connected (h : Untouched a b) : b.connected = a.connected := congrArg Wiring.connected h.wiring

end Untouched

/-! ## The interpreter -/

theorem untouched_emit (b : Board) (bs : List UInt8) : Untouched b (b.emit bs) := ⟨rfl, rfl⟩

theorem untouched_startProgram (b : Board) (code : String) : Untouched b (b.startProgram code) := by
  unfold startProgram
  dsimp only
  split
  · exact ⟨rfl, rfl⟩
  · split <;> exact ⟨rfl, rfl⟩

theorem mode_startProgram (b : Board) (code : String) : (b.startProgram code).mode = b.mode := by
  unfold startProgram
  dsimp only
  split
  · rfl
  · split <;> rfl

theorem untouched_boot (b : Board) : Untouched b b.boot := by
  have hbanner : Untouched b ({ b with mode := .interpreter false, running := false }.emit bootBanner) :=
    ⟨rfl, rfl⟩
  unfold boot
  dsimp only
  split
  · exact hbanner.trans (untouched_startProgram _ _)
  · exact hbanner.trans (untouched_emit _ _)

theorem mode_boot (b : Board) : b.boot.mode = .interpreter false := by
  unfold boot
  dsimp only
  split
  · rw [mode_startProgram]
    rfl
  · rfl

theorem untouched_runFileStatements (b : Board) (statements : List FileStatement) :
    Untouched b (b.runFileStatements statements).2 ∧
      (b.runFileStatements statements).2.mode = b.mode := by
  induction statements generalizing b with
  | nil => exact ⟨.refl b, rfl⟩
  | cons s r ih =>
    -- a statement changes the open file and the files, and the rest goes on from there
    have hmore : ∀ b' : Board, Untouched b b' → b'.mode = b.mode →
        Untouched b (b'.runFileStatements r).2 ∧ (b'.runFileStatements r).2.mode = b.mode :=
      fun b' h hmode => ⟨h.trans (ih b').1, (ih b').2.trans hmode⟩
    cases s with
    | openFor name => exact hmore _ ⟨rfl, rfl⟩ rfl
    | append hex =>
      rw [runFileStatements]
      split
      · exact ⟨.refl b, rfl⟩
      · split
        · exact hmore _ ⟨rfl, rfl⟩ rfl
        · exact ⟨.refl b, rfl⟩
    | close =>
      rw [runFileStatements]
      split
      · exact hmore _ ⟨rfl, rfl⟩ rfl
      · exact hmore _ (.refl b) rfl
    | nothing => exact hmore _ (.refl b) rfl

theorem untouched_execute (b : Board) : Untouched b b.execute ∧ b.execute.mode = b.mode := by
  have htyped : Untouched b ({ b with typed := [] }.emit accepted) := ⟨rfl, rfl⟩
  unfold execute
  dsimp only
  split
  · exact ⟨htyped.trans (untouched_startProgram _ _), mode_startProgram _ _⟩
  · rename_i statements _
    obtain ⟨hrun, hmode⟩ := untouched_runFileStatements ({ b with typed := [] }.emit accepted) statements
    split
    · rename_i b' heq
      rw [heq] at hrun hmode
      exact ⟨(htyped.trans hrun).trans (untouched_emit _ _), hmode⟩
    · rename_i text b' heq
      rw [heq] at hrun hmode
      exact ⟨(htyped.trans hrun).trans (untouched_emit _ _), hmode⟩

/-- Whether the interpreter listens. -/
def AtInterpreter (b : Board) : Prop := ∃ raw, b.mode = .interpreter raw

theorem receiveAtPrompt_untouched {b : Board} (h : b.AtInterpreter) (byte : UInt8) :
    Untouched b (b.receiveAtPrompt byte) ∧ (b.receiveAtPrompt byte).AtInterpreter := by
  unfold receiveAtPrompt
  dsimp only
  split
  · split <;> exact ⟨⟨rfl, rfl⟩, h⟩
  split
  · exact ⟨⟨rfl, rfl⟩, true, rfl⟩
  split
  · exact ⟨(untouched_emit b _).trans (untouched_boot _), false, mode_boot _⟩
  split <;> exact ⟨⟨rfl, rfl⟩, h⟩

theorem receiveAtRawPrompt_untouched {b : Board} (h : b.AtInterpreter) (byte : UInt8) :
    Untouched b (b.receiveAtRawPrompt byte) ∧ (b.receiveAtRawPrompt byte).AtInterpreter := by
  obtain ⟨raw, hraw⟩ := h
  unfold receiveAtRawPrompt
  split
  · split <;> exact ⟨⟨rfl, rfl⟩, raw, hraw⟩
  split
  · exact ⟨⟨rfl, rfl⟩, raw, hraw⟩
  split
  · exact ⟨⟨rfl, rfl⟩, raw, hraw⟩
  split
  · exact ⟨⟨rfl, rfl⟩, false, rfl⟩
  split
  · exact ⟨(untouched_execute b).1, raw, (untouched_execute b).2.trans hraw⟩
  · exact ⟨⟨rfl, rfl⟩, raw, hraw⟩

/-! ## Byte after byte -/

/-- What the board does with one byte. -/
def take (b : Board) (byte : UInt8) : Board :=
  match b.mode with
  | .loader => b.receiveAtLoader byte
  | .interpreter false => b.receiveAtPrompt byte
  | .interpreter true => b.receiveAtRawPrompt byte

theorem receive_cons (b : Board) (byte : UInt8) (r : List UInt8) :
    b.receive (byte :: r) = if b.connected then (b.take byte).receive r else b := by
  rw [receive]
  rfl

theorem receive_of_disconnected {b : Board} (h : b.connected = false) (bs : List UInt8) :
    b.receive bs = b := by
  cases bs with
  | nil => rfl
  | cons byte r =>
    rw [receive_cons, if_neg]
    simp [h]

theorem receive_append (b : Board) (x y : List UInt8) :
    b.receive (x ++ y) = (b.receive x).receive y := by
  induction x generalizing b with
  | nil => rfl
  | cons byte r ih =>
    rw [List.cons_append, receive_cons, receive_cons]
    by_cases h : b.connected = true
    · rw [if_pos h, if_pos h, ih]
    · rw [if_neg h, if_neg h, receive_of_disconnected (by simpa using h)]

/-- A byte that ends no frame leaves flash and wiring alone, whoever listens. -/
theorem untouched_take {b : Board} {byte : UInt8} (h : byte ≠ Slip.endByte) :
    Untouched b (b.take byte) := by
  unfold take
  split
  · unfold receiveAtLoader
    have hnone := Slip.Decoder.push_of_ne (d := b.decoder) h
    rcases hpush : b.decoder.push byte with ⟨frame?, decoder⟩
    rw [hpush] at hnone
    obtain rfl : frame? = none := hnone
    exact ⟨rfl, rfl⟩
  · rename_i hmode
    exact (receiveAtPrompt_untouched ⟨_, hmode⟩ byte).1
  · rename_i hmode
    exact (receiveAtRawPrompt_untouched ⟨_, hmode⟩ byte).1

/-- **Bytes that complete no frame leave flash and wiring alone**, whoever listens. -/
theorem untouched_receive {b : Board} {bs : List UInt8} (h : Slip.endByte ∉ bs) :
    Untouched b (b.receive bs) := by
  induction bs generalizing b with
  | nil => exact .refl b
  | cons byte r ih =>
    rw [receive_cons]
    split
    · exact (untouched_take fun heq => h (by simp [heq])).trans (ih fun hmem => h (by simp [hmem]))
    · exact .refl b

/-! ## The loader -/

/-- The loader listens, and holds nothing of a frame. -/
structure AtLoader (b : Board) : Prop where
  connected : b.connected = true
  mode : b.mode = .loader
  decoder : b.decoder = {}

theorem take_loader {b : Board} (h : b.mode = .loader) (byte : UInt8) :
    b.take byte =
      match (b.decoder.push byte).1.bind Loader.commandOfFrame? with
      | some (op, check, data) =>
        { b with decoder := (b.decoder.push byte).2 }.handleCommand op check data
      | none => { b with decoder := (b.decoder.push byte).2 } := by
  unfold take
  split
  · rfl
  · rename_i hmode
    rw [h] at hmode
    cases hmode
  · rename_i hmode
    rw [h] at hmode
    cases hmode

/-- As long as no frame is complete, the loader only receives. -/
theorem receive_of_feed {b : Board} (hconnected : b.connected = true) (hmode : b.mode = .loader)
    (bs : List UInt8) (h : (b.decoder.feed bs).1 = []) :
    b.receive bs = { b with decoder := (b.decoder.feed bs).2 } := by
  induction bs generalizing b with
  | nil => rfl
  | cons byte r ih =>
    rw [Slip.Decoder.feed_cons] at h ⊢
    obtain ⟨hframe, hrest⟩ := List.append_eq_nil_iff.mp h
    have htake : b.take byte = { b with decoder := (b.decoder.push byte).2 } := by
      have hnone : (b.decoder.push byte).1 = none := by
        cases hframe? : (b.decoder.push byte).1 with
        | none => rfl
        | some f =>
          rw [hframe?] at hframe
          cases hframe
      rw [take_loader hmode, hnone]
      rfl
    rw [receive_cons, if_pos hconnected, htake]
    exact ih (b := { b with decoder := (b.decoder.push byte).2 }) hconnected hmode hrest

/-- **A loader that holds nothing does what a frame says**, and holds nothing while it does. -/
theorem receive_frame {b : Board} (h : b.AtLoader) {payload : List UInt8} (hne : payload ≠ []) :
    b.receive (Slip.encode payload) =
      match Loader.commandOfFrame? payload with
      | some (op, check, data) => b.handleCommand op check data
      | none => b := by
  have hopen : ({} : Slip.Decoder).feed (Slip.endByte :: payload.flatMap Slip.escape) =
      ([], Slip.Decoder.inside payload.reverse) := by
    have hfirst : ({} : Slip.Decoder).push Slip.endByte = (none, Slip.Decoder.inside []) := rfl
    rw [Slip.Decoder.feed_cons, hfirst]
    dsimp only
    rw [Slip.Decoder.feed_flatMap_escape]
    simp
  have hinside := receive_of_feed h.connected h.mode (Slip.endByte :: payload.flatMap Slip.escape)
    (by rw [h.decoder, hopen])
  rw [h.decoder, hopen] at hinside
  -- the last byte completes the frame
  have hlast : (Slip.Decoder.inside payload.reverse).push Slip.endByte = (some payload, {}) := by
    simp [Slip.Decoder.push, Slip.Decoder.inside, hne]
  have hheld : { b with decoder := ({} : Slip.Decoder) } = b := by rw [← h.decoder]
  have htake := take_loader (b := { b with decoder := Slip.Decoder.inside payload.reverse }) h.mode
    Slip.endByte
  dsimp only at htake
  rw [hlast, Option.bind_some, hheld] at htake
  rw [Slip.encode, ← List.cons_append, receive_append, hinside, receive_cons, if_pos h.connected]
  exact htake

/-- An operation that does not change the flash is only answered. -/
theorem handleCommand_of_not_writes {op : Loader.Op} (h : op.writesFlash = false) (b : Board)
    (check : UInt32) (data : List UInt8) : ∃ bs, b.handleCommand op.code check data = b.emit bs := by
  cases op with
  | flashBegin | flashData | flashEnd => cases h
  | spiAttach | spiSetParams | changeBaudRate => exact ⟨responseFrame _ 0 0, rfl⟩
  | sync =>
    show ∃ bs, (if b.options.silentLoader = true then b
      else (((b.respond _ 0 0).respond _ 0 0).respond _ 0 0).respond _ 0 0) = b.emit bs
    split
    · exact ⟨[], by simp [emit]⟩
    · exact ⟨_, by simp only [respond, emit, List.append_assoc]; rfl⟩

/-- A command that does not change the flash is only answered. -/
theorem receive_command {b : Board} (h : b.AtLoader) {c : Flash.Command}
    (hop : c.op.writesFlash = false) : ∃ bs, b.receive c.frame = b.emit bs := by
  rw [Flash.Command.frame, receive_frame h c.packet_ne_nil]
  split
  · rename_i op check data heq
    obtain rfl : op = c.op.code := Loader.op_of_commandOfFrame? heq
    exact handleCommand_of_not_writes hop b check data
  · exact ⟨[], by simp [emit]⟩

/-! ## The link -/

theorem write_eq (bs : List UInt8) (b : Board) :
    Transport.write bs b = ifConnected (·.receive bs) b := rfl

theorem setBaud_eq (baud : UInt32) (b : Board) :
    Transport.setBaud baud b = ifConnected (fun b => { b with bauds := b.bauds ++ [baud] }) b := rfl

theorem enterLoader_eq (b : Board) : Transport.enterLoader b = ifConnected (fun b => { b with
    resets := b.resets + 1, running := false, mode := .loader, decoder := {}
    outbox := loaderBanner }) b := rfl

theorem hardReset_eq (b : Board) :
    Transport.hardReset b = ifConnected (fun b => { b with resets := b.resets + 1 }.boot) b := rfl

theorem read_eq (n : Nat) (b : Board) : Transport.read n b =
    if b.outbox.isEmpty then (if b.connected then .silent else .failed .closed, b)
    else (.bytes (b.outbox.take n), { b with outbox := b.outbox.drop n }) := rfl

theorem ifConnected_of {b : Board} (h : b.connected = true) (f : Board → Board) :
    ifConnected f b = (.ok (), f b) := by
  rw [ifConnected, if_pos h]

theorem AtLoader.emit {b : Board} (h : b.AtLoader) (bs : List UInt8) : (b.emit bs).AtLoader :=
  ⟨h.connected, h.mode, h.decoder⟩

end Board

end BlockBoard
