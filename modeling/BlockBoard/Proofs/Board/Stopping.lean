import BlockBoard.Proofs.Board.Running
/-!
# Stopping a program on a simulated board

A program runs only while the interpreter listens: the loader is entered by a reset, which ends it. This
stays so whatever is asked of the board and whatever happens to it, and it is why an interrupt reaches
every program that runs.

- `Board.Exclusive`: no program runs while the loader listens.
- `Board.stable_exclusive`: **whatever is asked of a board keeps it so**.
- `Board.running_receive_of_stopped`: only the end of a text starts a program.
- `Board.running_receive_interruption`: **an interrupt stops every program**.
-/

namespace BlockBoard

namespace Board

/-- No program runs while the loader listens. -/
def Exclusive (b : Board) : Prop := b.mode = .loader → b.running = false

theorem AtInterpreter.exclusive {b : Board} (h : b.AtInterpreter) : b.Exclusive := by
  obtain ⟨raw, hmode⟩ := h
  intro hloader
  cases hmode.symm.trans hloader

/-! ## The loader -/

/-- No command to the loader starts a program. -/
theorem running_handleCommand {b : Board} (h : b.running = false) (op : UInt8) (check : UInt32)
    (data : List UInt8) : (b.handleCommand op check data).running = false := by
  unfold handleCommand writeBlock
  dsimp only
  repeat' split
  all_goals first | exact h | rfl

theorem running_receiveAtLoader {b : Board} (h : b.running = false) (byte : UInt8) :
    (b.receiveAtLoader byte).running = false := by
  unfold receiveAtLoader
  dsimp only
  split
  · exact running_handleCommand (b := { b with decoder := (b.decoder.push byte).2 }) h _ _ _
  · exact h

/-! ## Byte after byte -/

/-- Whatever a board is sent, no program runs while its loader listens. -/
theorem Exclusive.take {b : Board} (h : b.Exclusive) (byte : UInt8) : (b.take byte).Exclusive := by
  unfold Board.take
  split
  · rename_i hmode
    exact fun _ => running_receiveAtLoader (h hmode) byte
  · rename_i hmode
    exact (receiveAtPrompt_untouched ⟨_, hmode⟩ byte).2.exclusive
  · rename_i hmode
    exact (receiveAtRawPrompt_untouched ⟨_, hmode⟩ byte).2.exclusive

theorem Exclusive.receive {b : Board} (h : b.Exclusive) (bs : List UInt8) : (b.receive bs).Exclusive := by
  induction bs generalizing b with
  | nil => exact h
  | cons byte r ih =>
    rw [receive_cons]
    split
    · exact ih (h.take byte)
    · exact h

/-- Only the end of a text starts a program, whoever listens. -/
theorem running_take_of_stopped {b : Board} (h : b.running = false) {byte : UInt8} (hbyte : byte ≠ ctrlD) :
    (b.take byte).running = false := by
  unfold Board.take
  split
  · exact running_receiveAtLoader h byte
  · unfold receiveAtPrompt
    simp only [hbyte, false_and, if_false, h, Bool.false_eq_true]
    repeat' split
    all_goals first | exact h | rfl
  · unfold receiveAtRawPrompt
    simp only [hbyte, if_false, h, Bool.false_eq_true]
    repeat' split
    all_goals first | exact h | rfl

theorem running_receive_of_stopped {b : Board} (h : b.running = false) {bs : List UInt8}
    (hbs : ctrlD ∉ bs) : (b.receive bs).running = false := by
  induction bs generalizing b with
  | nil => exact h
  | cons byte r ih =>
    rw [List.mem_cons, not_or] at hbs
    rw [receive_cons]
    split
    · exact ih (running_take_of_stopped h fun heq => hbs.1 heq.symm) hbs.2
    · exact h

/-- **An interrupt stops every program**: it reaches the interpreter if one runs. -/
theorem running_receive_interruption {b : Board} (h : b.Exclusive) (hconnected : b.connected = true) :
    (b.receive [carriageReturn, ctrlC, ctrlC]).running = false := by
  -- the first byte ends nothing, and the second one is the interrupt
  have hnext : (b.take carriageReturn).connected = true :=
    (untouched_take (by decide)).connected.trans hconnected
  have hexclusive := h.take carriageReturn
  have hstopped : ((b.take carriageReturn).take ctrlC).running = false := by
    cases hmode : (b.take carriageReturn).mode with
    | interpreter raw => exact running_take_ctrlC ⟨raw, hmode⟩
    | loader => exact running_take_of_stopped (hexclusive hmode) (by decide)
  rw [receive_cons, if_pos hconnected, receive_cons, if_pos hnext]
  exact running_receive_of_stopped hstopped (by decide)

/-! ## Everything that can be asked -/

theorem exclusive_boot (b : Board) : b.boot.Exclusive := AtInterpreter.exclusive ⟨false, mode_boot b⟩

/-- What works only on a connected board keeps it so if what it does does. -/
theorem Exclusive.ifConnected {b : Board} (h : b.Exclusive) {f : Board → Board} (hf : (f b).Exclusive) :
    (Board.ifConnected f b).2.Exclusive := by
  unfold Board.ifConnected
  split
  · exact hf
  · exact h

/-- **Whatever is asked of a board, no program runs while its loader listens.** -/
theorem stable_exclusive : Connector.Stable fun b b' : Board => b.Exclusive → b'.Exclusive where
  refl _ := id
  trans _ _ _ h h' := h' ∘ h
  read n b h := by
    obtain ⟨outbox, hread⟩ := read_cases n b
    rw [hread]
    exact h
  write bs _ h := h.ifConnected (h.receive bs)
  setBaud _ _ h := h.ifConnected h
  enterLoader _ h := h.ifConnected fun _ => rfl
  hardReset _ h := h.ifConnected (exclusive_boot _)
  openLink settings b h := by
    show (Board.openLink settings b).2.Exclusive
    unfold Board.openLink
    split
    · exact h
    · exact h

end Board

end BlockBoard
