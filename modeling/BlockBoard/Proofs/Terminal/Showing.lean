import Mathlib.Data.List.DropRight
import BlockBoard.Terminal.Scrollback
import BlockBoard.Proofs.Text.Lines
/-!
# What a terminal shows, over any history

A terminal is given output in pieces, and is cleared now and then. What it shows can be told from the output
since it was last cleared, as if all of it had come at once: a line end, a character and a byte that leaves no
trace may be cut off anywhere, and lines that were shown before may be gone meanwhile.

- `completeLines`, `unfinishedLine`: the lines of some output, before they are read as texts.
- `Scrollback.showing`: the scrollback that output makes, told from the output.
- `Scrollback.pushByte_showing`: **a byte more makes the scrollback of a byte more**.
- `TerminalHistory`: a terminal, and what was asked of it.
- `terminal_shows`: **what a terminal shows over any history**, and which lines its answers were.
-/

namespace BlockBoard

/-! ## The lines of output -/

/-- Output without the bytes that leave no trace: carriage returns, and the control character of the raw
prompt. -/
def shownBytes (bs : List UInt8) : List UInt8 := bs.filter fun byte => byte != 0x0D && byte != 0x04

/-- The lines of some output that have an end. -/
def completeLines (bs : List UInt8) : List (List UInt8) := (piecesAt 0x0A (shownBytes bs)).dropLast

/-- What some output has after its last line end. -/
def unfinishedLine (bs : List UInt8) : List UInt8 := (piecesAt 0x0A (shownBytes bs)).getLast?.getD []

section

variable {byte : UInt8} (bs : List UInt8)

theorem shownBytes_concat (byte : UInt8) :
    shownBytes (bs ++ [byte]) = shownBytes bs ++ if byte = 0x0D ∨ byte = 0x04 then [] else [byte] := by
  rw [shownBytes, List.filter_append, ← shownBytes, List.filter_singleton]
  by_cases h : byte = 0x0D ∨ byte = 0x04
  · rw [if_pos h]
    rcases h with rfl | rfl <;> rfl
  · rw [if_neg h]
    obtain ⟨hreturn, hcontrol⟩ := not_or.mp h
    have hkept : (byte != 0x0D && byte != 0x04) = true := by
      rw [Bool.and_eq_true, bne_iff_ne, bne_iff_ne]
      exact ⟨hreturn, hcontrol⟩
    rw [hkept]
    rfl

/-- A line end completes the line that was unfinished. -/
theorem lines_concat_lineEnd :
    completeLines (bs ++ [0x0A]) = completeLines bs ++ [unfinishedLine bs] ∧
      unfinishedLine (bs ++ [0x0A]) = [] := by
  have hshown : shownBytes (bs ++ [0x0A]) = shownBytes bs ++ [0x0A] := shownBytes_concat bs 0x0A
  unfold completeLines unfinishedLine
  rw [hshown, piecesAt_concat_self, List.dropLast_concat, List.getLast?_concat, dropLast_piecesAt_append]
  exact ⟨rfl, rfl⟩

/-- A byte that leaves no trace changes nothing. -/
theorem lines_concat_dropped (h : byte = 0x0D ∨ byte = 0x04) :
    completeLines (bs ++ [byte]) = completeLines bs ∧ unfinishedLine (bs ++ [byte]) = unfinishedLine bs := by
  have hshown : shownBytes (bs ++ [byte]) = shownBytes bs := by
    rw [shownBytes_concat, if_pos h, List.append_nil]
  unfold completeLines unfinishedLine
  rw [hshown]
  exact ⟨rfl, rfl⟩

/-- Any other byte lengthens the unfinished line. -/
theorem lines_concat_shown (hend : byte ≠ 0x0A) (h : ¬ (byte = 0x0D ∨ byte = 0x04)) :
    completeLines (bs ++ [byte]) = completeLines bs ∧
      unfinishedLine (bs ++ [byte]) = unfinishedLine bs ++ [byte] := by
  have hshown : shownBytes (bs ++ [byte]) = shownBytes bs ++ [byte] := by rw [shownBytes_concat, if_neg h]
  unfold completeLines unfinishedLine
  rw [hshown, piecesAt_concat_of_ne hend, List.dropLast_concat, List.getLast?_concat]
  exact ⟨rfl, rfl⟩

end

/-! ## The scrollback that output makes -/

namespace Scrollback

/-- The scrollback of some output: the last of its complete lines, each read as a text as a whole, and the
bytes of the line that is unfinished. -/
def showing (maxLines : Nat) (bs : List UInt8) : Scrollback where
  maxLines
  latestLines := ((completeLines bs).map utf8Text).reverse.take (max maxLines 1)
  latestBytes := (unfinishedLine bs).reverse

theorem showing_nil (maxLines : Nat) : showing maxLines [] = { maxLines } := by
  rw [showing]
  show { maxLines, latestLines := List.take _ [], latestBytes := [] : Scrollback } = _
  rw [List.take_nil]

theorem isDropped_iff (byte : UInt8) : isDropped byte = true ↔ byte = 0x0D ∨ byte = 0x04 := by
  simp [isDropped]

/-- Of the latest lines and one more, those that are kept need only what was kept before. -/
theorem take_cons_take {α : Type} (x : α) (l : List α) (n : Nat) :
    (x :: l.take n).take n = (x :: l).take n := by
  cases n with
  | zero => rfl
  | succ n => rw [List.take_succ_cons, List.take_succ_cons, List.take_take, Nat.min_eq_left (Nat.le_succ n)]

/-- **A byte more makes the scrollback of a byte more**, and gives the line that it completes. -/
theorem pushByte_showing (maxLines : Nat) (bs : List UInt8) (byte : UInt8) :
    ((showing maxLines bs).pushByte byte).2 = showing maxLines (bs ++ [byte]) ∧
      (completeLines (bs ++ [byte])).map utf8Text =
        (completeLines bs).map utf8Text ++ ((showing maxLines bs).pushByte byte).1.toList := by
  unfold pushByte
  by_cases hend : byte = 10
  · subst hend
    obtain ⟨hlines, hunfinished⟩ := lines_concat_lineEnd bs
    constructor
    · simp only [if_true, showing, capacity, hlines, hunfinished, List.reverse_reverse, List.map_append,
        List.map_cons, List.map_nil, List.reverse_append, List.reverse_nil]
      rw [take_cons_take]
      rfl
    · rw [if_pos rfl, hlines, List.map_append]
      show _ = _ ++ [utf8Text (unfinishedLine bs).reverse.reverse]
      rw [List.reverse_reverse]
      rfl
  rw [if_neg hend]
  by_cases h : byte = 0x0D ∨ byte = 0x04
  · obtain ⟨hlines, hunfinished⟩ := lines_concat_dropped bs h
    rw [if_pos ((isDropped_iff byte).mpr h), hlines]
    constructor
    · simp only [showing, hlines, hunfinished]
    · exact (List.append_nil _).symm
  · obtain ⟨hlines, hunfinished⟩ := lines_concat_shown bs hend h
    rw [if_neg fun hdropped => h ((isDropped_iff byte).mp hdropped), hlines]
    constructor
    · simp only [showing, hlines, hunfinished, List.reverse_append, List.reverse_singleton,
        List.singleton_append]
    · exact (List.append_nil _).symm

/-- **Output more makes the scrollback of both together**, and the answer is the lines that it completes. -/
theorem push_showing (maxLines : Nat) (bs more : List UInt8) :
    ((showing maxLines bs).push more).2 = showing maxLines (bs ++ more) ∧
      (completeLines (bs ++ more)).map utf8Text =
        (completeLines bs).map utf8Text ++ ((showing maxLines bs).push more).1 := by
  induction more generalizing bs with
  | nil =>
    rw [List.append_nil]
    exact ⟨rfl, (List.append_nil _).symm⟩
  | cons byte more ih =>
    obtain ⟨hbyte, hlines⟩ := pushByte_showing maxLines bs byte
    obtain ⟨hmore, hrest⟩ := ih (bs ++ [byte])
    rw [List.append_cons]
    constructor
    · show (((showing maxLines bs).pushByte byte).2.push more).2 = _
      rw [hbyte, hmore]
    · show _ = _ ++ (((showing maxLines bs).pushByte byte).1.toList ++
        (((showing maxLines bs).pushByte byte).2.push more).1)
      rw [hbyte, hrest, hlines, List.append_assoc]

/-- What is on show of some output. -/
theorem snapshot_showing (maxLines : Nat) (bs : List UInt8) :
    (showing maxLines bs).snapshot =
      ⟨((completeLines bs).map utf8Text).rtake (max maxLines 1), utf8Text (unfinishedLine bs)⟩ := by
  rw [List.rtake_eq_reverse_take_reverse, snapshot]
  simp only [showing, List.reverse_reverse]

end Scrollback

/-! ## Any history -/

/-- What is asked of a terminal. -/
inductive TerminalRequest where
  | push (bs : List UInt8)
  | clear

namespace TerminalRequest

/-- The output that a request brings. -/
def bytes : TerminalRequest → List UInt8
  | push bs => bs
  | clear => []

def isPush : TerminalRequest → Bool
  | push _ => true
  | clear => false

end TerminalRequest

/-- The scrollback after a request, and the lines that it completes. -/
def Scrollback.answer (b : Scrollback) : TerminalRequest → List String × Scrollback
  | .push bs => b.push bs
  | .clear => ([], b.clear)

/-- A terminal, and what was asked of it, each request with the answer to it. -/
structure TerminalHistory where
  scrollback : Scrollback
  requests : List (TerminalRequest × List String) := []

namespace TerminalHistory

/-- The history after one request more. -/
def after (h : TerminalHistory) (r : TerminalRequest) : TerminalHistory where
  scrollback := (h.scrollback.answer r).2
  requests := h.requests ++ [(r, (h.scrollback.answer r).1)]

/-- The history of a new terminal that is asked one thing after the other. -/
def run (maxLines : Nat) (rs : List TerminalRequest) : TerminalHistory :=
  rs.foldl after { scrollback := { maxLines } }

/-- The requests since the terminal was last cleared. -/
def sinceClear (h : TerminalHistory) : List (TerminalRequest × List String) :=
  h.requests.rtakeWhile (·.1.isPush)

/-- The output since the terminal was last cleared. -/
def output (h : TerminalHistory) : List UInt8 := h.sinceClear.flatMap (·.1.bytes)

/-- The lines in the answers since the terminal was last cleared. -/
def completed (h : TerminalHistory) : List String := h.sinceClear.flatMap (·.2)

/-- What a terminal holds is told from the output since it was last cleared, and so are the answers. -/
structure Faithful (maxLines : Nat) (h : TerminalHistory) : Prop where
  scrollback : h.scrollback = .showing maxLines h.output
  completed : h.completed = (completeLines h.output).map utf8Text

theorem sinceClear_push (h : TerminalHistory) (bs : List UInt8) :
    (h.after (.push bs)).sinceClear = h.sinceClear ++ [(.push bs, (h.scrollback.push bs).1)] :=
  List.rtakeWhile_concat_pos _ _ _ rfl

theorem sinceClear_clear (h : TerminalHistory) : (h.after .clear).sinceClear = [] :=
  List.rtakeWhile_concat_neg _ _ _ nofun

theorem output_push (h : TerminalHistory) (bs : List UInt8) :
    (h.after (.push bs)).output = h.output ++ bs := by
  rw [output, sinceClear_push, List.flatMap_append, List.flatMap_singleton]
  rfl

theorem completed_push (h : TerminalHistory) (bs : List UInt8) :
    (h.after (.push bs)).completed = h.completed ++ (h.scrollback.push bs).1 := by
  rw [completed, sinceClear_push, List.flatMap_append, List.flatMap_singleton]
  rfl

/-- **One request more** keeps the terminal faithful to its history. -/
theorem Faithful.after {maxLines : Nat} {h : TerminalHistory} (hf : Faithful maxLines h) (r : TerminalRequest) :
    Faithful maxLines (h.after r) := by
  cases r with
  | push bs =>
    obtain ⟨hscrollback, hlines⟩ := Scrollback.push_showing maxLines h.output bs
    constructor
    · rw [output_push, ← hscrollback, ← hf.scrollback]
      rfl
    · rw [output_push, completed_push, hf.completed, hlines, hf.scrollback]
  | clear =>
    have hmax : h.scrollback.maxLines = maxLines := by rw [hf.scrollback]; rfl
    constructor
    · show h.scrollback.clear = _
      rw [output, sinceClear_clear, Scrollback.clear, hmax]
      exact (Scrollback.showing_nil maxLines).symm
    · rw [TerminalHistory.completed, output, sinceClear_clear]
      rfl

/-- **So does any number of them.** -/
theorem faithful_run (maxLines : Nat) (rs : List TerminalRequest) : Faithful maxLines (run maxLines rs) := by
  suffices hall : ∀ h, Faithful maxLines h → Faithful maxLines (rs.foldl TerminalHistory.after h) from
    hall _ ⟨(Scrollback.showing_nil maxLines).symm, rfl⟩
  induction rs with
  | nil => exact fun _ hf => hf
  | cons r rs ih => exact fun h hf => ih (h.after r) (hf.after r)

/-- A history is about what was asked. -/
theorem requests_run (maxLines : Nat) (rs : List TerminalRequest) :
    (run maxLines rs).requests.map Prod.fst = rs := by
  suffices hall : ∀ h : TerminalHistory,
      (rs.foldl TerminalHistory.after h).requests.map Prod.fst = h.requests.map Prod.fst ++ rs from
    hall { scrollback := { maxLines } }
  induction rs with
  | nil => exact fun _ => (List.append_nil _).symm
  | cons r rs ih =>
    intro h
    rw [List.foldl_cons, ih (h.after r), TerminalHistory.after, List.map_append, List.append_assoc]
    rfl

end TerminalHistory

/-- **What a terminal shows, over any history.**

However many lines it may hold, and whatever was asked of it: on show are the last of the lines that the output
since it was last cleared has, as many as may be held but at least one, each read as a text as a whole, and after
them the unfinished line, read so as well. The answers since then are all the complete lines, in order, none lost
and none repeated. -/
theorem terminal_shows (maxLines : Nat) (rs : List TerminalRequest) :
    let h := TerminalHistory.run maxLines rs
    h.requests.map Prod.fst = rs ∧
    h.scrollback.snapshot.lines = ((completeLines h.output).map utf8Text).rtake (max maxLines 1) ∧
    h.scrollback.snapshot.unfinished = utf8Text (unfinishedLine h.output) ∧
    h.completed = (completeLines h.output).map utf8Text := by
  intro h
  have hf := TerminalHistory.faithful_run maxLines rs
  refine ⟨TerminalHistory.requests_run maxLines rs, ?_, ?_, hf.completed⟩
  · rw [hf.scrollback, Scrollback.snapshot_showing]
  · rw [hf.scrollback, Scrollback.snapshot_showing]

/-- A character and a line end that are cut, and a line that is gone. -/
example : (TerminalHistory.run 1
    [.push [0x78], .clear, .push [0x79, 0x0A, 0xC3], .push [0xA9, 0x0D], .push [0x0A, 0x7A]]).scrollback.snapshot =
      ⟨["é"], "z"⟩ := by
  decide +kernel

end BlockBoard
