import BlockBoard.Text.Utf8
/-!
# The scrollback of a terminal

A bounded number of complete lines, and the line that is still being received. Lines are read as texts
only once they are complete, so that it does not matter how their bytes were cut.

- `Scrollback.push`: the scrollback after some bytes, and the lines that they complete.
- `Scrollback.snapshot`: what is on show.
-/

namespace BlockBoard

/-- What a terminal shows: complete lines, and the text after the last line end. -/
structure Snapshot where
  lines : List String := []
  unfinished : String := ""
  deriving DecidableEq, Repr

/-- The scrollback of a terminal. Its lines and the bytes of the unfinished line are held with the
latest first. -/
structure Scrollback where
  maxLines : Nat
  latestLines : List String := []
  latestBytes : List UInt8 := []
  deriving DecidableEq, Repr

namespace Scrollback

/-- How many lines are kept: as many as wished, and at least one. -/
def capacity (b : Scrollback) : Nat := max b.maxLines 1

/-- Whether a byte leaves no trace: a carriage return, or the raw prompt's control character. -/
def isDropped (byte : UInt8) : Bool := byte == 13 || byte == 4

/-- The scrollback after one byte, and the line that it completes, if it does. -/
def pushByte (b : Scrollback) (byte : UInt8) : Option String × Scrollback :=
  if byte = 10 then
    let line := utf8Text b.latestBytes.reverse
    (some line,
      { b with latestLines := (line :: b.latestLines).take b.capacity, latestBytes := [] })
  else if isDropped byte then (none, b)
  else (none, { b with latestBytes := byte :: b.latestBytes })

/-- The scrollback after some bytes, and the lines that they complete. -/
def push (b : Scrollback) : List UInt8 → List String × Scrollback
  | [] => ([], b)
  | byte :: r =>
    let (line?, b) := b.pushByte byte
    let (completed, b) := b.push r
    (line?.toList ++ completed, b)

/-- The scrollback without anything to show. -/
def clear (b : Scrollback) : Scrollback := { b with latestLines := [], latestBytes := [] }

/-- How many complete lines are held. -/
def size (b : Scrollback) : Nat := b.latestLines.length

/-- Whether there is nothing to show. -/
def isEmpty (b : Scrollback) : Bool := b.latestLines.isEmpty && b.latestBytes.isEmpty

/-- What is on show. -/
def snapshot (b : Scrollback) : Snapshot where
  lines := b.latestLines.reverse
  unfinished := utf8Text b.latestBytes.reverse

end Scrollback

end BlockBoard
