import BlockBoard.Number.Decimal
import BlockBoard.Settings.Device
/-!
# Links to a board

A link carries bytes both ways and can reset the board. Time passes on a link only while nothing can
be read: a read that would wait is silence, and whoever waits for an answer has then waited for as long
as it ever will.

- `Transport`: what a link can do.
- `Connector`: a link that has to be opened first.
- `LinkError`: how a link fails.
-/

namespace BlockBoard

/-- A length of time in milliseconds, as it is shown: whole milliseconds below a second, and seconds
with as many places as needed from there on. -/
def shownDuration (ms : Nat) : String :=
  if ms = 0 then "0ns"
  else if ms < 1000 then decimalText ms ++ "ms"
  else
    let places (n : Nat) : List Char :=
      [Nat.digitChar (n / 100), Nat.digitChar (n / 10 % 10), Nat.digitChar (n % 10)]
    let fraction := ((places (ms % 1000)).reverse.dropWhile (· == '0')).reverse
    decimalText (ms / 1000) ++
      (if fraction.isEmpty then "" else "." ++ String.ofList fraction) ++ "s"

/-- How a link fails. -/
inductive LinkError where
  /-- The operating system reports an error. -/
  | io
  | noDevice
  /-- The ports of the machine cannot be listed. -/
  | enumerate
  | closed
  /-- Nothing came within a time, in milliseconds. -/
  | timeout (ms : Nat)
  deriving DecidableEq, Repr

/-- The wording of a failure. -/
def LinkError.message : LinkError → String
  | io => "serial I/O error"
  | noDevice => "no serial port matches the configured USB ids"
  | enumerate => "serial port enumeration failed"
  | closed => "transport closed"
  | timeout ms => "no response within " ++ shownDuration ms

/-- What a read gives. -/
inductive Reading where
  /-- Some bytes; none means that the link has ended. -/
  | bytes (bs : List UInt8)
  | failed (e : LinkError)
  /-- Nothing yet: the read would wait. -/
  | silent
  deriving DecidableEq, Repr

/-- An open link with a state of its own. -/
class Transport (σ : Type) where
  /-- Reads what is there, up to a number of bytes. -/
  read : Nat → σ → Reading × σ
  /-- Writes all of some bytes. -/
  write : List UInt8 → σ → Except LinkError Unit × σ
  /-- Changes the speed of the link. -/
  setBaud : UInt32 → σ → Except LinkError Unit × σ
  /-- Resets the board into its loader. -/
  enterLoader : σ → Except LinkError Unit × σ
  /-- Resets the board into its firmware. -/
  hardReset : σ → Except LinkError Unit × σ
  /-- A bound on the reads that give bytes before the link ends, fails or is silent, while nothing is
  written and nobody resets the board. -/
  backlog : σ → Nat

/-- A link that has to be opened first. -/
class Connector (σ : Type) extends Transport σ where
  /-- Opens the link to the board that settings describe; gives its name. -/
  openLink : DeviceSettings → σ → Except LinkError String × σ

/-- An operation on a state that can fail; what it has done up to the failure remains done. -/
abbrev Operation (σ ε α : Type) := ExceptT ε (StateM σ) α

namespace Operation

variable {σ τ ε ε' α : Type}

/-- An operation given as a function. -/
def of (f : σ → Except ε α × σ) : Operation σ ε α := f

/-- The outcome of an operation, and the state after it. -/
def outcome (x : Operation σ ε α) (s : σ) : Except ε α × σ := x s

/-- An operation with its errors renamed. -/
def mapError (f : ε → ε') (x : Operation σ ε α) : Operation σ ε' α := fun s =>
  match x.outcome s with
  | (.ok a, s) => (.ok a, s)
  | (.error e, s) => (.error (f e), s)

/-- An operation on a part of a larger state. -/
def onPart (part : τ → σ) (withPart : τ → σ → τ) (x : Operation σ ε α) : Operation τ ε α := fun t =>
  let (r, s) := x.outcome (part t)
  (r, withPart t s)

end Operation

end BlockBoard
