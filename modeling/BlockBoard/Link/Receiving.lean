import BlockBoard.Link.Transport
/-!
# Receiving from a link

Waiting for a pattern, and reading until a link is silent. The number of reads is bounded by the
link's backlog; beyond it there is only silence.

- `readMoreUntil`: reads until a pattern has come.
- `drain`: reads until nothing comes any more.
-/

namespace BlockBoard

/-- Where a pattern first occurs in a list of bytes. -/
def findBytes? (pattern : List UInt8) : List UInt8 → Option Nat
  | [] => if pattern.isEmpty then some 0 else none
  | b :: r =>
    if pattern.isPrefixOf (b :: r) then some 0 else (findBytes? pattern r).map (· + 1)

/-- Whether a pattern occurs in a list of bytes. -/
def containsBytes (bs pattern : List UInt8) : Bool := (findBytes? pattern bs).isSome

/-- How many bytes one read asks for while waiting for an answer of the interpreter. -/
def answerChunk : Nat := 256

variable {σ : Type} [Transport σ]

/-- Reads until a pattern occurs in what has been received, for at most `fuel` reads. -/
def readUntilWithin (pattern : List UInt8) (timeout : Nat) :
    Nat → List UInt8 → σ → Except LinkError (List UInt8) × σ
  | 0, received, s =>
    (if containsBytes received pattern then .ok received else .error (.timeout timeout), s)
  | fuel + 1, received, s =>
    if containsBytes received pattern then (.ok received, s)
    else match Transport.read answerChunk s with
      | (.silent, s) => (.error (.timeout timeout), s)
      | (.failed e, s) => (.error e, s)
      | (.bytes [], s) => (.error .closed, s)
      | (.bytes bs, s) => readUntilWithin pattern timeout fuel (received ++ bs) s

/-- Reads on from bytes already received until a pattern occurs; gives back everything received. -/
def readMoreUntil (received pattern : List UInt8) (timeout : Nat) :
    Operation σ LinkError (List UInt8) :=
  fun s => readUntilWithin pattern timeout (Transport.backlog s + 1) received s

/-- Reads until a pattern occurs. -/
def readUntil (pattern : List UInt8) (timeout : Nat) : Operation σ LinkError (List UInt8) :=
  readMoreUntil [] pattern timeout

/-- Reads and forgets until the link is silent, for at most `fuel` reads; counts the bytes. -/
def drainWithin : Nat → Nat → σ → Except LinkError Nat × σ
  | 0, total, s => (.ok total, s)
  | fuel + 1, total, s =>
    match Transport.read answerChunk s with
    | (.silent, s) => (.ok total, s)
    | (.failed e, s) => (.error e, s)
    | (.bytes [], s) => (.error .closed, s)
    | (.bytes bs, s) => drainWithin fuel (total + bs.length) s

/-- Forgets whatever has arrived. -/
def drain : Operation σ LinkError Nat := fun s => drainWithin (Transport.backlog s + 1) 0 s

/-- Writes all of some bytes. -/
def send (bs : List UInt8) : Operation σ LinkError Unit := fun s => Transport.write bs s

end BlockBoard
