/-!
# Frames on a byte stream

A frame stands between two end bytes. An end byte or an escape byte inside it is written as an escape
byte and a code. Bytes outside a frame are noise.

- `Slip.encode`: the frame of a payload.
- `Slip.Decoder.push`: a receiver, one byte at a time.
-/

namespace BlockBoard

namespace Slip

/-- The byte around frames. -/
def endByte : UInt8 := 0xC0

/-- The byte before a code. -/
def escapeByte : UInt8 := 0xDB

/-- The code of an end byte. -/
def endCode : UInt8 := 0xDC

/-- The code of an escape byte. -/
def escapeCode : UInt8 := 0xDD

/-- A byte of a payload inside a frame. -/
def escape (b : UInt8) : List UInt8 :=
  if b = endByte then [escapeByte, endCode]
  else if b = escapeByte then [escapeByte, escapeCode]
  else [b]

/-- The frame of a payload. -/
def encode (payload : List UInt8) : List UInt8 :=
  endByte :: (payload.flatMap escape ++ [endByte])

/-- The byte that a code stands for; other bytes after an escape stand for themselves. -/
def unescape (b : UInt8) : UInt8 :=
  if b = endCode then endByte else if b = escapeCode then escapeByte else b

/-- A receiver: what it has of a frame, the latest byte first, whether it is inside a frame, and
whether the last byte was an escape. -/
structure Decoder where
  latest : List UInt8 := []
  inFrame : Bool := false
  escaped : Bool := false
  deriving DecidableEq, Repr, Inhabited

namespace Decoder

/-- The receiver after one byte, and the frame that the byte completes, if it does. An end byte inside
a frame that is still empty starts the frame afresh. -/
def push (d : Decoder) (b : UInt8) : Option (List UInt8) × Decoder :=
  if d.inFrame then
    if b = endByte then
      if d.latest.isEmpty then (none, d) else (some d.latest.reverse, {})
    else if b = escapeByte then (none, { d with escaped := true })
    else if d.escaped then (none, { d with latest := unescape b :: d.latest, escaped := false })
    else (none, { d with latest := b :: d.latest })
  else if b = endByte then (none, { d with inFrame := true })
  else (none, d)

/-- The receiver after some bytes, and the frames that they complete. -/
def feed (d : Decoder) : List UInt8 → List (List UInt8) × Decoder
  | [] => ([], d)
  | b :: r =>
    let (frame?, d) := d.push b
    let (frames, d) := d.feed r
    (frame?.toList ++ frames, d)

end Decoder

end Slip

end BlockBoard
