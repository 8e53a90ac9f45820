import BlockBoard.Digest.Sha256
import BlockBoard.Link.Receiving
import BlockBoard.Repl.Prompt
import BlockBoard.Session.Basic
import BlockBoard.Text.Blank
/-!
# Talking to the raw prompt

A program is sent in pieces that fit the board's input buffer and started by a control character; a
file is sent as programs that write a piece of it each.

- `RawMode.upload`: starts a program.
- `RawMode.exec`: runs a program to its end, for what it prints.
- `RawMode.writeFile`: replaces a file on the board.
-/

namespace BlockBoard

/-- A list in pieces of `size` elements, the last of which may be shorter; there are at most as many
pieces as the first argument says. -/
def piecesWithin {α : Type} (size : Nat) : Nat → List α → List (List α)
  | 0, _ => []
  | _ + 1, [] => []
  | n + 1, x :: r => (x :: r).take size :: piecesWithin size n ((x :: r).drop size)

/-- A list in pieces of `size` elements, the last of which may be shorter. -/
def piecesOf {α : Type} (size : Nat) (xs : List α) : List (List α) := piecesWithin size xs.length xs

namespace RawMode

variable {σ : Type} [Transport σ]

/-- How many bytes of a program are written at once. -/
def uploadPiece : Nat := 256

/-- How many bytes of a file one program writes. -/
def filePiece : Nat := 128

/-- An operation of the link. -/
def ofLink {α : Type} (x : Operation σ LinkError α) : Operation σ SessionError α := x.mapError .link

/-- Stops whatever program is running, and forgets what it has printed. -/
def interrupt : Operation σ SessionError Unit := ofLink do
  send [carriageReturn, ctrlC, ctrlC]
  let _ ← drain

/-- Enters the raw prompt. -/
def enter (timeout : Nat) : Operation σ SessionError Unit := do
  interrupt
  ofLink do
    send [carriageReturn, ctrlA]
    let _ ← readUntil rawBanner timeout

/-- Writes pieces in order. -/
def sendAll : List (List UInt8) → Operation σ LinkError Unit
  | [] => pure ()
  | p :: r => do
    send p
    sendAll r

/-- The bytes after the first acceptance among some bytes. -/
def afterAcceptance (bs : List UInt8) : List UInt8 :=
  match findBytes? accepted bs with
  | some i => bs.drop (i + accepted.length)
  | none => []

/-- Sends a program and starts it. Gives what came after the acceptance. -/
def upload (timeout : Nat) (program : List UInt8) : Operation σ SessionError (List UInt8) := ofLink do
  sendAll (piecesOf uploadPiece program)
  send [ctrlD]
  return afterAcceptance (← readUntil accepted timeout)

/-- How the reply of a finished program reads: what it printed up to the first control character, or
the error after it. -/
def outcomeOf (reply : List UInt8) : Except SessionError String :=
  let parts := piecesAt ctrlD reply
  let printed := utf8Text (parts.headD [])
  let raised := trimBlank (utf8Text (parts.tail.headD []))
  if raised.isEmpty then .ok printed else .error (.fault (.raised raised))

/-- Runs a program to its end. Gives what it printed. -/
def exec (timeout : Nat) (program : String) : Operation σ SessionError String := do
  let begun ← upload timeout (utf8 program)
  let reply ← ofLink (readMoreUntil begun finishMark timeout)
  .of fun s => (outcomeOf reply, s)

/-- Leaves the raw prompt. -/
def exit : Operation σ SessionError Unit := ofLink (send [carriageReturn, ctrlB])

/-- Restarts the interpreter from its friendly prompt. -/
def restart : Operation σ SessionError Unit := ofLink (send [ctrlD])

/-- The programs that replace a file. -/
def filePrograms (name : String) (contents : List UInt8) : List String :=
  ("f=open('" ++ name ++ "','wb')\nw=f.write\nimport binascii\nu=binascii.unhexlify") ::
    (piecesOf filePiece contents).map (fun p => "w(u('" ++ hexBytes p ++ "'))") ++ ["f.close()"]

/-- Runs programs in order, and forgets what they print. -/
def execAll (timeout : Nat) : List String → Operation σ SessionError Unit
  | [] => pure ()
  | p :: r => do
    let _ ← exec timeout p
    execAll timeout r

/-- Replaces a file on the board. -/
def writeFile (timeout : Nat) (name : String) (contents : List UInt8) :
    Operation σ SessionError Unit :=
  execAll timeout (filePrograms name contents)

end RawMode

end BlockBoard
