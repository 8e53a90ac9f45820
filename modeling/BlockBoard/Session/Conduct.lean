import BlockBoard.Loader.Flashing
import BlockBoard.Program.Linking
import BlockBoard.Repl.RawMode
import BlockBoard.Session.Events
import BlockBoard.Terminal.Scrollback
/-!
# Sessions

A session owns the link to a board. Requests are handled one after the other, and between two of them
the session passes on what the board says. A request that fails on the link drops it.

- `Session`: what a session remembers.
- `Request`, `Reply`: what can be asked of a session, and what it answers.
- `Request.perform`: handles a request.
- `settle`: passes on everything that the board has said.
-/

namespace BlockBoard

/-- What a session remembers. -/
structure Session where
  device : DeviceSettings := {}
  flashing : FlashSettings := {}
  state : SessionState := .disconnected
  /-- The state that observers are told. -/
  status : SessionState := .disconnected
  /-- Whether the session holds a link. -/
  linked : Bool := false
  scrollback : Scrollback := { maxLines := 1000 }
  /-- The end of the output of a running program, should the finish mark be cut. -/
  tail : List UInt8 := []
  /-- The digest of the program that was saved last on this connection. -/
  saved : Option String := none
  deriving DecidableEq, Repr

/-- How a save ended. -/
inductive SaveOutcome where
  | written (bytes : Nat) (digest : String)
  /-- The board holds this program already. -/
  | unchanged (digest : String)
  deriving DecidableEq, Repr

/-- The document of how a save ended. -/
def SaveOutcome.toJson : SaveOutcome → Json
  | written bytes digest => .object [
    (some "outcome", .text "written"), (some "bytes", .ofNat bytes), (some "digest", .text digest)]
  | unchanged digest => .object [(some "outcome", .text "unchanged"), (some "digest", .text digest)]

/-- The document of a report. -/
def FlashReport.toJson (r : FlashReport) : Json := .object [
  (some "written", .ofNat r.written), (some "expected", .ofNat r.expected),
  (some "blocks", .ofNat r.blocks), (some "address", .ofNat r.address.toNat)]

/-- The document of what a terminal shows. -/
def Snapshot.toJson (s : Snapshot) : Json := .object [
  (some "lines", .array (s.lines.map .text)), (some "partial", .text s.unfinished)]

/-- What can be asked of a session. -/
inductive Request where
  | connect
  | disconnect
  | stop
  | clear
  | snapshot
  | run (p : Program)
  | save (p : Program)
  | input (bs : List UInt8)
  /-- Flashes an image, given the declared size. -/
  | flash (image : List UInt8) (expected : Nat)

/-- What a session answers. -/
inductive Reply where
  | done
  | shown (s : Snapshot)
  | saved (o : SaveOutcome)
  | flashed (r : FlashReport)
  deriving DecidableEq, Repr

/-- A session at work: what is at the other end of its link, what it has announced and warned of, and
the progress that the latest flash has published. -/
structure Desk (σ : Type) where
  session : Session := {}
  port : σ
  events : List SessionEvent := []
  notices : List Notice := []
  progress : List FlashProgress := []

/-- What a session does. -/
abbrev Conduct (σ α : Type) := Operation (Desk σ) SessionError α

namespace Conduct

variable {σ α : Type}

/-- What the session remembers. -/
def session : Conduct σ Session := .of fun d => (.ok d.session, d)

/-- Changes what the session remembers. -/
def update (f : Session → Session) : Conduct σ Unit :=
  .of fun d => (.ok (), { d with session := f d.session })

/-- Announces an event. -/
def announce (e : SessionEvent) : Conduct σ Unit :=
  .of fun d => (.ok (), { d with events := d.events ++ [e] })

/-- Writes down a warning. -/
def warn (n : Notice) : Conduct σ Unit :=
  .of fun d => (.ok (), { d with notices := d.notices ++ [n] })

/-- What an operation comes to, as a value. -/
def attempt (x : Conduct σ α) : Conduct σ (Except SessionError α) :=
  .of fun d => let (r, d) := x.outcome d; (.ok r, d)

/-- An outcome as an operation. -/
def ofExcept (r : Except SessionError α) : Conduct σ α := .of fun d => (r, d)

/-- An operation of the port. -/
def onPort (x : Operation σ SessionError α) : Conduct σ α :=
  x.onPart Desk.port fun d port => { d with port }

/-- An operation of the link, if the session holds one. -/
def onLink (x : Operation σ SessionError α) : Conduct σ α := do
  if (← session).linked then onPort x else throw .notConnected

/-- How long the board may take to answer, in milliseconds. -/
def timeout : Conduct σ Nat := do return (← session).flashing.commandTimeout.toNat

/-- Moves to another state, if that is possible from where the session is. -/
def move (next : SessionState) : Conduct σ Unit := do
  let s ← session
  if s.state.canMoveTo next then
    update fun s => { s with state := next, status := next }
    announce (.stateChanged next)
  else throw (.invalidMove s.state next)

/-- Moves to another state, if that is possible, and otherwise stays. -/
def moveIfPossible (next : SessionState) : Conduct σ Unit := do
  let _ ← attempt (move next)

/-- Gives up the link after a failure. Only disconnecting leads out of the state after it. -/
def abandon (e : SessionError) : Conduct σ Unit := do
  warn (.operationFailed e)
  update fun s => { s with linked := false }
  match ← attempt (move .error) with
  | .ok () => pure ()
  | .error _ => warn (.alreadyIn (← session).state)

/-- Does something that costs the link if it fails. -/
def orAbandon (x : Conduct σ α) : Conduct σ α := do
  match ← attempt x with
  | .ok a => return a
  | .error e =>
    abandon e
    throw e

/-- Takes note that the link is lost. -/
def lose (reason : String) : Conduct σ Unit := do
  warn (.connectionLost reason)
  update fun s => { s with linked := false, saved := none, tail := [] }
  announce (.disconnected reason)
  moveIfPossible .disconnected

/-! ## Passing on output -/

/-- The last byte of some bytes, if there is one. -/
def lastByte (bs : List UInt8) : List UInt8 := bs.drop (bs.length - 1)

/-- Passes on output of the board. The finish mark ends a running program, also if it was cut. -/
def relay (bs : List UInt8) : Conduct σ Unit := do
  if bs.isEmpty then return
  update fun s => { s with scrollback := (s.scrollback.push bs).2 }
  announce (.output (utf8Text bs))
  let s ← session
  if s.state = .running then
    let seen := s.tail ++ bs
    if containsBytes seen finishMark then
      update fun s => { s with tail := [] }
      moveIfPossible .connected
    else update fun s => { s with tail := lastByte seen }

/-- Opens the link. -/
def connect [Connector σ] : Conduct σ Unit := do
  move .connecting
  let d := (← session).device
  let _ ← orAbandon (onPort ((Operation.of (Connector.openLink d)).mapError .link))
  update fun s => { s with linked := true, saved := none }
  move .connected

/-- Closes the link. -/
def disconnect : Conduct σ Unit := do
  update fun s => { s with linked := false, saved := none, tail := [] }
  moveIfPossible .disconnected

/-- How many bytes one read asks for while output is passed on. -/
def relayChunk : Nat := 1024

/-- Whether a session in a state passes on output. -/
def relays (s : Session) : Bool := s.linked && (s.state == .connected || s.state == .running)

variable [Transport σ]

/-- Passes on what the board has said, for at most `fuel` reads. -/
def relayWithin : Nat → Conduct σ Unit
  | 0 => pure ()
  | fuel + 1 => do
    if relays (← session) then
      match ← onPort (.of fun port => let (r, port) := Transport.read relayChunk port; (.ok r, port)) with
      | .silent => pure ()
      | .failed e => lose e.message
      | .bytes [] => lose "end of stream"
      | .bytes bs => do
        relay bs
        relayWithin fuel

/-- Passes on everything that the board has said. -/
def settle : Conduct σ Unit := fun d => relayWithin (Transport.backlog d.port + 1) d

/-! ## Requests -/

/-- Stops a running program, so that the link is free. -/
def quiesce : Conduct σ Unit := do
  if (← session).state = .running then
    orAbandon <| onLink do
      RawMode.interrupt
      RawMode.exit
    update fun s => { s with tail := [] }
    move .connected

/-- Stops a running program, if there is one. -/
def stop : Conduct σ Unit := do
  match (← session).state with
  | .running => quiesce
  | .connected => pure ()
  | s => throw (.invalidMove s .connected)

/-- Fails unless a session can get to a state, after stopping a program that runs. -/
def require (next : SessionState) : Conduct σ Unit := do
  let s := (← session).state
  if !s.canMoveTo next && s != .running then throw (.invalidMove s next)

/-- Sends a program and starts it. -/
def run (p : Program) : Conduct σ Unit := do
  require .running
  quiesce
  move .running
  let timeout ← timeout
  let begun ← orAbandon <| onLink do
    RawMode.enter timeout
    RawMode.upload timeout p.bytes
  update fun s => { s with tail := [] }
  relay begun

/-- Makes a program the one that the board runs when it starts, and restarts the board. -/
def writeBootProgram (timeout : Nat) (p : Program) : Operation σ SessionError Unit := do
  RawMode.enter timeout
  RawMode.writeFile timeout bootFile p.bytes
  RawMode.exit
  RawMode.restart

/-- Saves a program on the board, unless it was the last one saved on this connection. -/
def save (p : Program) : Conduct σ SaveOutcome := do
  let s ← session
  if !s.state.isConnected || s.state == .flashing then throw (.invalidMove s.state .running)
  if s.saved = some p.digest then return .unchanged p.digest
  quiesce
  move .running
  let timeout ← timeout
  orAbandon (onLink (writeBootProgram timeout p))
  update fun s => { s with tail := [], saved := some p.digest }
  return .written p.bytes.length p.digest

/-- Types something on the board. -/
def input (bs : List UInt8) : Conduct σ Unit := do
  let s ← session
  if s.state ≠ .connected ∧ s.state ≠ .running then throw .notConnected
  if !s.linked then throw .notConnected
  match ← attempt (onPort ((send bs).mapError .link)) with
  | .ok () => pure ()
  | .error e =>
    lose e.message
    throw e

/-- Sends an image over the link. -/
def sendImage (cancelled : σ → Bool) (job : Flash.Job) : Conduct σ FlashReport := do
  if (← session).linked then
    .of fun d =>
      let f := BlockBoard.flash job cancelled d.port
      (f.result, { d with port := f.link, progress := f.progress, notices := d.notices ++ f.notices })
  else throw .notConnected

/-- Flashes an image. A flash that was cancelled leaves the board restarted. -/
def flash (cancelled : σ → Bool) (image : List UInt8) (expected : Nat) : Conduct σ FlashReport := do
  .of fun d => (.ok (), { d with progress := [⟨0, image.length⟩] })
  require .flashing
  quiesce
  move .flashing
  let s ← session
  match ← attempt (sendImage cancelled ⟨s.device, s.flashing, image, expected⟩) with
  | .ok r =>
    move .connected
    return r
  | .error .cancelled =>
    if (← session).linked then
      match ← attempt (onPort ((Operation.of Transport.hardReset).mapError .link)) with
      | .error (.link e) => warn (.resetFailed e)
      | _ => pure ()
    move .connected
    throw .cancelled
  | .error e =>
    abandon e
    throw e

end Conduct

open Conduct in
/-- Handles a request. A flash is cancelled as soon as the port says so. -/
def Request.perform {σ : Type} [Connector σ] (cancelled : σ → Bool) : Request → Conduct σ Reply
  | connect => do Conduct.connect; return .done
  | disconnect => do Conduct.disconnect; return .done
  | stop => do Conduct.stop; return .done
  | clear => do
    update fun s => { s with scrollback := s.scrollback.clear }
    return .done
  | snapshot => do return .shown (← session).scrollback.snapshot
  | run p => do Conduct.run p; return .done
  | save p => do return .saved (← Conduct.save p)
  | input bs => do Conduct.input bs; return .done
  | flash image expected => do return .flashed (← Conduct.flash cancelled image expected)

/-- Handles a request, and then passes on what the board says. -/
def Desk.handle {σ : Type} [Connector σ] (cancelled : σ → Bool) (r : Request) (d : Desk σ) :
    Except SessionError Reply × Desk σ :=
  let (result, d) := (r.perform cancelled).outcome d
  (result, (Conduct.settle.outcome d).2)

/-- A session that has not begun. -/
def Desk.start {σ : Type} (device : DeviceSettings) (flashing : FlashSettings) (maxLines : Nat)
    (port : σ) : Desk σ :=
  { session := { device, flashing, scrollback := { maxLines } }, port }

/-- A session after something has happened to the board: what the board says is passed on. -/
def Desk.touch {σ : Type} [Transport σ] (f : σ → σ) (d : Desk σ) : Desk σ :=
  (Conduct.settle.outcome { d with port := f d.port }).2

end BlockBoard
