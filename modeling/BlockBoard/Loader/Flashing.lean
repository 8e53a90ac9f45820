import BlockBoard.Link.Receiving
import BlockBoard.Loader.Packet
import BlockBoard.Session.Basic
/-!
# Flashing an image

A flash is a plan, a list of steps that is known before the first of them is taken, and a run of that
plan over a link which stops at the first step that fails. Erasing the region is the point of no
return: requests to cancel are looked at only before it, and a link that fails after it leaves a partial
image.

- `Flash.plan`: the steps of a flash.
- `Flash.Step.take`: one step over a link.
- `flash`: a whole flash.
-/

namespace BlockBoard

/-- How far a flash has come: bytes acknowledged, and bytes in all. -/
structure FlashProgress where
  written : Nat
  total : Nat
  deriving DecidableEq, Repr

/-- What a successful flash reports. -/
structure FlashReport where
  written : Nat
  expected : Nat
  blocks : Nat
  address : UInt32
  deriving DecidableEq, Repr

namespace Flash

/-! ## The plan -/

/-- A command to the loader, and how many milliseconds its answer may take. -/
structure Command where
  op : Loader.Op
  data : List UInt8
  check : UInt32
  timeout : Nat
  deriving DecidableEq, Repr

/-- The packet of a command. -/
def Command.packet (c : Command) : List UInt8 := Loader.commandPacket c.op.code c.data c.check

/-- What a step does. -/
inductive Action where
  /-- Checks a number of bytes against the declared size. -/
  | verify (actual : Nat)
  /-- Stops if the flash has been cancelled. -/
  | checkCancel
  /-- Stops if the flash has been cancelled, after going back to a speed. -/
  | checkCancelAt (baud : UInt32)
  | enterLoader
  /-- Wakes the loader, with a number of attempts. -/
  | sync (attempts : Nat)
  /-- Sends a command and waits for its answer. -/
  | command (c : Command)
  | setBaud (baud : UInt32)
  /-- Forgets whatever has arrived. -/
  | settle
  /-- Warns that a request to cancel comes too late. -/
  | noteCancel
  /-- Publishes the number of bytes that have been acknowledged. -/
  | publish (written : Nat)
  | hardReset
  deriving DecidableEq, Repr

/-- A step: what it does, and, once data is being written, how many bytes have been acknowledged
should the link fail in it. -/
structure Step where
  action : Action
  written? : Option Nat
  deriving DecidableEq, Repr

/-- A step that leaves the board as it is if the link fails in it. -/
def plainStep (a : Action) : Step := ⟨a, none⟩

/-- How many milliseconds waking the loader may take. -/
def syncTimeout : Nat := 100

/-- The command that wakes the loader. -/
def syncCommand : Command := ⟨.sync, Loader.syncPayload, 0, syncTimeout⟩

/-- The parameters of an image that goes to a board. -/
structure Job where
  device : DeviceSettings
  settings : FlashSettings
  image : List UInt8
  expected : Nat

namespace Job

def blockSize (j : Job) : Nat := j.settings.blockSize.toNat

def timeout (j : Job) : Nat := j.settings.commandTimeout.toNat

/-- The number of blocks. -/
def blockCount (j : Job) : Nat := Loader.blockCount j.blockSize j.image.length

/-- The image as it goes to the board, in blocks. -/
def blocks (j : Job) : List (List UInt8) :=
  Loader.blocksOf j.blockSize j.blockCount (Loader.patchHeader j.device j.image)

/-- Erasing takes up to ten seconds for each megabyte begun. -/
def eraseTimeout (j : Job) : Nat :=
  max (10000 * ((UInt32.ofNat j.image.length).toNat / 0x100000 + 1)) j.timeout

/-- A command without a check word. -/
def command (j : Job) (op : Loader.Op) (data : List UInt8) : Action :=
  .command ⟨op, data, 0, j.timeout⟩

/-- The steps of a change of speed: the loader is told, the link follows, and what came in between is
forgotten. -/
def changeBaud (j : Job) (baud : UInt32) : List Action :=
  [j.command .changeBaudRate (Loader.words [baud, 0]), .setBaud baud, .settle]

/-- The parameters of the flash chip: its size, and the sizes of its blocks, sectors and pages. -/
def chipParameters (j : Job) : List UInt8 :=
  Loader.words [0, j.device.flashSize.bytes, 0x10000, 0x1000, 0x100, 0xFFFF]

/-- What is to be erased: bytes, blocks, block size and address. -/
def region (j : Job) : List UInt8 :=
  Loader.words [UInt32.ofNat j.image.length, UInt32.ofNat j.blockCount, j.settings.blockSize,
    j.device.flashAddress, 0]

/-- The steps up to the point of no return, which erases the region. -/
def opening (j : Job) : List Action :=
  [.verify j.image.length, .checkCancel, .enterLoader, .sync j.settings.syncAttempts.toNat,
    .checkCancel, j.command .spiAttach (List.replicate 8 0),
    j.command .spiSetParams j.chipParameters, .checkCancel] ++
  j.changeBaud j.device.flashBaud ++
  [.checkCancelAt j.device.handshakeBaud,
    .command ⟨.flashBegin, j.region, 0, j.eraseTimeout⟩, .noteCancel]

/-- The command that writes a block. -/
def blockCommand (j : Job) (index : Nat) (block : List UInt8) : Command where
  op := .flashData
  data := Loader.words [j.settings.blockSize, UInt32.ofNat index, 0, 0] ++ block
  check := Loader.checksum block
  timeout := j.timeout

/-- How many bytes of the image the first blocks hold. -/
def bytesIn (j : Job) (blocks : Nat) : Nat := min j.image.length (blocks * j.blockSize)

/-- The steps of a block: it is written, and then counted. -/
def blockSteps (j : Job) (block : List UInt8 × Nat) : List Step :=
  [⟨.command (j.blockCommand block.2 block.1), some (j.bytesIn block.2)⟩,
    plainStep (.publish (j.bytesIn (block.2 + 1)))]

/-- The steps after the last block: back to the first speed, and a restart. -/
def closing (j : Job) : List Step :=
  plainStep (.verify j.image.length) ::
    (j.changeBaud j.device.handshakeBaud ++ [j.command .flashEnd (Loader.words [1]), .hardReset]).map
      fun a => ⟨a, some j.image.length⟩

/-- All steps of a flash. -/
def plan (j : Job) : List Step :=
  j.opening.map plainStep ++ j.blocks.zipIdx.flatMap j.blockSteps ++ j.closing

/-- What the flash reports if all steps succeed. -/
def report (j : Job) : FlashReport where
  written := j.image.length
  expected := j.expected
  blocks := (UInt32.ofNat j.blockCount).toNat
  address := j.device.flashAddress

end Job

/-! ## The run -/

/-- A run of a plan: the link, the receiver of frames with the frames not yet looked at, everything
published so far, and the warnings. -/
structure Run (σ : Type) where
  link : σ
  decoder : Slip.Decoder := {}
  frames : List (List UInt8) := []
  progress : List FlashProgress := []
  notices : List Notice := []

variable {σ : Type} [Transport σ]

/-- An operation of the link within a run. -/
def onLink {α : Type} (x : Operation σ LinkError α) : Operation (Run σ) SessionError α :=
  (x.mapError .link).onPart Run.link fun r s => { r with link := s }

/-- Writes down a warning. -/
def note (n : Notice) : Operation (Run σ) SessionError Unit :=
  .of fun r => (.ok (), { r with notices := r.notices ++ [n] })

/-- How an answer to a command reads: its first data byte is zero for success, otherwise the second
one is the reason. -/
def verdict (op : Loader.Op) (r : Loader.Response) : Except SessionError Unit :=
  match r.data with
  | 0 :: _ => .ok ()
  | _ :: error :: _ => .error (.fault (.refused op.code error))
  | _ => .error (.fault (.noStatus op.code))

/-- The first answer to an operation among some frames, and the frames after it. Frames that are no
answer to it are passed over. -/
def findAnswer? (op : Loader.Op) :
    List (List UInt8) → Option (Except SessionError Unit × List (List UInt8))
  | [] => none
  | f :: rest =>
    match Loader.Response.ofFrame? f with
    | some r => if r.op = op.code then some (verdict op r, rest) else findAnswer? op rest
    | none => findAnswer? op rest

/-- How many bytes one read asks for while waiting for the loader. -/
def loaderChunk : Nat := 512

/-- Waits for the answer to an operation, for at most `fuel` reads. -/
def awaitWithin (op : Loader.Op) (timeout : Nat) :
    Nat → Run σ → Except SessionError Unit × Run σ
  | fuel, r =>
    match findAnswer? op r.frames with
    | some (result, rest) => (result, { r with frames := rest })
    | none =>
      let r := { r with frames := [] }
      match fuel with
      | 0 => (.error (.link (.timeout timeout)), r)
      | fuel + 1 =>
        match Transport.read loaderChunk r.link with
        | (.silent, s) => (.error (.link (.timeout timeout)), { r with link := s })
        | (.failed e, s) => (.error (.link e), { r with link := s })
        | (.bytes [], s) => (.error (.link .closed), { r with link := s })
        | (.bytes bs, s) =>
          let (frames, decoder) := r.decoder.feed bs
          awaitWithin op timeout fuel { r with link := s, frames, decoder }

/-- Waits for the answer to an operation. -/
def await (op : Loader.Op) (timeout : Nat) : Operation (Run σ) SessionError Unit :=
  fun r => awaitWithin op timeout (Transport.backlog r.link + 1) r

/-- Sends a command and waits for its answer. -/
def Command.perform (c : Command) : Operation (Run σ) SessionError Unit := do
  onLink (send (Slip.encode c.packet))
  await c.op c.timeout

/-- Forgets whatever has arrived, frames included. -/
def forget : Operation (Run σ) SessionError Unit := do
  let _ ← onLink drain
  fun r => (.ok (), { r with decoder := {}, frames := [] })

/-- Wakes the loader. Only an attempt that gets no answer is repeated. -/
def syncWithin (attempts : Nat) : Nat → Run σ → Except SessionError Unit × Run σ
  | 0, r => (.error (.fault (.noSync attempts)), r)
  | left + 1, r =>
    match syncCommand.perform.outcome r with
    | (.ok (), r) => forget.outcome r
    | (.error (.link (.timeout _)), r) => syncWithin attempts left r
    | (.error e, r) => (.error e, r)

/-- Stops if the flash has been cancelled. -/
def stopIf (cancelled : σ → Bool) : Operation (Run σ) SessionError Unit :=
  .of fun r => (if cancelled r.link then .error .cancelled else .ok (), r)

/-- Does what a step does. -/
def Action.perform (j : Job) (cancelled : σ → Bool) : Action → Operation (Run σ) SessionError Unit
  | .verify actual =>
    match verifyTransferSize actual j.expected j.settings.minTransferRatio with
    | .error e => throw (.transfer e)
    | .ok () => if isShort actual j.expected then note (.transferShort actual j.expected) else pure ()
  | .checkCancel => stopIf cancelled
  | .checkCancelAt baud => fun r =>
    if cancelled r.link then
      (do onLink (Transport.setBaud baud); throw .cancelled : Operation (Run σ) SessionError Unit) r
    else (.ok (), r)
  | .enterLoader => onLink Transport.enterLoader
  | .sync attempts => fun r => syncWithin attempts attempts r
  | .command c => c.perform
  | .setBaud baud => onLink (Transport.setBaud baud)
  | .settle => forget
  | .noteCancel => fun r =>
    (if cancelled r.link then note .cancelIgnored else pure () : Operation (Run σ) SessionError Unit) r
  | .publish written => .of fun r =>
    (.ok (), { r with progress := r.progress ++ [⟨written, j.image.length⟩] })
  | .hardReset => onLink Transport.hardReset

/-- Takes a step. A link that fails while data is being written interrupts the flash. -/
def Step.take (j : Job) (cancelled : σ → Bool) (s : Step) : Operation (Run σ) SessionError Unit :=
  fun r =>
    match (s.action.perform j cancelled).outcome r, s.written? with
    | (.error (.link e), r), some written =>
      (.error (.interrupted written e), { r with notices := r.notices ++ [.writingInterrupted written e] })
    | result, _ => result

/-- Takes steps in order up to the first that fails. -/
def takeAll (j : Job) (cancelled : σ → Bool) : List Step → Operation (Run σ) SessionError Unit
  | [] => pure ()
  | s :: rest => do
    s.take j cancelled
    takeAll j cancelled rest

end Flash

/-- What a flash leaves behind: its outcome, the link, everything published, and the warnings. -/
structure Flashed (σ : Type) where
  result : Except SessionError FlashReport
  link : σ
  progress : List FlashProgress
  notices : List Notice

/-- Flashes an image. The flash is cancelled as soon as the link's state says so. -/
def flash {σ : Type} [Transport σ] (j : Flash.Job) (cancelled : σ → Bool) (link : σ) : Flashed σ :=
  let start : Flash.Run σ := { link, progress := [⟨0, j.image.length⟩] }
  let (result, r) := (Flash.takeAll j cancelled j.plan).outcome start
  { result := result.map fun () => j.report, link := r.link, progress := r.progress
    notices := r.notices }

end BlockBoard
