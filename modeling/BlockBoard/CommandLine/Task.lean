import BlockBoard.Block.Document
import BlockBoard.Board.Simulated
import BlockBoard.CommandLine.Arguments
import BlockBoard.Firmware.Catalog
import BlockBoard.Firmware.Image
import BlockBoard.Link.Absent
import BlockBoard.Session.Conduct
import BlockBoard.Settings.Config
/-!
# What the commands do

A command is a task: it asks for files to be read and written, and ends with what it prints. Whoever
carries out a task decides where files are.

- `Task`: a task.
- `Invocation.task`: the task of a command line.
-/

namespace BlockBoard

namespace CommandLine

/-- How a task ends: its exit code, what it prints, and what it complains about. -/
structure Ending where
  exit : UInt8
  output : String := ""
  complaint : String := ""
  deriving DecidableEq, Repr

/-- A task: it has ended, or it asks for something and goes on with the answer. -/
inductive Task where
  | finish (e : Ending)
  | load (path : String) (next : Option (List UInt8) → Task)
  | store (path : String) (contents : List UInt8) (next : Bool → Task)

namespace Task

/-- A task that has succeeded and prints something. -/
def done (output : String) : Task := finish { exit := 0, output }

/-- A task that has failed, after printing something. -/
def failed (complaint : String) (output : String) : Task := finish { exit := 1, output, complaint }

/-- A task that has failed. -/
def fail (complaint : String) : Task := failed complaint ""

/-- Goes on with a value, or fails with the wording of an error. -/
def ofExcept {ε α : Type} (message : ε → String) (r : Except ε α) (next : α → Task) : Task :=
  match r with
  | .ok a => next a
  | .error e => fail (message e)

/-- Reads a file that has to be there. -/
def needFile (path : String) (next : List UInt8 → Task) : Task :=
  load path fun
    | some bs => next bs
    | none => fail ("cannot read " ++ path)

/-- Reads a text that has to be there. -/
def needText (path : String) (next : String → Task) : Task :=
  needFile path fun bs =>
    match utf8Text? bs with
    | some s => next s
    | none => fail ("cannot read " ++ path)

end Task

/-- The configuration that is used if none is named, as far as there is such a file. -/
def defaultConfig : String := "blocklink.toml"

/-- What a task cannot ask for file by file: the moment, and a service for what is not a file. -/
structure Surroundings where
  stamp : Timestamp
  service : HttpService

/-- The settings in the bytes of a file. -/
def settingsOf (bs : List UInt8) : Except SettingsError Settings :=
  match utf8Text? bs with
  | some s => Settings.ofText s
  | none => .error .unreadable

/-- The settings that a command works with. -/
def withSettings (i : Invocation) (next : Settings → Task) : Task :=
  let withPort (s : Settings) : Settings :=
    { s with device := { s.device with port := i.port.or s.device.port } }
  let use (bs : List UInt8) : Task :=
    .ofExcept SettingsError.message (settingsOf bs) fun s => next (withPort s)
  match i.config with
  | some path => .needFile path use
  | none =>
    .load defaultConfig fun
      | some bs => use bs
      | none => next (withPort {})

/-- The program of the graph in a file. -/
def withProgram (path : String) (next : Program → Task) : Task :=
  .needText path fun s => .ofExcept GraphError.message (BlockGraph.ofText s) fun g => next g.compile

/-- The catalog that settings describe. -/
def catalogOf (w : Surroundings) (s : Settings) : Except CatalogError Catalog := do
  let registry ← Registry.ofSettings s.catalog
  let cache := CatalogCache.ofSettings s.catalog
  return (cache.fetch 0 w.stamp (registry.fetch w.service).1).catalog

/-- The release to flash: the one asked for, or else the recommended one. -/
def pickRelease (w : Surroundings) (s : Settings) (version : Option String)
    (next : Release → Task) : Task :=
  .ofExcept CatalogError.message (catalogOf w s) fun c =>
    match (match version with
      | some v => c.find? v
      | none => c.recommended?) with
    | some r => next r
    | none => .fail ("no firmware release " ++ version.getD "recommended")

/-- The image of a release, which may be a file. -/
def withImage (w : Surroundings) (s : Settings) (r : Release) (next : List UInt8 → Task) : Task :=
  let fetched (file? : String → Option (List UInt8)) : Task :=
    .ofExcept TransferError.message
      (fetchImage ⟨file?, w.service⟩ r s.flash.minTransferRatio) next
  match r.source with
  | .bundled path => .load path fun contents => fetched fun _ => contents
  | .remote _ => fetched fun _ => none

section

variable {σ : Type} [Connector σ]

/-- What requests to a session come to, one after the other up to the first that fails, with the events
on the way. -/
def converse (d : Desk σ) : List Request → Except SessionError (List Reply) × Desk σ
  | [] => (.ok [], d)
  | r :: rest =>
    match d.handle (fun _ => false) r with
    | (.error e, d) => (.error e, d)
    | (.ok a, d) =>
      let (as, d) := converse d rest
      (as.map (a :: ·), d)

/-- A session that settings describe, over a port. -/
def deskOf (s : Settings) (port : σ) : Desk σ :=
  .start s.device s.flash s.maxLines.toNat port

/-- Runs a program and shows what it prints. -/
def runProgram (s : Settings) (port : σ) (p : Program) : Task :=
  match converse (deskOf s port) [.connect] with
  | (.error e, _) => .fail e.message
  | (.ok _, d) =>
    match converse { d with events := [] } [.run p] with
    | (.error e, _) => .fail e.message
    | (.ok _, d) =>
      let (texts, _, _) := (TerminalStream.push {} d.events).take
      let output := String.join texts
      let endings : List Request :=
        if d.session.status.isConnected then [.stop, .disconnect] else [.disconnect]
      match converse d endings with
      | (.error e, _) => .failed e.message output
      | (.ok _, _) => .done output

/-- Saves a program on the board. -/
def saveProgram (s : Settings) (port : σ) (p : Program) : Task :=
  match converse (deskOf s port) [.connect, .save p, .disconnect] with
  | (.ok [_, .saved o, _], _) => .done (o.toJson.pretty ++ "\n")
  | (.ok _, _) => .done ""
  | (.error e, _) => .fail e.message

/-- Flashes the image of a release. -/
def flashImage (s : Settings) (port : σ) (r : Release) (image : List UInt8) : Task :=
  match converse (deskOf s port) [.connect, .flash image r.size, .disconnect] with
  | (.ok [_, .flashed report, _], _) =>
    .done ("Flashed firmware " ++ r.version ++ " (" ++ decimalText report.written ++ " bytes at 0x" ++
      hexText report.address.toNat ++ ")\n")
  | (.ok _, _) => .done ""
  | (.error e, _) => .fail e.message

end

/-- Does something on the simulated board, or on the one that is plugged in. -/
def onBoard (i : Invocation) (simulated : Board → Task) (real : AbsentLink → Task) : Task :=
  if i.simulate then simulated {} else real {}

/-- Writes a text to a file, or prints it as a line. -/
def emitText (text : String) : Option String → Task
  | some path =>
    .store path (utf8 text) fun ok => if ok then .done "" else .fail ("cannot write " ++ path)
  | none => .done (text ++ "\n")

/-- The task of a command line. -/
def Invocation.task (i : Invocation) (w : Surroundings) : Task :=
  withSettings i fun s =>
    match i.command with
    | .blocks => .done ((Json.array (registry.map BlockDefinition.toJson)).pretty ++ "\n")
    | .compile graph output userCode =>
      withProgram graph fun p => emitText (if userCode then p.userCode else p.source) output
    | .catalog =>
      .ofExcept CatalogError.message (catalogOf w s) fun c => .done (c.toJson.pretty ++ "\n")
    | .flash version =>
      pickRelease w s version fun r => withImage w s r fun image =>
        onBoard i (fun b => flashImage s b r image) (fun b => flashImage s b r image)
    | .run graph _ =>
      withProgram graph fun p => onBoard i (fun b => runProgram s b p) (fun b => runProgram s b p)
    | .save graph =>
      withProgram graph fun p => onBoard i (fun b => saveProgram s b p) (fun b => saveProgram s b p)
    | .serve _ => .fail "the HTTP interface needs a listener"

/-- The task of the arguments of the program. -/
def taskOf (args : List String) (w : Surroundings) : Task :=
  match Arguments.read args with
  | .ok i => i.task w
  | .error (.show text) => .done text
  | .error .usage => .finish { exit := 2, complaint := programHelp }

end CommandLine

end BlockBoard
