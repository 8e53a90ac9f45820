import BlockBoard.Link.Receiving
import BlockBoard.Loader.Packet
import BlockBoard.Repl.Prompt
import BlockBoard.Text.Blank
import BlockBoard.Text.Utf8
/-!
# A simulated board

A board that speaks the loader's protocol and the interpreter's two prompts, well enough to be flashed,
given programs and files, and unplugged at a bad moment.

- `Board`: the board with everything that it remembers.
- `Board.receive`: what it does with bytes from the host.
- the instance of `Transport`: the board at the end of a link.
-/

namespace BlockBoard

/-- What the interpreter says when it starts. -/
def bootBanner : List UInt8 := utf8 <|
  "MicroPython v1.24.1 on 2024-11-29; Board with ESP32S3\r\n" ++
    "Type \"help()\" for more information.\r\n"

/-- What the loader says when it starts. -/
def loaderBanner : List UInt8 := utf8 <|
  "rst:0x1 (POWERON),boot:0x0 (DOWNLOAD(USB/UART0))\r\n" ++ "waiting for download\r\n"

/-- What an interrupted program leaves behind. -/
def interruptTrace : List UInt8 := utf8 <|
  "Traceback (most recent call last):\r\n" ++
    "  File \"<stdin>\", line 1, in <module>\r\n" ++ "KeyboardInterrupt: \r\n"

/-- The end of a line. -/
def lineEnd : List UInt8 := [carriageReturn, newline]

/-- The friendly prompt. -/
def prompt : List UInt8 := utf8 ">>> "

/-- How a simulated board differs from a healthy one. -/
structure BoardOptions where
  usbId : UsbId := ⟨0x303a, 0x1001⟩
  /-- The board is unplugged once it has accepted this many blocks. -/
  unplugAfter : Option Nat := none
  /-- The loader never wakes. -/
  silentLoader : Bool := false
  deriving DecidableEq, Repr

/-- Who listens on the board. -/
inductive BoardMode where
  /-- The interpreter, at its friendly prompt or at its raw one. -/
  | interpreter (raw : Bool)
  | loader
  deriving DecidableEq, Repr

/-- A simulated board. -/
structure Board where
  options : BoardOptions := {}
  plugged : Bool := true
  connected : Bool := false
  mode : BoardMode := .interpreter false
  /-- Bytes on their way to the host. -/
  outbox : List UInt8 := []
  decoder : Slip.Decoder := {}
  /-- The text received at the raw prompt, the latest byte first. -/
  typed : List UInt8 := []
  bauds : List UInt32 := []
  flash : List UInt8 := []
  flashOffset : UInt32 := 0
  flashBlockSize : UInt32 := 0
  blocks : Nat := 0
  flashFinished : Bool := false
  files : List (String × List UInt8) := []
  openFile : Option (String × List UInt8) := none
  programs : List String := []
  running : Bool := false
  hostInput : List UInt8 := []
  resets : Nat := 0
  deriving DecidableEq, Repr

namespace Board

/-- The board with bytes added to those on their way. -/
def emit (b : Board) (bs : List UInt8) : Board := { b with outbox := b.outbox ++ bs }

/-- The board without its cable. -/
def unplug (b : Board) : Board := { b with plugged := false, connected := false, running := false }

/-- The board with its cable back. The link stays broken until it is opened again. -/
def plugIn (b : Board) : Board := { b with plugged := true }

/-- The contents of a file. -/
def file? (b : Board) (name : String) : Option (List UInt8) := b.files.lookup name

/-- The board with a file written. -/
def putFile (b : Board) (name : String) (contents : List UInt8) : Board :=
  { b with files := (name, contents) :: b.files.filter fun f => f.1 != name }

/-! ## The loader -/

/-- The frame of a response. -/
def responseFrame (op status error : UInt8) : List UInt8 :=
  Slip.encode [Loader.responseByte, op, 4, 0, 0, 0, 0, 0, status, error, 0, 0]

/-- Answers an operation. -/
def respond (b : Board) (op status error : UInt8) : Board := b.emit (responseFrame op status error)

/-- A word of a command's data; one that is missing is zero. -/
def dataWord (data : List UInt8) (i : Nat) : UInt32 :=
  match data.drop (4 * i) with
  | a :: b :: c :: d :: _ => Loader.wordOf a b c d
  | _ => 0

/-- Contents with a block put at an offset, filled up with ones if they are shorter. -/
def putBlock (contents : List UInt8) (start : Nat) (block : List UInt8) : List UInt8 :=
  contents.take start ++ List.replicate (start - contents.length) 0xFF ++ block ++
    contents.drop (start + block.length)

/-- Writes a block, if its size and check word are right and it is the next one. -/
def writeBlock (b : Board) (op : UInt8) (check : UInt32) (data : List UInt8) : Board :=
  let block := data.drop 16
  if block.length ≠ (dataWord data 0).toNat ∨ Loader.checksum block ≠ check then b.respond op 1 7
  else if (dataWord data 1).toNat ≠ b.blocks then b.respond op 1 8
  else
    let b := { b with
      flash := putBlock b.flash (b.blocks * b.flashBlockSize.toNat) block, blocks := b.blocks + 1 }
    if b.options.unplugAfter.any (· ≤ b.blocks) then b.unplug else b.respond op 0 0

/-- Does what a command asks for. -/
def handleCommand (b : Board) (op : UInt8) (check : UInt32) (data : List UInt8) : Board :=
  if op = Loader.Op.sync.code then
    if b.options.silentLoader then b
    else (((b.respond op 0 0).respond op 0 0).respond op 0 0).respond op 0 0
  else if op = Loader.Op.spiAttach.code ∨ op = Loader.Op.spiSetParams.code ∨
      op = Loader.Op.changeBaudRate.code then
    b.respond op 0 0
  else if op = Loader.Op.flashBegin.code then
    { b with
      flash := [], flashBlockSize := dataWord data 2, flashOffset := dataWord data 3, blocks := 0
      flashFinished := false }.respond op 0 0
  else if op = Loader.Op.flashData.code then b.writeBlock op check data
  else if op = Loader.Op.flashEnd.code then { b with flashFinished := true }.respond op 0 0
  else b.respond op 1 5

/-- The loader receives a byte. -/
def receiveAtLoader (b : Board) (byte : UInt8) : Board :=
  let (frame?, decoder) := b.decoder.push byte
  let b := { b with decoder }
  match frame?.bind Loader.commandOfFrame? with
  | some (op, check, data) => b.handleCommand op check data
  | none => b

/-! ## The interpreter -/

/-- What stands between a beginning and an end of a line. -/
def between? (first last : String) (line : List Char) : Option (List Char) :=
  let rest := line.drop first.length
  if first.toList.isPrefixOf line && last.toList.isSuffixOf rest then
    some (rest.take (rest.length - last.length))
  else none

/-- The texts that a program prints as soon as it starts: its lines that print one text. -/
def printedTexts (code : String) : List (List Char) :=
  (linesOf code.toList).filterMap (between? "print(\"" "\")")

/-- Whether one list of characters occurs in another. -/
def occursIn (word : List Char) : List Char → Bool
  | [] => word.isEmpty
  | c :: r => word.isPrefixOf (c :: r) || occursIn word r

/-- Starts a program. One with an endless loop keeps running. -/
def startProgram (b : Board) (code : String) : Board :=
  let b := b.emit ((printedTexts code).flatMap fun t => utf8 (String.ofList t) ++ lineEnd)
  let b := { b with
    running := occursIn "while True:".toList code.toList, programs := b.programs ++ [code] }
  if b.running then b
  else match b.mode with
    | .interpreter true => b.emit (ctrlD :: finishMark)
    | _ => b.emit prompt

/-- Starts the interpreter, and the boot program if there is one. -/
def boot (b : Board) : Board :=
  let b := { b with mode := .interpreter false, running := false }.emit bootBanner
  match b.file? bootFile with
  | some contents => b.startProgram (utf8Text contents)
  | none => b.emit prompt

/-- The statements about files that the board understands without running them. -/
inductive FileStatement where
  | openFor (name : String)
  | append (hex : List Char)
  | close
  /-- Preparations, and statements that only look like one of the others. -/
  | nothing
  deriving DecidableEq, Repr

/-- The statement about files in a line, if it is one. -/
def FileStatement.ofLine? (line : List Char) : Option FileStatement :=
  let looksLike (first last : String) : Bool :=
    first.toList.isPrefixOf line && last.toList.isSuffixOf line
  if looksLike "f=open('" "','wb')" then
    some (((between? "f=open('" "','wb')" line).map fun n => openFor (String.ofList n)).getD nothing)
  else if looksLike "w(u('" "'))" then
    some (((between? "w(u('" "'))" line).map append).getD nothing)
  else if line = "f.close()".toList then some close
  else if line = "w=f.write".toList ∨ line = "import binascii".toList ∨
      line = "u=binascii.unhexlify".toList then some nothing
  else none

/-- The value of a hexadecimal digit of either case. -/
def hexNibble? (c : Char) : Option UInt8 :=
  if '0' ≤ c && c ≤ '9' then some (UInt8.ofNat (c.toNat - 48))
  else if 'a' ≤ c && c ≤ 'f' then some (UInt8.ofNat (c.toNat - 87))
  else if 'A' ≤ c && c ≤ 'F' then some (UInt8.ofNat (c.toNat - 55))
  else none

/-- The bytes that hexadecimal digits spell, two a byte. -/
def unhex? : List Char → Option (List UInt8)
  | [] => some []
  | [_] => none
  | a :: b :: r => do
    let a ← hexNibble? a
    let b ← hexNibble? b
    return (a * 16 + b) :: (← unhex? r)

/-- Carries out statements about files; an error ends them. -/
def runFileStatements (b : Board) : List FileStatement → Except String Unit × Board
  | [] => (.ok (), b)
  | .openFor name :: r => runFileStatements { b with openFile := some (name, []) } r
  | .append hex :: r =>
    match b.openFile with
    | none => (.error "NameError: name 'w' isn't defined\r\n", b)
    | some (name, contents) =>
      match unhex? hex with
      | some bs => runFileStatements { b with openFile := some (name, contents ++ bs) } r
      | none => (.error "ValueError: invalid hex\r\n", b)
  | .close :: r =>
    match b.openFile with
    | some (name, contents) => runFileStatements ({ b with openFile := none }.putFile name contents) r
    | none => runFileStatements b r
  | .nothing :: r => runFileStatements b r

/-- The statements of a text that consists of statements about files, of which there is at least
one. -/
def fileStatements? (code : String) : Option (List FileStatement) :=
  match ((linesOf code.toList).map dropBlanks).filter fun l => !l.isEmpty with
  | [] => none
  | ls => ls.mapM FileStatement.ofLine?

/-- Runs the text that was typed at the raw prompt. -/
def execute (b : Board) : Board :=
  let code := utf8Text b.typed.reverse
  let b := { b with typed := [] }.emit accepted
  match fileStatements? code with
  | none => b.startProgram code
  | some statements =>
    match b.runFileStatements statements with
    | (.ok (), b) => b.emit (ctrlD :: finishMark)
    | (.error text, b) => b.emit (ctrlD :: utf8 text ++ finishMark)

/-- The friendly prompt receives a byte, or a program does. -/
def receiveAtPrompt (b : Board) (byte : UInt8) : Board :=
  if byte = ctrlC then
    let b := if b.running then { b with running := false }.emit interruptTrace else b
    b.emit (lineEnd ++ prompt)
  else if byte = ctrlA then
    { b with mode := .interpreter true, typed := [] }.emit (lineEnd ++ rawBanner)
  else if byte = ctrlD ∧ !b.running then (b.emit (utf8 "MPY: soft reboot\r\n")).boot
  else if b.running then { b with hostInput := b.hostInput ++ [byte] }
  else b.emit [byte]

/-- The raw prompt receives a byte, or a program does. -/
def receiveAtRawPrompt (b : Board) (byte : UInt8) : Board :=
  if byte = ctrlC then
    if b.running then
      { b with running := false }.emit (ctrlD :: interruptTrace ++ finishMark)
    else { b with typed := [] }
  else if b.running then { b with hostInput := b.hostInput ++ [byte] }
  else if byte = ctrlA then { b with typed := [] }.emit (lineEnd ++ rawBanner)
  else if byte = ctrlB then
    { b with mode := .interpreter false }.emit (lineEnd ++ bootBanner ++ prompt)
  else if byte = ctrlD then b.execute
  else { b with typed := byte :: b.typed }

/-- The board receives bytes, for as long as it is connected. -/
def receive (b : Board) : List UInt8 → Board
  | [] => b
  | byte :: r =>
    if b.connected then
      receive (match b.mode with
        | .loader => b.receiveAtLoader byte
        | .interpreter false => b.receiveAtPrompt byte
        | .interpreter true => b.receiveAtRawPrompt byte) r
    else b

/-! ## The link -/

/-- Something that only works on a board that is connected. -/
def ifConnected (f : Board → Board) (b : Board) : Except LinkError Unit × Board :=
  if b.connected then (.ok (), f b) else (.error .closed, b)

instance : Transport Board where
  read n b :=
    if b.outbox.isEmpty then (if b.connected then .silent else .failed .closed, b)
    else (.bytes (b.outbox.take n), { b with outbox := b.outbox.drop n })
  write bs := ifConnected (·.receive bs)
  setBaud baud := ifConnected fun b => { b with bauds := b.bauds ++ [baud] }
  enterLoader := ifConnected fun b => { b with
    resets := b.resets + 1, running := false, mode := .loader, decoder := {}, outbox := loaderBanner }
  hardReset := ifConnected fun b => { b with resets := b.resets + 1 }.boot
  backlog b := b.outbox.length

/-- Opens the link to a board: the port is given, or the board is one of those looked for. The name
of the link is that of the port. -/
def openLink (d : DeviceSettings) (b : Board) : Except LinkError String × Board :=
  if b.plugged && (d.port.isSome || d.allows b.options.usbId) then
    (.ok (d.port.getD "sim0"), { b with connected := true, outbox := [] })
  else (.error .noDevice, b)

instance : Connector Board where
  openLink := openLink

end Board

end BlockBoard
