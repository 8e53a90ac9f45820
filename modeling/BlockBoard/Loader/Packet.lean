import BlockBoard.Link.Slip
import BlockBoard.Settings.Device
/-!
# Packets of the loader

Commands to the loader in the board's read-only memory, and its responses. Numbers are little-endian.

- `Loader.commandPacket`: a command with its data and its check word.
- `Loader.Response.ofFrame?`: the response in a frame.
- `Loader.patchHeader`: an image with the board's flash parameters in its header.
-/

namespace BlockBoard

namespace Loader

/-- The operations of the loader that are used here. -/
inductive Op where
  | flashBegin | flashData | flashEnd | sync | spiSetParams | spiAttach | changeBaudRate
  deriving DecidableEq, Repr

/-- The code of an operation. -/
def Op.code : Op → UInt8
  | flashBegin => 0x02
  | flashData => 0x03
  | flashEnd => 0x04
  | sync => 0x08
  | spiSetParams => 0x0B
  | spiAttach => 0x0D
  | changeBaudRate => 0x0F

/-- The first byte of a command. -/
def requestByte : UInt8 := 0x00

/-- The first byte of a response. -/
def responseByte : UInt8 := 0x01

/-- The first byte of an application image. -/
def imageMagic : UInt8 := 0xE9

/-- The two bytes of a number modulo 65536. -/
def halfWord (n : Nat) : List UInt8 := [UInt8.ofNat n, UInt8.ofNat (n / 256)]

/-- The four bytes of a word. -/
def wordBytes (w : UInt32) : List UInt8 :=
  [w.toUInt8, (w >>> 8).toUInt8, (w >>> 16).toUInt8, (w >>> 24).toUInt8]

/-- The word of four bytes. -/
def wordOf (a b c d : UInt8) : UInt32 :=
  a.toUInt32 ||| (b.toUInt32 <<< 8) ||| (c.toUInt32 <<< 16) ||| (d.toUInt32 <<< 24)

/-- The bytes of several words. -/
def words (ws : List UInt32) : List UInt8 := ws.flatMap wordBytes

/-- The data that wakes the loader. -/
def syncPayload : List UInt8 := [0x07, 0x07, 0x12, 0x20] ++ List.replicate 32 0x55

/-- The check word of a block: all its bytes and a seed, combined by exclusive or. -/
def checksum (bs : List UInt8) : UInt32 := (bs.foldl (· ^^^ ·) 0xEF).toUInt32

/-- A command. Its size field counts the data modulo 65536. -/
def commandPacket (op : UInt8) (data : List UInt8) (check : UInt32) : List UInt8 :=
  [requestByte, op] ++ halfWord data.length ++ wordBytes check ++ data

/-- A response of the loader. -/
structure Response where
  op : UInt8
  value : UInt32
  data : List UInt8
  deriving DecidableEq, Repr

/-- The fields of a packet after its direction: operation, word and data. The size field has to be
covered by what follows; bytes beyond it are ignored. -/
def packetFields? : List UInt8 → Option (UInt8 × UInt32 × List UInt8)
  | op :: s₀ :: s₁ :: w₀ :: w₁ :: w₂ :: w₃ :: rest =>
    let size := s₀.toNat + 256 * s₁.toNat
    if size ≤ rest.length then some (op, wordOf w₀ w₁ w₂ w₃, rest.take size) else none
  | _ => none

/-- The response in a frame, if it is one. -/
def Response.ofFrame? : List UInt8 → Option Response
  | direction :: rest =>
    if direction = responseByte then
      (packetFields? rest).map fun (op, value, data) => ⟨op, value, data⟩
    else none
  | [] => none

/-- The command in a frame, if it is one: operation, check word and data. -/
def commandOfFrame? : List UInt8 → Option (UInt8 × UInt32 × List UInt8)
  | direction :: rest => if direction = requestByte then packetFields? rest else none
  | [] => none

/-- The byte of an image header that holds the size and the clock of the flash chip. -/
def sizeAndClock (d : DeviceSettings) : UInt8 :=
  (d.flashSize.headerNibble <<< 4) ||| d.flashClock.headerNibble

/-- Whether an image has a header that can be patched. -/
def hasHeader : List UInt8 → Bool
  | magic :: _ :: _ :: _ :: _ => magic == imageMagic
  | _ => false

/-- An application image with the mode, size and clock of the board's flash in its header. Other
images are left as they are. -/
def patchHeader (d : DeviceSettings) : List UInt8 → List UInt8
  | magic :: segments :: mode :: size :: rest =>
    if magic = imageMagic then
      magic :: segments :: d.flashMode.headerByte :: sizeAndClock d :: rest
    else magic :: segments :: mode :: size :: rest
  | image => image

/-- The blocks of an image, the last one filled up with ones. A size of zero makes no blocks. -/
def blocksOf (size : Nat) : Nat → List UInt8 → List (List UInt8)
  | 0, _ => []
  | n + 1, image =>
    let block := image.take size
    (block ++ List.replicate (size - block.length) 0xFF) :: blocksOf size n (image.drop size)

/-- How many blocks an image takes. -/
def blockCount (size length : Nat) : Nat := (length + size - 1) / size

end Loader

end BlockBoard
