import BlockBoard.Number.Binary64
/-!
# Settings of the board and of its loader

- `DeviceSettings`: which board is looked for, how fast it is talked to, and the layout of its flash.
- `FlashSettings`: how an image is sent.
-/

namespace BlockBoard

/-- How the flash chip is accessed. -/
inductive FlashMode where
  | qio | qout | dio | dout
  deriving DecidableEq, Repr

namespace FlashMode

/-- The mode in the header of an image. -/
def headerByte : FlashMode → UInt8
  | qio => 0
  | qout => 1
  | dio => 2
  | dout => 3

/-- The name of a mode in settings. -/
def name : FlashMode → String
  | qio => "qio"
  | qout => "qout"
  | dio => "dio"
  | dout => "dout"

end FlashMode

/-- The clock of the flash chip. -/
inductive FlashClock where
  | mhz20 | mhz26 | mhz40 | mhz80
  deriving DecidableEq, Repr

namespace FlashClock

/-- The clock in the header of an image, four bits. -/
def headerNibble : FlashClock → UInt8
  | mhz40 => 0
  | mhz26 => 1
  | mhz20 => 2
  | mhz80 => 15

/-- The name of a clock in settings. -/
def name : FlashClock → String
  | mhz20 => "20m"
  | mhz26 => "26m"
  | mhz40 => "40m"
  | mhz80 => "80m"

end FlashClock

/-- The size of the flash chip. -/
inductive FlashSize where
  | mb1 | mb2 | mb4 | mb8 | mb16
  deriving DecidableEq, Repr

namespace FlashSize

/-- The size in bytes. -/
def bytes : FlashSize → UInt32
  | mb1 => 0x100000
  | mb2 => 0x200000
  | mb4 => 0x400000
  | mb8 => 0x800000
  | mb16 => 0x1000000

/-- The size in the header of an image, four bits. -/
def headerNibble : FlashSize → UInt8
  | mb1 => 0
  | mb2 => 1
  | mb4 => 2
  | mb8 => 3
  | mb16 => 4

/-- The name of a size in settings. -/
def name : FlashSize → String
  | mb1 => "1MB"
  | mb2 => "2MB"
  | mb4 => "4MB"
  | mb8 => "8MB"
  | mb16 => "16MB"

end FlashSize

/-- The vendor and the product of a USB device. -/
structure UsbId where
  vendor : UInt16
  product : UInt16
  deriving DecidableEq, Repr

/-- Which board is looked for, and what is known of it. -/
structure DeviceSettings where
  /-- A port to open whatever is behind it. Without one, the USB ids choose. -/
  port : Option String := none
  flashAddress : UInt32 := 0
  flashSize : FlashSize := .mb8
  flashMode : FlashMode := .dio
  flashClock : FlashClock := .mhz80
  flashBaud : UInt32 := 921600
  handshakeBaud : UInt32 := 115200
  usbIds : List UsbId :=
    [⟨0x303a, 0x1001⟩, ⟨0x10c4, 0xea60⟩, ⟨0x1a86, 0x7523⟩, ⟨0x1a86, 0x55d4⟩]
  deriving DecidableEq, Repr

/-- Whether a USB device is one of those looked for. -/
def DeviceSettings.allows (d : DeviceSettings) (id : UsbId) : Bool := d.usbIds.contains id

/-- The number closest to nine tenths. -/
def nineTenths : Binary64 := .nearest false (9 * Binary64.unitsPerOne) 10

/-- How an image is sent to the board. -/
structure FlashSettings where
  blockSize : UInt32 := 0x4000
  /-- How long an answer may take, in milliseconds. -/
  commandTimeout : UInt64 := 3000
  syncAttempts : UInt32 := 7
  /-- The part of the declared size that has to arrive. -/
  minTransferRatio : Binary64 := nineTenths
  deriving DecidableEq, Repr

end BlockBoard
