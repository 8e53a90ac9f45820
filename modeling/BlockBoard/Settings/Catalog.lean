import BlockBoard.Time.Timestamp
/-!
# Settings of the firmware catalog

- `BundledFirmware`: the image that is always at hand.
- `CatalogSettings`: where other images are looked for, and for how long an answer is good.
-/

namespace BlockBoard

/-- The image that is always at hand. -/
structure BundledFirmware where
  version : String := "1.24.1"
  title : String := "MicroPython 1.24.1 (bundled)"
  path : String := "firmware/board-micropython-1.24.1.bin"
  size : UInt64 := 8384512
  publishedAt : Timestamp := { seconds := 1732000000 }
  deriving DecidableEq, Repr

/-- Where images are looked for, and for how long an answer is good. Times are in seconds. -/
structure CatalogSettings where
  apiBase : String := "https://api.github.com"
  repository : String := "blocklink-labs/board-firmware"
  assetPattern : String := "^board-micropython-.*\\.bin$"
  lifetime : UInt64 := 3600
  /-- For how long the answer is good that the registry cannot be reached. -/
  fallbackLifetime : UInt64 := 60
  perPage : UInt32 := 30
  maxPages : UInt32 := 5
  requestTimeout : UInt64 := 10
  bundled : BundledFirmware := {}
  deriving DecidableEq, Repr

end BlockBoard
