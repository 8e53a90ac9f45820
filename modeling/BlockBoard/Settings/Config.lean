import BlockBoard.Settings.Catalog
import BlockBoard.Settings.Device
import BlockBoard.Settings.Toml.Reader
import BlockBoard.Text.Pattern
import BlockBoard.Text.Quoted
/-!
# Configuration

All settings together, how they are read from a configuration document, and which of them make no
sense.

- `Settings.ofText`: the settings in a text.
- `Settings.check`: refuses settings that would mislead a flash or a search for firmware.
- `SettingsError`: why there are no settings.
-/

namespace BlockBoard

/-- All settings. -/
structure Settings where
  device : DeviceSettings := {}
  flash : FlashSettings := {}
  catalog : CatalogSettings := {}
  /-- How many lines the terminal keeps. -/
  maxLines : UInt64 := 1000
  /-- The address of the HTTP interface. -/
  bind : String := "127.0.0.1:3000"
  deriving DecidableEq, Repr

/-- Why there are no settings. -/
inductive SettingsError where
  /-- The file cannot be read. -/
  | unreadable
  /-- The file is no document, or not one of settings. -/
  | malformed
  | transferRatio (x : Binary64)
  | blockSize
  | baudRate
  | noDevice
  | assetPattern
  | paging
  deriving DecidableEq, Repr

/-- The wording of an error. -/
def SettingsError.message : SettingsError → String
  | unreadable => "IO error"
  | malformed => "TOML parse error"
  | transferRatio x =>
    "Invalid configuration: flash.min_transfer_ratio must be in (0, 1], got " ++ plainNumber.text x
  | blockSize =>
    "Invalid configuration: flash.block_size must be a non-zero multiple of 4, at most 0xFFE0"
  | baudRate => "Invalid configuration: baud rates must be > 0"
  | noDevice => "Invalid configuration: device.usb_ids is empty and no explicit device.port is set"
  | assetPattern => "Invalid configuration: catalog.asset_pattern"
  | paging => "Invalid configuration: catalog.per_page and catalog.max_pages must be > 0"

/-! ## Reading values -/

namespace Toml

/-- The values of a record's fields, in the order of their names. An array holds the fields in order
and may be shorter or longer. -/
def fields? (names : List String) : Toml → Option (List (Option Toml))
  | .table _ entries => some (names.map fun name => entries.lookup name)
  | .array items => some (names.zipIdx.map fun n => items[n.2]?)
  | .tables latest =>
    let items := latest.reverse
    some (names.zipIdx.map fun n => items[n.2]?.map (.table .header))
  | _ => none

/-- A field with a default. -/
def orElse {α : Type} (default : α) (read : Toml → Option α) : Option Toml → Option α
  | none => some default
  | some v => read v

/-- A text. -/
def asText? : Toml → Option String
  | .text s => some s
  | _ => none

/-- An integer from zero to below a limit. -/
def natBelow? (limit : Nat) : Toml → Option Nat
  | .integer n => if 0 ≤ n ∧ n < limit then some n.toNat else none
  | _ => none

/-- An integer of sixteen bits. -/
def word16? (v : Toml) : Option UInt16 := (v.natBelow? UInt16.size).map .ofNat

/-- An integer of thirty-two bits. -/
def word32? (v : Toml) : Option UInt32 := (v.natBelow? UInt32.size).map .ofNat

/-- An integer of sixty-four bits. -/
def word64? (v : Toml) : Option UInt64 := (v.natBelow? UInt64.size).map .ofNat

/-- A number; an integer stands for the closest double. -/
def asNumber? : Toml → Option Binary64
  | .decimal x => some x
  | .integer n => if Int64.minValue.toInt ≤ n ∧ n < Int.ofNat UInt64.size then some (.ofInt n) else none
  | _ => none

/-- A choice among names: the name, or a table with the name as its only key and nothing below it. -/
def choice? {α : Type} (choices : List α) (name : α → String) (v : Toml) : Option α := do
  let n ← match v with
    | .text s => some s
    | .table _ [(k, .table _ [])] => some k
    | .table _ [(k, .array [])] => some k
    | _ => none
  choices.find? fun c => name c == n

/-- The items of an array. -/
def asList? : Toml → Option (List Toml)
  | .array items => some items
  | .tables latest => some (latest.reverse.map (.table .header))
  | _ => none

end Toml

/-! ## Reading settings -/

/-- A USB id: two numbers; more are passed over. -/
def UsbId.ofToml? (v : Toml) : Option UsbId := do
  match ← v.asList? with
  | vendor :: product :: _ => return ⟨← vendor.word16?, ← product.word16?⟩
  | _ => none

/-- The modes there are. -/
def FlashMode.all : List FlashMode := [.qio, .qout, .dio, .dout]

/-- The clocks there are. -/
def FlashClock.all : List FlashClock := [.mhz20, .mhz26, .mhz40, .mhz80]

/-- The sizes there are. -/
def FlashSize.all : List FlashSize := [.mb1, .mb2, .mb4, .mb8, .mb16]

/-- The settings of the board in a table. -/
def DeviceSettings.ofToml? (v : Toml) : Option DeviceSettings := do
  let d : DeviceSettings := {}
  match ← v.fields? ["port", "flash_address", "flash_size", "flash_mode", "flash_freq", "flash_baud",
      "handshake_baud", "usb_ids"] with
  | [port, address, size, mode, clock, baud, handshake, ids] =>
    return {
      port := ← Toml.orElse none (fun v => v.asText?.map some) port
      flashAddress := ← Toml.orElse d.flashAddress Toml.word32? address
      flashSize := ← Toml.orElse d.flashSize (Toml.choice? FlashSize.all FlashSize.name) size
      flashMode := ← Toml.orElse d.flashMode (Toml.choice? FlashMode.all FlashMode.name) mode
      flashClock := ← Toml.orElse d.flashClock (Toml.choice? FlashClock.all FlashClock.name) clock
      flashBaud := ← Toml.orElse d.flashBaud Toml.word32? baud
      handshakeBaud := ← Toml.orElse d.handshakeBaud Toml.word32? handshake
      usbIds := ← Toml.orElse d.usbIds (fun v => do (← v.asList?).mapM UsbId.ofToml?) ids }
  | _ => none

/-- The settings of a flash in a table. -/
def FlashSettings.ofToml? (v : Toml) : Option FlashSettings := do
  let d : FlashSettings := {}
  match ← v.fields? ["block_size", "command_timeout_ms", "sync_attempts", "min_transfer_ratio"] with
  | [size, timeout, attempts, ratio] =>
    return {
      blockSize := ← Toml.orElse d.blockSize Toml.word32? size
      commandTimeout := ← Toml.orElse d.commandTimeout Toml.word64? timeout
      syncAttempts := ← Toml.orElse d.syncAttempts Toml.word32? attempts
      minTransferRatio := ← Toml.orElse d.minTransferRatio Toml.asNumber? ratio }
  | _ => none

/-- The image at hand, in a table. -/
def BundledFirmware.ofToml? (v : Toml) : Option BundledFirmware := do
  let d : BundledFirmware := {}
  match ← v.fields? ["version", "title", "path", "size", "published_at"] with
  | [version, title, path, size, published] =>
    return {
      version := ← Toml.orElse d.version Toml.asText? version
      title := ← Toml.orElse d.title Toml.asText? title
      path := ← Toml.orElse d.path Toml.asText? path
      size := ← Toml.orElse d.size Toml.word64? size
      publishedAt := ← Toml.orElse d.publishedAt (fun v => v.asText?.bind Timestamp.ofText?) published }
  | _ => none

/-- The settings of the catalog in a table. -/
def CatalogSettings.ofToml? (v : Toml) : Option CatalogSettings := do
  let d : CatalogSettings := {}
  match ← v.fields? ["api_base", "repository", "asset_pattern", "ttl_secs", "fallback_ttl_secs",
      "per_page", "max_pages", "request_timeout_secs", "bundled"] with
  | [base, repository, pattern, lifetime, fallback, perPage, maxPages, timeout, bundled] =>
    return {
      apiBase := ← Toml.orElse d.apiBase Toml.asText? base
      repository := ← Toml.orElse d.repository Toml.asText? repository
      assetPattern := ← Toml.orElse d.assetPattern Toml.asText? pattern
      lifetime := ← Toml.orElse d.lifetime Toml.word64? lifetime
      fallbackLifetime := ← Toml.orElse d.fallbackLifetime Toml.word64? fallback
      perPage := ← Toml.orElse d.perPage Toml.word32? perPage
      maxPages := ← Toml.orElse d.maxPages Toml.word32? maxPages
      requestTimeout := ← Toml.orElse d.requestTimeout Toml.word64? timeout
      bundled := ← Toml.orElse d.bundled BundledFirmware.ofToml? bundled }
  | _ => none

namespace Settings

/-- The settings in a table. Other keys are passed over. -/
def ofToml? (v : Toml) : Option Settings := do
  let d : Settings := {}
  match ← v.fields? ["device", "flash", "catalog", "terminal", "web"] with
  | [device, flash, catalog, terminal, web] =>
    return {
      device := ← Toml.orElse d.device DeviceSettings.ofToml? device
      flash := ← Toml.orElse d.flash FlashSettings.ofToml? flash
      catalog := ← Toml.orElse d.catalog CatalogSettings.ofToml? catalog
      maxLines := ← Toml.orElse d.maxLines (fun v => do
        let fields ← v.fields? ["max_lines"]
        Toml.orElse d.maxLines Toml.word64? fields.head?.join) terminal
      bind := ← Toml.orElse d.bind (fun v => do
        let fields ← v.fields? ["bind"]
        Toml.orElse d.bind Toml.asText? fields.head?.join) web }
  | _ => none

/-! ## Checking settings -/

/-- One as a double. -/
def one : Binary64 := .ofNat 1

/-- The greatest size of a block: its data, with sixteen bytes before it, has to fit a packet. -/
def maxBlockSize : UInt32 := 0xFFE0

/-- Whether the tolerated part of a transfer is above zero and at most one. -/
def hasTransferRatio (s : Settings) : Bool :=
  (Binary64.zero false).lt s.flash.minTransferRatio && s.flash.minTransferRatio.le one

/-- Whether blocks can be sent. -/
def hasBlockSize (s : Settings) : Bool :=
  s.flash.blockSize != 0 && s.flash.blockSize % 4 == 0 && s.flash.blockSize ≤ maxBlockSize

/-- Refuses settings that make no sense; the first reason counts. -/
def check (s : Settings) : Except SettingsError Unit :=
  if !s.hasTransferRatio then .error (.transferRatio s.flash.minTransferRatio)
  else if !s.hasBlockSize then .error .blockSize
  else if s.device.flashBaud = 0 ∨ s.device.handshakeBaud = 0 then .error .baudRate
  else if s.device.port.isNone && s.device.usbIds.isEmpty then .error .noDevice
  else if (Pattern.ofText? s.catalog.assetPattern).isNone then .error .assetPattern
  else if s.catalog.perPage = 0 ∨ s.catalog.maxPages = 0 then .error .paging
  else .ok ()

/-- The settings in a text. -/
def ofText (s : String) : Except SettingsError Settings :=
  match (Toml.ofText? s).bind fun t => ofToml? (.table .header t) with
  | none => .error .malformed
  | some settings => settings.check.map fun () => settings

end Settings

end BlockBoard
