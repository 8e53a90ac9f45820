import BlockBoard.Firmware.Registry
/-!
# The catalog of firmware

The catalog lists the releases of the registry and the one whose image is at hand, which is the
recommended one. It is kept for a while before the registry is asked again.

- `Catalog.ofReleases`, `Catalog.fallback`: the catalog with a registry, and without.
- `Catalog.find?`: a release by its version.
- `CatalogCache.fetch`: the catalog at a moment, from memory or from the registry.
-/

namespace BlockBoard

/-- The releases on offer. -/
structure Catalog where
  releases : List Release
  fetchedAt : Timestamp
  /-- Whether the registry could not be asked. -/
  offline : Bool
  deriving DecidableEq, Repr

namespace Catalog

/-- The document of a catalog. -/
def toJson (c : Catalog) : Json := .object [
  (some "releases", .array (c.releases.map Release.toJson)),
  (some "fetched_at", .text c.fetchedAt.text), (some "offline", .boolean c.offline)]

/-- A release that is neither at hand nor recommended. -/
def plain (r : Release) : Release := { r with isBundled := false, isRecommended := false }

/-- A release of the registry whose image is at hand. -/
def atHand (b : BundledFirmware) (r : Release) : Release :=
  { r with source := .bundled b.path, size := b.size.toNat, isBundled := true, isRecommended := true }

/-- Releases with the first one of the bundled version marked as being at hand, if there is one. -/
def mark? (b : BundledFirmware) : List Release → Option (List Release)
  | [] => none
  | r :: rest =>
    if r.version = b.version then some (atHand b r :: rest) else (mark? b rest).map (r :: ·)

/-- The catalog with the releases of the registry. If the bundled release is not among them, it comes
first. -/
def ofReleases (releases : List Release) (b : BundledFirmware) (fetchedAt : Timestamp) : Catalog where
  releases :=
    let releases := releases.map plain
    (mark? b releases).getD (.ofBundled b :: releases)
  fetchedAt
  offline := false

/-- The catalog without the registry. -/
def fallback (b : BundledFirmware) (fetchedAt : Timestamp) : Catalog where
  releases := [.ofBundled b]
  fetchedAt
  offline := true

/-- The recommended release. -/
def recommended? (c : Catalog) : Option Release := c.releases.find? (·.isRecommended)

/-- The release of a version, which may be written as a tag. -/
def find? (c : Catalog) (version : String) : Option Release :=
  c.releases.find? fun r => r.version == bareVersion version

end Catalog

/-- A warning about the registry. -/
inductive CatalogNotice where
  | registryUnavailable (e : CatalogError) (version : String)
  deriving DecidableEq, Repr

/-- The wording of a warning. -/
def CatalogNotice.message : CatalogNotice → String
  | registryUnavailable e version =>
    "Firmware registry unavailable (" ++ e.message ++ "); offering bundled " ++ version ++ " only"

/-- A catalog that is kept for a while. Times are in milliseconds. -/
structure CatalogCache where
  bundled : BundledFirmware
  lifetime : Nat
  fallbackLifetime : Nat
  /-- The catalog that is kept, and when it is too old. -/
  kept : Option (Catalog × Nat) := none
  deriving DecidableEq, Repr

/-- What asking for the catalog gives. -/
structure CatalogFetch where
  catalog : Catalog
  cache : CatalogCache
  /-- Whether the registry was asked. -/
  asked : Bool
  notices : List CatalogNotice := []

namespace CatalogCache

/-- The cache that settings describe. -/
def ofSettings (s : CatalogSettings) : CatalogCache where
  bundled := s.bundled
  lifetime := 1000 * s.lifetime.toNat
  fallbackLifetime := 1000 * s.fallbackLifetime.toNat

/-- The catalog that is kept, if it is not too old. -/
def fresh? (c : CatalogCache) (now : Nat) : Option Catalog :=
  match c.kept with
  | some (catalog, expires) => if now < expires then some catalog else none
  | none => none

/-- The catalog after asking the registry. -/
def refresh (c : CatalogCache) (now : Nat) (stamp : Timestamp) :
    Except CatalogError (List Release) → CatalogFetch
  | .ok releases =>
    let catalog := Catalog.ofReleases releases c.bundled stamp
    { catalog, cache := { c with kept := some (catalog, now + c.lifetime) }, asked := true }
  | .error e =>
    let catalog := Catalog.fallback c.bundled stamp
    { catalog, cache := { c with kept := some (catalog, now + c.fallbackLifetime) }, asked := true
      notices := [.registryUnavailable e c.bundled.version] }

/-- The catalog at a moment, given what the registry would answer then. -/
def fetch (c : CatalogCache) (now : Nat) (stamp : Timestamp)
    (registry : Except CatalogError (List Release)) : CatalogFetch :=
  match c.fresh? now with
  | some catalog => { catalog, cache := c, asked := false }
  | none => c.refresh now stamp registry

/-- The cache with nothing kept. -/
def invalidate (c : CatalogCache) : CatalogCache := { c with kept := none }

end CatalogCache

end BlockBoard
