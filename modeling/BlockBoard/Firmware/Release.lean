import BlockBoard.Json.Printer
import BlockBoard.Json.Record
import BlockBoard.Settings.Catalog
import BlockBoard.Text.Blank
import BlockBoard.Text.Pattern
/-!
# Firmware releases

A release is an image that can be had, and what is said about it. A registry lists its releases in
documents; one counts if it is no draft and has an asset with the right name.

- `Release`: a release, and its document.
- `RegistryEntry`: a release as a registry lists it.
- `Release.ofPage?`: the releases in a page of a registry.
-/

namespace BlockBoard

/-- Where the image of a release comes from. -/
inductive ReleaseSource where
  | remote (url : String)
  | bundled (path : String)
  deriving DecidableEq, Repr

/-- A release. -/
structure Release where
  version : String
  title : String
  notes : String
  publishedAt : Option Timestamp
  source : ReleaseSource
  /-- The declared size of the image in bytes. -/
  size : Nat
  isRecommended : Bool
  isBundled : Bool
  deriving DecidableEq, Repr

/-- The document of a source. -/
def ReleaseSource.toJson : ReleaseSource → Json
  | remote url => .object [(some "type", .text "remote"), (some "url", .text url)]
  | bundled path => .object [(some "type", .text "bundled"), (some "path", .text path)]

namespace Release

/-- The document of a release. -/
def toJson (r : Release) : Json := .object [
  (some "version", .text r.version), (some "title", .text r.title), (some "notes", .text r.notes),
  (some "published_at", (r.publishedAt.map fun t => Json.text t.text).getD .null),
  (some "source", r.source.toJson), (some "size", .ofNat r.size),
  (some "is_recommended", .boolean r.isRecommended), (some "is_bundled", .boolean r.isBundled)]

/-- The release whose image is at hand. -/
def ofBundled (b : BundledFirmware) : Release where
  version := b.version
  title := b.title
  notes := ""
  publishedAt := some b.publishedAt
  source := .bundled b.path
  size := b.size.toNat
  isRecommended := true
  isBundled := true

end Release

/-- A version without the letter that tags put before it, as often as it stands there. -/
def bareVersion (s : String) : String := String.ofList (s.toList.dropWhile (· == 'v'))

/-- A file of a release. -/
structure RegistryAsset where
  name : String
  url : String
  size : Nat
  deriving DecidableEq, Repr

/-- A release as a registry lists it. -/
structure RegistryEntry where
  tag : String
  name : Option String := none
  body : Option String := none
  publishedAt : Option Timestamp := none
  draft : Bool := false
  assets : List RegistryAsset := []
  deriving DecidableEq, Repr

/-- A truth value. -/
def Json.boolean? : Json → Option Bool
  | .boolean b => some b
  | _ => none

/-- A whole number from zero to below a limit. -/
def Json.natBelow? (limit : Nat) : Json → Option Nat
  | .number n => n.toInteger?.bind fun i => if 0 ≤ i ∧ i < limit then some i.toNat else none
  | _ => none

/-- A file of a release in a document. -/
def RegistryAsset.ofJson? (v : Json) : Option RegistryAsset := do
  match ← v.fields? ["name", "browser_download_url", "size"] with
  | [some name, some url, some size] =>
    return ⟨← name.text?, ← url.text?, ← size.natBelow? UInt64.size⟩
  | _ => none

/-- A release of a registry in a document. -/
def RegistryEntry.ofJson? (v : Json) : Option RegistryEntry := do
  match ← v.fields? ["tag_name", "name", "body", "published_at", "draft", "assets"] with
  | [some tag, name, body, published, draft, assets] =>
    return {
      tag := ← tag.text?
      name := ← Json.optional? Json.text? name
      body := ← Json.optional? Json.text? body
      publishedAt := ← Json.optional? (fun v => v.text?.bind Timestamp.ofText?) published
      draft := ← Json.orElse false Json.boolean? draft
      assets := ← Json.orElse [] (fun v => do (← v.items).mapM RegistryAsset.ofJson?) assets }
  | _ => none

/-- The release that an entry stands for, if it counts: the first asset whose name matches is its
image, and a name of blanks gives way to the tag. -/
def RegistryEntry.release? (pattern : Pattern) (e : RegistryEntry) : Option Release :=
  if e.draft then none
  else (e.assets.find? fun a => pattern.occursIn a.name).map fun a => {
    version := bareVersion e.tag
    title := (e.name.filter fun n => !(trimBlank n).isEmpty).getD e.tag
    notes := e.body.getD ""
    publishedAt := e.publishedAt
    source := .remote a.url
    size := a.size
    isRecommended := false
    isBundled := false }

/-- The entries of a page. -/
def RegistryEntry.ofPage? (text : Json) : Option (List RegistryEntry) := do
  (← text.items).mapM RegistryEntry.ofJson?

end BlockBoard
