import BlockBoard.Firmware.Release
import BlockBoard.Json.Reader
import BlockBoard.Text.Utf8
/-!
# The registry of releases

A registry answers requests for pages of releases. Pages are asked for in order, up to the first one
that is not full or up to a limit, and any failure on the way fails the whole search.

- `HttpService`: whoever answers requests.
- `Registry.fetch`: the releases of a registry.
- `CatalogError`: why there are none.
-/

namespace BlockBoard

/-- How requests name the program that sends them. -/
def agentName : String := "blocklink/0.1.0"

/-- A request for what an address names. -/
structure HttpQuery where
  url : String
  accept : Option String := none
  userAgent : String := agentName
  deriving DecidableEq, Repr

/-- An answer: its status and its body. -/
structure HttpAnswer where
  status : Nat
  body : List UInt8
  deriving DecidableEq, Repr

/-- Whether a status means success. -/
def HttpAnswer.isSuccess (a : HttpAnswer) : Bool := decide (200 ≤ a.status ∧ a.status < 300)

/-- Whoever answers requests; nothing if nobody can be reached. -/
abbrev HttpService := HttpQuery → Option HttpAnswer

/-- A service that cannot be reached. -/
def HttpService.unreachable : HttpService := fun _ => none

/-- Why there are no releases of a registry. -/
inductive CatalogError where
  /-- The registry cannot be reached. -/
  | http
  | status (code : Nat) (body : String)
  /-- A page is no list of releases. -/
  | json
  /-- The pattern for assets is none. -/
  | pattern
  deriving DecidableEq, Repr

/-- The wording of an error. -/
def CatalogError.message : CatalogError → String
  | http => "registry request failed"
  | status code body => "registry returned HTTP " ++ decimalText code ++ ": " ++ body
  | json => "registry response is not valid JSON"
  | pattern => "invalid asset pattern"

/-- A registry: where it is, how its pages are asked for, and which assets count. -/
structure Registry where
  apiBase : String
  repository : String
  pattern : Pattern
  perPage : Nat
  maxPages : Nat

namespace Registry

/-- A text without the slashes at its end. -/
def dropSlashes (s : String) : String :=
  String.ofList (s.toList.reverse.dropWhile (· == '/')).reverse

/-- The registry that settings describe. -/
def ofSettings (s : CatalogSettings) : Except CatalogError Registry :=
  match Pattern.ofText? s.assetPattern with
  | none => .error .pattern
  | some pattern => .ok {
      apiBase := dropSlashes s.apiBase
      repository := s.repository
      pattern
      perPage := s.perPage.toNat
      maxPages := s.maxPages.toNat }

/-- The address of a page; pages are counted from one. -/
def pageUrl (r : Registry) (page : Nat) : String :=
  r.apiBase ++ "/repos/" ++ r.repository ++ "/releases?per_page=" ++ decimalText r.perPage ++
    "&page=" ++ decimalText page

/-- The request for a page. -/
def query (r : Registry) (page : Nat) : HttpQuery :=
  { url := r.pageUrl page, accept := some "application/vnd.github+json" }

/-- How much of an answer is kept in an error. -/
def shownBody : Nat := 200

/-- The entries in the answer to a request. -/
def entriesOf : Option HttpAnswer → Except CatalogError (List RegistryEntry)
  | none => .error .http
  | some a =>
    if a.isSuccess then
      match (Json.ofText? (utf8Text a.body)).bind RegistryEntry.ofPage? with
      | some entries => .ok entries
      | none => .error .json
    else .error (.status a.status (String.ofList ((utf8Chars a.body).take shownBody)))

/-- The releases of some entries. -/
def releasesOf (r : Registry) (entries : List RegistryEntry) : List Release :=
  entries.filterMap (RegistryEntry.release? r.pattern)

/-- The releases from a page on, with `left` pages to go, and the requests for them. -/
def fetchFrom (r : Registry) (service : HttpService) (page : Nat) :
    Nat → Except CatalogError (List Release) × List HttpQuery
  | 0 => (.ok [], [])
  | left + 1 =>
    let query := r.query page
    match entriesOf (service query) with
    | .error e => (.error e, [query])
    | .ok entries =>
      if entries.isEmpty || entries.length < r.perPage then (.ok (r.releasesOf entries), [query])
      else
        let (rest, queries) := r.fetchFrom service (page + 1) left
        (rest.map (r.releasesOf entries ++ ·), query :: queries)

/-- The releases of a registry, and the requests for them. -/
def fetch (r : Registry) (service : HttpService) :
    Except CatalogError (List Release) × List HttpQuery :=
  r.fetchFrom service 1 r.maxPages

/-- The releases in one page. -/
def releasesInText (pattern : Pattern) (text : String) : Except CatalogError (List Release) :=
  match (Json.ofText? text).bind RegistryEntry.ofPage? with
  | some entries => .ok (entries.filterMap (RegistryEntry.release? pattern))
  | none => .error .json

end Registry

end BlockBoard
