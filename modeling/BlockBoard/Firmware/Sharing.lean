import BlockBoard.Firmware.Catalog
/-!
# Sharing a catalog

Several callers use one catalog cache. A caller holds the cache while it uses it, also while it waits for
the registry, and meanwhile the others wait: they find what was fetched, instead of fetching it again. A
caller may give up at any time.

- `SharedCatalog`: a cache, its callers, and what has happened to it.
- `SharedCatalog.after`: what one event does.
- `SharedCatalog.run`: what events do, in whatever order they come.
-/

namespace BlockBoard

/-- Callers are told apart by numbers. -/
abbrev Caller : Type := Nat

/-- What a caller wants. -/
inductive CatalogWish where
  /-- The catalog of the moment. -/
  | catalog
  /-- That nothing is kept any more. -/
  | invalidation
  deriving DecidableEq, Repr

/-- What a caller is doing. -/
inductive CallerState where
  | idle
  /-- It waits until nobody holds the cache. -/
  | waiting (w : CatalogWish)
  /-- It holds the cache, and has not looked at it yet. -/
  | holding (w : CatalogWish)
  /-- It holds the cache and waits for the registry, which it asked at a time and a date. -/
  | fetching (since : Nat) (stamp : Timestamp)
  deriving DecidableEq, Repr

namespace CallerState

/-- Whether a caller holds the cache. -/
def holds : CallerState → Bool
  | holding _ | fetching _ _ => true
  | idle | waiting _ => false

/-- Whether a caller waits for the registry. -/
def isFetching : CallerState → Bool
  | fetching _ _ => true
  | idle | waiting _ | holding _ => false

end CallerState

/-- What may happen next. What is not possible does nothing. -/
inductive CatalogEvent where
  /-- A caller that is idle wants something. -/
  | want (i : Caller) (w : CatalogWish)
  /-- A caller that waits takes the cache, which nobody holds. -/
  | take (i : Caller)
  /-- A caller that holds the cache looks at it. -/
  | look (i : Caller) (stamp : Timestamp)
  /-- The registry answers a caller. -/
  | answer (i : Caller) (registry : Except CatalogError (List Release))
  /-- A caller gives up. -/
  | leave (i : Caller)
  /-- Time passes. -/
  | pass (time : Nat)

/-- What has happened to a cache. -/
inductive CatalogRecord where
  /-- A caller was given the catalog that was kept. -/
  | served (i : Caller) (now : Nat) (catalog : Catalog)
  /-- A caller asked the registry. -/
  | asked (i : Caller) (now : Nat)
  /-- The registry answered a caller, which was given the catalog made of the answer. -/
  | fetched (i : Caller) (registry : Except CatalogError (List Release)) (catalog : Catalog)
  /-- A caller had nothing kept any more. -/
  | invalidated (i : Caller)
  /-- A caller gave up. -/
  | left (i : Caller)

/-- The catalog that a caller was given. -/
def CatalogRecord.catalog? : CatalogRecord → Option Catalog
  | served _ _ catalog | fetched _ _ catalog => some catalog
  | asked _ _ | invalidated _ | left _ => none

/-- A cache, its callers, and what has happened to it, the latest first. Times are in milliseconds. -/
structure SharedCatalog where
  cache : CatalogCache
  now : Nat := 0
  /-- The caller that holds the cache. -/
  holder : Option Caller := none
  callers : Caller → CallerState := fun _ => .idle
  history : List CatalogRecord := []

namespace SharedCatalog

/-- A cache in which nothing is kept, before anybody has used it. -/
def start (c : CatalogCache) (now : Nat) : SharedCatalog := { cache := c.invalidate, now }

/-- A caller turns to something else. -/
def turn (s : SharedCatalog) (i : Caller) (next : CallerState) : SharedCatalog :=
  { s with callers := fun j => if j = i then next else s.callers j }

/-- Something has happened. -/
def note (s : SharedCatalog) (r : CatalogRecord) : SharedCatalog :=
  { s with history := r :: s.history }

/-- A caller takes the cache. -/
def take (s : SharedCatalog) (i : Caller) (busy : CallerState) : SharedCatalog :=
  { s.turn i busy with holder := some i }

/-- A caller lets the cache go, as it is then. -/
def letGo (s : SharedCatalog) (i : Caller) (cache : CatalogCache) : SharedCatalog :=
  { s.turn i .idle with cache, holder := none }

/-- What one event does. -/
def after (s : SharedCatalog) : CatalogEvent → SharedCatalog
  | .want i w =>
    match s.callers i with
    | .idle => s.turn i (.waiting w)
    | _ => s
  | .take i =>
    match s.holder, s.callers i with
    | none, .waiting w => s.take i (.holding w)
    | _, _ => s
  | .look i stamp =>
    match s.callers i with
    | .holding .catalog =>
      match s.cache.fresh? s.now with
      | some catalog => (s.letGo i s.cache).note (.served i s.now catalog)
      | none => (s.turn i (.fetching s.now stamp)).note (.asked i s.now)
    | .holding .invalidation => (s.letGo i s.cache.invalidate).note (.invalidated i)
    | _ => s
  | .answer i registry =>
    match s.callers i with
    | .fetching since stamp =>
      let f := s.cache.refresh since stamp registry
      (s.letGo i f.cache).note (.fetched i registry f.catalog)
    | _ => s
  | .leave i =>
    match s.callers i with
    | .idle => s
    | .waiting _ => (s.turn i .idle).note (.left i)
    | .holding _ | .fetching _ _ => (s.letGo i s.cache).note (.left i)
  | .pass time => { s with now := s.now + time }

/-- What events do, one after the other. -/
def run (s : SharedCatalog) (events : List CatalogEvent) : SharedCatalog := events.foldl after s

end SharedCatalog

end BlockBoard
