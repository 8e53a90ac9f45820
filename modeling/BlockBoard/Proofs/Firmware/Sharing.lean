import BlockBoard.Firmware.Sharing
import BlockBoard.Proofs.Firmware.Catalog
/-!
# Sharing a catalog, over any history

Callers that share a catalog come and go in any order, wait for each other and for the registry, and give
up. What has happened to the cache shows what a caller has to find in it: nothing once it was invalidated,
and else what the last fetch brought, until that is too old.

- `SharedCatalog.lastFetch?`, `SharedCatalog.inFlight`: what a history says about fetches.
- `SharedCatalog.Orderly`: only the caller that holds the cache can be waiting for the registry.
- `SharedCatalog.Faithful`: what the cache keeps is what its history says.
- `SharedCatalog.run_alone`: a caller that nobody disturbs fetches as `CatalogCache.fetch` says.
- `SharedCatalog.run_lawful`: **the cache over any history**.
-/

namespace BlockBoard

/-- How long a catalog is kept after a fetch. -/
def CatalogCache.lifetimeAfter (c : CatalogCache) (failed : Bool) : Nat :=
  if failed then c.fallbackLifetime else c.lifetime

/-- A fetch that was completed. -/
structure PastFetch where
  /-- When the registry was asked. -/
  since : Nat
  failed : Bool
  catalog : Catalog

namespace PastFetch

/-- When the catalog of a fetch is too old. -/
def expiry (f : PastFetch) (c : CatalogCache) : Nat := f.since + c.lifetimeAfter f.failed

/-- The catalog of a fetch features one release, and is marked as such, and holds nothing else, if the
registry failed. -/
structure Genuine (f : PastFetch) (b : BundledFirmware) : Prop where
  features : ∃ r, f.catalog.Features b r ∧ (f.failed = true → f.catalog.releases = [r])
  offline : f.catalog.offline = true ↔ f.failed = true

end PastFetch

/-- What a refreshed cache keeps. -/
theorem CatalogCache.refresh_cache (c : CatalogCache) (now : Nat) (stamp : Timestamp)
    (registry : Except CatalogError (List Release)) :
    (c.refresh now stamp registry).cache =
      { c with kept := some ((c.refresh now stamp registry).catalog,
        now + c.lifetimeAfter !registry.isOk) } := by
  cases registry <;> rfl

/-- What a refresh brings is genuine, whatever the registry answers. -/
theorem CatalogCache.genuine_refresh (c : CatalogCache) (now : Nat) (stamp : Timestamp)
    (registry : Except CatalogError (List Release)) :
    PastFetch.Genuine ⟨now, !registry.isOk, (c.refresh now stamp registry).catalog⟩ c.bundled := by
  cases registry with
  | ok releases =>
    obtain ⟨r, hr⟩ := Catalog.features_ofReleases releases c.bundled stamp
    exact ⟨⟨r, hr, nofun⟩, ⟨nofun, nofun⟩⟩
  | error e =>
    exact ⟨⟨_, Catalog.features_fallback c.bundled stamp, fun _ => rfl⟩, ⟨fun _ => rfl, fun _ => rfl⟩⟩

namespace SharedCatalog

/-! ## What a history says -/

/-- When a caller last asked the registry. -/
def askedAt? (i : Caller) : List CatalogRecord → Option Nat
  | [] => none
  | .asked j now :: earlier => if j = i then some now else askedAt? i earlier
  | .served .. :: earlier | .fetched .. :: earlier | .invalidated _ :: earlier | .left _ :: earlier =>
    askedAt? i earlier

/-- The last fetch that was completed, unless everything was invalidated since then. -/
def lastFetch? : List CatalogRecord → Option PastFetch
  | [] => none
  | .invalidated _ :: _ => none
  | .fetched i registry catalog :: earlier =>
    (askedAt? i earlier).map fun since => ⟨since, !registry.isOk, catalog⟩
  | .served .. :: earlier | .asked .. :: earlier | .left _ :: earlier => lastFetch? earlier

/-- The callers that have asked the registry and have neither got an answer nor given up. -/
def inFlight : List CatalogRecord → List Caller
  | [] => []
  | .asked i _ :: earlier => i :: inFlight earlier
  | .fetched i .. :: earlier | .left i :: earlier => (inFlight earlier).erase i
  | .served .. :: earlier | .invalidated _ :: earlier => inFlight earlier

/-! ## One caller at a time -/

/-- **Only the caller that holds the cache can be waiting for the registry**, since the time at which its
history says that it asked. -/
structure Orderly (s : SharedCatalog) : Prop where
  holder : ∀ i, (s.callers i).holds = true ↔ s.holder = some i
  flying : inFlight s.history = (s.holder.filter fun i => (s.callers i).isFetching).toList
  asked : ∀ i since stamp, s.callers i = .fetching since stamp → askedAt? i s.history = some since

variable {s : SharedCatalog} {i : Caller}

theorem callers_turn_self (s : SharedCatalog) (i : Caller) (next : CallerState) :
    (s.turn i next).callers i = next := if_pos rfl

theorem callers_turn_of_ne (s : SharedCatalog) {i j : Caller} (h : j ≠ i) (next : CallerState) :
    (s.turn i next).callers j = s.callers j := if_neg h

namespace Orderly

theorem holder_ne (h : Orderly s) (hi : (s.callers i).holds = false) : s.holder ≠ some i := by
  intro hholder
  rw [(h.holder i).mpr hholder] at hi
  cases hi

/-- While nobody holds the cache, no caller says that it does. -/
theorem free_of_none (h : Orderly s) (hholder : s.holder = none) (j : Caller) :
    (s.callers j).holds = false := by
  rw [Bool.eq_false_iff]
  intro hj
  rw [(h.holder j).mp hj] at hholder
  cases hholder

/-- While a caller holds the cache, no other one does. -/
theorem free_of_holds (h : Orderly s) (hi : (s.callers i).holds = true) {j : Caller} (hij : j ≠ i) :
    (s.callers j).holds = false := by
  rw [Bool.eq_false_iff]
  intro hj
  exact hij (Option.some.inj (((h.holder j).mp hj).symm.trans ((h.holder i).mp hi)))

/-- What is in flight while a caller holds the cache. -/
theorem inFlight_eq (h : Orderly s) (hi : (s.callers i).holds = true) :
    inFlight s.history = if (s.callers i).isFetching then [i] else [] := by
  rw [h.flying, (h.holder i).mp hi, Option.filter_some]
  split <;> rfl

/-- Nothing is in flight before the caller that holds the cache has looked at it. -/
theorem inFlight_of_holding (h : Orderly s) {w : CatalogWish} (hi : s.callers i = .holding w) :
    inFlight s.history = [] := by
  rw [h.inFlight_eq (congrArg CallerState.holds hi), hi]
  rfl

/-- Nothing is in flight besides what the caller that holds the cache asked for. -/
theorem erase_inFlight (h : Orderly s) (hi : (s.callers i).holds = true) :
    (inFlight s.history).erase i = [] := by
  rw [h.inFlight_eq hi]
  split
  · exact List.erase_cons_head i []
  · rfl

theorem not_mem_inFlight (h : Orderly s) (hi : (s.callers i).holds = false) : i ∉ inFlight s.history := by
  rw [h.flying, Option.mem_toList, Option.filter_eq_some_iff]
  rintro ⟨hholder, -⟩
  exact h.holder_ne hi hholder

/-- **At most one fetch is in flight.** -/
theorem length_inFlight_le (h : Orderly s) : (inFlight s.history).length ≤ 1 := by
  rw [h.flying]
  cases s.holder.filter fun i => (s.callers i).isFetching with
  | none => exact Nat.zero_le 1
  | some i => exact Nat.le_refl 1

/-- Order prevails where one caller at most holds the cache, and says so. -/
theorem of_free (hfree : ∀ j, j ≠ i → (s.callers j).holds = false)
    (hholder : s.holder = if (s.callers i).holds then some i else none)
    (hflying : inFlight s.history = if (s.callers i).isFetching then [i] else [])
    (hasked : ∀ since stamp, s.callers i = .fetching since stamp → askedAt? i s.history = some since) :
    Orderly s := by
  refine ⟨fun j => ?_, ?_, fun j since stamp hj => ?_⟩
  · rw [hholder]
    by_cases hij : j = i
    · subst hij
      cases (s.callers j).holds <;> simp
    · rw [hfree j hij]
      cases (s.callers i).holds <;> simp [Ne.symm hij]
  · rw [hflying, hholder]
    cases hi : s.callers i with
    | idle => rfl
    | waiting w => rfl
    | holding w =>
      show [] = ((some i).filter fun i => (s.callers i).isFetching).toList
      rw [Option.filter_some, hi]
      rfl
    | fetching since stamp =>
      show [i] = ((some i).filter fun i => (s.callers i).isFetching).toList
      rw [Option.filter_some, hi]
      rfl
  · by_cases hij : j = i
    · subst hij
      exact hasked since stamp hj
    · have hholds := hfree j hij
      rw [hj] at hholds
      cases hholds

/-- A caller that does not hold the cache turns to something else. -/
theorem turn (h : Orderly s) (hi : (s.callers i).holds = false) {next : CallerState}
    (hnext : next.holds = false) : Orderly (s.turn i next) := by
  have hne := h.holder_ne hi
  refine ⟨fun j => ?_, ?_, fun j since stamp hj => ?_⟩
  · by_cases hij : j = i
    · subst hij
      rw [callers_turn_self, hnext]
      exact ⟨nofun, fun hholder => absurd hholder hne⟩
    · rw [callers_turn_of_ne s hij]
      exact h.holder j
  · show inFlight s.history = (s.holder.filter fun j => ((s.turn i next).callers j).isFetching).toList
    rw [h.flying]
    cases hholder : s.holder with
    | none => rfl
    | some j =>
      have hij : j ≠ i := fun heq => hne (hholder.trans (congrArg some heq))
      rw [Option.filter_some, Option.filter_some, callers_turn_of_ne s hij]
  · by_cases hij : j = i
    · subst hij
      rw [callers_turn_self] at hj
      rw [hj] at hnext
      cases hnext
    · rw [callers_turn_of_ne s hij] at hj
      exact h.asked j since stamp hj

/-- A caller that does not hold the cache gives up. -/
theorem left (h : Orderly s) (hi : (s.callers i).holds = false) : Orderly (s.note (.left i)) :=
  ⟨h.holder, (List.erase_of_not_mem (h.not_mem_inFlight hi)).trans h.flying, h.asked⟩

/-- A caller takes the cache, which nobody holds. -/
theorem take (h : Orderly s) (hholder : s.holder = none) (w : CatalogWish) :
    Orderly (s.take i (.holding w)) := by
  have hi : (s.take i (.holding w)).callers i = .holding w := callers_turn_self s i _
  refine of_free (i := i) (fun j hij => ?_) (by rw [hi]; rfl) ?_ fun since stamp hsince => ?_
  · show ((s.turn i (.holding w)).callers j).holds = false
    rw [callers_turn_of_ne s hij]
    exact h.free_of_none hholder j
  · show inFlight s.history = _
    rw [h.flying, hholder, hi]
    rfl
  · rw [hi] at hsince
    cases hsince

/-- The caller that holds the cache asks the registry. -/
theorem ask (h : Orderly s) {w : CatalogWish} (hi : s.callers i = .holding w) (stamp : Timestamp) :
    Orderly ((s.turn i (.fetching s.now stamp)).note (.asked i s.now)) := by
  have hholds : (s.callers i).holds = true := congrArg CallerState.holds hi
  have hnext : ((s.turn i (.fetching s.now stamp)).note (.asked i s.now)).callers i =
      .fetching s.now stamp := callers_turn_self s i _
  refine of_free (i := i) (fun j hij => ?_) ?_ ?_ fun since stamp' hsince => ?_
  · show ((s.turn i (.fetching s.now stamp)).callers j).holds = false
    rw [callers_turn_of_ne s hij]
    exact h.free_of_holds hholds hij
  · rw [hnext]
    exact (h.holder i).mp hholds
  · show i :: inFlight s.history = _
    rw [h.inFlight_of_holding hi, hnext]
    rfl
  · rw [hnext] at hsince
    cases hsince
    exact if_pos rfl

/-- The caller that holds the cache lets it go. -/
theorem letGo (h : Orderly s) (hi : (s.callers i).holds = true) (cache : CatalogCache)
    {r : CatalogRecord} (hr : inFlight (r :: s.history) = []) : Orderly ((s.letGo i cache).note r) := by
  have hnext : ((s.letGo i cache).note r).callers i = .idle := callers_turn_self s i _
  refine of_free (i := i) (fun j hij => ?_) (by rw [hnext]; rfl) (by rw [hnext]; exact hr)
    fun since stamp hsince => ?_
  · show ((s.turn i .idle).callers j).holds = false
    rw [callers_turn_of_ne s hij]
    exact h.free_of_holds hi hij
  · rw [hnext] at hsince
    cases hsince

end Orderly

theorem orderly_start (c : CatalogCache) (now : Nat) : Orderly (start c now) :=
  ⟨fun _ => ⟨nofun, nofun⟩, rfl, fun _ _ _ h => nomatch h⟩

/-- **Every event keeps the order.** -/
theorem Orderly.after (h : Orderly s) (e : CatalogEvent) : Orderly (s.after e) := by
  cases e with
  | want i w =>
    simp only [SharedCatalog.after]
    split
    · next hi => exact h.turn (congrArg CallerState.holds hi) rfl
    · exact h
  | take i =>
    simp only [SharedCatalog.after]
    split
    · next hholder _ => exact h.take hholder _
    · exact h
  | look i stamp =>
    simp only [SharedCatalog.after]
    split
    · next hi =>
      split
      · exact h.letGo (congrArg CallerState.holds hi) _ (h.inFlight_of_holding hi)
      · exact h.ask hi stamp
    · next hi => exact h.letGo (congrArg CallerState.holds hi) _ (h.inFlight_of_holding hi)
    · exact h
  | answer i registry =>
    simp only [SharedCatalog.after]
    split
    · next hi =>
      have hholds : (s.callers i).holds = true := congrArg CallerState.holds hi
      exact h.letGo hholds _ (h.erase_inFlight hholds)
    · exact h
  | leave i =>
    simp only [SharedCatalog.after]
    split
    · exact h
    · next hi =>
      exact (h.turn (congrArg CallerState.holds hi) rfl).left
        (congrArg CallerState.holds (callers_turn_self s i .idle))
    · next hi =>
      have hholds : (s.callers i).holds = true := congrArg CallerState.holds hi
      exact h.letGo hholds _ (h.erase_inFlight hholds)
    · next hi =>
      have hholds : (s.callers i).holds = true := congrArg CallerState.holds hi
      exact h.letGo hholds _ (h.erase_inFlight hholds)
  | pass time => exact ⟨h.holder, h.flying, h.asked⟩

/-! ## What the cache keeps -/

/-- **What a cache keeps is what its history says**, and so is what callers were given: the catalog of the
last fetch, which is genuine. -/
structure Faithful (c cache : CatalogCache) (history : List CatalogRecord) : Prop where
  kept : cache = { c with kept := (lastFetch? history).map fun f => (f.catalog, f.expiry c) }
  genuine : ∀ f, lastFetch? history = some f → f.Genuine c.bundled
  given : ∀ r earlier, r :: earlier <:+ history → ∀ catalog, r.catalog? = some catalog →
    ∃ f, lastFetch? (r :: earlier) = some f ∧ f.catalog = catalog ∧ f.Genuine c.bundled

variable {c cache : CatalogCache} {history : List CatalogRecord}

/-- A cache that keeps a catalog that is good has it from the last fetch. -/
theorem Faithful.fresh?_eq (h : Faithful c cache history) (now : Nat) :
    cache.fresh? now = (lastFetch? history).bind fun f => if now < f.expiry c then some f.catalog else none := by
  rw [h.kept, CatalogCache.fresh?]
  cases lastFetch? history <;> rfl

/-- What was given before is still as it was; what is given now has to be shown. -/
theorem Faithful.given_cons (h : Faithful c cache history) {now : CatalogRecord}
    (hnow : ∀ catalog, now.catalog? = some catalog →
      ∃ f, lastFetch? (now :: history) = some f ∧ f.catalog = catalog ∧ f.Genuine c.bundled)
    (r : CatalogRecord) (earlier : List CatalogRecord) (hsuffix : r :: earlier <:+ now :: history)
    (catalog : Catalog) (hcatalog : r.catalog? = some catalog) :
    ∃ f, lastFetch? (r :: earlier) = some f ∧ f.catalog = catalog ∧ f.Genuine c.bundled := by
  rcases List.suffix_cons_iff.mp hsuffix with heq | hsuffix
  · cases heq
    exact hnow catalog hcatalog
  · exact h.given r earlier hsuffix catalog hcatalog

/-- What happens leaves a history faithful if it changes neither the cache nor the last fetch, and gives
nobody anything but that. -/
theorem Faithful.note (h : Faithful c cache history) {r : CatalogRecord}
    (hlast : lastFetch? (r :: history) = lastFetch? history)
    (hr : ∀ catalog, r.catalog? = some catalog → ∃ f, lastFetch? history = some f ∧ f.catalog = catalog) :
    Faithful c cache (r :: history) := by
  refine ⟨?_, fun f hf => h.genuine f (hlast ▸ hf), h.given_cons fun catalog hcatalog => ?_⟩
  · rw [hlast]
    exact h.kept
  · obtain ⟨f, hf, hgiven⟩ := hr catalog hcatalog
    exact ⟨f, hlast.trans hf, hgiven, h.genuine f hf⟩

/-- A cache is invalidated. -/
theorem Faithful.invalidate (h : Faithful c cache history) (i : Caller) :
    Faithful c cache.invalidate (.invalidated i :: history) := by
  refine ⟨?_, nofun, h.given_cons nofun⟩
  rw [h.kept]
  rfl

/-- A fetch is completed. -/
theorem Faithful.refresh (h : Faithful c cache history) {i : Caller} {since : Nat}
    (hasked : askedAt? i history = some since) (stamp : Timestamp)
    (registry : Except CatalogError (List Release)) :
    Faithful c (cache.refresh since stamp registry).cache
      (.fetched i registry (cache.refresh since stamp registry).catalog :: history) := by
  have hlast : lastFetch? (.fetched i registry (cache.refresh since stamp registry).catalog :: history) =
      some ⟨since, !registry.isOk, (cache.refresh since stamp registry).catalog⟩ := by
    rw [lastFetch?, hasked]
    rfl
  have hgenuine : PastFetch.Genuine
      ⟨since, !registry.isOk, (cache.refresh since stamp registry).catalog⟩ c.bundled := by
    have hbundled : cache.bundled = c.bundled := by rw [h.kept]
    rw [← hbundled]
    exact cache.genuine_refresh since stamp registry
  refine ⟨?_, fun f hf => ?_, h.given_cons fun catalog hcatalog => ?_⟩
  · rw [hlast, cache.refresh_cache, h.kept]
    rfl
  · rw [hlast] at hf
    cases hf
    exact hgenuine
  · cases hcatalog
    exact ⟨_, hlast, rfl, hgenuine⟩

theorem faithful_start (c : CatalogCache) : Faithful c c.invalidate [] :=
  ⟨rfl, nofun, fun _ _ hsuffix => absurd hsuffix.length_le (Nat.not_succ_le_zero _)⟩

/-- **Every event keeps the cache and its history in step.** -/
theorem Faithful.after (horder : Orderly s) (h : Faithful c s.cache s.history) (e : CatalogEvent) :
    Faithful c (s.after e).cache (s.after e).history := by
  cases e with
  | want i w =>
    simp only [SharedCatalog.after]
    split <;> exact h
  | take i =>
    simp only [SharedCatalog.after]
    split <;> exact h
  | look i stamp =>
    simp only [SharedCatalog.after]
    split
    · split
      · next hfresh =>
        refine h.note rfl fun catalog hcatalog => ?_
        cases hcatalog
        rw [h.fresh?_eq, Option.bind_eq_some_iff] at hfresh
        obtain ⟨f, hf, hgood⟩ := hfresh
        split at hgood
        · exact ⟨f, hf, Option.some.inj hgood⟩
        · cases hgood
      · exact h.note rfl nofun
    · exact h.invalidate i
    · exact h
  | answer i registry =>
    simp only [SharedCatalog.after]
    split
    · next hi => exact h.refresh (horder.asked i _ _ hi) _ registry
    · exact h
  | leave i =>
    simp only [SharedCatalog.after]
    split
    · exact h
    · exact h.note rfl nofun
    · exact h.note rfl nofun
    · exact h.note rfl nofun
  | pass time => exact h

/-! ## Whole histories -/

theorem orderly_run (h : Orderly s) (events : List CatalogEvent) : Orderly (s.run events) := by
  induction events generalizing s with
  | nil => exact h
  | cons e events ih => exact ih (h.after e)

theorem faithful_run (horder : Orderly s) (h : Faithful c s.cache s.history) (events : List CatalogEvent) :
    Faithful c (s.run events).cache (s.run events).history := by
  induction events generalizing s with
  | nil => exact h
  | cons e events ih => exact ih (horder.after e) (h.after horder e)

/-- The registry has to be asked: nothing was fetched since everything was invalidated, or what was fetched
is too old. -/
def Due (c : CatalogCache) (history : List CatalogRecord) (now : Nat) : Prop :=
  lastFetch? history = none ∨ ∃ f, lastFetch? history = some f ∧ f.expiry c ≤ now

/-- What callers may rely on. -/
structure Lawful (c : CatalogCache) (s : SharedCatalog) : Prop where
  /-- A caller that gets to see the cache asks the registry, exactly if it has to be asked. -/
  asks : ∀ i, s.callers i = .holding .catalog → ∀ stamp,
    ((s.after (.look i stamp)).history = .asked i s.now :: s.history ↔ Due c s.history s.now)
  /-- Otherwise it is given what the last fetch brought. -/
  serves : ∀ i, s.callers i = .holding .catalog → ∀ stamp, ¬ Due c s.history s.now →
    ∃ f, lastFetch? s.history = some f ∧
      (s.after (.look i stamp)).history = .served i s.now f.catalog :: s.history
  /-- No two fetches are in flight. -/
  single : (inFlight s.history).length ≤ 1
  /-- Whatever anybody was given is the catalog of the last fetch at that time, and is genuine. -/
  given : ∀ r earlier, r :: earlier <:+ s.history → ∀ catalog, r.catalog? = some catalog →
    ∃ f, lastFetch? (r :: earlier) = some f ∧ f.catalog = catalog ∧ f.Genuine c.bundled
  /-- A caller that nobody disturbs fetches as `CatalogCache.fetch` says, and leaves everybody as they were. -/
  alone : s.holder = none → ∀ i, s.callers i = .idle → ∀ stamp registry,
    s.run [.want i .catalog, .take i, .look i stamp, .answer i registry] =
      { s with
        cache := (s.cache.fetch s.now stamp registry).cache
        history := (if (s.cache.fetch s.now stamp registry).asked
          then [.fetched i registry (s.cache.fetch s.now stamp registry).catalog, .asked i s.now]
          else [.served i s.now (s.cache.fetch s.now stamp registry).catalog]) ++ s.history }

/-- A caller that finds a good catalog is given it, and lets the cache go. -/
theorem after_look_of_fresh (hi : s.callers i = .holding .catalog) {catalog : Catalog}
    (hfresh : s.cache.fresh? s.now = some catalog) {stamp : Timestamp} :
    s.after (.look i stamp) = (s.letGo i s.cache).note (.served i s.now catalog) := by
  simp only [SharedCatalog.after, hi, hfresh]

/-- A caller that finds none asks the registry. -/
theorem after_look_of_stale (hi : s.callers i = .holding .catalog) (hfresh : s.cache.fresh? s.now = none)
    {stamp : Timestamp} :
    s.after (.look i stamp) = (s.turn i (.fetching s.now stamp)).note (.asked i s.now) := by
  simp only [SharedCatalog.after, hi, hfresh]

theorem after_answer {since : Nat} {stamp : Timestamp} (hi : s.callers i = .fetching since stamp)
    (registry : Except CatalogError (List Release)) :
    s.after (.answer i registry) = (s.letGo i (s.cache.refresh since stamp registry).cache).note
      (.fetched i registry (s.cache.refresh since stamp registry).catalog) := by
  simp only [SharedCatalog.after, hi]

theorem due_iff (h : Faithful c cache history) (now : Nat) :
    Due c history now ↔ cache.fresh? now = none := by
  rw [h.fresh?_eq, Due]
  cases lastFetch? history with
  | none => simp
  | some f => simp

theorem asks_iff_due (h : Faithful c s.cache s.history) (hi : s.callers i = .holding .catalog)
    (stamp : Timestamp) :
    (s.after (.look i stamp)).history = .asked i s.now :: s.history ↔ Due c s.history s.now := by
  rw [due_iff h]
  cases hfresh : s.cache.fresh? s.now with
  | none =>
    rw [after_look_of_stale hi hfresh]
    exact ⟨fun _ => rfl, fun _ => rfl⟩
  | some catalog =>
    rw [after_look_of_fresh hi hfresh]
    exact ⟨nofun, nofun⟩

theorem serves_of_not_due (h : Faithful c s.cache s.history) (hi : s.callers i = .holding .catalog)
    (stamp : Timestamp) (hdue : ¬ Due c s.history s.now) :
    ∃ f, lastFetch? s.history = some f ∧
      (s.after (.look i stamp)).history = .served i s.now f.catalog :: s.history := by
  obtain ⟨catalog, hfresh⟩ := Option.ne_none_iff_exists'.mp (mt (due_iff h s.now).mpr hdue)
  obtain ⟨f, hf, hgood⟩ := Option.bind_eq_some_iff.mp ((h.fresh?_eq s.now).symm.trans hfresh)
  split at hgood
  · cases hgood
    exact ⟨f, hf, by rw [after_look_of_fresh hi hfresh]; rfl⟩
  · cases hgood

/-! ## A caller that is alone -/

theorem turn_turn (s : SharedCatalog) (i : Caller) (first second : CallerState) :
    (s.turn i first).turn i second = s.turn i second := by
  have hcallers : (fun j => if j = i then second else (s.turn i first).callers j) =
      fun j => if j = i then second else s.callers j := by
    funext j
    by_cases hij : j = i
    · rw [if_pos hij, if_pos hij]
    · rw [if_neg hij, if_neg hij, callers_turn_of_ne s hij]
  exact congrArg (fun callers => { s with callers }) hcallers

/-- A caller that turns to what it is doing changes nothing. -/
theorem turn_eq_self {next : CallerState} (h : s.callers i = next) : s.turn i next = s := by
  unfold turn
  congr 1
  funext j
  by_cases hij : j = i
  · rw [if_pos hij, hij, h]
  · rw [if_neg hij]

/-- A caller takes a cache that nobody holds. -/
theorem run_take (hholder : s.holder = none) (hidle : s.callers i = .idle) (w : CatalogWish) :
    s.run [.want i w, .take i] = s.take i (.holding w) := by
  have hwant : s.after (.want i w) = s.turn i (.waiting w) := by simp only [SharedCatalog.after, hidle]
  have htake : (s.turn i (.waiting w)).after (.take i) = (s.turn i (.waiting w)).take i (.holding w) := by
    simp only [SharedCatalog.after, callers_turn_self]
    rw [show (s.turn i (.waiting w)).holder = none from hholder]
  show (s.after (.want i w)).after (.take i) = _
  rw [hwant, htake, take, turn_turn]
  rfl

theorem turn_take (s : SharedCatalog) (i : Caller) (first second : CallerState) :
    (s.take i first).turn i second = s.take i second :=
  congrArg (fun t : SharedCatalog => { t with holder := some i }) (turn_turn s i first second)

/-- A caller that took the cache from nobody leaves everybody as they were. -/
theorem letGo_take (hholder : s.holder = none) (hidle : s.callers i = .idle) (busy : CallerState)
    (cache : CatalogCache) : (s.take i busy).letGo i cache = { s with cache } := by
  rw [letGo, turn_take, take, turn_eq_self hidle, ← hholder]

/-- **A caller that nobody disturbs fetches as `CatalogCache.fetch` says**, and leaves everybody else as they
were. -/
theorem run_alone (hholder : s.holder = none) (hidle : s.callers i = .idle) (stamp : Timestamp)
    (registry : Except CatalogError (List Release)) :
    s.run [.want i .catalog, .take i, .look i stamp, .answer i registry] =
      { s with
        cache := (s.cache.fetch s.now stamp registry).cache
        history := (if (s.cache.fetch s.now stamp registry).asked
          then [.fetched i registry (s.cache.fetch s.now stamp registry).catalog, .asked i s.now]
          else [.served i s.now (s.cache.fetch s.now stamp registry).catalog]) ++ s.history } := by
  have hholding : (s.take i (.holding .catalog)).callers i = .holding .catalog := callers_turn_self s i _
  show ((s.run [.want i .catalog, .take i]).after (.look i stamp)).after (.answer i registry) = _
  rw [run_take hholder hidle]
  cases hfresh : s.cache.fresh? s.now with
  | some catalog =>
    have hfetch : s.cache.fetch s.now stamp registry = { catalog, cache := s.cache, asked := false } := by
      rw [CatalogCache.fetch, hfresh]
    -- the answer comes to a caller that has not asked
    rw [after_look_of_fresh hholding hfresh, letGo_take hholder hidle, hfetch]
    simp only [SharedCatalog.after, note, hidle]
    rfl
  | none =>
    have hfetch : s.cache.fetch s.now stamp registry = s.cache.refresh s.now stamp registry := by
      rw [CatalogCache.fetch, hfresh]
    have hasked : (s.cache.refresh s.now stamp registry).asked = true := by cases registry <;> rfl
    have hfetching : ((s.note (.asked i s.now)).take i (.fetching s.now stamp)).callers i =
        .fetching s.now stamp := callers_turn_self (s.note (.asked i s.now)) i _
    rw [after_look_of_stale hholding hfresh, turn_take, hfetch, hasked]
    show ((s.note (.asked i s.now)).take i (.fetching s.now stamp)).after (.answer i registry) = _
    rw [after_answer hfetching, letGo_take (s := s.note (.asked i s.now)) hholder hidle]
    rfl

/-! ## Everything together -/

/-- **A shared catalog over any history.**

For every cache and all events, in whatever order callers come, wait, take the cache and give up, whatever
the registry answers each time and however time passes: a caller that gets to see the cache asks the
registry, exactly if nothing was fetched since everything was last invalidated, or the last fetch was asked
for so long ago that its lifetime is over, which depends on whether it failed. Otherwise the caller is given
the catalog of that fetch. Never are two fetches in flight, and every catalog that anybody is given is that
of the last fetch and features the bundled release alone; it is marked exactly if the registry failed, and
then holds nothing else. A caller that comes while nobody holds the cache, and is not disturbed, fetches as a
single caller does. -/
theorem run_lawful (c : CatalogCache) (now : Nat) (events : List CatalogEvent) :
    Lawful c ((start c now).run events) := by
  have horder := orderly_run (orderly_start c now) events
  have hfaithful := faithful_run (orderly_start c now) (faithful_start c) events
  exact ⟨fun i hi stamp => asks_iff_due hfaithful hi stamp,
    fun i hi stamp => serves_of_not_due hfaithful hi stamp, horder.length_inFlight_le, hfaithful.given,
    fun hholder i hidle stamp registry => run_alone hholder hidle stamp registry⟩

/-- A cache for which catalogs are good for a hundred milliseconds, or for ten if the registry failed. -/
def briefCache : CatalogCache := { bundled := {}, lifetime := 100, fallbackLifetime := 10 }

/-- A date on which callers come. -/
def noon : Timestamp := { seconds := 43200 }

/-- Two callers come; the first one waits for the registry, which fails, and then the second one takes the
cache. -/
def twoCallers : List CatalogEvent :=
  [.want 0 .catalog, .take 0, .look 0 noon, .want 1 .catalog, .take 1, .pass 4, .answer 0 (.error .json),
    .take 1]

theorem run_lawful_twoCallers :
    ((start briefCache 0).run twoCallers).callers 1 = .holding .catalog ∧
      ((start briefCache 0).run twoCallers).history =
        [.fetched 0 (.error .json) (.fallback briefCache.bundled noon), .asked 0 0] ∧
      ((start briefCache 0).run (twoCallers ++ [.look 1 noon])).history =
        [.served 1 4 (.fallback briefCache.bundled noon),
          .fetched 0 (.error .json) (.fallback briefCache.bundled noon), .asked 0 0] := by
  have hholding : ((start briefCache 0).run twoCallers).callers 1 = .holding .catalog := rfl
  have hdue : ¬ Due briefCache ((start briefCache 0).run twoCallers).history
      ((start briefCache 0).run twoCallers).now := by
    rintro (hnone | ⟨f, hf, hexpiry⟩)
    · cases hnone
    · cases hf
      exact absurd hexpiry (by decide)
  obtain ⟨f, hf, hserved⟩ := (run_lawful briefCache 0 twoCallers).serves 1 hholding noon hdue
  cases hf
  exact ⟨hholding, rfl, hserved⟩

end SharedCatalog

end BlockBoard
