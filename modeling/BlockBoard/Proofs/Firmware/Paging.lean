import Mathlib.Data.List.Nodup
import BlockBoard.Firmware.Registry
import BlockBoard.Proofs.Number.Digits
/-!
# Reading a registry page by page

A registry has a list of entries, of which it shows a page at a time. Pages are asked for until one is not full,
or until there were enough; entries that stand for no release count for that like any others. What comes out is
made of the beginning of the list, whatever its length has to do with that of a page.

- `HttpAnswer.Lists`, `HttpAnswer.Fails`: what an answer can be, each told from its status and its body.
- `Registry.pageOf`, `Registry.pagesFor`: a page of a list, and how many are needed.
- `Registry.fetchFrom_lists`, `Registry.fetchFrom_fails`: pages from any one on, by induction on their number.
- `Registry.fetch_pages`: **paging loses nothing, and brings nothing twice**; what fails is all there is.
-/

namespace BlockBoard

/-! ## Answers -/

namespace HttpAnswer

/-- The entries that the body of an answer is a document of. -/
def entries? (a : HttpAnswer) : Option (List RegistryEntry) :=
  (Json.ofText? (utf8Text a.body)).bind RegistryEntry.ofPage?

/-- An answer that lists entries: a success, with a document of them. -/
def Lists (a : Option HttpAnswer) (entries : List RegistryEntry) : Prop :=
  ∃ answer, a = some answer ∧ (200 ≤ answer.status ∧ answer.status < 300) ∧ answer.entries? = some entries

/-- An answer that lists nothing, and why. -/
inductive Fails : Option HttpAnswer → CatalogError → Prop
  | unreachable : Fails none .http
  | refused {answer : HttpAnswer} (hstatus : ¬ (200 ≤ answer.status ∧ answer.status < 300)) :
      Fails (some answer)
        (.status answer.status (String.ofList ((utf8Chars answer.body).take Registry.shownBody)))
  | unreadable {answer : HttpAnswer} (hstatus : 200 ≤ answer.status ∧ answer.status < 300)
      (hbody : answer.entries? = none) : Fails (some answer) .json

theorem Lists.entriesOf_eq {a : Option HttpAnswer} {entries : List RegistryEntry} (h : Lists a entries) :
    Registry.entriesOf a = .ok entries := by
  obtain ⟨answer, rfl, hstatus, hbody⟩ := h
  rw [entries?] at hbody
  rw [Registry.entriesOf, isSuccess, if_pos (decide_eq_true hstatus), hbody]

theorem Fails.entriesOf_eq {a : Option HttpAnswer} {e : CatalogError} (h : Fails a e) :
    Registry.entriesOf a = .error e := by
  cases h with
  | unreachable => rfl
  | refused hstatus =>
    rw [Registry.entriesOf, isSuccess, if_neg (by simpa using hstatus)]
  | unreadable hstatus hbody =>
    rw [entries?] at hbody
    rw [Registry.entriesOf, isSuccess, if_pos (decide_eq_true hstatus), hbody]

end HttpAnswer

namespace Registry

open HttpAnswer (Lists Fails)

/-! ## Pages -/

/-- The entries of a list on one of its pages; pages are counted from one. -/
def pageOf (perPage : Nat) (l : List RegistryEntry) (page : Nat) : List RegistryEntry :=
  (l.take (page * perPage)).drop ((page - 1) * perPage)

/-- How many pages of a list are asked for: up to one that is not full, and at most so many. -/
def pagesFor (r : Registry) (l : List RegistryEntry) : Nat := min r.maxPages (l.length / r.perPage + 1)

/-- The requests for a number of pages. -/
def requests (r : Registry) (pages : Nat) : List HttpQuery := (List.range' 1 pages).map r.query

theorem pageOf_succ (perPage : Nat) (l : List RegistryEntry) (i : Nat) :
    pageOf perPage l (i + 1) = (l.drop (i * perPage)).take perPage := by
  rw [pageOf, Nat.add_sub_cancel, List.drop_take, Nat.succ_mul, Nat.add_sub_cancel_left]

/-- A number in a text can be told from it. -/
theorem decimalText_injective : Function.Injective decimalText := by
  intro m n h
  have hdigits : Nat.toDigits 10 m = Nat.toDigits 10 n := String.ofList_injective h
  rw [← digitsValue_toDigits m, hdigits, digitsValue_toDigits]

/-- Different pages are asked for at different places. -/
theorem query_injective (r : Registry) : Function.Injective r.query := by
  intro m n h
  have hurl : r.pageUrl m = r.pageUrl n := congrArg HttpQuery.url h
  refine decimalText_injective ?_
  simpa [pageUrl, ← String.toList_inj] using hurl

/-- **No page is asked for twice.** -/
theorem nodup_requests (r : Registry) (pages : Nat) : (r.requests pages).Nodup :=
  List.Nodup.map r.query_injective List.nodup_range'

/-! ## One page more -/

section

variable {r : Registry} {service : HttpService} {page : Nat} {entries : List RegistryEntry}

/-- A full page is followed by the rest. -/
theorem fetchFrom_succ_of_full (h : Lists (service (r.query page)) entries)
    (hfull : r.perPage ≤ entries.length) (hpos : 0 < r.perPage) (left : Nat) :
    r.fetchFrom service page (left + 1) =
      ((r.fetchFrom service (page + 1) left).1.map (r.releasesOf entries ++ ·),
        r.query page :: (r.fetchFrom service (page + 1) left).2) := by
  have hempty : entries.isEmpty = false := by
    cases entries with
    | nil => exact absurd hfull (Nat.not_le.mpr hpos)
    | cons entry rest => rfl
  have hnext : ¬ (entries.isEmpty || decide (entries.length < r.perPage)) = true := by
    rw [hempty, Bool.false_or, decide_eq_true_eq, Nat.not_lt]
    exact hfull
  rw [fetchFrom]
  dsimp only
  rw [h.entriesOf_eq]
  exact if_neg hnext

/-- A page that is not full is the last one. -/
theorem fetchFrom_succ_of_short (h : Lists (service (r.query page)) entries)
    (hshort : entries.length < r.perPage) (left : Nat) :
    r.fetchFrom service page (left + 1) = (.ok (r.releasesOf entries), [r.query page]) := by
  rw [fetchFrom]
  dsimp only
  rw [h.entriesOf_eq]
  exact if_pos (by rw [decide_eq_true hshort, Bool.or_true])

/-- A page that fails is the last one, too. -/
theorem fetchFrom_succ_of_fails {e : CatalogError} (h : Fails (service (r.query page)) e) (left : Nat) :
    r.fetchFrom service page (left + 1) = (.error e, [r.query page]) := by
  rw [fetchFrom]
  dsimp only
  rw [h.entriesOf_eq]

end

/-! ## All pages -/

variable {r : Registry} {service : HttpService}

/-- After a full page, one page less of the rest is needed. -/
theorem length_div_of_full {perPage : Nat} {l : List RegistryEntry} (hpos : 0 < perPage)
    (hfull : perPage ≤ l.length) : l.length / perPage = (l.drop perPage).length / perPage + 1 := by
  rw [List.length_drop, Nat.div_eq_sub_div hpos hfull]

/-- Some pages from any one on are answered with what is on them. -/
def ListsPages (r : Registry) (service : HttpService) (page : Nat) (l : List RegistryEntry)
    (pages : Nat) : Prop :=
  ∀ i < pages, Lists (service (r.query (page + i))) ((l.drop (i * r.perPage)).take r.perPage)

/-- The first page has the beginning of the list on it, and the others are pages of the rest. -/
theorem ListsPages.split {page pages : Nat} {l : List RegistryEntry}
    (h : r.ListsPages service page l (pages + 1)) :
    Lists (service (r.query page)) (l.take r.perPage) ∧
      r.ListsPages service (page + 1) (l.drop r.perPage) pages := by
  constructor
  · have hfirst := h 0 (Nat.succ_pos pages)
    rwa [Nat.add_zero, Nat.zero_mul, List.drop_zero] at hfirst
  · intro i hi
    have hnext := h (i + 1) (Nat.succ_lt_succ hi)
    rwa [← Nat.add_assoc, Nat.add_right_comm, Nat.succ_mul, Nat.add_comm (i * r.perPage),
      ← List.drop_drop] at hnext

/-- **Pages from any one on that all list what is on them.** -/
theorem fetchFrom_lists (hpos : 0 < r.perPage) {left page : Nat} {l : List RegistryEntry}
    (h : r.ListsPages service page l (min left (l.length / r.perPage + 1))) :
    r.fetchFrom service page left = (.ok (r.releasesOf (l.take (r.perPage * left))),
      (List.range' page (min left (l.length / r.perPage + 1))).map r.query) := by
  induction left generalizing page l with
  | zero => rw [Nat.zero_min, Nat.mul_zero]; rfl
  | succ left ih =>
    rw [Nat.add_min_add_right] at h ⊢
    obtain ⟨hfirst, hrest⟩ := h.split
    by_cases hshort : l.length < r.perPage
    · -- the page holds all that is left
      have hall : l.take r.perPage = l := List.take_of_length_le (Nat.le_of_lt hshort)
      have hmost : l.length ≤ r.perPage * (left + 1) := by rw [Nat.mul_succ]; omega
      rw [hall] at hfirst
      rw [fetchFrom_succ_of_short hfirst hshort, List.take_of_length_le hmost, Nat.div_eq_of_lt hshort,
        Nat.min_zero]
      rfl
    · have hfull : r.perPage ≤ l.length := Nat.not_lt.mp hshort
      have hlength : (l.take r.perPage).length = r.perPage := List.length_take_of_le hfull
      rw [length_div_of_full hpos hfull] at hrest ⊢
      rw [fetchFrom_succ_of_full hfirst hlength.ge hpos, ih hrest, List.range'_succ, List.map_cons,
        Nat.mul_succ, Nat.add_comm (r.perPage * left), List.take_add]
      show (Except.ok (r.releasesOf _ ++ r.releasesOf _), _) = _
      rw [releasesOf, releasesOf, releasesOf, List.filterMap_append]

/-- **Pages from any one on, of which one fails.** -/
theorem fetchFrom_fails (hpos : 0 < r.perPage) {k left page : Nat} {l : List RegistryEntry}
    {e : CatalogError} (hk : k < min left (l.length / r.perPage + 1)) (h : r.ListsPages service page l k)
    (hfails : Fails (service (r.query (page + k))) e) :
    r.fetchFrom service page left = (.error e, (List.range' page (k + 1)).map r.query) := by
  obtain ⟨left, rfl⟩ : ∃ n, left = n + 1 := Nat.exists_eq_add_one.mpr (by omega)
  rw [Nat.add_min_add_right] at hk
  induction k generalizing left page l with
  | zero =>
    rw [Nat.add_zero] at hfails
    rw [fetchFrom_succ_of_fails hfails]
    rfl
  | succ k ih =>
    obtain ⟨hfirst, hrest⟩ := h.split
    have hfull : r.perPage ≤ l.length := by
      by_contra hshort
      rw [Nat.div_eq_of_lt (Nat.not_le.mp hshort)] at hk
      omega
    have hlength : (l.take r.perPage).length = r.perPage := List.length_take_of_le hfull
    rw [length_div_of_full hpos hfull] at hk
    obtain ⟨left, rfl⟩ : ∃ n, left = n + 1 := Nat.exists_eq_add_one.mpr (by omega)
    have hlater := ih hrest (by rwa [Nat.add_right_comm]) left (by omega)
    rw [fetchFrom_succ_of_full hfirst hlength.ge hpos, hlater]
    rfl

/-- **Paging loses nothing, and brings nothing twice.**

For every list of a registry and every length of a page: if all pages that are needed are answered with what is
on them, the releases are those of as many entries as were wished for at most, in order, after one request for
each page up to the first one that is not full, at most so many. If one of them fails, the answer is why, after
the requests up to it. No page is asked for twice. -/
theorem fetch_pages (r : Registry) (service : HttpService) (l : List RegistryEntry) (hpos : 0 < r.perPage) :
    ((∀ page, 1 ≤ page → page ≤ r.pagesFor l →
        Lists (service (r.query page)) (pageOf r.perPage l page)) →
      r.fetch service =
        (.ok (r.releasesOf (l.take (r.perPage * r.maxPages))), r.requests (r.pagesFor l))) ∧
    (∀ page e, 1 ≤ page → page ≤ r.pagesFor l →
      (∀ earlier, 1 ≤ earlier → earlier < page →
        Lists (service (r.query earlier)) (pageOf r.perPage l earlier)) →
      Fails (service (r.query page)) e → r.fetch service = (.error e, r.requests page)) ∧
    ∀ pages, (r.requests pages).Nodup ∧ (r.requests pages).length = pages := by
  refine ⟨fun h => ?_, fun page e hpage hneeded h hfails => ?_, fun pages => ⟨r.nodup_requests pages, ?_⟩⟩
  · refine fetchFrom_lists hpos fun i hi => ?_
    have hlists := h (i + 1) (by omega) hi
    rwa [pageOf_succ, Nat.add_comm] at hlists
  · obtain ⟨k, rfl⟩ : ∃ k, page = k + 1 := Nat.exists_eq_add_one.mpr hpage
    refine fetchFrom_fails hpos hneeded (fun i hi => ?_) (by rwa [Nat.add_comm])
    have hlists := h (i + 1) (by omega) (by omega)
    rwa [pageOf_succ, Nat.add_comm] at hlists
  · rw [requests, List.length_map, List.length_range']

/-- A registry that shows two entries at a time. -/
def pairwise : Registry where
  apiBase := "https://registry.invalid"
  repository := "board/firmware"
  pattern := .oneOf (.single 'b')
  perPage := 2
  maxPages := 5

/-- A draft, and two releases. -/
def threeEntries : List RegistryEntry :=
  [{ tag := "v3", draft := true }, { tag := "v2", assets := [⟨"b", "/2", 20⟩] },
    { tag := "v1", assets := [⟨"b", "/1", 10⟩] }]

/-- The documents of their two pages. -/
def firstDocument : String :=
  "[\x7b\"tag_name\":\"v3\",\"draft\":true\x7d,\x7b\"tag_name\":\"v2\",\"assets\":" ++
    "[\x7b\"name\":\"b\",\"browser_download_url\":\"/2\",\"size\":20\x7d]\x7d]"

def secondDocument : String :=
  "[\x7b\"tag_name\":\"v1\",\"assets\":" ++
    "[\x7b\"name\":\"b\",\"browser_download_url\":\"/1\",\"size\":10\x7d]\x7d]"

/-- A service that shows the first page, and answers everything else in one way. -/
def pairwiseService (other : Option HttpAnswer) : HttpService := fun q =>
  if q = pairwise.query 1 then some ⟨200, utf8 firstDocument⟩ else other

theorem fetch_pages_pairwise :
    (pairwise.fetch (pairwiseService (some ⟨200, utf8 secondDocument⟩)) =
      (.ok (pairwise.releasesOf threeEntries), pairwise.requests 2)) ∧
    (pairwise.releasesOf threeEntries).map Release.version = ["2", "1"] ∧
    pairwise.fetch (pairwiseService (some ⟨503, utf8 "down"⟩)) =
      (.error (.status 503 "down"), pairwise.requests 2) := by
  have hfirst (other : Option HttpAnswer) : Lists (pairwiseService other (pairwise.query 1))
      (pageOf pairwise.perPage threeEntries 1) :=
    ⟨⟨200, utf8 firstDocument⟩, if_pos rfl, by decide, by decide +kernel⟩
  have hsecond (other : Option HttpAnswer) : pairwiseService other (pairwise.query 2) = other :=
    if_neg (by decide +kernel)
  refine ⟨?_, by decide +kernel, ?_⟩
  · obtain ⟨hlists, -, -⟩ := fetch_pages pairwise (pairwiseService (some ⟨200, utf8 secondDocument⟩))
      threeEntries (by decide)
    refine hlists fun page hpage hneeded => ?_
    obtain rfl | rfl : page = 1 ∨ page = 2 := by
      have htwo : pairwise.pagesFor threeEntries = 2 := by decide
      omega
    · exact hfirst _
    · rw [hsecond]
      exact ⟨_, rfl, by decide, by decide +kernel⟩
  · obtain ⟨-, hfails, -⟩ := fetch_pages pairwise (pairwiseService (some ⟨503, utf8 "down"⟩)) threeEntries
      (by decide)
    refine hfails 2 _ (by decide) (by decide) (fun page hpage hearlier => ?_) ?_
    · obtain rfl : page = 1 := by omega
      exact hfirst _
    · rw [hsecond]
      have hbody : String.ofList ((utf8Chars (utf8 "down")).take shownBody) = "down" := by decide +kernel
      have hrefused : Fails (some ⟨503, utf8 "down"⟩) (.status 503 _) := .refused (by decide)
      rwa [hbody] at hrefused

end Registry

end BlockBoard
