import Mathlib.Data.List.DropRight
import BlockBoard.Proofs.Firmware.Catalog
/-!
# Finding a release by its version

A release is asked for by its version or by its tag, which is the version with a letter before it. The letter
is dropped from what is asked for, and was dropped from the tags of the registry, but the settings may give the
bundled release a version that begins with it: such a release is listed, and nobody can ask for it.

- `IsBare`: a version without that letter.
- `Catalog.Offered`: the catalogs that there can be.
- `Catalog.Offered.bare_of_ne`: every version in a catalog is bare, but for the bundled one.
- `Catalog.Offered.find?_bundled`: the first release of the bundled version is the recommended one.
- `Catalog.finds_listed`: **which releases of a catalog can be asked for**.
- `Catalog.tagged_bundle_lost`: a bundled release that cannot.
-/

namespace BlockBoard

/-! ## Bare versions -/

/-- A version that does not begin with the letter of a tag. -/
def IsBare (version : String) : Prop := version.toList.head? ≠ some 'v'

instance (version : String) : Decidable (IsBare version) :=
  inferInstanceAs (Decidable (version.toList.head? ≠ some 'v'))

/-- **A version has nothing to drop exactly if it is bare.** -/
theorem bareVersion_eq_self_iff (version : String) : bareVersion version = version ↔ IsBare version := by
  rw [← String.toList_inj, bareVersion, String.toList_ofList, IsBare]
  cases version.toList with
  | nil => exact iff_of_true rfl nofun
  | cons c r => simp [List.dropWhile_eq_self_iff]

/-- What is left of a version is bare. -/
theorem isBare_bareVersion (version : String) : IsBare (bareVersion version) := by
  rw [← bareVersion_eq_self_iff, ← String.toList_inj, bareVersion, bareVersion, String.toList_ofList,
    String.toList_ofList]
  exact List.dropWhile_idempotent _ _

/-- A tag and its version have the same left. -/
theorem bareVersion_tag (version : String) : bareVersion ("v" ++ version) = bareVersion version := by
  rw [bareVersion, String.toList_append]
  rfl

/-- Releases of a registry have bare versions. -/
theorem RegistryEntry.isBare_release? {pattern : Pattern} {e : RegistryEntry} {r : Release}
    (h : e.release? pattern = some r) : IsBare r.version := by
  unfold release? at h
  split at h
  · cases h
  · obtain ⟨asset, -, rfl⟩ := Option.map_eq_some_iff.mp h
    exact isBare_bareVersion e.tag

namespace Catalog

variable {b : BundledFirmware} {c : Catalog} {r : Release}

/-! ## The catalogs that there can be -/

/-- The catalogs that there can be: with what a registry lists, or without. -/
inductive Offered (b : BundledFirmware) : Catalog → Prop
  | listed (pattern : Pattern) (entries : List RegistryEntry) (fetchedAt : Timestamp) :
      Offered b (ofReleases (entries.filterMap (RegistryEntry.release? pattern)) b fetchedAt)
  | alone (fetchedAt : Timestamp) : Offered b (fallback b fetchedAt)

/-- Marking a release changes no version. -/
theorem versions_mark? {releases marked : List Release} (h : mark? b releases = some marked) :
    marked.map Release.version = releases.map Release.version := by
  obtain ⟨before, r, after, rfl, -, -, rfl⟩ := exists_split_mark? h
  rw [List.map_append, List.map_append]
  rfl

/-- The first release of the bundled version is the one that is marked, if all were plain before. -/
theorem find?_mark? {releases marked : List Release} (h : mark? b releases = some marked)
    (hplain : ∀ r ∈ releases, IsPlain r) :
    marked.find? (·.version == b.version) = marked.find? (·.isRecommended) := by
  obtain ⟨before, r, after, rfl, hr, hbefore, rfl⟩ := exists_split_mark? h
  have hversion : ∀ q ∈ before, ¬ (q.version == b.version) = true := by
    rintro q hq hsame
    exact hbefore q hq (eq_of_beq hsame)
  have hflag : ∀ q ∈ before, ¬ q.isRecommended = true := by
    rintro q hq hrecommended
    have hfalse := (hplain q (List.mem_append_left _ hq)).2
    rw [hrecommended] at hfalse
    cases hfalse
  have hmarked : ((atHand b r).version == b.version) = true := beq_iff_eq.mpr hr
  rw [List.find?_append, List.find?_append, List.find?_eq_none.mpr hversion, List.find?_eq_none.mpr hflag]
  show (none.or _) = none.or (some (atHand b r))
  rw [List.find?_cons, hmarked]

namespace Offered

/-- **Every version in a catalog is bare, but for the bundled one.** -/
theorem bare_of_ne (h : c.Offered b) (hr : r ∈ c.releases) (hne : r.version ≠ b.version) :
    IsBare r.version := by
  cases h with
  | alone fetchedAt =>
    obtain rfl := List.mem_singleton.mp hr
    exact absurd rfl hne
  | listed pattern entries fetchedAt =>
    have hversion : r.version = b.version ∨
        r.version ∈ (entries.filterMap (RegistryEntry.release? pattern)).map Release.version := by
      have hmem : r.version ∈ (ofReleases (entries.filterMap (RegistryEntry.release? pattern)) b
          fetchedAt).releases.map Release.version := List.mem_map_of_mem hr
      unfold ofReleases at hmem
      dsimp only at hmem
      cases hmark : mark? b ((entries.filterMap (RegistryEntry.release? pattern)).map plain) with
      | none =>
        rw [hmark, Option.getD_none, List.map_cons, List.map_map] at hmem
        exact List.mem_cons.mp hmem
      | some marked =>
        rw [hmark, Option.getD_some, versions_mark? hmark, List.map_map] at hmem
        exact .inr hmem
    rcases hversion with hsame | hmem
    · exact absurd hsame hne
    · obtain ⟨q, hq, hsame⟩ := List.mem_map.mp hmem
      obtain ⟨e, -, he⟩ := List.mem_filterMap.mp hq
      rw [← hsame]
      exact RegistryEntry.isBare_release? he

/-- **The first release of the bundled version is the recommended one.** -/
theorem find?_bundled (h : c.Offered b) :
    c.releases.find? (·.version == b.version) = c.recommended? := by
  cases h with
  | alone fetchedAt => exact List.find?_cons_of_pos (beq_self_eq_true b.version)
  | listed pattern entries fetchedAt =>
    unfold recommended? ofReleases
    dsimp only
    generalize entries.filterMap (RegistryEntry.release? pattern) = releases
    cases hmark : mark? b (releases.map plain) with
    | none => exact List.find?_cons_of_pos (beq_self_eq_true b.version)
    | some marked =>
      refine find?_mark? hmark ?_
      intro r hr
      obtain ⟨q, -, rfl⟩ := List.mem_map.mp hr
      exact isPlain_plain q

/-- Every catalog recommends a release, of the bundled version. -/
theorem recommends (h : c.Offered b) : ∃ r, c.recommended? = some r ∧ r.version = b.version := by
  obtain ⟨r, hr⟩ : ∃ r, c.Features b r := by
    cases h with
    | alone fetchedAt => exact ⟨_, features_fallback b fetchedAt⟩
    | listed pattern entries fetchedAt => exact features_ofReleases _ b fetchedAt
  refine ⟨r, ?_, hr.version⟩
  rw [recommended?, ← List.head?_filter, hr.recommended]
  rfl

end Offered

/-! ## Asking for a release -/

/-- A release is asked for, by its version and by its tag alike, and one of its version is found. -/
def Finds (c : Catalog) (r : Release) : Prop :=
  ∃ q, c.find? r.version = some q ∧ c.find? ("v" ++ r.version) = some q ∧ q.version = r.version

theorem find?_tag (c : Catalog) (version : String) : c.find? ("v" ++ version) = c.find? version := by
  rw [find?, bareVersion_tag]
  rfl

/-- What is found has what is left of the version that is asked for. -/
theorem version_of_find? {version : String} (h : c.find? version = some r) :
    r.version = bareVersion version := by
  have hversion := List.find?_some h
  exact eq_of_beq hversion

theorem isBare_of_find? {version : String} (h : c.find? version = some r) : IsBare r.version := by
  rw [version_of_find? h]
  exact isBare_bareVersion version

/-- **A release that is listed is found exactly if its version is bare.** -/
theorem finds_iff (hr : r ∈ c.releases) : c.Finds r ↔ IsBare r.version := by
  constructor
  · rintro ⟨q, hq, -, hversion⟩
    rw [← hversion]
    exact isBare_of_find? hq
  · intro hbare
    have hsome : (c.find? r.version).isSome = true := by
      rw [find?, (bareVersion_eq_self_iff _).mpr hbare, List.find?_isSome]
      exact ⟨r, hr, beq_self_eq_true _⟩
    obtain ⟨q, hq⟩ := Option.isSome_iff_exists.mp hsome
    refine ⟨q, hq, ?_, ?_⟩
    · rw [find?_tag, hq]
    · rw [version_of_find? hq, (bareVersion_eq_self_iff _).mpr hbare]

/-- **Which releases of a catalog can be asked for.**

Whatever the settings say of the bundled release, and whatever the registry lists: a release that is listed is
found by its version and by its tag exactly if its version does not begin with the letter of a tag, and that
can only be so of the bundled version. If that is bare, the recommended release itself is found by it; if not,
nothing that is asked for gives a release of that version. -/
theorem finds_listed (h : c.Offered b) :
    (∀ r ∈ c.releases, c.Finds r ↔ IsBare r.version) ∧
    (∀ r ∈ c.releases, r.version ≠ b.version → IsBare r.version) ∧
    ∃ r ∈ c.releases, c.recommended? = some r ∧ r.version = b.version ∧
      (IsBare b.version → c.find? b.version = some r ∧ c.find? ("v" ++ b.version) = some r) ∧
      (¬ IsBare b.version → ∀ version q, c.find? version = some q → q.version ≠ b.version) := by
  obtain ⟨r, hr, hversion⟩ := h.recommends
  refine ⟨fun r hr => finds_iff hr, fun r hr => h.bare_of_ne hr, r, List.mem_of_find?_eq_some hr, hr, hversion,
    ?_, ?_⟩
  · intro hbare
    have hfound : c.find? b.version = some r := by
      rw [find?, (bareVersion_eq_self_iff _).mpr hbare, h.find?_bundled, hr]
    exact ⟨hfound, (c.find?_tag _).trans hfound⟩
  · rintro htagged version q hq hsame
    have hbare := isBare_of_find? hq
    rw [hsame] at hbare
    exact htagged hbare

/-- A registry that lists a release with one letter before its version, another with two, and a draft. -/
def taggedEntries : List RegistryEntry :=
  [{ tag := "v1.25.0", assets := [⟨"board.bin", "https://dl.invalid/1.25.0", 8400000⟩] },
    { tag := "v1.26.0", draft := true, assets := [⟨"board.bin", "https://dl.invalid/1.26.0", 1⟩] },
    { tag := "vv1.24.1", assets := [⟨"notes.txt", "", 9⟩, ⟨"board.bin", "https://dl.invalid/1.24.1", 7⟩] }]

theorem finds_listed_tagged :
    let c := ofReleases (taggedEntries.filterMap (RegistryEntry.release? (.oneOf (.single 'b')))) {}
      { seconds := 0 }
    c.releases.map Release.version = ["1.25.0", "1.24.1"] ∧ IsBare "1.24.1" ∧
      (∀ r ∈ c.releases, c.Finds r) ∧
      ∃ r, c.recommended? = some r ∧ r.isBundled = true ∧ c.find? "1.24.1" = some r ∧
        c.find? "v1.24.1" = some r := by
  intro c
  have hoffered : c.Offered {} := .listed _ _ _
  have hversions : c.releases.map Release.version = ["1.25.0", "1.24.1"] := by decide +kernel
  obtain ⟨hfinds, -, r, -, hr, -, hbare, -⟩ := finds_listed hoffered
  obtain ⟨hfound, htagged⟩ := hbare (by decide)
  refine ⟨hversions, by decide, fun q hq => (hfinds q hq).mpr ?_, r, hr, ?_, hfound, htagged⟩
  · have hmem : q.version ∈ ["1.25.0", "1.24.1"] := hversions ▸ List.mem_map_of_mem hq
    simp only [List.mem_cons, List.not_mem_nil, or_false] at hmem
    rcases hmem with h | h <;> rw [h] <;> decide
  · have hflag : c.recommended?.map Release.isBundled = some true := by decide +kernel
    rw [hr] at hflag
    exact Option.some_inj.mp hflag

/-- **A bundled release whose version begins with the letter of a tag is listed and cannot be asked for**,
neither by its version nor by its tag. -/
theorem tagged_bundle_lost :
    let b : BundledFirmware := { version := "v1.24.1" }
    let c := fallback b { seconds := 0 }
    c.Offered b ∧ c.releases = [.ofBundled b] ∧ c.recommended? = some (.ofBundled b) ∧
      c.find? "v1.24.1" = none ∧ c.find? "vv1.24.1" = none ∧ ¬ c.Finds (.ofBundled b) := by
  intro b c
  have hlost : c.find? "v1.24.1" = none := by decide +kernel
  refine ⟨.alone _, rfl, rfl, hlost, by decide +kernel, ?_⟩
  rintro ⟨q, hq, -, -⟩
  have hfound : c.find? "v1.24.1" = some q := hq
  rw [hlost] at hfound
  cases hfound

end Catalog

end BlockBoard
