import BlockBoard.Firmware.Catalog
/-!
# The release that a catalog features

The bundled release is at hand and recommended, in every catalog and whatever the registry lists: it may
list the version with flags of its own, not at all, or more than once.

- `Catalog.Features`: one release is at hand and recommended, and no other is either.
- `Catalog.exists_split_mark?`: marking changes the first release of the bundled version.
- `Catalog.ofReleases_split`: where the featured release stands among the others.
- `Catalog.features_ofReleases`, `Catalog.features_fallback`: **every catalog features one release**.
-/

namespace BlockBoard

namespace Catalog

/-- One release of a catalog is at hand and recommended, and no other is either; its image is the bundled
one. -/
structure Features (c : Catalog) (b : BundledFirmware) (r : Release) : Prop where
  bundled : c.releases.filter (·.isBundled) = [r]
  recommended : c.releases.filter (·.isRecommended) = [r]
  version : r.version = b.version
  source : r.source = .bundled b.path
  size : r.size = b.size.toNat

/-- A release that is neither at hand nor recommended. -/
def IsPlain (r : Release) : Prop := r.isBundled = false ∧ r.isRecommended = false

theorem isPlain_plain (r : Release) : IsPlain (plain r) := ⟨rfl, rfl⟩

/-- Marking changes the first release of the bundled version, and no other. -/
theorem exists_split_mark? {b : BundledFirmware} {releases marked : List Release}
    (h : mark? b releases = some marked) :
    ∃ before r after, releases = before ++ r :: after ∧ r.version = b.version ∧
      (∀ q ∈ before, q.version ≠ b.version) ∧ marked = before ++ atHand b r :: after := by
  induction releases generalizing marked with
  | nil => cases h
  | cons r rest ih =>
    rw [mark?] at h
    by_cases hversion : r.version = b.version
    · rw [if_pos hversion] at h
      cases h
      exact ⟨[], r, rest, rfl, hversion, fun _ hmem => absurd hmem List.not_mem_nil, rfl⟩
    · rw [if_neg hversion] at h
      obtain ⟨marked', hmarked, rfl⟩ := Option.map_eq_some_iff.mp h
      obtain ⟨before, r', after, rfl, hr, hbefore, rfl⟩ := ih hmarked
      exact ⟨r :: before, r', after, rfl, hr, List.forall_mem_cons.mpr ⟨hversion, hbefore⟩, rfl⟩

/-- **Where the featured release stands**: among plain ones, in the place of the first release of its
version, or else before all of them. -/
theorem ofReleases_split (releases : List Release) (b : BundledFirmware) (fetchedAt : Timestamp) :
    ∃ before r after, (ofReleases releases b fetchedAt).releases = before ++ r :: after ∧
      (∀ q ∈ before ++ after, IsPlain q) ∧ r.isBundled = true ∧ r.isRecommended = true ∧
      r.version = b.version ∧ r.source = .bundled b.path ∧ r.size = b.size.toNat := by
  have hplain : ∀ q ∈ releases.map plain, IsPlain q := by
    intro q hq
    obtain ⟨r, -, rfl⟩ := List.mem_map.mp hq
    exact isPlain_plain r
  unfold ofReleases
  dsimp only
  cases hmark : mark? b (releases.map plain) with
  | none => exact ⟨[], .ofBundled b, releases.map plain, rfl, hplain, rfl, rfl, rfl, rfl, rfl⟩
  | some marked =>
    obtain ⟨before, r, after, hsplit, hversion, -, rfl⟩ := exists_split_mark? hmark
    refine ⟨before, atHand b r, after, rfl, fun q hq => hplain q ?_, rfl, rfl, hversion, rfl, rfl⟩
    rw [hsplit]
    rcases List.mem_append.mp hq with hq | hq
    · exact List.mem_append_left _ hq
    · exact List.mem_append_right _ (List.mem_cons_of_mem r hq)

/-- A flag that only one release of a list has picks it out. -/
theorem filter_eq_singleton {flag : Release → Bool} {before after : List Release} {r : Release}
    (hother : ∀ q ∈ before ++ after, flag q = false) (h : flag r = true) :
    (before ++ r :: after).filter flag = [r] := by
  have hnone : ∀ l : List Release, (∀ q ∈ l, flag q = false) → l.filter flag = [] := fun l hl =>
    List.filter_eq_nil_iff.mpr fun q hq => by simp [hl q hq]
  rw [List.filter_append, List.filter_cons_of_pos h,
    hnone before fun q hq => hother q (List.mem_append_left _ hq),
    hnone after fun q hq => hother q (List.mem_append_right _ hq)]
  rfl

/-- **A catalog with the releases of the registry features one release**, whatever they are. -/
theorem features_ofReleases (releases : List Release) (b : BundledFirmware) (fetchedAt : Timestamp) :
    ∃ r, (ofReleases releases b fetchedAt).Features b r := by
  obtain ⟨before, r, after, hsplit, hplain, hbundled, hrecommended, hversion, hsource, hsize⟩ :=
    ofReleases_split releases b fetchedAt
  refine ⟨r, ?_, ?_, hversion, hsource, hsize⟩
  · rw [hsplit]
    exact filter_eq_singleton (fun q hq => (hplain q hq).1) hbundled
  · rw [hsplit]
    exact filter_eq_singleton (fun q hq => (hplain q hq).2) hrecommended

/-- **A catalog without the registry features the only release in it.** -/
theorem features_fallback (b : BundledFirmware) (fetchedAt : Timestamp) :
    (fallback b fetchedAt).Features b (.ofBundled b) := ⟨rfl, rfl, rfl, rfl, rfl⟩

end Catalog

end BlockBoard
