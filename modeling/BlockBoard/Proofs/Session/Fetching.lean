import BlockBoard.Firmware.Image
import BlockBoard.Proofs.Firmware.Transfer
import BlockBoard.Proofs.Loader.Progress
import BlockBoard.Proofs.Session.Refusing
/-!
# Images that were fetched

The size of an image is checked three times: when the image is fetched, as the first step of its flash, and once
more when all of it was written. A check of sizes is a threshold, and the three are the same one, so that no
flash of an image that was fetched ends over its size, least of all half-way.

- `fetchImage_ok`: an image that was fetched has passed.
- `Flash.Job.counts`: what a flash checks against the declared size, and `Flash.Job.counts_eq`: what that is.
- `flash_of_transfer`: a flash ends over its size only if one of these counts does not pass.
- `Conduct.flash_of_transfer`: a session answers with sizes only if its flash does.
- `verifyTransferSize_threshold`: **a check of sizes is a threshold that the declared size reaches**, and what was
  fetched with it can be flashed with it.
-/

namespace BlockBoard

/-- An image that was fetched has passed. -/
theorem fetchImage_ok {store : ImageStore} {r : Release} {ratio : Binary64} {image : List UInt8}
    (h : fetchImage store r ratio = .ok image) : verifyTransferSize image.length r.size ratio = .ok () := by
  unfold fetchImage at h
  rcases hread : store.read r.source with e | bs
  · rw [hread] at h
    cases h
  · rw [hread] at h
    have h : (verifyTransferSize bs.length r.size ratio >>= fun _ => pure bs) = .ok image := h
    rcases hverdict : verifyTransferSize bs.length r.size ratio with e | _
    · rw [hverdict] at h
      cases h
    · rw [hverdict] at h
      cases h
      exact hverdict

/-! ## The checks of a flash -/

namespace Flash

/-- What a step checks against the declared size. -/
def Action.count? : Action → Option Nat
  | .verify actual => some actual
  | _ => none

/-- What a flash checks against the declared size, in order. -/
def Job.counts (j : Job) : List Nat := j.plan.filterMap fun s => s.action.count?

/-- A flash checks its image, and then what its blocks held. -/
theorem Job.counts_eq (j : Job) : j.counts = [j.image.length, j.image.length] := by
  have hblocks : (j.blocks.zipIdx.flatMap j.blockSteps).filterMap (fun s => s.action.count?) = [] := by
    rw [List.filterMap_eq_nil_iff]
    intro s hs
    obtain ⟨b, -, hs⟩ := List.mem_flatMap.mp hs
    simp only [Job.blockSteps, List.mem_cons, List.not_mem_nil, or_false] at hs
    rcases hs with rfl | rfl
    · rfl
    · rfl
  rw [counts, plan, List.filterMap_append, List.filterMap_append, hblocks]
  rfl

variable {σ : Type} [Transport σ] {j : Job} {cancelled : σ → Bool}

/-- A step that ends over sizes has checked a count that does not pass. -/
theorem Step.count_of_transfer {s : Step} {r r' : Run σ} {e : TransferError}
    (h : (s.take j cancelled).outcome r = (.error (.transfer e), r')) :
    ∃ n, s.action.count? = some n ∧
      verifyTransferSize n j.expected j.settings.minTransferRatio = .error e := by
  rw [Step.outcome_take] at h
  split at h
  · cases h
  · have hfails := s.action.perform_failsOnly j cancelled r _ (congrArg Prod.fst h)
    cases haction : s.action with
    | verify actual =>
      rw [haction, outcome_verify] at h
      split at h
      · rename_i hverdict
        cases h
        exact ⟨actual, rfl, hverdict⟩
      · cases h
    | _ =>
      rw [haction] at hfails
      simp [Action.MayFail, FromBoard] at hfails

end Flash

/-- **A flash ends over its size only if a count of it does not pass.** -/
theorem flash_of_transfer {σ : Type} [Transport σ] {j : Flash.Job} {cancelled : σ → Bool} {link : σ}
    {e : TransferError} (h : (flash j cancelled link).result = .error (.transfer e)) :
    ∃ n ∈ j.counts, verifyTransferSize n j.expected j.settings.minTransferRatio = .error e := by
  obtain ⟨r', hrun, -⟩ := outcome_of_error h
  obtain ⟨before, s, after, r₁, hplan, -, htake⟩ := Flash.takeAll_error hrun
  obtain ⟨n, hcount, hverdict⟩ := Flash.Step.count_of_transfer htake
  refine ⟨n, List.mem_filterMap.mpr ⟨s, ?_, hcount⟩, hverdict⟩
  rw [hplan]
  exact List.mem_append_right before (List.mem_cons_self ..)

/-! ## Sessions -/

namespace Conduct

variable {σ : Type}

/-- A session answers with sizes only if its flash does. -/
theorem flash_of_transfer [Connector σ] {cancelled : σ → Bool} {image : List UInt8} {expected : Nat}
    {d d' : Desk σ} {e : TransferError} (hd : d.session.Sound)
    (h : ((Request.flash image expected).perform cancelled).outcome d = (.error (.transfer e), d')) :
    ∃ link, (BlockBoard.flash (job d image expected) cancelled link).result = .error (.transfer e) := by
  by_cases hattentive : Attentive d.session
  · have hlinked : (begun image d).session.linked = true := hd.linked_iff.mpr hattentive
    have hbegun : Attentive (begun image d).session := hattentive
    have hflash := flash_of_perform h
    rcases hquiesce : (quiesce : Conduct σ Unit).outcome (begun image d) with ⟨failure | _, d₁⟩
    · rw [outcome_flash, Operation.bind_of_ok (require_of_attentive (.inr rfl) hbegun),
        Operation.bind_of_error hquiesce] at hflash
      cases hflash
      rcases quiesce_fromBoard hlinked hquiesce with ⟨l, hl⟩ | ⟨f, hf⟩
      · cases hl
      · cases hf
    · obtain ⟨hready, hlinked₁⟩ := quiesce_ok hlinked hbegun hquiesce
      have hkeeps := (changes_quiesce (begun image d)).keeps
      rw [hquiesce] at hkeeps
      have hsame : job d₁ image expected = job d image expected := by
        rw [job, hkeeps.device, hkeeps.flashing]
        rfl
      rw [flash_of_quiesced hattentive hquiesce hready, hsame] at hflash
      obtain ⟨_, _, _, ⟨⟨_, hok⟩ | hcancelled, -⟩ | ⟨_, ⟨_, he, hsend⟩, -⟩⟩ := deliver_cases rfl hflash
      · cases hok
      · cases hcancelled
      · cases he
        rw [outcome_sendImage, if_pos (show (d₁.moved .flashing).session.linked = true from hlinked₁)]
          at hsend
        exact ⟨_, hsend⟩
  · -- no board is at the other end
    have hrefusal : (Request.flash image expected).refusal? d.session =
        some (.invalidMove d.session.state .flashing) := if_neg hattentive
    obtain ⟨progress, hends⟩ := perform_of_refusal cancelled hd hrefusal
    cases hends.symm.trans h

end Conduct

/-! ## Everything together -/

open Binary64 (ofNat) in
/-- **A check of sizes is a threshold that the declared size reaches.**

For every part above zero and at most one, and all sizes of 64 bits: the declared size itself passes; if a count
passes, every greater one up to the declared size does; and if a count is too small, every smaller one is too
small. What passes is that part of the declared size, and what is too small is not, up to one part in `2 ^ 51`.

An image that was fetched with such a check passes both checks of its flash with the same part, before anything
is sent and when all blocks were written: no session that can be reached answers a request to flash it with
sizes. -/
theorem verifyTransferSize_threshold {ratio : Binary64} (hpositive : (Binary64.zero false).lt ratio = true)
    (hpart : ratio.le (ofNat 1) = true) :
    (∀ n : UInt64, verifyTransferSize n.toNat n.toNat ratio = .ok ()) ∧
    (∀ actual larger expected : UInt64, actual ≤ larger → larger ≤ expected →
      verifyTransferSize actual.toNat expected.toNat ratio = .ok () →
      verifyTransferSize larger.toNat expected.toNat ratio = .ok ()) ∧
    (∀ smaller actual expected : UInt64, smaller ≤ actual →
      ∀ m n, verifyTransferSize actual.toNat expected.toNat ratio = .error (.truncated m n) →
      verifyTransferSize smaller.toNat expected.toNat ratio =
        .error (.truncated smaller.toNat expected.toNat)) ∧
    (∀ actual expected : UInt64,
      (verifyTransferSize actual.toNat expected.toNat ratio = .ok () →
        2 ^ 51 * (expected.toNat * ratio.units) ≤ (2 ^ 51 + 1) * (actual.toNat * Binary64.unitsPerOne)) ∧
      ∀ m n, verifyTransferSize actual.toNat expected.toNat ratio = .error (.truncated m n) →
        2 ^ 51 * (actual.toNat * Binary64.unitsPerOne) < (2 ^ 51 + 1) * (expected.toNat * ratio.units)) ∧
    ∀ (store : ImageStore) (r : Release) (image : List UInt8), fetchImage store r ratio = .ok image →
      ∀ s : Settings, s.flash.minTransferRatio = ratio →
        let j : Flash.Job := ⟨s.device, s.flash, image, r.size⟩
        (0 < j.blockSize → j.counts = [image.length, j.bytesIn j.blocks.length]) ∧
        (∀ n ∈ j.counts, verifyTransferSize n r.size ratio = .ok ()) ∧
        ∀ (σ : Type) [Connector σ] (d : Desk σ), d.Reachable s → ∀ cancelled e d',
          ((Request.flash image r.size).perform cancelled).outcome d ≠ (.error (.transfer e), d') := by
  refine ⟨fun n => verifyTransferSize_self hpositive hpart (toNat_lt_pow n),
    fun actual larger expected h hle => verifyTransferSize_ok_mono (toNat_lt_pow expected) h hle,
    fun smaller actual expected h m n => verifyTransferSize_truncated_mono (toNat_lt_pow expected) h,
    fun actual expected => verifyTransferSize_share hpositive hpart (toNat_lt_pow expected), ?_⟩
  intro store r image hfetch s hratio j
  have hpasses : ∀ n ∈ j.counts, verifyTransferSize n r.size ratio = .ok () := by
    rw [j.counts_eq]
    simpa using fetchImage_ok hfetch
  refine ⟨fun hsize => ?_, hpasses, ?_⟩
  · rw [j.counts_eq, Flash.Job.bytesIn_blocks hsize]
  · intro σ _ d hd cancelled e d' h
    obtain ⟨link, hflash⟩ := Conduct.flash_of_transfer hd.sound.1 h
    rw [hd.job_eq image r.size] at hflash
    obtain ⟨n, hn, hverdict⟩ := flash_of_transfer hflash
    have hverdict : verifyTransferSize n r.size s.flash.minTransferRatio = .error e := hverdict
    rw [hratio, hpasses n hn] at hverdict
    cases hverdict

/-- A store whose files all hold nine bytes. -/
def nineBytes : ImageStore := ⟨fun _ => some (List.replicate 9 0xE9), HttpService.unreachable⟩

/-- A release that declares ten bytes. -/
def tenBytes : Release where
  version := "1.25.0"
  title := "1.25.0"
  notes := ""
  publishedAt := none
  source := .bundled "board.bin"
  size := 10
  isRecommended := true
  isBundled := true

theorem verifyTransferSize_threshold_nineTenths :
    verifyTransferSize 8384512 8384512 nineTenths = .ok () ∧
    verifyTransferSize 7546061 8384512 nineTenths = .ok () ∧
    verifyTransferSize 8000000 8384512 nineTenths = .ok () ∧
    verifyTransferSize 7546060 8384512 nineTenths = .error (.truncated 7546060 8384512) ∧
    verifyTransferSize 7000000 8384512 nineTenths = .error (.truncated 7000000 8384512) ∧
    fetchImage nineBytes tenBytes nineTenths = .ok (List.replicate 9 0xE9) ∧
    runningDesk.Reachable smallBlocks ∧
    (∀ e d', ((Request.flash (List.replicate 9 0xE9) 10).perform fun _ => false).outcome runningDesk ≠
      (.error (.transfer e), d')) := by
  obtain ⟨hself, hlarger, hsmaller, -, hfetched⟩ :=
    verifyTransferSize_threshold (show (Binary64.zero false).lt nineTenths = true by decide +kernel)
      (by decide +kernel)
  have hleast : verifyTransferSize 7546061 8384512 nineTenths = .ok () := by decide +kernel
  have hshort : verifyTransferSize 7546060 8384512 nineTenths = .error (.truncated 7546060 8384512) := by
    decide +kernel
  have hfetch : fetchImage nineBytes tenBytes nineTenths = .ok (List.replicate 9 0xE9) := by decide +kernel
  obtain ⟨-, -, hflash⟩ := hfetched _ _ _ hfetch smallBlocks rfl
  refine ⟨hself 8384512, hleast, ?_, hshort, ?_, hfetch, runningDesk_reachable, ?_⟩
  · exact hlarger 7546061 8000000 8384512 (by decide) (by decide) hleast
  · exact hsmaller 7000000 7546060 8384512 (by decide) 7546060 8384512 hshort
  · exact hflash Board runningDesk runningDesk_reachable fun _ => false

end BlockBoard
