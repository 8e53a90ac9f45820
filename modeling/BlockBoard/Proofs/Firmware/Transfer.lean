import BlockBoard.Firmware.Transfer
import BlockBoard.Proofs.Number.Part
/-!
# Sizes of transfers

A count of bytes is compared with a part of the declared one after both were rounded to doubles. Where all of it
is demanded, that tells counts apart exactly up to `2 ^ 53`; beyond, a transfer may fall a little short.

- `verifyTransferSize_cases`: the three verdicts, which exclude each other.
- `verifyTransferSize_self`, `verifyTransferSize_ok_mono`, `verifyTransferSize_truncated_mono`: **whatever part is
  demanded, a count passes from some threshold on**, which is not above the declared one.
- `verifyTransferSize_share`: what passes is that part, up to rounding, and what is too small is not.
- `verifyTransferSize_whole`: **what it means to demand all of the declared size**.
- `one_byte_short`: a transfer that is short by a byte and passes.
-/

namespace BlockBoard

open Binary64 (ofNat)

/-- Counts of bytes fit 64 bits, far below the greatest doubles. -/
theorem toNat_lt_pow (n : UInt64) : n.toNat < 2 ^ 200 :=
  n.toNat_lt.trans (Nat.pow_lt_pow_right (by decide) (by decide))

/-- **The three verdicts.** A count is too large, or too small, or it will do. -/
theorem verifyTransferSize_cases (actual expected : Nat) (minRatio : Binary64) :
    let short := (ofNat actual).lt ((ofNat expected).mul minRatio)
    (expected < actual ∧
        verifyTransferSize actual expected minRatio = .error (.oversized actual expected)) ∨
      (actual ≤ expected ∧ short = true ∧
        verifyTransferSize actual expected minRatio = .error (.truncated actual expected)) ∨
      (actual ≤ expected ∧ short = false ∧ verifyTransferSize actual expected minRatio = .ok ()) := by
  intro short
  unfold verifyTransferSize
  by_cases hlarge : expected < actual
  · exact .inl ⟨hlarge, if_pos hlarge⟩
  · rw [if_neg hlarge]
    have hle := Nat.not_lt.mp hlarge
    by_cases hshort : short = true
    · exact .inr (.inl ⟨hle, hshort, if_pos hshort⟩)
    · exact .inr (.inr ⟨hle, Bool.eq_false_iff.mpr hshort, if_neg hshort⟩)

/-! ## A threshold -/

section

variable {actual expected : Nat} {ratio : Binary64}

theorem verifyTransferSize_eq_ok_iff : verifyTransferSize actual expected ratio = .ok () ↔
    actual ≤ expected ∧ (ofNat actual).lt ((ofNat expected).mul ratio) = false := by
  rcases verifyTransferSize_cases actual expected ratio with
    ⟨hlarge, hverdict⟩ | ⟨hle, hshort, hverdict⟩ | ⟨hle, hshort, hverdict⟩
  · rw [hverdict]
    exact iff_of_false nofun fun h => Nat.not_le.mpr hlarge h.1
  · rw [hverdict, hshort]
    exact iff_of_false nofun fun h => nomatch h.2
  · exact iff_of_true hverdict ⟨hle, hshort⟩

theorem verifyTransferSize_eq_truncated_iff {m n : Nat} :
    verifyTransferSize actual expected ratio = .error (.truncated m n) ↔
      (m = actual ∧ n = expected) ∧
        actual ≤ expected ∧ (ofNat actual).lt ((ofNat expected).mul ratio) = true := by
  rcases verifyTransferSize_cases actual expected ratio with
    ⟨hlarge, hverdict⟩ | ⟨hle, hshort, hverdict⟩ | ⟨hle, hshort, hverdict⟩
  · rw [hverdict]
    exact iff_of_false nofun fun h => Nat.not_le.mpr hlarge h.2.1
  · rw [hverdict, hshort]
    constructor
    · intro h
      cases h
      exact ⟨⟨rfl, rfl⟩, hle, rfl⟩
    · rintro ⟨⟨rfl, rfl⟩, -⟩
      rfl
  · rw [hverdict, hshort]
    exact iff_of_false nofun fun h => nomatch h.2.2

/-- A greater count passes as well, up to the declared one. -/
theorem verifyTransferSize_ok_mono {larger : Nat} (hfar : expected < 2 ^ 200) (h : actual ≤ larger)
    (hle : larger ≤ expected) (hok : verifyTransferSize actual expected ratio = .ok ()) :
    verifyTransferSize larger expected ratio = .ok () := by
  rw [verifyTransferSize_eq_ok_iff] at hok ⊢
  refine ⟨hle, Bool.eq_false_iff.mpr fun hshort => ?_⟩
  have hbelow := Binary64.lt_of_le_of_lt (Binary64.ofNat_le_ofNat (hle.trans_lt hfar) h) hshort
  rw [hok.2] at hbelow
  cases hbelow

/-- A smaller count than one that is too small is too small as well. -/
theorem verifyTransferSize_truncated_mono {smaller m n : Nat} (hfar : expected < 2 ^ 200)
    (h : smaller ≤ actual) (hshort : verifyTransferSize actual expected ratio = .error (.truncated m n)) :
    verifyTransferSize smaller expected ratio = .error (.truncated smaller expected) := by
  rw [verifyTransferSize_eq_truncated_iff] at hshort ⊢
  obtain ⟨-, hle, hbelow⟩ := hshort
  exact ⟨⟨rfl, rfl⟩, h.trans hle,
    Binary64.lt_of_le_of_lt (Binary64.ofNat_le_ofNat (hle.trans_lt hfar) h) hbelow⟩

variable (hpositive : (Binary64.zero false).lt ratio = true) (hpart : ratio.le (ofNat 1) = true)
  (hfar : expected < 2 ^ 200)

include hpositive hpart hfar

/-- **The declared size itself passes**, whatever part of it is demanded. -/
theorem verifyTransferSize_self : verifyTransferSize expected expected ratio = .ok () := by
  have hpart :=
    Binary64.mul_part_le hpositive hpart (Binary64.isFinite_ofNat hfar) Binary64.signBit_nearest
  exact verifyTransferSize_eq_ok_iff.mpr ⟨Nat.le_refl _, Binary64.lt_eq_false_of_le hpart⟩

/-- **What passes is the part that is demanded, and what is too small is not**, up to one part in
`2 ^ 51`. -/
theorem verifyTransferSize_share :
    (verifyTransferSize actual expected ratio = .ok () →
      2 ^ 51 * (expected * ratio.units) ≤ (2 ^ 51 + 1) * (actual * Binary64.unitsPerOne)) ∧
    ∀ m n, verifyTransferSize actual expected ratio = .error (.truncated m n) →
      2 ^ 51 * (actual * Binary64.unitsPerOne) < (2 ^ 51 + 1) * (expected * ratio.units) := by
  constructor
  · intro hok
    obtain ⟨hle, hnot⟩ := verifyTransferSize_eq_ok_iff.mp hok
    exact Binary64.reaches_part hpositive hpart (hle.trans_lt hfar) hfar hnot
  · intro m n hshort
    obtain ⟨-, hle, hbelow⟩ := verifyTransferSize_eq_truncated_iff.mp hshort
    exact Binary64.misses_part hpositive hpart (hle.trans_lt hfar) hfar hbelow

end

/-! ## All of the declared size -/

/-- Where all of the declared size is demanded, a count that is not too large is too small exactly if it is
rounded to another double. -/
theorem verifyTransferSize_one_cases (actual : Nat) {expected : Nat} (hfar : expected < 2 ^ 200) :
    let verdict := verifyTransferSize actual expected (ofNat 1)
    (expected < actual ∧ verdict = .error (.oversized actual expected)) ∨
      (actual < expected ∧ ofNat actual ≠ ofNat expected ∧ verdict = .error (.truncated actual expected)) ∨
      (actual ≤ expected ∧ ofNat actual = ofNat expected ∧ verdict = .ok ()) := by
  intro verdict
  have hcases := verifyTransferSize_cases actual expected (ofNat 1)
  rw [Binary64.mul_one_eq (Binary64.isFinite_ofNat hfar)] at hcases
  rcases hcases with hlarge | ⟨hle, hshort, hverdict⟩ | ⟨hle, hshort, hverdict⟩
  · exact .inl hlarge
  · have hne := (Binary64.lt_ofNat_iff hfar hle).mp hshort
    have hlt : actual < expected := Nat.lt_of_le_of_ne hle fun hsame => hne (congrArg ofNat hsame)
    exact .inr (.inl ⟨hlt, hne, hverdict⟩)
  · have hsame : ofNat actual = ofNat expected := by
      by_contra hne
      rw [(Binary64.lt_ofNat_iff hfar hle).mpr hne] at hshort
      cases hshort
    exact .inr (.inr ⟨hle, hsame, hverdict⟩)

/-- **What it means to demand all of the declared size.**

A count of bytes is too large exactly if it is greater than the declared one; of the others it is too small
exactly if it is rounded to another double; and either verdict has both counts as they are. Up to `2 ^ 53` a
count passes exactly if it is the declared one. Beyond, a count that passes may be less, by one part in `2 ^ 52`
at most. -/
theorem verifyTransferSize_whole (actual expected : UInt64) :
    let verdict := verifyTransferSize actual.toNat expected.toNat (ofNat 1)
    (verdict = .error (.oversized actual.toNat expected.toNat) ↔ expected < actual) ∧
    (verdict = .error (.truncated actual.toNat expected.toNat) ↔
      actual < expected ∧ ofNat actual.toNat ≠ ofNat expected.toNat) ∧
    (verdict = .ok () ↔ actual ≤ expected ∧ ofNat actual.toNat = ofNat expected.toNat) ∧
    (expected.toNat ≤ 2 ^ 53 → (verdict = .ok () ↔ actual = expected)) ∧
    (verdict = .ok () → (expected.toNat - actual.toNat) * 2 ^ 52 ≤ expected.toNat) := by
  intro verdict
  rw [UInt64.lt_iff_toNat_lt, UInt64.lt_iff_toNat_lt, UInt64.le_iff_toNat_le, ← UInt64.toNat_inj]
  have hfar := toNat_lt_pow expected
  rcases verifyTransferSize_one_cases actual.toNat hfar with
    ⟨hlarge, hverdict⟩ | ⟨hlt, hne, hverdict⟩ | ⟨hle, hsame, hverdict⟩
  · rw [show verdict = _ from hverdict]
    refine ⟨iff_of_true rfl hlarge, iff_of_false nofun ?_, iff_of_false nofun ?_,
      fun _ => iff_of_false nofun ?_, nofun⟩
    · rintro ⟨hlt, -⟩
      omega
    · rintro ⟨hle, -⟩
      omega
    · omega
  · rw [show verdict = _ from hverdict]
    refine ⟨iff_of_false nofun ?_, iff_of_true rfl ⟨hlt, hne⟩, iff_of_false nofun ?_,
      fun _ => iff_of_false nofun ?_, nofun⟩
    · omega
    · rintro ⟨-, hsame⟩
      exact hne hsame
    · omega
  · rw [show verdict = _ from hverdict]
    refine ⟨iff_of_false nofun ?_, iff_of_false nofun ?_, iff_of_true rfl ⟨hle, hsame⟩, fun hsmall => ?_,
      fun _ => Binary64.ofNat_close hfar hle hsame⟩
    · omega
    · rintro ⟨-, hne⟩
      exact hne hsame
    · exact iff_of_true rfl (Binary64.ofNat_injOn (hle.trans hsmall) hsmall hsame)

theorem verifyTransferSize_whole_last :
    verifyTransferSize (2 ^ 53 - 1) (2 ^ 53) (ofNat 1) = .error (.truncated (2 ^ 53 - 1) (2 ^ 53)) ∧
      verifyTransferSize (2 ^ 53) (2 ^ 53) (ofNat 1) = .ok () := by
  obtain ⟨-, hshort, -, -, -⟩ := verifyTransferSize_whole (2 ^ 53 - 1) (2 ^ 53)
  obtain ⟨-, -, -, hexact, -⟩ := verifyTransferSize_whole (2 ^ 53) (2 ^ 53)
  exact ⟨hshort.mpr ⟨by decide, by decide +kernel⟩, (hexact (by decide)).mpr rfl⟩

/-- **A transfer of `2 ^ 53` bytes passes for one of a byte more**, although all of it is demanded: both counts are
rounded to the same double. -/
theorem one_byte_short :
    ∃ actual expected : UInt64, actual = 9007199254740992 ∧ expected = actual + 1 ∧ actual < expected ∧
      (ofNat 1).bits = 0x3FF0000000000000 ∧
      verifyTransferSize actual.toNat expected.toNat (ofNat 1) = .ok () :=
  ⟨9007199254740992, 9007199254740993, rfl, by decide, by decide, by decide +kernel, by decide +kernel⟩

end BlockBoard
