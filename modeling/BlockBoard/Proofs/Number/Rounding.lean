import Mathlib.Tactic.Linarith
import Mathlib.Tactic.Ring
import Mathlib.Algebra.Order.Ring.Nat
import BlockBoard.Number.Decimal
/-!
# Rounding

A number is rounded to the double it is nearest to, and every double is an integer with a power of two
for its unit.

- `Binary64.word_eq`: a word as its binade and its significand.
- `Binary64.nearestWord_of_contains`: **what lies in the interval of a word is rounded to it**.
- `Binary64.magnitude_nearestWord`: **integers of fifty-three bits, times powers of two, are not rounded**.
- `Binary64.nearestWord_mul_right`: rounding depends on the fraction alone.
-/

namespace BlockBoard

namespace Binary64

/-! ## Words -/

theorem infinityWord_lt : infinityWord < Nat.pow 2 63 := by decide

/-- The encoding of a sign and a word. -/
theorem toNat_bits_ofWord {negative : Bool} {w : Nat} (h : w < Nat.pow 2 63) :
    (ofWord negative w).bits.toNat = if negative then Nat.pow 2 63 + w else w := by
  have hpow : Nat.pow 2 63 + Nat.pow 2 63 = Nat.pow 2 64 := rfl
  have hlt : (if negative then Nat.pow 2 63 + w else w) < Nat.pow 2 64 := by
    split
    · omega
    · omega
  exact UInt64.toNat_ofNat_of_lt' hlt

@[simp] theorem word_ofWord {negative : Bool} {w : Nat} (h : w < Nat.pow 2 63) :
    (ofWord negative w).word = w := by
  rw [word, toNat_bits_ofWord h]
  split
  · rw [Nat.add_mod_left, Nat.mod_eq_of_lt h]
  · exact Nat.mod_eq_of_lt h

@[simp] theorem signBit_ofWord {negative : Bool} {w : Nat} (h : w < Nat.pow 2 63) :
    (ofWord negative w).signBit = negative := by
  rw [signBit, toNat_bits_ofWord h]
  cases negative
  · simpa using h
  · simp

/-- A number is its sign and its word. -/
theorem ofWord_word (x : Binary64) : ofWord x.signBit x.word = x := by
  obtain ⟨bits⟩ := x
  have hlt : bits.toNat < Nat.pow 2 64 := bits.toNat_lt
  have hpow : Nat.pow 2 63 + Nat.pow 2 63 = Nat.pow 2 64 := rfl
  have hbits : (if signBit ⟨bits⟩ then Nat.pow 2 63 + word ⟨bits⟩ else word ⟨bits⟩) = bits.toNat := by
    unfold signBit word
    dsimp only
    by_cases h : Nat.pow 2 63 ≤ bits.toNat
    · have hmod : bits.toNat % Nat.pow 2 63 = bits.toNat - Nat.pow 2 63 := by
        rw [Nat.mod_eq_sub_mod h, Nat.mod_eq_of_lt (by omega)]
      simp only [decide_eq_true h, if_true, hmod, Nat.add_sub_cancel' h]
    · rw [if_neg (by simpa using h)]
      exact Nat.mod_eq_of_lt (by omega)
  rw [ofWord, hbits, UInt64.ofNat_toNat]

/-- The word of a binade and a significand in it. The greatest significand but one step is the first
of the next binade. -/
theorem word_eq (w : Nat) : w = binade w * binadeSize + significand w := by
  have hpos : 0 < binadeSize := Nat.two_pow_pos _
  unfold binade significand
  split
  · rename_i h
    rw [Nat.div_eq_of_lt h]
    omega
  · rename_i h
    have hdiv : 1 ≤ w / binadeSize := (Nat.one_le_div_iff hpos).mpr (Nat.le_of_not_lt h)
    calc w = w / binadeSize * binadeSize + w % binadeSize := (Nat.div_add_mod' _ _).symm
      _ = (w / binadeSize - 1 + 1) * binadeSize + w % binadeSize := by rw [Nat.sub_add_cancel hdiv]
      _ = _ := by rw [Nat.add_mul]; omega

theorem significand_lt (w : Nat) : significand w < 2 * binadeSize := by
  have hpos : 0 < binadeSize := Nat.two_pow_pos _
  have := Nat.mod_lt w hpos
  unfold significand
  split <;> omega

/-- The significands of all binades but the first one are full. -/
theorem binadeSize_le_significand {w : Nat} (h : binade w ≠ 0) : binadeSize ≤ significand w := by
  unfold binade at h
  unfold significand
  split
  · rename_i hlt
    rw [Nat.div_eq_of_lt hlt] at h
    omega
  · omega

/-- A binade and a significand in it make a word of that magnitude. -/
theorem magnitude_word {b m : Nat} (hm : m ≤ 2 * binadeSize) (hfull : b ≠ 0 → binadeSize ≤ m) :
    significand (b * binadeSize + m) * 2 ^ binade (b * binadeSize + m) = m * 2 ^ b := by
  have hpos : 0 < binadeSize := Nat.two_pow_pos _
  unfold significand binade
  rcases Nat.lt_or_ge m binadeSize with hlt | hge
  · obtain rfl : b = 0 := by
      by_contra hb
      exact Nat.not_lt.mpr (hfull hb) hlt
    rw [Nat.zero_mul, Nat.zero_add, if_pos hlt, Nat.div_eq_of_lt hlt]
  rw [if_neg (by have := Nat.zero_le (b * binadeSize); omega)]
  rcases Nat.lt_or_eq_of_le hm with hlt | rfl
  · have hdiv : (b * binadeSize + m) / binadeSize = b + 1 := by
      rw [Nat.mul_comm, Nat.mul_add_div hpos, Nat.div_eq_of_lt_le] <;> omega
    have hmod : (b * binadeSize + m) % binadeSize = m - binadeSize := by
      rw [Nat.mul_comm, Nat.mul_add_mod, Nat.mod_eq_sub_mod hge, Nat.mod_eq_of_lt (by omega)]
    rw [hdiv, hmod, Nat.add_sub_cancel, Nat.add_sub_cancel' hge]
  · have hdiv : (b * binadeSize + 2 * binadeSize) / binadeSize = b + 2 := by
      rw [← Nat.add_mul, Nat.mul_div_cancel _ hpos]
    have hmod : (b * binadeSize + 2 * binadeSize) % binadeSize = 0 := by
      rw [← Nat.add_mul, Nat.mul_mod_left]
    rw [hdiv, hmod, Nat.add_zero, show b + 2 - 1 = b + 1 by omega, Nat.pow_succ]
    ring

/-! ## Rounding to an integer -/

/-- A quotient is rounded by at most a half, and by exactly a half only to an even integer. -/
theorem roundHalfEven_within (num den : Nat) (hden : 0 < den) :
    2 * (roundHalfEven num den * den) ≤ 2 * num + den ∧
      2 * num ≤ 2 * (roundHalfEven num den * den) + den ∧
      (roundHalfEven num den % 2 = 1 → 2 * (roundHalfEven num den * den) < 2 * num + den ∧
        2 * num < 2 * (roundHalfEven num den * den) + den) := by
  have hdivision : num / den * den + num % den = num := Nat.div_add_mod' num den
  have hlt := Nat.mod_lt num hden
  unfold roundHalfEven
  dsimp only
  generalize num / den = q at *
  generalize num % den = r at *
  have hnext : (q + 1) * den = q * den + den := Nat.succ_mul _ _
  split
  · omega
  split
  · rw [hnext]
    omega
  split
  · omega
  · rw [hnext]
    omega

/-- There is one such integer. -/
theorem roundHalfEven_eq {num den m : Nat} (hlow : 2 * (m * den) ≤ 2 * num + den)
    (hhigh : 2 * num ≤ 2 * (m * den) + den)
    (htie : m % 2 = 1 → 2 * (m * den) < 2 * num + den ∧ 2 * num < 2 * (m * den) + den)
    (hden : 0 < den) : roundHalfEven num den = m := by
  obtain ⟨hlow', hhigh', htie'⟩ := roundHalfEven_within num den hden
  generalize roundHalfEven num den = r at *
  rcases Nat.lt_trichotomy r m with h | h | h
  · have hstep : (r + 1) * den ≤ m * den := Nat.mul_le_mul_right _ h
    rw [Nat.succ_mul] at hstep
    rcases Nat.lt_or_eq_of_le h with h | rfl
    · have hstep : (r + 2) * den ≤ m * den := Nat.mul_le_mul_right _ h
      rw [Nat.add_mul] at hstep
      omega
    · omega
  · exact h
  · have hstep : (m + 1) * den ≤ r * den := Nat.mul_le_mul_right _ h
    rw [Nat.succ_mul] at hstep
    rcases Nat.lt_or_eq_of_le h with h | rfl
    · have hstep : (m + 2) * den ≤ r * den := Nat.mul_le_mul_right _ h
      rw [Nat.add_mul] at hstep
      omega
    · omega

/-- Rounding depends on the fraction alone. -/
theorem roundHalfEven_mul_right (num den : Nat) {c : Nat} (hc : 0 < c) :
    roundHalfEven (num * c) (den * c) = roundHalfEven num den := by
  have hcompare : 2 * (num % den * c) = 2 * (num % den) * c := by ring
  unfold roundHalfEven
  dsimp only
  rw [Nat.mul_div_mul_right _ _ hc, Nat.mul_mod_mul_right, hcompare]
  simp only [Nat.mul_lt_mul_right hc]

theorem nearestWord_mul_right (num den : Nat) {c : Nat} (hc : 0 < c) :
    nearestWord (num * c) (den * c) = nearestWord num den := by
  unfold nearestWord
  dsimp only
  rw [Nat.mul_div_mul_right _ _ hc, Nat.mul_right_comm den c, roundHalfEven_mul_right _ _ hc]

/-! ## Rounding to a word -/

/-- The binade that a fraction is rounded in: its quotient has fifty-three bits there, or fewer in the
first one. -/
def InBinade (num den b : Nat) : Prop :=
  num < den * 2 ^ (b + 53) ∧ (b ≠ 0 → den * 2 ^ (b + 52) ≤ num)

theorem inBinade_log2 (num den : Nat) (hden : 0 < den) :
    InBinade num den (Nat.log2 (num / den) - 52) := by
  have hlt : num < den * 2 ^ (Nat.log2 (num / den) + 1) := by
    rw [Nat.mul_comm, ← Nat.div_lt_iff_lt_mul hden]
    exact Nat.lt_log2_self
  refine ⟨hlt.trans_le (Nat.mul_le_mul_left _ (Nat.pow_le_pow_right (by decide) (by omega))), ?_⟩
  intro hlarge
  have hne : num / den ≠ 0 := by
    intro hzero
    rw [hzero] at hlarge
    exact hlarge rfl
  rw [Nat.sub_add_cancel (by omega), Nat.mul_comm, ← Nat.le_div_iff_mul_le hden]
  exact Nat.log2_self_le hne

/-- A fraction is in one binade. -/
theorem InBinade.unique {num den b c : Nat} (hb : InBinade num den b) (hc : InBinade num den c) :
    b = c := by
  have hle : ∀ {b c : Nat}, InBinade num den b → InBinade num den c → b ≤ c := by
    intro b c hb hc
    by_contra hlt
    have := (hb.2 (by omega)).trans_lt hc.1
    have hpow := Nat.lt_of_mul_lt_mul_left this
    rw [Nat.pow_lt_pow_iff_right (by decide)] at hpow
    omega
  exact Nat.le_antisymm (hle hb hc) (hle hc hb)

section

variable {num den b : Nat}

/-- Rounding takes place in the binade of the fraction. -/
theorem InBinade.nearestWord_eq (h : InBinade num den b) (hden : 0 < den) :
    nearestWord num den = b * binadeSize + roundHalfEven num (den * 2 ^ b) := by
  rw [← (inBinade_log2 num den hden).unique h]
  rfl

/-- What it is rounded to has fifty-three bits, or is the power of two after them. -/
theorem InBinade.rounded_bounds (h : InBinade num den b) (hden : 0 < den) :
    roundHalfEven num (den * 2 ^ b) ≤ 2 * binadeSize ∧
      (b ≠ 0 → binadeSize ≤ roundHalfEven num (den * 2 ^ b)) := by
  have hsize : binadeSize = 2 ^ 52 := rfl
  have hstep : 0 < den * 2 ^ b := Nat.mul_pos hden (Nat.two_pow_pos _)
  have hbits (k : Nat) : den * 2 ^ (b + k) = 2 ^ k * (den * 2 ^ b) := by rw [Nat.pow_add]; ring
  obtain ⟨hlow, hhigh, -⟩ := roundHalfEven_within num (den * 2 ^ b) hstep
  obtain ⟨hlt, hge⟩ := h
  rw [hbits] at hlt hge
  rw [hsize]
  refine ⟨?_, fun hb => ?_⟩
  · by_contra hgt
    have := Nat.mul_le_mul_right (den * 2 ^ b) (Nat.lt_of_not_le hgt)
    omega
  · by_contra hgt
    have hstep := Nat.mul_le_mul_right (den * 2 ^ b) (Nat.lt_of_not_le hgt)
    rw [Nat.succ_mul] at hstep
    have := hge hb
    omega

/-- The magnitude that it is rounded to. -/
theorem InBinade.magnitude_eq (h : InBinade num den b) (hden : 0 < den) :
    significand (nearestWord num den) * 2 ^ binade (nearestWord num den) =
      roundHalfEven num (den * 2 ^ b) * 2 ^ b := by
  obtain ⟨hle, hfull⟩ := h.rounded_bounds hden
  rw [h.nearestWord_eq hden, magnitude_word hle hfull]

end

/-- The binade of the greatest numbers. -/
def lastBinade : Nat := 2045

theorem infinityWord_eq : infinityWord = (lastBinade + 2) * binadeSize := rfl

/-- Up to half a step after the last word, nothing is rounded to infinity. -/
theorem nearestWord_lt {num den : Nat} (hden : 0 < den)
    (h : 2 * num < den * 2 ^ lastBinade * (2 ^ 54 - 1)) : nearestWord num den < infinityWord := by
  have hbinade := inBinade_log2 num den hden
  have hbounds := hbinade.rounded_bounds hden
  rw [hbinade.nearestWord_eq hden]
  generalize Nat.log2 (num / den) - 52 = b at *
  have hsize : binadeSize = 2 ^ 52 := rfl
  rw [infinityWord_eq, Nat.add_mul]
  rcases Nat.lt_trichotomy b lastBinade with hb | rfl | hb
  · have := Nat.mul_le_mul_right binadeSize hb
    rw [Nat.succ_mul] at this
    omega
  · have hstep : 0 < den * 2 ^ lastBinade := Nat.mul_pos hden (Nat.two_pow_pos _)
    obtain ⟨hlow, -, -⟩ := roundHalfEven_within num (den * 2 ^ lastBinade) hstep
    have hrounded : roundHalfEven num (den * 2 ^ lastBinade) ≠ 2 * 2 ^ 52 := by
      intro heq
      rw [heq] at hlow
      omega
    omega
  · have hpow : den * 2 ^ lastBinade * 2 ^ 53 ≤ den * 2 ^ (b + 52) := by
      rw [Nat.mul_assoc, ← Nat.pow_add]
      exact Nat.mul_le_mul_left _ (Nat.pow_le_pow_right (by decide) (by omega))
    have hnum := hbinade.2 (by omega)
    omega

/-- **Integers of fifty-three bits, times powers of two, are not rounded.** -/
theorem magnitude_nearestWord {n m c : Nat} (hn : n = m * 2 ^ c) (hm : m < 2 ^ 53) :
    significand (nearestWord n 1) * 2 ^ binade (nearestWord n 1) = n := by
  have hbinade := inBinade_log2 n 1 Nat.one_pos
  rw [hbinade.magnitude_eq Nat.one_pos]
  generalize Nat.log2 (n / 1) - 52 = b at *
  simp only [InBinade, Nat.one_mul] at hbinade ⊢
  -- its binade is not above the power of two
  have hle : b ≤ c := by
    by_contra hlt
    have hnum := hbinade.2 (by omega)
    have : m * 2 ^ c < 2 ^ 53 * 2 ^ c := Nat.mul_lt_mul_of_pos_right hm (Nat.two_pow_pos _)
    rw [← Nat.pow_add] at this
    have : 2 ^ (53 + c) ≤ 2 ^ (b + 52) := Nat.pow_le_pow_right (by decide) (by omega)
    omega
  have hdiv : n = m * 2 ^ (c - b) * 2 ^ b := by
    rw [hn, Nat.mul_assoc, ← Nat.pow_add, Nat.sub_add_cancel hle]
  have hpos := Nat.two_pow_pos b
  rw [roundHalfEven_eq (m := m * 2 ^ (c - b)) (by omega) (by omega) (fun _ => by omega) hpos, ← hdiv]

/-- What lies in the interval of a word is within half a step of it, and within less below the first
word of a binade. -/
theorem within_of_contains {w num den : Nat}
    (h : (Decimal.Interval.ofWord w).contains den (4 * num) = true) :
    let below := if significand w = binadeSize ∧ binade w ≠ 0 then 1 else 2
    let step := den * 2 ^ binade w
    let value := 4 * (significand w * step)
    value ≤ 4 * num + below * step ∧ 4 * num ≤ value + 2 * step ∧
      (significand w % 2 = 1 → value < 4 * num + below * step ∧ 4 * num < value + 2 * step) := by
  intro below step value
  have hvalue : 4 * significand w * 2 ^ binade w * den = value := by
    show _ = 4 * (significand w * (den * 2 ^ binade w))
    ring
  have hbelow : (if significand w = binadeSize ∧ binade w ≠ 0 then 2 ^ binade w
      else 2 * 2 ^ binade w) * den = below * step := by
    show _ = (if significand w = binadeSize ∧ binade w ≠ 0 then 1 else 2) * (den * 2 ^ binade w)
    split
    · ring
    · ring
  have hhigh : (4 * significand w * 2 ^ binade w + 2 * 2 ^ binade w) * den = value + 2 * step := by
    rw [Nat.add_mul, hvalue]
    show _ = value + 2 * (den * 2 ^ binade w)
    ring
  unfold Decimal.Interval.ofWord Decimal.Interval.contains at h
  simp only [Nat.pow_eq, Nat.sub_mul, hvalue, hbelow, hhigh, decide_eq_true_eq] at h
  split at h
  · simp only [decide_eq_true_eq] at h
    omega
  · simp only [decide_eq_true_eq] at h
    omega

/-- **What lies in the interval of a word is rounded to it.** -/
theorem nearestWord_of_contains {w num den : Nat} (hden : 0 < den)
    (h : (Decimal.Interval.ofWord w).contains den (4 * num) = true) : nearestWord num den = w := by
  have hwithin := within_of_contains h
  have hword := word_eq w
  have hlt := significand_lt w
  have hfull := @binadeSize_le_significand w
  generalize binade w = b at *
  generalize significand w = m at *
  dsimp only at hwithin
  have hsize : binadeSize = 2 ^ 52 := rfl
  have hstep : 0 < den * 2 ^ b := Nat.mul_pos hden (Nat.two_pow_pos _)
  have hbits (k : Nat) : den * 2 ^ (b + k) = den * 2 ^ b * 2 ^ k := by rw [Nat.pow_add]; ring
  by_cases hedge : b ≠ 0 ∧ num < den * 2 ^ (b + 52)
  · obtain ⟨hb, hbelow⟩ := hedge
    rw [hbits] at hbelow
    -- only the first word of a binade has numbers of the binade below in its interval
    have hm : m = 2 ^ 52 := by
      by_contra hne
      have : (2 ^ 52 + 1) * (den * 2 ^ b) ≤ m * (den * 2 ^ b) :=
        Nat.mul_le_mul_right _ (by have := hfull hb; omega)
      split at hwithin
      · omega
      · omega
    obtain ⟨c, rfl⟩ : ∃ c, b = c + 1 := Nat.exists_eq_succ_of_ne_zero hb
    have hhalf : den * 2 ^ (c + 1) = 2 * (den * 2 ^ c) := by rw [Nat.pow_succ]; ring
    have hbits' (k : Nat) : den * 2 ^ (c + k) = den * 2 ^ c * 2 ^ k := by rw [Nat.pow_add]; ring
    rw [hm, if_pos ⟨hsize.symm, hb⟩, hhalf] at hwithin
    rw [hhalf] at hbelow hstep
    have hinBinade : InBinade num den c := by
      refine ⟨hbelow.trans_eq ?_, fun _ => (hbits' 52).trans_le (by omega)⟩
      rw [hbits']
      ring
    rw [hinBinade.nearestWord_eq hden, hword, hm, hsize,
      roundHalfEven_eq (m := 2 * 2 ^ 52) (by omega) (by omega) (by omega) (by omega)]
    ring
  · have hinBinade : InBinade num den b := by
      refine ⟨?_, fun hb => by omega⟩
      rw [hbits]
      have : m * (den * 2 ^ b) ≤ (2 ^ 53 - 1) * (den * 2 ^ b) := Nat.mul_le_mul_right _ (by omega)
      omega
    rw [hinBinade.nearestWord_eq hden, hword, roundHalfEven_eq (m := m) ?_ ?_ ?_ hstep]
    · split at hwithin
      · omega
      · omega
    · omega
    · split at hwithin
      · omega
      · omega

/-! ## Exact integers -/

section

variable {negative : Bool} {num den : Nat}

theorem word_nearest : (nearest negative num den).word = min (nearestWord num den) infinityWord :=
  word_ofWord ((Nat.min_le_right _ _).trans_lt infinityWord_lt)

@[simp] theorem signBit_nearest : (nearest negative num den).signBit = negative :=
  signBit_ofWord ((Nat.min_le_right _ _).trans_lt infinityWord_lt)

theorem isFinite_nearest :
    (nearest negative num den).isFinite = decide (nearestWord num den < infinityWord) := by
  rw [isFinite, word_nearest]
  simp

theorem neg_nearest : (nearest negative num den).neg = nearest (!negative) num den := by
  rw [neg, signBit_nearest, word_nearest]
  rfl

end

/-- The places after the binary point that a number has at most. -/
def binaryPlaces : Nat := 1074

theorem unitsPerOne_eq : unitsPerOne = 2 ^ binaryPlaces := by decide +kernel

theorem unitsPerOne_pos : 0 < unitsPerOne := by
  rw [unitsPerOne_eq]
  exact Nat.two_pow_pos _

/-- An integer that is a double. -/
def IsExact (n : Nat) : Prop := (ofNat n).isFinite = true ∧ (ofNat n).units = n * unitsPerOne

/-- Integers of fifty-three bits are doubles, and so are their multiples by powers of two. -/
theorem isExact_of_eq {n m c : Nat} (hn : n = m * 2 ^ c) (hm : m < 2 ^ 53) (hc : c < 900) : IsExact n := by
  have hscaled : n * unitsPerOne = m * 2 ^ (c + binaryPlaces) := by
    rw [hn, Nat.mul_assoc, Nat.pow_add, unitsPerOne_eq]
  have hlt : nearestWord (n * unitsPerOne) 1 < infinityWord := by
    refine nearestWord_lt Nat.one_pos ?_
    have hpow : 2 ^ (c + binaryPlaces) * 2 ≤ 2 ^ lastBinade := by
      rw [← Nat.pow_succ]
      exact Nat.pow_le_pow_right (by decide) (by unfold lastBinade binaryPlaces; omega)
    have := Nat.mul_lt_mul_of_pos_right hm (Nat.two_pow_pos (c + binaryPlaces))
    rw [hscaled]
    omega
  constructor
  · rw [ofNat, isFinite_nearest, decide_eq_true hlt]
  · rw [ofNat, units, word_nearest, Nat.min_eq_left (Nat.le_of_lt hlt)]
    exact magnitude_nearestWord hscaled hm

/-- Integers up to `2 ^ 53` are doubles. -/
theorem isExact_of_le {n : Nat} (h : n ≤ 2 ^ 53) : IsExact n := by
  rcases Nat.lt_or_eq_of_le h with hlt | rfl
  · exact isExact_of_eq (c := 0) (Nat.mul_one n).symm hlt (by decide)
  · exact isExact_of_eq (m := 1) (c := 53) rfl (by decide) (by decide)

/-- Numbers far from the greatest ones are not rounded to infinity. -/
theorem nearestWord_unitsPerOne_lt {n : Nat} (h : n < 2 ^ 200) :
    nearestWord (n * unitsPerOne) 1 < infinityWord := by
  refine nearestWord_lt Nat.one_pos ?_
  have hfar : 2 * (2 ^ 200 * unitsPerOne) < 1 * 2 ^ lastBinade * (2 ^ 54 - 1) := by decide +kernel
  have := Nat.mul_le_mul_right unitsPerOne (Nat.le_of_lt h)
  omega

theorem nearest_zero (negative : Bool) {den : Nat} (h : 0 < den) : nearest negative 0 den = zero negative := by
  have hbinade : InBinade 0 den 0 := ⟨Nat.mul_pos h (Nat.two_pow_pos _), fun hne => absurd rfl hne⟩
  rw [nearest, hbinade.nearestWord_eq h, roundHalfEven_eq (m := 0) (by omega) (by omega) nofun
    (Nat.mul_pos h (Nat.two_pow_pos _))]
  rfl

theorem zero_of_isZero {x : Binary64} (h : x.isZero = true) : zero x.signBit = x := by
  have hword : x.word = 0 := by simpa [isZero] using h
  calc ofWord x.signBit 0 = ofWord x.signBit x.word := by rw [hword]
    _ = x := x.ofWord_word

theorem word_lt_of_isFinite {x : Binary64} (h : x.isFinite = true) : x.word < infinityWord := by
  simpa [isFinite] using h

theorem isNaN_of_isFinite {x : Binary64} (h : x.isFinite = true) : x.isNaN = false := by
  have := word_lt_of_isFinite h
  simp only [isNaN, decide_eq_false_iff_not]
  omega

theorem isInfinite_of_isFinite {x : Binary64} (h : x.isFinite = true) : x.isInfinite = false := by
  have := word_lt_of_isFinite h
  simp only [isInfinite, decide_eq_false_iff_not]
  omega

/-- The product of two numbers is rounded once. -/
theorem mul_of_isFinite {x y : Binary64} (hx : x.isFinite = true) (hy : y.isFinite = true) :
    x.mul y = nearest (x.signBit != y.signBit) (x.units * y.units) unitsPerOne := by
  simp [mul, isNaN_of_isFinite hx, isNaN_of_isFinite hy, isInfinite_of_isFinite hx,
    isInfinite_of_isFinite hy]

/-- The quotient of two numbers is rounded once. -/
theorem div_of_isFinite {x y : Binary64} (hx : x.isFinite = true) (hy : y.isFinite = true)
    (hzero : y.isZero = false) :
    x.div y = nearest (x.signBit != y.signBit) (x.units * unitsPerOne) y.units := by
  simp [div, isNaN_of_isFinite hx, isNaN_of_isFinite hy, isInfinite_of_isFinite hx,
    isInfinite_of_isFinite hy, hzero]

theorem nearest_mul_right (negative : Bool) (num den : Nat) {c : Nat} (hc : 0 < c) :
    nearest negative (num * c) (den * c) = nearest negative num den := by
  rw [nearest, nearest, nearestWord_mul_right _ _ hc]

/-- **The product of two exact integers is their product as a decimal is read.** -/
theorem mul_ofNat {a b : Nat} (ha : IsExact a) (hb : IsExact b) :
    (ofNat a).mul (ofNat b) = nearest false (a * b * unitsPerOne) 1 := by
  have hscale : a * unitsPerOne * (b * unitsPerOne) = a * b * unitsPerOne * unitsPerOne := by ring
  rw [mul_of_isFinite ha.1 hb.1, ha.2, hb.2, hscale, ← nearest_mul_right false _ 1 unitsPerOne_pos,
    Nat.one_mul, ofNat, ofNat, signBit_nearest, signBit_nearest]
  rfl

/-- **The quotient of two exact integers is the fraction, rounded once.** -/
theorem div_ofNat {a b : Nat} (ha : IsExact a) (hb : IsExact b) (hpos : 0 < b) :
    (ofNat a).div (ofNat b) = nearest false (a * unitsPerOne) b := by
  have hzero : (ofNat b).isZero = false := by
    by_contra hzero
    have hword : (ofNat b).word = 0 := by simpa [isZero] using hzero
    have hunits : (ofNat b).units = 0 := by
      rw [units, hword]
      rfl
    rw [hb.2] at hunits
    exact (Nat.mul_pos hpos unitsPerOne_pos).ne' hunits
  rw [div_of_isFinite ha.1 hb.1 hzero, ha.2, hb.2, nearest_mul_right _ _ _ unitsPerOne_pos, ofNat, ofNat,
    signBit_nearest, signBit_nearest]
  rfl

end Binary64

end BlockBoard
