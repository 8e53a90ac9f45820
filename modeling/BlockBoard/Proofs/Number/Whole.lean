import BlockBoard.Proofs.Number.Shortest
import BlockBoard.Script.Expr
/-!
# Whole numbers

The order of the doubles is the order of what they stand for, and a double that is an integer is
written without a fraction: on the grid of the integers the search for its shortest decimal hits it at
the latest.

- `Binary64.amount`: what a finite number stands for, in units.
- `Binary64.le_iff_amount`: **the encodings are ordered as the amounts**.
- `Binary64.ofInt_le_iff`, `Binary64.le_ofInt_iff`: comparing an integer with a bound.
- `Decimal.exponent_shortest`: **the shortest decimal of an integer has no negative exponent**.
- `Decimal.value_shortest`: below fifty-three bits it is the integer itself.
- `Expr.writtenAs_ofNumber`: **an integer is spelled as what it is written as**, and up to that size as what
  it is.
-/

namespace BlockBoard

namespace Binary64

/-! ## The order -/

/-- The magnitude of a word, in units. -/
def magnitude (w : Nat) : Nat := significand w * 2 ^ binade w

theorem units_eq (x : Binary64) : x.units = magnitude x.word := rfl

/-- A greater word has a greater magnitude. -/
theorem magnitude_strictMono : StrictMono magnitude := by
  intro v w h
  have hv := word_eq v
  have hw := word_eq w
  have hltv := significand_lt v
  have hltw := significand_lt w
  have hfullv := @binadeSize_le_significand v
  have hfullw := @binadeSize_le_significand w
  unfold magnitude
  generalize significand v = m at *
  generalize significand w = n at *
  generalize binade v = b at *
  generalize binade w = c at *
  rcases Nat.lt_trichotomy b c with hbc | rfl | hbc
  · -- the binade above begins where the lower one ends
    calc m * 2 ^ b < 2 * binadeSize * 2 ^ b := Nat.mul_lt_mul_of_pos_right hltv (Nat.two_pow_pos b)
      _ = binadeSize * 2 ^ (b + 1) := by rw [Nat.pow_succ]; ring
      _ ≤ n * 2 ^ c := Nat.mul_le_mul (hfullw (by omega)) (Nat.pow_le_pow_right (by decide) hbc)
  · exact Nat.mul_lt_mul_of_pos_right (by omega) (Nat.two_pow_pos b)
  · have hstep : (c + 1) * binadeSize ≤ b * binadeSize := Nat.mul_le_mul_right _ hbc
    have := hfullv (by omega)
    rw [Nat.succ_mul] at hstep
    omega

/-- What a finite number stands for, in units. -/
def amount (x : Binary64) : Int := if x.signBit then -(x.units : Int) else x.units

/-- **The encodings are ordered as the amounts.** -/
theorem place_le_iff_amount (x y : Binary64) : x.place ≤ y.place ↔ x.amount ≤ y.amount := by
  have hle {v w : Nat} : magnitude v ≤ magnitude w ↔ v ≤ w := magnitude_strictMono.le_iff_le
  have hzero : magnitude 0 = 0 := Nat.zero_mul _
  have hnil {w : Nat} : magnitude w = 0 ↔ w = 0 := by
    rw [← hzero]
    exact magnitude_strictMono.injective.eq_iff
  unfold place amount
  rw [x.units_eq, y.units_eq]
  have hxy := hle (v := x.word) (w := y.word)
  have hyx := hle (v := y.word) (w := x.word)
  have hx := hnil (w := x.word)
  have hy := hnil (w := y.word)
  cases x.signBit <;> cases y.signBit <;> simp only [Bool.false_eq_true, if_true, if_false] <;> omega

theorem le_iff_amount {x y : Binary64} (hx : x.isFinite = true) (hy : y.isFinite = true) :
    x.le y = true ↔ x.amount ≤ y.amount := by
  rw [le, isNaN_of_isFinite hx, isNaN_of_isFinite hy, ← place_le_iff_amount]
  simp

/-! ## Integers -/

theorem isFinite_of_isIntegral {x : Binary64} (h : x.isIntegral = true) : x.isFinite = true := by
  rw [isIntegral, Bool.and_eq_true] at h
  exact h.1

theorem truncate_nonneg {x : Binary64} (h : x.signBit = false) : 0 ≤ x.truncate := by
  rw [truncate, h]
  exact Int.natCast_nonneg _

theorem truncate_nonpos {x : Binary64} (h : x.signBit = true) : x.truncate ≤ 0 := by
  rw [truncate, h]
  exact Int.neg_nonpos_of_nonneg (Int.natCast_nonneg _)

/-- The units of an integer. -/
theorem units_of_isIntegral {x : Binary64} (h : x.isIntegral = true) :
    x.units = x.truncate.natAbs * unitsPerOne := by
  rw [isIntegral, Bool.and_eq_true, decide_eq_true_eq] at h
  have habs : x.truncate.natAbs = x.units / unitsPerOne := by
    unfold truncate
    dsimp only
    split
    · rw [Int.natAbs_neg, Int.natAbs_natCast]
    · rw [Int.natAbs_natCast]
  rw [habs, Nat.div_mul_cancel (Nat.dvd_of_mod_eq_zero h.2)]

/-- The amount of an integer. -/
theorem amount_of_isIntegral {x : Binary64} (h : x.isIntegral = true) :
    x.amount = x.truncate * unitsPerOne := by
  have hunits := units_of_isIntegral h
  unfold amount truncate at *
  dsimp only at *
  split
  · rename_i hsign
    rw [if_pos hsign, Int.natAbs_neg, Int.natAbs_natCast] at hunits
    rw [Int.neg_mul, ← Int.natCast_mul, ← hunits]
  · rename_i hsign
    rw [if_neg hsign, Int.natAbs_natCast] at hunits
    rw [← Int.natCast_mul, ← hunits]

/-- Integers of fifty-three bits are doubles. -/
theorem amount_ofInt {n : Int} (h : n.natAbs < 2 ^ 53) :
    (ofInt n).isFinite = true ∧ (ofInt n).amount = n * unitsPerOne := by
  have hexact : IsExact n.natAbs := isExact_of_le (Nat.le_of_lt h)
  have hword : (ofInt n).word = (ofNat n.natAbs).word := by rw [ofInt, ofNat, word_nearest, word_nearest]
  have hunits : (ofInt n).units = n.natAbs * unitsPerOne := by
    rw [← hexact.2, units_eq, units_eq, hword]
  refine ⟨by rw [isFinite, hword]; exact hexact.1, ?_⟩
  rw [amount, hunits, ofInt, signBit_nearest, Int.natCast_mul]
  by_cases hneg : n < 0
  · rw [if_pos (decide_eq_true hneg), ← Int.neg_mul, Int.ofNat_natAbs_of_nonpos (by omega), Int.neg_neg]
  · rw [if_neg (by simpa using hneg), Int.natAbs_of_nonneg (by omega)]

section

variable {x : Binary64} {n : Int} (hx : x.isIntegral = true) (hn : n.natAbs < 2 ^ 53)

include hx hn

theorem ofInt_le_iff : (ofInt n).le x = true ↔ n ≤ x.truncate := by
  obtain ⟨hfinite, hamount⟩ := amount_ofInt hn
  rw [le_iff_amount hfinite (isFinite_of_isIntegral hx), hamount, amount_of_isIntegral hx]
  exact mul_le_mul_iff_of_pos_right (Int.natCast_pos.mpr unitsPerOne_pos)

theorem le_ofInt_iff : x.le (ofInt n) = true ↔ x.truncate ≤ n := by
  obtain ⟨hfinite, hamount⟩ := amount_ofInt hn
  rw [le_iff_amount (isFinite_of_isIntegral hx) hfinite, hamount, amount_of_isIntegral hx]
  exact mul_le_mul_iff_of_pos_right (Int.natCast_pos.mpr unitsPerOne_pos)

end

/-- An integer has a sign exactly if it is below zero. -/
theorem lt_zero_iff {x : Binary64} (h : x.isIntegral = true) :
    x.lt (zero false) = true ↔ x.truncate < 0 := by
  have hzero : ofInt 0 = zero false := by
    rw [ofInt, Int.natAbs_zero, Nat.zero_mul]
    exact nearest_zero false Nat.one_pos
  have hle := ofInt_le_iff h (n := 0) (by decide)
  have hfinite : (zero false).isFinite = true := rfl
  rw [hzero, le, isNaN_of_isFinite (isFinite_of_isIntegral h), isNaN_of_isFinite hfinite] at hle
  rw [lt, isNaN_of_isFinite (isFinite_of_isIntegral h), isNaN_of_isFinite hfinite]
  simp only [Bool.not_false, Bool.true_and, decide_eq_true_eq] at hle ⊢
  omega

end Binary64

/-! ## The shortest decimal of an integer -/

namespace Decimal

open Binary64 (unitsPerOne)

/-- The value of a word is inside its interval. -/
theorem Interval.contains_value {w : Nat} (h : w ≠ 0) :
    (Interval.ofWord w).contains 1 (Interval.ofWord w).value = true := by
  have hpos : 0 < Binary64.magnitude w := by
    have := Binary64.magnitude_strictMono (Nat.pos_of_ne_zero h)
    omega
  have hvalue : (Interval.ofWord w).value = 4 * Binary64.magnitude w := Nat.mul_assoc 4 _ _
  have hstep : 0 < Nat.pow 2 (Binary64.binade w) := Nat.two_pow_pos _
  refine contains_of_between ?_ ?_
  · have hlow : (Interval.ofWord w).low = (Interval.ofWord w).value -
        if Binary64.significand w = Binary64.binadeSize ∧ Binary64.binade w ≠ 0 then
          Nat.pow 2 (Binary64.binade w) else 2 * Nat.pow 2 (Binary64.binade w) := rfl
    rw [hlow]
    split <;> omega
  · have hhigh : (Interval.ofWord w).high =
        (Interval.ofWord w).value + 2 * Nat.pow 2 (Binary64.binade w) := rfl
    omega

/-- The multiple before the value is found if it is in the interval. -/
theorem Interval.isSome_multiple?_of_below {tie : Tie} {i : Interval} {scale step : Nat}
    (hpos : 0 < i.value * scale / step)
    (h : i.contains scale (i.value * scale / step * step) = true) :
    (i.multiple? tie scale step).isSome = true := by
  unfold multiple?
  dsimp only
  rw [h, decide_eq_true hpos]
  cases i.contains scale ((i.value * scale / step + 1) * step) with
  | false => rfl
  | true => cases tie <;> grind

/-- The grid of the integers hits every integer but zero. -/
theorem Interval.isSome_gridPoint?_zero (tie : Tie) {x : Binary64} (h : x.isIntegral = true)
    (hzero : x.isZero = false) : ((Interval.ofWord x.word).gridPoint? tie 0).isSome = true := by
  have hword : x.word ≠ 0 := by simpa [Binary64.isZero] using hzero
  have hcontains := contains_value hword
  have hvalue : (Interval.ofWord x.word).value = x.truncate.natAbs * (4 * unitsPerOne) := by
    have hfour : (Interval.ofWord x.word).value = 4 * x.units := Nat.mul_assoc 4 _ _
    rw [hfour, Binary64.units_of_isIntegral h, Nat.mul_left_comm]
  have hpos : 0 < 4 * unitsPerOne := Nat.mul_pos (by decide) Binary64.unitsPerOne_pos
  have hnonzero : 0 < x.truncate.natAbs := by
    refine Nat.pos_of_ne_zero fun hnil => hword ?_
    refine Binary64.magnitude_strictMono.injective (?_ : Binary64.magnitude x.word = Binary64.magnitude 0)
    rw [← Binary64.units_eq, Binary64.units_of_isIntegral h, hnil, Nat.zero_mul]
    exact (Nat.zero_mul _).symm
  have hgrid : (Interval.ofWord x.word).gridPoint? tie 0 =
      (Interval.ofWord x.word).multiple? tie 1 (4 * unitsPerOne) := by
    rw [gridPoint?, ifNonneg_eq_pow, ifNonpos_eq_pow, Int.neg_zero, Int.toNat_zero, Nat.pow_zero,
      Nat.one_mul]
  have hdiv : (Interval.ofWord x.word).value * 1 / (4 * unitsPerOne) = x.truncate.natAbs := by
    rw [Nat.mul_one, hvalue, Nat.mul_div_cancel _ hpos]
  rw [hgrid]
  refine isSome_multiple?_of_below ?_ ?_
  · rw [hdiv]
    exact hnonzero
  · rw [hdiv, ← hvalue]
    exact hcontains

/-- A search that has a hit ends there at the latest. -/
theorem le_exponent_coarsest {find : Int → Option Nat} {k : Int} {fuel j : Nat} (hj : j < fuel)
    (h : (find (k - j)).isSome = true) : k - j ≤ (coarsest find k fuel).exponent := by
  induction fuel generalizing k j with
  | zero => omega
  | succ fuel ih =>
    rw [coarsest]
    cases hpoint : find k with
    | some n =>
      show k - j ≤ k
      omega
    | none =>
      cases j with
      | zero =>
        rw [Int.natCast_zero, Int.sub_zero, hpoint] at h
        cases h
      | succ j =>
        have hsame : k - ((j + 1 : Nat) : Int) = k - 1 - j := by omega
        rw [hsame] at h ⊢
        exact ih (by omega) h

/-- **The shortest decimal of an integer has no negative exponent.** -/
theorem exponent_shortest (tie : Tie) {x : Binary64} (h : x.isIntegral = true) :
    0 ≤ (shortest tie x).exponent := by
  unfold shortest
  split
  · exact Int.le_refl 0
  · rename_i hzero
    exact le_exponent_coarsest (j := 309) (by decide)
      (Interval.isSome_gridPoint?_zero tie h (by simpa using hzero))

/-- The integers below fifty-three bits are further apart than the numbers there, so that the decimal
is the integer itself. -/
theorem value_shortest (tie : Tie) {x : Binary64} (h : x.isIntegral = true)
    (hsmall : x.truncate.natAbs < 2 ^ 53) :
    (shortest tie x).digits * 10 ^ (shortest tie x).exponent.toNat = x.truncate.natAbs := by
  have hunits := Binary64.units_of_isIntegral h
  cases hzero : x.isZero with
  | true =>
    have hword : x.word = 0 := by simpa [Binary64.isZero] using hzero
    have hnil : x.units = 0 := by
      rw [Binary64.units_eq, hword]
      exact Nat.zero_mul _
    rw [hnil] at hunits
    rcases Nat.mul_eq_zero.mp hunits.symm with hnil | hnil
    · rw [shortest, if_pos hzero, hnil]
      rfl
    · exact absurd hnil Binary64.unitsPerOne_pos.ne'
  | false =>
    obtain ⟨-, -, -, hcontains⟩ := shortest_contains tie hzero
    have hwithin := Binary64.within_of_contains hcontains
    have hden : (shortest tie x).denominator = 1 := by
      rw [denominator, Int.toNat_of_nonpos (by have := exponent_shortest tie h; omega), Nat.pow_zero]
    -- a step is at most one
    have hstep : 2 ^ Binary64.binade x.word ≤ unitsPerOne := by
      by_contra hlt
      rw [Binary64.unitsPerOne_eq, Nat.pow_le_pow_iff_right (by decide), Nat.not_le] at hlt
      have hdouble : 2 * unitsPerOne ≤ 2 ^ Binary64.binade x.word := by
        rw [Binary64.unitsPerOne_eq, ← Nat.pow_succ']
        exact Nat.pow_le_pow_right (by decide) hlt
      have hfull := Binary64.binadeSize_le_significand (by omega : Binary64.binade x.word ≠ 0)
      have hsize : 2 ^ 53 = Binary64.binadeSize * 2 := by decide
      have hlow : 2 ^ 53 * unitsPerOne ≤ x.units := by
        rw [hsize, Nat.mul_assoc]
        exact Nat.mul_le_mul hfull hdouble
      rw [hunits] at hlow
      exact absurd (Nat.le_of_mul_le_mul_right hlow Binary64.unitsPerOne_pos) (Nat.not_le.mpr hsmall)
    have hvalue : Binary64.significand x.word * (1 * 2 ^ Binary64.binade x.word) =
        x.truncate.natAbs * unitsPerOne := by
      rw [Nat.one_mul]
      exact hunits
    dsimp only at hwithin
    rw [hden, hvalue, numerator] at hwithin
    obtain ⟨hlow, hhigh, -⟩ := hwithin
    generalize (shortest tie x).digits * 10 ^ (shortest tie x).exponent.toNat = n at *
    generalize 2 ^ Binary64.binade x.word = step at *
    have hunit := Binary64.unitsPerOne_pos
    have hbelow : (if Binary64.significand x.word = Binary64.binadeSize ∧
        Binary64.binade x.word ≠ 0 then 1 else 2) * (1 * step) ≤ 2 * unitsPerOne := by
      split <;> omega
    generalize unitsPerOne = unit at *
    rcases Nat.lt_trichotomy n x.truncate.natAbs with hlt | heq | hlt
    · have := Nat.mul_le_mul_right unit hlt
      rw [Nat.succ_mul] at this
      omega
    · exact heq
    · have := Nat.mul_le_mul_right unit hlt
      rw [Nat.succ_mul] at this
      omega

end Decimal

/-! ## How integers are spelled -/

/-- An integer is what a number is written as: it is read as that number, a zero being written without its
sign, and up to fifty-three bits it is the number itself. -/
structure Binary64.WrittenAs (x : Binary64) (n : Int) : Prop where
  readBack : Binary64.ofInt n = x ∨ x.isZero = true ∧ n = 0
  exact : x.truncate.natAbs < 2 ^ 53 → n = x.truncate

namespace Expr

/-- A number that is an integer is written as a numeral without a fraction, or as the negation of
one. With the sign of the number, the numeral is read as it. -/
theorem ofNumber_of_isIntegral {x : Binary64} (h : x.isIntegral = true) :
    ∃ n : Nat, Expr.ofNumber x = (if x.truncate < 0 then (Expr.ofNat n).negate else Expr.ofNat n) ∧
      (x.truncate.natAbs < 2 ^ 53 → n = x.truncate.natAbs) ∧
      Binary64.nearest x.signBit (n * Binary64.unitsPerOne) 1 = x := by
  have hfinite := Binary64.isFinite_of_isIntegral h
  have hexponent := Decimal.exponent_shortest .up h
  have hnumeral : Expr.magnitude x = Expr.ofNat ((Decimal.shortest .up x).digits *
      10 ^ (Decimal.shortest .up x).exponent.toNat) := by
    rw [Expr.magnitude, Binary64.isNaN_of_isFinite hfinite, Binary64.isInfinite_of_isFinite hfinite]
    simp only [Bool.false_eq_true, if_false, Numeral.ofDecimal, if_pos hexponent]
    rfl
  have hread := Decimal.nearest_shortest .up hfinite
  rw [Decimal.numerator, Decimal.denominator, Int.toNat_of_nonpos (by omega : -_ ≤ (0 : Int)),
    Nat.pow_zero] at hread
  refine ⟨_, ?_, Decimal.value_shortest .up h, hread⟩
  rw [Expr.ofNumber, hnumeral]
  by_cases hneg : x.truncate < 0
  · rw [if_pos ((Binary64.lt_zero_iff h).mpr hneg), if_pos hneg]
  · rw [if_neg fun hlt => hneg ((Binary64.lt_zero_iff h).mp hlt), if_neg hneg]

/-- **An integer is spelled as what it is written as**, however large it is. -/
theorem writtenAs_ofNumber {x : Binary64} (h : x.isIntegral = true) :
    ∃ n, (Expr.ofNumber x).integer? = some n ∧ x.WrittenAs n := by
  obtain ⟨m, heq, hvalue, hread⟩ := ofNumber_of_isIntegral h
  cases hsign : x.signBit with
  | false =>
    have hnonneg := Binary64.truncate_nonneg hsign
    refine ⟨m, by rw [heq, if_neg (by omega)]; rfl, .inl ?_, fun hsmall => ?_⟩
    · rw [Binary64.ofInt, decide_eq_false (by omega), Int.natAbs_natCast, ← hsign, hread]
    · have := hvalue hsmall
      omega
  | true =>
    rw [hsign] at hread
    by_cases hneg : x.truncate < 0
    · have hpos : 0 < m := by
        refine Nat.pos_of_ne_zero fun hnil => ?_
        rw [hnil, Nat.zero_mul, Binary64.nearest_zero _ Nat.one_pos] at hread
        rw [← hread] at hneg
        exact absurd hneg (by decide +kernel)
      refine ⟨-m, by rw [heq, if_pos hneg]; rfl, .inl ?_, fun hsmall => ?_⟩
      · rw [Binary64.ofInt, decide_eq_true (by omega), Int.natAbs_neg, Int.natAbs_natCast, hread]
      · have := hvalue hsmall
        omega
    · -- only a zero has a sign without being below zero
      have hnil : x.truncate = 0 := by
        have := Binary64.truncate_nonpos hsign
        omega
      obtain rfl : m = 0 := by
        have := hvalue (by rw [hnil]; decide)
        omega
      rw [Nat.zero_mul, Binary64.nearest_zero _ Nat.one_pos] at hread
      refine ⟨0, by rw [heq, if_neg hneg]; rfl, .inr ⟨?_, rfl⟩, fun _ => hnil.symm⟩
      rw [← hread]
      decide

/-- **An integer of a moderate size is spelled as what it is.** -/
theorem integer?_ofNumber {x : Binary64} (h : x.isIntegral = true)
    (hsmall : x.truncate.natAbs < 2 ^ 53) : (Expr.ofNumber x).integer? = some x.truncate := by
  obtain ⟨n, heq, hwritten⟩ := writtenAs_ofNumber h
  rw [heq, hwritten.exact hsmall]

end Expr

end BlockBoard
