import BlockBoard.Proofs.Number.Rounding
/-!
# The shortest decimal

The decimal that a number is written as is looked for on coarser grids first, and lies in the interval of
what is rounded to the number.

- `Decimal.numerator`, `Decimal.denominator`: a decimal as a fraction of units.
- `Interval.multiple?_eq_some`: what is found on a grid is in the interval.
- `shortest_contains`: **something is found for each number**.
- `nearest_shortest`: **the number nearest to it is the number it was found for**.
-/

namespace BlockBoard

namespace Decimal

open Binary64 (unitsPerOne nearestWord nearestWord_of_contains)

/-! ## Decimals as fractions -/

/-- The numerator of a decimal as a fraction of units. -/
def numerator (d : Decimal) : Nat := d.digits * 10 ^ d.exponent.toNat * unitsPerOne

/-- The denominator of a decimal as a fraction of units. -/
def denominator (d : Decimal) : Nat := 10 ^ (-d.exponent).toNat

theorem denominator_pos (d : Decimal) : 0 < d.denominator := Nat.pow_pos (by decide)

theorem ifNonneg_eq_pow (k : Int) : (if 0 ≤ k then Nat.pow 10 k.toNat else 1) = 10 ^ k.toNat := by
  split
  · rfl
  · rw [Int.toNat_of_nonpos (by omega), Nat.pow_zero]

theorem ifNonpos_eq_pow (k : Int) : (if 0 ≤ k then 1 else Nat.pow 10 (-k).toNat) = 10 ^ (-k).toNat := by
  split
  · rw [Int.toNat_of_nonpos (by omega), Nat.pow_zero]
  · rfl

/-! ## Points of a grid -/

/-- What is found is in the interval, and is not zero. -/
theorem Interval.multiple?_eq_some {tie : Tie} {i : Interval} {scale step n : Nat}
    (h : i.multiple? tie scale step = some n) : 0 < n ∧ i.contains scale (n * step) = true := by
  unfold multiple? at h
  dsimp only at h
  generalize i.value * scale / step = d at *
  generalize hbelow : (decide (0 < d) && i.contains scale (d * step)) = below at *
  generalize habove : i.contains scale ((d + 1) * step) = above at *
  have hat (hb : below = true) : 0 < d ∧ i.contains scale (d * step) = true := by
    rw [hb, Bool.and_eq_true, decide_eq_true_eq] at hbelow
    exact hbelow
  have hnext (ha : above = true) : 0 < d + 1 ∧ i.contains scale ((d + 1) * step) = true :=
    ⟨Nat.succ_pos _, habove.trans ha⟩
  cases below with
  | false =>
    cases above with
    | false => cases h
    | true =>
      obtain rfl := Option.some.inj h
      exact hnext rfl
  | true =>
    cases above with
    | false =>
      obtain rfl := Option.some.inj h
      exact hat rfl
    | true =>
      have hn : n = d ∨ n = d + 1 := by grind
      rcases hn with rfl | rfl
      · exact hat rfl
      · exact hnext rfl

/-- The multiple after the value is found if it is in the interval. -/
theorem Interval.isSome_multiple? {tie : Tie} {i : Interval} {scale step : Nat}
    (h : i.contains scale ((i.value * scale / step + 1) * step) = true) :
    (i.multiple? tie scale step).isSome = true := by
  unfold multiple?
  dsimp only
  rw [h]
  split
  · cases ‹true = false›
  · rfl
  · rfl
  · cases tie <;> grind

/-- What lies between the ends of an interval is in it. -/
theorem Interval.contains_of_between {i : Interval} {scale x : Nat} (hlow : i.low * scale < x)
    (hhigh : x < i.high * scale) : i.contains scale x = true := by
  unfold contains
  split
  · exact decide_eq_true ⟨Nat.le_of_lt hlow, Nat.le_of_lt hhigh⟩
  · exact decide_eq_true ⟨hlow, hhigh⟩

/-- A step below half a unit has a multiple in every interval, right after the value. -/
theorem Interval.isSome_multiple?_ofWord (tie : Tie) (w : Nat) {scale step : Nat} (hpos : 0 < step)
    (hstep : step < 2 * scale) : ((Interval.ofWord w).multiple? tie scale step).isSome = true := by
  have hlow : (Interval.ofWord w).low ≤ (Interval.ofWord w).value := Nat.sub_le _ _
  have hhigh : (Interval.ofWord w).value + 2 ≤ (Interval.ofWord w).high :=
    Nat.add_le_add_left (Nat.mul_le_mul_left 2 (Nat.two_pow_pos _)) _
  generalize Interval.ofWord w = i at *
  have hdivision : i.value * scale / step * step + i.value * scale % step = i.value * scale :=
    Nat.div_add_mod' _ _
  have hmod := Nat.mod_lt (i.value * scale) hpos
  refine isSome_multiple? (contains_of_between ?_ ?_)
  · have := Nat.mul_le_mul_right scale hlow
    rw [Nat.succ_mul]
    omega
  · have := Nat.mul_le_mul_right scale hhigh
    rw [Nat.add_mul] at this
    rw [Nat.succ_mul]
    omega

/-- The finest grid of the search has a point in every interval. -/
theorem Interval.isSome_gridPoint?_finest (tie : Tie) (w : Nat) :
    ((Interval.ofWord w).gridPoint? tie (-324)).isSome = true :=
  isSome_multiple?_ofWord tie w (by decide +kernel) (by decide +kernel)

/-! ## The search -/

/-- What is found is on one of the grids, and is the point found there. -/
theorem coarsest_eq {find : Int → Option Nat} {k : Int} {fuel : Nat}
    (h : ∃ j < fuel, (find (k - (j : Nat))).isSome = true) :
    ∃ n e, coarsest find k fuel = ⟨n, e⟩ ∧ find e = some n ∧ k - fuel < e ∧ e ≤ k := by
  induction fuel generalizing k with
  | zero =>
    obtain ⟨j, hj, -⟩ := h
    omega
  | succ fuel ih =>
    rw [coarsest]
    cases hpoint : find k with
    | some n => exact ⟨n, k, rfl, hpoint, by omega, Int.le_refl k⟩
    | none =>
      obtain ⟨j, hj, hsome⟩ := h
      have hne : j ≠ 0 := by
        rintro rfl
        rw [Int.natCast_zero, Int.sub_zero, hpoint] at hsome
        cases hsome
      obtain ⟨n, e, heq, hfound, hlow, hhigh⟩ := ih (k := k - 1) ⟨j - 1, by omega, by
        rwa [show k - 1 - ((j - 1 : Nat) : Int) = k - j by omega]⟩
      exact ⟨n, e, heq, hfound, by omega, by omega⟩

/-- **Something is found for each number**: a decimal that lies in the interval of what is rounded to
it. -/
theorem shortest_contains (tie : Tie) {x : Binary64} (h : x.isZero = false) :
    0 < (shortest tie x).digits ∧ -324 ≤ (shortest tie x).exponent ∧ (shortest tie x).exponent ≤ 309 ∧
      (Interval.ofWord x.word).contains (shortest tie x).denominator
        (4 * (shortest tie x).numerator) = true := by
  have hfinest := Interval.isSome_gridPoint?_finest tie x.word
  have hreached : ∃ j < 634, ((Interval.ofWord x.word).gridPoint? tie (309 - (j : Nat))).isSome = true :=
    ⟨633, by decide, hfinest⟩
  obtain ⟨n, e, heq, hpoint, hlow, hhigh⟩ := coarsest_eq hreached
  obtain ⟨hpos, hfound⟩ := Interval.multiple?_eq_some hpoint
  have hpoint : 4 * numerator ⟨n, e⟩ = n * (10 ^ e.toNat * (4 * unitsPerOne)) := by
    unfold numerator
    generalize unitsPerOne = unit
    ring
  rw [ifNonneg_eq_pow, ifNonpos_eq_pow] at hfound
  rw [shortest, if_neg (by rw [h]; decide), heq, hpoint]
  exact ⟨hpos, by dsimp only; omega, hhigh, hfound⟩

/-- **The shortest decimal is rounded to the number.** -/
theorem nearestWord_shortest (tie : Tie) {x : Binary64} (h : x.isZero = false) :
    nearestWord (shortest tie x).numerator (shortest tie x).denominator = x.word :=
  nearestWord_of_contains (denominator_pos _) (shortest_contains tie h).2.2.2

/-- **The number nearest to the shortest decimal of a finite number is that number.** -/
theorem nearest_shortest (tie : Tie) {x : Binary64} (h : x.isFinite = true) :
    Binary64.nearest x.signBit (shortest tie x).numerator (shortest tie x).denominator = x := by
  cases hzero : x.isZero with
  | true =>
    have hnumerator : numerator ⟨0, 0⟩ = 0 := by rw [numerator, Nat.zero_mul, Nat.zero_mul]
    rw [shortest, if_pos hzero, hnumerator, Binary64.nearest_zero _ (denominator_pos _),
      Binary64.zero_of_isZero hzero]
  | false =>
    rw [Binary64.nearest, nearestWord_shortest tie hzero,
      Nat.min_eq_left (Nat.le_of_lt (Binary64.word_lt_of_isFinite h)), Binary64.ofWord_word]

end Decimal

end BlockBoard
