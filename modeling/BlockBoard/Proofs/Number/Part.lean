import BlockBoard.Proofs.Number.Ordering
/-!
# Parts of numbers

A part is a factor above zero and at most one. When a natural number is compared with a part of another one,
both are rounded, and so is the product. Rounding keeps the order, so that a part of a number is never above it;
and it changes little, so that the comparison errs only close to the part.

- `Binary64.mul_part_le`: **a part of a number is at most the number**.
- `Binary64.lt_part_iff`: comparing with a part, in words.
- `Binary64.misses_part`, `Binary64.reaches_part`: **what is below a part of a number misses it, and what is not
  reaches it**, up to one part in `2 ^ 51`.
-/

namespace BlockBoard

namespace Binary64

/-- A product with one is rounded to the number. -/
theorem nearestWord_units (x : Binary64) : nearestWord (x.units * unitsPerOne) unitsPerOne = x.word :=
  calc nearestWord (x.units * unitsPerOne) unitsPerOne
      = nearestWord (x.units * unitsPerOne) (1 * unitsPerOne) := by rw [Nat.one_mul]
    _ = nearestWord x.units 1 := nearestWord_mul_right x.units 1 unitsPerOne_pos
    _ = x.word := nearestWord_magnitude x.word

section

variable {n : Nat} (hn : n < 2 ^ 200) (hpos : 0 < n)

include hn hpos

/-- A part of a natural number other than zero is not rounded to zero. -/
theorem one_le_nearestWord_part {part : Binary64} (hpositive : (zero false).lt part = true) :
    1 ≤ nearestWord ((ofNat n).units * part.units) unitsPerOne := by
  have hproduct : 1 * unitsPerOne ≤ (ofNat n).units * part.units := by
    rw [Nat.one_mul]
    exact (unitsPerOne_le_units hn hpos).trans
      (Nat.le_mul_of_pos_right _ (units_pos_of_zero_lt hpositive))
  calc 1 = nearestWord 1 1 := (nearestWord_magnitude 1).symm
    _ = nearestWord (1 * unitsPerOne) (1 * unitsPerOne) :=
        (nearestWord_mul_right 1 1 unitsPerOne_pos).symm
    _ = nearestWord (1 * unitsPerOne) unitsPerOne := by rw [Nat.one_mul]
    _ ≤ _ := nearestWord_mono unitsPerOne_pos hproduct

/-- What is not rounded above a natural number other than zero is at most that number, up to one part in
`2 ^ 53`. -/
theorem le_of_nearestWord_le {num : Nat} (h : nearestWord num unitsPerOne ≤ (ofNat n).word) :
    2 ^ 53 * num ≤ 2 ^ 53 * ((ofNat n).units * unitsPerOne) + num := by
  rw [Nat.mul_comm _ unitsPerOne]
  by_cases hnormal : unitsPerOne * 2 ^ 52 ≤ num
  · obtain ⟨hlow, -⟩ := nearestWord_error unitsPerOne_pos hnormal
    have := Nat.mul_le_mul_left unitsPerOne (magnitude_strictMono.monotone h)
    rw [← units_eq] at this
    omega
  · -- the smallest fractions, of which this says nothing, are below all of these numbers
    have hlarge : unitsPerOne * 2 ^ 52 ≤ unitsPerOne * (ofNat n).units :=
      Nat.mul_le_mul_left unitsPerOne (two_pow_le_unitsPerOne.trans (unitsPerOne_le_units hn hpos))
    omega

end

section

variable {part : Binary64} (hpositive : (zero false).lt part = true) (hpart : part.le (ofNat 1) = true)

include hpositive hpart

theorem word_part_le : part.word ≤ (ofNat 1).word := by
  obtain ⟨hx, hone⟩ := isNaN_of_le hpart
  exact (le_iff_word hx hone (signBit_of_zero_lt hpositive) signBit_nearest).mp hpart

/-- What is above zero and at most one is finite. -/
theorem isFinite_part : part.isFinite = true := by
  have hone : (ofNat 1).isFinite = true := (isExact_of_le (by decide)).1
  exact decide_eq_true ((word_part_le hpositive hpart).trans_lt (word_lt_of_isFinite hone))

/-- A part of a number is not rounded above it. -/
theorem nearestWord_part_le (x : Binary64) :
    nearestWord (x.units * part.units) unitsPerOne ≤ x.word := by
  have hunits : part.units ≤ unitsPerOne := by
    rw [← units_one, units_eq, units_eq]
    exact magnitude_strictMono.monotone (word_part_le hpositive hpart)
  calc nearestWord (x.units * part.units) unitsPerOne
      ≤ nearestWord (x.units * unitsPerOne) unitsPerOne :=
        nearestWord_mono unitsPerOne_pos (Nat.mul_le_mul_left x.units hunits)
    _ = x.word := x.nearestWord_units

/-! ## The product -/

section

variable {x : Binary64} (hx : x.isFinite = true) (hsign : x.signBit = false)

include hx hsign

theorem mul_part_eq : x.mul part = nearest false (x.units * part.units) unitsPerOne := by
  rw [mul_of_isFinite hx (isFinite_part hpositive hpart), hsign, signBit_of_zero_lt hpositive]
  rfl

theorem word_mul_part : (x.mul part).word = nearestWord (x.units * part.units) unitsPerOne := by
  have hle := nearestWord_part_le hpositive hpart x
  rw [mul_part_eq hpositive hpart hx hsign, word_nearest,
    Nat.min_eq_left (hle.trans (Nat.le_of_lt (word_lt_of_isFinite hx)))]

theorem isNaN_mul_part : (x.mul part).isNaN = false := by
  have hle := nearestWord_part_le hpositive hpart x
  refine isNaN_of_isFinite ?_
  rw [isFinite, word_mul_part hpositive hpart hx hsign]
  exact decide_eq_true (hle.trans_lt (word_lt_of_isFinite hx))

theorem signBit_mul_part : (x.mul part).signBit = false := by
  rw [mul_part_eq hpositive hpart hx hsign, signBit_nearest]

/-- **A part of a number is at most the number.** -/
theorem mul_part_le : (x.mul part).le x = true := by
  rw [le_iff_word (isNaN_mul_part hpositive hpart hx hsign) (isNaN_of_isFinite hx)
    (signBit_mul_part hpositive hpart hx hsign) hsign, word_mul_part hpositive hpart hx hsign]
  exact nearestWord_part_le hpositive hpart x

end

/-! ## Comparing with a part -/

section

variable {m n : Nat} (hm : m < 2 ^ 200) (hn : n < 2 ^ 200)

include hm hn

/-- Comparing a natural number with a part of another one compares what they are rounded to. -/
theorem lt_part_iff : (ofNat m).lt ((ofNat n).mul part) = true ↔
    (ofNat m).word < nearestWord ((ofNat n).units * part.units) unitsPerOne := by
  have hfinite := isFinite_ofNat hn
  rw [lt_iff_word (isNaN_of_isFinite (isFinite_ofNat hm))
    (isNaN_mul_part hpositive hpart hfinite signBit_nearest) signBit_nearest
    (signBit_mul_part hpositive hpart hfinite signBit_nearest),
    word_mul_part hpositive hpart hfinite signBit_nearest]

/-- **What is below a part of a number misses it**, up to one part in `2 ^ 51`. -/
theorem misses_part (h : (ofNat m).lt ((ofNat n).mul part) = true) :
    2 ^ 51 * (m * unitsPerOne) < (2 ^ 51 + 1) * (n * part.units) := by
  rw [lt_part_iff hpositive hpart hm hn] at h
  -- what is not below the product is not rounded below it
  have hbelow : (ofNat m).units * unitsPerOne < (ofNat n).units * part.units := by
    by_contra hnot
    have hround := nearestWord_mono unitsPerOne_pos (Nat.not_lt.mp hnot)
    rw [nearestWord_units] at hround
    omega
  obtain ⟨hlow, -⟩ := units_mul_error hm unitsPerOne
  obtain ⟨-, hhigh⟩ := units_mul_error hn part.units
  refine Nat.lt_of_mul_lt_mul_left (a := unitsPerOne) ?_
  rw [Nat.mul_left_comm, Nat.mul_left_comm unitsPerOne (2 ^ 51 + 1)]
  omega

/-- **What is not below a part of a number reaches it**, up to one part in `2 ^ 51`. -/
theorem reaches_part (h : (ofNat m).lt ((ofNat n).mul part) = false) :
    2 ^ 51 * (n * part.units) ≤ (2 ^ 51 + 1) * (m * unitsPerOne) := by
  rw [← Bool.not_eq_true, lt_part_iff hpositive hpart hm hn, Nat.not_lt] at h
  rcases Nat.eq_zero_or_pos m with rfl | hpos
  · have hnone : n = 0 := by
      by_contra hne
      have hround := one_le_nearestWord_part hn (Nat.pos_of_ne_zero hne) hpositive
      have hzero : (ofNat 0).word = 0 := by
        rw [word_ofNat hm, Nat.zero_mul]
        decide
      omega
    rw [hnone, Nat.zero_mul, Nat.mul_zero]
    exact Nat.zero_le _
  · have hreach := le_of_nearestWord_le hm hpos h
    obtain ⟨-, hhigh⟩ := units_mul_error hm unitsPerOne
    obtain ⟨hlow, -⟩ := units_mul_error hn part.units
    refine Nat.le_of_mul_le_mul_left ?_ unitsPerOne_pos
    rw [Nat.mul_left_comm, Nat.mul_left_comm unitsPerOne (2 ^ 51 + 1)]
    omega

end

end

end Binary64

end BlockBoard
