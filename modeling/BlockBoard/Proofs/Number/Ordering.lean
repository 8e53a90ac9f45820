import BlockBoard.Proofs.Number.Whole
/-!
# Rounding keeps the order

Of two fractions the greater one is not rounded to the smaller number, so that rounded numbers can be compared
in place of what they stand for, up to those that are rounded to the same one. These are close to each other.

- `Binary64.nearestWord_mono`: **rounding keeps the order**.
- `Binary64.nearestWord_magnitude`, `Binary64.mul_one_eq`: a number is rounded to itself, and one times a number
  is the number.
- `Binary64.le_iff_word`, `Binary64.lt_iff_word`: numbers without a sign are ordered as their words.
- `Binary64.nearestWord_error`: **rounding changes a fraction by at most one part in `2 ^ 53`**.
- `Binary64.ofNat_injOn`, `Binary64.ofNat_close`: natural numbers that are rounded to the same number.
-/

namespace BlockBoard

namespace Binary64

/-! ## The order -/

/-- The greater numerator is not rounded to the smaller integer. -/
theorem roundHalfEven_mono {m n den : Nat} (hden : 0 < den) (h : m ≤ n) :
    roundHalfEven m den ≤ roundHalfEven n den := by
  obtain ⟨hlow, -, htie⟩ := roundHalfEven_within m den hden
  obtain ⟨-, hhigh', htie'⟩ := roundHalfEven_within n den hden
  generalize roundHalfEven m den = r at *
  generalize roundHalfEven n den = r' at *
  by_contra hlt
  have hstep : (r' + 1) * den ≤ r * den := Nat.mul_le_mul_right den (Nat.lt_of_not_le hlt)
  rw [Nat.succ_mul] at hstep
  rcases Nat.lt_or_eq_of_le (Nat.lt_of_not_le hlt) with hfar | rfl
  · have hstep : (r' + 2) * den ≤ r * den := Nat.mul_le_mul_right den hfar
    rw [Nat.add_mul] at hstep
    omega
  · -- both would be half-way between two neighbours, of which one is odd
    omega

/-- The greater numerator is not in the lower binade. -/
theorem InBinade.mono {m n den b c : Nat} (hb : InBinade m den b) (hc : InBinade n den c) (h : m ≤ n) :
    b ≤ c := by
  by_contra hlt
  have hpow : den * 2 ^ (c + 53) ≤ den * 2 ^ (b + 52) :=
    Nat.mul_le_mul_left den (Nat.pow_le_pow_right (by decide) (by omega))
  have hlow := hb.2 (by omega)
  have hhigh := hc.1
  omega

/-- **Rounding keeps the order.** -/
theorem nearestWord_mono {m n den : Nat} (hden : 0 < den) (h : m ≤ n) :
    nearestWord m den ≤ nearestWord n den := by
  have hm := inBinade_log2 m den hden
  have hn := inBinade_log2 n den hden
  have hle := hm.mono hn h
  rw [hm.nearestWord_eq hden, hn.nearestWord_eq hden]
  obtain ⟨hmost, -⟩ := hm.rounded_bounds hden
  obtain ⟨-, hleast⟩ := hn.rounded_bounds hden
  generalize Nat.log2 (m / den) - 52 = b at *
  generalize Nat.log2 (n / den) - 52 = c at *
  rcases Nat.lt_or_eq_of_le hle with hlt | rfl
  · have hstep : (b + 1) * binadeSize ≤ c * binadeSize := Nat.mul_le_mul_right binadeSize hlt
    rw [Nat.succ_mul] at hstep
    have := hleast (by omega)
    omega
  · exact Nat.add_le_add_left (roundHalfEven_mono (Nat.mul_pos hden (Nat.two_pow_pos b)) h) _

/-- What is a number already is rounded to it. -/
theorem nearestWord_magnitude (w : Nat) : nearestWord (magnitude w) 1 = w :=
  magnitude_strictMono.injective (magnitude_nearestWord rfl (significand_lt w))

/-- **One times a number is the number.** -/
theorem mul_one_eq {x : Binary64} (h : x.isFinite = true) : x.mul (ofNat 1) = x := by
  have hone : IsExact 1 := isExact_of_le (by decide)
  have hsign : (ofNat 1).signBit = false := signBit_nearest
  have hround : nearest x.signBit x.units 1 = x := by
    rw [nearest, units_eq, nearestWord_magnitude, Nat.min_eq_left (Nat.le_of_lt (word_lt_of_isFinite h)),
      ofWord_word]
  have hscale := nearest_mul_right x.signBit x.units 1 unitsPerOne_pos
  rw [Nat.one_mul] at hscale
  rw [mul_of_isFinite h hone.1, hone.2, hsign, Nat.one_mul, Bool.bne_false, hscale, hround]

/-! ## Comparing -/

section

variable {x y z : Binary64}

/-- Only numbers are comparable. -/
theorem isNaN_of_le (h : x.le y = true) : x.isNaN = false ∧ y.isNaN = false := by
  simp only [le, Bool.and_eq_true, Bool.not_eq_true'] at h
  exact h.1

theorem isNaN_of_lt (h : x.lt y = true) : x.isNaN = false ∧ y.isNaN = false := by
  simp only [lt, Bool.and_eq_true, Bool.not_eq_true'] at h
  exact h.1

theorem lt_of_le_of_lt (h : x.le y = true) (h' : y.lt z = true) : x.lt z = true := by
  simp only [le, lt, Bool.and_eq_true, decide_eq_true_eq] at h h' ⊢
  obtain ⟨⟨hx, -⟩, hle⟩ := h
  obtain ⟨⟨-, hz⟩, hlt⟩ := h'
  exact ⟨⟨hx, hz⟩, Int.lt_of_le_of_lt hle hlt⟩

theorem lt_eq_false_of_le (h : x.le y = true) : y.lt x = false := by
  simp only [le, Bool.and_eq_true, decide_eq_true_eq] at h
  simp only [lt, Bool.and_eq_false_iff, decide_eq_false_iff_not, Int.not_lt]
  exact .inr h.2

/-- What is above zero has no sign. -/
theorem signBit_of_zero_lt (h : (zero false).lt x = true) : x.signBit = false := by
  have hzero : (zero false).place = 0 := by decide
  simp only [lt, Bool.and_eq_true, decide_eq_true_eq, hzero] at h
  cases hsign : x.signBit with
  | false => rfl
  | true =>
    rw [place, if_pos hsign] at h
    omega

section

variable (hx : x.isNaN = false) (hy : y.isNaN = false) (hxsign : x.signBit = false)
  (hysign : y.signBit = false)

include hx hy hxsign hysign

/-- Numbers without a sign are ordered as their words. -/
theorem le_iff_word : x.le y = true ↔ x.word ≤ y.word := by
  rw [le, hx, hy, place, place, hxsign, hysign]
  simp

theorem lt_iff_word : x.lt y = true ↔ x.word < y.word := by
  rw [lt, hx, hy, place, place, hxsign, hysign]
  simp

end

/-- What is above zero has units. -/
theorem units_pos_of_zero_lt (h : (zero false).lt x = true) : 0 < x.units := by
  obtain ⟨hzero, hx⟩ := isNaN_of_lt h
  rw [lt_iff_word hzero hx (signBit_ofWord (by decide)) (signBit_of_zero_lt h)] at h
  exact (Nat.zero_le _).trans_lt (magnitude_strictMono h)

end

/-! ## The error -/

/-- **Rounding changes a fraction by at most one part in `2 ^ 53`**, unless it is among the smallest ones. -/
theorem nearestWord_error {num den : Nat} (hden : 0 < den) (hnormal : den * 2 ^ 52 ≤ num) :
    let value := den * magnitude (nearestWord num den)
    2 ^ 53 * num ≤ 2 ^ 53 * value + num ∧ 2 ^ 53 * value ≤ 2 ^ 53 * num + num := by
  intro value
  have hbinade := inBinade_log2 num den hden
  have hmagnitude := hbinade.magnitude_eq hden
  generalize Nat.log2 (num / den) - 52 = b at *
  have hvalue : value = roundHalfEven num (den * 2 ^ b) * (den * 2 ^ b) := by
    show den * (significand _ * 2 ^ binade _) = _
    rw [hmagnitude]
    ring
  -- half a step is at most that part of the fraction
  have hstep : den * 2 ^ b * 2 ^ 52 ≤ num := by
    by_cases hb : b = 0
    · rw [hb, Nat.pow_zero, Nat.mul_one]
      exact hnormal
    · rw [Nat.mul_assoc, ← Nat.pow_add]
      exact hbinade.2 hb
  obtain ⟨hlow, hhigh, -⟩ :=
    roundHalfEven_within num (den * 2 ^ b) (Nat.mul_pos hden (Nat.two_pow_pos b))
  rw [hvalue]
  constructor
  · omega
  · omega

/-! ## Natural numbers -/

theorem units_one : (ofNat 1).units = unitsPerOne := by
  rw [(isExact_of_le (by decide)).2, Nat.one_mul]

/-- One is not among the smallest numbers. -/
theorem two_pow_le_unitsPerOne : 2 ^ 52 ≤ unitsPerOne := by
  rw [unitsPerOne_eq]
  exact Nat.pow_le_pow_right (by decide) (by unfold binaryPlaces; omega)

section

variable {m n : Nat} (hn : n < 2 ^ 200)

include hn

theorem word_ofNat : (ofNat n).word = nearestWord (n * unitsPerOne) 1 := by
  rw [ofNat, word_nearest, Nat.min_eq_left (Nat.le_of_lt (nearestWord_unitsPerOne_lt hn))]

theorem isFinite_ofNat : (ofNat n).isFinite = true := by
  rw [ofNat, isFinite_nearest, decide_eq_true (nearestWord_unitsPerOne_lt hn)]

/-- Natural numbers are kept in order. -/
theorem word_ofNat_mono (h : m ≤ n) : (ofNat m).word ≤ (ofNat n).word := by
  rw [word_ofNat hn, word_ofNat (h.trans_lt hn)]
  exact nearestWord_mono Nat.one_pos (Nat.mul_le_mul_right unitsPerOne h)

theorem ofNat_le_ofNat (h : m ≤ n) : (ofNat m).le (ofNat n) = true := by
  have hm := h.trans_lt hn
  rw [le_iff_word (isNaN_of_isFinite (isFinite_ofNat hm)) (isNaN_of_isFinite (isFinite_ofNat hn))
    signBit_nearest signBit_nearest]
  exact word_ofNat_mono hn h

/-- Of two natural numbers the smaller one is below the other exactly if they are not rounded to the same
number. -/
theorem lt_ofNat_iff (h : m ≤ n) : (ofNat m).lt (ofNat n) = true ↔ ofNat m ≠ ofNat n := by
  have hm := h.trans_lt hn
  have hle := word_ofNat_mono hn h
  have hsign (k : Nat) : (ofNat k).signBit = false := signBit_nearest
  have hsame : ofNat m = ofNat n ↔ (ofNat m).word = (ofNat n).word := by
    constructor
    · exact congrArg word
    · intro hword
      rw [← ofWord_word (ofNat m), ← ofWord_word (ofNat n), hword, hsign, hsign]
  rw [lt_iff_word (isNaN_of_isFinite (isFinite_ofNat hm)) (isNaN_of_isFinite (isFinite_ofNat hn)) (hsign m)
    (hsign n), Ne, hsame]
  omega

/-- Natural numbers other than zero are not rounded below one. -/
theorem unitsPerOne_le_units (hpos : 0 < n) : unitsPerOne ≤ (ofNat n).units := by
  rw [← units_one, units_eq, units_eq]
  exact magnitude_strictMono.monotone (word_ofNat_mono hn hpos)

/-- A natural number is rounded by at most one part in `2 ^ 53`. -/
theorem ofNat_error :
    2 ^ 53 * (n * unitsPerOne) ≤ 2 ^ 53 * (ofNat n).units + n * unitsPerOne ∧
      2 ^ 53 * (ofNat n).units ≤ 2 ^ 53 * (n * unitsPerOne) + n * unitsPerOne := by
  rw [units_eq, word_ofNat hn]
  rcases Nat.eq_zero_or_pos n with rfl | hpos
  · have hnil : magnitude (nearestWord 0 1) = 0 := by decide
    rw [Nat.zero_mul, hnil]
    exact ⟨Nat.le_refl _, Nat.le_refl _⟩
  · have hnormal : 1 * 2 ^ 52 ≤ n * unitsPerOne := by
      rw [Nat.one_mul]
      exact two_pow_le_unitsPerOne.trans (Nat.le_mul_of_pos_left unitsPerOne hpos)
    have herror := nearestWord_error Nat.one_pos hnormal
    rwa [Nat.one_mul] at herror

/-- A multiple of a natural number that was rounded is off by the same part. -/
theorem units_mul_error (c : Nat) :
    2 ^ 53 * (unitsPerOne * (n * c)) ≤ 2 ^ 53 * ((ofNat n).units * c) + unitsPerOne * (n * c) ∧
      2 ^ 53 * ((ofNat n).units * c) ≤ 2 ^ 53 * (unitsPerOne * (n * c)) + unitsPerOne * (n * c) := by
  obtain ⟨hlow, hhigh⟩ := ofNat_error hn
  have hlow := Nat.mul_le_mul_right c hlow
  have hhigh := Nat.mul_le_mul_right c hhigh
  have hswap : n * unitsPerOne * c = unitsPerOne * (n * c) := by ring
  simp only [Nat.add_mul, Nat.mul_assoc (2 ^ 53), hswap] at hlow hhigh
  exact ⟨hlow, hhigh⟩

/-- **Natural numbers that are rounded to the same number** are closer than one part in `2 ^ 52`. -/
theorem ofNat_close (h : m ≤ n) (hsame : ofNat m = ofNat n) : (n - m) * 2 ^ 52 ≤ n := by
  obtain ⟨hlow, -⟩ := ofNat_error hn
  obtain ⟨-, hhigh⟩ := ofNat_error (h.trans_lt hn)
  rw [hsame] at hhigh
  have hunits : (2 ^ 53 * n) * unitsPerOne ≤ (2 ^ 53 * m + m + n) * unitsPerOne := by
    rw [Nat.add_mul, Nat.add_mul, Nat.mul_assoc, Nat.mul_assoc]
    omega
  have := Nat.le_of_mul_le_mul_right hunits unitsPerOne_pos
  omega

end

/-- Up to `2 ^ 53`, different natural numbers are different numbers. -/
theorem ofNat_injOn {m n : Nat} (hm : m ≤ 2 ^ 53) (hn : n ≤ 2 ^ 53) (h : ofNat m = ofNat n) : m = n := by
  have hunits : m * unitsPerOne = n * unitsPerOne := by
    rw [← (isExact_of_le hm).2, ← (isExact_of_le hn).2, h]
  exact Nat.eq_of_mul_eq_mul_right unitsPerOne_pos hunits

end Binary64

end BlockBoard
