import BlockBoard.Proofs.Json.Reading
import BlockBoard.Proofs.Number.Shortest
/-!
# Numbers in documents

A number is written with the fewest digits that are closest to it, and read as a significand of 64 bits
that is multiplied or divided by a power of ten. The significand, the power and the result are each
rounded.

- `Json.Number.proper_ofDecimal`: a decimal is written as a number that can be read.
- `Json.Number.value_ofDecimal`: the significand and the power of ten that it is written with.
- `Binary64.reread?`: a number as it is read back from a document.
- `Binary64.Short`: a number whose significand and power of ten are doubles themselves.
- `Binary64.Short.reread?_eq`: **a short number is read back**.
-/

namespace BlockBoard

/-- An integer is less than the power of ten at its point. -/
theorem Decimal.lt_pow_pointPlace {d : Decimal} (h : 0 ≤ d.exponent) :
    d.digits * 10 ^ d.exponent.toNat < 10 ^ d.pointPlace.toNat := by
  have hlength : digitsAfter 0 (Nat.toDigits 10 d.digits) < _ := digitsAfter_lt fun c hc =>
    isDigit_of_mem_toDigits hc
  rw [show digitsAfter 0 _ = d.digits from digitsValue_toDigits d.digits, Nat.zero_add, Nat.one_mul] at hlength
  have hplace : d.pointPlace.toNat = (Nat.toDigits 10 d.digits).length + d.exponent.toNat := by
    unfold pointPlace
    omega
  rw [hplace, Nat.pow_add]
  exact Nat.mul_lt_mul_of_pos_right hlength (Nat.pow_pos (by decide))

namespace Json

/-- A decimal is written as a number that can be read. -/
theorem Number.proper_ofDecimal (negative : Bool) (d : Decimal) : (ofDecimal negative d).Proper := by
  have hdigits : ∀ c ∈ Nat.toDigits 10 d.digits, c.isDigit = true := fun c hc => isDigit_of_mem_toDigits hc
  have hne : Nat.toDigits 10 d.digits ≠ [] := Nat.toDigits_ne_nil
  have hzeros : ∀ n, ∀ c ∈ List.replicate n '0', c.isDigit = true := fun n c hc => by
    rw [List.eq_of_mem_replicate hc]
    decide
  have hzero : ∀ c ∈ ['0'], c.isDigit = true := by simp
  unfold ofDecimal
  dsimp only
  split
  · exact ⟨by simp, hzero, fun _ => rfl, hzero⟩
  rename_i hpositive
  -- the first of the digits is no zero
  have hhead : ∀ r : List Char, (Nat.toDigits 10 d.digits ++ r).head? ≠ some '0' := by
    intro r
    rw [List.head?_append_of_ne_nil _ hne]
    exact head?_toDigits_ne_zero _ (Nat.pos_of_ne_zero hpositive)
  have htake : ∀ n, 0 < n → ((Nat.toDigits 10 d.digits).take n).head? ≠ some '0' := by
    intro n hn
    have := hhead []
    rw [List.append_nil] at this
    rwa [List.head?_take, if_neg (by omega)]
  have htakene : ∀ n, 0 < n → (Nat.toDigits 10 d.digits).take n ≠ [] := by
    intro n hn
    simp [hne]
    omega
  split
  · split
    · refine ⟨by simp [hne], fun c hc => ?_, fun h => absurd h (hhead _), hzero⟩
      rcases List.mem_append.mp hc with hc | hc
      · exact hdigits c hc
      · exact hzeros _ c hc
    split
    · rename_i hpoint
      have hpoint : 0 < d.pointPlace.toNat := by omega
      exact ⟨htakene _ hpoint, fun c hc => hdigits c (List.mem_of_mem_take hc),
        fun h => absurd h (htake _ hpoint), fun c hc => hdigits c (List.mem_of_mem_drop hc)⟩
    · refine ⟨by simp, hzero, fun _ => rfl, fun c hc => ?_⟩
      rcases List.mem_append.mp hc with hc | hc
      · exact hzeros _ c hc
      · exact hdigits c hc
  · exact ⟨htakene 1 Nat.one_pos, fun c hc => hdigits c (List.mem_of_mem_take hc),
      fun h => absurd h (htake 1 Nat.one_pos), fun c hc => hdigits c (List.mem_of_mem_drop hc)⟩

/-! ## Significands -/

/-- Digits that fit are all kept. -/
theorem Number.significandOf_of_lt {s : Nat} {ds : List Char} (h : digitsAfter s ds < significandLimit) :
    significandOf s ds = (digitsAfter s ds, 0) := by
  induction ds generalizing s with
  | nil => rfl
  | cons c r ih =>
    rw [digitsAfter_cons] at h ⊢
    rw [significandOf, if_pos ((le_digitsAfter _ _).trans_lt h), ih h]

/-- What a number is read as, if all its digits fit. -/
theorem Number.toBinary64?_eq {n : Number}
    (h : digitsValue (n.whole ++ n.fraction) < significandLimit) :
    n.toBinary64? = (scale 5 (.ofNat (digitsValue (n.whole ++ n.fraction)))
      (n.exponent.getD 0 - n.fraction.length)).map fun y => if n.negative then y.neg else y := by
  rw [digitsValue_append] at h ⊢
  have hwhole : digitsAfter 0 n.whole < significandLimit := (le_digitsAfter _ _).trans_lt h
  unfold toBinary64?
  rw [significandOf_of_lt hwhole]
  dsimp only
  rw [significandOf_of_lt (s := digitsAfter 0 n.whole) h]
  rw [show (((0 : Nat) : Int) - ((n.fraction.length - 0 : Nat) : Int) + n.exponent.getD 0) =
    n.exponent.getD 0 - n.fraction.length by omega]
  rfl

/-! ## Decimals as they are written -/

@[simp] theorem Number.negative_ofDecimal (negative : Bool) (d : Decimal) :
    (ofDecimal negative d).negative = negative := by
  unfold ofDecimal
  dsimp only
  split_ifs <;> rfl

/-- **The significand and the power of ten that a decimal is written with**: its own, but for integers
of up to sixteen digits, which are written with a zero after the point. -/
theorem Number.value_ofDecimal (negative : Bool) {d : Decimal} (hpos : 0 < d.digits) :
    let n := ofDecimal negative d
    ∃ j : Nat, digitsValue (n.whole ++ n.fraction) = d.digits * 10 ^ j ∧
      n.exponent.getD 0 - (n.fraction.length : Int) = d.exponent - j ∧
      (j ≠ 0 → 0 ≤ d.exponent ∧ d.pointPlace ≤ 16 ∧ j = d.exponent.toNat + 1) := by
  have hdigits := digitsValue_toDigits d.digits
  have hlength : 0 < (Nat.toDigits 10 d.digits).length := List.length_pos_of_ne_nil Nat.toDigits_ne_nil
  unfold ofDecimal
  unfold Decimal.pointPlace
  generalize Nat.toDigits 10 d.digits = ds at *
  dsimp only
  rw [if_neg (by omega)]
  split
  · rename_i hplain
    split
    · rename_i hwhole
      refine ⟨d.exponent.toNat + 1, ?_, ?_, fun _ => ⟨hwhole, by omega, rfl⟩⟩
      · rw [List.append_assoc, digitsValue_append, digitsAfter_append, hdigits, digitsAfter_zeros]
        exact (digitsAfter_zeros _ 1).trans (by ring)
      · dsimp only [Option.getD_none, List.length_singleton]
        omega
    split
    · refine ⟨0, ?_, ?_, fun h => absurd rfl h⟩
      · rw [List.take_append_drop, hdigits, Nat.pow_zero, Nat.mul_one]
      · dsimp only [Option.getD_none]
        rw [List.length_drop]
        omega
    · refine ⟨0, ?_, ?_, fun h => absurd rfl h⟩
      · have hzero : digitsValue ['0'] = 0 := by decide
        rw [digitsValue_append, digitsAfter_append, hzero, digitsAfter_zeros, Nat.zero_mul]
        exact hdigits.trans (by ring)
      · dsimp only [Option.getD_none]
        rw [List.length_append, List.length_replicate]
        omega
  · refine ⟨0, ?_, ?_, fun h => absurd rfl h⟩
    · rw [List.take_append_drop, hdigits, Nat.pow_zero, Nat.mul_one]
    · dsimp only [Option.getD_some]
      rw [List.length_drop]
      omega

/-! ## Short numbers -/

/-- A power of ten up to the twenty-second is a double. -/
theorem Number.isExact_pow {k : Nat} (h : k ≤ 22) : Binary64.IsExact (10 ^ k) := by
  refine Binary64.isExact_of_eq (m := 5 ^ k) (c := k) ?_ ?_ (by omega)
  · rw [← Nat.mul_pow]
  · calc 5 ^ k ≤ 5 ^ 22 := Nat.pow_le_pow_right (by decide) h
      _ < 2 ^ 53 := by decide

/-- A significand that is a double, with such a power of ten, is rounded once. -/
theorem Number.scale_eq {s : Nat} {e : Int} (hs : Binary64.IsExact s) (hlow : -22 ≤ e) (hhigh : e ≤ 22)
    (hlt : Binary64.nearestWord (s * 10 ^ e.toNat * Binary64.unitsPerOne) 1 < Binary64.infinityWord) :
    scale 5 (.ofNat s) e =
      some (.nearest false (s * 10 ^ e.toNat * Binary64.unitsPerOne) (10 ^ (-e).toNat)) := by
  have hpower := isExact_pow (k := e.natAbs) (by omega)
  rw [scale, if_pos (by omega)]
  split
  · rename_i hpos
    have hproduct := Binary64.mul_ofNat hs hpower
    have heq : (Binary64.ofNat s).mul (powerOfTen e.natAbs) =
        .nearest false (s * 10 ^ e.toNat * Binary64.unitsPerOne) 1 := by
      rw [show e.toNat = e.natAbs by omega]
      exact hproduct
    rw [heq, Int.toNat_of_nonpos (show -e ≤ 0 by omega), Nat.pow_zero]
    dsimp only
    rw [Binary64.isFinite_nearest, decide_eq_true hlt, if_pos rfl]
  · have hquotient := Binary64.div_ofNat hs hpower (Nat.pow_pos (by decide))
    rw [Int.toNat_of_nonpos (show e ≤ 0 by omega), Nat.pow_zero, Nat.mul_one,
      show (-e).toNat = e.natAbs by omega, ← hquotient]
    rfl

/-- The sign is put back after the magnitude has been read. -/
theorem Number.toBinary64?_of_scale {n : Number} {v num den : Nat} {e : Int} {negative : Bool}
    (hnegative : n.negative = negative) (hvalue : digitsValue (n.whole ++ n.fraction) = v)
    (hexponent : n.exponent.getD 0 - (n.fraction.length : Int) = e) (hlt : v < significandLimit)
    (hscale : scale 5 (.ofNat v) e = some (.nearest false num den)) :
    n.toBinary64? = some (.nearest negative num den) := by
  rw [toBinary64?_eq (hvalue ▸ hlt), hvalue, hexponent, hscale, Option.map_some, hnegative,
    Binary64.neg_nearest]
  cases negative <;> rfl

theorem Number.toBinary64?_zero (negative : Bool) :
    toBinary64? ⟨negative, ['0'], ['0'], none⟩ = some (.zero negative) := by
  have hexact : Binary64.IsExact 0 := Binary64.isExact_of_le (by decide)
  have hscale : scale 5 (.ofNat 0) (-1) = some (.nearest false 0 10) := by
    have hrounded := scale_eq hexact (by decide) (by decide) (e := -1)
      (Binary64.nearestWord_unitsPerOne_lt (by decide))
    rwa [Nat.zero_mul, Nat.zero_mul] at hrounded
  have hvalue : digitsValue (['0'] ++ ['0']) = 0 := by decide
  rw [toBinary64?_of_scale (n := ⟨negative, ['0'], ['0'], none⟩) rfl hvalue rfl (by decide) hscale,
    Binary64.nearest_zero negative (by decide)]

/-- **A decimal is read as the number nearest to it**, if its significand and its power of ten are small
and it is no integer of sixteen digits. -/
theorem Number.toBinary64?_ofDecimal (negative : Bool) {d : Decimal} (hdigits : d.digits < 2 ^ 53)
    (hlow : -22 ≤ d.exponent) (hhigh : d.exponent ≤ 22) (hplace : d.pointPlace ≠ 16) :
    (ofDecimal negative d).toBinary64? = some (.nearest negative d.numerator d.denominator) := by
  have hlimit : significandLimit = 2 ^ 64 := rfl
  rcases Nat.eq_zero_or_pos d.digits with hzero | hpos
  · rw [Decimal.numerator, hzero, Nat.zero_mul, Nat.zero_mul, Binary64.nearest_zero _ d.denominator_pos,
      ofDecimal, if_pos hzero, toBinary64?_zero]
  obtain ⟨j, hvalue, hexponent, hj⟩ := value_ofDecimal negative hpos
  rcases Nat.eq_zero_or_pos j with rfl | hpositional
  · rw [Nat.pow_zero, Nat.mul_one] at hvalue
    rw [Int.natCast_zero, Int.sub_zero] at hexponent
    have hexact : Binary64.IsExact d.digits := Binary64.isExact_of_le (Nat.le_of_lt hdigits)
    have hsize : d.digits * 10 ^ d.exponent.toNat < 2 ^ 200 := by
      have hpow : 10 ^ d.exponent.toNat ≤ 10 ^ 22 := Nat.pow_le_pow_right (by decide) (by omega)
      calc d.digits * 10 ^ d.exponent.toNat ≤ 2 ^ 53 * 10 ^ 22 := Nat.mul_le_mul (Nat.le_of_lt hdigits) hpow
        _ < 2 ^ 200 := by decide
    exact toBinary64?_of_scale (negative_ofDecimal negative d) hvalue hexponent (by omega)
      (scale_eq hexact hlow hhigh (Binary64.nearestWord_unitsPerOne_lt hsize))
  · obtain ⟨hwhole, hplaces, rfl⟩ := hj (by omega)
    have hsize : d.digits * 10 ^ d.exponent.toNat < 10 ^ 15 :=
      (d.lt_pow_pointPlace hwhole).trans_le (Nat.pow_le_pow_right (by decide) (by omega))
    have htenfold : d.digits * 10 ^ (d.exponent.toNat + 1) = d.digits * 10 ^ d.exponent.toNat * 10 := by
      rw [Nat.pow_succ, Nat.mul_assoc]
    have hexact : Binary64.IsExact (d.digits * 10 ^ (d.exponent.toNat + 1)) :=
      Binary64.isExact_of_eq (m := d.digits * 10 ^ d.exponent.toNat * 5) (c := 1) (by rw [htenfold]; ring)
        (by omega) (by decide)
    have hscale := scale_eq hexact (e := -1) (by decide) (by decide)
      (Binary64.nearestWord_unitsPerOne_lt (by
        show d.digits * 10 ^ (d.exponent.toNat + 1) * 10 ^ 0 < _
        omega))
    rw [toBinary64?_of_scale (negative_ofDecimal negative d) hvalue (hexponent.trans (by omega)) (by omega) hscale]
    -- the zero after the point and the power of ten that takes it back cancel
    have hnumerator : d.digits * 10 ^ (d.exponent.toNat + 1) * 10 ^ (-1 : Int).toNat * Binary64.unitsPerOne =
        d.numerator * 10 := by
      rw [htenfold, Decimal.numerator]
      generalize Binary64.unitsPerOne = unit
      show _ * 10 ^ 0 * unit = _
      ring
    have hdenominator : 10 ^ (-(-1 : Int)).toNat = d.denominator * 10 := by
      rw [Decimal.denominator, Int.toNat_of_nonpos (show -d.exponent ≤ 0 by omega)]
      rfl
    rw [hnumerator, hdenominator, Binary64.nearest_mul_right negative _ _ (show 0 < 10 by decide)]

end Json

/-- A finite number as it is read back from a document; one whose significand and power of ten take it
beyond the largest is not read at all. What is not finite is not written as a number. -/
def Binary64.reread? (x : Binary64) : Option Binary64 :=
  if x.isFinite then (Json.Number.ofDecimal x.signBit (.shortest .even x)).toBinary64? else none

/-- The significand of the number's shortest decimal and its power of ten are doubles themselves, and
the number is no integer of sixteen digits: these are written with a zero after the point, and their
significand is ten times as large. -/
structure Binary64.Short (x : Binary64) : Prop where
  finite : x.isFinite = true
  digits : (Decimal.shortest .even x).digits < 2 ^ 53
  low : -22 ≤ (Decimal.shortest .even x).exponent
  high : (Decimal.shortest .even x).exponent ≤ 22
  place : (Decimal.shortest .even x).pointPlace ≠ 16

/-- **A short number is read back**: its significand and its power of ten are exact, so that it is
rounded once. -/
theorem Binary64.Short.reread?_eq {x : Binary64} (h : x.Short) : x.reread? = some x := by
  rw [reread?, if_pos h.finite, Json.Number.toBinary64?_ofDecimal x.signBit h.digits h.low h.high h.place,
    Decimal.nearest_shortest .even h.finite]

end BlockBoard
