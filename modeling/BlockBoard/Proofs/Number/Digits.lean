import Mathlib.Data.List.Basic
import Mathlib.Tactic.Ring
import BlockBoard.Number.Decimal
/-!
# Digits

Numbers are written with digits and read from them, in programs and in documents alike.

- `takeWhile_dropWhile_stop`: characters of one kind, up to the first that is of another.
- `head?_toDigits_ne_zero`: only zero begins with a zero.
- `digitsValue_toDigits`: **a number is read from its digits**.
- `digitsAfter`: what digits come to after those before them.
-/

namespace BlockBoard

/-- Characters of one kind up to the first that is of another. -/
theorem takeWhile_dropWhile_stop {p : Char → Bool} {cs rest : List Char} (h : ∀ c ∈ cs, p c = true)
    (hstop : ∀ c ∈ rest.head?, p c = false) :
    (cs ++ rest).takeWhile p = cs ∧ (cs ++ rest).dropWhile p = rest := by
  rw [List.takeWhile_append_of_pos h, List.dropWhile_append_of_pos h]
  cases rest with
  | nil => simp
  | cons x xs => simp [hstop x (by simp)]

theorem isDigit_of_mem_toDigits {n : Nat} {c : Char} (h : c ∈ Nat.toDigits 10 n) : c.isDigit = true :=
  Nat.isDigit_of_mem_toDigits (by decide) (by decide) h

/-- The numeral of a positive number starts with another digit than zero. -/
theorem head?_toDigits_ne_zero (n : Nat) : 0 < n → (Nat.toDigits 10 n).head? ≠ some '0' := by
  induction n using Nat.strongRecOn with
  | ind n ih =>
    intro hn
    rw [Nat.toDigits_eq_if (by decide)]
    by_cases hlt : n < 10
    · have : ∀ d, d < 10 → 0 < d → d.digitChar ≠ '0' := by decide
      rw [if_pos hlt]
      simpa using this n hlt hn
    · rw [if_neg hlt, List.head?_append, List.head?_eq_some_head Nat.toDigits_ne_nil]
      have := ih (n / 10) (by omega) (by omega)
      rw [List.head?_eq_some_head Nat.toDigits_ne_nil] at this
      exact this

/-- A number is read from its digits. -/
theorem digitsValue_toDigits (n : Nat) : digitsValue (Nat.toDigits 10 n) = n :=
  Nat.ofDigitChars_toDigits (by decide) (by decide)

/-- What digits come to after those before them, whose value is known. -/
def digitsAfter (s : Nat) (ds : List Char) : Nat :=
  ds.foldl (fun n c => 10 * n + (c.toNat - '0'.toNat)) s

theorem digitsValue_append (xs ys : List Char) :
    digitsValue (xs ++ ys) = digitsAfter (digitsValue xs) ys := List.foldl_append

theorem digitsAfter_append (s : Nat) (xs ys : List Char) :
    digitsAfter s (xs ++ ys) = digitsAfter (digitsAfter s xs) ys := List.foldl_append

theorem digitsAfter_cons (s : Nat) (c : Char) (r : List Char) :
    digitsAfter s (c :: r) = digitsAfter (10 * s + digitsValue [c]) r := by
  show digitsAfter (10 * s + (c.toNat - '0'.toNat)) r =
    digitsAfter (10 * s + (10 * 0 + (c.toNat - '0'.toNat))) r
  rw [Nat.mul_zero, Nat.zero_add]

/-- Each digit is a place more for those before it. -/
theorem mul_pow_le_digitsAfter (s : Nat) (ds : List Char) : s * 10 ^ ds.length ≤ digitsAfter s ds := by
  induction ds generalizing s with
  | nil => exact Nat.le_of_eq (Nat.mul_one s)
  | cons c r ih =>
    rw [digitsAfter_cons, List.length_cons, Nat.pow_succ]
    calc s * (10 ^ r.length * 10) = 10 * s * 10 ^ r.length := by ring
      _ ≤ (10 * s + digitsValue [c]) * 10 ^ r.length := Nat.mul_le_mul_right _ (Nat.le_add_right _ _)
      _ ≤ _ := ih _

theorem le_digitsAfter (s : Nat) (ds : List Char) : s ≤ digitsAfter s ds :=
  (Nat.le_mul_of_pos_right s (Nat.pow_pos (by decide))).trans (mul_pow_le_digitsAfter s ds)

theorem digitsAfter_zeros (s n : Nat) : digitsAfter s (List.replicate n '0') = s * 10 ^ n := by
  induction n generalizing s with
  | zero => exact (Nat.mul_one s).symm
  | succ n ih =>
    have hzero : digitsValue ['0'] = 0 := by decide
    rw [List.replicate_succ, digitsAfter_cons, ih, hzero, Nat.pow_succ]
    ring

/-- Digits are below the next power of ten. -/
theorem digitsAfter_lt {s : Nat} {ds : List Char} (h : ∀ c ∈ ds, c.isDigit = true) :
    digitsAfter s ds < (s + 1) * 10 ^ ds.length := by
  induction ds generalizing s with
  | nil => exact Nat.lt_of_lt_of_eq (Nat.lt_succ_self s) (Nat.mul_one _).symm
  | cons c r ih =>
    obtain ⟨hc, hr⟩ := List.forall_mem_cons.mp h
    have hdigit : digitsValue [c] < 10 := by
      have hbound : c.toNat ≤ '9'.toNat := (Char.isDigit_iff_toNat.mp hc).2
      show 10 * 0 + (c.toNat - '0'.toNat) < 10
      have : '9'.toNat = 57 := rfl
      have : '0'.toNat = 48 := rfl
      omega
    rw [digitsAfter_cons, List.length_cons, Nat.pow_succ]
    calc digitsAfter (10 * s + digitsValue [c]) r
        < (10 * s + digitsValue [c] + 1) * 10 ^ r.length := ih hr
      _ ≤ (10 * (s + 1)) * 10 ^ r.length := Nat.mul_le_mul_right _ (by omega)
      _ = (s + 1) * (10 ^ r.length * 10) := by ring

end BlockBoard
