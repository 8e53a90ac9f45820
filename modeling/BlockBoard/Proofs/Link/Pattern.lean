import Mathlib.Data.List.Infix
import BlockBoard.Link.Receiving
/-!
# Patterns in bytes

Where a search for a pattern finds it: at the first place at which the pattern stands. A pattern of two bytes
never reaches over a whole byte, so that whoever looks for one in what comes in pieces needs to keep one byte
of what came before.

- `findBytes?_eq_some_iff`: **a pattern is found where it stands first**.
- `containsBytes_iff`: a pattern is found if it stands anywhere.
- `pair_infix_iff`: **a pattern of two bytes stands on one side of a byte between, or on the other**.
-/

namespace BlockBoard

/-- **A pattern is found where it stands first.** -/
theorem findBytes?_eq_some_iff {pattern bs : List UInt8} {i : Nat} :
    findBytes? pattern bs = some i ↔
      i ≤ bs.length ∧ pattern <+: bs.drop i ∧ ∀ j < i, ¬ pattern <+: bs.drop j := by
  induction bs generalizing i with
  | nil =>
    cases pattern with
    | nil =>
      rw [findBytes?, List.isEmpty_nil, if_pos rfl]
      constructor
      · rintro ⟨⟩
        exact ⟨Nat.le_refl 0, List.nil_prefix, nofun⟩
      · rintro ⟨hi, -, -⟩
        rw [Nat.le_zero.mp hi]
    | cons p ps =>
      rw [findBytes?, List.isEmpty_cons, if_neg Bool.false_ne_true]
      refine iff_of_false nofun ?_
      rintro ⟨-, hpattern, -⟩
      rw [List.drop_nil] at hpattern
      cases List.prefix_nil.mp hpattern
  | cons b r ih =>
    rw [findBytes?]
    by_cases hpattern : pattern <+: b :: r
    · rw [if_pos (List.isPrefixOf_iff_prefix.mpr hpattern)]
      constructor
      · rintro ⟨⟩
        exact ⟨Nat.zero_le _, hpattern, nofun⟩
      · rintro ⟨-, -, hfirst⟩
        cases i with
        | zero => rfl
        | succ i => exact absurd hpattern (hfirst 0 (Nat.succ_pos i))
    · rw [if_neg fun h => hpattern (List.isPrefixOf_iff_prefix.mp h), Option.map_eq_some_iff]
      constructor
      · rintro ⟨k, hk, rfl⟩
        obtain ⟨hlength, hstands, hfirst⟩ := ih.mp hk
        refine ⟨Nat.succ_le_succ hlength, hstands, fun j hj => ?_⟩
        cases j with
        | zero => exact hpattern
        | succ j => exact hfirst j (Nat.lt_of_succ_lt_succ hj)
      · rintro ⟨hlength, hstands, hfirst⟩
        cases i with
        | zero => exact absurd hstands hpattern
        | succ i =>
          exact ⟨i, ih.mpr ⟨Nat.le_of_succ_le_succ hlength, hstands,
            fun j hj => hfirst (j + 1) (Nat.succ_lt_succ hj)⟩, rfl⟩

/-- A pattern is found if it stands anywhere. -/
theorem containsBytes_iff {bs pattern : List UInt8} : containsBytes bs pattern = true ↔ pattern <:+: bs := by
  rw [containsBytes]
  induction bs with
  | nil =>
    rw [findBytes?, List.infix_nil]
    cases pattern <;> simp
  | cons b r ih =>
    rw [findBytes?, List.infix_cons_iff, ← ih, ← List.isPrefixOf_iff_prefix]
    by_cases hpattern : pattern.isPrefixOf (b :: r) = true
    · simp [hpattern]
    · simp [hpattern]

/-- A pattern of two bytes stands in bytes one after the other if it stands up to a byte between them, or
from that one on. -/
theorem pair_infix_iff {a b x : UInt8} {before after : List UInt8} :
    [a, b] <:+: before ++ x :: after ↔ [a, b] <:+: before ++ [x] ∨ [a, b] <:+: x :: after := by
  induction before with
  | nil =>
    have hshort : ¬ [a, b] <:+: [x] := fun h => absurd h.length_le (by simp)
    exact ⟨.inr, fun h => h.resolve_left hshort⟩
  | cons y r ih =>
    have hhead : [a, b] <+: y :: (r ++ x :: after) ↔ [a, b] <+: y :: (r ++ [x]) := by
      cases r with
      | nil => simp
      | cons z r => simp
    rw [List.cons_append, List.cons_append, List.infix_cons_iff, List.infix_cons_iff, ih, hhead, or_assoc]

end BlockBoard
