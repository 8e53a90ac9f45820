import BlockBoard.Proofs.Link.Pattern
import BlockBoard.Proofs.Loader.Waiting
/-!
# What arrives in pieces

Bytes arrive in reads, and nobody chooses where they are cut. Whoever waits for a pattern reads as long as it
has not come, and stops with the read that brings the rest of it.

- `Arrives`: reads that give these pieces, one after the other.
- `Arrives.readUntilWithin`: **waiting for a pattern that is among what arrives takes as much of it as is
  needed**, by induction on the reads.
-/

namespace BlockBoard

variable {σ : Type} [Transport σ]

/-- Reads of a size, one after the other, that give these pieces, of which none is empty. -/
inductive Arrives (size : Nat) : List (List UInt8) → σ → σ → Prop
  | nil (s : σ) : Arrives size [] s s
  | cons {b : UInt8} {bs : List UInt8} {ps : List (List UInt8)} {s s₁ s' : σ}
    (hread : Transport.read size s = (.bytes (b :: bs), s₁)) (hrest : Arrives size ps s₁ s') :
    Arrives size ((b :: bs) :: ps) s s'

namespace Arrives

variable {size : Nat} {ps : List (List UInt8)} {s s' : σ}

theorem delivers (h : Arrives size ps s s') : Delivers ps.length s s' := by
  induction h with
  | nil s => exact .nil s
  | cons hread _ ih => exact .cons hread ih

/-- There is something in every piece. -/
theorem eq_nil_of_flatten (h : Arrives size ps s s') (hnone : ps.flatten = []) : ps = [] := by
  cases h with
  | nil => rfl
  | cons => cases hnone

/-- **Waiting for a pattern that is among what arrives takes as much of it as is needed**, and leaves the
rest. -/
theorem readUntilWithin (h : Arrives answerChunk ps s s') {fuel : Nat} (hfuel : ps.length < fuel)
    {received pattern : List UInt8} (hpattern : pattern <:+: received ++ ps.flatten) (timeout : Nat) :
    ∃ qs rs s₁, ps = qs ++ rs ∧ Arrives answerChunk rs s₁ s' ∧ pattern <:+: received ++ qs.flatten ∧
      BlockBoard.readUntilWithin pattern timeout fuel received s = (.ok (received ++ qs.flatten), s₁) := by
  induction h generalizing fuel received with
  | nil s =>
    obtain ⟨fuel, rfl⟩ : ∃ n, fuel = n + 1 := Nat.exists_eq_succ_of_ne_zero (by omega)
    rw [List.flatten_nil, List.append_nil] at hpattern
    refine ⟨[], [], s, rfl, .nil s, by simpa using hpattern, ?_⟩
    rw [BlockBoard.readUntilWithin, if_pos (containsBytes_iff.mpr hpattern), List.flatten_nil, List.append_nil]
  | @cons b bs ps s s₁ s' hread hrest ih =>
    rw [List.length_cons] at hfuel
    obtain ⟨fuel, rfl⟩ : ∃ n, fuel = n + 1 := Nat.exists_eq_succ_of_ne_zero (by omega)
    by_cases hcome : pattern <:+: received
    · refine ⟨[], (b :: bs) :: ps, s, rfl, .cons hread hrest, by simpa using hcome, ?_⟩
      rw [BlockBoard.readUntilWithin, if_pos (containsBytes_iff.mpr hcome), List.flatten_nil, List.append_nil]
    · rw [List.flatten_cons, ← List.append_assoc] at hpattern
      obtain ⟨qs, rs, s₂, rfl, hmore, hcomes, hread'⟩ := @ih fuel (by omega) _ hpattern
      refine ⟨(b :: bs) :: qs, rs, s₂, rfl, hmore, ?_, ?_⟩
      · rw [List.flatten_cons, ← List.append_assoc]
        exact hcomes
      · rw [BlockBoard.readUntilWithin, if_neg fun h => hcome (containsBytes_iff.mp h), hread]
        dsimp only
        rw [hread', List.flatten_cons, List.append_assoc]

/-- The same of waiting over a link whose backlog bounds its reads. -/
theorem outcome_readMoreUntil (h : Arrives answerChunk ps s s') (hfinite : Transport.Finite σ)
    {received pattern : List UInt8} (hpattern : pattern <:+: received ++ ps.flatten) (timeout : Nat) :
    ∃ qs rs s₁, ps = qs ++ rs ∧ Arrives answerChunk rs s₁ s' ∧ pattern <:+: received ++ qs.flatten ∧
      (readMoreUntil received pattern timeout).outcome s = (.ok (received ++ qs.flatten), s₁) :=
  h.readUntilWithin (Nat.lt_succ_of_le (hfinite _ _ _ h.delivers)) hpattern timeout

end Arrives

end BlockBoard
