import BlockBoard.Proofs.Text.Utf8
/-!
# Texts that are read in pieces

Bytes that are read as a text piece by piece give the text of the whole only if no piece ends within a
character: what stands in for the two parts of a character is longer than the character is.

- `utf8Step_size_le`: a step of decoding takes no more bytes than what it reads has.
- `length_le_utf8Text`: **what is read from bytes is at least as long as they are**.
- `join_utf8Text_iff`: **pieces give the text of the whole exactly if each of them is a text**.
-/

namespace BlockBoard

/-! ## The length of what is read -/

theorem length_utf8Char_pos (c : Char) : 1 ≤ (utf8Char c).length := by
  rcases utf8Char_cases c with ⟨-, heq⟩ | ⟨-, -, heq⟩ | ⟨-, -, heq⟩ | ⟨-, heq⟩ <;> rw [heq] <;> simp

/-- The least number of bytes of a character, by its code. -/
theorem length_utf8Char_ofNat {n : Nat} (h : n < 0xD800 ∨ 0xDFFF < n ∧ n < 0x110000) :
    (0x80 ≤ n → 2 ≤ (utf8Char (Char.ofNat n)).length) ∧
      (0x800 ≤ n → 3 ≤ (utf8Char (Char.ofNat n)).length) ∧
      (0x10000 ≤ n → 4 ≤ (utf8Char (Char.ofNat n)).length) := by
  have hcode : (Char.ofNat n).toNat = n := by
    have hvalid : n.isValidChar := h
    rw [Char.ofNat, dif_pos hvalid]
    rfl
  rcases utf8Char_cases (Char.ofNat n) with
    ⟨hsize, heq⟩ | ⟨-, hsize, heq⟩ | ⟨-, hsize, heq⟩ | ⟨-, heq⟩ <;>
    rw [heq] <;> simp only [List.length_cons, List.length_nil] <;> omega

/-- A second byte in the range that the first one admits continues a character that is written in its
shortest form, is no half of a pair, and not larger than the last one. -/
theorem second_of_admitted {first second : UInt8}
    (h : ¬ (second < (secondRange first).1 || (secondRange first).2 < second) = true) :
    Continues second ∧ (first.toNat = 0xE0 → 0xA0 ≤ second.toNat) ∧
      (first.toNat = 0xED → second.toNat < 0xA0) ∧ (first.toNat = 0xF0 → 0x90 ≤ second.toNat) ∧
      (first.toNat = 0xF4 → second.toNat < 0x90) := by
  have heq : ∀ n : UInt8, first = n ↔ first.toNat = n.toNat := fun n => UInt8.toNat_inj.symm
  simp only [Bool.or_eq_true, decide_eq_true_eq, UInt8.lt_iff_toNat_lt, secondRange, beq_iff_eq, heq] at h
  unfold Continues
  split at h
  · simp_all; omega
  split at h
  · simp_all; omega
  split at h
  · simp_all; omega
  split at h
  · simp_all; omega
  · simp_all; omega

/-- A step of decoding takes no more bytes than what it reads has. -/
theorem utf8Step_size_le (b : UInt8) (r : List UInt8) :
    (utf8Step b r).size ≤ (utf8Char ((utf8Step b r).char?.getD replacement)).length := by
  have hreplaced : ∀ n, n ≤ 3 → n ≤ (utf8Char ((none : Option Char).getD replacement)).length := by
    intro n hn
    have hlength : (utf8Char replacement).length = 3 := by decide
    rwa [Option.getD_none, hlength]
  have hlow : ∀ x : UInt8, continuationBits x < 64 := fun x => Nat.mod_lt _ (by decide)
  rw [utf8Step.eq_def]
  split
  · exact length_utf8Char_pos _
  rename_i hfirst
  split
  · exact hreplaced 1 (by omega)
  rename_i hbegins
  simp only [Bool.or_eq_true, decide_eq_true_eq, UInt8.lt_iff_toNat_lt, UInt8.le_iff_toNat_le,
    UInt8.toNat_ofNat] at hbegins
  split
  · exact hreplaced 1 (by omega)
  rename_i second r
  dsimp only
  split
  · exact hreplaced 1 (by omega)
  rename_i hadmitted
  obtain ⟨hcontinues, hE0, hED, hF0, hF4⟩ := second_of_admitted hadmitted
  have hsecond : continuationBits second + 0x80 = second.toNat := by
    unfold continuationBits
    obtain ⟨hmin, hmax⟩ := hcontinues
    omega
  have := hlow second
  split
  · rename_i hshort
    replace hshort : b.toNat < 0xE0 := UInt8.lt_iff_toNat_lt.mp hshort
    refine (length_utf8Char_ofNat ?_).1 ?_ <;> omega
  rename_i hlong
  rw [UInt8.lt_iff_toNat_lt] at hlong
  replace hlong : 0xE0 ≤ b.toNat := Nat.le_of_not_lt hlong
  split
  · exact hreplaced 2 (by omega)
  rename_i third r
  have := hlow third
  split
  · exact hreplaced 2 (by omega)
  split
  · rename_i hshort
    replace hshort : b.toNat < 0xF0 := UInt8.lt_iff_toNat_lt.mp hshort
    refine (length_utf8Char_ofNat ?_).2.1 ?_ <;> omega
  rename_i hlonger
  rw [UInt8.lt_iff_toNat_lt] at hlonger
  replace hlonger : 0xF0 ≤ b.toNat := Nat.le_of_not_lt hlonger
  split
  · exact hreplaced 3 (by omega)
  rename_i fourth r
  have := hlow fourth
  split
  · exact hreplaced 3 (by omega)
  · refine (length_utf8Char_ofNat ?_).2.2 ?_ <;> omega

/-- What has been taken by a step is skipped. -/
theorem utf8Steps_drop (n : Nat) (bs : List UInt8) : utf8Steps n bs = utf8Steps 0 (bs.drop n) := by
  induction n generalizing bs with
  | zero => rfl
  | succ n ih =>
    cases bs with
    | nil => rfl
    | cons b r => exact ih r

/-- **What is read from bytes is at least as long as they are**: a piece that is no character is replaced by
a character of three bytes, and takes at most three. -/
theorem length_le_utf8Text (bs : List UInt8) : bs.length ≤ (utf8 (utf8Text bs)).length := by
  have hchars : bs.length ≤ ((utf8Chars bs).flatMap utf8Char).length := by
    induction hn : bs.length using Nat.strongRecOn generalizing bs with
    | ind n ih =>
      subst hn
      cases bs with
      | nil => exact Nat.zero_le _
      | cons b r =>
        have hchars : utf8Chars (b :: r) = (utf8Step b r).char?.getD replacement ::
            utf8Chars (r.drop ((utf8Step b r).size - 1)) := by
          rw [utf8Chars, utf8Steps, utf8Steps_drop, List.map_cons]
          rfl
        have hrest := ih (r.drop ((utf8Step b r).size - 1)).length
          (by rw [List.length_drop, List.length_cons]; omega) _ rfl
        have hstep := utf8Step_size_le b r
        have hpos := length_utf8Char_pos ((utf8Step b r).char?.getD replacement)
        rw [hchars, List.flatMap_cons, List.length_append, List.length_cons]
        rw [List.length_drop] at hrest
        omega
  rwa [utf8, utf8Text, String.toList_ofList]

/-! ## Pieces -/

theorem utf8_join (ts : List String) : utf8 (String.join ts) = (ts.map utf8).flatten := by
  induction ts with
  | nil => rfl
  | cons t r ih => rw [String.join_cons, utf8_append, ih, List.map_cons, List.flatten_cons]

/-- Lists that are each at least as long as another, and are the same in all, are the same one by one. -/
theorem map_eq_self_of_flatten {α : Type} {f : List α → List α} {ps : List (List α)}
    (hlength : ∀ p ∈ ps, p.length ≤ (f p).length) (h : (ps.map f).flatten = ps.flatten) :
    ∀ p ∈ ps, f p = p := by
  have hle : ∀ qs : List (List α), (∀ q ∈ qs, q.length ≤ (f q).length) →
      qs.flatten.length ≤ (qs.map f).flatten.length := by
    intro qs hqs
    induction qs with
    | nil => exact Nat.le_refl 0
    | cons q r ih =>
      obtain ⟨hq, hr⟩ := List.forall_mem_cons.mp hqs
      have := ih hr
      rw [List.map_cons, List.flatten_cons, List.flatten_cons, List.length_append, List.length_append]
      omega
  induction ps with
  | nil => nofun
  | cons p r ih =>
    obtain ⟨hp, hr⟩ := List.forall_mem_cons.mp hlength
    rw [List.map_cons, List.flatten_cons, List.flatten_cons] at h
    -- no piece can be longer, since the rest would have to be shorter
    have hsame : (f p).length = p.length := by
      have htotal := congrArg List.length h
      have hrest := hle r hr
      rw [List.length_append, List.length_append] at htotal
      omega
    obtain ⟨hfirst, hrest⟩ := List.append_inj h hsame
    exact List.forall_mem_cons.mpr ⟨hfirst, ih hr hrest⟩

/-- **Pieces of a text are read as the text exactly if each of them is a text by itself.** -/
theorem join_utf8Text_iff {ps : List (List UInt8)} {s : String} (h : ps.flatten = utf8 s) :
    String.join (ps.map utf8Text) = s ↔ ∀ p ∈ ps, ∃ t, p = utf8 t := by
  have hbytes : utf8 (String.join (ps.map utf8Text)) = (ps.map fun p => utf8 (utf8Text p)).flatten := by
    rw [utf8_join, List.map_map]
    rfl
  constructor
  · intro hjoin p hp
    rw [hjoin, ← h] at hbytes
    exact ⟨utf8Text p, (map_eq_self_of_flatten (fun p _ => length_le_utf8Text p) hbytes.symm p hp).symm⟩
  · intro htexts
    have hpiece : ∀ p ∈ ps, utf8 (utf8Text p) = id p := by
      intro p hp
      obtain ⟨t, rfl⟩ := htexts p hp
      rw [utf8Text_utf8]
      rfl
    have hsame : (ps.map fun p => utf8 (utf8Text p)) = ps := (List.map_congr_left hpiece).trans (List.map_id ps)
    rw [← utf8Text_utf8 (String.join _), hbytes, hsame, h, utf8Text_utf8]

end BlockBoard
