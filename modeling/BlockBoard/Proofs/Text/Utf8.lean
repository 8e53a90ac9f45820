import BlockBoard.Text.Utf8
/-!
# Texts and their bytes

The bytes of a text are read back as the text, character by character: the first byte of a character says
how many follow it, and none of these could begin another one.

- `utf8Char_cases`: the bytes of a character, by the size of its code.
- `utf8Step_utf8Char`: a character is read from its bytes, whatever follows them.
- `utf8Text_utf8`, `utf8Text?_utf8`: **a text is read from its bytes**, also by a reader that gives up on
  bytes that are none of a text.
-/

namespace BlockBoard

/-- The code of a character, which is none of the halves of a pair. -/
theorem toNat_char (c : Char) : c.toNat < 0xD800 ∨ 0xDFFF < c.toNat ∧ c.toNat < 0x110000 := c.valid

/-- The bytes of a character, by the size of its code. -/
theorem utf8Char_cases (c : Char) :
    (c.toNat < 0x80 ∧ utf8Char c = [UInt8.ofNat c.toNat]) ∨
    (0x80 ≤ c.toNat ∧ c.toNat < 0x800 ∧
      utf8Char c = [UInt8.ofNat (c.toNat / 64 + 0xC0), UInt8.ofNat (c.toNat % 64 + 0x80)]) ∨
    (0x800 ≤ c.toNat ∧ c.toNat < 0x10000 ∧
      utf8Char c = [UInt8.ofNat (c.toNat / 4096 + 0xE0), UInt8.ofNat (c.toNat / 64 % 64 + 0x80),
        UInt8.ofNat (c.toNat % 64 + 0x80)]) ∨
    (0x10000 ≤ c.toNat ∧
      utf8Char c = [UInt8.ofNat (c.toNat / 262144 + 0xF0), UInt8.ofNat (c.toNat / 4096 % 64 + 0x80),
        UInt8.ofNat (c.toNat / 64 % 64 + 0x80), UInt8.ofNat (c.toNat % 64 + 0x80)]) := by
  have hvalid := toNat_char c
  have hbytes : utf8Char c = String.utf8EncodeChar c := rfl
  have hval : c.val.toNat = c.toNat := rfl
  rw [hbytes, String.utf8EncodeChar.eq_def, hval]
  dsimp only
  split
  · exact .inl ⟨by omega, rfl⟩
  split
  · refine .inr (.inl ⟨by omega, by omega, ?_⟩)
    rw [show c.toNat / 64 % 32 = c.toNat / 64 by omega]
  split
  · refine .inr (.inr (.inl ⟨by omega, by omega, ?_⟩))
    rw [show c.toNat / 4096 % 16 = c.toNat / 4096 by omega]
  · refine .inr (.inr (.inr ⟨by omega, ?_⟩))
    rw [show c.toNat / 262144 % 8 = c.toNat / 262144 by omega]

/-- The bytes of a character of ASCII are its code; those of others lie beyond all codes of ASCII. -/
theorem toNat_of_mem_utf8Char {c : Char} {b : UInt8} (h : b ∈ utf8Char c) :
    b.toNat = c.toNat ∨ 0x80 ≤ b.toNat := by
  have hvalid := toNat_char c
  have htoNat : ∀ n, n < 0x100 → (UInt8.ofNat n).toNat = n := fun n hn => UInt8.toNat_ofNat_of_lt' hn
  rcases utf8Char_cases c with ⟨hsize, heq⟩ | ⟨-, hsize, heq⟩ | ⟨-, hsize, heq⟩ | ⟨-, heq⟩
  all_goals
    rw [heq] at h
    simp only [List.mem_cons, List.not_mem_nil, or_false] at h
  · rw [h, htoNat _ (by omega)]
    exact .inl rfl
  · rcases h with rfl | rfl <;> rw [htoNat _ (by omega)] <;> omega
  · rcases h with rfl | rfl | rfl <;> rw [htoNat _ (by omega)] <;> omega
  · rcases h with rfl | rfl | rfl | rfl <;> rw [htoNat _ (by omega)] <;> omega

/-! ## Reading bytes -/

/-- Whether a byte is one of those that continue a character. -/
def Continues (b : UInt8) : Prop := 0x80 ≤ b.toNat ∧ b.toNat < 0xC0

theorem isContinuation_of_continues {b : UInt8} (h : Continues b) : isContinuation b = true := by
  rw [isContinuation, Bool.and_eq_true, decide_eq_true_eq, decide_eq_true_eq, UInt8.le_iff_toNat_le,
    UInt8.lt_iff_toNat_lt]
  exact h

theorem utf8Step_one {b : UInt8} (h : b.toNat < 0x80) (r : List UInt8) :
    utf8Step b r = ⟨some (Char.ofNat b.toNat), 1⟩ := by
  have hfirst : b < 0x80 := UInt8.lt_iff_toNat_lt.mpr h
  rw [utf8Step.eq_def, if_pos hfirst]

section Longer

variable {first second third fourth : UInt8}

/-- A byte that begins a longer character is neither an ASCII code nor one that begins none. -/
theorem utf8Step_longer (first : UInt8) (hlow : 0xC2 ≤ first.toNat) (hhigh : first.toNat < 0xF5) :
    ¬ first < 0x80 ∧ ¬ (first < 0xC2 || 0xF5 ≤ first) = true := by
  simp only [UInt8.lt_iff_toNat_lt, UInt8.le_iff_toNat_le, Bool.or_eq_true, decide_eq_true_eq]
  simp only [UInt8.toNat_ofNat] at *
  omega

/-- A second byte that continues a character lies in the range that the first one admits, unless it would
make the character a longer form of another one, half of a pair, or larger than the last one. -/
theorem secondRange_admits (first : UInt8) (hsecond : Continues second)
    (h : (first.toNat = 0xE0 → 0xA0 ≤ second.toNat) ∧ (first.toNat = 0xED → second.toNat < 0xA0) ∧
      (first.toNat = 0xF0 → 0x90 ≤ second.toNat) ∧ (first.toNat = 0xF4 → second.toNat < 0x90)) :
    ¬ (second < (secondRange first).1 || (secondRange first).2 < second) = true := by
  obtain ⟨hlow, hhigh⟩ := hsecond
  obtain ⟨hE0, hED, hF0, hF4⟩ := h
  have heq : ∀ n : UInt8, first = n ↔ first.toNat = n.toNat := fun n => UInt8.toNat_inj.symm
  simp only [Bool.or_eq_true, decide_eq_true_eq, UInt8.lt_iff_toNat_lt, secondRange, beq_iff_eq, heq]
  repeat' split
  all_goals
    simp_all
    try omega

theorem utf8Step_two (hlow : 0xC2 ≤ first.toNat) (hhigh : first.toNat < 0xE0)
    (hsecond : Continues second) (r : List UInt8) :
    utf8Step first (second :: r) =
      ⟨some (Char.ofNat (first.toNat % 32 * 64 + second.toNat % 64)), 2⟩ := by
  obtain ⟨hascii, hbegins⟩ := utf8Step_longer first hlow (by omega)
  have hrange := secondRange_admits first hsecond (by omega)
  have hshort : first < 0xE0 := UInt8.lt_iff_toNat_lt.mpr hhigh
  rw [utf8Step.eq_def, if_neg hascii, if_neg hbegins]
  dsimp only
  rw [if_neg hrange, if_pos hshort]
  rfl

theorem utf8Step_three (hlow : 0xE0 ≤ first.toNat) (hhigh : first.toNat < 0xF0)
    (hsecond : Continues second) (hE0 : first.toNat = 0xE0 → 0xA0 ≤ second.toNat)
    (hED : first.toNat = 0xED → second.toNat < 0xA0) (hthird : Continues third) (r : List UInt8) :
    utf8Step first (second :: third :: r) =
      ⟨some (Char.ofNat ((first.toNat % 16 * 64 + second.toNat % 64) * 64 + third.toNat % 64)), 3⟩ := by
  obtain ⟨hascii, hbegins⟩ := utf8Step_longer first (by omega) (by omega)
  have hrange := secondRange_admits first hsecond ⟨hE0, hED, by omega, by omega⟩
  have hlong : ¬ first < 0xE0 := fun h => absurd (UInt8.lt_iff_toNat_lt.mp h) (Nat.not_lt.mpr hlow)
  have hshort : first < 0xF0 := UInt8.lt_iff_toNat_lt.mpr hhigh
  rw [utf8Step.eq_def, if_neg hascii, if_neg hbegins]
  dsimp only
  rw [if_neg hrange, if_neg hlong, isContinuation_of_continues hthird, if_pos hshort]
  rfl

theorem utf8Step_four (hlow : 0xF0 ≤ first.toNat) (hhigh : first.toNat < 0xF5)
    (hsecond : Continues second) (hF0 : first.toNat = 0xF0 → 0x90 ≤ second.toNat)
    (hF4 : first.toNat = 0xF4 → second.toNat < 0x90) (hthird : Continues third)
    (hfourth : Continues fourth) (r : List UInt8) :
    utf8Step first (second :: third :: fourth :: r) =
      ⟨some (Char.ofNat (((first.toNat % 8 * 64 + second.toNat % 64) * 64 + third.toNat % 64) * 64 +
        fourth.toNat % 64)), 4⟩ := by
  obtain ⟨hascii, hbegins⟩ := utf8Step_longer first (by omega) hhigh
  have hrange := secondRange_admits first hsecond ⟨by omega, by omega, hF0, hF4⟩
  have hlong : ∀ n : UInt8, n.toNat ≤ 0xF0 → ¬ first < n :=
    fun n hn h => absurd (UInt8.lt_iff_toNat_lt.mp h) (by omega)
  rw [utf8Step.eq_def, if_neg hascii, if_neg hbegins]
  dsimp only
  rw [if_neg hrange, if_neg (hlong 0xE0 (by decide)), isContinuation_of_continues hthird,
    if_neg (hlong 0xF0 (by decide)), isContinuation_of_continues hfourth]
  rfl

end Longer

/-- A character is read from its bytes, whatever follows them. -/
theorem utf8Step_utf8Char (c : Char) (r : List UInt8) :
    ∃ b bs, utf8Char c = b :: bs ∧ utf8Step b (bs ++ r) = ⟨some c, bs.length + 1⟩ := by
  have hvalid := toNat_char c
  have htoNat : ∀ n, n < 0x100 → (UInt8.ofNat n).toNat = n := fun n hn => UInt8.toNat_ofNat_of_lt' hn
  have hread : ∀ n, n = c.toNat → Char.ofNat n = c := fun n hn => hn ▸ Char.ofNat_toNat c
  -- the low six bits of some number, as a byte that continues a character
  have hlow : ∀ n, (UInt8.ofNat (n % 64 + 0x80)).toNat = n % 64 + 0x80 := fun n => htoNat _ (by omega)
  have hcontinues : ∀ n, Continues (UInt8.ofNat (n % 64 + 0x80)) := by
    intro n
    rw [Continues, hlow]
    omega
  rcases utf8Char_cases c with ⟨hsize, heq⟩ | ⟨hmin, hsize, heq⟩ | ⟨hmin, hsize, heq⟩ | ⟨hmin, heq⟩
  · have hfirst := htoNat c.toNat (by omega)
    refine ⟨_, _, heq, ?_⟩
    rw [utf8Step_one (by omega), hread _ hfirst]
    rfl
  · have hfirst := htoNat (c.toNat / 64 + 0xC0) (by omega)
    refine ⟨_, _, heq, ?_⟩
    rw [List.singleton_append, utf8Step_two (by omega) (by omega) (hcontinues _), hread]
    · rfl
    · rw [hfirst, hlow]
      omega
  · have hfirst := htoNat (c.toNat / 4096 + 0xE0) (by omega)
    have hsecond := hlow (c.toNat / 64)
    refine ⟨_, _, heq, ?_⟩
    rw [List.cons_append, List.singleton_append, utf8Step_three (by omega) (by omega) (hcontinues _)
      (by omega) (by omega) (hcontinues _), hread]
    · rfl
    · rw [hfirst, hsecond, hlow]
      omega
  · have hfirst := htoNat (c.toNat / 262144 + 0xF0) (by omega)
    have hsecond := hlow (c.toNat / 4096)
    have hthird := hlow (c.toNat / 64)
    refine ⟨_, _, heq, ?_⟩
    rw [List.cons_append, List.cons_append, List.singleton_append, utf8Step_four (by omega) (by omega)
      (hcontinues _) (by omega) (by omega) (hcontinues _) (hcontinues _), hread]
    · rfl
    · rw [hfirst, hsecond, hthird, hlow]
      omega

/-! ## Texts -/

theorem utf8Steps_skip (bs r : List UInt8) : utf8Steps bs.length (bs ++ r) = utf8Steps 0 r := by
  induction bs with
  | nil => rfl
  | cons b bs ih => exact ih

/-- A character is read in one step, and then what follows it. -/
theorem utf8Steps_utf8Char (c : Char) (r : List UInt8) :
    ∃ size, utf8Steps 0 (utf8Char c ++ r) = ⟨some c, size⟩ :: utf8Steps 0 r := by
  obtain ⟨b, bs, heq, hstep⟩ := utf8Step_utf8Char c r
  refine ⟨bs.length + 1, ?_⟩
  rw [heq, List.cons_append, utf8Steps, hstep]
  dsimp only
  rw [Nat.add_sub_cancel, utf8Steps_skip]

theorem utf8Chars_utf8Char (c : Char) (r : List UInt8) :
    utf8Chars (utf8Char c ++ r) = c :: utf8Chars r := by
  obtain ⟨size, hsteps⟩ := utf8Steps_utf8Char c r
  rw [utf8Chars, hsteps, List.map_cons]
  rfl

/-- **A text is read from its bytes**, whatever its characters are. -/
theorem utf8Text_utf8 (s : String) : utf8Text (utf8 s) = s := by
  have hchars : ∀ cs : List Char, utf8Chars (cs.flatMap utf8Char) = cs := by
    intro cs
    induction cs with
    | nil => rfl
    | cons c r ih => rw [List.flatMap_cons, utf8Chars_utf8Char, ih]
  rw [utf8Text, utf8, hchars, String.ofList_toList]

/-- The bytes of a text are one. -/
theorem utf8Text?_utf8 (s : String) : utf8Text? (utf8 s) = some s := by
  have hchars : ∀ cs : List Char, (utf8Steps 0 (cs.flatMap utf8Char)).mapM Utf8Step.char? = some cs := by
    intro cs
    induction cs with
    | nil => rfl
    | cons c r ih =>
      obtain ⟨size, hsteps⟩ := utf8Steps_utf8Char c (r.flatMap utf8Char)
      rw [List.flatMap_cons, hsteps, List.mapM_cons, ih]
      rfl
  rw [utf8Text?, utf8, hchars, Option.map_some, String.ofList_toList]

theorem utf8_append (s t : String) : utf8 (s ++ t) = utf8 s ++ utf8 t := by
  rw [utf8, String.toList_append, List.flatMap_append]
  rfl

end BlockBoard
