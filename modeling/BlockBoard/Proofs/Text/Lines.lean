import BlockBoard.Text.Blank
import Mathlib.Data.List.DropRight
import Mathlib.Data.List.Infix
/-!
# Lines

A text as the lines that it is made of, and the places where a piece of text occurs in it. Where a
character stands at most at the beginning of every line, as the sign of a comment does in a program, a
piece of text that begins with it occurs once for each line that begins with the piece.

- `piecesAt_append_cons`, `intercalate_piecesAt`: the lines of two texts in a row, and the text that lines
  make up.
- `piecesAt_concat_self`, `piecesAt_concat_of_ne`: the lines of a text and one character more.
- `trimBlankEnd_append_line`: what trimming leaves of a text whose last line does not end in blanks.
- `occurrences`: how often a piece of text occurs in another one.
- `occurrences_eq_countP`: where it begins with such a character, it is counted line by line.
-/

namespace BlockBoard

/-! ## Pieces -/

section Pieces

variable {α : Type} {sep : α} {l p : List α}

theorem mem_intercalate_of_mem {x : α} {between : List α} {ls : List (List α)} (hp : p ∈ ls)
    (hx : x ∈ p) : x ∈ between.intercalate ls := by
  induction ls with
  | nil => cases hp
  | cons q r ih =>
    cases r with
    | nil =>
      obtain rfl := List.mem_singleton.mp hp
      simpa using hx
    | cons q' r =>
      rw [List.intercalate_cons_cons, List.mem_append, List.mem_append]
      rcases List.mem_cons.mp hp with rfl | hp
      · exact .inl (.inl hx)
      · exact .inr (ih hp)

theorem mem_of_mem_intercalate {x : α} {between : List α} {ls : List (List α)}
    (hx : x ∈ between.intercalate ls) : x ∈ between ∨ ∃ l ∈ ls, x ∈ l := by
  induction ls with
  | nil => cases hx
  | cons q r ih =>
    cases r with
    | nil => exact .inr ⟨q, List.mem_cons_self, by simpa using hx⟩
    | cons q' r =>
      rw [List.intercalate_cons_cons, List.mem_append, List.mem_append] at hx
      rcases hx with (hx | hx) | hx
      · exact .inr ⟨q, List.mem_cons_self, hx⟩
      · exact .inl hx
      · exact (ih hx).imp_right fun ⟨l, hl, h⟩ => ⟨l, List.mem_cons_of_mem q hl, h⟩

variable [BEq α]

theorem piecesAt_eq_splitOn (sep : α) (l : List α) : piecesAt sep l = l.splitOn sep := by
  induction l with
  | nil => rw [piecesAt, List.splitOn_nil]
  | cons c r ih =>
    rw [piecesAt, List.splitOn_cons_eq_if_modifyHead, ih]
    split
    · rfl
    · cases h : r.splitOn sep with
      | nil => exact absurd h (List.splitOn_ne_nil _ _)
      | cons p ps => rfl

theorem piecesAt_ne_nil (sep : α) (l : List α) : piecesAt sep l ≠ [] := by
  rw [piecesAt_eq_splitOn]
  exact List.splitOn_ne_nil _ _

/-- The pieces of a list are those that a separator ends, and the one after them. -/
theorem dropLast_piecesAt_append (sep : α) (l : List α) :
    (piecesAt sep l).dropLast ++ [(piecesAt sep l).getLast?.getD []] = piecesAt sep l := by
  have hne := piecesAt_ne_nil sep l
  rw [List.getLast?_eq_some_getLast hne, Option.getD_some, List.dropLast_concat_getLast hne]

variable [LawfulBEq α]

theorem piecesAt_append_cons (a b : List α) :
    piecesAt sep (a ++ sep :: b) = piecesAt sep a ++ piecesAt sep b := by
  simp only [piecesAt_eq_splitOn, List.splitOn_append_cons_self]

/-- A line, and what follows it. -/
theorem piecesAt_line {a : List α} (h : sep ∉ a) (b : List α) :
    piecesAt sep (a ++ sep :: b) = a :: piecesAt sep b := by
  simp only [piecesAt_eq_splitOn, List.splitOn_append_cons_self_of_not_mem h]

/-- One more separator ends the last piece, and begins an empty one. -/
theorem piecesAt_concat_self (sep : α) (l : List α) : piecesAt sep (l ++ [sep]) = piecesAt sep l ++ [[]] :=
  piecesAt_append_cons l []

/-- Anything else lengthens the last piece. -/
theorem piecesAt_concat_of_ne {x : α} (h : x ≠ sep) (l : List α) :
    piecesAt sep (l ++ [x]) =
      (piecesAt sep l).dropLast ++ [(piecesAt sep l).getLast?.getD [] ++ [x]] := by
  have hx : (x == sep) = false := beq_eq_false_iff_ne.mpr h
  induction l with
  | nil => simp [piecesAt, hx]
  | cons c r ih =>
    obtain ⟨p, ps, hpieces⟩ := List.exists_cons_of_ne_nil (piecesAt_ne_nil sep r)
    rw [hpieces] at ih
    by_cases hc : c == sep
    · rw [List.cons_append, piecesAt, piecesAt, if_pos hc, if_pos hc, ih, hpieces]
      rfl
    · rw [List.cons_append, piecesAt, piecesAt, if_neg hc, if_neg hc, ih, hpieces]
      cases ps with
      | nil => rfl
      | cons q qs => rfl

theorem intercalate_piecesAt (sep : α) (l : List α) : [sep].intercalate (piecesAt sep l) = l := by
  rw [piecesAt_eq_splitOn, List.intercalate_splitOn]

/-- The pieces consist of what the whole consists of. -/
theorem mem_of_mem_piecesAt {x : α} (hp : p ∈ piecesAt sep l) (hx : x ∈ p) : x ∈ l :=
  intercalate_piecesAt sep l ▸ mem_intercalate_of_mem hp hx

end Pieces

/-! ## Trimming -/

theorem toList_trimBlankEnd (s : String) : (trimBlankEnd s).toList = s.toList.rdropWhile isBlank := by
  rw [trimBlankEnd, String.toList_ofList]
  rfl

theorem mem_of_mem_trimBlankEnd {s : String} {c : Char} (h : c ∈ (trimBlankEnd s).toList) :
    c ∈ s.toList := by
  rw [toList_trimBlankEnd] at h
  exact (List.rdropWhile_prefix isBlank s.toList).subset h

/-- No blank is left at the end of a trimmed text. -/
theorem isBlank_of_getLast?_trimBlankEnd {s : String} {c : Char}
    (h : (trimBlankEnd s).toList.getLast? = some c) : isBlank c = false := by
  rw [toList_trimBlankEnd] at h
  have hne : s.toList.rdropWhile isBlank ≠ [] := by
    intro hnil
    rw [hnil] at h
    cases h
  have hlast := List.rdropWhile_last_not isBlank s.toList hne
  rw [List.getLast?_eq_some_getLast hne, Option.some_inj] at h
  rw [h] at hlast
  simpa using hlast

/-- What trimming leaves of a text that ends with a line without blanks at its end. -/
theorem trimBlankEnd_append_line (s : String) {l : String} {c : Char}
    (hlast : l.toList.getLast? = some c) (hc : isBlank c = false) :
    trimBlankEnd (s ++ l ++ "\n") = s ++ l := by
  obtain ⟨r, hr⟩ := List.getLast?_eq_some_iff.mp hlast
  rw [← String.toList_inj, toList_trimBlankEnd, String.toList_append, String.toList_append, hr]
  show ((s.toList ++ (r ++ [c])) ++ ['\n']).rdropWhile isBlank = _
  rw [List.rdropWhile_concat_pos _ _ _ (by decide), ← List.append_assoc,
    List.rdropWhile_concat_neg _ _ _ (by simp [hc])]

/-! ## Occurrences -/

/-- How often a text occurs in another one: the number of places where it begins. -/
def occurrences (t s : List Char) : Nat := s.tails.countP t.isPrefixOf

theorem occurrences_cons (t : List Char) (c : Char) (s : List Char) :
    occurrences t (c :: s) = occurrences t s + if t.isPrefixOf (c :: s) then 1 else 0 := by
  rw [occurrences, List.tails_cons, List.countP_cons, occurrences]

section

variable {m n : Char} {t : List Char}

/-- A text does not begin where its first character does not stand. -/
theorem occurrences_append {a : List Char} (h : m ∉ a) (b : List Char) :
    occurrences (m :: t) (a ++ b) = occurrences (m :: t) b := by
  induction a with
  | nil => rfl
  | cons c r ih =>
    have hc : (m == c) = false := beq_eq_false_iff_ne.mpr fun h' => h (h' ▸ List.mem_cons_self)
    rw [List.cons_append, occurrences_cons, ih fun h' => h (List.mem_cons_of_mem c h'),
      List.isPrefixOf_cons_cons, hc]
    rfl

/-- A text that does not go beyond a line begins there if it begins the line. -/
theorem isPrefixOf_append_cons (h : n ∉ t) (l r : List Char) :
    t.isPrefixOf (l ++ n :: r) = t.isPrefixOf l := by
  induction t generalizing l with
  | nil => rw [List.isPrefixOf_nil_left, List.isPrefixOf_nil_left]
  | cons c t ih =>
    cases l with
    | nil =>
      have hc : (c == n) = false := beq_eq_false_iff_ne.mpr fun h' => h (h' ▸ List.mem_cons_self)
      rw [List.nil_append, List.isPrefixOf_cons_cons, hc]
      rfl
    | cons d l =>
      rw [List.cons_append, List.isPrefixOf_cons_cons, List.isPrefixOf_cons_cons,
        ih fun h' => h (List.mem_cons_of_mem c h')]

/-- In a line that has the first character of a text at most at its beginning, the text occurs at most
there. -/
theorem occurrences_line {l : List Char} (h : m ∉ l.tail) :
    occurrences (m :: t) l = if (m :: t).isPrefixOf l then 1 else 0 := by
  cases l with
  | nil => rfl
  | cons c r =>
    have hr : occurrences (m :: t) r = 0 := by
      have hr : m ∉ r := h
      rw [← List.append_nil r, occurrences_append hr]
      rfl
    rw [occurrences_cons, hr, Nat.zero_add]

/-- More lines after it change nothing about that. -/
theorem occurrences_line_append (hn : n ∉ m :: t) {l : List Char} (h : m ∉ l.tail) (r : List Char) :
    occurrences (m :: t) (l ++ n :: r) =
      (if (m :: t).isPrefixOf l then 1 else 0) + occurrences (m :: t) r := by
  have hmn : m ≠ n := fun h' => hn (h' ▸ List.mem_cons_self)
  have hend : m ∉ [n] := fun h' => hmn (List.mem_singleton.mp h')
  cases l with
  | nil => exact (occurrences_append hend r).trans (Nat.zero_add _).symm
  | cons c l =>
    have hline : m ∉ l ++ [n] := fun h' => (List.mem_append.mp h').elim h hend
    rw [List.cons_append, occurrences_cons, ← List.cons_append, isPrefixOf_append_cons hn,
      List.append_cons, occurrences_append hline, Nat.add_comm]

theorem occurrences_intercalate (hn : n ∉ m :: t) {ls : List (List Char)} (h : ∀ l ∈ ls, m ∉ l.tail) :
    occurrences (m :: t) ([n].intercalate ls) = ls.countP (m :: t).isPrefixOf := by
  induction ls with
  | nil => rfl
  | cons l r ih =>
    have hl : m ∉ l.tail := h l List.mem_cons_self
    cases r with
    | nil =>
      rw [List.intercalate_singleton, occurrences_line hl, List.countP_cons, List.countP_nil,
        Nat.zero_add]
    | cons l' r =>
      rw [List.intercalate_cons_cons, List.append_assoc, List.singleton_append,
        occurrences_line_append hn hl, ih fun x hx => h x (List.mem_cons_of_mem l hx), Nat.add_comm,
        ← List.countP_cons]

/-- Where a character stands at most at the beginning of each line, a text that begins with it occurs
once for every line that begins with the text. -/
theorem occurrences_eq_countP (hn : n ∉ m :: t) {s : List Char} (h : ∀ l ∈ piecesAt n s, m ∉ l.tail) :
    occurrences (m :: t) s = (piecesAt n s).countP (m :: t).isPrefixOf := by
  have := occurrences_intercalate hn h
  rwa [intercalate_piecesAt] at this

end

end BlockBoard
