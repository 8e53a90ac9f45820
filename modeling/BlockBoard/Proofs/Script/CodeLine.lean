import BlockBoard.Proofs.Script.Reading
import BlockBoard.Proofs.Text.Lines
import BlockBoard.Script.Stmt
/-!
# Lines of code

Whatever the texts and names in a program are, its lines are lines: no character in them ends a line,
begins a comment or means anything to a terminal, and none ends in a blank.

- `Plain`: texts without such characters.
- `CodeLine`: a line, with something to see at its end.
- `Expr.Proper.codeLine`: the code of a proper expression is one.
- `Stmt.Proper`: statements made of proper expressions.
- `Stmt.Proper.codeLine`: **every line of a proper statement is one**.
- `Stmt.trimBlankEnd_text`: trimming the code of statements takes away the end of its last line.
-/

namespace BlockBoard

open Script

/-! ## Plain texts -/

/-- Whether a character can stand in a line of code: it begins no comment and controls nothing. -/
def isPlain (c : Char) : Bool := c != '#' && decide (0x20 ≤ c.toNat) && c.toNat != 0x7F

/-- A text of characters that can stand in a line of code. -/
def Plain (s : String) : Prop := s.toList.all isPlain = true

instance (s : String) : Decidable (Plain s) := inferInstanceAs (Decidable (_ = true))

/-- A line of code: it is plain, and something can be seen at its end. -/
structure CodeLine (s : String) : Prop where
  plain : Plain s
  solid : s.toList.getLast?.any (!isBlank ·) = true

variable {a b s : String}

theorem Plain.append (ha : Plain a) (hb : Plain b) : Plain (a ++ b) := by
  rw [Plain, String.toList_append, List.all_append, Bool.and_eq_true]
  exact ⟨ha, hb⟩

/-- A line is one with anything plain before it. -/
theorem CodeLine.after (hb : CodeLine b) (ha : Plain a) : CodeLine (a ++ b) := by
  refine ⟨ha.append hb.plain, ?_⟩
  have hsolid := hb.solid
  rw [String.toList_append, List.getLast?_append]
  cases h : b.toList.getLast? with
  | none =>
    rw [h] at hsolid
    cases hsolid
  | some c =>
    rw [h] at hsolid
    exact hsolid

/-! ## Expressions -/

theorem toNat_of_isAlpha {c : Char} (h : c.isAlpha = true) :
    (65 ≤ c.toNat ∧ c.toNat ≤ 90) ∨ (97 ≤ c.toNat ∧ c.toNat ≤ 122) := by
  rcases Bool.or_eq_true_iff.mp h with hupper | hlower
  · exact .inl (of_decide_eq_true hupper)
  · obtain ⟨hlow, hhigh⟩ := Bool.and_eq_true_iff.mp hlower
    exact .inr ⟨of_decide_eq_true hlow, of_decide_eq_true hhigh⟩

/-- The characters of names, digits among them, are plain and can be seen. -/
theorem isPlain_of_isNameChar {c : Char} (h : isNameChar c = true) :
    isPlain c = true ∧ isBlank c = false := by
  have hplain : ∀ n < 123, 48 ≤ n →
      isPlain (Char.ofNat n) = true ∧ isBlank (Char.ofNat n) = false := by decide
  have hrange : 48 ≤ c.toNat ∧ c.toNat < 123 := by
    rcases Bool.or_eq_true_iff.mp h with h | h
    · rcases Bool.or_eq_true_iff.mp h with h | h
      · have hletter := toNat_of_isAlpha h
        omega
      · obtain ⟨hlow, hhigh⟩ := Char.isDigit_iff_toNat.mp h
        exact ⟨hlow, Nat.lt_of_le_of_lt hhigh (by decide)⟩
    · obtain rfl := eq_of_beq h
      decide
  rw [← Char.ofNat_toNat c]
  exact hplain c.toNat hrange.2 hrange.1

theorem codeLine_of_nameChars {cs : List Char} (hne : cs ≠ []) (h : ∀ c ∈ cs, isNameChar c = true) :
    CodeLine (String.ofList cs) := by
  constructor
  · rw [Plain, String.toList_ofList, List.all_eq_true]
    exact fun c hc => (isPlain_of_isNameChar (h c hc)).1
  · rw [String.toList_ofList, List.getLast?_eq_some_getLast hne, Option.any_some]
    simp [(isPlain_of_isNameChar (h _ (List.getLast_mem hne))).2]

/-- A name consists of characters of names, of which there is at least one. -/
theorem nameChars_of_isName {n : String} (h : isName n = true) :
    n.toList ≠ [] ∧ ∀ c ∈ n.toList, isNameChar c = true := by
  obtain ⟨⟨-, hstart⟩, hall⟩ : (wordToken? n = some (.name n) ∧
      n.toList.head?.any isNameStart = true) ∧ n.toList.all isNameChar = true := by
    simpa [isName] using h
  refine ⟨fun hnil => ?_, List.all_eq_true.mp hall⟩
  simp [hnil] at hstart

theorem codeLine_name {n : String} (h : isName n = true) : CodeLine n := by
  obtain ⟨hne, hall⟩ := nameChars_of_isName h
  rw [← String.ofList_toList (s := n)]
  exact codeLine_of_nameChars hne hall

theorem codeLine_numeral {n : Numeral} (h : n.fraction.all Char.isDigit = true) : CodeLine n.text := by
  have hwhole : CodeLine (decimalText n.whole) :=
    codeLine_of_nameChars Nat.toDigits_ne_nil fun c hc =>
      isNameChar_of_isDigit (Nat.isDigit_of_mem_toDigits (by decide) (by decide) hc)
  rw [Numeral.text]
  cases hfraction : n.fraction with
  | nil => simpa using hwhole
  | cons d ds =>
    rw [hfraction] at h
    have hdigits : CodeLine (String.ofList (d :: ds)) :=
      codeLine_of_nameChars (by simp) fun c hc => isNameChar_of_isDigit (List.all_eq_true.mp h c hc)
    exact (hdigits.after (by decide)).after hwhole.plain

/-- The escapes of characters that have one are plain. -/
theorem all_isPlain_escaped {c : Char} (h : c ∈ ['\\', '"', '\n', '\r', '\t', '#']) :
    (quotedChar c).all isPlain = true := by
  simp only [List.mem_cons, List.not_mem_nil, or_false] at h
  rcases h with rfl | rfl | rfl | rfl | rfl | rfl <;> rfl

/-- What stands for a character of a quoted text is plain, whatever the character. -/
theorem isPlain_of_mem_quotedChar {c d : Char} (h : d ∈ quotedChar c) : isPlain d = true := by
  have hhex : ∀ n < 16, isPlain n.digitChar = true := by decide
  by_cases hescaped : c ∈ ['\\', '"', '\n', '\r', '\t', '#']
  · exact List.all_eq_true.mp (all_isPlain_escaped hescaped) d h
  rw [quotedChar_of_not_mem hescaped] at h
  by_cases hcontrol : (c.toNat < 0x20 || c.toNat = 0x7f) = true
  · have hcode : c.toNat < 256 := by
      simp only [Bool.or_eq_true, decide_eq_true_eq] at hcontrol
      omega
    rw [if_pos hcontrol] at h
    simp only [List.mem_cons, List.not_mem_nil, or_false] at h
    rcases h with rfl | rfl | rfl | rfl
    · decide
    · decide
    · exact hhex _ (by omega)
    · exact hhex _ (Nat.mod_lt _ (by decide))
  · rw [if_neg hcontrol] at h
    obtain rfl := List.mem_singleton.mp h
    have hhash : d ≠ '#' := by
      rintro rfl
      exact hescaped (by decide)
    simp only [Bool.or_eq_true, decide_eq_true_eq, not_or, Nat.not_lt] at hcontrol
    simp [isPlain, hhash, hcontrol.1, hcontrol.2]

theorem codeLine_quotedText (s : String) : CodeLine (quotedText s) := by
  have hbody : Plain (String.ofList (s.toList.flatMap quotedChar)) := by
    rw [Plain, String.toList_ofList, List.all_eq_true]
    intro d hd
    obtain ⟨c, -, hc⟩ := List.mem_flatMap.mp hd
    exact isPlain_of_mem_quotedChar hc
  have hquote : CodeLine "\"" := ⟨by decide, by decide⟩
  exact hquote.after (.append (by decide) hbody)

/-- Parentheses make no difference. -/
theorem codeLine_fit {f : Fragment} (h : CodeLine f.code) (bound : Precedence) :
    CodeLine (f.fit bound) := by
  have hclosing : CodeLine ")" := ⟨by decide, by decide⟩
  unfold Fragment.fit
  split
  · exact hclosing.after (.append (by decide) h.plain)
  · exact h

namespace Expr

theorem plain_argumentCode {args : List Expr} (h : ∀ a ∈ args, CodeLine a.fragment.code) :
    Plain (argumentCode args) := by
  induction args with
  | nil => decide
  | cons e r ih =>
    have he := (codeLine_fit (h e List.mem_cons_self) .loosest).plain
    cases r with
    | nil => exact he
    | cons e' r =>
      exact (he.append (by decide)).append (ih fun a ha => h a (List.mem_cons_of_mem e ha))

/-- The code of a proper expression is part of a line. -/
theorem Proper.codeLine {e : Expr} (h : e.Proper) : CodeLine e.fragment.code := by
  have hclosing : CodeLine ")" := ⟨by decide, by decide⟩
  have hbracket : CodeLine "]" := ⟨by decide, by decide⟩
  induction h with
  | name h => exact codeLine_name h
  | number h => exact codeLine_numeral h
  | text s => exact codeLine_quotedText s
  | field _ _ hn ihe =>
    exact (codeLine_name hn).after ((codeLine_fit ihe .call).plain.append (by decide))
  | call _ _ ihf iha =>
    have hopen := (codeLine_fit ihf .call).plain.append (b := "(") (by decide)
    exact hclosing.after (hopen.append (plain_argumentCode iha))
  | subscript _ _ ihe ihi =>
    have hopen := (codeLine_fit ihe .call).plain.append (b := "[") (by decide)
    exact hbracket.after (hopen.append (codeLine_fit ihi .loosest).plain)
  | negate _ ih => exact (codeLine_fit ih .unary).after (by decide)
  | not _ ih => exact (codeLine_fit ih .logicalNot).after (by decide)
  | binary op _ _ iha ihb =>
    have hsymbol : Plain op.symbol := by cases op <;> decide
    have hleft := (codeLine_fit iha op.left).plain.append (b := " ") (by decide)
    exact (codeLine_fit ihb op.right).after ((hleft.append hsymbol).append (by decide))

end Expr

/-! ## Statements -/

@[simp] theorem toList_unlines (ls : List String) :
    (unlines ls).toList = ls.flatMap fun l => l.toList ++ ['\n'] := by
  rw [unlines, String.toList_join, List.flatMap_map]
  congr 1
  funext l
  exact String.toList_append

theorem unlines_append (a b : List String) : unlines (a ++ b) = unlines a ++ unlines b := by
  rw [← String.toList_inj]
  simp

theorem unlines_cons (l : String) (r : List String) : unlines (l :: r) = l ++ "\n" ++ unlines r := by
  rw [← String.toList_inj]
  simp

namespace Stmt

/-- Statements of proper expressions. -/
inductive Proper : Stmt → Prop
  | expr {e : Expr} (he : e.Proper) : Proper (.expr e)
  | pass : Proper .pass
  | ifElse {c : Expr} {body : List Stmt} {otherwise : Option (List Stmt)} (hc : c.Proper)
      (hbody : ∀ s ∈ body, Proper s) (hother : ∀ other ∈ otherwise, ∀ s ∈ other, Proper s) :
      Proper (.ifElse c body otherwise)
  | repeatTimes {n : Expr} {body : List Stmt} (hn : n.Proper) (hbody : ∀ s ∈ body, Proper s) :
      Proper (.repeatTimes n body)

theorem suiteLines_eq_flatMap (ss : List Stmt) : suiteLines ss = ss.flatMap lines := by
  induction ss with
  | nil => rfl
  | cons s r ih => rw [suiteLines, ih, List.flatMap_cons]

theorem codeLine_indentLine {l : String} (h : CodeLine l) : CodeLine (indentLine l) := by
  unfold indentLine
  split
  · exact h
  · exact h.after (by decide)

/-- The lines of a suite, one level deeper. -/
theorem codeLine_suite {ss : List Stmt} (h : ∀ s ∈ ss, ∀ l ∈ s.lines, CodeLine l) :
    ∀ l ∈ (suiteLines ss).map indentLine, CodeLine l := by
  intro l hl
  obtain ⟨l', hl', rfl⟩ := List.mem_map.mp hl
  rw [suiteLines_eq_flatMap] at hl'
  obtain ⟨s, hs, hmem⟩ := List.mem_flatMap.mp hl'
  exact codeLine_indentLine (h s hs l' hmem)

/-- **Lines are lines**, whatever texts and names they hold. -/
theorem Proper.codeLine {s : Stmt} (h : s.Proper) : ∀ l ∈ s.lines, CodeLine l := by
  have hcolon : CodeLine ":" := ⟨by decide, by decide⟩
  have hrange : CodeLine "):" := ⟨by decide, by decide⟩
  induction h with
  | expr he =>
    intro l hl
    rw [lines, List.mem_singleton] at hl
    exact hl ▸ he.codeLine
  | pass =>
    intro l hl
    rw [lines, List.mem_singleton] at hl
    exact hl ▸ ⟨by decide, by decide⟩
  | @ifElse c body otherwise hc _ _ ihbody ihother =>
    intro l hl
    rw [lines.eq_def, List.mem_append, List.mem_cons] at hl
    rcases hl with (rfl | hl) | hl
    · exact hcolon.after (.append (by decide) (codeLine_fit hc.codeLine .loosest).plain)
    · exact codeLine_suite ihbody l hl
    · cases otherwise with
      | none => cases hl
      | some other =>
        rcases List.mem_cons.mp hl with rfl | hl
        · exact ⟨by decide, by decide⟩
        · exact codeLine_suite (ihother other rfl) l hl
  | @repeatTimes n body hn _ ihbody =>
    intro l hl
    rw [lines, List.mem_cons] at hl
    rcases hl with rfl | hl
    · exact hrange.after (.append (by decide) (codeLine_fit hn.codeLine .loosest).plain)
    · exact codeLine_suite ihbody l hl

theorem codeLine_suiteLines {ss : List Stmt} (h : ∀ s ∈ ss, s.Proper) :
    ∀ l ∈ suiteLines ss, CodeLine l := by
  intro l hl
  rw [suiteLines_eq_flatMap] at hl
  obtain ⟨s, hs, hmem⟩ := List.mem_flatMap.mp hl
  exact (h s hs).codeLine l hmem

/-- The code of proper statements consists of line ends and of characters that can stand in a line. -/
theorem isPlain_of_mem_text {ss : List Stmt} (h : ∀ s ∈ ss, s.Proper) {c : Char}
    (hc : c ∈ (text ss).toList) : c = '\n' ∨ isPlain c = true := by
  rw [text, toList_unlines] at hc
  obtain ⟨l, hl, hc⟩ := List.mem_flatMap.mp hc
  rcases List.mem_append.mp hc with hc | hc
  · exact .inr (List.all_eq_true.mp (codeLine_suiteLines h l hl).plain c hc)
  · exact .inl (List.mem_singleton.mp hc)

theorem lines_ne_nil (s : Stmt) : s.lines ≠ [] := by
  cases s <;> simp [lines.eq_def]

/-- Only where there are no statements is there no code. -/
theorem text_eq_empty_iff {ss : List Stmt} : text ss = "" ↔ ss = [] := by
  rw [← String.toList_eq_nil_iff, text, toList_unlines, suiteLines_eq_flatMap, List.flatMap_eq_nil_iff]
  constructor
  · intro h
    cases ss with
    | nil => rfl
    | cons s r =>
      obtain ⟨l, ls, hlines⟩ := List.exists_cons_of_ne_nil s.lines_ne_nil
      have hempty := h l (by simp [hlines])
      exact absurd hempty (by simp)
  · rintro rfl
    simp

/-- Trimming takes away the end of the last line and nothing else. -/
theorem trimBlankEnd_text {ss : List Stmt} (h : ∀ s ∈ ss, s.Proper) :
    text ss = "" ∨ text ss = trimBlankEnd (text ss) ++ "\n" := by
  have hlines := codeLine_suiteLines h
  rw [text]
  rcases List.eq_nil_or_concat (suiteLines ss) with hnil | ⟨ls, l, hconcat⟩
  · exact .inl (by rw [hnil]; rfl)
  · have hsolid := (hlines l (by simp [hconcat])).solid
    obtain ⟨c, hlast, hc⟩ := (Option.any_eq_true _ _).mp hsolid
    have htext : unlines (suiteLines ss) = unlines ls ++ l ++ "\n" := by
      rw [← String.toList_inj, hconcat]
      simp
    rw [htext, trimBlankEnd_append_line _ hlast (by simpa using hc)]
    exact .inr rfl

end Stmt

end BlockBoard
