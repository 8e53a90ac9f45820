import BlockBoard.Json.Printer
import BlockBoard.Proofs.Json.Grammar
/-!
# Documents are read from their texts

What is written for a document, with one item a line, is one of the texts that spell it: a character stands
as it is or behind a backslash, and between two items there is a comma with the blanks of a line. So a
document is read from what is written for it.

- `Json.inside_escapeChar`: a character is written as it may stand in a string.
- `Json.Number.Proper.spelled_written`: so is a number.
- `Json.Textual`: documents that have a text, which are those whose strings are texts.
- `Json.Textual.spells_prettyAt`: such a document is written as it may be spelled, by induction on it.
- `Json.ofText?_pretty`: **a document is read from its text**.
-/

namespace BlockBoard

namespace Json

/-! ## Strings -/

/-- **A character is written as it may stand in a string**, in one part of it. -/
theorem inside_escapeChar (c : Char) :
    ∃ p : StringPart, (∀ {ps cs}, Inside ps cs → Inside (p :: ps) (escapeChar c ++ cs)) ∧
      ∀ ps, spell? (p :: ps) = (spell? ps).map (c :: ·) := by
  have hspell : ∀ ps, spell? (.char c :: ps) = (spell? ps).map (c :: ·) := fun ps => by rw [spell?]
  unfold escapeChar
  split
  · exact ⟨.char c, .letter (by subst_vars; rfl), hspell⟩
  split
  · exact ⟨.char c, .letter (by subst_vars; rfl), hspell⟩
  split
  · exact ⟨.char c, .letter (by subst_vars; rfl), hspell⟩
  split
  · exact ⟨.char c, .letter (by subst_vars; rfl), hspell⟩
  split
  · exact ⟨.char c, .letter (by subst_vars; rfl), hspell⟩
  split
  · exact ⟨.char c, .letter (by subst_vars; rfl), hspell⟩
  split
  · exact ⟨.char c, .letter (by subst_vars; rfl), hspell⟩
  split
  · rename_i hcontrol
    have hunit : ∀ n < 0x20, codeUnit? '0' '0' (hexDigit (n / 16)) (hexDigit n) = some n := by decide
    refine ⟨.unit c.toNat, .unit (hunit _ hcontrol), fun ps => ?_⟩
    have hlow : (c.toNat < 0xD800 || 0xE000 ≤ c.toNat) = true := by simp; omega
    rw [spell?.eq_def]
    dsimp only
    rw [if_pos hlow, Char.ofNat_toNat]
  · rename_i hquote hbackslash _ _ _ _ _ hcontrol
    exact ⟨.char c, .plain hquote hbackslash (Nat.not_lt.mp hcontrol), hspell⟩

/-- **A text is written as it may stand between quotes.** -/
theorem inside_escaped (s : String) :
    ∃ ps, Inside ps (s.toList.flatMap escapeChar) ∧ stringOf ps = some s := by
  obtain ⟨ps, hinside, hspell⟩ : ∃ ps, Inside ps (s.toList.flatMap escapeChar) ∧
      spell? ps = some s.toList := by
    induction s.toList with
    | nil => exact ⟨[], .nil, rfl⟩
    | cons c cs ih =>
      obtain ⟨ps, hinside, hspell⟩ := ih
      obtain ⟨p, hp, hpspell⟩ := inside_escapeChar c
      refine ⟨p :: ps, hp hinside, ?_⟩
      rw [hpspell, hspell]
      rfl
  exact ⟨ps, hinside, by rw [stringOf, hspell, Option.map_some, String.ofList_toList]⟩

/-! ## Numbers -/

/-- An exponent as it is written. -/
def exponentText : Option Int → List Char
  | none => []
  | some e => 'e' :: (if e < 0 then '-' else '+') :: Nat.toDigits 10 e.natAbs

theorem Number.toList_written (n : Number) :
    n.written.toList = (if n.negative then ['-'] else []) ++
      (n.whole ++ (fractionText n.fraction ++ exponentText n.exponent)) := by
  obtain ⟨negative, whole, fraction, exponent⟩ := n
  rw [written]
  cases negative <;> cases fraction <;> cases exponent <;>
    simp [fractionText, exponentText, decimalText] <;> split <;> rfl

theorem exponentText_spells (e : Option Int) : ExponentText e (exponentText e) := by
  cases e with
  | none => exact .absent
  | some e =>
    have hdigits : ∀ c ∈ Nat.toDigits 10 e.natAbs, c.isDigit = true :=
      fun c hc => isDigit_of_mem_toDigits hc
    have hne : Nat.toDigits 10 e.natAbs ≠ [] := by simp
    by_cases he : e < 0
    · have htext : ExponentText _ ('e' :: (_ ++ _)) := .present (.inl rfl) .minus hne hdigits
      rw [digitsValue_toDigits, if_pos rfl, Int.ofNat_natAbs_of_nonpos (Int.le_of_lt he), Int.neg_neg] at htext
      rw [exponentText, if_pos he]
      exact htext
    · have htext : ExponentText _ ('e' :: (_ ++ _)) := .present (.inl rfl) .plus hne hdigits
      rw [digitsValue_toDigits, if_neg Bool.false_ne_true, Int.natAbs_of_nonneg (Int.not_lt.mp he)] at htext
      rw [exponentText, if_neg he]
      exact htext

/-- **A number is written as it may be spelled.** -/
theorem Number.Proper.spelled_written {n : Number} (h : n.Proper) : n.Spelled n.written.toList := by
  rw [Number.toList_written]
  exact .mk h (exponentText_spells n.exponent)

/-! ## Documents -/

/-- A document that has a text: its strings are texts, and its numbers can be written. -/
inductive Textual : Json → Prop
  | null : Textual .null
  | boolean (b : Bool) : Textual (.boolean b)
  | number {n : Number} (h : n.Proper) : Textual (.number n)
  | text (s : String) : Textual (.text s)
  | array {items : List Json} (h : ∀ v ∈ items, Textual v) : Textual (.array items)
  | object {members : List (Option String × Json)} (hnames : ∀ m ∈ members, m.1.isSome = true)
    (h : ∀ m ∈ members, Textual m.2) : Textual (.object members)

/-- The blanks of a line. -/
theorem blanks_newLine (level : Nat) : Blanks (newLine level).toList := by
  intro c hc
  have hcases : c = '\n' ∨ c ∈ List.replicate (2 * level) ' ' := by simpa [newLine] using hc
  rcases hcases with rfl | hc
  · rfl
  · rw [List.eq_of_mem_replicate hc]
    rfl

theorem toList_quote (s : String) : (quote s).toList = '"' :: (s.toList.flatMap escapeChar ++ ['"']) := by
  simp [quote]

/-- A name is written with its colon and a blank, on a line of its own. -/
theorem label_quote (level : Nat) (k : String) :
    Label (some k) ((newLine level).toList ++ ((quote k).toList ++ [':'])) := by
  obtain ⟨ps, hinside, hk⟩ := inside_escaped k
  have hlabel : Label _ _ := .mk (blanks_newLine level) hinside Blanks.nil
  rw [hk] at hlabel
  simpa [toList_quote] using hlabel

/-- A row of items is written as it may be spelled if each of them is. -/
theorem spells_prettyItems {level : Nat} {v : Json} {r : List Json}
    (h : ∀ w ∈ v :: r, Spells (.value w) (w.prettyAt level).toList) {after : List Char} (hafter : Blanks after) :
    Spells (.items (v :: r)) ((newLine level).toList ++ ((v.prettyAt level).toList ++
      ((prettyItems level r).toList ++ after))) := by
  induction r generalizing v with
  | nil =>
    have hnone : (prettyItems level []).toList = [] := by rw [prettyItems]; rfl
    rw [hnone, List.nil_append]
    exact .item (.element (blanks_newLine level) (h v List.mem_cons_self) hafter)
  | cons w r ih =>
    obtain ⟨hv, hr⟩ := List.forall_mem_cons.mp h
    have hhead : Spells (.element v) ((newLine level).toList ++ ((v.prettyAt level).toList ++ [])) :=
      .element (blanks_newLine level) hv Blanks.nil
    have hrow := Spells.items hhead (ih hr)
    rw [prettyItems]
    simpa using hrow

/-- A row of members is written as it may be spelled if the value of each of them is. -/
theorem spells_prettyMembers {level : Nat} {k : String} {v : Json} {r : List (Option String × Json)}
    (hnames : ∀ m ∈ r, m.1.isSome = true)
    (h : ∀ m ∈ (some k, v) :: r, Spells (.value m.2) (m.2.prettyAt level).toList) {after : List Char}
    (hafter : Blanks after) :
    Spells (.members ((some k, v) :: r)) ((newLine level).toList ++ ((quote k).toList ++ ':' :: ' ' ::
      ((v.prettyAt level).toList ++ ((prettyMembers level r).toList ++ after)))) := by
  have hblank : Blanks [' '] := List.forall_mem_singleton.mpr rfl
  induction r generalizing k v with
  | nil =>
    have hnone : (prettyMembers level []).toList = [] := by rw [prettyMembers]; rfl
    have hvalue : Spells (.value v) (v.prettyAt level).toList := h _ List.mem_cons_self
    have hrow := Spells.member (label_quote level k) (.element hblank hvalue hafter)
    rw [hnone, List.nil_append]
    simpa using hrow
  | cons m r ih =>
    obtain ⟨name, w⟩ := m
    obtain ⟨hname, hothers⟩ := List.forall_mem_cons.mp hnames
    obtain ⟨k', rfl⟩ := Option.isSome_iff_exists.mp hname
    have hvalue : Spells (.value v) (v.prettyAt level).toList := h _ List.mem_cons_self
    have hhead : Spells (.element v) ([' '] ++ ((v.prettyAt level).toList ++ [])) :=
      .element hblank hvalue Blanks.nil
    have hrow := Spells.members (label_quote level k) hhead
      (ih hothers fun m hm => h m (List.mem_cons_of_mem _ hm))
    rw [prettyMembers]
    simpa [quoted] using hrow

/-- **A document is written as it may be spelled**, on every level. -/
theorem Textual.spells_prettyAt {v : Json} (h : v.Textual) (level : Nat) :
    Spells (.value v) (v.prettyAt level).toList := by
  induction h generalizing level with
  | null =>
    rw [prettyAt]
    exact .null
  | boolean b =>
    rw [prettyAt]
    cases b with
    | true => exact .yes
    | false => exact .no
  | number h =>
    rw [prettyAt]
    exact .number h.spelled_written
  | text s =>
    obtain ⟨ps, hinside, hs⟩ := inside_escaped s
    rw [Json.text, prettyAt, quoted, Option.getD_some, toList_quote, ← hs]
    exact .string hinside
  | @array items _ ih =>
    cases items with
    | nil =>
      rw [prettyAt]
      exact .emptyArray Blanks.nil
    | cons v r =>
      have hrow := spells_prettyItems (fun w hw => ih w hw (level + 1)) (blanks_newLine level)
      rw [prettyAt]
      simpa using Spells.array hrow
  | @object members hnames _ ih =>
    cases members with
    | nil =>
      rw [prettyAt]
      exact .emptyObject Blanks.nil
    | cons m r =>
      obtain ⟨name, v⟩ := m
      obtain ⟨hname, hothers⟩ := List.forall_mem_cons.mp hnames
      obtain ⟨k, rfl⟩ := Option.isSome_iff_exists.mp hname
      have hrow := spells_prettyMembers hothers (fun m hm => ih m hm (level + 1)) (blanks_newLine level)
      rw [prettyAt]
      simpa [quoted] using Spells.object hrow

/-- **A document is read from its text.** -/
theorem ofText?_pretty {v : Json} (h : v.Textual) : ofText? v.pretty = some v := by
  have hspells : Spells (.element v) ([] ++ (v.pretty.toList ++ [])) :=
    .element Blanks.nil (h.spells_prettyAt 0) Blanks.nil
  rw [List.nil_append, List.append_nil] at hspells
  exact ofText?_eq_some_iff.mpr hspells

end Json

end BlockBoard
