import BlockBoard.Proofs.Script.CodeLine
/-!
# Outlines

The board finds out by their indentation which lines belong together: a line that ends with a colon
opens a suite, which consists of the lines right after it that are deeper, and the suite of `else`
belongs to the statement before it. This module reads lines by that rule, without a look at what they
say, and shows that statements are read as they were meant.

- `Outline`: how statements are nested in each other.
- `Outline.read?`: the outline of some lines, if they have one. Blank lines, lines that are deeper for
  no reason, and suites without a statement have none.
- `Outline.filled_of_read?`: no suite in an outline is empty.
- `Stmt.outline`: the outline of a statement.
- `Stmt.lines_text`, `Stmt.indent_text`: the lines of a code are those of its statements, so that it
  makes no difference whether lines or whole texts are moved one level deeper.
- `Stmt.assembled`, `Stmt.assembledSuite_eq`: **a code can be put together from whole texts**, each suite being
  split into lines again and moved one level deeper.
- `Stmt.read?_text`: **the code of statements is read as their outline**.
-/

namespace BlockBoard

open Script

/-- How statements are nested in each other: a line by itself, or a header with the suite below it and
perhaps a second suite, which stands below the word `else`. -/
inductive Outline where
  | simple (line : String)
  | compound (header : String) (suite : List Outline) (otherwise : Option (List Outline))

namespace Outline

/-! ## Reading lines -/

/-- The header of a second suite. -/
def elseLine : String := "else:"

/-- Whether a line is at least one level deeper. -/
def isIndented (l : String) : Bool := indentation.toList.isPrefixOf l.toList

/-- A line one level less deep. -/
def outdentLine (l : String) : String := String.ofList (l.toList.drop indentation.length)

/-- The lines of the suite at the beginning of some lines, as they stand in it. -/
def suiteIn (ls : List String) : List String := (ls.takeWhile isIndented).map outdentLine

/-- What follows the suite at the beginning of some lines. -/
def afterSuite (ls : List String) : List String := ls.dropWhile isIndented

/-- Whether a line can be the first of a statement: it shows something where it begins, and it is not
the header of a second suite. -/
def beginsStatement (l : String) : Bool := l.toList.head?.any (!isBlank ·) && l != elseLine

/-- Whether a line opens a suite. -/
def opensSuite (l : String) : Bool := l.toList.getLast? == some ':'

/-- A suite, if it has a statement. -/
def filled? (suite : Option (List Outline)) : Option (List Outline) :=
  suite.filter fun os => !os.isEmpty

theorem length_suiteIn_le (ls : List String) : (suiteIn ls).length ≤ ls.length := by
  rw [suiteIn, List.length_map]
  exact (List.takeWhile_sublist _).length_le

theorem length_afterSuite_le (ls : List String) : (afterSuite ls).length ≤ ls.length :=
  (List.dropWhile_sublist _).length_le

/-- The outline of some lines. -/
def read? : List String → Option (List Outline)
  | [] => some []
  | l :: r =>
    if !beginsStatement l then none
    else if !opensSuite l then (read? r).map (simple l :: ·)
    else do
      let suite ← filled? (read? (suiteIn r))
      if (afterSuite r).head? = some elseLine then
        let other ← filled? (read? (suiteIn (afterSuite r).tail))
        (read? (afterSuite (afterSuite r).tail)).map (compound l suite (some other) :: ·)
      else (read? (afterSuite r)).map (compound l suite none :: ·)
termination_by ls => ls.length
decreasing_by
  all_goals
    have hin := length_suiteIn_le r
    have hafter := length_afterSuite_le r
    have hin' := length_suiteIn_le (afterSuite r).tail
    have hafter' := length_afterSuite_le (afterSuite r).tail
    simp only [List.length_cons, List.length_tail] at *
    omega

/-- An outline in which every suite has a statement. -/
inductive Filled : Outline → Prop
  | simple (line : String) : Filled (.simple line)
  | compound (header : String) {suite : List Outline} {otherwise : Option (List Outline)}
      (hne : suite ≠ []) (hsuite : ∀ o ∈ suite, Filled o)
      (hne' : ∀ other ∈ otherwise, other ≠ [])
      (hother : ∀ other ∈ otherwise, ∀ o ∈ other, Filled o) :
      Filled (.compound header suite otherwise)

theorem filled?_eq_some_iff {suite : Option (List Outline)} {os : List Outline} :
    filled? suite = some os ↔ suite = some os ∧ os ≠ [] := by
  rw [filled?, Option.filter_eq_some_iff]
  simp

/-- **No suite in an outline that is read is empty.** -/
theorem filled_of_read? {ls : List String} {os : List Outline} (h : read? ls = some os) :
    ∀ o ∈ os, o.Filled := by
  induction hn : ls.length using Nat.strong_induction_on generalizing ls os with
  | _ n ih =>
    subst hn
    cases ls with
    | nil =>
      rw [read?] at h
      cases h
      exact List.forall_mem_nil _
    | cons l r =>
      have hin := length_suiteIn_le r
      have hafter := length_afterSuite_le r
      -- every suite is read from fewer lines
      have hfilled : ∀ {part : List String} {suite : List Outline}, part.length < (l :: r).length →
          filled? (read? part) = some suite → suite ≠ [] ∧ ∀ o ∈ suite, o.Filled := by
        intro part suite hlength hread
        obtain ⟨hread, hne⟩ := filled?_eq_some_iff.mp hread
        exact ⟨hne, ih _ hlength hread rfl⟩
      have hrest : ∀ {part : List String} {o : Outline}, part.length < (l :: r).length → o.Filled →
          (read? part).map (o :: ·) = some os → ∀ o ∈ os, o.Filled := by
        intro part o hlength ho hread
        obtain ⟨rest, hpart, rfl⟩ := Option.map_eq_some_iff.mp hread
        exact List.forall_mem_cons.mpr ⟨ho, ih _ hlength hpart rfl⟩
      rw [List.length_cons] at hfilled hrest
      rw [read?] at h
      split at h
      · cases h
      split at h
      · exact hrest (by omega) (.simple l) h
      obtain ⟨suite, hsuite, h⟩ := Option.bind_eq_some_iff.mp h
      obtain ⟨hne, hall⟩ := hfilled (by omega) hsuite
      split at h
      · have hin' := length_suiteIn_le (afterSuite r).tail
        have hafter' := length_afterSuite_le (afterSuite r).tail
        rw [List.length_tail] at hin' hafter'
        obtain ⟨other, hother, h⟩ := Option.bind_eq_some_iff.mp h
        obtain ⟨hne', hall'⟩ := hfilled (by omega) hother
        exact hrest (by omega) (.compound l hne hall (by simpa using hne') (by simpa using hall')) h
      · exact hrest (by omega) (.compound l hne hall (by simp) (by simp)) h

/-- A header without a suite is not read. -/
example : (read? ["if x:", "y"]).isNone = true := by cbv

/-! ## What follows a statement -/

/-- Lines of which the first, if there is one, begins a statement. -/
def NextBegins (ls : List String) : Prop := ∀ l ∈ ls.head?, beginsStatement l = true

theorem not_isIndented_of_beginsStatement {l : String} (h : beginsStatement l = true) :
    isIndented l = false := by
  rw [beginsStatement, Bool.and_eq_true] at h
  obtain ⟨c, hc, hseen⟩ := (Option.any_eq_true _ _).mp h.1
  obtain ⟨r, hr⟩ := List.head?_eq_some_iff.mp hc
  have hspace : (' ' == c) = false := by
    refine beq_eq_false_iff_ne.mpr ?_
    rintro rfl
    exact absurd hseen (by decide)
  rw [isIndented, hr]
  show ([' ', ' ', ' ', ' '] : List Char).isPrefixOf (c :: r) = false
  rw [List.isPrefixOf_cons_cons, hspace]
  rfl

theorem not_isIndented_elseLine : isIndented elseLine = false := by decide

/-- A line that shows something is found again after it has been moved one level deeper. -/
theorem isIndented_indentLine {l : String} (h : l ≠ "") :
    isIndented (indentLine l) = true ∧ outdentLine (indentLine l) = l := by
  have hempty : ¬ l.isEmpty = true := by
    rw [String.isEmpty_iff]
    exact h
  rw [indentLine, if_neg hempty]
  constructor
  · rw [isIndented, String.toList_append]
    exact List.isPrefixOf_iff_prefix.mpr (List.prefix_append _ _)
  · have hlength : indentation.length = indentation.toList.length := String.length_toList.symm
    rw [outdentLine, String.toList_append, hlength, List.drop_left, String.ofList_toList]

/-- The lines of a suite are found again below their header. -/
theorem suiteIn_append {ls : List String} (h : ∀ l ∈ ls, l ≠ "") {rest : List String}
    (hrest : ∀ l ∈ rest.head?, isIndented l = false) :
    suiteIn (ls.map indentLine ++ rest) = ls ∧ afterSuite (ls.map indentLine ++ rest) = rest := by
  have hdeep : ∀ l ∈ ls.map indentLine, isIndented l = true := by
    intro l hl
    obtain ⟨l', hl', rfl⟩ := List.mem_map.mp hl
    exact (isIndented_indentLine (h l' hl')).1
  have htake : rest.takeWhile isIndented = [] ∧ rest.dropWhile isIndented = rest := by
    cases rest with
    | nil => exact ⟨rfl, rfl⟩
    | cons l r =>
      have hl := hrest l rfl
      simp [hl]
  constructor
  · rw [suiteIn, List.takeWhile_append_of_pos hdeep, htake.1, List.append_nil, List.map_map]
    conv_rhs => rw [← List.map_id ls]
    exact List.map_congr_left fun l hl => (isIndented_indentLine (h l hl)).2
  · rw [afterSuite, List.dropWhile_append_of_pos hdeep, htake.2]

/-! ## Statements -/

theorem read?_simple {l : String} (hl : beginsStatement l = true) (hsimple : opensSuite l = false)
    (r : List String) : read? (l :: r) = (read? r).map (simple l :: ·) := by
  rw [read?, hl, hsimple]
  rfl

/-- A header, its suite, and what follows it. -/
theorem read?_compound {l : String} (hl : beginsStatement l = true) (hopens : opensSuite l = true)
    {ls rest : List String} (hls : ∀ l ∈ ls, l ≠ "") (hrest : NextBegins rest) {suite : List Outline}
    (hsuite : read? ls = some suite) (hne : suite ≠ []) :
    read? (l :: (ls.map indentLine ++ rest)) =
      (read? rest).map (compound l suite none :: ·) := by
  obtain ⟨hin, hafter⟩ := suiteIn_append hls fun l h => not_isIndented_of_beginsStatement (hrest l h)
  have helse : rest.head? ≠ some elseLine := by
    intro h
    exact absurd (hrest elseLine h) (by decide)
  rw [read?, hl, hopens, hin, hafter, filled?_eq_some_iff.mpr ⟨hsuite, hne⟩]
  show (if rest.head? = some elseLine then _ else _) = _
  rw [if_neg helse]

/-- A header, its suite, a second suite, and what follows it. -/
theorem read?_compound_else {l : String} (hl : beginsStatement l = true) (hopens : opensSuite l = true)
    {ls ls' rest : List String} (hls : ∀ l ∈ ls, l ≠ "") (hls' : ∀ l ∈ ls', l ≠ "")
    (hrest : NextBegins rest) {suite other : List Outline} (hsuite : read? ls = some suite)
    (hne : suite ≠ []) (hother : read? ls' = some other) (hne' : other ≠ []) :
    read? (l :: (ls.map indentLine ++ elseLine :: (ls'.map indentLine ++ rest))) =
      (read? rest).map (compound l suite (some other) :: ·) := by
  have helse : ∀ l ∈ (elseLine :: (ls'.map indentLine ++ rest)).head?, isIndented l = false := by
    rintro l ⟨⟩
    exact not_isIndented_elseLine
  obtain ⟨hin, hafter⟩ := suiteIn_append hls helse
  obtain ⟨hin', hafter'⟩ :=
    suiteIn_append hls' fun l h => not_isIndented_of_beginsStatement (hrest l h)
  rw [read?, hl, hopens, hin, hafter, filled?_eq_some_iff.mpr ⟨hsuite, hne⟩]
  simp only [List.head?_cons, List.tail_cons]
  rw [hin', hafter', filled?_eq_some_iff.mpr ⟨hother, hne'⟩]
  rfl

end Outline

/-! ## The ends of a line -/

/-- Something shows where a text begins. -/
def Begins (s : String) : Prop := s.toList.head?.any (!isBlank ·) = true

/-- A text does not open a suite where it ends. -/
def Closes (s : String) : Prop := s.toList.getLast?.any (· != ':') = true

instance (s : String) : Decidable (Begins s) := inferInstanceAs (Decidable (_ = true))

instance (s : String) : Decidable (Closes s) := inferInstanceAs (Decidable (_ = true))

theorem Begins.append {a : String} (h : Begins a) (b : String) : Begins (a ++ b) := by
  obtain ⟨c, hc, hseen⟩ := (Option.any_eq_true _ _).mp h
  rw [Begins, String.toList_append, List.head?_append, hc]
  exact hseen

theorem Closes.after {b : String} (h : Closes b) (a : String) : Closes (a ++ b) := by
  obtain ⟨c, hc, hend⟩ := (Option.any_eq_true _ _).mp h
  rw [Closes, String.toList_append, List.getLast?_append, hc]
  exact hend

/-- A line that is a whole statement. -/
structure StatementLine (s : String) : Prop where
  begins : Begins s
  closes : Closes s

/-- It begins a statement and opens no suite. -/
theorem StatementLine.reads {s : String} (h : StatementLine s) :
    Outline.beginsStatement s = true ∧ Outline.opensSuite s = false := by
  obtain ⟨c, hc, hend⟩ := (Option.any_eq_true _ _).mp h.closes
  have hne : c ≠ ':' := by simpa using hend
  constructor
  · rw [Outline.beginsStatement, Bool.and_eq_true, bne_iff_ne]
    refine ⟨h.begins, ?_⟩
    rintro rfl
    exact absurd h.closes (by decide)
  · rw [Outline.opensSuite, hc]
    simpa using hne

theorem statementLine_of_nameChars {cs : List Char} (hne : cs ≠ [])
    (h : ∀ c ∈ cs, isNameChar c = true) : StatementLine (String.ofList cs) := by
  constructor
  · rw [Begins, String.toList_ofList, List.head?_eq_some_head hne, Option.any_some]
    simp [(isPlain_of_isNameChar (h _ (List.head_mem hne))).2]
  · rw [Closes, String.toList_ofList, List.getLast?_eq_some_getLast hne, Option.any_some, bne_iff_ne]
    intro hcolon
    have hlast := h _ (List.getLast_mem hne)
    rw [hcolon] at hlast
    exact absurd hlast (by decide)

theorem statementLine_name {n : String} (h : isName n = true) : StatementLine n := by
  obtain ⟨hne, hall⟩ := nameChars_of_isName h
  rw [← String.ofList_toList (s := n)]
  exact statementLine_of_nameChars hne hall

theorem statementLine_numeral {n : Numeral} (h : n.fraction.all Char.isDigit = true) :
    StatementLine n.text := by
  have hwhole : StatementLine (decimalText n.whole) :=
    statementLine_of_nameChars Nat.toDigits_ne_nil fun c hc =>
      isNameChar_of_isDigit (Nat.isDigit_of_mem_toDigits (by decide) (by decide) hc)
  rw [Numeral.text]
  cases hfraction : n.fraction with
  | nil => simpa using hwhole
  | cons d ds =>
    rw [hfraction] at h
    have hdigits : StatementLine (String.ofList (d :: ds)) :=
      statementLine_of_nameChars (by simp) fun c hc =>
        isNameChar_of_isDigit (List.all_eq_true.mp h c hc)
    exact ⟨hwhole.begins.append _, (hdigits.closes.after _).after _⟩

theorem statementLine_fit {f : Fragment} (h : StatementLine f.code) (bound : Precedence) :
    StatementLine (f.fit bound) := by
  have hopening : Begins "(" := by decide
  have hclosing : Closes ")" := by decide
  unfold Fragment.fit
  split
  · exact ⟨(hopening.append _).append _, hclosing.after _⟩
  · exact h

/-- The code of a proper expression is a whole statement. -/
theorem Expr.Proper.statementLine {e : Expr} (h : e.Proper) : StatementLine e.fragment.code := by
  have hclosing : Closes ")" := by decide
  have hbracket : Closes "]" := by decide
  have hquote : Begins "\"" ∧ Closes "\"" := by decide
  have hsign : Begins "-" := by decide
  have hword : Begins "not " := by decide
  induction h with
  | name h => exact statementLine_name h
  | number h => exact statementLine_numeral h
  | text s => exact ⟨(hquote.1.append _).append _, hquote.2.after _⟩
  | field _ _ hn ihe =>
    exact ⟨((statementLine_fit ihe .call).begins.append _).append _,
      (statementLine_name hn).closes.after _⟩
  | call _ _ ihf _ =>
    exact ⟨(((statementLine_fit ihf .call).begins.append _).append _).append _, hclosing.after _⟩
  | subscript _ _ ihe _ =>
    exact ⟨(((statementLine_fit ihe .call).begins.append _).append _).append _, hbracket.after _⟩
  | negate _ ih => exact ⟨hsign.append _, (statementLine_fit ih .unary).closes.after _⟩
  | not _ ih => exact ⟨hword.append _, (statementLine_fit ih .logicalNot).closes.after _⟩
  | binary op _ _ iha ihb =>
    exact ⟨((((statementLine_fit iha op.left).begins.append _).append _).append _).append _,
      (statementLine_fit ihb op.right).closes.after _⟩

/-! ## Lines and their text -/

/-- A text that is one line: it has no line end in it, and none that could be taken for a part of one. -/
def IsLine (l : String) : Prop := '\n' ∉ l.toList ∧ l.toList.getLast? ≠ some '\r'

/-- A text without control characters. -/
def ControlFree (l : String) : Prop := ∀ c ∈ l.toList, 0x20 ≤ c.toNat

instance (l : String) : Decidable (ControlFree l) := List.decidableBAll _ _

/-- A text without control characters is one line. -/
theorem ControlFree.isLine {l : String} (h : ControlFree l) : IsLine l :=
  ⟨fun hmem => absurd (h _ hmem) (by decide),
    fun hlast => absurd (h _ (List.mem_of_getLast? hlast)) (by decide)⟩

theorem CodeLine.controlFree {l : String} (h : CodeLine l) : ControlFree l := by
  intro c hc
  have hplain := List.all_eq_true.mp h.plain c hc
  simp only [isPlain, Bool.and_eq_true, decide_eq_true_eq] at hplain
  exact hplain.1.2

/-- Lines are found again in their text. -/
theorem lines_unlines {ls : List String} (h : ∀ l ∈ ls, IsLine l) : lines (unlines ls) = ls := by
  have hpieces : piecesAt '\n' (unlines ls).toList = ls.map String.toList ++ [[]] := by
    rw [toList_unlines]
    induction ls with
    | nil => rfl
    | cons l r ih =>
      obtain ⟨hl, hr⟩ := List.forall_mem_cons.mp h
      rw [List.flatMap_cons, List.append_assoc, List.singleton_append, piecesAt_line hl.1, ih hr]
      rfl
  have hreturn : ∀ l ∈ ls, String.ofList (dropReturn l.toList) = l := by
    intro l hl
    rw [dropReturn, if_neg (h l hl).2, String.ofList_toList]
  rw [lines, linesOf, hpieces]
  simp only [List.dropLast_concat, List.getLast?_concat, Option.getD_some, List.isEmpty_nil, if_true,
    List.append_nil, List.map_map]
  conv_rhs => rw [← List.map_id ls]
  exact List.map_congr_left hreturn

/-! ## Statements as they are meant -/

namespace Stmt

mutual

/-- The outline of a statement. -/
def outline : Stmt → Outline
  | .expr e => .simple e.fragment.code
  | .pass => .simple "pass"
  | .ifElse c body otherwise =>
    .compound ("if " ++ c.code ++ ":") (suiteOutline body) <|
      match otherwise with
      | none => none
      | some other => some (suiteOutline other)
  | .repeatTimes n body => .compound ("for _ in range(" ++ n.code ++ "):") (suiteOutline body) none

/-- The outlines of statements in a row. -/
def suiteOutline : List Stmt → List Outline
  | [] => []
  | s :: r => s.outline :: suiteOutline r

end

theorem suiteOutline_eq_map (ss : List Stmt) : suiteOutline ss = ss.map outline := by
  induction ss with
  | nil => rfl
  | cons s r ih => rw [suiteOutline, ih, List.map_cons]

/-- A statement in which every suite has a statement. -/
inductive Filled : Stmt → Prop
  | expr (e : Expr) : Filled (.expr e)
  | pass : Filled .pass
  | ifElse (c : Expr) {body : List Stmt} {otherwise : Option (List Stmt)} (hne : body ≠ [])
      (hbody : ∀ s ∈ body, Filled s) (hne' : ∀ other ∈ otherwise, other ≠ [])
      (hother : ∀ other ∈ otherwise, ∀ s ∈ other, Filled s) : Filled (.ifElse c body otherwise)
  | repeatTimes (n : Expr) {body : List Stmt} (hne : body ≠ []) (hbody : ∀ s ∈ body, Filled s) :
      Filled (.repeatTimes n body)

/-- A statement is read as its outline, whatever follows it. -/
structure ReadAsMeant (s : Stmt) : Prop where
  begins : Outline.NextBegins s.lines
  reads : ∀ rest, Outline.NextBegins rest →
    Outline.read? (s.lines ++ rest) = (Outline.read? rest).map (s.outline :: ·)

/-- Statements in a row, from single ones. -/
theorem read?_suiteLines_append {ss : List Stmt} (h : ∀ s ∈ ss, s.ReadAsMeant) (rest : List String)
    (hrest : Outline.NextBegins rest) : Outline.NextBegins (suiteLines ss ++ rest) ∧
      Outline.read? (suiteLines ss ++ rest) =
        (Outline.read? rest).map (suiteOutline ss ++ ·) := by
  induction ss with
  | nil =>
    refine ⟨hrest, ?_⟩
    show Outline.read? rest = (Outline.read? rest).map id
    rw [Option.map_id_fun, id]
  | cons s r ih =>
    obtain ⟨hs, hr⟩ := List.forall_mem_cons.mp h
    obtain ⟨hbegins, hreads⟩ := ih hr
    rw [suiteLines, List.append_assoc]
    constructor
    · intro l hl
      obtain ⟨l', ls, hlines⟩ := List.exists_cons_of_ne_nil s.lines_ne_nil
      rw [hlines] at hl
      exact hs.begins l (hlines ▸ hl)
    · rw [hs.reads _ hbegins, hreads, Option.map_map]
      rfl

theorem read?_suiteLines {ss : List Stmt} (h : ∀ s ∈ ss, s.ReadAsMeant) :
    Outline.read? (suiteLines ss) = some (suiteOutline ss) := by
  have hreads := (read?_suiteLines_append h [] nofun).2
  rw [List.append_nil, Outline.read?] at hreads
  rw [hreads, Option.map_some, List.append_nil]

theorem readAsMeant_line {s : Stmt} {l : String} (hlines : s.lines = [l])
    (houtline : s.outline = .simple l) (hl : StatementLine l) : s.ReadAsMeant := by
  obtain ⟨hbegins, hsimple⟩ := hl.reads
  constructor
  · rw [hlines]
    intro l' hl'
    obtain rfl := Option.some.inj hl'
    exact hbegins
  · intro rest _
    rw [hlines, houtline]
    exact Outline.read?_simple hbegins hsimple rest

/-- A line that begins and ends like the header of a statement. -/
theorem header_reads (first rest last : String) (hfirst : Begins first)
    (hword : first.toList.head? ≠ some 'e') (hlast : Outline.opensSuite last = true) :
    Outline.beginsStatement (first ++ rest ++ last) = true ∧
      Outline.opensSuite (first ++ rest ++ last) = true := by
  constructor
  · rw [Outline.beginsStatement, Bool.and_eq_true, bne_iff_ne]
    refine ⟨(hfirst.append _).append _, fun helse => hword ?_⟩
    obtain ⟨c, hc, -⟩ := (Option.any_eq_true _ _).mp hfirst
    have hhead : (first ++ rest ++ last).toList.head? = some c := by
      simp [List.head?_append, hc]
    rw [helse] at hhead
    rw [hc, ← hhead]
    rfl
  · rw [Outline.opensSuite, String.toList_append, List.getLast?_append,
      eq_of_beq (show (last.toList.getLast? == some ':') = true from hlast)]
    rfl

/-- **A proper statement is read as it was meant**, if every suite in it has a statement. -/
theorem Proper.readAsMeant {s : Stmt} (hproper : s.Proper) (hfilled : s.Filled) : s.ReadAsMeant := by
  have hnil : ∀ {ss : List Stmt}, ss ≠ [] → suiteOutline ss ≠ [] := by
    intro ss hss
    rw [suiteOutline_eq_map]
    simpa using hss
  have hshown : ∀ {ss : List Stmt}, (∀ s ∈ ss, s.Proper) → ∀ l ∈ suiteLines ss, l ≠ "" := by
    intro ss hss l hl hempty
    exact absurd (hempty ▸ (codeLine_suiteLines hss l hl).solid) (by decide)
  induction hproper with
  | expr he => exact readAsMeant_line rfl rfl he.statementLine
  | pass => exact readAsMeant_line rfl rfl ⟨by decide, by decide⟩
  | @ifElse c body otherwise hc hbody hother ihbody ihother =>
    cases hfilled with
    | ifElse _ hne hfbody hne' hfother =>
      obtain ⟨hbegins, hopens⟩ := header_reads "if " c.code ":" (by decide) (by decide)
        (by decide)
      have hreads := read?_suiteLines fun s hs => ihbody s hs (hfbody s hs)
      constructor
      · intro l hl
        rw [lines.eq_def] at hl
        obtain rfl := Option.some.inj hl
        exact hbegins
      · intro rest hrest
        rw [lines.eq_def, outline.eq_def]
        cases otherwise with
        | none =>
          simp only [List.append_nil, List.cons_append]
          exact Outline.read?_compound hbegins hopens (hshown hbody) hrest hreads (hnil hne)
        | some other =>
          have hreads' := read?_suiteLines fun s hs => ihother other rfl s hs (hfother other rfl s hs)
          simp only [List.cons_append, List.append_assoc]
          exact Outline.read?_compound_else hbegins hopens (hshown hbody) (hshown (hother other rfl))
            hrest hreads (hnil hne) hreads' (hnil (hne' other rfl))
  | @repeatTimes n body hn hbody ihbody =>
    cases hfilled with
    | repeatTimes _ hne hfbody =>
      obtain ⟨hbegins, hopens⟩ := header_reads "for _ in range(" n.code "):" (by decide)
        (by decide) (by decide)
      have hreads := read?_suiteLines fun s hs => ihbody s hs (hfbody s hs)
      constructor
      · intro l hl
        rw [lines] at hl
        obtain rfl := Option.some.inj hl
        exact hbegins
      · intro rest hrest
        rw [lines, outline, List.cons_append]
        exact Outline.read?_compound hbegins hopens (hshown hbody) hrest hreads (hnil hne)

/-! ## The text of statements -/

/-- The lines of proper statements are the lines of their text. -/
theorem lines_text {ss : List Stmt} (h : ∀ s ∈ ss, s.Proper) :
    BlockBoard.lines (text ss) = suiteLines ss :=
  lines_unlines fun l hl => (codeLine_suiteLines h l hl).controlFree.isLine

/-- Moving a text one level deeper moves its lines. -/
theorem indent_text {ss : List Stmt} (h : ∀ s ∈ ss, s.Proper) :
    indent (text ss) = unlines ((suiteLines ss).map indentLine) := by
  rw [indent, lines_text h]

mutual

/-- The text of a statement, put together from the texts of its suites, each of which is moved one level deeper
as a whole. -/
def assembled : Stmt → String
  | .expr e => e.fragment.code ++ "\n"
  | .pass => "pass\n"
  | .ifElse c body otherwise =>
    "if " ++ c.code ++ ":\n" ++ indent (assembledSuite body) ++
      match otherwise with
      | none => ""
      | some other => "else:\n" ++ indent (assembledSuite other)
  | .repeatTimes n body => "for _ in range(" ++ n.code ++ "):\n" ++ indent (assembledSuite body)

/-- The text of statements in a row. -/
def assembledSuite : List Stmt → String
  | [] => ""
  | s :: r => s.assembled ++ assembledSuite r

end

theorem text_cons (s : Stmt) (r : List Stmt) : text (s :: r) = unlines s.lines ++ text r := by
  rw [text, suiteLines, unlines_append]
  rfl

/-- The text of an `if` is its header, and then the text of its suite, moved one level deeper. -/
theorem unlines_ifElse (c : Expr) {body : List Stmt} (h : ∀ s ∈ body, s.Proper) :
    unlines (Stmt.ifElse c body none).lines = "if " ++ c.code ++ ":\n" ++ indent (text body) := by
  rw [lines.eq_def, indent_text h, ← String.toList_inj]
  simp

/-- With a second suite, the word `else` and the text of that suite follow. -/
theorem unlines_ifElse_some (c : Expr) {body other : List Stmt} (h : ∀ s ∈ body, s.Proper)
    (h' : ∀ s ∈ other, s.Proper) :
    unlines (Stmt.ifElse c body (some other)).lines =
      "if " ++ c.code ++ ":\n" ++ indent (text body) ++ ("else:\n" ++ indent (text other)) := by
  rw [lines.eq_def, indent_text h, indent_text h', ← String.toList_inj]
  simp

/-- The text of a loop is its header, and then the text of its suite, moved one level deeper. -/
theorem unlines_repeatTimes (n : Expr) {body : List Stmt} (h : ∀ s ∈ body, s.Proper) :
    unlines (Stmt.repeatTimes n body).lines =
      "for _ in range(" ++ n.code ++ "):\n" ++ indent (text body) := by
  rw [lines, indent_text h, ← String.toList_inj]
  simp

theorem assembledSuite_of_members {ss : List Stmt} (h : ∀ s ∈ ss, s.assembled = unlines s.lines) :
    assembledSuite ss = text ss := by
  induction ss with
  | nil => rfl
  | cons s r ih =>
    obtain ⟨hs, hr⟩ := List.forall_mem_cons.mp h
    rw [assembledSuite, text_cons, hs, ih hr]

theorem Proper.assembled_eq {s : Stmt} (h : s.Proper) : s.assembled = unlines s.lines := by
  induction h with
  | expr he => rfl
  | pass => rfl
  | @ifElse c body otherwise hc hbody hother ihbody ihother =>
    rw [assembled.eq_def]
    cases otherwise with
    | none =>
      rw [unlines_ifElse c hbody, ← assembledSuite_of_members ihbody]
      exact String.append_empty
    | some other =>
      rw [unlines_ifElse_some c hbody (hother other rfl), ← assembledSuite_of_members ihbody,
        ← assembledSuite_of_members (ihother other rfl)]
  | repeatTimes hn hbody ihbody =>
    rw [assembled, unlines_repeatTimes _ hbody, assembledSuite_of_members ihbody]

/-- **A code can be put together from whole texts**: it makes no difference that the text of a suite is split
into lines again at every level above it. -/
theorem assembledSuite_eq {ss : List Stmt} (h : ∀ s ∈ ss, s.Proper) : assembledSuite ss = text ss :=
  assembledSuite_of_members fun s hs => (h s hs).assembled_eq

/-- **The code of statements is read as their outline**, line by line and by nothing but indentation. -/
theorem read?_text {ss : List Stmt} (hproper : ∀ s ∈ ss, s.Proper) (hfilled : ∀ s ∈ ss, s.Filled) :
    Outline.read? (BlockBoard.lines (text ss)) = some (suiteOutline ss) := by
  rw [lines_text hproper]
  exact read?_suiteLines fun s hs => (hproper s hs).readAsMeant (hfilled s hs)

end Stmt

end BlockBoard
