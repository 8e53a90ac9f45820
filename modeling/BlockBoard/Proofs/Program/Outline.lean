import BlockBoard.Program.Requirements
import BlockBoard.Proofs.Program.Statements
import BlockBoard.Proofs.Script.Outline
/-!
# The outline of a program

Which statement stands in which suite is settled by the blocks: a suite holds the statements of the
chain in its socket. This module says what that makes of a graph, block by block and without a look at
the code, and shows that the board finds it in the code by indentation alone.

- `Block.outline`: the outline that a block asks for.
- `Shallow`: lines that show something and are not deeper than a number of levels.
- `Stmt.LaidOut`, `laidOut_statementOf`: the statement of a block has the block's outline.
- `BlockGraph.generate_outline`: **the code of a graph is read as the outline of its blocks**.
-/

namespace BlockBoard

/-! ## What the blocks ask for -/

namespace Block

/-- The blocks of a suite: the chain in its socket, if that begins with a statement. -/
def suiteBlocks? (b : Block) (socket : String) : Option (List Block) :=
  match b.input? socket with
  | some (.chain first rest) => if first.kind.isStatement then some (first :: rest) else none
  | _ => none

/-- Whether a block is plugged into a socket. -/
def isPlugged (b : Block) (socket : String) : Bool :=
  match b.input? socket with
  | some (.chain _ _) => true
  | _ => false

/-- The outline of a suite: one statement for each of its blocks, or `pass` if it has none or if no level
is left for them. -/
def suiteOutline (below : Option (Block → Outline)) (b : Block) (socket : String) : List Outline :=
  match below, b.suiteBlocks? socket with
  | some outline, some bs => bs.map outline
  | _, _ => [.simple "pass"]

/-- The line of a block, which is the header of its suites if it has some. -/
def line (level : Option Below) (b : Block) : String :=
  match b.kind with
  | .ifElse => "if " ++ (inputOf level b "IF").value.code ++ ":"
  | .repeatTimes => "for _ in range(" ++ (integerInput level b "TIMES").value.code ++ "):"
  | _ => (statementOf level b).value.lines.headD ""

/-- The outline of a block, from those of the blocks one level deeper. There is a second suite where a
block is plugged in for it, be it one that is no statement. -/
def outlineWith (level : Option Below) (below : Option (Block → Outline)) (b : Block) : Outline :=
  match b.kind with
  | .ifElse => .compound (b.line level) (b.suiteOutline below "DO")
      (if b.isPlugged "ELSE" then some (b.suiteOutline below "ELSE") else none)
  | .repeatTimes => .compound (b.line level) (b.suiteOutline below "DO") none
  | _ => .simple (b.line level)

/-- The outline that a block asks for, with a number of levels left below it. -/
def outline : Nat → Block → Outline
  | 0, b => b.outlineWith none none
  | n + 1, b => b.outlineWith (belowWith (n + 1)) (some (outline n))

end Block

/-! ## Depth -/

/-- A line that shows something and is at most a number of levels deep; only `pass` may stand one level
deeper than that. -/
def Shallow (n : Nat) (l : String) : Prop :=
  ∃ k text, l = String.join (List.replicate k indentation) ++ text ∧ Begins text ∧
    (k ≤ n ∨ k = n + 1 ∧ text = "pass")

theorem Shallow.ofBegins {l : String} (h : Begins l) (n : Nat) : Shallow n l :=
  ⟨0, l, by simp, h, .inl (Nat.zero_le n)⟩

/-- Something can be seen in the line. -/
theorem Shallow.shows {n : Nat} {l : String} (h : Shallow n l) : ∃ c ∈ l.toList, isBlank c = false := by
  obtain ⟨k, text, rfl, hbegins, -⟩ := h
  obtain ⟨c, hc, hseen⟩ := (Option.any_eq_true _ _).mp hbegins
  refine ⟨c, ?_, by simpa using hseen⟩
  rw [String.toList_append]
  exact List.mem_append_right _ (List.mem_of_head? hc)

theorem Shallow.indentLine {n : Nat} {l : String} (h : Shallow n l) :
    Shallow (n + 1) (indentLine l) := by
  have hshown : ¬ l.isEmpty = true := by
    intro hempty
    obtain ⟨c, hc, -⟩ := h.shows
    rw [String.isEmpty_iff.mp hempty] at hc
    cases hc
  obtain ⟨k, text, rfl, hbegins, hdepth⟩ := h
  refine ⟨k + 1, text, ?_, hbegins, hdepth.imp (by omega) fun ⟨hk, htext⟩ => ⟨by omega, htext⟩⟩
  rw [BlockBoard.indentLine, if_neg hshown, List.replicate_succ, ← String.append_assoc]
  simp

/-- The suite that does nothing is as deep as any other, or deeper by a level where none is left. -/
theorem shallow_pass (n : Nat) : Shallow n (indentLine "pass") := by
  refine ⟨1, "pass", by decide, by decide, ?_⟩
  cases n with
  | zero => exact .inr ⟨rfl, rfl⟩
  | succ n => exact .inl (by omega)

/-! ## Statements with a given outline -/

/-- A statement with a given outline, every suite of it filled, and not deeper than a number of
levels. -/
structure Stmt.LaidOut (n : Nat) (o : Outline) (s : Stmt) : Prop where
  outline : s.outline = o
  filled : s.Filled
  shallow : ∀ l ∈ s.lines, Shallow n l

/-- A suite with a given outline, below a statement that is not deeper than a number of levels. -/
structure Stmt.LaidOutSuite (n : Nat) (os : List Outline) (ss : List Stmt) : Prop where
  ne_nil : ss ≠ []
  outline : Stmt.suiteOutline ss = os
  filled : ∀ s ∈ ss, s.Filled
  shallow : ∀ l ∈ (Stmt.suiteLines ss).map indentLine, Shallow n l

open Stmt (LaidOut LaidOutSuite)

theorem laidOutSuite_pass (n : Nat) : LaidOutSuite n [.simple "pass"] [.pass] where
  ne_nil := List.cons_ne_nil _ _
  outline := rfl
  filled s hs := by
    obtain rfl := List.mem_singleton.mp hs
    exact .pass
  shallow l hl := by
    obtain rfl := List.mem_singleton.mp hl
    exact shallow_pass n

/-- A suite of statements that are laid out, one level deeper. -/
theorem laidOutSuite_map {n : Nat} {bs : List Block} {outline : Block → Outline}
    {stmt : Block → Stmt} (hne : bs ≠ []) (h : ∀ b, (stmt b).LaidOut n (outline b)) :
    LaidOutSuite (n + 1) (bs.map outline) (bs.map stmt) where
  ne_nil := by simpa using hne
  outline := by
    rw [Stmt.suiteOutline_eq_map, List.map_map]
    exact List.map_congr_left fun b _ => (h b).outline
  filled s hs := by
    obtain ⟨b, -, rfl⟩ := List.mem_map.mp hs
    exact (h b).filled
  shallow l hl := by
    obtain ⟨l', hl', rfl⟩ := List.mem_map.mp hl
    rw [Stmt.suiteLines_eq_flatMap, List.flatMap_map] at hl'
    obtain ⟨b, -, hmem⟩ := List.mem_flatMap.mp hl'
    exact ((h b).shallow l' hmem).indentLine

/-! ## Blocks -/

theorem value_statementsOf (below : Option Below) (bs : List Block) :
    (statementsOf below bs).value = bs.map fun b => (statementOf below b).value :=
  Noted.value_forEach _ bs

/-- What stands in a suite. -/
theorem value_bodyOf (below : Option Below) (b : Block) (socket : String) :
    (bodyOf below b socket).value =
      match below, b.suiteBlocks? socket with
      | some level, some bs => (level.chain bs).value
      | _, _ => [.pass] := by
  unfold bodyOf Block.suiteBlocks?
  cases b.input? socket with
  | none => cases below <;> rfl
  | some binding =>
    cases binding with
    | literal v => cases below <;> rfl
    | chain first rest =>
      by_cases hstatement : first.kind.isStatement = true
      · simp only [if_pos hstatement]
        cases below <;> rfl
      · simp only [if_neg hstatement]
        cases below <;> rfl

/-- The statement of a block without suites is an expression. -/
theorem value_statementOf_expr (below : Option Below) {b : Block} (hif : b.kind ≠ .ifElse)
    (hrepeat : b.kind ≠ .repeatTimes) : ∃ e, (statementOf below b).value = .expr e := by
  unfold statementOf
  cases hkind : b.kind with
  | ifElse => exact absurd hkind hif
  | repeatTimes => exact absurd hkind hrepeat
  | playTone =>
    simp only [Noted.value_bind, Noted.value_pure]
    split <;> exact ⟨_, rfl⟩
  | _ => exact ⟨_, rfl⟩

theorem value_statementOf_ifElse (below : Option Below) {b : Block} (hkind : b.kind = .ifElse) :
    (statementOf below b).value =
      .ifElse (inputOf below b "IF").value (bodyOf below b "DO").value
        (if b.isPlugged "ELSE" then some (bodyOf below b "ELSE").value else none) := by
  simp only [statementOf, hkind, Noted.value_bind]
  split
  · rename_i first rest helse
    have hplugged : b.isPlugged "ELSE" = true := by rw [Block.isPlugged, helse]
    rw [if_pos hplugged]
    rfl
  · rename_i hother
    have hplugged : ¬ b.isPlugged "ELSE" = true := by
      unfold Block.isPlugged
      split
      · exact absurd ‹_› (hother _ _)
      · exact Bool.false_ne_true
    rw [if_neg hplugged]
    rfl

theorem value_statementOf_repeatTimes (below : Option Below) {b : Block}
    (hkind : b.kind = .repeatTimes) :
    (statementOf below b).value =
      .repeatTimes (integerInput below b "TIMES").value (bodyOf below b "DO").value := by
  simp only [statementOf, hkind, Noted.value_bind, Noted.value_pure]

section Blocks

variable {below : Option Below} {outline : Option (Block → Outline)} {n : Nat}

/-- The suite of an `if` or of a loop stands below its header. -/
theorem laidOut_ifElse {b : Block} (hkind : b.kind = .ifElse)
    (hsuite : ∀ socket,
      LaidOutSuite n (b.suiteOutline outline socket) (bodyOf below b socket).value) :
    (statementOf below b).value.LaidOut n (b.outlineWith below outline) := by
  obtain ⟨hne, houtline, hfilled, hshallow⟩ := hsuite "DO"
  obtain ⟨hne', houtline', hfilled', hshallow'⟩ := hsuite "ELSE"
  have hheader : Begins ("if " ++ (inputOf below b "IF").value.code ++ ":") :=
    (Begins.append (by decide) _).append _
  have helse : Begins "else:" := by decide
  rw [value_statementOf_ifElse below hkind]
  cases hplugged : b.isPlugged "ELSE" with
  | false =>
    simp only [Bool.false_eq_true, if_false]
    refine ⟨?_, .ifElse _ hne hfilled nofun nofun, ?_⟩
    · simp [Stmt.outline.eq_def, Block.outlineWith, Block.line, hkind, hplugged, houtline]
    · intro l hl
      rw [Stmt.lines.eq_def] at hl
      rcases List.mem_append.mp hl with hl | hl
      · rcases List.mem_cons.mp hl with rfl | hl
        · exact .ofBegins hheader n
        · exact hshallow l hl
      · cases hl
  | true =>
    simp only [if_true]
    refine ⟨?_, .ifElse _ hne hfilled ?_ ?_, ?_⟩
    · simp [Stmt.outline.eq_def, Block.outlineWith, Block.line, hkind, hplugged, houtline, houtline']
    · rintro other ⟨⟩
      exact hne'
    · rintro other ⟨⟩
      exact hfilled'
    · intro l hl
      rw [Stmt.lines.eq_def] at hl
      rcases List.mem_append.mp hl with hl | hl
      · rcases List.mem_cons.mp hl with rfl | hl
        · exact .ofBegins hheader n
        · exact hshallow l hl
      · rcases List.mem_cons.mp hl with rfl | hl
        · exact .ofBegins helse n
        · exact hshallow' l hl

/-- One level: where the suites of a block are laid out as the block asks for, so is its statement. -/
theorem laidOut_statement (hproper : ProperBelow below) {b : Block}
    (hsuite : ∀ socket,
      LaidOutSuite n (b.suiteOutline outline socket) (bodyOf below b socket).value) :
    (statementOf below b).value.LaidOut n (b.outlineWith below outline) := by
  by_cases hif : b.kind = .ifElse
  · exact laidOut_ifElse hif hsuite
  by_cases hrepeat : b.kind = .repeatTimes
  · obtain ⟨hne, houtline, hfilled, hshallow⟩ := hsuite "DO"
    rw [value_statementOf_repeatTimes below hrepeat]
    refine ⟨?_, .repeatTimes _ hne hfilled, ?_⟩
    · simp [Stmt.outline, Block.outlineWith, Block.line, hrepeat, houtline]
    · intro l hl
      rw [Stmt.lines] at hl
      rcases List.mem_cons.mp hl with rfl | hl
      · exact .ofBegins ((Begins.append (by decide) _).append _) n
      · exact hshallow l hl
  · obtain ⟨e, he⟩ := value_statementOf_expr below hif hrepeat
    have hline : b.line below = e.fragment.code := by
      unfold Block.line
      rw [he]
      split
      · exact absurd ‹_› hif
      · exact absurd ‹_› hrepeat
      · rfl
    have houtline : b.outlineWith below outline = .simple e.fragment.code := by
      unfold Block.outlineWith
      rw [hline]
      split
      · exact absurd ‹_› hif
      · exact absurd ‹_› hrepeat
      · rfl
    have hstatement := proper_statementOf hproper b
    rw [he] at hstatement ⊢
    refine ⟨houtline.symm, .expr e, ?_⟩
    intro l hl
    rw [Stmt.lines, List.mem_singleton] at hl
    cases hstatement with
    | expr he => exact hl ▸ .ofBegins he.statementLine.begins n

end Blocks

/-- The statement of a block is laid out as the block asks for, with any number of levels left. -/
theorem laidOut_statementOf (n : Nat) (b : Block) :
    (statementOf (belowWith n) b).value.LaidOut n (b.outline n) := by
  induction n generalizing b with
  | zero =>
    refine laidOut_statement (properBelow_belowWith 0) fun socket => ?_
    rw [value_bodyOf]
    exact laidOutSuite_pass 0
  | succ n ih =>
    refine laidOut_statement (properBelow_belowWith (n + 1)) fun socket => ?_
    rw [value_bodyOf, Block.suiteOutline.eq_def]
    cases hblocks : b.suiteBlocks? socket with
    | none => exact laidOutSuite_pass (n + 1)
    | some bs =>
      have hne : bs ≠ [] := by
        rintro rfl
        unfold Block.suiteBlocks? at hblocks
        grind
      show LaidOutSuite (n + 1) (bs.map (Block.outline n)) (statementsOf (belowWith n) bs).value
      rw [value_statementsOf]
      exact laidOutSuite_map hne ih

/-! ## Graphs -/

/-- **The code of a graph is read as the outline of its blocks.** Read line by line, by nothing but
indentation, the code has one statement for each block of the graph's chains, in their order. The suites
of a block hold the statements of the chain in their socket, or `pass`; there is a second suite where a
block is plugged in for it. No suite is empty, something shows in every line, and no line is deeper than
the levels that are followed, apart from a `pass` right below the last one. This is also the code that is put
together from whole texts, each of which is split into lines again where it is moved one level deeper. -/
theorem BlockGraph.generate_outline (g : BlockGraph) :
    Stmt.assembledSuite g.lower.value = g.generate.body ∧
    Outline.read? (lines g.generate.body) =
      some ((g.chains.flatMap Chain.toList).map (Block.outline maxNesting)) ∧
    (∀ b ∈ g.chains.flatMap Chain.toList, (b.outline maxNesting).Filled) ∧
    ∀ l ∈ lines g.generate.body, (∃ c ∈ l.toList, isBlank c = false) ∧ Shallow maxNesting l := by
  have hlower : g.lower.value = (g.chains.flatMap Chain.toList).map fun b =>
      (statementOf (belowWith maxNesting) b).value := value_statementsOf _ _
  have hproper := g.proper_lower
  have hfilled : ∀ s ∈ g.lower.value, s.Filled := by
    intro s hs
    rw [hlower] at hs
    obtain ⟨b, -, rfl⟩ := List.mem_map.mp hs
    exact (laidOut_statementOf maxNesting b).filled
  have houtline : Stmt.suiteOutline g.lower.value =
      (g.chains.flatMap Chain.toList).map (Block.outline maxNesting) := by
    rw [Stmt.suiteOutline_eq_map, hlower, List.map_map]
    exact List.map_congr_left fun b _ => (laidOut_statementOf maxNesting b).outline
  have hread := Stmt.read?_text hproper hfilled
  rw [houtline] at hread
  refine ⟨Stmt.assembledSuite_eq hproper, hread,
    fun b hb => Outline.filled_of_read? hread _ (List.mem_map_of_mem hb), fun l hl => ?_⟩
  have hlines : lines g.generate.body = Stmt.suiteLines g.lower.value := Stmt.lines_text hproper
  rw [hlines, Stmt.suiteLines_eq_flatMap, hlower, List.flatMap_map] at hl
  obtain ⟨b, -, hmem⟩ := List.mem_flatMap.mp hl
  have hshallow := (laidOut_statementOf maxNesting b).shallow l hmem
  exact ⟨hshallow.shows, hshallow⟩

end BlockBoard
