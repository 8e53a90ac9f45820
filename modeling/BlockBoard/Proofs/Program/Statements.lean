import BlockBoard.Proofs.Program.OperatorTree
import BlockBoard.Proofs.Script.CodeLine
/-!
# Blocks become proper statements

What a graph is lowered to is made of proper expressions throughout: texts and numbers stand in it as
literals, and whatever is not quoted is taken from the catalogue.

- `literalOf_cases`: what stands for a literal.
- `mem_choiceOf`: the value of a field with choices is one of them.
- `ProperBelow`: the blocks of the levels below are lowered so.
- `proper_statementOf`: one block, from those of the levels below.
- `BlockGraph.proper_lower`: **every statement of a graph is proper**.
-/

namespace BlockBoard

theorem Noted.value_forEach {α β : Type} (f : α → Noted β) (l : List α) :
    (Noted.forEach f l).value = l.map fun a => (f a).value := by
  induction l with
  | nil => rfl
  | cons a r ih =>
    rw [Noted.forEach, List.map_cons, ← ih]
    rfl

/-- The expression of a random number, with its bounds exchanged if they are reversed. -/
theorem value_randomInt (below : Option Below) {b : Block} (hkind : b.kind = .randomInt) :
    (valueOf below b).value = .call (.attribute (.name "random") "randint")
      (if boundsReversed (integerInput below b "FROM").value (integerInput below b "TO").value then
        [(integerInput below b "TO").value, (integerInput below b "FROM").value]
      else [(integerInput below b "FROM").value, (integerInput below b "TO").value]) := by
  simp only [valueOf, hkind, Noted.value_bind]
  split <;> rfl

/-! ## Literals -/

/-- What stands for a literal: a finite number, a truth value, a text, or the default. -/
theorem literalOf_cases (b : Block) (socket : String) (check : ValueType) (default : Expr) (v : FieldValue) :
    (∃ x : Binary64, x.isFinite = true ∧ (literalOf b socket check default v).value = .ofNumber x) ∨
    (∃ t, (literalOf b socket check default v).value = .ofBool t) ∨
    (∃ s, (literalOf b socket check default v).value = .text s) ∨
    (literalOf b socket check default v).value = default := by
  have hnumber : ∀ v : FieldValue,
      (∃ x : Binary64, x.isFinite = true ∧ (numberLiteral b socket default v).value = .ofNumber x) ∨
      (numberLiteral b socket default v).value = default := by
    intro v
    unfold numberLiteral
    split
    · rename_i x hx
      rw [Option.filter_eq_some_iff] at hx
      exact .inl ⟨x, isFinite_of_asNumber? hx.1, rfl⟩
    · exact .inr rfl
  unfold literalOf
  split
  · exact (hnumber _).imp_right fun h => .inr (.inr h)
  · exact (hnumber _).imp_right fun h => .inr (.inr h)
  · exact .inr (.inl ⟨_, rfl⟩)
  · exact .inr (.inl ⟨_, rfl⟩)
  · split
    · exact .inr (.inl ⟨true, rfl⟩)
    · split
      · exact .inr (.inl ⟨false, rfl⟩)
      · exact .inr (.inr (.inr rfl))
  · exact .inr (.inr (.inr rfl))
  · exact .inr (.inr (.inl ⟨_, rfl⟩))
  · exact .inr (.inr (.inl ⟨_, rfl⟩))

/-! ## Fields -/

/-- The value of a field with choices is one of them, or the default. -/
theorem mem_choiceOf {b : Block} {name : String} {spec : FieldSpec}
    (h : b.kind.definition.field? name = some spec) :
    (choiceOf b name).value ∈ spec.default :: spec.choices := by
  rw [choiceOf, h]
  cases b.field? name with
  | none => exact List.mem_cons_self
  | some v =>
    dsimp only
    split
    · rename_i c hfind
      exact List.mem_cons_of_mem _ (List.mem_of_find?_eq_some hfind)
    · exact List.mem_cons_self

/-- Whether a kind has a colour on its face. -/
def BlockKind.hasColor (k : BlockKind) : Bool :=
  (k.definition.field? "COLOR").any fun spec => (spec.default :: spec.choices).all colors.contains

/-- Every colour is the name of a constant of the board. -/
theorem proper_colorConstant {b : Block} (h : b.kind.hasColor = true) :
    (colorConstant (choiceOf b "COLOR").value).Proper := by
  obtain ⟨spec, hspec, hcolors⟩ := (Option.any_eq_true _ _).mp h
  have hcolor : (choiceOf b "COLOR").value ∈ BlockKind.colors :=
    List.contains_iff_mem.mp (List.all_eq_true.mp hcolors _ (mem_choiceOf hspec))
  have hnames : ∀ c ∈ BlockKind.colors,
      Script.isName (String.ofList (c.toList.map Char.toUpper)) = true := by decide
  have hname := hnames _ hcolor
  rw [← String.toList_map, String.ofList_toList] at hname
  exact .field (.name (by decide)) rfl hname

theorem proper_colorArgument {b : Block} (h : b.kind.hasColor = true) :
    ∀ a ∈ (colorArgument b).value, a.Proper := by
  intro a ha
  rw [colorArgument, Noted.value_bind] at ha
  split at ha
  · cases ha
  · obtain rfl := List.mem_singleton.mp ha
    exact proper_colorConstant h

/-! ## Blocks -/

/-- The blocks of the levels below are lowered to proper expressions and statements. -/
structure ProperBelow (below : Option Below) : Prop where
  values : ∃ trees, Agree below trees
  chains : ∀ level ∈ below, ∀ bs, ∀ s ∈ (level.chain bs).value, s.Proper

section Blocks

variable {below : Option Below} (h : ProperBelow below) (b : Block) (socket : String)

include h

theorem proper_inputOf : (inputOf below b socket).value.Proper := by
  obtain ⟨trees, hagree⟩ := h.values
  exact (means_inputOf hagree b socket).1

theorem proper_integerInput : (integerInput below b socket).value.Proper := by
  obtain ⟨trees, hagree⟩ := h.values
  exact (means_integerInput hagree b socket).1

theorem proper_valueOf : (valueOf below b).value.Proper := by
  obtain ⟨trees, hagree⟩ := h.values
  exact (means_valueOf hagree b).1

theorem proper_textInput : (textInput below b socket).value.Proper := by
  have hinput := proper_inputOf h b socket
  unfold textInput
  cases b.input? socket with
  | none => exact hinput
  | some binding =>
    cases binding with
    | literal v => exact .text v.asText
    | chain child rest =>
      rw [Noted.value_bind]
      split
      · exact hinput
      · exact .call (.name (by decide)) (by simpa using hinput)

theorem proper_coordinates (sockets : List String) :
    ∀ a ∈ (coordinates below b sockets).value, a.Proper := by
  intro a ha
  rw [coordinates, Noted.value_forEach] at ha
  obtain ⟨socket, -, rfl⟩ := List.mem_map.mp ha
  exact proper_integerInput h b socket

theorem proper_bodyOf : ∀ s ∈ (bodyOf below b socket).value, s.Proper := by
  have hpass : ∀ s ∈ [Stmt.pass], s.Proper := by
    intro s hs
    obtain rfl := List.mem_singleton.mp hs
    exact .pass
  unfold bodyOf
  cases b.input? socket with
  | none => exact hpass
  | some binding =>
    cases binding with
    | literal v => exact hpass
    | chain first rest =>
      by_cases hstatement : first.kind.isStatement = true
      · simp only [if_pos hstatement]
        cases hbelow : below with
        | none => exact hpass
        | some level => exact h.chains level hbelow (first :: rest)
      · simp only [if_neg hstatement]
        exact hpass

end Blocks

/-- A call of a function of a part of the board. -/
theorem proper_boardCall {part function : String} {args : List Expr} (hp : Script.isName part = true)
    (hf : Script.isName function = true) (ha : ∀ a ∈ args, a.Proper) :
    (Stmt.expr (.call (.attribute (.board part) function) args)).Proper :=
  .expr (.call (.field (.field (.name (by decide)) rfl hp) rfl hf) ha)

/-- One level: where the blocks below become proper statements, so does a block. -/
theorem proper_statementOf {below : Option Below} (h : ProperBelow below) (b : Block) :
    (statementOf below b).value.Proper := by
  -- places on the display, before the colour
  have hplace : ∀ sockets, b.kind.hasColor = true →
      ∀ a ∈ (coordinates below b sockets).value ++ (colorArgument b).value, a.Proper :=
    fun sockets hcolor => List.forall_mem_append.mpr
      ⟨proper_coordinates h b sockets, proper_colorArgument hcolor⟩
  have hfirst : ∀ {e : Expr} {r : List Expr}, e.Proper → (∀ a ∈ r, a.Proper) →
      ∀ a ∈ e :: r, a.Proper := fun he hr => List.forall_mem_cons.mpr ⟨he, hr⟩
  have hnone : ∀ a ∈ ([] : List Expr), a.Proper := List.forall_mem_nil _
  cases hkind : b.kind with
  | displayText =>
    simp only [statementOf, hkind, Noted.value_bind, Noted.value_pure]
    exact proper_boardCall (by decide) (by decide) <|
      hfirst (proper_textInput h b "TEXT") (hplace _ (by rw [hkind]; rfl))
  | displayClear =>
    simp only [statementOf, hkind, Noted.value_bind, Noted.value_pure]
    exact proper_boardCall (by decide) (by decide) (proper_colorArgument (by rw [hkind]; rfl))
  | displayRect =>
    simp only [statementOf, hkind, Noted.value_bind, Noted.value_pure]
    exact proper_boardCall (by decide) (by split <;> decide) (hplace _ (by rw [hkind]; rfl))
  | displayCircle =>
    simp only [statementOf, hkind, Noted.value_bind, Noted.value_pure]
    exact proper_boardCall (by decide) (by split <;> decide) (hplace _ (by rw [hkind]; rfl))
  | displayNumber =>
    simp only [statementOf, hkind, Noted.value_bind, Noted.value_pure]
    exact proper_boardCall (by decide) (by decide) <|
      hfirst (proper_inputOf h b "VALUE") (hplace _ (by rw [hkind]; rfl))
  | playTone =>
    have hfrequency := proper_integerInput h b "FREQUENCY"
    simp only [statementOf, hkind, Noted.value_bind, Noted.value_pure]
    split
    · exact proper_boardCall (by decide) (by decide) (hfirst hfrequency hnone)
    · exact .expr <| .call (.name (by decide)) <|
        hfirst hfrequency (hfirst (proper_integerInput h b "DURATION") hnone)
  | stopSound =>
    simp only [statementOf, hkind, Noted.value_pure]
    exact proper_boardCall (by decide) (by decide) hnone
  | setLed =>
    simp only [statementOf, hkind, Noted.value_bind, Noted.value_pure]
    exact proper_boardCall (by decide) (by decide) <|
      hfirst (proper_colorConstant (by rw [hkind]; rfl)) hnone
  | waitMs =>
    simp only [statementOf, hkind, Noted.value_bind, Noted.value_pure]
    exact .expr <| .call (.field (.name (by decide)) rfl (by decide)) <|
      hfirst (proper_integerInput h b "MS") hnone
  | ifElse =>
    have hcondition := proper_inputOf h b "IF"
    have hbody := proper_bodyOf h b "DO"
    simp only [statementOf, hkind, Noted.value_bind]
    split
    · refine .ifElse hcondition hbody fun other hother => ?_
      obtain rfl := Option.some.inj hother
      exact proper_bodyOf h b "ELSE"
    · exact .ifElse hcondition hbody nofun
  | repeatTimes =>
    simp only [statementOf, hkind, Noted.value_bind, Noted.value_pure]
    exact .repeatTimes (proper_integerInput h b "TIMES") (proper_bodyOf h b "DO")
  | printLine =>
    simp only [statementOf, hkind, Noted.value_bind, Noted.value_pure]
    exact .expr <| .call (.name (by decide)) <| hfirst (proper_inputOf h b "VALUE") hnone
  | _ =>
    simp only [statementOf, hkind, Noted.value_bind, Noted.value_pure]
    exact .expr (proper_valueOf h b)

/-! ## Graphs -/

theorem proper_statementsOf {below : Option Below} (h : ProperBelow below) (bs : List Block) :
    ∀ s ∈ (statementsOf below bs).value, s.Proper := by
  intro s hs
  rw [statementsOf, Noted.value_forEach] at hs
  obtain ⟨b, -, rfl⟩ := List.mem_map.mp hs
  exact proper_statementOf h b

theorem properBelow_belowWith (n : Nat) : ProperBelow (belowWith n) := by
  induction n with
  | zero => exact ⟨⟨none, trivial⟩, nofun⟩
  | succ n ih =>
    refine ⟨⟨some (Block.operatorTree n), means_operatorTree n⟩, fun level hlevel bs => ?_⟩
    obtain rfl := Option.some.inj hlevel
    exact proper_statementsOf ih bs

/-- Every block becomes a statement. -/
theorem BlockGraph.lower_eq_nil_iff (g : BlockGraph) : g.lower.value = [] ↔ g.chains = [] := by
  rw [lower, statementsOf, Noted.value_forEach, List.map_eq_nil_iff, List.flatMap_eq_nil_iff]
  constructor
  · intro h
    cases hchains : g.chains with
    | nil => rfl
    | cons c r => exact absurd (h c (hchains ▸ List.mem_cons_self)) (List.cons_ne_nil _ _)
  · intro h c hc
    rw [h] at hc
    cases hc

/-- **The statements of a graph are proper**, whatever its blocks are. -/
theorem BlockGraph.proper_lower (g : BlockGraph) : ∀ s ∈ g.lower.value, s.Proper :=
  proper_statementsOf (properBelow_belowWith maxNesting) _

end BlockBoard
