import BlockBoard.Proofs.Program.Outline
import BlockBoard.Proofs.Program.Vocabulary
/-!
# The names in the code of a graph

Whatever the blocks are, their code keeps to the vocabulary of programs. So its lines show the provisions
that their names stand for, and no others.

- `known_valueOf`, `known_statementOf`: one block, from those of the levels below.
- `revealing_lower`: **the lines of a graph show its names**.
-/

namespace BlockBoard

open Script

/-! ## Literals -/

theorem known_ofNat (n : Nat) : Known (.ofNat n) := .number (all_isDigit_ofNat n)

theorem known_none : Known (.name "None") := .word (by decide)

theorem known_ofBool (t : Bool) : Known (.ofBool t) := by
  cases t <;> exact .word (by decide)

theorem known_ofNumber {x : Binary64} (h : x.isFinite = true) : Known (.ofNumber x) := by
  unfold Expr.ofNumber
  rw [magnitude_of_isFinite h]
  split
  · exact .negate (.number (all_isDigit_ofDecimal _))
  · exact .number (all_isDigit_ofDecimal _)

theorem known_default {b : Block} {socket : String} {check : ValueType} {default : Expr}
    (h : valueSocket? b socket = some (check, default)) : Known default := by
  rcases default_of_valueSocket? h with rfl | ⟨n, rfl⟩ | ⟨t, rfl⟩
  · exact .text ""
  · exact known_ofNat n
  · exact known_ofBool t

theorem known_literalOf {b : Block} {socket : String} {check : ValueType} {default : Expr}
    (hdefault : Known default) (v : FieldValue) :
    Known (literalOf b socket check default v).value := by
  rcases literalOf_cases b socket check default v with ⟨x, hx, h⟩ | ⟨t, h⟩ | ⟨s, h⟩ | h <;> rw [h]
  · exact known_ofNumber hx
  · exact known_ofBool t
  · exact .text s
  · exact hdefault

theorem known_colorConstant {b : Block} (h : b.kind.hasColor = true) :
    Known (colorConstant (choiceOf b "COLOR").value) := by
  obtain ⟨spec, hspec, hcolors⟩ := (Option.any_eq_true _ _).mp h
  have hcolor : (choiceOf b "COLOR").value ∈ BlockKind.colors :=
    List.contains_iff_mem.mp (List.all_eq_true.mp hcolors _ (mem_choiceOf hspec))
  have hwords : ∀ c ∈ BlockKind.colors,
      (Expr.board (String.ofList (c.toList.map Char.toUpper))).isWord = true := by decide
  have hword := hwords _ hcolor
  rw [← String.toList_map, String.ofList_toList] at hword
  exact .word hword

theorem known_colorArgument {b : Block} (h : b.kind.hasColor = true) :
    ∀ a ∈ (colorArgument b).value, Known a := by
  intro a ha
  rw [colorArgument, Noted.value_bind] at ha
  split at ha
  · cases ha
  · obtain rfl := List.mem_singleton.mp ha
    exact known_colorConstant h

/-! ## Blocks -/

section Blocks

variable {below : Option Below} (h : ∀ level ∈ below, ∀ b, Known (level.value b).value) (b : Block)
  (socket : String)

include h

theorem known_inputOf : Known (inputOf below b socket).value := by
  unfold inputOf
  cases hsocket : valueSocket? b socket with
  | none => exact known_none
  | some spec =>
    obtain ⟨check, default⟩ := spec
    have hdefault : Known default := known_default hsocket
    cases b.input? socket with
    | none => exact hdefault
    | some binding =>
      cases binding with
      | literal v => exact known_literalOf hdefault v
      | chain child rest =>
        by_cases hstatement : child.kind.isStatement = true
        · simp only [if_pos hstatement]
          exact hdefault
        · simp only [if_neg hstatement]
          cases hbelow : below with
          | none => exact hdefault
          | some level => exact h level hbelow child

theorem known_integerInput : Known (integerInput below b socket).value := by
  have hinput := known_inputOf h b socket
  unfold integerInput
  rw [Noted.value_bind]
  cases b.input? socket with
  | none => exact hinput
  | some binding =>
    cases binding with
    | literal v => exact hinput
    | chain child rest =>
      by_cases hinteger : child.producesInteger = true
      · simp only [if_pos hinteger]
        exact hinput
      · simp only [if_neg hinteger]
        exact .call (.word (by decide)) (by simpa using hinput)

theorem known_textInput : Known (textInput below b socket).value := by
  have hinput := known_inputOf h b socket
  unfold textInput
  cases b.input? socket with
  | none => exact hinput
  | some binding =>
    cases binding with
    | literal v => exact .text v.asText
    | chain child rest =>
      rw [Noted.value_bind]
      split
      · exact hinput
      · exact .call (.word (by decide)) (by simpa using hinput)

theorem known_coordinates (sockets : List String) :
    ∀ a ∈ (coordinates below b sockets).value, Known a := by
  intro a ha
  rw [coordinates, Noted.value_forEach] at ha
  obtain ⟨socket, -, rfl⟩ := List.mem_map.mp ha
  exact known_integerInput h b socket

/-- One level: where the blocks below keep to the vocabulary, so does a value block. -/
theorem known_valueOf : Known (valueOf below b).value := by
  have hinput := known_inputOf h b
  have hinteger := known_integerInput h b
  have hrandint : ∀ low high : Expr, Known low → Known high →
      Known (.call (.attribute (.name "random") "randint") [low, high]) :=
    fun low high hlow hhigh => .call (.provision .randint) (by simp [hlow, hhigh])
  cases hkind : b.kind with
  | randomInt =>
    simp only [valueOf, hkind, Noted.value_bind]
    split
    · exact hrandint _ _ (hinteger "TO") (hinteger "FROM")
    · exact hrandint _ _ (hinteger "FROM") (hinteger "TO")
  | arithmetic | compare | logicOp =>
    simp only [valueOf, hkind, binaryOf, Noted.value_bind]
    exact .binary _ (hinput "A") (hinput "B")
  | logicNot =>
    simp only [valueOf, hkind]
    exact .not (hinput "BOOL")
  | negate =>
    simp only [valueOf, hkind]
    exact .negate (hinput "NUM")
  | number =>
    simp only [valueOf, hkind]
    cases b.field? "NUM" with
    | none => exact known_ofNat 0
    | some v =>
      cases hv : v.asNumber? with
      | none =>
        simp only [hv]
        exact known_ofNat 0
      | some x =>
        simp only [hv]
        exact known_ofNumber (isFinite_of_asNumber? hv)
  | text =>
    simp only [valueOf, hkind]
    exact .text _
  | boolean =>
    simp only [valueOf, hkind]
    exact known_ofBool _
  | buttonPressed =>
    simp only [valueOf, hkind]
    exact .call (.word (by decide)) (by simpa using .text _)
  | accelRead =>
    simp only [valueOf, hkind]
    exact .subscript (.call (.word (by decide)) (by simp)) (known_ofNat _)
  | shakeDetected =>
    simp only [valueOf, hkind]
    exact .provision .shakeHappened
  | _ =>
    simp only [valueOf, hkind]
    exact known_none

/-- A block without suites keeps to the vocabulary too. -/
theorem known_statementOf (hif : b.kind ≠ .ifElse) (hrepeat : b.kind ≠ .repeatTimes) :
    ∃ e, (statementOf below b).value = .expr e ∧ Known e := by
  have hinteger := known_integerInput h b
  have hplace : ∀ sockets, b.kind.hasColor = true →
      ∀ a ∈ (coordinates below b sockets).value ++ (colorArgument b).value, Known a :=
    fun sockets hcolor => List.forall_mem_append.mpr
      ⟨known_coordinates h b sockets, known_colorArgument hcolor⟩
  have hfirst : ∀ {e : Expr} {r : List Expr}, Known e → (∀ a ∈ r, Known a) →
      ∀ a ∈ e :: r, Known a := fun he hr => List.forall_mem_cons.mpr ⟨he, hr⟩
  have hnone : ∀ a ∈ ([] : List Expr), Known a := List.forall_mem_nil _
  cases hkind : b.kind with
  | ifElse => exact absurd hkind hif
  | repeatTimes => exact absurd hkind hrepeat
  | displayText =>
    simp only [statementOf, hkind, Noted.value_bind, Noted.value_pure]
    exact ⟨_, rfl, .call (.word (by decide)) <|
      hfirst (known_textInput h b "TEXT") (hplace _ (by rw [hkind]; rfl))⟩
  | displayClear =>
    simp only [statementOf, hkind, Noted.value_bind, Noted.value_pure]
    exact ⟨_, rfl, .call (.word (by decide)) (known_colorArgument (by rw [hkind]; rfl))⟩
  | displayRect | displayCircle =>
    simp only [statementOf, hkind, Noted.value_bind, Noted.value_pure]
    exact ⟨_, rfl, .call (.word (by split <;> decide)) (hplace _ (by rw [hkind]; rfl))⟩
  | displayNumber =>
    simp only [statementOf, hkind, Noted.value_bind, Noted.value_pure]
    exact ⟨_, rfl, .call (.word (by decide)) <|
      hfirst (known_inputOf h b "VALUE") (hplace _ (by rw [hkind]; rfl))⟩
  | playTone =>
    simp only [statementOf, hkind, Noted.value_bind, Noted.value_pure]
    split
    · exact ⟨_, rfl, .call (.word (by decide)) (hfirst (hinteger "FREQUENCY") hnone)⟩
    · exact ⟨_, rfl, .call (.provision .toneFor) <|
        hfirst (hinteger "FREQUENCY") (hfirst (hinteger "DURATION") hnone)⟩
  | stopSound =>
    simp only [statementOf, hkind, Noted.value_pure]
    exact ⟨_, rfl, .call (.word (by decide)) hnone⟩
  | setLed =>
    simp only [statementOf, hkind, Noted.value_bind, Noted.value_pure]
    exact ⟨_, rfl, .call (.word (by decide)) <|
      hfirst (known_colorConstant (by rw [hkind]; rfl)) hnone⟩
  | waitMs =>
    simp only [statementOf, hkind, Noted.value_bind, Noted.value_pure]
    exact ⟨_, rfl, .call (.provision .sleepMs) (hfirst (hinteger "MS") hnone)⟩
  | printLine =>
    simp only [statementOf, hkind, Noted.value_bind, Noted.value_pure]
    exact ⟨_, rfl, .call (.word (by decide)) (hfirst (known_inputOf h b "VALUE") hnone)⟩
  | _ =>
    simp only [statementOf, hkind, Noted.value_bind, Noted.value_pure]
    exact ⟨_, rfl, known_valueOf h b⟩

end Blocks

theorem known_belowWith (n : Nat) : ∀ level ∈ belowWith n, ∀ b, Known (level.value b).value := by
  induction n with
  | zero => nofun
  | succ n ih =>
    rintro level ⟨⟩ b
    exact known_valueOf ih b

/-! ## Lines -/

theorem revealing_suiteLines {ss : List Stmt} (h : ∀ s ∈ ss, Revealing s.names s.lines) :
    Revealing (Stmt.suiteNames ss) (Stmt.suiteLines ss) := by
  induction ss with
  | nil => exact .nil
  | cons s r ih =>
    obtain ⟨hs, hr⟩ := List.forall_mem_cons.mp h
    rw [Stmt.suiteNames, Stmt.suiteLines]
    exact hs.append (ih hr)

theorem revealing_ifLine {c : Expr} (h : Known c) : Revealing c.names ["if " ++ c.code ++ ":"] := by
  have hcolon := (revealed_fit h.revealed .loosest).join revealed_nil (c := ':') (by decide) (by decide)
  have hline := (revealed_word (t := "if") (by decide)).join hcolon (c := ' ') (by decide) (by decide)
  exact .ofLine (by simpa [Expr.code] using hline)

theorem revealing_forLine {n : Expr} (h : Known n) :
    Revealing n.names ["for _ in range(" ++ n.code ++ "):"] := by
  have hcolon := (revealed_fit h.revealed .loosest).join (revealed_word (t := ":") (by decide))
    (c := ')') (by decide) (by decide)
  have hline := (revealed_word (t := "for _ in range") (by decide)).join hcolon (c := '(') (by decide)
    (by decide)
  exact .ofLine (by simpa [Expr.code] using hline)

theorem revealing_word {t : String} (h : isFixed t = true) : Revealing [] [t] :=
  .ofLine (revealed_word h)

section Suites

variable {below : Option Below} (h : ∀ level ∈ below, ∀ b, Known (level.value b).value) {b : Block}
  (hbody : ∀ socket, Revealing (Stmt.suiteNames (bodyOf below b socket).value)
    (Stmt.suiteLines (bodyOf below b socket).value))

include h hbody

/-- One level: where the suites of a block show their names, so does its statement. -/
theorem revealing_statementOf :
    Revealing (statementOf below b).value.names (statementOf below b).value.lines := by
  by_cases hif : b.kind = .ifElse
  · have hsuite := (revealing_ifLine (known_inputOf h b "IF")).append (hbody "DO").indent
    have helse := (revealing_word (t := "else:") (by decide)).append (hbody "ELSE").indent
    rw [value_statementOf_ifElse below hif]
    by_cases hplugged : b.isPlugged "ELSE" = true
    · rw [if_pos hplugged, Stmt.names.eq_def, Stmt.lines.eq_def]
      exact hsuite.append helse
    · rw [if_neg hplugged, Stmt.names.eq_def, Stmt.lines.eq_def]
      simpa using hsuite
  by_cases hrepeat : b.kind = .repeatTimes
  · have hsuite := (revealing_forLine (known_integerInput h b "TIMES")).append (hbody "DO").indent
    rw [value_statementOf_repeatTimes below hrepeat, Stmt.names, Stmt.lines]
    exact hsuite
  · obtain ⟨e, he, hknown⟩ := known_statementOf h b hif hrepeat
    rw [he, Stmt.names, Stmt.lines]
    exact .ofLine hknown.revealed

end Suites

theorem revealing_belowWith (n : Nat) (b : Block) :
    Revealing (statementOf (belowWith n) b).value.names (statementOf (belowWith n) b).value.lines := by
  have hpass : Revealing (Stmt.suiteNames [.pass]) (Stmt.suiteLines [.pass]) :=
    revealing_word (t := "pass") (by decide)
  induction n generalizing b with
  | zero =>
    refine revealing_statementOf (known_belowWith 0) fun socket => ?_
    rw [value_bodyOf]
    exact hpass
  | succ n ih =>
    refine revealing_statementOf (known_belowWith (n + 1)) fun socket => ?_
    rw [value_bodyOf]
    cases b.suiteBlocks? socket with
    | none => exact hpass
    | some bs =>
      show Revealing (Stmt.suiteNames (statementsOf (belowWith n) bs).value)
        (Stmt.suiteLines (statementsOf (belowWith n) bs).value)
      refine revealing_suiteLines fun s hs => ?_
      rw [value_statementsOf] at hs
      obtain ⟨b, -, rfl⟩ := List.mem_map.mp hs
      exact ih b

/-- **The lines of a graph show its names**: they have the words of every program, the provisions whose
names occur in its statements, and no others. -/
theorem revealing_lower (g : BlockGraph) :
    Revealing (Stmt.suiteNames g.lower.value) (Stmt.suiteLines g.lower.value) := by
  refine revealing_suiteLines fun s hs => ?_
  rw [BlockGraph.lower, value_statementsOf] at hs
  obtain ⟨b, -, rfl⟩ := List.mem_map.mp hs
  exact revealing_belowWith maxNesting b

end BlockBoard
