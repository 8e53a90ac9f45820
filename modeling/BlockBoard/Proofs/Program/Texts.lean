import BlockBoard.Proofs.Program.Outline
import BlockBoard.Proofs.Script.Varying
/-!
# The texts of a graph

A text that stands where texts are accepted, in a socket or on the face of a block, reaches the program
on several ways. This module lists the texts of a graph from its blocks alone, and shows that each is one
token of the program, and that nothing else in the program depends on them.

- `Block.texts`, `BlockGraph.textsWithin`: the texts of a block and of a graph.
- `Block.blank`, `BlockGraph.blank`: a block and a graph without the contents of their texts.
- `varies_valueOf`, `varies_statementOf`: one block, from those of the levels below.
- `BlockGraph.texts_closed`: **texts are exact and closed**.
-/

namespace BlockBoard

open Script

/-! ## Texts -/

/-- Whether a socket accepts texts. -/
def BlockKind.acceptsText (k : BlockKind) (socket : String) : Bool :=
  match k.definition.socket? socket with
  | some ⟨_, .value .text _⟩ | some ⟨_, .value .any _⟩ => true
  | _ => false

namespace Block

/-- The text on the face of a block. -/
def ownTexts (b : Block) : List String :=
  if b.kind = .text then [(b.field? "TEXT").elim "" FieldValue.asText] else []

variable (below : Option (Block → List String))

/-- The texts in a value socket: an accepted one, or those of the value block in it. -/
def valueTexts (b : Block) (socket : String) : List String :=
  match b.input? socket with
  | some (.literal (.text s)) => if b.kind.acceptsText socket then [s] else []
  | some (.chain child _) =>
    if child.kind.isStatement then [] else below.elim [] fun texts => texts child
  | _ => []

/-- The texts in a statement socket: those of the statements in it. -/
def bodyTexts (b : Block) (socket : String) : List String :=
  match b.input? socket with
  | some (.chain first rest) =>
    if first.kind.isStatement then below.elim [] fun texts => (first :: rest).flatMap texts else []
  | _ => []

/-- The texts in a socket. -/
def socketTexts (b : Block) (s : SocketSpec) : List String :=
  match s.kind with
  | .value _ _ => b.valueTexts below s.name
  | .statements => b.bodyTexts below s.name

/-- The texts of a block, from those of the blocks one level deeper. -/
def texts (b : Block) : List String :=
  b.ownTexts ++ b.kind.definition.sockets.flatMap (b.socketTexts below)

/-- The texts of the blocks below, with a number of levels left. -/
def textsBelow : Nat → Option (Block → List String)
  | 0 => none
  | n + 1 => some (texts (textsBelow n))

end Block

/-- The blocks of a graph that nothing is around. -/
def BlockGraph.blocks (g : BlockGraph) : List Block := g.chains.flatMap Chain.toList

/-- The texts of a graph that stand within a number of levels, in their order. -/
def BlockGraph.textsWithin (levels : Nat) (g : BlockGraph) : List String :=
  g.blocks.flatMap (Block.texts (Block.textsBelow levels))

/-! ## Graphs without the contents of their texts -/

/-- A literal, without its contents if it is a text. -/
def FieldValue.blank : FieldValue → FieldValue
  | .text _ => .text ""
  | v => v

mutual

/-- A block without the contents of its texts. -/
def Block.blank : Block → Block
  | .mk kind id fields inputs =>
    .mk kind id (if kind = .text then fields.filter (·.1 != "TEXT") else fields)
      (blankInputs kind inputs)

/-- What is plugged into the sockets of a block, without the contents of its texts. -/
def blankInputs (kind : BlockKind) : List (String × Binding) → List (String × Binding)
  | [] => []
  | (socket, binding) :: r => (socket, binding.blank (kind.acceptsText socket)) :: blankInputs kind r

/-- What is plugged into a socket, without the contents of its texts where these are accepted. -/
def Binding.blank (accepted : Bool) : Binding → Binding
  | .literal v => .literal (if accepted then v.blank else v)
  | .chain first rest => .chain first.blank (blankBlocks rest)

/-- Blocks in a row without the contents of their texts. -/
def blankBlocks : List Block → List Block
  | [] => []
  | b :: r => b.blank :: blankBlocks r

end

/-- A graph without the contents of its texts. -/
def BlockGraph.blank (g : BlockGraph) : BlockGraph :=
  ⟨g.chains.map fun c => ⟨c.first.blank, c.rest.map Block.blank⟩⟩

theorem blankBlocks_eq_map (bs : List Block) : blankBlocks bs = bs.map Block.blank := by
  induction bs with
  | nil => rfl
  | cons b r ih => rw [blankBlocks, ih, List.map_cons]

namespace Block

@[simp] theorem blank_kind (b : Block) : b.blank.kind = b.kind := by
  cases b
  rfl

@[simp] theorem blank_label (b : Block) : b.blank.label = b.label := by
  cases b
  rfl

end Block

theorem lookup_blankInputs (kind : BlockKind) (inputs : List (String × Binding)) (socket : String) :
    (blankInputs kind inputs).lookup socket =
      (inputs.lookup socket).map (Binding.blank (kind.acceptsText socket)) := by
  induction inputs with
  | nil => rfl
  | cons entry r ih =>
    obtain ⟨name, binding⟩ := entry
    rw [blankInputs, List.lookup_cons, List.lookup_cons]
    by_cases h : socket = name
    · subst h
      simp
    · rw [beq_eq_false_iff_ne.mpr h]
      exact ih

mutual

/-- Texts do not change whether a block is known to stand for an integer. -/
theorem Block.producesInteger_blank : ∀ b : Block, b.blank.producesInteger = b.producesInteger
  | .mk kind id fields inputs => by
    have hoperand := operandProducesInteger_blankInputs inputs
    rw [Block.blank]
    cases kind with
    | negate => exact hoperand
    | _ => rfl

theorem operandProducesInteger_blankInputs : ∀ inputs : List (String × Binding),
    operandProducesInteger (blankInputs .negate inputs) = operandProducesInteger inputs
  | [] => rfl
  | (socket, binding) :: r => by
    have hrest := operandProducesInteger_blankInputs r
    have hbinding := binding.producesInteger_blank
    rw [blankInputs, operandProducesInteger, operandProducesInteger]
    by_cases h : socket = "NUM"
    · subst h
      exact hbinding
    · rw [if_neg (by simpa using h), if_neg (by simpa using h)]
      exact hrest

theorem Binding.producesInteger_blank : ∀ binding : Binding,
    (binding.blank false).producesInteger = binding.producesInteger
  | .literal _ => rfl
  | .chain first _ => first.producesInteger_blank

end

/-- What two blocks that differ only in their texts have in the same socket. -/
inductive AlikeInputs (accepted : Bool) : Option Binding → Option Binding → Prop
  | none : AlikeInputs accepted none none
  | literal (v : FieldValue) : AlikeInputs accepted (some (.literal v)) (some (.literal v))
  | text (s s' : String) (h : accepted = true) :
      AlikeInputs accepted (some (.literal (.text s))) (some (.literal (.text s')))
  | chain {first first' : Block} {rest rest' : List Block} (hfirst : first.blank = first'.blank)
      (hrest : rest.map Block.blank = rest'.map Block.blank) :
      AlikeInputs accepted (some (.chain first rest)) (some (.chain first' rest'))

theorem FieldValue.alike_of_blank {v v' : FieldValue} (h : v.blank = v'.blank) :
    v = v' ∨ ∃ s s', v = .text s ∧ v' = .text s' := by
  cases v with
  | text s =>
    cases v' with
    | text s' => exact .inr ⟨s, s', rfl, rfl⟩
    | _ => cases h
  | _ =>
    cases v' with
    | text s' => cases h
    | _ => exact .inl h

theorem alikeInputs_of_blank {accepted : Bool} {i i' : Option Binding}
    (h : i.map (Binding.blank accepted) = i'.map (Binding.blank accepted)) :
    AlikeInputs accepted i i' := by
  cases i with
  | none =>
    cases i' with
    | none => exact .none
    | some _ => cases h
  | some binding =>
    cases i' with
    | none => cases h
    | some binding' =>
      have h : binding.blank accepted = binding'.blank accepted := Option.some.inj h
      cases binding with
      | literal v =>
        cases binding' with
        | chain _ _ => cases h
        | literal v' =>
          rw [Binding.blank, Binding.blank] at h
          cases accepted with
          | false =>
            cases h
            exact .literal v
          | true =>
            rcases FieldValue.alike_of_blank (Binding.literal.inj h) with rfl | ⟨s, s', rfl, rfl⟩
            · exact .literal v
            · exact .text s s' rfl
      | chain first rest =>
        cases binding' with
        | literal _ => cases h
        | chain first' rest' =>
          rw [Binding.blank, Binding.blank, blankBlocks_eq_map, blankBlocks_eq_map] at h
          obtain ⟨hfirst, hrest⟩ := Binding.chain.inj h
          exact .chain hfirst hrest

section Alike

variable {b b' : Block} (h : b.blank = b'.blank)

include h

theorem kind_eq_of_blank : b.kind = b'.kind := by
  rw [← b.blank_kind, h, b'.blank_kind]

theorem label_eq_of_blank : b.label = b'.label := by
  rw [← b.blank_label, h, b'.blank_label]

/-- A block whose face shows no text has the same face. -/
theorem fields_eq_of_blank (hkind : b.kind ≠ .text) : b.fields = b'.fields := by
  have hfields : ∀ b : Block, b.kind ≠ .text → b.blank.fields = b.fields := by
    rintro ⟨kind, id, fields, inputs⟩ hkind
    rw [Block.blank]
    exact if_neg hkind
  rw [← hfields b hkind, h, hfields b' (kind_eq_of_blank h ▸ hkind)]

theorem alikeInputs (socket : String) :
    AlikeInputs (b.kind.acceptsText socket) (b.input? socket) (b'.input? socket) := by
  have hinput : ∀ b : Block, b.blank.input? socket =
      (b.input? socket).map (Binding.blank (b.kind.acceptsText socket)) := by
    rintro ⟨kind, id, fields, inputs⟩
    exact lookup_blankInputs kind inputs socket
  refine alikeInputs_of_blank ?_
  rw [← hinput b, h, hinput b', kind_eq_of_blank h]

theorem producesInteger_eq_of_blank : b.producesInteger = b'.producesInteger := by
  rw [← b.producesInteger_blank, h, b'.producesInteger_blank]

theorem choiceOf_eq_of_blank (hkind : b.kind ≠ .text) (name : String) :
    choiceOf b name = choiceOf b' name := by
  unfold choiceOf Block.field?
  rw [kind_eq_of_blank h, label_eq_of_blank h, fields_eq_of_blank h hkind]

theorem literalOf_eq_of_blank (socket : String) (check : ValueType) (default : Expr) (v : FieldValue) :
    literalOf b socket check default v = literalOf b' socket check default v := by
  unfold literalOf numberLiteral
  rw [kind_eq_of_blank h, label_eq_of_blank h]

end Alike

/-! ## Blocks -/

/-- The blocks of the levels below differ in their texts alone where the blocks themselves do. -/
inductive VaryingBelow : Option Below → Option (Block → List String) → Prop
  | none : VaryingBelow none none
  | some {level : Below} {texts : Block → List String}
      (values : ∀ b b' : Block, b.blank = b'.blank → b.kind.isStatement = false →
        (level.value b).value.Varies (texts b) (texts b') (level.value b').value)
      (chains : ∀ bs bs' : List Block, bs.map Block.blank = bs'.map Block.blank →
        Stmt.VariesAll (bs.flatMap texts) (bs'.flatMap texts) (level.chain bs).value
          (level.chain bs').value) :
      VaryingBelow (some level) (some texts)

/-- Where texts are accepted, a text is written as it is. -/
theorem literalOf_text {b : Block} {socket : String} {check : ValueType} {default : Expr}
    (hsocket : valueSocket? b socket = some (check, default))
    (haccepts : b.kind.acceptsText socket = true) (s : String) :
    (literalOf b socket check default (.text s)).value = .text s := by
  unfold valueSocket? at hsocket
  unfold BlockKind.acceptsText at haccepts
  split at hsocket
  · rename_i name c d hspec
    cases hsocket
    rw [hspec] at haccepts
    cases check with
    | text | any => rfl
    | number | boolean => cases haccepts
  · cases hsocket

section Blocks

variable {below : Option Below} {texts : Option (Block → List String)} (h : VaryingBelow below texts)
  {b b' : Block} (hblank : b.blank = b'.blank) (socket : String)

include h hblank

theorem varies_inputOf (hsocket : (valueSocket? b socket).isSome = true) :
    (inputOf below b socket).value.Varies (b.valueTexts texts socket) (b'.valueTexts texts socket)
      (inputOf below b' socket).value := by
  have hinputs := alikeInputs hblank socket
  have hkind := kind_eq_of_blank hblank
  have hsockets : valueSocket? b' socket = valueSocket? b socket := by
    unfold valueSocket?
    rw [hkind]
  obtain ⟨⟨check, default⟩, hspec⟩ := Option.isSome_iff_exists.mp hsocket
  unfold inputOf Block.valueTexts
  rw [hsockets, hspec, ← hkind]
  generalize b.input? socket = i, b'.input? socket = i' at hinputs
  cases hinputs with
  | none => exact .refl default
  | literal v =>
    dsimp only
    rw [← literalOf_eq_of_blank hblank]
    cases v with
    | text s =>
      by_cases haccepts : b.kind.acceptsText socket = true
      · simp only [if_pos haccepts, literalOf_text hspec haccepts]
        exact .text s s
      · simp only [if_neg haccepts]
        exact .refl _
    | _ => exact .refl _
  | text s s' haccepts =>
    dsimp only
    rw [← literalOf_eq_of_blank hblank]
    simp only [if_pos haccepts, literalOf_text hspec haccepts]
    exact .text s s'
  | chain hfirst _ =>
    dsimp only
    rw [← kind_eq_of_blank hfirst]
    split
    · exact .refl default
    · rename_i hstatement
      -- where no level is left, the default stands in for both
      cases h with
      | none => exact .refl default
      | some values _ => exact values _ _ hfirst (by simpa using hstatement)

theorem varies_integerInput (hsocket : (valueSocket? b socket).isSome = true) :
    (integerInput below b socket).value.Varies (b.valueTexts texts socket) (b'.valueTexts texts socket)
      (integerInput below b' socket).value := by
  have hinput := varies_inputOf h hblank socket hsocket
  have hinputs := alikeInputs hblank socket
  unfold integerInput
  rw [Noted.value_bind, Noted.value_bind]
  generalize b.input? socket = i, b'.input? socket = i' at hinputs
  cases hinputs with
  | chain hfirst _ =>
    dsimp only
    rw [← producesInteger_eq_of_blank hfirst]
    split
    · exact hinput
    · exact (Expr.VariesAll.single hinput).call _
  | _ => exact hinput

theorem varies_textInput (hsocket : (valueSocket? b socket).isSome = true)
    (haccepts : b.kind.acceptsText socket = true) :
    (textInput below b socket).value.Varies (b.valueTexts texts socket) (b'.valueTexts texts socket)
      (textInput below b' socket).value := by
  have hinput := varies_inputOf h hblank socket hsocket
  have hinputs := alikeInputs hblank socket
  have haccepts' : b'.kind.acceptsText socket = true := by rwa [← kind_eq_of_blank hblank]
  unfold textInput
  generalize hi : b.input? socket = i, hi' : b'.input? socket = i' at hinputs
  cases hinputs with
  | none => exact hinput
  | literal v =>
    rw [Block.valueTexts, Block.valueTexts, hi, hi']
    cases v with
    | text s =>
      simp only [if_pos haccepts, if_pos haccepts']
      exact .text s s
    | _ => exact .refl _
  | text s s' _ =>
    rw [Block.valueTexts, Block.valueTexts, hi, hi']
    simp only [if_pos haccepts, if_pos haccepts']
    exact .text s s'
  | chain hfirst _ =>
    dsimp only
    rw [Noted.value_bind, Noted.value_bind, ← kind_eq_of_blank hfirst]
    split
    · exact hinput
    · exact (Expr.VariesAll.single hinput).call _

theorem variesAll_coordinates (sockets : List String)
    (hsockets : ∀ s ∈ sockets, (valueSocket? b s).isSome = true) :
    Expr.VariesAll (sockets.flatMap (b.valueTexts texts)) (sockets.flatMap (b'.valueTexts texts))
      (coordinates below b sockets).value (coordinates below b' sockets).value := by
  rw [coordinates, coordinates, Noted.value_forEach, Noted.value_forEach]
  induction sockets with
  | nil => exact .nil
  | cons s r ih =>
    obtain ⟨hs, hr⟩ := List.forall_mem_cons.mp hsockets
    exact .cons (varies_integerInput h hblank s hs) (ih hr)

theorem variesAll_bodyOf :
    Stmt.VariesAll (b.bodyTexts texts socket) (b'.bodyTexts texts socket) (bodyOf below b socket).value
      (bodyOf below b' socket).value := by
  have hinputs := alikeInputs hblank socket
  unfold bodyOf Block.bodyTexts
  generalize b.input? socket = i, b'.input? socket = i' at hinputs
  cases hinputs with
  | none => exact .refl _
  | literal v => exact .refl _
  | text s s' _ => exact .refl _
  | chain hfirst hrest =>
    dsimp only
    rw [← kind_eq_of_blank hfirst]
    split
    · cases h with
      | none => exact .refl _
      | some _ chains => exact chains _ _ (by rw [List.map_cons, List.map_cons, hfirst, hrest])
    · exact .refl _

end Blocks

/-- The expression of a random number. Its bounds are exchanged in both programs or in neither, for there are
no texts in bounds that are spelled out. -/
theorem varies_draw {T T' U U' : List String} {low low' high high' : Expr} (hlow : low.Varies T T' low')
    (hhigh : high.Varies U U' high') (f : Expr) :
    Expr.Varies (T ++ U) (T' ++ U')
      (.call f (if boundsReversed low high then [high, low] else [low, high]))
      (.call f (if boundsReversed low' high' then [high', low'] else [low', high'])) := by
  have hreversed : boundsReversed low high = boundsReversed low' high' := by
    unfold boundsReversed
    rw [hlow.integer?, hhigh.integer?]
  rw [← hreversed]
  split
  · rename_i hswap
    unfold boundsReversed at hswap
    split at hswap
    · rename_i a c ha hc
      have ha := Expr.text_not_mem_of_integer? (Option.filter_eq_some_iff.mp ha).1
      have hc := Expr.text_not_mem_of_integer? (Option.filter_eq_some_iff.mp hc).1
      obtain ⟨rfl, rfl, rfl⟩ := hlow.of_no_text ha
      obtain ⟨rfl, rfl, rfl⟩ := hhigh.of_no_text hc
      exact .refl _
    · cases hswap
  · exact (Expr.VariesAll.cons hlow (.single hhigh)).call f

/-- A zero is written in both programs or in neither, for there is no text in it. -/
theorem code_eq_zero_iff_of_varies {T T' : List String} {e e' : Expr} (hproper : e.Proper)
    (hproper' : e'.Proper) (he : e.Varies T T' e') : e.code = "0" ↔ e'.code = "0" := by
  constructor
  · intro hzero
    obtain ⟨-, -, rfl⟩ := he.of_no_text (hproper.text_not_mem_zero hzero)
    exact hzero
  · intro hzero
    obtain ⟨-, -, rfl⟩ := he.symm.of_no_text (hproper'.text_not_mem_zero hzero)
    exact hzero

@[simp] theorem value_binaryOf (below : Option Below) (b : Block) (op : BinaryOp) :
    (binaryOf below b op).value = .binary op (inputOf below b "A").value (inputOf below b "B").value :=
  rfl

/-- The texts of a block whose face shows none. -/
theorem Block.texts_of_kind {b : Block} {k : BlockKind} (hkind : b.kind = k) (hk : k ≠ .text)
    (below : Option (Block → List String)) :
    b.texts below = k.definition.sockets.flatMap (b.socketTexts below) := by
  subst hkind
  rw [Block.texts, Block.ownTexts, if_neg hk, List.nil_append]

/-- Two blocks that differ in their texts alone, and show none on their faces, are of one kind, and their
texts stand in the same sockets. -/
theorem Block.texts_of_blank {b b' : Block} (hblank : b.blank = b'.blank) {k : BlockKind} (hkind : b.kind = k)
    (hk : k ≠ .text) (below : Option (Block → List String)) :
    b'.kind = k ∧ b.texts below = k.definition.sockets.flatMap (b.socketTexts below) ∧
      b'.texts below = k.definition.sockets.flatMap (b'.socketTexts below) := by
  have hkind' : b'.kind = k := (kind_eq_of_blank hblank).symm.trans hkind
  exact ⟨hkind', texts_of_kind hkind hk below, texts_of_kind hkind' hk below⟩

section Blocks

variable {below : Option Below} {texts : Option (Block → List String)} (h : VaryingBelow below texts)
  {b b' : Block} (hblank : b.blank = b'.blank)

include h hblank

/-- One level: where the blocks below differ in their texts alone, so does the expression of a block. -/
theorem varies_valueOf (hstatement : b.kind.isStatement = false) :
    (valueOf below b).value.Varies (b.texts texts) (b'.texts texts) (valueOf below b').value := by
  have hkind' : b'.kind = b.kind := (kind_eq_of_blank hblank).symm
  have hchoice := choiceOf_eq_of_blank hblank
  have hfields := fields_eq_of_blank hblank
  have hinput := varies_inputOf h hblank
  have hinteger := varies_integerInput h hblank
  have htexts : b.kind ≠ .text → _ := fun hk => Block.texts_of_blank hblank rfl hk texts
  simp only [valueSocket?] at hinput hinteger
  generalize hkind : b.kind = k at hkind' hstatement hchoice hfields hinput hinteger htexts
  cases k with
  | text =>
    simp only [valueOf, hkind, hkind', Block.texts, Block.ownTexts, if_true]
    exact .text _ _
  | randomInt =>
    obtain ⟨-, ht, ht'⟩ := htexts (by decide)
    rw [value_randomInt below hkind, value_randomInt below hkind', ht, ht']
    simpa [BlockKind.definition, BlockKind.numberSocket, Block.socketTexts] using
      varies_draw (hinteger "FROM" (by decide)) (hinteger "TO" (by decide)) _
  | arithmetic =>
    obtain ⟨-, ht, ht'⟩ := htexts (by decide)
    simp only [valueOf, hkind, hkind', Noted.value_bind, hchoice (by decide), ht, ht']
    simpa [BlockKind.definition, BlockKind.numberSocket, Block.socketTexts] using
      (hinput "A" (by decide)).binary _ (hinput "B" (by decide))
  | compare =>
    obtain ⟨-, ht, ht'⟩ := htexts (by decide)
    simp only [valueOf, hkind, hkind', Noted.value_bind, hchoice (by decide), ht, ht']
    simpa [BlockKind.definition, Block.socketTexts] using
      (hinput "A" (by decide)).binary _ (hinput "B" (by decide))
  | logicOp =>
    obtain ⟨-, ht, ht'⟩ := htexts (by decide)
    simp only [valueOf, hkind, hkind', Noted.value_bind, hchoice (by decide), ht, ht']
    simpa [BlockKind.definition, BlockKind.truthSocket, Block.socketTexts] using
      (hinput "A" (by decide)).binary _ (hinput "B" (by decide))
  | logicNot =>
    obtain ⟨-, ht, ht'⟩ := htexts (by decide)
    simp only [valueOf, hkind, hkind', Noted.value_bind, ht, ht']
    simpa [BlockKind.definition, BlockKind.truthSocket, Block.socketTexts] using
      (hinput "BOOL" (by decide)).not
  | negate =>
    obtain ⟨-, ht, ht'⟩ := htexts (by decide)
    simp only [valueOf, hkind, hkind', Noted.value_bind, ht, ht']
    simpa [BlockKind.definition, BlockKind.numberSocket, Block.socketTexts] using
      (hinput "NUM" (by decide)).negate
  | buttonPressed | accelRead | shakeDetected | number | boolean =>
    -- no sockets, and the same face
    obtain ⟨-, ht, ht'⟩ := htexts (by decide)
    simp only [valueOf, hkind, hkind', hchoice (by decide), Block.field?, hfields (by decide),
      label_eq_of_blank hblank, ht, ht']
    exact .refl _
  | _ => cases hstatement

/-- What is shown on the display: some arguments, the places and the colour. -/
theorem varies_displayCall (hk : b.kind ≠ .text) (sockets : List String)
    (hsockets : ∀ s ∈ sockets, (valueSocket? b s).isSome = true) {T T' : List String}
    {args args' : List Expr} (hargs : Expr.VariesAll T T' args args') (function : String) :
    Stmt.Varies (T ++ sockets.flatMap (b.valueTexts texts)) (T' ++ sockets.flatMap (b'.valueTexts texts))
      (displayCall function (args ++ (coordinates below b sockets).value ++ (colorArgument b).value))
      (displayCall function
        (args' ++ (coordinates below b' sockets).value ++ (colorArgument b').value)) := by
  have hcolor : colorArgument b = colorArgument b' := by
    unfold colorArgument
    rw [choiceOf_eq_of_blank hblank hk, kind_eq_of_blank hblank]
  rw [hcolor]
  exact .call _ ((hargs.append (variesAll_coordinates h hblank sockets hsockets)).append_same _)

theorem varies_displayText (hkind : b.kind = .displayText) :
    Stmt.Varies (b.texts texts) (b'.texts texts) (statementOf below b).value
      (statementOf below b').value := by
  obtain ⟨hkind', ht, ht'⟩ := Block.texts_of_blank hblank hkind (by decide) texts
  have hsockets : ∀ s ∈ ["TEXT", "X", "Y"], (valueSocket? b s).isSome = true := by
    simp only [valueSocket?, hkind]
    decide
  have htext := varies_textInput h hblank "TEXT" (hsockets _ List.mem_cons_self) (by rw [hkind]; decide)
  have hcall := varies_displayCall h hblank (by rw [hkind]; decide) ["X", "Y"]
    (fun s hs => hsockets s (List.mem_cons_of_mem _ hs)) (.single htext) "text"
  simp only [statementOf, hkind, hkind', Noted.value_bind, Noted.value_pure, ht, ht']
  simpa [BlockKind.definition, BlockKind.numberSocket, Block.socketTexts] using hcall

theorem varies_displayNumber (hkind : b.kind = .displayNumber) :
    Stmt.Varies (b.texts texts) (b'.texts texts) (statementOf below b).value
      (statementOf below b').value := by
  obtain ⟨hkind', ht, ht'⟩ := Block.texts_of_blank hblank hkind (by decide) texts
  have hsockets : ∀ s ∈ ["VALUE", "X", "Y"], (valueSocket? b s).isSome = true := by
    simp only [valueSocket?, hkind]
    decide
  have hvalue := varies_inputOf h hblank "VALUE" (hsockets _ List.mem_cons_self)
  have hcall := varies_displayCall h hblank (by rw [hkind]; decide) ["X", "Y"]
    (fun s hs => hsockets s (List.mem_cons_of_mem _ hs)) (.single hvalue) "number"
  simp only [statementOf, hkind, hkind', Noted.value_bind, Noted.value_pure, ht, ht']
  simpa [BlockKind.definition, BlockKind.numberSocket, Block.socketTexts] using hcall

/-- A figure is filled in both programs or in neither. -/
theorem varies_displayRect (hkind : b.kind = .displayRect) :
    Stmt.Varies (b.texts texts) (b'.texts texts) (statementOf below b).value
      (statementOf below b').value := by
  obtain ⟨hkind', ht, ht'⟩ := Block.texts_of_blank hblank hkind (by decide) texts
  have hk : b.kind ≠ .text := by rw [hkind]; decide
  have hsockets : ∀ s ∈ ["X", "Y", "W", "H"], (valueSocket? b s).isSome = true := by
    simp only [valueSocket?, hkind]
    decide
  have hcall := varies_displayCall h hblank hk _ hsockets .nil
    (if (isFilled b).value = true then "fill_rect" else "rect")
  have hfilled : isFilled b' = isFilled b := by rw [isFilled, isFilled, choiceOf_eq_of_blank hblank hk]
  simp only [statementOf, hkind, hkind', Noted.value_bind, Noted.value_pure, hfilled, ht, ht']
  simpa [BlockKind.definition, BlockKind.numberSocket, Block.socketTexts] using hcall

theorem varies_displayCircle (hkind : b.kind = .displayCircle) :
    Stmt.Varies (b.texts texts) (b'.texts texts) (statementOf below b).value
      (statementOf below b').value := by
  obtain ⟨hkind', ht, ht'⟩ := Block.texts_of_blank hblank hkind (by decide) texts
  have hk : b.kind ≠ .text := by rw [hkind]; decide
  have hsockets : ∀ s ∈ ["X", "Y", "R"], (valueSocket? b s).isSome = true := by
    simp only [valueSocket?, hkind]
    decide
  have hcall := varies_displayCall h hblank hk _ hsockets .nil
    (if (isFilled b).value = true then "fill_circle" else "circle")
  have hfilled : isFilled b' = isFilled b := by rw [isFilled, isFilled, choiceOf_eq_of_blank hblank hk]
  simp only [statementOf, hkind, hkind', Noted.value_bind, Noted.value_pure, hfilled, ht, ht']
  simpa [BlockKind.definition, BlockKind.numberSocket, Block.socketTexts] using hcall

theorem varies_playTone (hproper : ProperBelow below) (hkind : b.kind = .playTone) :
    Stmt.Varies (b.texts texts) (b'.texts texts) (statementOf below b).value
      (statementOf below b').value := by
  obtain ⟨hkind', ht, ht'⟩ := Block.texts_of_blank hblank hkind (by decide) texts
  have hsockets : ∀ s ∈ ["FREQUENCY", "DURATION"], (valueSocket? b s).isSome = true := by
    simp only [valueSocket?, hkind]
    decide
  have hfrequency := varies_integerInput h hblank "FREQUENCY" (hsockets _ (by simp))
  have hduration := varies_integerInput h hblank "DURATION" (hsockets _ (by simp))
  have hduration_proper := proper_integerInput hproper b "DURATION"
  have hiff := code_eq_zero_iff_of_varies hduration_proper (proper_integerInput hproper b' "DURATION")
    hduration
  simp only [statementOf, speakerCall, Expr.callName, hkind, hkind', Noted.value_bind, Noted.value_pure,
    ht, ht', beq_iff_eq, ← hiff]
  split
  · rename_i hzero
    -- a duration of zero is not written, and has no texts
    obtain ⟨hnone, hnone', -⟩ := hduration.of_no_text (hduration_proper.text_not_mem_zero hzero)
    simpa [BlockKind.definition, BlockKind.numberSocket, Block.socketTexts, hnone, hnone'] using
      Stmt.Varies.call _ (.single hfrequency)
  · simpa [BlockKind.definition, BlockKind.numberSocket, Block.socketTexts] using
      Stmt.Varies.call _ (.cons hfrequency (.single hduration))

theorem varies_waitMs (hkind : b.kind = .waitMs) :
    Stmt.Varies (b.texts texts) (b'.texts texts) (statementOf below b).value
      (statementOf below b').value := by
  obtain ⟨hkind', ht, ht'⟩ := Block.texts_of_blank hblank hkind (by decide) texts
  have hms := varies_integerInput h hblank "MS" (by simp only [valueSocket?, hkind]; rfl)
  simp only [statementOf, hkind, hkind', Noted.value_bind, Noted.value_pure, ht, ht']
  simpa [BlockKind.definition, BlockKind.numberSocket, Block.socketTexts] using
    Stmt.Varies.call _ (.single hms)

/-- The second suite is there in both programs or in neither. -/
theorem varies_ifElse (hkind : b.kind = .ifElse) :
    Stmt.Varies (b.texts texts) (b'.texts texts) (statementOf below b).value
      (statementOf below b').value := by
  obtain ⟨hkind', ht, ht'⟩ := Block.texts_of_blank hblank hkind (by decide) texts
  have hcondition := varies_inputOf h hblank "IF" (by simp only [valueSocket?, hkind]; rfl)
  have hbody := variesAll_bodyOf h hblank "DO"
  have hother := variesAll_bodyOf h hblank "ELSE"
  have hinputs := alikeInputs hblank "ELSE"
  simp only [statementOf, hkind, hkind', Noted.value_bind, ht, ht']
  generalize hi : b.input? "ELSE" = i, hi' : b'.input? "ELSE" = i' at hinputs
  cases hinputs with
  | chain hfirst hrest =>
    simpa [BlockKind.definition, BlockKind.truthSocket, BlockKind.chainSocket, Block.socketTexts]
      using Stmt.Varies.ifElse hcondition hbody hother
  | _ =>
    have hnone : b.bodyTexts texts "ELSE" = [] ∧ b'.bodyTexts texts "ELSE" = [] := by
      rw [Block.bodyTexts, Block.bodyTexts, hi, hi']
      exact ⟨rfl, rfl⟩
    simpa [BlockKind.definition, BlockKind.truthSocket, BlockKind.chainSocket, Block.socketTexts, hnone]
      using Stmt.Varies.ifThen hcondition hbody

theorem varies_repeatTimes (hkind : b.kind = .repeatTimes) :
    Stmt.Varies (b.texts texts) (b'.texts texts) (statementOf below b).value
      (statementOf below b').value := by
  obtain ⟨hkind', ht, ht'⟩ := Block.texts_of_blank hblank hkind (by decide) texts
  have htimes := varies_integerInput h hblank "TIMES" (by simp only [valueSocket?, hkind]; rfl)
  simp only [statementOf, hkind, hkind', Noted.value_bind, Noted.value_pure, ht, ht']
  simpa [BlockKind.definition, BlockKind.numberSocket, BlockKind.chainSocket, Block.socketTexts] using
    Stmt.Varies.repeatTimes htimes (variesAll_bodyOf h hblank "DO")

theorem varies_printLine (hkind : b.kind = .printLine) :
    Stmt.Varies (b.texts texts) (b'.texts texts) (statementOf below b).value
      (statementOf below b').value := by
  obtain ⟨hkind', ht, ht'⟩ := Block.texts_of_blank hblank hkind (by decide) texts
  have hvalue := varies_inputOf h hblank "VALUE" (by simp only [valueSocket?, hkind]; rfl)
  simp only [statementOf, Expr.callName, hkind, hkind', Noted.value_bind, Noted.value_pure, ht, ht']
  simpa [BlockKind.definition, Block.socketTexts] using Stmt.Varies.call (.name "print") (.single hvalue)

omit h in
/-- A block without sockets stands for the same statement in both programs. -/
theorem varies_bare (hkind : b.kind = .displayClear ∨ b.kind = .stopSound ∨ b.kind = .setLed) :
    Stmt.Varies (b.texts texts) (b'.texts texts) (statementOf below b).value
      (statementOf below b').value := by
  have hk : b.kind ≠ .text := by rcases hkind with hkind | hkind | hkind <;> rw [hkind] <;> decide
  have hchoice := choiceOf_eq_of_blank hblank hk
  rcases hkind with hkind | hkind | hkind
  all_goals
    obtain ⟨hkind', ht, ht'⟩ := Block.texts_of_blank hblank hkind (by decide) texts
    simp only [statementOf, colorArgument, hkind, hkind', Noted.value_bind, Noted.value_pure, hchoice,
      ht, ht']
    exact fun spaces => .refl _ _

/-- One level: where the blocks below differ in their texts alone, so does the statement of a block. -/
theorem varies_statementOf (hproper : ProperBelow below) :
    Stmt.Varies (b.texts texts) (b'.texts texts) (statementOf below b).value
      (statementOf below b').value := by
  cases hkind : b.kind with
  | displayText => exact varies_displayText h hblank hkind
  | displayNumber => exact varies_displayNumber h hblank hkind
  | displayRect => exact varies_displayRect h hblank hkind
  | displayCircle => exact varies_displayCircle h hblank hkind
  | playTone => exact varies_playTone h hblank hproper hkind
  | waitMs => exact varies_waitMs h hblank hkind
  | ifElse => exact varies_ifElse h hblank hkind
  | repeatTimes => exact varies_repeatTimes h hblank hkind
  | printLine => exact varies_printLine h hblank hkind
  | displayClear => exact varies_bare hblank (.inl hkind)
  | stopSound => exact varies_bare hblank (.inr (.inl hkind))
  | setLed => exact varies_bare hblank (.inr (.inr hkind))
  | _ =>
    have hkind' := (kind_eq_of_blank hblank).symm.trans hkind
    simp only [statementOf, hkind, hkind', Noted.value_bind, Noted.value_pure]
    exact .expr (varies_valueOf h hblank (by rw [hkind]; rfl))

end Blocks

/-! ## Graphs -/

theorem variesAll_statementsOf {below : Option Below} {texts : Option (Block → List String)}
    (h : VaryingBelow below texts) (hproper : ProperBelow below) {bs bs' : List Block}
    (hblank : bs.map Block.blank = bs'.map Block.blank) :
    Stmt.VariesAll (bs.flatMap (Block.texts texts)) (bs'.flatMap (Block.texts texts))
      (statementsOf below bs).value (statementsOf below bs').value := by
  rw [statementsOf, statementsOf, Noted.value_forEach, Noted.value_forEach]
  induction bs generalizing bs' with
  | nil =>
    obtain rfl := List.map_eq_nil_iff.mp hblank.symm
    exact .refl []
  | cons b r ih =>
    cases bs' with
    | nil => cases hblank
    | cons b' r' =>
      obtain ⟨hb, hr⟩ := List.cons.inj hblank
      exact .cons (varies_statementOf h hb hproper) (ih hr)

theorem varyingBelow_belowWith (n : Nat) : VaryingBelow (belowWith n) (Block.textsBelow n) := by
  induction n with
  | zero => exact .none
  | succ n ih =>
    refine .some (fun b b' hblank hstatement => ?_) fun bs bs' hblank => ?_
    · exact varies_valueOf ih hblank hstatement
    · exact variesAll_statementsOf ih (properBelow_belowWith n) hblank

/-- Two graphs that differ only in the contents of their texts, however their chains are cut. -/
theorem BlockGraph.blocks_blank (g : BlockGraph) : g.blank.blocks = g.blocks.map Block.blank := by
  rw [blocks, blocks, blank, List.flatMap_map, List.map_flatMap]
  rfl

/-- The tokens of a graph are those of its statements. -/
theorem BlockGraph.lexBody?_generate (g : BlockGraph) :
    lexBody? g.generate.body = some (Stmt.suiteLexemes 0 g.lower.value) :=
  Stmt.lexBody?_text g.proper_lower

/-- **Texts are exact and closed.**

A text in double quotes is read back as it was, with nothing of what follows it, and it is one token
wherever tokens are looked for, unless it is empty and another quote follows. The program of a graph
consists of tokens; every text of the graph that stands where texts are accepted, within the levels that
are followed, is one of them, in its order. And two graphs that differ only in the contents of such texts
have programs whose tokens differ only in the values of the tokens of these texts. -/
theorem BlockGraph.texts_closed :
    (∀ (s : String) (t : List Char), readText? ((quotedText s).toList ++ t) = some (s, t) ∧
      ((s = "" → t.head? ≠ some '"') → scan? ((quotedText s).toList ++ t) = some (.text s, t))) ∧
    (∀ g : BlockGraph, ∃ ls, lexBody? g.generate.body = some ls ∧
      ((g.textsWithin maxNesting).map Lexeme.text).Sublist ls) ∧
    ∀ g g' : BlockGraph, g.blank = g'.blank → ∃ ls ls', lexBody? g.generate.body = some ls ∧
      lexBody? g'.generate.body = some ls' ∧
      AlikeBut Lexeme.text (g.textsWithin maxNesting) (g'.textsWithin maxNesting) ls ls' := by
  have hvaries : ∀ g g' : BlockGraph, g.blank = g'.blank →
      AlikeBut Lexeme.text (g.textsWithin maxNesting) (g'.textsWithin maxNesting)
        (Stmt.suiteLexemes 0 g.lower.value) (Stmt.suiteLexemes 0 g'.lower.value) := by
    intro g g' hblank
    have hblocks : g.blocks.map Block.blank = g'.blocks.map Block.blank := by
      rw [← g.blocks_blank, hblank, g'.blocks_blank]
    exact variesAll_statementsOf (varyingBelow_belowWith maxNesting)
      (properBelow_belowWith maxNesting) hblocks 0
  refine ⟨fun s t => ⟨readText?_quoted s t, scan?_quotedText⟩, fun g => ?_, fun g g' hblank => ?_⟩
  · exact ⟨_, g.lexBody?_generate, (hvaries g g rfl).sublist⟩
  · exact ⟨_, _, g.lexBody?_generate, g'.lexBody?_generate, hvaries g g' hblank⟩

/-- A graph that shows a text. -/
def printing (s : String) : BlockGraph :=
  ⟨[⟨.mk .displayText none [] [("TEXT", .literal (.text s))], []⟩]⟩

theorem texts_closed_greeting :
    scan? ((quotedText "").toList ++ [')']) = some (.text "", [')']) ∧
    ∃ ls ls', lexBody? (printing "\"); reset() #").generate.body = some ls ∧
      lexBody? (printing "hi").generate.body = some ls' ∧
      AlikeBut Lexeme.text ["\"); reset() #"] ["hi"] ls ls' :=
  ⟨(BlockGraph.texts_closed.1 "" [')']).2 (by decide), BlockGraph.texts_closed.2.2 _ _ rfl⟩

/-- A text below a number of comparisons. -/
def buriedBlock : Nat → Block
  | 0 => .mk .text none [("TEXT", .text "buried")] []
  | n + 1 => .mk .compare none [] [("A", .chain (buriedBlock n) [])]

/-- A graph that prints what stands below as many comparisons as levels are followed. -/
def buriedGraph : BlockGraph :=
  ⟨[⟨.mk .printLine none [] [("VALUE", .chain (buriedBlock maxNesting) [])], []⟩]⟩

/-- A text one level deeper than what is followed is accepted where it stands, and missing in the
program. -/
theorem texts_buried :
    "buried" ∈ buriedGraph.textsWithin (maxNesting + 1) ∧
    ∃ ls, lexBody? buriedGraph.generate.body = some ls ∧ Lexeme.text "buried" ∉ ls := by
  refine ⟨by decide +kernel, _, buriedGraph.lexBody?_generate, ?_⟩
  decide +kernel

end BlockBoard
