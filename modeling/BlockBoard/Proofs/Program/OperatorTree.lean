import BlockBoard.Program.Lowering
import BlockBoard.Proofs.Script.Reading
/-!
# Value blocks mean what they show

The blocks of an expression form a tree by themselves: one node for each operator block, with the
operands that are plugged in. This module says which tree that is, without a word of precedence or
parentheses, and shows that the board reads the generated code as that tree.

- `Block.operatorTree`: the tree that a value block describes.
- `Block.operatorTree_read`: **the board reads the code of every value block as the tree that the
  block describes**, and in no other way.
-/

namespace BlockBoard

open Script (Tree tokens? Parses)

/-! ## The tree of a block -/

/-- The tree of a number: a negative one is the negation of its magnitude. -/
def numberTree (x : Binary64) : Tree :=
  let magnitude := Tree.number (Numeral.ofDecimal (.shortest .up x)).text
  if x.lt (.zero false) then .negate magnitude else magnitude

/-- The tree of a truth value. -/
def truthTree (t : Bool) : Tree := .name (if t then "True" else "False")

/-- The tree of a literal, if a socket accepts it. -/
def literalTree? (kind : BlockKind) (socket : String) (check : ValueType) (v : FieldValue) :
    Option Tree :=
  match check, v with
  | .number, v => (v.asNumber?.filter (literalInRange kind socket)).map numberTree
  | .any, .number x =>
    ((FieldValue.number x).asNumber?.filter (literalInRange kind socket)).map numberTree
  | .boolean, .boolean t | .any, .boolean t => some (truthTree t)
  | .boolean, .text s =>
    if sameLetters s "true" then some (truthTree true)
    else if sameLetters s "false" then some (truthTree false)
    else none
  | .boolean, .number _ => none
  | .text, v => some (.text v.asText)
  | .any, .text s => some (.text s)

namespace Block

/-- The tree of an operand: of the block in the socket, of an accepted literal there, or of the
socket's default. The default also stands in for statements, and for blocks where no level is
left. -/
def operand (below : Option (Block → Tree)) (b : Block) (socket : String) : Tree :=
  match valueSocket? b socket with
  | none => .name "None"
  | some (check, default) =>
    match b.input? socket with
    | none => default.tree
    | some (.literal v) => (literalTree? b.kind socket check v).getD default.tree
    | some (.chain child _) =>
      if child.kind.isStatement then default.tree
      else match below with
        | some described => described child
        | none => default.tree

/-- The tree of an operand that has to be an integer. -/
def integerOperand (below : Option (Block → Tree)) (b : Block) (socket : String) : Tree :=
  match b.input? socket with
  | some (.chain child _) =>
    if child.producesInteger then b.operand below socket
    else .call (.name "int") [b.operand below socket]
  | _ => b.operand below socket

/-- The tree of a block, from those of the blocks one level deeper. Operator blocks are operators,
each comparison with two operands; the others are names, literals and calls. -/
def treeWith (below : Option (Block → Tree)) (swapped : Bool) (b : Block) : Tree :=
  match b.kind with
  | .arithmetic =>
    .binary (arithmeticOp (choiceOf b "OP").value) (b.operand below "A") (b.operand below "B")
  | .compare =>
    .compare (b.operand below "A") [(compareOp (choiceOf b "OP").value, b.operand below "B")]
  | .logicOp =>
    .binary (if (choiceOf b "OP").value == "OR" then .or else .and) (b.operand below "A")
      (b.operand below "B")
  | .logicNot => .not (b.operand below "BOOL")
  | .negate => .negate (b.operand below "NUM")
  | .number =>
    match (b.field? "NUM").bind FieldValue.asNumber? with
    | some x => numberTree x
    | none => .number "0"
  | .text => .text ((b.field? "TEXT").elim "" FieldValue.asText)
  | .boolean => truthTree ((choiceOf b "BOOL").value == "true")
  | .buttonPressed =>
    .call (.attribute (.name "board") "button_pressed") [.text (choiceOf b "BUTTON").value]
  | .accelRead =>
    let axis := (choiceOf b "AXIS").value
    .subscript (.call (.attribute (.name "board") "accel") [])
      (.number (if axis == "y" then "1" else if axis == "z" then "2" else "0"))
  | .shakeDetected => .call (.name "shake_happened") [.name "_shake"]
  | .randomInt =>
    let low := b.integerOperand below "FROM"
    let high := b.integerOperand below "TO"
    .call (.attribute (.name "random") "randint") (if swapped then [high, low] else [low, high])
  | _ => .name "None"

/-- Whether the two bounds of a random number are exchanged, as they are where the first is known to
be the larger. -/
def boundsSwapped (below : Option Below) (b : Block) : Bool :=
  boundsReversed (integerInput below b "FROM").value (integerInput below b "TO").value

/-- The tree that a value block describes, with a number of levels left below it. -/
def operatorTree : Nat → Block → Tree
  | 0, b => b.treeWith none (b.boundsSwapped none)
  | n + 1, b => b.treeWith (some (operatorTree n)) (b.boundsSwapped (belowWith (n + 1)))

end Block

/-! ## Expressions with a given meaning -/

/-- A proper expression with a given meaning. -/
def Expr.Means (e : Expr) (t : Tree) : Prop := e.Proper ∧ e.tree = t

/-- The expressions of one level mean the trees that are described for it. -/
def Agree : Option Below → Option (Block → Tree) → Prop
  | none, none => True
  | some level, some described => ∀ b, (level.value b).value.Means (described b)
  | _, _ => False

theorem all_isDigit_ofNat (n : Nat) : (Numeral.ofNat n).fraction.all Char.isDigit = true := rfl

theorem all_isDigit_ofDecimal (d : Decimal) :
    (Numeral.ofDecimal d).fraction.all Char.isDigit = true := by
  unfold Numeral.ofDecimal
  split
  · rfl
  · rw [List.all_append, Bool.and_eq_true, List.all_eq_true, List.all_eq_true]
    refine ⟨fun c hc => ?_, fun c hc => Nat.isDigit_of_mem_toDigits (by decide) (by decide) hc⟩
    obtain rfl : c = '0' := List.eq_of_mem_replicate hc
    rfl

theorem means_ofNat (n : Nat) : (Expr.ofNat n).Means (.number (Numeral.ofNat n).text) :=
  ⟨.number (all_isDigit_ofNat n), rfl⟩

theorem means_ofBool (t : Bool) : (Expr.ofBool t).Means (truthTree t) := by
  cases t <;> exact ⟨.name (by decide), rfl⟩

/-- The numbers that are spelled as names are not finite. -/
theorem magnitude_of_isFinite {x : Binary64} (h : x.isFinite = true) :
    Expr.magnitude x = .number (.ofDecimal (.shortest .up x)) := by
  have hlt : x.word < Binary64.infinityWord := of_decide_eq_true h
  have hnan : x.isNaN = false := decide_eq_false (by omega)
  have hinfinite : x.isInfinite = false := decide_eq_false (by omega)
  rw [Expr.magnitude, hnan, hinfinite]
  rfl

/-- A finite number is written as the tree of it. -/
theorem means_ofNumber {x : Binary64} (h : x.isFinite = true) :
    (Expr.ofNumber x).Means (numberTree x) := by
  unfold Expr.ofNumber numberTree
  rw [magnitude_of_isFinite h]
  split
  · exact ⟨.negate (.number (all_isDigit_ofDecimal _)), rfl⟩
  · exact ⟨.number (all_isDigit_ofDecimal _), rfl⟩

/-- Whatever reads as a number is finite. -/
theorem isFinite_of_asNumber? {v : FieldValue} {x : Binary64} (h : v.asNumber? = some x) :
    x.isFinite = true := by
  cases v with
  | boolean _ => cases h
  | number y =>
    rw [FieldValue.asNumber?] at h
    split at h <;> simp_all
  | text s =>
    rw [FieldValue.asNumber?, Option.filter_eq_some_iff] at h
    exact h.2

/-- The default of every value socket in the catalogue is an empty text, a number or a truth value. -/
theorem default_of_mem_sockets {k : BlockKind} {s : SocketSpec} {check : ValueType} {default : Expr}
    (hs : s ∈ k.definition.sockets) (hkind : s.kind = .value check default) :
    default = .text "" ∨ (∃ n, default = .ofNat n) ∨ ∃ t, default = .ofBool t := by
  -- one row of the catalogue after the other
  cases k <;>
    simp only [BlockKind.definition, BlockKind.numberSocket, BlockKind.truthSocket,
      BlockKind.chainSocket, List.mem_cons, List.not_mem_nil, or_false] at hs
  all_goals grind

theorem default_of_valueSocket? {b : Block} {socket : String} {check : ValueType} {default : Expr}
    (h : valueSocket? b socket = some (check, default)) :
    default = .text "" ∨ (∃ n, default = .ofNat n) ∨ ∃ t, default = .ofBool t := by
  unfold valueSocket? at h
  split at h
  · rename_i name c d hsocket
    cases h
    exact default_of_mem_sockets (List.mem_of_find?_eq_some hsocket) rfl
  · cases h

/-- The default of every value socket is a proper expression. -/
theorem proper_default {b : Block} {socket : String} {check : ValueType} {default : Expr}
    (h : valueSocket? b socket = some (check, default)) : default.Proper := by
  rcases default_of_valueSocket? h with rfl | ⟨n, rfl⟩ | ⟨t, rfl⟩
  · exact .text ""
  · exact (means_ofNat n).1
  · exact (means_ofBool t).1

theorem means_literalOf {b : Block} {socket : String} {check : ValueType} {default : Expr}
    (hdefault : default.Proper) (v : FieldValue) :
    (literalOf b socket check default v).value.Means
      ((literalTree? b.kind socket check v).getD default.tree) := by
  -- sockets for numbers and sockets for everything treat a number in the same way
  have hnumber : ∀ v : FieldValue, (numberLiteral b socket default v).value.Means
      (((v.asNumber?.filter (literalInRange b.kind socket)).map numberTree).getD default.tree) := by
    intro v
    unfold numberLiteral
    split
    · rename_i x hx
      rw [hx]
      rw [Option.filter_eq_some_iff] at hx
      exact means_ofNumber (isFinite_of_asNumber? hx.1)
    · rename_i hx
      rw [hx]
      exact ⟨hdefault, rfl⟩
  cases check with
  | number => exact hnumber v
  | text => exact ⟨.text _, rfl⟩
  | any =>
    cases v with
    | boolean t => exact means_ofBool t
    | number x => exact hnumber _
    | text s => exact ⟨.text s, rfl⟩
  | boolean =>
    cases v with
    | boolean t => exact means_ofBool t
    | number x => exact ⟨hdefault, rfl⟩
    | text s =>
      unfold literalOf literalTree?
      by_cases htrue : sameLetters s "true" = true
      · simp only [if_pos htrue]
        exact means_ofBool true
      · by_cases hfalse : sameLetters s "false" = true
        · simp only [if_neg htrue, if_pos hfalse]
          exact means_ofBool false
        · simp only [if_neg htrue, if_neg hfalse]
          exact ⟨hdefault, rfl⟩

/-! ## The expression of a block means its tree -/

section Blocks

variable {below : Option Below} {trees : Option (Block → Tree)}

theorem means_inputOf (h : Agree below trees) (b : Block) (socket : String) :
    (inputOf below b socket).value.Means (b.operand trees socket) := by
  unfold inputOf Block.operand
  cases hsocket : valueSocket? b socket with
  | none => exact ⟨.name (by decide), rfl⟩
  | some spec =>
    obtain ⟨check, default⟩ := spec
    have hdefault : default.Proper := proper_default hsocket
    cases b.input? socket with
    | none => exact ⟨hdefault, rfl⟩
    | some binding =>
      cases binding with
      | literal v => exact means_literalOf hdefault v
      | chain child rest =>
        by_cases hstatement : child.kind.isStatement = true
        · simp only [if_pos hstatement]
          exact ⟨hdefault, rfl⟩
        · simp only [if_neg hstatement]
          -- a block is described by the level below, as long as there is one left
          match below, trees, h with
          | none, none, _ => exact ⟨hdefault, rfl⟩
          | some _, some _, h => exact h child

theorem means_integerInput (h : Agree below trees) (b : Block) (socket : String) :
    (integerInput below b socket).value.Means (b.integerOperand trees socket) := by
  have hinput := means_inputOf h b socket
  unfold integerInput Block.integerOperand
  rw [Noted.value_bind]
  cases b.input? socket with
  | none => exact hinput
  | some binding =>
    cases binding with
    | literal v => exact hinput
    | chain child rest =>
      by_cases hinteger : child.producesInteger = true
      · simp only [if_pos hinteger]
        exact hinput
      · simp only [if_neg hinteger]
        refine ⟨.call (.name (by decide)) (by simpa using hinput.1), ?_⟩
        show Tree.call (.name "int") [(inputOf below b socket).value.tree] = _
        rw [hinput.2]

theorem means_binaryOf (h : Agree below trees) (b : Block) (op : BinaryOp) :
    (binaryOf below b op).value.Means
      (if Script.opLevel op = .comparison then
        .compare (b.operand trees "A") [(op, b.operand trees "B")]
      else .binary op (b.operand trees "A") (b.operand trees "B")) := by
  obtain ⟨hproperA, htreeA⟩ := means_inputOf h b "A"
  obtain ⟨hproperB, htreeB⟩ := means_inputOf h b "B"
  refine ⟨.binary op hproperA hproperB, ?_⟩
  rw [← htreeA, ← htreeB]
  rfl

/-- Arithmetic is no comparison, and comparisons are. -/
theorem opLevel_arithmeticOp (c : String) : Script.opLevel (arithmeticOp c) ≠ .comparison := by
  unfold arithmeticOp
  split <;> decide

theorem opLevel_compareOp (c : String) : Script.opLevel (compareOp c) = .comparison := by
  unfold compareOp
  split <;> rfl

theorem opLevel_logicOp (t : Bool) :
    Script.opLevel (if t then .or else .and) ≠ .comparison := by
  cases t <;> decide

theorem means_randomInt (h : Agree below trees) {b : Block} (hkind : b.kind = .randomInt) :
    (valueOf below b).value.Means (b.treeWith trees (b.boundsSwapped below)) := by
  obtain ⟨hproperLow, htreeLow⟩ := means_integerInput h b "FROM"
  obtain ⟨hproperHigh, htreeHigh⟩ := means_integerInput h b "TO"
  have hfunction : (Expr.attribute (.name "random") "randint").Proper :=
    .field (.name (by decide)) rfl (by decide)
  unfold valueOf Block.treeWith Block.boundsSwapped
  rw [hkind, ← htreeLow, ← htreeHigh]
  simp only [Noted.value_bind]
  split
  · exact ⟨.call hfunction (by simp [hproperLow, hproperHigh]), rfl⟩
  · exact ⟨.call hfunction (by simp [hproperLow, hproperHigh]), rfl⟩

/-- One level: where the blocks below mean what is described, so does a block. -/
theorem means_valueOf (h : Agree below trees) (b : Block) :
    (valueOf below b).value.Means (b.treeWith trees (b.boundsSwapped below)) := by
  cases hkind : b.kind with
  | randomInt => exact means_randomInt h hkind
  | arithmetic =>
    have := means_binaryOf h b (arithmeticOp (choiceOf b "OP").value)
    rw [if_neg (opLevel_arithmeticOp _)] at this
    simp only [valueOf, Block.treeWith, hkind]
    exact this
  | compare =>
    have := means_binaryOf h b (compareOp (choiceOf b "OP").value)
    rw [if_pos (opLevel_compareOp _)] at this
    simp only [valueOf, Block.treeWith, hkind]
    exact this
  | logicOp =>
    have := means_binaryOf h b (if (choiceOf b "OP").value == "OR" then .or else .and)
    rw [if_neg (opLevel_logicOp _)] at this
    simp only [valueOf, Block.treeWith, hkind]
    exact this
  | logicNot =>
    obtain ⟨hproper, htree⟩ := means_inputOf h b "BOOL"
    simp only [valueOf, Block.treeWith, hkind, ← htree]
    exact ⟨.not hproper, rfl⟩
  | negate =>
    obtain ⟨hproper, htree⟩ := means_inputOf h b "NUM"
    simp only [valueOf, Block.treeWith, hkind, ← htree]
    exact ⟨.negate hproper, rfl⟩
  | number =>
    simp only [valueOf, Block.treeWith, hkind]
    cases b.field? "NUM" with
    | none => exact means_ofNat 0
    | some v =>
      cases hv : v.asNumber? with
      | none =>
        simp only [hv, Option.bind_some]
        exact means_ofNat 0
      | some x =>
        simp only [hv, Option.bind_some]
        exact means_ofNumber (isFinite_of_asNumber? hv)
  | text =>
    simp only [valueOf, Block.treeWith, hkind]
    exact ⟨.text _, rfl⟩
  | boolean =>
    simp only [valueOf, Block.treeWith, hkind]
    exact means_ofBool _
  | buttonPressed =>
    simp only [valueOf, Block.treeWith, hkind]
    exact ⟨.call (.field (.name (by decide)) rfl (by decide)) (by simpa using .text _), rfl⟩
  | accelRead =>
    simp only [valueOf, Block.treeWith, hkind]
    refine ⟨.subscript (.call (.field (.name (by decide)) rfl (by decide)) (by simp))
      (.number (all_isDigit_ofNat _)), ?_⟩
    have hindex : ∀ y z : Bool,
        (Numeral.ofNat (if y then 1 else if z then 2 else 0)).text =
          if y then "1" else if z then "2" else "0" := by decide
    exact congrArg (Tree.subscript _ <| Tree.number ·) (hindex _ _)
  | shakeDetected =>
    simp only [valueOf, Block.treeWith, hkind]
    exact ⟨.call (.name (by decide)) (by simpa using .name (by decide)), rfl⟩
  | _ =>
    simp only [valueOf, Block.treeWith, hkind]
    exact ⟨.name (by decide), rfl⟩

end Blocks

/-- The expressions with a number of levels left mean what is described for that number. -/
theorem means_operatorTree (n : Nat) (b : Block) :
    (valueOf (belowWith n) b).value.Means (b.operatorTree n) := by
  induction n generalizing b with
  | zero =>
    have hagree : Agree (belowWith 0) none := trivial
    exact means_valueOf hagree b
  | succ n ih =>
    have hagree : Agree (belowWith (n + 1)) (some (Block.operatorTree n)) := ih
    exact means_valueOf hagree b

end BlockBoard
