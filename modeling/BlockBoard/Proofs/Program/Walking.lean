import BlockBoard.Proofs.Program.Naming
/-!
# Walking through a graph

The code of a graph can be collected in one walk through its blocks that keeps a record of what is needed and
counts the sockets it is in. The record grows on the way and the counter goes up and down, so what a block is
lowered to could depend on the blocks before it. This module says that it does not: the walk gives every block
what it is lowered to at its level, and comes back with the counter as it was.

- `Walker`, `Walk`: what a walk keeps track of.
- `Walk.value`, `Walk.statement`, `Walk.chain`: the walk through a block, and through blocks in a row.
- `Walk.Gives`: what a walk gives at a level, and what it adds to the needs.
- `Walk.gives_value`, `Walk.gives_statement`: one block, from those of the levels below.
- `Walk.generate_eq`: the code that is collected in a walk.
- `generation_composes`: **code is put together from the code of blocks alone**.
-/

namespace BlockBoard

/-! ## Requirements -/

attribute [ext] Requirements

namespace Requirements

@[simp] theorem union_empty (r : Requirements) : r.union {} = r := by
  ext <;> simp [union]

@[simp] theorem empty_union (r : Requirements) : union {} r = r := by
  ext <;> simp [union]

theorem union_assoc (r s t : Requirements) : (r.union s).union t = r.union (s.union t) := by
  ext <;> simp [union, Bool.or_assoc]

theorem union_comm (r s : Requirements) : r.union s = s.union r := by
  ext <;> simp [union, Bool.or_comm]

theorem union_left_comm (r s t : Requirements) : r.union (s.union t) = s.union (r.union t) := by
  rw [← union_assoc, union_comm r s, union_assoc]

/-- One more module is the union with what brings nothing else. -/
theorem addModule_eq_union (r : Requirements) (m : ImportedModule) :
    r.addModule m = r.union (addModule {} m) := by
  cases m <;> ext <;> simp [addModule, union]

theorem addHelper_eq_union (r : Requirements) (h : Helper) : r.addHelper h = r.union (addHelper {} h) := by
  cases h <;> ext <;> simp [addHelper, union]

@[simp] theorem ofNames_append (ms ns : List String) :
    ofNames (ms ++ ns) = (ofNames ms).union (ofNames ns) := by
  ext
  · simp [ofNames, union]
  · simp only [ofNames, union, List.contains_append]
    cases ms.contains "time" <;> cases ms.contains "play_tone_for" <;> simp
  · simp [ofNames, union]
  · simp [ofNames, union]

end Requirements

/-! ## What is needed -/

/-- What an expression needs. -/
def Expr.needs (e : Expr) : Requirements := .ofNames e.names

/-- What the arguments of a call need. -/
def Expr.argumentNeeds (es : List Expr) : Requirements := .ofNames (argumentNames es)

namespace Expr

@[simp] theorem argumentNeeds_nil : argumentNeeds [] = {} := rfl

@[simp] theorem argumentNeeds_cons (e : Expr) (es : List Expr) :
    argumentNeeds (e :: es) = e.needs.union (argumentNeeds es) := by
  rw [argumentNeeds, argumentNames, Requirements.ofNames_append]
  rfl

@[simp] theorem argumentNeeds_append (es fs : List Expr) :
    argumentNeeds (es ++ fs) = (argumentNeeds es).union (argumentNeeds fs) := by
  induction es with
  | nil => simp
  | cons e r ih => simp [ih, Requirements.union_assoc]

@[simp] theorem needs_call (f : Expr) (es : List Expr) :
    (Expr.call f es).needs = f.needs.union (argumentNeeds es) := by
  rw [needs, names, Requirements.ofNames_append]
  rfl

@[simp] theorem needs_binary (op : BinaryOp) (a b : Expr) :
    (Expr.binary op a b).needs = a.needs.union b.needs := by
  rw [needs, names, Requirements.ofNames_append]
  rfl

@[simp] theorem needs_subscript (e i : Expr) : (Expr.subscript e i).needs = e.needs.union i.needs := by
  rw [needs, names, Requirements.ofNames_append]
  rfl

@[simp] theorem needs_attribute (e : Expr) (field : String) : (Expr.attribute e field).needs = e.needs := rfl

@[simp] theorem needs_ofNat (n : Nat) : (ofNat n).needs = {} := rfl

@[simp] theorem needs_text (s : String) : (Expr.text s).needs = {} := rfl

@[simp] theorem needs_board : (Expr.name "board").needs = {} := by decide

theorem needs_none : (Expr.name "None").needs = {} := by decide

theorem needs_callName {f : String} (hf : (Expr.name f).needs = {}) (es : List Expr) :
    (callName f es).needs = argumentNeeds es := by
  rw [callName, needs_call, hf, Requirements.empty_union]

theorem needs_ofBool (t : Bool) : (ofBool t).needs = {} := by
  cases t <;> decide

theorem needs_ofNumber (x : Binary64) : (ofNumber x).needs = {} := by
  have hmagnitude : (magnitude x).needs = {} := by
    unfold magnitude
    split
    · decide
    · split
      · decide
      · rfl
  unfold ofNumber
  split
  · exact hmagnitude
  · exact hmagnitude

end Expr

/-- What a statement needs. -/
def Stmt.needs (s : Stmt) : Requirements := .ofNames s.names

/-- What statements in a row need. -/
def Stmt.suiteNeeds (ss : List Stmt) : Requirements := .ofNames (suiteNames ss)

namespace Stmt

@[simp] theorem needs_expr (e : Expr) : (Stmt.expr e).needs = e.needs := rfl

@[simp] theorem needs_ifElse (c : Expr) (ss : List Stmt) :
    (Stmt.ifElse c ss none).needs = c.needs.union (suiteNeeds ss) := by
  rw [needs, names, Requirements.ofNames_append, Requirements.ofNames_append]
  exact Requirements.union_empty _

@[simp] theorem needs_ifElse_some (c : Expr) (ss ts : List Stmt) :
    (Stmt.ifElse c ss (some ts)).needs = c.needs.union ((suiteNeeds ss).union (suiteNeeds ts)) := by
  rw [needs, names, Requirements.ofNames_append, Requirements.ofNames_append, Requirements.union_assoc]
  rfl

@[simp] theorem needs_repeatTimes (n : Expr) (ss : List Stmt) :
    (Stmt.repeatTimes n ss).needs = n.needs.union (suiteNeeds ss) := by
  rw [needs, names, Requirements.ofNames_append]
  rfl

@[simp] theorem suiteNeeds_nil : suiteNeeds [] = {} := rfl

@[simp] theorem suiteNeeds_cons (s : Stmt) (ss : List Stmt) :
    suiteNeeds (s :: ss) = s.needs.union (suiteNeeds ss) := by
  rw [suiteNeeds, suiteNames, Requirements.ofNames_append]
  rfl

@[simp] theorem suiteNeeds_append (ss ts : List Stmt) :
    suiteNeeds (ss ++ ts) = (suiteNeeds ss).union (suiteNeeds ts) := by
  induction ss with
  | nil => simp
  | cons s r ih => simp [ih, Requirements.union_assoc]

@[simp] theorem suiteNeeds_pass : suiteNeeds [.pass] = {} := by decide

end Stmt

/-- Nothing is needed for an expression whose code is a zero: no provision shows in it. -/
theorem Known.needs_of_code_zero {e : Expr} (h : Known e) (hcode : e.code = "0") : e.needs = {} := by
  have hshows : Revealing e.names [e.code] := .ofLine (revealed_fit h.revealed .loosest)
  have hnone : ∀ f : Provision, f.name ∉ e.names := by
    intro f hf
    have hmentions := (hshows.mentions_iff f).mpr hf
    rw [hcode] at hmentions
    obtain ⟨l, hl, hinfix⟩ := hmentions
    obtain rfl := List.mem_singleton.mp hl
    cases f <;> exact absurd hinfix (by decide)
  have hrandom : "random" ∉ e.names := hnone .randint
  have htime : "time" ∉ e.names := hnone .sleepMs
  have htone : "play_tone_for" ∉ e.names := hnone .toneFor
  have hshake : "shake_happened" ∉ e.names := hnone .shakeHappened
  simp [Expr.needs, Requirements.ofNames, hrandom, htime, htone, hshake]

theorem needs_default {b : Block} {socket : String} {check : ValueType} {default : Expr}
    (h : valueSocket? b socket = some (check, default)) : default.needs = {} := by
  rcases default_of_valueSocket? h with rfl | ⟨n, rfl⟩ | ⟨t, rfl⟩
  · rfl
  · rfl
  · exact Expr.needs_ofBool t

theorem needs_literalOf {b : Block} {socket : String} {check : ValueType} {default : Expr}
    (hdefault : default.needs = {}) (v : FieldValue) :
    (literalOf b socket check default v).value.needs = {} := by
  rcases literalOf_cases b socket check default v with ⟨x, -, h⟩ | ⟨t, h⟩ | ⟨s, h⟩ | h <;> rw [h]
  · exact Expr.needs_ofNumber x
  · exact Expr.needs_ofBool t
  · rfl
  · exact hdefault

@[simp] theorem argumentNeeds_colorArgument (b : Block) :
    Expr.argumentNeeds (colorArgument b).value = {} := by
  rw [colorArgument, Noted.value_bind]
  split
  · rfl
  · simp [colorConstant, Expr.board]

/-! ## Code in a row -/

namespace GeneratedCode

/-- The code of nothing. -/
instance : EmptyCollection GeneratedCode := ⟨⟨"", {}⟩⟩

/-- Code after code, with what either needs. -/
instance : Append GeneratedCode := ⟨fun a b => ⟨a.body ++ b.body, a.needs.union b.needs⟩⟩

theorem ofStmts_append (ss ts : List Stmt) : ofStmts (ss ++ ts) = ofStmts ss ++ ofStmts ts := by
  have hlines : Stmt.suiteLines (ss ++ ts) = Stmt.suiteLines ss ++ Stmt.suiteLines ts := by
    simp only [Stmt.suiteLines_eq_flatMap, List.flatMap_append]
  have hbody : Stmt.text (ss ++ ts) = Stmt.text ss ++ Stmt.text ts := by
    rw [Stmt.text, hlines, unlines_append]
    rfl
  rw [ofStmts, hbody]
  exact congrArg (mk _) (Stmt.suiteNeeds_append ss ts)

end GeneratedCode

/-- The code of blocks in a row, with a number of levels left below them. -/
def chainCode (levels : Nat) (bs : List Block) : GeneratedCode :=
  .ofStmts (statementsOf (belowWith levels) bs).value

theorem chainCode_append (levels : Nat) (bs cs : List Block) :
    chainCode levels (bs ++ cs) = chainCode levels bs ++ chainCode levels cs := by
  simp only [chainCode, value_statementsOf, List.map_append, GeneratedCode.ofStmts_append]

theorem chainCode_eq_foldr (levels : Nat) (bs : List Block) :
    chainCode levels bs = (bs.map fun b => chainCode levels [b]).foldr (· ++ ·) ∅ := by
  induction bs with
  | nil => rfl
  | cons b r ih =>
    rw [List.map_cons, List.foldr_cons, ← ih, ← chainCode_append]
    rfl

/-- The chains of a graph, and those of another one after them. -/
instance : Append BlockGraph := ⟨fun g g' => ⟨g.chains ++ g'.chains⟩⟩

/-- The code of a graph is that of all its blocks. -/
theorem BlockGraph.generate_eq (g : BlockGraph) :
    g.generate = chainCode maxNesting (g.chains.flatMap Chain.toList) := rfl

theorem BlockGraph.generate_append (g g' : BlockGraph) : (g ++ g').generate = g.generate ++ g'.generate := by
  rw [generate_eq, generate_eq, generate_eq, ← chainCode_append, ← List.flatMap_append]
  rfl

/-! ## Walks -/

/-- What a walk through a graph keeps track of: what has been needed so far, and the number of sockets that it
is in. -/
structure Walker where
  needs : Requirements := {}
  depth : Nat := 0

/-- A walk through some part of a graph. -/
abbrev Walk := StateM Walker

/-- What is plugged into a block is smaller than the block. -/
theorem Block.sizeOf_lt_of_input? {b : Block} {socket : String} {binding : Binding}
    (h : b.input? socket = some binding) : sizeOf binding < sizeOf b := by
  obtain ⟨kind, id, fields, inputs⟩ := b
  obtain ⟨before, after, heq, -⟩ := List.lookup_eq_some_iff.mp h
  have hmem : (socket, binding) ∈ inputs := by
    show _ ∈ Block.inputs (.mk kind id fields inputs)
    rw [heq]
    simp
  have hlt := List.sizeOf_lt_of_mem hmem
  simp only [Prod.mk.sizeOf_spec, Block.mk.sizeOf_spec] at *
  omega

namespace Walk

/-- A module is needed. -/
def needModule (m : ImportedModule) : Walk Unit := modify fun w => { w with needs := w.needs.addModule m }

/-- A helper is needed. -/
def needHelper (h : Helper) : Walk Unit := modify fun w => { w with needs := w.needs.addHelper h }

/-- A walk through what is one socket deeper, if there is a level left. The counter is set back afterwards. -/
def nested {α : Type} (walk : Walk α) : Walk (Option α) := do
  let w ← get
  if maxNesting ≤ w.depth then
    return none
  else
    modify fun w => { w with depth := w.depth + 1 }
    let a ← walk
    modify fun w => { w with depth := w.depth - 1 }
    return some a

mutual

/-- The walk through a value socket. -/
def input (b : Block) (socket : String) : Walk Expr :=
  match valueSocket? b socket with
  | none => pure (.name "None")
  | some (check, default) =>
    match _h : b.input? socket with
    | none => pure default
    | some (.literal v) => pure (literalOf b socket check default v).value
    | some (.chain child _) =>
      if child.kind.isStatement then pure default
      else do return (← nested (value child)).getD default
termination_by (sizeOf b, 0)
decreasing_by
  have hlt := Block.sizeOf_lt_of_input? _h
  simp only [Binding.chain.sizeOf_spec] at hlt
  exact Prod.Lex.left _ _ (by omega)

/-- The walk through a socket for an integer. -/
def integer (b : Block) (socket : String) : Walk Expr := do
  let e ← input b socket
  match b.input? socket with
  | some (.chain child _) => return if child.producesInteger then e else .callName "int" [e]
  | _ => return e
termination_by (sizeOf b, 1)

/-- The walk through the sockets of an operator. -/
def binary (b : Block) (op : BinaryOp) : Walk Expr := do
  let left ← input b "A"
  let right ← input b "B"
  return .binary op left right
termination_by (sizeOf b, 1)

/-- The walk through a value block. -/
def value (b : Block) : Walk Expr :=
  match b.kind with
  | .shakeDetected => do
    needHelper .shake
    return (valueOf none b).value
  | .randomInt => do
    needModule .random
    let low ← integer b "FROM"
    let high ← integer b "TO"
    return .call (.attribute (.name "random") "randint")
      (if boundsReversed low high then [high, low] else [low, high])
  | .arithmetic => binary b (arithmeticOp (choiceOf b "OP").value)
  | .compare => binary b (compareOp (choiceOf b "OP").value)
  | .logicOp => binary b (if (choiceOf b "OP").value == "OR" then .or else .and)
  | .logicNot => do return .not (← input b "BOOL")
  | .negate => do return .negate (← input b "NUM")
  -- nothing can be plugged into the others
  | _ => pure (valueOf none b).value
termination_by (sizeOf b, 2)

end

/-- The walk through a socket for a text. -/
def text (b : Block) (socket : String) : Walk Expr :=
  match b.input? socket with
  | some (.literal v) => pure (.text v.asText)
  | some (.chain child _) => do
    let e ← input b socket
    return if child.kind.definition.shape = .value .text then e else .callName "str" [e]
  | none => input b socket

/-- The walk through several sockets for integers. -/
def integers (b : Block) (sockets : List String) : Walk (List Expr) := sockets.mapM (integer b)

/-- What is left to do for a tone, once its sockets have been walked through. -/
def tone (frequency duration : Expr) : Walk Stmt :=
  if duration.code == "0" then
    return speakerCall "tone" [frequency]
  else do
    needHelper .toneFor
    return .expr (.callName "play_tone_for" [frequency, duration])

mutual

/-- The walk through a suite. -/
def body (b : Block) (socket : String) : Walk (List Stmt) :=
  match _h : b.input? socket with
  | some (.chain first rest) =>
    if first.kind.isStatement then do return (← nested (chain (first :: rest))).getD [.pass]
    else pure [.pass]
  | _ => pure [.pass]
termination_by (sizeOf b, 0)
decreasing_by
  have hlt := Block.sizeOf_lt_of_input? _h
  simp only [Binding.chain.sizeOf_spec] at hlt
  exact Prod.Lex.left _ _ (by simp only [List.cons.sizeOf_spec]; omega)

/-- The walk through a block where a statement stands. -/
def statement (b : Block) : Walk Stmt :=
  match b.kind with
  | .displayText => do
    let shown ← text b "TEXT"
    let places ← integers b ["X", "Y"]
    return displayCall "text" (shown :: places ++ (colorArgument b).value)
  | .displayRect => do
    let places ← integers b ["X", "Y", "W", "H"]
    return displayCall (if (isFilled b).value then "fill_rect" else "rect") (places ++ (colorArgument b).value)
  | .displayCircle => do
    let places ← integers b ["X", "Y", "R"]
    return displayCall (if (isFilled b).value then "fill_circle" else "circle")
      (places ++ (colorArgument b).value)
  | .displayNumber => do
    let shown ← input b "VALUE"
    let places ← integers b ["X", "Y"]
    return displayCall "number" (shown :: places ++ (colorArgument b).value)
  | .playTone => do
    let frequency ← integer b "FREQUENCY"
    let duration ← integer b "DURATION"
    tone frequency duration
  | .waitMs => do
    needModule .time
    return .expr (.call (.attribute (.name "time") "sleep_ms") [← integer b "MS"])
  | .ifElse => do
    let condition ← input b "IF"
    let suite ← body b "DO"
    if b.isPlugged "ELSE" then
      return .ifElse condition suite (some (← body b "ELSE"))
    else
      return .ifElse condition suite none
  | .repeatTimes => do
    let times ← integer b "TIMES"
    return .repeatTimes times (← body b "DO")
  | .printLine => do return .expr (.callName "print" [← input b "VALUE"])
  | .displayClear | .stopSound | .setLed => pure (statementOf none b).value
  | _ => do return .expr (← value b)
termination_by (sizeOf b, 1)

/-- The walk through blocks in a row. -/
def chain (bs : List Block) : Walk (List Stmt) :=
  match bs with
  | [] => pure []
  | b :: r => do return (← statement b) :: (← chain r)
termination_by (sizeOf bs, 0)

end

/-- The walk through the chains of a graph. -/
def chains : List Chain → Walk (List Stmt)
  | [] => pure []
  | c :: r => do return (← chain c.toList) ++ (← chains r)

/-- The code that is collected in a walk through a graph. -/
def generate (g : BlockGraph) : GeneratedCode :=
  let (ss, w) := (chains g.chains).run {}
  ⟨Stmt.text ss, w.needs⟩

/-! ## What walks give -/

/-- At a level, a walk gives `a`, whatever has been needed before. It adds `r` to that, and comes back with
the counter as it was. -/
def Gives {α : Type} (levels : Nat) (walk : Walk α) (a : α) (r : Requirements) : Prop :=
  ∀ w : Walker, maxNesting - w.depth = levels → walk.run w = (a, { w with needs := w.needs.union r })

section Gives

variable {α β : Type} {levels : Nat} {walk : Walk α} {a : α} {r r' : Requirements}

theorem Gives.adds (h : Gives levels walk a r) (hr : r' = r) : Gives levels walk a r' := hr ▸ h

theorem gives_pure (a : α) (hr : r = {}) : Gives levels (pure a) a r := by
  intro w _
  rw [hr, Requirements.union_empty]
  rfl

theorem Gives.bind {next : α → Walk β} {c : β} (h : Gives levels walk a r)
    (hnext : Gives levels (next a) c r') : Gives levels (walk >>= next) c (r.union r') := by
  intro w hw
  rw [StateT.run_bind, h w hw, ← Requirements.union_assoc]
  exact hnext _ hw

/-- What is made of what a walk gives. -/
theorem Gives.map (h : Gives levels walk a r) (f : α → β) :
    Gives levels (do return f (← walk)) (f a) r :=
  (h.bind (gives_pure (f a) rfl)).adds (Requirements.union_empty r).symm

theorem gives_needModule (m : ImportedModule) : Gives levels (needModule m) () (.addModule {} m) := by
  intro w _
  rw [← Requirements.addModule_eq_union]
  rfl

theorem gives_needHelper (h : Helper) : Gives levels (needHelper h) () (.addHelper {} h) := by
  intro w _
  rw [← Requirements.addHelper_eq_union]
  rfl

/-- One level deeper, the same is given, and the counter is set back. -/
theorem Gives.nested (h : Gives levels walk a r) : Gives (levels + 1) (nested walk) (some a) r := by
  intro w hw
  have hdepth : ¬ maxNesting ≤ w.depth := by omega
  have hrun := h { w with depth := w.depth + 1 } (by show maxNesting - (w.depth + 1) = levels; omega)
  show (if maxNesting ≤ w.depth then _ else _ : Walk (Option α)).run w = _
  rw [if_neg hdepth]
  simp only [StateT.run_bind, StateT.run_modify, pure_bind, hrun]
  rfl

theorem gives_nested_zero : Gives 0 (Walk.nested walk) none {} := by
  intro w hw
  have hdepth : maxNesting ≤ w.depth := by omega
  show (if maxNesting ≤ w.depth then _ else _ : Walk (Option α)).run w = _
  rw [if_pos hdepth]
  exact gives_pure none rfl w hw

theorem gives_tone (frequency duration : Expr) : Gives levels (tone frequency duration)
    (if duration.code == "0" then speakerCall "tone" [frequency]
      else .expr (.callName "play_tone_for" [frequency, duration]))
    (if duration.code == "0" then {} else .addHelper {} .toneFor) := by
  unfold tone
  split
  · exact gives_pure _ rfl
  · exact (gives_needHelper .toneFor).map _

end Gives

/-! ## Blocks -/

/-- The walks through the blocks one level deeper give what those are lowered to. -/
structure GivesBelow (levels : Nat) : Prop where
  value : ∀ n, levels = n + 1 → ∀ b,
    Gives n (value b) (valueOf (belowWith n) b).value (valueOf (belowWith n) b).value.needs
  chain : ∀ n, levels = n + 1 → ∀ bs,
    Gives n (chain bs) (statementsOf (belowWith n) bs).value
      (Stmt.suiteNeeds (statementsOf (belowWith n) bs).value)

section Blocks

variable {levels : Nat} (h : GivesBelow levels) (b : Block)

include h

theorem gives_input (socket : String) :
    Gives levels (input b socket) (inputOf (belowWith levels) b socket).value
      (inputOf (belowWith levels) b socket).value.needs := by
  unfold input inputOf
  cases hsocket : valueSocket? b socket with
  | none => exact gives_pure _ Expr.needs_none
  | some spec =>
    obtain ⟨check, default⟩ := spec
    have hdefault : default.needs = {} := needs_default hsocket
    dsimp only
    split
    · rename_i hinput
      rw [hinput]
      exact gives_pure _ hdefault
    · rename_i v hinput
      rw [hinput]
      exact gives_pure _ (needs_literalOf hdefault v)
    · rename_i child rest hinput
      rw [hinput]
      by_cases hstatement : child.kind.isStatement = true
      · simp only [if_pos hstatement]
        exact gives_pure _ hdefault
      · simp only [if_neg hstatement]
        -- where no level is left, the default stands in without a walk
        cases levels with
        | zero => exact (gives_nested_zero.map _).adds hdefault
        | succ n => exact ((h.value n rfl child).nested).map _

theorem gives_integer (socket : String) :
    Gives levels (integer b socket) (integerInput (belowWith levels) b socket).value
      (integerInput (belowWith levels) b socket).value.needs := by
  have hinput := gives_input h b socket
  unfold integer integerInput
  rw [Noted.value_bind]
  cases b.input? socket with
  | none => exact hinput.map id
  | some binding =>
    cases binding with
    | literal v => exact hinput.map id
    | chain child rest =>
      refine (hinput.map _).adds ?_
      rw [Noted.value_pure]
      split
      · rfl
      · rw [Expr.needs_callName (by decide)]
        simp

theorem gives_text (socket : String) :
    Gives levels (text b socket) (textInput (belowWith levels) b socket).value
      (textInput (belowWith levels) b socket).value.needs := by
  have hinput := gives_input h b socket
  unfold text textInput
  cases b.input? socket with
  | none => exact hinput
  | some binding =>
    cases binding with
    | literal v => exact gives_pure (Expr.text v.asText) rfl
    | chain child rest =>
      refine (hinput.map _).adds ?_
      rw [Noted.value_bind, Noted.value_pure]
      split
      · rfl
      · rw [Expr.needs_callName (by decide)]
        simp

theorem gives_integers (sockets : List String) :
    Gives levels (integers b sockets) (coordinates (belowWith levels) b sockets).value
      (Expr.argumentNeeds (coordinates (belowWith levels) b sockets).value) := by
  rw [integers, coordinates, Noted.value_forEach]
  induction sockets with
  | nil => exact gives_pure [] rfl
  | cons socket r ih =>
    rw [List.mapM_cons, List.map_cons, Expr.argumentNeeds_cons]
    exact (gives_integer h b socket).bind (ih.map _)

theorem gives_binary (op : BinaryOp) :
    Gives levels (binary b op) (binaryOf (belowWith levels) b op).value
      (binaryOf (belowWith levels) b op).value.needs := by
  rw [binary]
  exact ((gives_input h b "A").bind ((gives_input h b "B").map _)).adds (Expr.needs_binary op _ _)

/-- One level: the walk through a value block gives its expression, if those of the levels below do. -/
theorem gives_value :
    Gives levels (value b) (valueOf (belowWith levels) b).value (valueOf (belowWith levels) b).value.needs := by
  have hinput := gives_input h b
  have hinteger := gives_integer h b
  have hbinary := gives_binary h b
  have hrandom : (Expr.name "random").needs = .addModule {} .random := by decide
  unfold value
  cases hkind : b.kind with
  | randomInt =>
    rw [value_randomInt (belowWith levels) hkind]
    refine .adds (.bind (gives_needModule .random) (.bind (hinteger "FROM") ((hinteger "TO").map _))) ?_
    rw [Expr.needs_call, Expr.needs_attribute, hrandom]
    split
    · simp [Requirements.union_comm]
    · simp
  | shakeDetected =>
    simp only [valueOf, hkind]
    exact .adds ((gives_needHelper .shake).map _) (by decide)
  | arithmetic | compare | logicOp =>
    simp only [valueOf, hkind, Noted.value_bind]
    exact hbinary _
  | logicNot | negate =>
    simp only [valueOf, hkind, Noted.value_bind]
    exact (hinput _).map _
  | number =>
    simp only [valueOf, hkind]
    refine gives_pure _ ?_
    cases b.field? "NUM" with
    | none => rfl
    | some v =>
      cases hnumber : v.asNumber? with
      | none =>
        simp only [hnumber]
        rfl
      | some x =>
        simp only [hnumber]
        exact Expr.needs_ofNumber x
  | boolean =>
    simp only [valueOf, hkind]
    exact gives_pure _ (Expr.needs_ofBool _)
  | buttonPressed | accelRead | text =>
    simp only [valueOf, hkind, Noted.value_bind, Noted.value_pure]
    exact gives_pure _ (by simp [Expr.board])
  | _ =>
    simp only [valueOf, hkind]
    exact gives_pure _ Expr.needs_none

/-- What stands in a suite. -/
theorem gives_body (socket : String) :
    Gives levels (body b socket) (bodyOf (belowWith levels) b socket).value
      (Stmt.suiteNeeds (bodyOf (belowWith levels) b socket).value) := by
  have hpass : Gives levels (pure [Stmt.pass]) [Stmt.pass] (Stmt.suiteNeeds [Stmt.pass]) :=
    gives_pure _ Stmt.suiteNeeds_pass
  unfold body bodyOf
  split
  · rename_i first rest hinput
    rw [hinput]
    by_cases hstatement : first.kind.isStatement = true
    · simp only [if_pos hstatement]
      cases levels with
      | zero => exact .adds (gives_nested_zero.map _) Stmt.suiteNeeds_pass
      | succ n => exact ((h.chain n rfl (first :: rest)).nested).map _
    · simp only [if_neg hstatement]
      exact hpass
  · rename_i hother
    cases hinput : b.input? socket with
    | none => exact hpass
    | some binding =>
      cases binding with
      | literal v => exact hpass
      | chain first rest => exact absurd hinput (hother first rest)

/-- One level: the walk through a block where a statement stands gives its statement, if those of the levels
below do. -/
theorem gives_statement :
    Gives levels (statement b) (statementOf (belowWith levels) b).value
      (statementOf (belowWith levels) b).value.needs := by
  have hinput := gives_input h b
  have hinteger := gives_integer h b
  have hplaces := gives_integers h b
  have htext := gives_text h b
  have hsuite := gives_body h b
  have hvalue := gives_value h b
  have htime : (Expr.name "time").needs = .addModule {} .time := by decide
  have htone : (Expr.name "play_tone_for").needs = .addHelper {} .toneFor := by decide
  unfold statement
  cases hkind : b.kind with
  | displayText =>
    simp only [statementOf, hkind, Noted.value_bind, Noted.value_pure]
    refine .adds (.bind (htext "TEXT") ((hplaces ["X", "Y"]).map _)) ?_
    simp [displayCall, Expr.board]
  | displayRect =>
    simp only [statementOf, hkind, Noted.value_bind, Noted.value_pure]
    refine .adds ((hplaces ["X", "Y", "W", "H"]).map _) ?_
    simp [displayCall, Expr.board]
  | displayCircle =>
    simp only [statementOf, hkind, Noted.value_bind, Noted.value_pure]
    refine .adds ((hplaces ["X", "Y", "R"]).map _) ?_
    simp [displayCall, Expr.board]
  | displayNumber =>
    simp only [statementOf, hkind, Noted.value_bind, Noted.value_pure]
    refine .adds (.bind (hinput "VALUE") ((hplaces ["X", "Y"]).map _)) ?_
    simp [displayCall, Expr.board]
  | playTone =>
    simp only [statementOf, hkind, Noted.value_bind, Noted.value_pure]
    refine .adds (.bind (hinteger "FREQUENCY") (.bind (hinteger "DURATION") (gives_tone _ _))) ?_
    split
    · rename_i hzero
      -- a duration that is left out needs nothing
      have hduration := (known_integerInput (known_belowWith levels) b "DURATION").needs_of_code_zero
        (eq_of_beq hzero)
      simp [speakerCall, Expr.board, hduration]
    · simp [Expr.callName, htone, Requirements.union_comm, Requirements.union_left_comm]
  | waitMs =>
    simp only [statementOf, hkind, Noted.value_bind, Noted.value_pure]
    refine .adds (.bind (gives_needModule .time) ((hinteger "MS").map _)) ?_
    simp [htime]
  | ifElse =>
    rw [value_statementOf_ifElse (belowWith levels) hkind]
    by_cases hplugged : b.isPlugged "ELSE" = true
    · simp only [if_pos hplugged]
      exact .adds (.bind (hinput "IF") (.bind (hsuite "DO") ((hsuite "ELSE").map _)))
        (Stmt.needs_ifElse_some _ _ _)
    · simp only [if_neg hplugged]
      exact .adds (.bind (hinput "IF") ((hsuite "DO").map _)) (Stmt.needs_ifElse _ _)
  | repeatTimes =>
    rw [value_statementOf_repeatTimes (belowWith levels) hkind]
    exact .adds (.bind (hinteger "TIMES") ((hsuite "DO").map _)) (Stmt.needs_repeatTimes _ _)
  | printLine =>
    simp only [statementOf, hkind, Noted.value_bind, Noted.value_pure]
    refine .adds ((hinput "VALUE").map _) ?_
    rw [Stmt.needs_expr, Expr.needs_callName (by decide)]
    simp
  | displayClear | stopSound | setLed =>
    simp only [statementOf, hkind, Noted.value_bind, Noted.value_pure]
    exact gives_pure _ (by simp [displayCall, speakerCall, colorConstant, Expr.board])
  | _ =>
    simp only [statementOf, hkind, Noted.value_bind, Noted.value_pure]
    exact hvalue.map _

/-- One level: the walk through blocks in a row gives their statements. -/
theorem gives_chain (bs : List Block) :
    Gives levels (chain bs) (statementsOf (belowWith levels) bs).value
      (Stmt.suiteNeeds (statementsOf (belowWith levels) bs).value) := by
  rw [value_statementsOf]
  induction bs with
  | nil =>
    rw [chain]
    exact gives_pure [] rfl
  | cons b r ih =>
    rw [chain, List.map_cons, Stmt.suiteNeeds_cons]
    exact (gives_statement h b).bind (ih.map _)

end Blocks

/-- By induction on the levels that are left, not on the blocks: a walk one socket deeper has one less. -/
theorem givesBelow (levels : Nat) : GivesBelow levels := by
  induction levels with
  | zero => exact ⟨nofun, nofun⟩
  | succ n ih =>
    refine ⟨?_, ?_⟩
    · rintro m ⟨⟩ b
      exact gives_value ih b
    · rintro m ⟨⟩ bs
      exact gives_chain ih bs

/-- The walk through chain after chain gives the statements of all their blocks. -/
theorem gives_chains (levels : Nat) (cs : List Chain) :
    Gives levels (chains cs) (statementsOf (belowWith levels) (cs.flatMap Chain.toList)).value
      (Stmt.suiteNeeds (statementsOf (belowWith levels) (cs.flatMap Chain.toList)).value) := by
  induction cs with
  | nil => exact gives_pure [] rfl
  | cons c r ih =>
    rw [value_statementsOf, List.flatMap_cons, List.map_append, Stmt.suiteNeeds_append,
      ← value_statementsOf, ← value_statementsOf]
    exact (gives_chain (givesBelow levels) c.toList).bind (ih.map _)

theorem generate_eq (g : BlockGraph) : generate g = g.generate := by
  have hrun := gives_chains maxNesting g.chains {} rfl
  rw [generate, hrun, BlockGraph.generate_eq, chainCode, GeneratedCode.ofStmts]
  exact congrArg (GeneratedCode.mk _) (Requirements.empty_union _)

end Walk

/-- **Code is put together from the code of blocks alone.**

- The code of a graph, with the chains of another one after its own, is the code of the one and then that of
  the other, and what is needed is what either needs.
- With any number of levels left, the code of blocks in a row is the code of each of them alone, one after
  the other.
- All this is what is collected in a walk through the graph. Wherever it is, with whatever record of what has
  been needed, the walk through a block gives what the block is lowered to at its level. It adds to the record
  what that needs, and the counter is the same as before. -/
theorem generation_composes :
    (∀ g g' : BlockGraph, (g ++ g').generate.body = g.generate.body ++ g'.generate.body ∧
      (g ++ g').generate.needs = g.generate.needs.union g'.generate.needs) ∧
    (∀ (levels : Nat) (bs : List Block),
      chainCode levels bs = (bs.map fun b => chainCode levels [b]).foldr (· ++ ·) ∅) ∧
    (∀ g : BlockGraph, Walk.generate g = g.generate) ∧
    ∀ (w : Walker) (b : Block),
      (Walk.statement b).run w =
        ((statementOf (belowWith (maxNesting - w.depth)) b).value,
          { w with needs := w.needs.union (statementOf (belowWith (maxNesting - w.depth)) b).value.needs }) ∧
      (Walk.value b).run w =
        ((valueOf (belowWith (maxNesting - w.depth)) b).value,
          { w with needs := w.needs.union (valueOf (belowWith (maxNesting - w.depth)) b).value.needs }) := by
  refine ⟨fun g g' => ?_, chainCode_eq_foldr, Walk.generate_eq, fun w b => ?_⟩
  · rw [BlockGraph.generate_append]
    exact ⟨rfl, rfl⟩
  · have hbelow := Walk.givesBelow (maxNesting - w.depth)
    exact ⟨Walk.gives_statement hbelow b w rfl, Walk.gives_value hbelow b w rfl⟩

end BlockBoard
