import BlockBoard.Program.Requirements
import BlockBoard.Proofs.Program.Integers
import BlockBoard.Proofs.Script.Outline
/-!
# Blocks that are nested too deeply

Blocks are followed through a number of sockets inside sockets, and a default stands in for what is deeper.
Still something is seen of what is deeper: whether it would have to be converted, to an integer or to a text,
is decided by looking at it, behind any number of signs, and the default is converted in its place. This module
says that nothing else is seen.

- `BlockGraph.prune`: a graph with something else in place of all that is deeper than a number of levels.
- `Block.seen`: what is seen of a block that is too deep.
- `KeptBelow`: the blocks of the levels below are lowered as if they had been pruned.
- `value_statementOf_prune`: one block, from those of the levels below.
- `BlockGraph.generate_eq_of_prune_eq`: **what is too deep counts for nothing but for its conversion**.
- `conversion_seen`: two blocks that are too deep, and two programs.
-/

namespace BlockBoard

/-! ## Pruned graphs -/

/-- What is plugged into a socket, with the blocks one level deeper pruned, or with a block that stands in
for them where no level is left. -/
def Binding.prune (standIn : Block → Block) (deeper : Option (Block → Block)) : Binding → Binding
  | .literal v => .literal v
  | .chain first rest =>
    match deeper with
    | some cut => .chain (cut first) (rest.map cut)
    | none => .chain (standIn first) []

/-- A block, with what is plugged into its sockets pruned. What stands in for a block may depend on the
socket. -/
def Block.pruneWith (standIn : String → Block → Block) (deeper : Option (Block → Block)) (b : Block) :
    Block :=
  .mk b.kind b.id b.fields (b.inputs.map fun entry =>
    (entry.1, entry.2.prune (standIn entry.1) deeper))

/-- How blocks below are pruned, with a number of levels left. -/
def pruneBelow (standIn : String → Block → Block) : Nat → Option (Block → Block)
  | 0 => none
  | n + 1 => some (Block.pruneWith standIn (pruneBelow standIn n))

/-- A block with a number of levels kept below it. -/
def Block.prune (standIn : String → Block → Block) (levels : Nat) (b : Block) : Block :=
  b.pruneWith standIn (pruneBelow standIn levels)

/-- A graph with a number of levels kept. -/
def BlockGraph.prune (standIn : String → Block → Block) (levels : Nat) (g : BlockGraph) : BlockGraph :=
  ⟨g.chains.map fun c => ⟨c.first.prune standIn levels, c.rest.map (Block.prune standIn levels)⟩⟩

/-- What is seen of a block that is too deep for a socket: in place of a text, whether it is one; in place
of an integer, and behind a sign, whether it is known to be one. Elsewhere nothing is seen of it. -/
def Block.seen (socket : String) (b : Block) : Block :=
  .mk (if socket = "TEXT" then if b.kind.definition.shape = .value .text then .text else .boolean
    else if socket ∈ "NUM" :: integerSockets then if b.producesInteger then .number else .boolean
    else .number) none [] []

section Pruned

variable (standIn : String → Block → Block) (deeper : Option (Block → Block)) (b : Block)

@[simp] theorem Block.pruneWith_kind : (b.pruneWith standIn deeper).kind = b.kind := rfl

theorem Block.pruneWith_input? (socket : String) : (b.pruneWith standIn deeper).input? socket =
    (b.input? socket).map (Binding.prune (standIn socket) deeper) := by
  show (b.inputs.map _).lookup socket = (b.inputs.lookup socket).map _
  induction b.inputs with
  | nil => rfl
  | cons entry r ih =>
    obtain ⟨name, binding⟩ := entry
    rw [List.map_cons, List.lookup_cons, List.lookup_cons]
    by_cases h : socket = name
    · subst h
      simp
    · rw [beq_eq_false_iff_ne.mpr h]
      exact ih

end Pruned

/-! ## What is seen -/

theorem producesInteger_seen {socket : String} (h : socket ∈ "NUM" :: integerSockets) (b : Block) :
    (b.seen socket).producesInteger = b.producesInteger := by
  have htext : socket ≠ "TEXT" := by
    rintro rfl
    exact absurd h (by decide)
  rw [Block.seen, if_neg htext, if_pos h]
  cases b.producesInteger <;> decide

theorem shape_seen (b : Block) : (b.seen "TEXT").kind.definition.shape = .value .text ↔
    b.kind.definition.shape = .value .text := by
  rw [Block.seen, if_pos rfl]
  by_cases h : b.kind.definition.shape = .value .text
  · rw [if_pos h]
    exact iff_of_true rfl h
  · rw [if_neg h]
    exact iff_of_false (by decide) h

/-- Behind a sign stands an integer if what is plugged in is one. -/
theorem producesInteger_negate {b : Block} (hkind : b.kind = .negate) :
    b.producesInteger = (b.input? "NUM").all Binding.producesInteger := by
  obtain ⟨kind, id, fields, inputs⟩ := b
  obtain rfl : kind = .negate := hkind
  exact operandProducesInteger_eq inputs

/-- Pruning does not change whether a block is known to stand for an integer: what is looked for behind a
sign is seen there. -/
theorem producesInteger_pruneWith {deeper : Option (Block → Block)}
    (h : ∀ cut ∈ deeper, ∀ child, (cut child).producesInteger = child.producesInteger) (b : Block) :
    (b.pruneWith Block.seen deeper).producesInteger = b.producesInteger := by
  obtain ⟨kind, id, fields, inputs⟩ := b
  cases kind with
  | negate =>
    rw [producesInteger_negate rfl, producesInteger_negate rfl, Block.pruneWith_input?]
    cases (Block.mk .negate id fields inputs).input? "NUM" with
    | none => rfl
    | some binding =>
      cases binding with
      | literal v => rfl
      | chain first rest =>
        cases deeper with
        | none => exact producesInteger_seen List.mem_cons_self first
        | some cut => exact h cut rfl first
  | _ => rfl

theorem producesInteger_pruneBelow (levels : Nat) :
    ∀ cut ∈ pruneBelow Block.seen levels, ∀ child, (cut child).producesInteger = child.producesInteger := by
  induction levels with
  | zero => nofun
  | succ n ih =>
    intro cut hcut child
    obtain rfl := Option.some.inj hcut
    exact producesInteger_pruneWith ih child

/-! ## Blocks -/

/-- The blocks of the levels below are lowered as if they had been pruned. -/
inductive KeptBelow : Option Below → Option (Block → Block) → Prop
  | none : KeptBelow none none
  | some {level : Below} {cut : Block → Block}
      (kinds : ∀ child, (cut child).kind = child.kind)
      (integers : ∀ child, (cut child).producesInteger = child.producesInteger)
      (values : ∀ child, (level.value (cut child)).value = (level.value child).value)
      (chains : ∀ bs, (level.chain (bs.map cut)).value = (level.chain bs).value) :
      KeptBelow (some level) (some cut)

section Blocks

variable {below : Option Below} {deeper : Option (Block → Block)} (h : KeptBelow below deeper) (b : Block)

include h

theorem value_inputOf_prune (socket : String) :
    (inputOf below (b.pruneWith Block.seen deeper) socket).value = (inputOf below b socket).value := by
  have hsocket : valueSocket? (b.pruneWith Block.seen deeper) socket = valueSocket? b socket := rfl
  unfold inputOf
  rw [hsocket, Block.pruneWith_input?]
  cases valueSocket? b socket with
  | none => rfl
  | some spec =>
    obtain ⟨check, default⟩ := spec
    cases b.input? socket with
    | none => rfl
    | some binding =>
      cases binding with
      | literal v => rfl
      | chain child rest =>
        cases h with
        | none =>
          -- the default stands in for both, whatever they are
          simp only [Option.map_some, Binding.prune]
          split <;> split <;> rfl
        | some kinds _ values _ =>
          simp only [Option.map_some, Binding.prune, kinds]
          split
          · rfl
          · exact values child

theorem value_integerInput_prune (socket : String) (hsocket : socket ∈ integerSockets) :
    (integerInput below (b.pruneWith Block.seen deeper) socket).value =
      (integerInput below b socket).value := by
  have hinput := value_inputOf_prune h b socket
  unfold integerInput
  rw [Noted.value_bind, Noted.value_bind, hinput, Block.pruneWith_input?]
  cases b.input? socket with
  | none => rfl
  | some binding =>
    cases binding with
    | literal v => rfl
    | chain child rest =>
      cases h with
      | none =>
        simp only [Option.map_some, Binding.prune, producesInteger_seen (List.mem_cons_of_mem _ hsocket)]
      | some _ integers _ _ => simp only [Option.map_some, Binding.prune, integers]

theorem value_textInput_prune :
    (textInput below (b.pruneWith Block.seen deeper) "TEXT").value = (textInput below b "TEXT").value := by
  have hinput := value_inputOf_prune h b "TEXT"
  unfold textInput
  rw [Block.pruneWith_input?]
  cases hb : b.input? "TEXT" with
  | none => exact hinput
  | some binding =>
    cases binding with
    | literal v => rfl
    | chain child rest =>
      cases h with
      | none =>
        simp only [Option.map_some, Binding.prune, Noted.value_bind, hinput, shape_seen]
      | some kinds _ _ _ => simp only [Option.map_some, Binding.prune, Noted.value_bind, hinput, kinds]

theorem value_coordinates_prune (sockets : List String) (hsockets : ∀ s ∈ sockets, s ∈ integerSockets) :
    (coordinates below (b.pruneWith Block.seen deeper) sockets).value =
      (coordinates below b sockets).value := by
  rw [coordinates, coordinates, Noted.value_forEach, Noted.value_forEach]
  exact List.map_congr_left fun s hs => value_integerInput_prune h b s (hsockets s hs)

theorem value_bodyOf_prune (socket : String) :
    (bodyOf below (b.pruneWith Block.seen deeper) socket).value = (bodyOf below b socket).value := by
  unfold bodyOf
  rw [Block.pruneWith_input?]
  cases b.input? socket with
  | none => rfl
  | some binding =>
    cases binding with
    | literal v => rfl
    | chain first rest =>
      cases h with
      | none =>
        simp only [Option.map_some, Binding.prune]
        split <;> split <;> rfl
      | some kinds _ _ chains =>
        simp only [Option.map_some, Binding.prune, kinds]
        split
        · exact chains (first :: rest)
        · rfl

/-- One level: where the blocks below count as if they had been pruned, so does what is plugged into a value
block. -/
theorem value_valueOf_prune :
    (valueOf below (b.pruneWith Block.seen deeper)).value = (valueOf below b).value := by
  have hinput := value_inputOf_prune h b
  have hinteger := value_integerInput_prune h b
  have hchoice : ∀ name, choiceOf (b.pruneWith Block.seen deeper) name = choiceOf b name := fun _ => rfl
  have hfield : ∀ name, (b.pruneWith Block.seen deeper).field? name = b.field? name := fun _ => rfl
  have hkind' := b.pruneWith_kind Block.seen deeper
  cases hkind : b.kind with
  | randomInt =>
    rw [value_randomInt _ (hkind'.trans hkind), value_randomInt _ hkind, hinteger "FROM" (by decide),
      hinteger "TO" (by decide)]
  | arithmetic | compare | logicOp =>
    simp only [valueOf, binaryOf, hkind', hkind, Noted.value_bind, Noted.value_pure, hchoice, hinput]
  | logicNot | negate => simp only [valueOf, hkind', hkind, Noted.value_bind, Noted.value_pure, hinput]
  | _ => simp only [valueOf, hkind', hkind, hchoice, hfield] <;> rfl

/-- One level: where the blocks below count as if they had been pruned, so does what is plugged into a
block. -/
theorem value_statementOf_prune :
    (statementOf below (b.pruneWith Block.seen deeper)).value = (statementOf below b).value := by
  have hinput := value_inputOf_prune h b
  have hinteger := value_integerInput_prune h b
  have hplaces := value_coordinates_prune h b
  have hbody := value_bodyOf_prune h b
  have htext := value_textInput_prune h b
  have hvalue := value_valueOf_prune h b
  have hchoice : ∀ name, choiceOf (b.pruneWith Block.seen deeper) name = choiceOf b name := fun _ => rfl
  have hcolor : colorArgument (b.pruneWith Block.seen deeper) = colorArgument b := rfl
  have hfilled : isFilled (b.pruneWith Block.seen deeper) = isFilled b := rfl
  have hkind' := b.pruneWith_kind Block.seen deeper
  cases hkind : b.kind with
  | displayText =>
    simp only [statementOf, hkind', hkind, Noted.value_bind, Noted.value_pure, htext, hcolor,
      hplaces ["X", "Y"] (by decide)]
  | displayClear => simp only [statementOf, hkind', hkind, hcolor]
  | displayRect =>
    simp only [statementOf, hkind', hkind, Noted.value_bind, Noted.value_pure, hfilled, hcolor,
      hplaces ["X", "Y", "W", "H"] (by decide)]
  | displayCircle =>
    simp only [statementOf, hkind', hkind, Noted.value_bind, Noted.value_pure, hfilled, hcolor,
      hplaces ["X", "Y", "R"] (by decide)]
  | displayNumber =>
    simp only [statementOf, hkind', hkind, Noted.value_bind, Noted.value_pure, hinput, hcolor,
      hplaces ["X", "Y"] (by decide)]
  | playTone =>
    simp only [statementOf, hkind', hkind, Noted.value_bind, Noted.value_pure,
      hinteger "FREQUENCY" (by decide), hinteger "DURATION" (by decide)]
  | stopSound => simp only [statementOf, hkind', hkind]
  | setLed => simp only [statementOf, hkind', hkind, hchoice]
  | waitMs =>
    simp only [statementOf, hkind', hkind, Noted.value_bind, Noted.value_pure, hinteger "MS" (by decide)]
  | ifElse =>
    simp only [statementOf, hkind', hkind, Noted.value_bind, hinput, hbody, Block.pruneWith_input?]
    cases b.input? "ELSE" with
    | none => rfl
    | some binding =>
      cases binding with
      | literal v => rfl
      | chain first rest =>
        cases h <;> simp only [Option.map_some, Binding.prune, Noted.value_bind, Noted.value_pure, hbody]
  | repeatTimes =>
    simp only [statementOf, hkind', hkind, Noted.value_bind, Noted.value_pure, hbody,
      hinteger "TIMES" (by decide)]
  | printLine => simp only [statementOf, hkind', hkind, Noted.value_bind, Noted.value_pure, hinput]
  | _ => simp only [statementOf, hkind', hkind, Noted.value_bind, Noted.value_pure, hvalue]

end Blocks

/-! ## Graphs -/

theorem value_statementsOf_prune {below : Option Below} {deeper : Option (Block → Block)}
    (h : KeptBelow below deeper) (bs : List Block) :
    (statementsOf below (bs.map (Block.pruneWith Block.seen deeper))).value =
      (statementsOf below bs).value := by
  rw [statementsOf, statementsOf, Noted.value_forEach, Noted.value_forEach, List.map_map]
  exact List.map_congr_left fun b _ => value_statementOf_prune h b

theorem keptBelow_belowWith (levels : Nat) :
    KeptBelow (belowWith levels) (pruneBelow Block.seen levels) := by
  induction levels with
  | zero => exact .none
  | succ n ih =>
    exact .some (fun _ => rfl) (producesInteger_pruneBelow (n + 1) _ rfl) (value_valueOf_prune ih)
      (value_statementsOf_prune ih)

/-- The blocks of a pruned graph. -/
theorem BlockGraph.flatMap_toList_prune (standIn : String → Block → Block) (levels : Nat) (g : BlockGraph) :
    (g.prune standIn levels).chains.flatMap Chain.toList =
      (g.chains.flatMap Chain.toList).map (Block.prune standIn levels) := by
  rw [prune, List.flatMap_map, List.map_flatMap]
  rfl

/-- **What is too deep counts for nothing but for its conversion.**

Two graphs that are the same down to the levels that are followed, and whose blocks right behind the last
sockets are seen alike, have the same code and the same needs. For a block in place of an integer, or behind a
sign, that is whether it is known to be an integer; for one in place of a text, whether it is a text; for all
others, and for everything that is still deeper, it is nothing at all. -/
theorem BlockGraph.generate_eq_of_prune_eq {g g' : BlockGraph}
    (h : g.prune Block.seen maxNesting = g'.prune Block.seen maxNesting) : g.generate = g'.generate := by
  have hprune : ∀ g : BlockGraph, (g.prune Block.seen maxNesting).generate = g.generate := by
    intro g
    have hvalue : (g.prune Block.seen maxNesting).lower.value = g.lower.value := by
      rw [lower, lower, flatMap_toList_prune]
      exact value_statementsOf_prune (keptBelow_belowWith maxNesting) _
    rw [generate, generate, hvalue]
  rw [← hprune g, h, hprune g']

/-- A block in a number of loops inside loops. -/
def loopsAround : Nat → Block → Block
  | 0, b => b
  | n + 1, b => .mk .repeatTimes none [] [("DO", .chain (loopsAround n b) [])]

theorem prune_loopsAround (standIn : String → Block → Block) (n : Nat) (b : Block) :
    (loopsAround n b).prune standIn n = loopsAround n (b.pruneWith standIn none) := by
  induction n with
  | zero => rfl
  | succ n ih =>
    rw [loopsAround, loopsAround, ← ih]
    rfl

/-- A tone in as many loops as are followed, with a block of some kind as its duration. -/
def buriedTone (k : BlockKind) : BlockGraph :=
  ⟨[⟨loopsAround maxNesting (.mk .playTone none [] [("DURATION", .chain (.mk k none [] []) [])]), []⟩]⟩

theorem prune_buriedTone (standIn : String → Block → Block) (k : BlockKind) :
    (buriedTone k).prune standIn maxNesting =
      ⟨[⟨loopsAround maxNesting (.mk .playTone none []
        [("DURATION", .chain (standIn "DURATION" (.mk k none [] [])) [])]), []⟩]⟩ := by
  show BlockGraph.mk [⟨(loopsAround maxNesting _).prune standIn maxNesting, []⟩] = _
  rw [prune_loopsAround]
  rfl

/-- A shake and an acceleration are seen alike, and neither is lowered. -/
theorem generate_buriedTone_shake :
    (buriedTone .shakeDetected).prune Block.seen maxNesting =
      (buriedTone .accelRead).prune Block.seen maxNesting ∧
    (buriedTone .shakeDetected).generate = (buriedTone .accelRead).generate := by
  have hprune : (buriedTone .shakeDetected).prune Block.seen maxNesting =
      (buriedTone .accelRead).prune Block.seen maxNesting := by
    rw [prune_buriedTone, prune_buriedTone]
    rfl
  exact ⟨hprune, BlockGraph.generate_eq_of_prune_eq hprune⟩

/-- Two graphs that differ only in a block that is too deep. It is replaced by the default in both, but one
default is converted: it no longer counts as a tone without a duration, and the program needs what tones with
one need. -/
theorem conversion_seen :
    ((buriedTone .randomInt).prune (fun _ _ => .mk .number none [] []) maxNesting =
      (buriedTone .accelRead).prune (fun _ _ => .mk .number none [] []) maxNesting) ∧
    (buriedTone .randomInt).generate.needs = {} ∧
    (buriedTone .accelRead).generate.needs = { time := true, toneFor := true } ∧
    (buriedTone .randomInt).generate.body ≠ (buriedTone .accelRead).generate.body := by
  refine ⟨?_, by decide +kernel, by decide +kernel, fun h => ?_⟩
  · rw [prune_buriedTone, prune_buriedTone]
  · have hlines : ∀ g : BlockGraph, lines g.generate.body = Stmt.suiteLines g.lower.value :=
      fun g => Stmt.lines_text g.proper_lower
    have hlast : (Stmt.suiteLines (buriedTone .randomInt).lower.value).getLast? ≠
        (Stmt.suiteLines (buriedTone .accelRead).lower.value).getLast? := by decide +kernel
    exact hlast (by rw [← hlines, ← hlines, h])

end BlockBoard
