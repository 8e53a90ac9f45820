import BlockBoard.Proofs.Json.Number
import BlockBoard.Proofs.Json.Record
/-!
# Graphs are read from their documents

What is read from the document of a graph is the graph with each of its values as it is read by itself.

- `Block.Sorted`: blocks whose fields and sockets are in order, as they are in every graph.
- `Block.traverse`, `Block.values`: the values in a block, and a block with each of them replaced.
- `FieldValue.reread?`: a value as it is read back.
- `Block.readsBack`, `Chain.read?_toJson`: **a chain is read from its document, value by value**.
- `BlockGraph.ofText_toText_eq`: a graph is read from its text, value by value.
- `FieldValue.Short`: values that are read back as they are.
- `BlockGraph.ofText_toText`: **a graph is read back from its text exactly if each of its values is**.
-/

namespace BlockBoard

/-! ## Values in blocks -/

/-- The fields and the sockets of a block, and of the blocks in its sockets, are in the order of their
names. -/
inductive Block.Sorted : Block → Prop
  | mk {kind : BlockKind} {id : Option String} {fields : List (String × FieldValue)}
    {inputs : List (String × Binding)} (hfields : Ordered fields) (hinputs : Ordered inputs)
    (hfirst : ∀ e ∈ inputs, ∀ first rest, e.2 = .chain first rest → Sorted first)
    (hrest : ∀ e ∈ inputs, ∀ first rest, e.2 = .chain first rest → ∀ b ∈ rest, Sorted b) :
    Sorted (.mk kind id fields inputs)

/-- All blocks of a graph are sorted. -/
def BlockGraph.Sorted (g : BlockGraph) : Prop := ∀ c ∈ g.chains, ∀ b ∈ c.toList, b.Sorted

mutual

/-- A block with each of its values replaced, if each of them can be. -/
def Block.traverse (f : FieldValue → Option FieldValue) : Block → Option Block
  | .mk kind id fields inputs => do
    let fields ← fields.mapM fun e => (f e.2).map (e.1, ·)
    let inputs ← traverseInputs f inputs
    return .mk kind id fields inputs

/-- What is plugged into a socket, with each of its values replaced. -/
def Binding.traverse (f : FieldValue → Option FieldValue) : Binding → Option Binding
  | .literal v => (f v).map .literal
  | .chain first rest => do return .chain (← first.traverse f) (← traverseBlocks f rest)

/-- Blocks in a row, with each of their values replaced. -/
def traverseBlocks (f : FieldValue → Option FieldValue) : List Block → Option (List Block)
  | [] => some []
  | b :: r => do return (← b.traverse f) :: (← traverseBlocks f r)

/-- What is plugged into several sockets, with each of its values replaced. -/
def traverseInputs (f : FieldValue → Option FieldValue) :
    List (String × Binding) → Option (List (String × Binding))
  | [] => some []
  | (k, v) :: r => do return (k, ← v.traverse f) :: (← traverseInputs f r)

end

/-- A chain with each of its values replaced. -/
def Chain.traverse (f : FieldValue → Option FieldValue) (c : Chain) : Option Chain := do
  return ⟨← c.first.traverse f, ← traverseBlocks f c.rest⟩

/-- A graph with each of its values replaced. -/
def BlockGraph.traverse (f : FieldValue → Option FieldValue) (g : BlockGraph) : Option BlockGraph := do
  return ⟨← g.chains.mapM (Chain.traverse f)⟩

mutual

/-- The values in a block and in the blocks in its sockets. -/
def Block.values : Block → List FieldValue
  | .mk _ _ fields inputs => fields.map Prod.snd ++ valuesOfInputs inputs

/-- The values in what is plugged into a socket. -/
def Binding.values : Binding → List FieldValue
  | .literal v => [v]
  | .chain first rest => first.values ++ valuesOfBlocks rest

/-- The values in blocks in a row. -/
def valuesOfBlocks : List Block → List FieldValue
  | [] => []
  | b :: r => b.values ++ valuesOfBlocks r

/-- The values in what is plugged into several sockets. -/
def valuesOfInputs : List (String × Binding) → List FieldValue
  | [] => []
  | (_, v) :: r => v.values ++ valuesOfInputs r

end

/-- The values in a graph. -/
def BlockGraph.values (g : BlockGraph) : List FieldValue := g.chains.flatMap fun c => valuesOfBlocks c.toList

theorem traverseInputs_eq_mapM (f : FieldValue → Option FieldValue) (inputs : List (String × Binding)) :
    traverseInputs f inputs = inputs.mapM fun e => (e.2.traverse f).map (e.1, ·) := by
  induction inputs with
  | nil => rw [traverseInputs]; rfl
  | cons e r ih =>
    obtain ⟨k, v⟩ := e
    rw [traverseInputs, ih, List.mapM_cons, Option.map_eq_bind]
    cases v.traverse f <;> rfl

/-! ## Documents of blocks -/

theorem bindingsToJson_eq_map (inputs : List (String × Binding)) :
    bindingsToJson inputs = inputs.map fun e => Json.member e.1 e.2.toJson := by
  induction inputs with
  | nil => rw [bindingsToJson]; rfl
  | cons e r ih =>
    obtain ⟨k, v⟩ := e
    rw [bindingsToJson, ih, List.map_cons]

/-- A block as a record. -/
def Block.fieldsOfDocument (kind : BlockKind) (id : Option String) (fields : List (String × FieldValue))
    (inputs : List (String × Binding)) (next : Option Json) : List (String × Option Json) :=
  [("kind", some (.text kind.name)), ("id", id.map .text),
    ("fields", if fields.isEmpty then none
      else some (.object (fields.map fun e => Json.member e.1 e.2.toJson))),
    ("inputs", if inputs.isEmpty then none
      else some (.object (inputs.map fun e => Json.member e.1 e.2.toJson))),
    ("next", next)]

theorem Block.toJson_eq_record (kind : BlockKind) (id : Option String)
    (fields : List (String × FieldValue)) (inputs : List (String × Binding)) (next : Option Json) :
    (Block.mk kind id fields inputs).toJson next =
      .object (Json.record (fieldsOfDocument kind id fields inputs next)) := by
  rw [Block.toJson.eq_def]
  dsimp only
  rw [bindingsToJson_eq_map]
  cases id <;> cases fields <;> cases inputs <;> cases next <;> rfl

/-- What is in an object or an array is nested less deeply. -/
theorem Json.depth_lt_of_mem_members {members : List (Option String × Json)} {m : Option String × Json}
    (h : m ∈ members) : m.2.depth < (Json.object members).depth := by
  rw [Json.depth]
  induction members with
  | nil => cases h
  | cons m' r ih =>
    obtain ⟨k, v⟩ := m'
    rw [Json.depthOfMembers]
    rcases List.mem_cons.mp h with rfl | h
    · dsimp only
      omega
    · have := ih h
      omega

theorem Json.depth_lt_of_mem_items {items : List Json} {v : Json} (h : v ∈ items) :
    v.depth < (Json.array items).depth := by
  rw [Json.depth]
  induction items with
  | nil => cases h
  | cons v' r ih =>
    rw [Json.depthOfItems]
    rcases List.mem_cons.mp h with rfl | h
    · omega
    · have := ih h
      omega

/-- The value of a field is nested less deeply than the record. -/
theorem Json.depth_lt_of_mem_record {fs : List (String × Option Json)} {name : String} {v : Json}
    (h : (name, some v) ∈ fs) : v.depth < (Json.object (Json.record fs)).depth :=
  Json.depth_lt_of_mem_members (m := (some name, v))
    (List.mem_filterMap.mpr ⟨_, h, rfl⟩)

/-! ## Reading values -/

/-- A value as it is read back from its document. -/
def FieldValue.reread? (v : FieldValue) : Option FieldValue := FieldValue.ofJson? v.toJson

/-- What is read from the document of a block is the block, each of its values as it is read back, and
what is read from the document of the block that follows it. -/
def Block.ReadsBack (b : Block) : Prop :=
  ∀ (fuel : Nat) (next : Option Json), (b.toJson next).depth ≤ fuel + 1 →
    Chain.read? (fuel + 1) (b.toJson next) = do
      let b' ← b.traverse FieldValue.reread?
      let c ← Json.optional? (Chain.read? fuel) next
      return ⟨b', (c.map Chain.toList).getD []⟩

theorem Block.depth_pos (b : Block) (next : Option Json) : 0 < (b.toJson next).depth := by
  obtain ⟨kind, id, fields, inputs⟩ := b
  rw [Block.toJson_eq_record, Json.depth]
  omega

theorem Block.depth_next_lt (b : Block) (v : Json) : v.depth < (b.toJson (some v)).depth := by
  obtain ⟨kind, id, fields, inputs⟩ := b
  rw [Block.toJson_eq_record]
  have hmem : ("next", some v) ∈ fieldsOfDocument kind id fields inputs (some v) := by
    simp [fieldsOfDocument]
  exact Json.depth_lt_of_mem_record hmem

theorem Json.optional?_block {α : Type} (read : Json → Option α) (b : Block) (next : Option Json) :
    Json.optional? read (some (b.toJson next)) = (read (b.toJson next)).map some := by
  obtain ⟨kind, id, fields, inputs⟩ := b
  rw [Block.toJson_eq_record]
  rfl

/-- **A chain is read from its document** if each of its blocks is. -/
theorem Chain.read?_successors {first : Block} {rest : List Block} (hfirst : first.ReadsBack)
    (hrest : ∀ b ∈ rest, b.ReadsBack) {fuel : Nat}
    (hfuel : (first.toJson (successorsToJson rest)).depth ≤ fuel) :
    Chain.read? fuel (first.toJson (successorsToJson rest)) =
      Chain.traverse FieldValue.reread? ⟨first, rest⟩ := by
  induction rest generalizing first fuel with
  | nil =>
    have hpos := first.depth_pos (successorsToJson [])
    obtain ⟨fuel, rfl⟩ : ∃ n, fuel = n + 1 := Nat.exists_eq_succ_of_ne_zero (by omega)
    rw [hfirst fuel _ hfuel, successorsToJson, Chain.traverse, traverseBlocks]
    rfl
  | cons b r ih =>
    have hpos := first.depth_pos (successorsToJson (b :: r))
    obtain ⟨fuel, rfl⟩ : ∃ n, fuel = n + 1 := Nat.exists_eq_succ_of_ne_zero (by omega)
    obtain ⟨hb, hr⟩ := List.forall_mem_cons.mp hrest
    rw [hfirst fuel _ hfuel]
    rw [successorsToJson] at hfuel ⊢
    have hinner := first.depth_next_lt (b.toJson (successorsToJson r))
    rw [Json.optional?_block, ih hb hr (by omega), Chain.traverse, Chain.traverse, traverseBlocks]
    dsimp only
    cases first.traverse FieldValue.reread? with
    | none => rfl
    | some first' =>
      cases b.traverse FieldValue.reread? with
      | none => rfl
      | some b' => cases traverseBlocks FieldValue.reread? r <;> rfl

/-- A table that is left out when it is empty. -/
theorem orElse_table? {α β : Type} {read : Json → Option β} {write : α → Json} {t : List (String × α)}
    (h : Ordered t) :
    Json.orElse [] (table? read) (if t.isEmpty then none
      else some (.object (t.map fun e => Json.member e.1 (write e.2)))) =
        t.mapM fun e => (read (write e.2)).map (e.1, ·) := by
  cases t with
  | nil => rfl
  | cons e r => exact table?_members h

theorem optional?_text (id : Option String) :
    Json.optional? Json.text? (id.map .text) = some id := by
  cases id <;> rfl

theorem mapM_congr_of_forall {α β : Type} {f g : α → Option β} {xs : List α}
    (h : ∀ x ∈ xs, f x = g x) : xs.mapM f = xs.mapM g := by
  induction xs with
  | nil => rfl
  | cons x r ih =>
    obtain ⟨hx, hr⟩ := List.forall_mem_cons.mp h
    rw [List.mapM_cons, List.mapM_cons, hx, ih hr]

/-- What is plugged into a socket is read from its document, if the blocks in it are. -/
theorem Binding.read?_toJson {v : Binding}
    (h : ∀ first rest, v = .chain first rest → first.ReadsBack ∧ ∀ b ∈ rest, b.ReadsBack) {fuel : Nat}
    (hfuel : v.toJson.depth ≤ fuel) :
    Binding.read? fuel v.toJson = v.traverse FieldValue.reread? := by
  cases v with
  | literal v =>
    rw [Binding.toJson] at hfuel ⊢
    obtain ⟨fuel, rfl⟩ : ∃ n, fuel = n + 1 := Nat.exists_eq_succ_of_ne_zero (by
      rintro rfl
      rw [Json.depth] at hfuel
      omega)
    rw [Binding.traverse]
    rfl
  | chain first rest =>
    obtain ⟨hfirst, hrest⟩ := h first rest rfl
    rw [Binding.toJson] at hfuel ⊢
    have hinner : (first.toJson (successorsToJson rest)).depth <
        (Json.object [Json.member "block" (first.toJson (successorsToJson rest))]).depth :=
      Json.depth_lt_of_mem_members (m := (some "block", _)) List.mem_cons_self
    obtain ⟨fuel, rfl⟩ : ∃ n, fuel = n + 1 := Nat.exists_eq_succ_of_ne_zero (by omega)
    have hread : Binding.read? (fuel + 1)
        (.object [Json.member "block" (first.toJson (successorsToJson rest))]) =
          (Chain.read? fuel (first.toJson (successorsToJson rest))).map
            fun c => .chain c.first c.rest := rfl
    rw [hread, Chain.read?_successors hfirst hrest (by omega), Binding.traverse, Chain.traverse]
    cases first.traverse FieldValue.reread? with
    | none => rfl
    | some first' => cases traverseBlocks FieldValue.reread? rest <;> rfl

/-- **A block is read from its document**, by induction on the blocks in its sockets. -/
theorem Block.Sorted.readsBack {b : Block} (h : b.Sorted) : b.ReadsBack := by
  induction h with
  | @mk kind id fields inputs hfields hinputs hfirst hrest ihfirst ihrest =>
    intro fuel next hfuel
    rw [Block.toJson_eq_record] at hfuel ⊢
    have hnames : ((fieldsOfDocument kind id fields inputs next).map Prod.fst).Nodup := by
      show (["kind", "id", "fields", "inputs", "next"] : List String).Nodup
      decide
    have hrecord : Json.fields? ["kind", "id", "fields", "inputs", "next"] (.object (Json.record
        (fieldsOfDocument kind id fields inputs next))) = _ := Json.fields?_record hnames
    have hkind : BlockKind.ofJson? (.text kind.name) = some kind := BlockKind.ofName?_name kind
    have hinputsRead : Json.orElse [] (table? (Binding.read? fuel)) (if inputs.isEmpty then none
        else some (.object (inputs.map fun e => Json.member e.1 e.2.toJson))) =
          traverseInputs FieldValue.reread? inputs := by
      rw [orElse_table? hinputs, traverseInputs_eq_mapM]
      refine mapM_congr_of_forall fun e he => ?_
      have hdepth : e.2.toJson.depth ≤ fuel := by
        have hne : ¬ inputs.isEmpty = true := by
          rintro hempty
          rw [List.isEmpty_iff.mp hempty] at he
          cases he
        have hmember : e.2.toJson.depth <
            (Json.object (inputs.map fun e => Json.member e.1 e.2.toJson)).depth :=
          Json.depth_lt_of_mem_members
            (List.mem_map_of_mem (f := fun e : String × Binding => Json.member e.1 e.2.toJson) he)
        have htable : ("inputs", some (.object (inputs.map fun e => Json.member e.1 e.2.toJson))) ∈
            fieldsOfDocument kind id fields inputs next := by simp [fieldsOfDocument, hne]
        have := Json.depth_lt_of_mem_record htable
        omega
      rw [Binding.read?_toJson (fun first rest heq =>
        ⟨ihfirst e he first rest heq, ihrest e he first rest heq⟩) hdepth]
    rw [Chain.read?, hrecord]
    simp only [fieldsOfDocument, List.map_cons, List.map_nil, Option.bind_eq_bind, Option.bind_some, hkind,
      optional?_text, orElse_table? hfields, hinputsRead]
    rw [Block.traverse]
    show Option.bind (fields.mapM fun e => e.2.reread?.map (e.1, ·)) _ = _
    cases fields.mapM fun e => e.2.reread?.map (e.1, ·) with
    | none => rfl
    | some fields' => cases traverseInputs FieldValue.reread? inputs <;> rfl

/-! ## Documents that can be written -/

theorem Json.textual_record {fs : List (String × Option Json)} (h : ∀ f ∈ fs, ∀ v ∈ f.2, v.Textual) :
    (Json.object (Json.record fs)).Textual := by
  refine .object (fun m hm => ?_) fun m hm => ?_
  · obtain ⟨f, -, hname, -⟩ := Json.exists_of_mem_record hm
    rw [hname]
    rfl
  · obtain ⟨f, hf, -, hv⟩ := Json.exists_of_mem_record hm
    exact h f hf m.2 hv

theorem Json.textual_members {α : Type} {write : α → Json} {t : List (String × α)}
    (h : ∀ e ∈ t, (write e.2).Textual) :
    (Json.object (t.map fun e => Json.member e.1 (write e.2))).Textual := by
  refine .object (fun m hm => ?_) fun m hm => ?_
  · obtain ⟨e, -, rfl⟩ := List.mem_map.mp hm
    rfl
  · obtain ⟨e, he, rfl⟩ := List.mem_map.mp hm
    exact h e he

theorem Json.textual_member {v : Json} (h : v.Textual) (name : String) :
    (Json.object [Json.member name v]).Textual :=
  .object (by simp [Json.member]) (by simpa [Json.member] using h)

theorem FieldValue.textual_toJson (v : FieldValue) : v.toJson.Textual := by
  cases v with
  | boolean b => exact .boolean b
  | text s => exact .text s
  | number x =>
    show (Json.ofBinary64 x).Textual
    unfold Json.ofBinary64
    split
    · exact .number (Json.Number.proper_ofDecimal _ _)
    · exact .null

/-- Blocks in a row can be written if each of them can. -/
theorem textual_successors {rest : List Block}
    (h : ∀ b ∈ rest, ∀ next : Option Json, (∀ v ∈ next, v.Textual) → (b.toJson next).Textual) :
    ∀ v ∈ successorsToJson rest, v.Textual := by
  induction rest with
  | nil =>
    rw [successorsToJson]
    nofun
  | cons b r ih =>
    obtain ⟨hb, hr⟩ := List.forall_mem_cons.mp h
    rw [successorsToJson]
    intro v hv
    obtain rfl := Option.mem_some.mp hv
    exact hb _ (ih hr)

theorem Block.Sorted.textual {b : Block} (h : b.Sorted) :
    ∀ next : Option Json, (∀ v ∈ next, v.Textual) → (b.toJson next).Textual := by
  induction h with
  | @mk kind id fields inputs _ _ _ _ ihfirst ihrest =>
    intro next hnext
    rw [Block.toJson_eq_record]
    have hinputs : ∀ e ∈ inputs, e.2.toJson.Textual := by
      intro e he
      obtain ⟨k, v⟩ := e
      cases v with
      | literal v =>
        rw [Binding.toJson]
        exact Json.textual_member v.textual_toJson _
      | chain first rest =>
        rw [Binding.toJson]
        exact Json.textual_member
          (ihfirst _ he first rest rfl _ (textual_successors (ihrest _ he first rest rfl))) _
    refine Json.textual_record fun f hf v hv => ?_
    simp only [fieldsOfDocument, List.mem_cons, List.not_mem_nil, or_false] at hf
    rcases hf with rfl | rfl | rfl | rfl | rfl
    · obtain rfl := Option.mem_some.mp hv
      exact .text _
    · obtain ⟨i, -, rfl⟩ := Option.map_eq_some_iff.mp hv
      exact .text i
    · dsimp only at hv
      split at hv
      · cases hv
      · obtain rfl := Option.mem_some.mp hv
        exact Json.textual_members fun e _ => e.2.textual_toJson
    · dsimp only at hv
      split at hv
      · cases hv
      · obtain rfl := Option.mem_some.mp hv
        exact Json.textual_members hinputs
    · exact hnext v hv

/-! ## Graphs -/

/-- **What is read from the document of a graph is the graph, value by value.** -/
theorem BlockGraph.ofJson?_toJson {g : BlockGraph} (h : g.Sorted) :
    ofJson? g.toJson = g.traverse FieldValue.reread? := by
  let docs := g.chains.map fun c => c.first.toJson (successorsToJson c.rest)
  let record : List (String × Option Json) := [("blocks", some (.array docs))]
  have hnames : (record.map Prod.fst).Nodup := by simp [record]
  have hfields : Json.fields? ["blocks"] g.toJson = some [some (.array docs)] :=
    Json.fields?_record hnames
  have hchains : docs.mapM (Chain.read? (Json.array docs).depth) =
      g.chains.mapM (Chain.traverse FieldValue.reread?) := by
    rw [List.mapM_map]
    refine mapM_congr_of_forall fun c hc => ?_
    have hsorted := h c hc
    refine Chain.read?_successors (hsorted _ List.mem_cons_self).readsBack
      (fun b hb => (hsorted b (List.mem_cons_of_mem _ hb)).readsBack) (Nat.le_of_lt ?_)
    exact Json.depth_lt_of_mem_items (List.mem_map_of_mem
      (f := fun c : Chain => c.first.toJson (successorsToJson c.rest)) hc)
  rw [ofJson?, hfields]
  show Option.bind (docs.mapM (Chain.read? (Json.array docs).depth)) _ = _
  rw [hchains]
  rfl

theorem BlockGraph.Sorted.textual {g : BlockGraph} (h : g.Sorted) : g.toJson.Textual := by
  refine Json.textual_member (.array fun v hv => ?_) _
  obtain ⟨c, hc, rfl⟩ := List.mem_map.mp hv
  have hsorted := h c hc
  exact (hsorted _ List.mem_cons_self).textual _ (textual_successors fun b hb =>
    (hsorted b (List.mem_cons_of_mem _ hb)).textual)

/-- **What is read from the text of a graph is the graph, value by value.** -/
theorem BlockGraph.ofText_toText_eq {g : BlockGraph} (h : g.Sorted)
    (hdepth : bracketDepth g.toText ≤ maxDocumentDepth) :
    ofText g.toText =
      match g.traverse FieldValue.reread? with
      | some g' => .ok g'
      | none => .error .malformed := by
  have hread : (Json.ofText? g.toText).bind ofJson? = g.traverse FieldValue.reread? := by
    rw [toText, Json.ofText?_pretty h.textual, Option.bind_some, ofJson?_toJson h]
  rw [ofText, if_neg (Nat.not_lt.mpr hdepth)]
  cases htraverse : g.traverse FieldValue.reread? with
  | none => simp only [hread, htraverse]
  | some g' => simp only [hread, htraverse]

/-! ## Values that stay -/

theorem mapM_eq_some_self_iff {α : Type} {f : α → Option α} {xs : List α} :
    xs.mapM f = some xs ↔ ∀ x ∈ xs, f x = some x := by
  induction xs with
  | nil => simp
  | cons x r ih => simp [List.mapM_cons, Option.bind_eq_some_iff, ih]

theorem keyed_eq_some_self_iff {α : Type} {f : α → Option α} {t : List (String × α)} :
    (t.mapM fun e => (f e.2).map (e.1, ·)) = some t ↔ ∀ e ∈ t, f e.2 = some e.2 := by
  rw [mapM_eq_some_self_iff]
  refine forall₂_congr fun e _ => ?_
  simp [Option.map_eq_some_iff, Prod.ext_iff]

theorem traverseBlocks_eq_mapM (f : FieldValue → Option FieldValue) (bs : List Block) :
    traverseBlocks f bs = bs.mapM (Block.traverse f) := by
  induction bs with
  | nil => rw [traverseBlocks]; rfl
  | cons b r ih => rw [traverseBlocks, ih, List.mapM_cons]

theorem valuesOfBlocks_eq_flatMap (bs : List Block) : valuesOfBlocks bs = bs.flatMap Block.values := by
  induction bs with
  | nil => rw [valuesOfBlocks]; rfl
  | cons b r ih => rw [valuesOfBlocks, ih, List.flatMap_cons]

theorem valuesOfInputs_eq_flatMap (inputs : List (String × Binding)) :
    valuesOfInputs inputs = inputs.flatMap fun e => e.2.values := by
  induction inputs with
  | nil => rw [valuesOfInputs]; rfl
  | cons e r ih =>
    obtain ⟨k, v⟩ := e
    rw [valuesOfInputs, ih, List.flatMap_cons]

/-- Blocks in a row are left as they are exactly if each of their values is. -/
theorem traverseBlocks_eq_some_iff {f : FieldValue → Option FieldValue} {bs : List Block}
    (h : ∀ b ∈ bs, b.traverse f = some b ↔ ∀ v ∈ b.values, f v = some v) :
    traverseBlocks f bs = some bs ↔ ∀ v ∈ valuesOfBlocks bs, f v = some v := by
  rw [traverseBlocks_eq_mapM, mapM_eq_some_self_iff, valuesOfBlocks_eq_flatMap, List.forall_mem_flatMap]
  exact forall₂_congr h

/-- A block is left as it is exactly if each of its values is. -/
theorem Block.Sorted.traverse_eq_some_iff {f : FieldValue → Option FieldValue} {b : Block}
    (h : b.Sorted) : b.traverse f = some b ↔ ∀ v ∈ b.values, f v = some v := by
  induction h with
  | @mk kind id fields inputs _ _ _ _ ihfirst ihrest =>
    have hfields : (fields.mapM fun e => (f e.2).map (e.1, ·)) = some fields ↔
        ∀ v ∈ fields.map Prod.snd, f v = some v := by
      rw [keyed_eq_some_self_iff, List.forall_mem_map]
    have hinputs : traverseInputs f inputs = some inputs ↔
        ∀ v ∈ valuesOfInputs inputs, f v = some v := by
      rw [traverseInputs_eq_mapM, keyed_eq_some_self_iff, valuesOfInputs_eq_flatMap,
        List.forall_mem_flatMap]
      refine forall₂_congr fun e he => ?_
      obtain ⟨k, v⟩ := e
      cases v with
      | literal v => simp [Binding.traverse, Binding.values]
      | chain first rest =>
        have hfirst := ihfirst _ he first rest rfl
        have hrest := traverseBlocks_eq_some_iff (ihrest _ he first rest rfl)
        rw [Binding.traverse, Binding.values, List.forall_mem_append, ← hfirst, ← hrest]
        simp [Option.bind_eq_some_iff]
    rw [Block.traverse, Block.values, List.forall_mem_append, ← hfields, ← hinputs]
    simp [Option.bind_eq_some_iff]

/-- A graph is left as it is exactly if each of its values is. -/
theorem BlockGraph.Sorted.traverse_eq_some_iff {f : FieldValue → Option FieldValue} {g : BlockGraph}
    (h : g.Sorted) : g.traverse f = some g ↔ ∀ v ∈ g.values, f v = some v := by
  have hchain : ∀ c ∈ g.chains, c.traverse f = some c ↔ ∀ v ∈ valuesOfBlocks c.toList, f v = some v := by
    intro c hc
    rw [← traverseBlocks_eq_some_iff fun b hb => (h c hc b hb).traverse_eq_some_iff, Chain.traverse,
      Chain.toList, traverseBlocks]
    obtain ⟨first, rest⟩ := c
    simp [Option.bind_eq_some_iff]
  have hgraph : g.traverse f = some g ↔ g.chains.mapM (Chain.traverse f) = some g.chains := by
    obtain ⟨chains⟩ := g
    simp [BlockGraph.traverse, Option.bind_eq_some_iff]
  rw [hgraph, mapM_eq_some_self_iff, BlockGraph.values, List.forall_mem_flatMap]
  exact forall₂_congr hchain

/-! ## Reading graphs back -/

theorem FieldValue.reread?_number (x : Binary64) : (number x).reread? = x.reread?.map .number := by
  rw [reread?, toJson, Json.ofBinary64, Binary64.reread?]
  split <;> rfl

/-- The values that are read back in any case: truth values, texts, and numbers that are short. -/
def FieldValue.Short : FieldValue → Prop
  | .number x => x.Short
  | _ => True

theorem FieldValue.Short.reread?_eq {v : FieldValue} (h : v.Short) : v.reread? = some v := by
  cases v with
  | boolean b => rfl
  | text s => rfl
  | number x => rw [reread?_number, Binary64.Short.reread?_eq h, Option.map_some]

/-- **A graph is read back from its text with each of its values as it is read back, and so as it is
exactly if they all are.** What blocks, sockets and chains there are never changes, and neither do truth
values, texts and short numbers. -/
theorem BlockGraph.ofText_toText {g : BlockGraph} (h : g.Sorted)
    (hdepth : bracketDepth g.toText ≤ maxDocumentDepth) :
    (ofText g.toText =
      match g.traverse FieldValue.reread? with
      | some g' => .ok g'
      | none => .error .malformed) ∧
    (ofText g.toText = .ok g ↔ ∀ v ∈ g.values, v.reread? = some v) ∧
    ((∀ v ∈ g.values, v.Short) → ofText g.toText = .ok g) := by
  have hread := ofText_toText_eq h hdepth
  have hiff : ofText g.toText = .ok g ↔ ∀ v ∈ g.values, v.reread? = some v := by
    rw [hread, ← h.traverse_eq_some_iff]
    cases g.traverse FieldValue.reread? with
    | none => simp
    | some g' => simp
  exact ⟨hread, hiff, fun hshort => hiff.mpr fun v hv => (hshort v hv).reread?_eq⟩

/-- A graph of one block, which holds a number. -/
def numberGraph (x : Binary64) : BlockGraph := ⟨[⟨.mk .number none [("NUM", .number x)] [], []⟩]⟩

theorem sorted_numberGraph (x : Binary64) : (numberGraph x).Sorted := by
  intro c hc b hb
  obtain rfl := List.mem_singleton.mp hc
  obtain rfl := List.mem_singleton.mp hb
  exact .mk (by simp [Ordered]) (by simp [Ordered]) nofun nofun

theorem values_numberGraph (x : Binary64) : (numberGraph x).values = [.number x] := by
  simp [BlockGraph.values, numberGraph, Chain.toList, valuesOfBlocks, Block.values, valuesOfInputs]

theorem traverse_numberGraph (f : FieldValue → Option FieldValue) {x y : Binary64}
    (h : f (.number x) = some (.number y)) : (numberGraph x).traverse f = some (numberGraph y) := by
  simp [numberGraph, BlockGraph.traverse, Chain.traverse, Block.traverse, traverseInputs, traverseBlocks, h]

/-- A tenth is short, and is read back. -/
theorem BlockGraph.ofText_toText_tenth :
    (numberGraph ⟨0x3FB999999999999A⟩).Sorted ∧
      bracketDepth (numberGraph ⟨0x3FB999999999999A⟩).toText ≤ maxDocumentDepth ∧
      ofText (numberGraph ⟨0x3FB999999999999A⟩).toText = .ok (numberGraph ⟨0x3FB999999999999A⟩) := by
  have hshortest : Decimal.shortest .even ⟨0x3FB999999999999A⟩ = ⟨1, -1⟩ := by decide +kernel
  have hshort : Binary64.Short ⟨0x3FB999999999999A⟩ := by
    refine ⟨by decide +kernel, ?_, ?_, ?_, ?_⟩ <;> rw [hshortest] <;> decide
  have hdepth : bracketDepth (numberGraph ⟨0x3FB999999999999A⟩).toText ≤ maxDocumentDepth := by
    decide +kernel
  refine ⟨sorted_numberGraph _, hdepth, (ofText_toText (sorted_numberGraph _) hdepth).2.2 fun v hv => ?_⟩
  rw [values_numberGraph] at hv
  obtain rfl := List.mem_singleton.mp hv
  exact hshort

/-- **The greatest number below `2 ^ 53` is read back as its predecessor**: it is written with a zero after
the point, and a significand ten times as large is rounded. -/
theorem greatest_odd_not_read_back :
    (numberGraph (.ofNat (2 ^ 53 - 1))).Sorted ∧
      (∀ x, .number x ∈ (numberGraph (.ofNat (2 ^ 53 - 1))).values → x.isFinite = true) ∧
      bracketDepth (numberGraph (.ofNat (2 ^ 53 - 1))).toText ≤ maxDocumentDepth ∧
      BlockGraph.ofText (numberGraph (.ofNat (2 ^ 53 - 1))).toText =
        .ok (numberGraph (.ofNat (2 ^ 53 - 2))) ∧
      numberGraph (.ofNat (2 ^ 53 - 2)) ≠ numberGraph (.ofNat (2 ^ 53 - 1)) := by
  have hfinite : (Binary64.ofNat (2 ^ 53 - 1)).isFinite = true := by decide +kernel
  have hdepth : bracketDepth (numberGraph (.ofNat (2 ^ 53 - 1))).toText ≤ maxDocumentDepth := by
    decide +kernel
  have hreread : Binary64.reread? (.ofNat (2 ^ 53 - 1)) = some (.ofNat (2 ^ 53 - 2)) := by decide +kernel
  have hne : Binary64.ofNat (2 ^ 53 - 2) ≠ .ofNat (2 ^ 53 - 1) := by decide +kernel
  have hread := BlockGraph.ofText_toText_eq (sorted_numberGraph (.ofNat (2 ^ 53 - 1))) hdepth
  rw [traverse_numberGraph _ (by rw [FieldValue.reread?_number, hreread, Option.map_some])] at hread
  refine ⟨sorted_numberGraph _, fun x hx => ?_, hdepth, hread, fun h => hne ?_⟩
  · rw [values_numberGraph] at hx
    obtain rfl := FieldValue.number.inj (List.mem_singleton.mp hx)
    exact hfinite
  · simpa [numberGraph] using h

end BlockBoard
