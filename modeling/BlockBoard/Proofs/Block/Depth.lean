import BlockBoard.Proofs.Block.Document
import BlockBoard.Proofs.Json.Grammar
/-!
# The nesting of a text

The scan for brackets knows only quotes and backslashes, but on a text that spells a document it finds how
deeply the document is nested. And no block of a graph is deeper in it than its document is nested: a
successor is one level below its block, and a block in a socket is three.

- `BracketScan.Outside`, `BracketScan.reaching`: a scan between two tokens, and the same one after a part of
  a document.
- `Json.Spells.foldl_step`: **what spells a part of a document moves the scan by its nesting**, by induction
  on the derivation.
- `Chain.Leads`: the paths to the blocks of a chain.
- `Chain.Leads.le_depth`: **a path is no longer than the document is deep**, by induction on the path.
- `BlockGraph.depth_guard`: what the limit on the nesting means for texts and for graphs.
-/

namespace BlockBoard

/-! ## Scanning -/

namespace BracketScan

/-- The scan stands outside strings. -/
structure Outside (s : BracketScan) : Prop where
  inString : s.inString = false
  afterBackslash : s.afterBackslash = false
  depth_le : s.depth ≤ s.deepest

/-- The scan after characters that nest so deeply and close whatever they open. -/
def reaching (s : BracketScan) (n : Nat) : BracketScan := { s with deepest := max s.deepest (s.depth + n) }

theorem Outside.reaching {s : BracketScan} (h : s.Outside) (n : Nat) : (s.reaching n).Outside :=
  ⟨h.inString, h.afterBackslash, Nat.le_trans h.depth_le (Nat.le_max_left _ _)⟩

theorem Outside.reaching_zero {s : BracketScan} (h : s.Outside) : s.reaching 0 = s := by
  obtain ⟨depth, deepest, inString, afterBackslash⟩ := s
  simp only [BracketScan.reaching, mk.injEq, and_true, true_and]
  exact Nat.max_eq_left h.depth_le

theorem reaching_reaching (s : BracketScan) (m n : Nat) :
    (s.reaching m).reaching n = s.reaching (max m n) := by
  simp only [reaching, mk.injEq, and_true, true_and]
  omega

/-- A character that is neither a bracket nor a quote. -/
def Quiet (c : Char) : Prop := c ∉ ['"', '{', '[', '}', ']']

instance (c : Char) : Decidable (Quiet c) := inferInstanceAs (Decidable (c ∉ _))

theorem Outside.step_quiet {s : BracketScan} (h : s.Outside) {c : Char} (hc : Quiet c) : s.step c = s := by
  simp only [Quiet, List.mem_cons, List.not_mem_nil, or_false, not_or] at hc
  obtain ⟨hquote, hbrace, hbracket, hbrace', hbracket'⟩ := hc
  simp [step, h.inString, hquote, hbrace, hbracket, hbrace', hbracket']

theorem Outside.foldl_quiet {s : BracketScan} (h : s.Outside) {cs : List Char} (hcs : ∀ c ∈ cs, Quiet c) :
    cs.foldl step s = s := by
  induction cs with
  | nil => rfl
  | cons c cs ih =>
    obtain ⟨hc, hcs⟩ := List.forall_mem_cons.mp hcs
    rw [List.foldl_cons, h.step_quiet hc, ih hcs]

/-- What stands between two brackets is one level deeper than the brackets are. -/
theorem Outside.foldl_brackets {s : BracketScan} (h : s.Outside) {opening closing : Char}
    (hpair : (opening, closing) ∈ [('{', '}'), ('[', ']')]) {cs : List Char} {n : Nat}
    (hcs : ∀ {t : BracketScan}, t.Outside → cs.foldl step t = t.reaching n) :
    (opening :: (cs ++ [closing])).foldl step s = s.reaching (1 + n) := by
  have hopen : s.step opening = { s with depth := s.depth + 1, deepest := max s.deepest (s.depth + 1) } := by
    rw [List.mem_pair] at hpair
    rcases hpair with h' | h' <;> cases h' <;> simp [step, h.inString]
  have hclose : ∀ {t : BracketScan}, t.Outside → t.step closing = { t with depth := t.depth - 1 } := by
    intro t ht
    rw [List.mem_pair] at hpair
    rcases hpair with h' | h' <;> cases h' <;> simp [step, ht.inString]
  have hinside : Outside { s with depth := s.depth + 1, deepest := max s.deepest (s.depth + 1) } :=
    ⟨h.inString, h.afterBackslash, Nat.le_max_right _ _⟩
  rw [List.foldl_cons, List.foldl_append, hopen, hcs hinside, List.foldl_cons, List.foldl_nil,
    hclose (hinside.reaching n)]
  simp only [BracketScan.reaching, mk.injEq, Nat.add_sub_cancel, and_true, true_and]
  omega

end BracketScan

namespace Json

open BracketScan

theorem quiet_of_isDigit {c : Char} (h : c.isDigit = true) : Quiet c := by
  have hbrackets : ['"', '{', '[', '}', ']'].any Char.isDigit = false := by decide
  intro hc
  exact List.any_eq_false.mp hbrackets c hc h

theorem Blanks.quiet {w : List Char} (h : Blanks w) : ∀ c ∈ w, Quiet c := by
  have hbrackets : ['"', '{', '[', '}', ']'].any isSpace = false := by decide
  intro c hc hbracket
  exact List.any_eq_false.mp hbrackets c hbracket (h c hc)

theorem Number.Spelled.quiet {n : Number} {cs : List Char} (h : n.Spelled cs) : ∀ c ∈ cs, Quiet c := by
  obtain ⟨hn, hexponent⟩ := h
  have hfraction : ∀ c ∈ fractionText n.fraction, Quiet c := by
    intro c hc
    cases hdigits : n.fraction with
    | nil =>
      rw [hdigits] at hc
      cases hc
    | cons d ds =>
      rw [hdigits] at hc
      rcases List.mem_cons.mp hc with rfl | hc
      · decide
      · exact quiet_of_isDigit (hn.fraction c (by rwa [hdigits]))
  have hsign : ∀ {negative : Bool} {sign : List Char}, SignText negative sign → ∀ c ∈ sign, Quiet c := by
    rintro _ _ (_ | _ | _) <;> simp [Quiet]
  intro c hc
  simp only [List.mem_append] at hc
  rcases hc with hc | hc | hc | hc
  · split at hc
    · rw [List.mem_singleton.mp hc]
      decide
    · cases hc
  · exact quiet_of_isDigit (hn.whole c hc)
  · exact hfraction c hc
  · generalize n.exponent = e at hexponent
    cases hexponent with
    | absent => cases hc
    | present hmark hsign' _ hds =>
      rcases List.mem_cons.mp hc with rfl | hc
      · rcases hmark with rfl | rfl <;> decide
      · rcases List.mem_append.mp hc with hc | hc
        · exact hsign hsign' c hc
        · exact quiet_of_isDigit (hds c hc)

/-- Four hexadecimal digits are no quotes and no backslashes. -/
theorem hexDigits_of_codeUnit? {a b c d : Char} {n : Nat} (h : codeUnit? a b c d = some n) :
    ∀ e ∈ [a, b, c, d], e ≠ '\\' ∧ e ≠ '"' := by
  have hdigit : ∀ {e : Char} {m : Nat}, hexDigit? e = some m → e ≠ '\\' ∧ e ≠ '"' := by
    intro e m he
    constructor <;> rintro rfl <;> cases he
  obtain ⟨a', ha, h⟩ := Option.bind_eq_some_iff.mp h
  obtain ⟨b', hb, h⟩ := Option.bind_eq_some_iff.mp h
  obtain ⟨c', hc, h⟩ := Option.bind_eq_some_iff.mp h
  obtain ⟨d', hd, -⟩ := Option.bind_eq_some_iff.mp h
  simp only [List.forall_mem_cons]
  exact ⟨hdigit ha, hdigit hb, hdigit hc, hdigit hd, nofun⟩

/-- In a string, a character that is no quote and no backslash changes nothing. -/
theorem step_inString {s : BracketScan} (hin : s.inString = true) (hafter : s.afterBackslash = false)
    {c : Char} (hbackslash : c ≠ '\\') (hquote : c ≠ '"') : s.step c = s := by
  simp [step, hin, hafter, hbackslash, hquote]

/-- A backslash and the character after it change nothing there, whichever character it is. -/
theorem step_escaped {s : BracketScan} (hin : s.inString = true) (hafter : s.afterBackslash = false)
    (c : Char) : (s.step '\\').step c = s := by
  obtain ⟨depth, deepest, inString, afterBackslash⟩ := s
  cases hin
  cases hafter
  rfl

/-- What stands between quotes is passed over. -/
theorem Inside.foldl_step {ps : List StringPart} {cs : List Char} (h : Inside ps cs) {s : BracketScan}
    (hin : s.inString = true) (hafter : s.afterBackslash = false) : cs.foldl step s = s := by
  induction h with
  | nil => rfl
  | plain hquote hbackslash _ _ ih =>
    rw [List.foldl_cons, step_inString hin hafter hbackslash hquote, ih]
  | letter _ _ ih => rw [List.foldl_cons, List.foldl_cons, step_escaped hin hafter, ih]
  | unit hn _ ih =>
    have hdigits := hexDigits_of_codeUnit? hn
    simp only [List.forall_mem_cons] at hdigits
    obtain ⟨⟨ha, ha'⟩, ⟨hb, hb'⟩, ⟨hc, hc'⟩, ⟨hd, hd'⟩, -⟩ := hdigits
    simp only [List.foldl_cons, step_escaped hin hafter, step_inString hin hafter ha ha',
      step_inString hin hafter hb hb', step_inString hin hafter hc hc', step_inString hin hafter hd hd', ih]

/-- A string is passed over, whatever brackets and quotes there are in it. -/
theorem Inside.foldl_quoted {ps : List StringPart} {cs : List Char} (h : Inside ps cs) {s : BracketScan}
    (hs : s.Outside) : ('"' :: (cs ++ ['"'])).foldl step s = s := by
  have hopen : s.step '"' = { s with inString := true } := by simp [step, hs.inString]
  have hclose : ({ s with inString := true } : BracketScan).step '"' = s := by
    obtain ⟨depth, deepest, inString, afterBackslash⟩ := s
    cases hs.inString
    cases hs.afterBackslash
    rfl
  rw [List.foldl_cons, List.foldl_append, hopen, h.foldl_step (s := { s with inString := true }) rfl
    hs.afterBackslash, List.foldl_cons, List.foldl_nil, hclose]

/-- A name is passed over. -/
theorem Label.foldl_step {k : Option String} {ls : List Char} (h : Label k ls) {s : BracketScan}
    (hs : s.Outside) : ls.foldl step s = s := by
  cases h with
  | @mk w w' cs ps hw hk hw' =>
    have htext : w ++ '"' :: (cs ++ '"' :: (w' ++ [':'])) = w ++ ('"' :: (cs ++ ['"'])) ++ (w' ++ [':']) := by
      simp
    rw [htext, List.foldl_append, List.foldl_append, List.foldl_append, hs.foldl_quiet hw.quiet,
      hk.foldl_quoted hs, hs.foldl_quiet hw'.quiet]
    exact hs.step_quiet (by decide)

/-- The nesting of a part of a document. -/
def Phrase.depth : Phrase → Nat
  | .value v => v.depth
  | .element v => v.depth
  | .items vs => depthOfItems vs
  | .members ms => depthOfMembers ms

/-- **What spells a part of a document moves the scan by its nesting**, wherever it stands. -/
theorem Spells.foldl_step {p : Phrase} {cs : List Char} (h : Spells p cs) {s : BracketScan}
    (hs : s.Outside) : cs.foldl step s = s.reaching p.depth := by
  induction h generalizing s with
  | null | yes | no => exact (hs.foldl_quiet (by simp [Quiet])).trans hs.reaching_zero.symm
  | number h => exact (hs.foldl_quiet h.quiet).trans hs.reaching_zero.symm
  | string h => exact (h.foldl_quoted hs).trans hs.reaching_zero.symm
  | emptyArray hw | emptyObject hw =>
    exact hs.foldl_brackets (by decide) fun ht => (ht.foldl_quiet hw.quiet).trans ht.reaching_zero.symm
  | array _ ih | object _ ih => exact hs.foldl_brackets (by decide) ih
  | @element v w cs w' hw _ hw' ih =>
    rw [List.foldl_append, List.foldl_append, hs.foldl_quiet hw.quiet, ih hs,
      (hs.reaching _).foldl_quiet hw'.quiet]
    rfl
  | @item v cs _ ih =>
    have hmax : depthOfItems [v] = v.depth := Nat.max_zero _
    rw [ih hs, Phrase.depth, Phrase.depth, hmax]
  | items _ _ ih ihrest =>
    rw [List.foldl_append, List.foldl_cons, ih hs, (hs.reaching _).step_quiet (by decide),
      ihrest (hs.reaching _), reaching_reaching]
    rfl
  | @member k v ls cs hl _ ih =>
    have hmax : depthOfMembers [(k, v)] = v.depth := Nat.max_zero _
    rw [List.foldl_append, hl.foldl_step hs, ih hs, Phrase.depth, Phrase.depth, hmax]
  | members hl _ _ ih ihrest =>
    rw [List.foldl_append, List.foldl_append, List.foldl_cons, hl.foldl_step hs, ih hs,
      (hs.reaching _).step_quiet (by decide), ihrest (hs.reaching _), reaching_reaching]
    rfl

/-- **The nesting of a text is that of the document that it spells.** -/
theorem Spells.bracketDepth {v : Json} {text : String} (h : Spells (.element v) text.toList) :
    bracketDepth text = v.depth := by
  have hstart : ({} : BracketScan).Outside := ⟨rfl, rfl, Nat.le_refl 0⟩
  rw [BlockBoard.bracketDepth, h.foldl_step hstart, BracketScan.reaching]
  simp [Phrase.depth]

end Json

/-! ## Paths -/

/-- The paths to the blocks of a chain and of the chains in its sockets: from a chain, so many successors
and so many sockets lead to what begins with such a block. -/
inductive Chain.Leads : Chain → Nat → Nat → Chain → Prop
  | here (c : Chain) : Leads c 0 0 c
  | next {b b' : Block} {rest : List Block} {p s : Nat} {d : Chain} (h : Leads ⟨b', rest⟩ p s d) :
    Leads ⟨b, b' :: rest⟩ (p + 1) s d
  | socket {c : Chain} {name : String} {first : Block} {rest : List Block} {p s : Nat} {d : Chain}
    (hmem : (name, Binding.chain first rest) ∈ c.first.inputs) (h : Leads ⟨first, rest⟩ p s d) :
    Leads c p (s + 1) d

/-- Two paths, one after the other. -/
theorem Chain.Leads.trans {c d e : Chain} {p s p' s' : Nat} (h : c.Leads p s d) (h' : d.Leads p' s' e) :
    c.Leads (p + p') (s + s') e := by
  induction h with
  | here c =>
    rw [Nat.zero_add, Nat.zero_add]
    exact h'
  | next _ ih =>
    rw [Nat.succ_add]
    exact .next (ih h')
  | socket hmem _ ih =>
    rw [Nat.succ_add]
    exact .socket hmem (ih h')

/-- The successors of a block lead to the last one of its chain. -/
theorem Chain.exists_leads_last (first : Block) (rest : List Block) :
    ∃ e, Chain.Leads ⟨first, rest⟩ rest.length 0 e := by
  induction rest generalizing first with
  | nil => exact ⟨_, .here _⟩
  | cons b rest ih =>
    obtain ⟨e, he⟩ := ih b
    exact ⟨e, .next he⟩

section Reading

variable {α β : Type}

theorem exists_of_mem_mapM {f : α → Option β} {xs : List α} {ys : List β} (h : xs.mapM f = some ys) {y : β}
    (hy : y ∈ ys) : ∃ x ∈ xs, f x = some y := by
  induction xs generalizing ys with
  | nil =>
    cases h
    cases hy
  | cons x xs ih =>
    rw [List.mapM_cons] at h
    obtain ⟨z, hz, h⟩ := Option.bind_eq_some_iff.mp h
    obtain ⟨zs, hzs, h⟩ := Option.bind_eq_some_iff.mp h
    cases h
    rcases List.mem_cons.mp hy with rfl | hy
    · exact ⟨x, List.mem_cons_self, hz⟩
    · obtain ⟨w, hw, hfw⟩ := ih hzs hy
      exact ⟨w, List.mem_cons_of_mem _ hw, hfw⟩

theorem mem_insertSorted {k : String} {v : α} {t : List (String × α)} {e : String × α}
    (h : e ∈ insertSorted k v t) : e = (k, v) ∨ e ∈ t := by
  induction t with
  | nil => exact .inl (List.mem_singleton.mp h)
  | cons e' t ih =>
    obtain ⟨k', v'⟩ := e'
    rw [insertSorted] at h
    split at h
    · exact List.mem_cons.mp h
    split at h
    · exact (List.mem_cons.mp h).imp_right (List.mem_cons_of_mem _)
    · rcases List.mem_cons.mp h with rfl | h
      · exact .inr List.mem_cons_self
      · exact (ih h).imp_right (List.mem_cons_of_mem _)

theorem mem_foldl_insertSorted {entries t : List (String × α)} {e : String × α}
    (h : e ∈ entries.foldl (fun t e => insertSorted e.1 e.2 t) t) : e ∈ entries ∨ e ∈ t := by
  induction entries generalizing t with
  | nil => exact .inr h
  | cons e' entries ih =>
    rcases ih h with h | h
    · exact .inl (List.mem_cons_of_mem _ h)
    · rcases mem_insertSorted h with rfl | h
      · exact .inl List.mem_cons_self
      · exact .inr h

/-- What is in a table has been read from what is nested less deeply than the table. -/
theorem exists_of_mem_table? {read : Json → Option α} {v : Json} {t : List (String × α)}
    (h : table? read v = some t) {e : String × α} (he : e ∈ t) :
    ∃ w, read w = some e.2 ∧ w.depth < v.depth := by
  cases v with
  | object members =>
    obtain ⟨entries, hentries, ht⟩ := Option.bind_eq_some_iff.mp h
    cases ht
    have hentry : e ∈ entries := (mem_foldl_insertSorted he).resolve_right List.not_mem_nil
    obtain ⟨m, hm, hread⟩ := exists_of_mem_mapM hentries hentry
    obtain ⟨k, -, hread⟩ := Option.bind_eq_some_iff.mp hread
    obtain ⟨x, hx, heq⟩ := Option.bind_eq_some_iff.mp hread
    cases heq
    exact ⟨m.2, hx, Json.depth_lt_of_mem_members hm⟩
  | _ => cases h

/-- The fields of a record are nested less deeply than the record, whichever of the two forms it has. -/
theorem depth_lt_of_fields? {names : List String} {v : Json} {vs : List (Option Json)}
    (h : v.fields? names = some vs) : 0 < v.depth ∧ ∀ w, some w ∈ vs → w.depth < v.depth := by
  cases v with
  | object members =>
    refine ⟨by rw [Json.depth]; omega, fun w hw => ?_⟩
    rw [Json.fields?] at h
    split at h
    · cases h
    obtain ⟨name, -, hname⟩ := exists_of_mem_mapM h hw
    rw [Json.uniqueMember?] at hname
    split at hname <;> cases hname
    rename_i m hfilter
    have hm : m ∈ members.filter fun m => m.1 == some name := by
      rw [hfilter]
      exact List.mem_cons_self
    exact Json.depth_lt_of_mem_members (List.mem_of_mem_filter hm)
  | array items =>
    refine ⟨by rw [Json.depth]; omega, fun w hw => ?_⟩
    rw [Json.fields?] at h
    split at h
    · cases h
    cases h
    rcases List.mem_append.mp hw with hw | hw
    · obtain ⟨w', hw', heq⟩ := List.mem_map.mp hw
      cases heq
      exact Json.depth_lt_of_mem_items hw'
    · cases List.eq_of_mem_replicate hw
  | _ => cases h

/-- What has been read of a field with a default is there, if it is not the default. -/
theorem exists_of_orElse {read : Json → Option (List α)} {o : Option Json} {xs : List α}
    (h : Json.orElse [] read o = some xs) {x : α} (hx : x ∈ xs) : ∃ w, o = some w ∧ read w = some xs := by
  cases o with
  | none =>
    cases h
    cases hx
  | some w => exact ⟨w, rfl, h⟩

theorem exists_of_optional? {read : Json → Option α} {o : Option Json} {x : α}
    (h : Json.optional? read o = some (some x)) : ∃ w, o = some w ∧ read w = some x := by
  rw [Json.optional?.eq_def] at h
  split at h
  · cases h
  · cases h
  · rename_i w _
    obtain ⟨y, hy, heq⟩ := Option.map_eq_some_iff.mp h
    cases heq
    exact ⟨w, rfl, hy⟩

end Reading

/-- A chain that has been read has each of its successors, and the chain in each of its sockets, from a
document that is nested less deeply. -/
structure Chain.ReadFrom (c : Chain) (v : Json) : Prop where
  depth_pos : 0 < v.depth
  next : ∀ {b : Block} {rest : List Block}, c.rest = b :: rest →
    ∃ fuel w, Chain.read? fuel w = some ⟨b, rest⟩ ∧ w.depth + 1 ≤ v.depth
  socket : ∀ {name : String} {first : Block} {rest : List Block},
    (name, Binding.chain first rest) ∈ c.first.inputs →
      ∃ fuel w, Chain.read? fuel w = some ⟨first, rest⟩ ∧ w.depth + 3 ≤ v.depth

theorem Binding.chain_of_read? {fuel : Nat} {v : Json} {first : Block} {rest : List Block}
    (h : Binding.read? fuel v = some (.chain first rest)) :
    ∃ fuel w, Chain.read? fuel w = some ⟨first, rest⟩ ∧ w.depth < v.depth := by
  cases fuel with
  | zero => cases h
  | succ fuel =>
    rw [Binding.read?.eq_def] at h
    dsimp only at h
    split at h
    · obtain ⟨x, -, hx⟩ := Option.map_eq_some_iff.mp h
      cases hx
    · rename_i w
      obtain ⟨c, hc, heq⟩ := Option.map_eq_some_iff.mp h
      cases heq
      exact ⟨fuel, w, hc, Json.depth_lt_of_mem_members (m := (some "block", w)) List.mem_cons_self⟩
    · cases h

theorem Chain.readFrom_of_read? {fuel : Nat} {v : Json} {c : Chain} (h : Chain.read? fuel v = some c) :
    c.ReadFrom v := by
  cases fuel with
  | zero => cases h
  | succ fuel =>
    rw [Chain.read?] at h
    obtain ⟨vs, hfields, h⟩ := Option.bind_eq_some_iff.mp h
    obtain ⟨hpos, hdepth⟩ := depth_lt_of_fields? hfields
    split at h
    · rename_i kindField idField fieldsField inputsField nextField
      obtain ⟨kindValue, -, h⟩ := Option.bind_eq_some_iff.mp h
      obtain ⟨kind, -, h⟩ := Option.bind_eq_some_iff.mp h
      obtain ⟨id, -, h⟩ := Option.bind_eq_some_iff.mp h
      obtain ⟨fields, -, h⟩ := Option.bind_eq_some_iff.mp h
      obtain ⟨inputs, hinputs, h⟩ := Option.bind_eq_some_iff.mp h
      obtain ⟨next, hnext, h⟩ := Option.bind_eq_some_iff.mp h
      cases h
      refine ⟨hpos, fun {b rest} hrest => ?_, fun {name first rest} hmem => ?_⟩
      · cases next with
        | none => cases hrest
        | some c =>
          obtain ⟨w, rfl, hw⟩ := exists_of_optional? hnext
          cases hrest
          exact ⟨fuel, w, hw, hdepth w (by simp)⟩
      · obtain ⟨table, rfl, htable⟩ := exists_of_orElse hinputs hmem
        obtain ⟨w, hw, hlt⟩ := exists_of_mem_table? htable hmem
        obtain ⟨fuel', u, hu, hlt'⟩ := Binding.chain_of_read? hw
        have hinner : table.depth < v.depth := hdepth table (by simp)
        exact ⟨fuel', u, hu, by omega⟩
    · cases h

/-- **A path is no longer than the document is deep**, by induction on the path. -/
theorem Chain.Leads.le_depth {c d : Chain} {p s : Nat} (h : c.Leads p s d) {fuel : Nat} {v : Json}
    (hread : Chain.read? fuel v = some c) : 1 + p + 3 * s ≤ v.depth := by
  induction h generalizing fuel v with
  | here c => exact (Chain.readFrom_of_read? hread).depth_pos
  | next _ ih =>
    obtain ⟨fuel', w, hw, hlt⟩ := (Chain.readFrom_of_read? hread).next rfl
    have hpath := ih hw
    omega
  | socket hmem _ ih =>
    obtain ⟨fuel', w, hw, hlt⟩ := (Chain.readFrom_of_read? hread).socket hmem
    have hpath := ih hw
    omega

/-- A path from the root of a document passes through the graph and through the list of its chains. -/
theorem BlockGraph.path_le_depth {g : BlockGraph} {v : Json} (hread : BlockGraph.ofJson? v = some g)
    {c d : Chain} (hc : c ∈ g.chains) {p s : Nat} (h : c.Leads p s d) : 3 + p + 3 * s ≤ v.depth := by
  obtain ⟨vs, hfields, hblocks⟩ := Option.bind_eq_some_iff.mp hread
  obtain ⟨-, hdepth⟩ := depth_lt_of_fields? hfields
  split at hblocks
  · rename_i blocksField
    obtain ⟨chains, hchains, heq⟩ := Option.bind_eq_some_iff.mp hblocks
    cases heq
    obtain ⟨blocks, rfl, hlist⟩ := exists_of_orElse hchains hc
    obtain ⟨items, hitems, hlist⟩ := Option.bind_eq_some_iff.mp hlist
    cases blocks with
    | array items' =>
      cases hitems
      obtain ⟨w, hw, hreadw⟩ := exists_of_mem_mapM hlist hc
      have hpath := h.le_depth hreadw
      have hinner := Json.depth_lt_of_mem_items hw
      have houter : (Json.array items).depth < v.depth := hdepth _ List.mem_cons_self
      omega
    | _ => cases hitems
  · cases hblocks

/-- A text that is read as a graph is not nested too deeply, and neither is the graph. -/
theorem BlockGraph.path_le_of_ofText {text : String} {g : BlockGraph} (h : BlockGraph.ofText text = .ok g)
    {c d : Chain} (hc : c ∈ g.chains) {p s : Nat} (hpath : c.Leads p s d) :
    3 + p + 3 * s ≤ maxDocumentDepth := by
  rw [BlockGraph.ofText] at h
  split at h
  · cases h
  rename_i hdepth
  split at h
  · rename_i g' hg
    cases h
    obtain ⟨v, hv, hread⟩ := Option.bind_eq_some_iff.mp hg
    have hle := BlockGraph.path_le_depth hread hc hpath
    rw [(Json.ofText?_eq_some_iff.mp hv).bracketDepth] at hdepth
    omega
  · cases h

/-- **The limit on the nesting is one on the nesting of the document**: a text that spells a document is
refused as too deep exactly if the document is nested more deeply, however the text is written. **And every
graph that is read keeps to it**: a block is reached over no more successors and sockets than there are levels
for them, and so no chain is longer. -/
theorem BlockGraph.depth_guard (text : String) :
    (∀ v, Json.Spells (.element v) text.toList →
      bracketDepth text = v.depth ∧
      (BlockGraph.ofText text = .error .tooDeep ↔ maxDocumentDepth < v.depth)) ∧
    ∀ g, BlockGraph.ofText text = .ok g → ∀ c ∈ g.chains, ∀ (p s : Nat) (d : Chain), c.Leads p s d →
      3 + p + 3 * s ≤ maxDocumentDepth ∧ d.toList.length ≤ maxDocumentDepth - 2 := by
  refine ⟨fun v hv => ⟨hv.bracketDepth, ?_⟩, fun g hg c hc p s d hpath => ⟨?_, ?_⟩⟩
  · rw [BlockGraph.ofText, hv.bracketDepth]
    split
    · rename_i hdeep
      exact iff_of_true rfl hdeep
    · rename_i hshallow
      refine iff_of_false (fun heq => ?_) hshallow
      split at heq <;> cases heq
  · exact BlockGraph.path_le_of_ofText hg hc hpath
  · obtain ⟨first, rest⟩ := d
    obtain ⟨e, he⟩ := Chain.exists_leads_last first rest
    have hlast := BlockGraph.path_le_of_ofText hg hc (hpath.trans he)
    show rest.length + 1 ≤ maxDocumentDepth - 2
    omega

/-- A block with brackets and a quote in its text. -/
def heldBlock : Block := .mk .text none [("TEXT", .text "]\"[[[[[[[[")] []

/-- A block that holds it in a socket. -/
def holdingBlock : Block := .mk .ifElse none [] [("DO0", .chain heldBlock [])]

def nestedGraph : BlockGraph := ⟨[⟨holdingBlock, []⟩]⟩

theorem sorted_nestedGraph : nestedGraph.Sorted := by
  have hheld : heldBlock.Sorted := by
    refine .mk (by simp [Ordered]) (by simp [Ordered]) ?_ ?_
    · rintro e he
      cases he
    · rintro e he
      cases he
  intro c hc b hb
  obtain rfl := List.mem_singleton.mp hc
  obtain rfl := List.mem_singleton.mp hb
  refine .mk (by simp [Ordered]) (by simp [Ordered]) ?_ ?_
  · intro e he first rest heq
    obtain rfl := List.mem_singleton.mp he
    cases heq
    exact hheld
  · intro e he first rest heq b hb
    obtain rfl := List.mem_singleton.mp he
    cases heq
    cases hb

/-- The block with its socket is on the third level, the block in the socket on the sixth, and its fields are
on the seventh. -/
theorem BlockGraph.depth_guard_nested :
    bracketDepth nestedGraph.toText = 7 ∧ BlockGraph.ofText nestedGraph.toText = .ok nestedGraph ∧
    BlockGraph.ofText nestedGraph.toText ≠ .error .tooDeep ∧
    Chain.Leads ⟨holdingBlock, []⟩ 0 1 ⟨heldBlock, []⟩ ∧ 3 + 0 + 3 * 1 ≤ maxDocumentDepth := by
  have hread : (Json.ofText? nestedGraph.toText).map Json.depth = some 7 := by decide +kernel
  obtain ⟨v, hv, hdepth⟩ := Option.map_eq_some_iff.mp hread
  have hguard := (BlockGraph.depth_guard nestedGraph.toText).1 v (Json.ofText?_eq_some_iff.mp hv)
  have hlevels : bracketDepth nestedGraph.toText = 7 := hguard.1.trans hdepth
  have hshallow : ¬ maxDocumentDepth < v.depth := by
    rw [hdepth]
    decide
  have hgraph : BlockGraph.ofText nestedGraph.toText = .ok nestedGraph := by
    rw [BlockGraph.ofText_toText_eq sorted_nestedGraph (by rw [hlevels]; decide)]
    rfl
  have hpath : Chain.Leads ⟨holdingBlock, []⟩ 0 1 ⟨heldBlock, []⟩ := .socket List.mem_cons_self (.here _)
  exact ⟨hlevels, hgraph, fun hdeep => hshallow (hguard.2.mp hdeep), hpath,
    ((BlockGraph.depth_guard nestedGraph.toText).2 _ hgraph _ List.mem_cons_self 0 1 _ hpath).1⟩

end BlockBoard
