import BlockBoard.Proofs.Script.Token
/-!
# The grammar of expressions

How the tokens of an expression are grouped, by Python's rules for the operators that programs use,
from loosest to tightest: `or`; `and`; `not`; comparisons, which chain; `+` and `-`; `*`, `/`, `//` and
`%`; a sign; `**`; calls, subscripts and attributes; names, literals and parentheses.

- `Script.Tree`: an expression as the board understands it.
- `Script.Parses`: the grammar, one constructor for each rule.
- `Script.parse`: a parser by recursive descent, which keeps taking what continues a level.
- `Script.Parses.unique`: **the grammar is unambiguous**. The parser reads every derivation back
  (`Parses.parse_eq`), and a parser has one answer.
-/

namespace BlockBoard

namespace Script

/-- An expression as the board understands it. A comparison has a first operand and then one or more
operators with their right operands; numerals stay as they are spelled. -/
inductive Tree where
  | name (n : String)
  | number (n : String)
  | text (s : String)
  | attribute (e : Tree) (field : String)
  | call (f : Tree) (args : List Tree)
  | subscript (e i : Tree)
  | negate (e : Tree)
  | not (e : Tree)
  | binary (op : BinaryOp) (a b : Tree)
  | compare (first : Tree) (rest : List (BinaryOp × Tree))

/-- The levels of the grammar, the loosest first. -/
inductive Level where
  | disjunction | conjunction | inversion | comparison | sum | term | factor | power | primary | atom
  deriving DecidableEq, Repr

namespace Level

/-- The place of a level in the order; a greater rank binds less. -/
def rank : Level → Nat
  | disjunction => 9
  | conjunction => 8
  | inversion => 7
  | comparison => 6
  | sum => 5
  | term => 4
  | factor => 3
  | power => 2
  | primary => 1
  | atom => 0

/-- The next tighter level. -/
def tighter : Level → Level
  | disjunction => conjunction
  | conjunction => inversion
  | inversion => comparison
  | comparison => sum
  | sum => term
  | term => factor
  | factor => power
  | power => primary
  | primary => atom
  | atom => atom

theorem rank_tighter (l : Level) : l.tighter.rank = l.rank - 1 := by cases l <;> rfl

/-- Whether the operators of a level associate to the left. -/
def associatesLeft : Level → Bool
  | disjunction | conjunction | sum | term => true
  | _ => false

theorem rank_tighter_lt {l : Level} (h : l.associatesLeft = true) : l.tighter.rank < l.rank := by
  cases l <;> first | decide | cases h

end Level

/-- The level at which an operator stands. -/
def opLevel : BinaryOp → Level
  | .or => .disjunction
  | .and => .conjunction
  | .equal | .notEqual | .less | .lessEqual | .greater | .greaterEqual => .comparison
  | .add | .subtract => .sum
  | .multiply | .divide | .floorDivide | .modulo => .term
  | .power => .power

/-- Some tokens form an expression of a level. -/
inductive Parses : Level → List Token → Tree → Prop
  | tighter {l : Level} {ts : List Token} {t : Tree} (h : Parses l.tighter ts t) : Parses l ts t
  | leftAssociative {op : BinaryOp} {ts us : List Token} {a b : Tree}
      (hop : (opLevel op).associatesLeft = true) (ha : Parses (opLevel op) ts a)
      (hb : Parses (opLevel op).tighter us b) :
      Parses (opLevel op) (ts ++ .operator op :: us) (.binary op a b)
  | negation {ts : List Token} {t : Tree} (h : Parses .inversion ts t) :
      Parses .inversion (.notWord :: ts) (.not t)
  | comparison {ts : List Token} {a : Tree} {rest : List (BinaryOp × List Token × Tree)}
      (ha : Parses .sum ts a) (hne : rest ≠ []) (hop : ∀ r ∈ rest, opLevel r.1 = .comparison)
      (hb : ∀ r ∈ rest, Parses .sum r.2.1 r.2.2) :
      Parses .comparison (ts ++ rest.flatMap fun r => .operator r.1 :: r.2.1)
        (.compare a (rest.map fun r => (r.1, r.2.2)))
  | sign {ts : List Token} {t : Tree} (h : Parses .factor ts t) :
      Parses .factor (.operator .subtract :: ts) (.negate t)
  | power {ts us : List Token} {a b : Tree} (ha : Parses .primary ts a) (hb : Parses .factor us b) :
      Parses .power (ts ++ .operator .power :: us) (.binary .power a b)
  | field {ts : List Token} {e : Tree} (n : String) (h : Parses .primary ts e) :
      Parses .primary (ts ++ [.dot, .name n]) (.attribute e n)
  | call {ts : List Token} {f : Tree} {args : List (List Token × Tree)} (hf : Parses .primary ts f)
      (ha : ∀ p ∈ args, Parses .disjunction p.1 p.2) :
      Parses .primary
        (ts ++ .opening :: (List.intercalate [.comma] (args.map Prod.fst) ++ [.closing]))
        (.call f (args.map Prod.snd))
  | subscript {ts us : List Token} {e i : Tree} (he : Parses .primary ts e)
      (hi : Parses .disjunction us i) :
      Parses .primary (ts ++ .openingBracket :: (us ++ [.closingBracket])) (.subscript e i)
  | name (n : String) : Parses .atom [.name n] (.name n)
  | number (n : String) : Parses .atom [.number n] (.number n)
  | text (s : String) : Parses .atom [.text s] (.text s)
  | parentheses {ts : List Token} {t : Tree} (h : Parses .disjunction ts t) :
      Parses .atom (.opening :: (ts ++ [.closing])) t

/-- An expression is one of every looser level too. -/
theorem Parses.lift {l k : Level} {ts : List Token} {t : Tree} (h : Parses l ts t)
    (hle : l.rank ≤ k.rank) : Parses k ts t := by
  -- one step loosens an expression by one level, so the induction is on the rank of the looser one
  induction hn : k.rank generalizing k with
  | zero =>
    obtain rfl : l = k := by cases l <;> cases k <;> simp_all [Level.rank]
    exact h
  | succ n ih =>
    rcases Nat.lt_or_eq_of_le hle with hlt | heq
    · have := k.rank_tighter
      exact .tighter (ih (by omega) (by omega))
    · obtain rfl : l = k := by cases l <;> cases k <;> simp_all [Level.rank]
      exact h

/-! ## The parser -/

/-- What has been read from some tokens, provided that it took something away. -/
def taken {α : Type} (ts : List Token) (read : Option (α × List Token)) :
    Option { p : α × List Token // p.2.length < ts.length } :=
  read.bind fun p => if h : p.2.length < ts.length then some ⟨p, h⟩ else none

mutual

/-- The longest expression of a level at the start of some tokens, and the tokens after it. -/
def parse (l : Level) (ts : List Token) : Option (Tree × List Token) :=
  if _h : l.associatesLeft = true then do
    let ⟨(a, r), _⟩ ← taken ts (parse l.tighter ts)
    parseOperands l a r
  else match l, ts with
    | .inversion, .notWord :: r => do
      let (t, r) ← parse .inversion r
      return (.not t, r)
    | .inversion, ts => parse .comparison ts
    | .comparison, ts => do
      let ⟨(a, r), _⟩ ← taken ts (parse .sum ts)
      let (cs, r) ← parseComparisons r
      return (if cs.isEmpty then a else .compare a cs, r)
    | .factor, .operator .subtract :: r => do
      let (t, r) ← parse .factor r
      return (.negate t, r)
    | .factor, ts => parse .power ts
    | .power, ts => do
      let ⟨(a, r), h⟩ ← taken ts (parse .primary ts)
      match r, h with
      | .operator .power :: r, _ => do
        let (b, r) ← parse .factor r
        return (.binary .power a b, r)
      | r, _ => return (a, r)
    | .primary, ts => do
      let ⟨(a, r), _⟩ ← taken ts (parse .atom ts)
      parseTrailers a r
    | .atom, .name n :: r => return (.name n, r)
    | .atom, .number n :: r => return (.number n, r)
    | .atom, .text s :: r => return (.text s, r)
    | .atom, .opening :: r => do
      let (t, r) ← parse .disjunction r
      match r with
      | .closing :: r => return (t, r)
      | _ => none
    | _, _ => none
termination_by (ts.length, l.rank)
decreasing_by
  all_goals
    first
    -- a tighter level may look at the same tokens; everything else has fewer of them
    | exact Prod.Lex.right _ (Level.rank_tighter_lt ‹_›)
    | exact Prod.Lex.right _ (by decide)
    | exact Prod.Lex.left _ _ (by simp only [List.length_cons] at *; omega)

/-- Takes further operands of a level whose operators associate to the left. -/
def parseOperands (l : Level) (a : Tree) (ts : List Token) : Option (Tree × List Token) :=
  match ts with
  | .operator op :: r =>
    if opLevel op = l then do
      let ⟨(b, r), _⟩ ← taken r (parse l.tighter r)
      parseOperands l (.binary op a b) r
    else return (a, ts)
  | _ => return (a, ts)
termination_by (ts.length, 0)
decreasing_by
  all_goals exact Prod.Lex.left _ _ (by simp only [List.length_cons] at *; omega)

/-- Takes comparisons, as many as there are. -/
def parseComparisons (ts : List Token) : Option (List (BinaryOp × Tree) × List Token) :=
  match ts with
  | .operator op :: r =>
    if opLevel op = .comparison then do
      let ⟨(b, r), _⟩ ← taken r (parse .sum r)
      let (cs, r) ← parseComparisons r
      return ((op, b) :: cs, r)
    else return ([], ts)
  | _ => return ([], ts)
termination_by (ts.length, 0)
decreasing_by
  all_goals exact Prod.Lex.left _ _ (by simp only [List.length_cons] at *; omega)

/-- Takes attributes, calls and subscripts. -/
def parseTrailers (a : Tree) (ts : List Token) : Option (Tree × List Token) :=
  match ts with
  | .dot :: .name n :: r => parseTrailers (.attribute a n) r
  | .opening :: .closing :: r => parseTrailers (.call a []) r
  | .opening :: r => do
    let ⟨(args, r), h⟩ ← taken r (parseArguments r)
    match r, h with
    | .closing :: r, _ => parseTrailers (.call a args) r
    | _, _ => none
  | .openingBracket :: r => do
    let ⟨(i, r), h⟩ ← taken r (parse .disjunction r)
    match r, h with
    | .closingBracket :: r, _ => parseTrailers (.subscript a i) r
    | _, _ => none
  | _ => return (a, ts)
termination_by (ts.length, 0)
decreasing_by
  all_goals exact Prod.Lex.left _ _ (by simp only [List.length_cons] at *; omega)

/-- Takes arguments, at least one. -/
def parseArguments (ts : List Token) : Option (List Tree × List Token) := do
  let ⟨(a, r), h⟩ ← taken ts (parse .disjunction ts)
  match r, h with
  | .comma :: r, _ => do
    let (args, r) ← parseArguments r
    return (a :: args, r)
  | r, _ => return ([a], r)
termination_by (ts.length, 10)
decreasing_by
  all_goals
    first
    | exact Prod.Lex.right _ (by decide)
    | exact Prod.Lex.left _ _ (by simp only [List.length_cons] at *; omega)

end

theorem taken_of_lt {α : Type} {ts r : List Token} {a : α} (h : r.length < ts.length) :
    taken ts (some (a, r)) = some ⟨(a, r), h⟩ := by
  rw [taken, Option.bind_some, dif_pos h]

/-! ## What begins and what continues an expression -/

/-- The tightest level of the expressions that begin with a token, if there are any. -/
def Token.begins : Token → Option Level
  | .name _ | .number _ | .text _ | .opening => some .atom
  | .operator .subtract => some .factor
  | .notWord => some .inversion
  | _ => none

/-- The level at which a token continues the expression before it, if it can. -/
def Token.continues : Token → Option Level
  | .operator op => some (opLevel op)
  | .opening | .openingBracket | .dot => some .primary
  | _ => none

/-- Every expression of a level begins with a token that begins it or something tighter. -/
theorem Parses.head {l : Level} {ts : List Token} {t : Tree} (h : Parses l ts t) :
    ∃ tok r k, ts = tok :: r ∧ tok.begins = some k ∧ k.rank ≤ l.rank := by
  induction h with
  | @tighter l ts t _ ih =>
    obtain ⟨tok, r, k, rfl, hk, hle⟩ := ih
    exact ⟨tok, r, k, rfl, hk, by have := l.rank_tighter; omega⟩
  | leftAssociative _ _ _ iha _ | field _ _ iha | call _ _ iha _ | subscript _ _ iha _ =>
    obtain ⟨tok, r, k, rfl, hk, hle⟩ := iha
    exact ⟨tok, _, k, rfl, hk, hle⟩
  | comparison _ _ _ _ iha _ | power _ _ iha _ =>
    obtain ⟨tok, r, k, rfl, hk, hle⟩ := iha
    exact ⟨tok, _, k, rfl, hk, Nat.le_trans hle (by decide)⟩
  | negation _ _ | sign _ _ => exact ⟨_, _, _, rfl, rfl, Nat.le_refl _⟩
  | name _ | number _ | text _ | parentheses _ _ => exact ⟨_, _, _, rfl, rfl, Nat.le_refl _⟩

/-- Nothing at the start of some tokens continues an expression of a level. -/
def Stops (l : Level) (rest : List Token) : Prop :=
  ∀ tok ∈ rest.head?, ∀ k, tok.continues = some k → l.rank < k.rank

theorem stops_nil (l : Level) : Stops l [] := by
  intro tok h
  simp at h

theorem stops_cons {l : Level} {tok : Token} {r : List Token}
    (h : ∀ k, tok.continues = some k → l.rank < k.rank) : Stops l (tok :: r) := by
  intro tok' htok
  obtain rfl : tok = tok' := by simpa using htok
  exact h

theorem Stops.mono {l k : Level} {rest : List Token} (h : Stops l rest) (hle : k.rank ≤ l.rank) :
    Stops k rest :=
  fun tok htok j hj => Nat.lt_of_le_of_lt hle (h tok htok j hj)

/-- An operator of a level does not continue anything tighter. -/
theorem stops_operator {l : Level} {op : BinaryOp} {r : List Token} (h : l.rank < (opLevel op).rank) :
    Stops l (.operator op :: r) := by
  refine stops_cons fun k hk => ?_
  obtain rfl : opLevel op = k := by simpa [Token.continues] using hk
  exact h

/-- The delimiter after an expression ends it. -/
theorem stops_delimiter {l : Level} {tok : Token} {r : List Token} (h : tok.continues = none) :
    Stops l (tok :: r) :=
  stops_cons fun k hk => by rw [h] at hk; cases hk

/-- No token continues a power but one that continues a factor too: there are no operators between
the two levels. -/
theorem Stops.factor {rest : List Token} (h : Stops .power rest) : Stops .factor rest := by
  intro tok htok k hk
  have hlt := h tok htok k hk
  cases tok with
  | operator op =>
    obtain rfl : opLevel op = k := by simpa [Token.continues] using hk
    cases op <;> revert hlt <;> decide
  | opening | openingBracket | dot =>
    obtain rfl : Level.primary = k := by simpa [Token.continues] using hk
    exact absurd hlt (by decide)
  | _ => simp [Token.continues] at hk

/-! ## The parser reads every derivation back -/

/-- What the parser still does at a level once it has an expression of it: it looks for more operands
or trailers. -/
def finish (l : Level) (t : Tree) (rest : List Token) : Option (Tree × List Token) :=
  match l with
  | .primary => parseTrailers t rest
  | l => if l.associatesLeft then parseOperands l t rest else some (t, rest)

/-- What may follow an expression of a level while the parser is still at it. -/
def Follows (l : Level) (rest : List Token) : Prop :=
  if l.associatesLeft = true ∨ l = .primary then Stops l.tighter rest else Stops l rest

theorem Stops.follows {l : Level} {rest : List Token} (h : Stops l rest) : Follows l rest := by
  unfold Follows
  split
  · exact h.mono (by rw [Level.rank_tighter]; omega)
  · exact h

theorem parseOperands_of_stops {l : Level} {t : Tree} {rest : List Token} (h : Stops l rest) :
    parseOperands l t rest = some (t, rest) := by
  rw [parseOperands.eq_def]
  split
  · rename_i op r
    have hlt := h (.operator op) (by simp) (opLevel op) rfl
    rw [if_neg (by rintro rfl; omega)]
    rfl
  · rfl

theorem parseTrailers_of_stops {t : Tree} {rest : List Token} (h : Stops .primary rest) :
    parseTrailers t rest = some (t, rest) := by
  have hno : ∀ tok ∈ rest.head?, tok.continues ≠ some .primary :=
    fun tok htok hc => Nat.lt_irrefl _ (h tok htok _ hc)
  rw [parseTrailers.eq_def]
  split
  · exact absurd rfl (hno .dot (by simp))
  · exact absurd rfl (hno .opening (by simp))
  · exact absurd rfl (hno .opening (by simp))
  · exact absurd rfl (hno .openingBracket (by simp))
  · rfl

theorem parseComparisons_of_stops {rest : List Token} (h : Stops .comparison rest) :
    parseComparisons rest = some ([], rest) := by
  rw [parseComparisons.eq_def]
  split
  · rename_i op r
    have hlt := h (.operator op) (by simp) (opLevel op) rfl
    rw [if_neg (by intro heq; rw [heq] at hlt; exact Nat.lt_irrefl _ hlt)]
    rfl
  · rfl

/-- Where an expression of a level ends, the parser takes nothing more. -/
theorem finish_of_stops {l : Level} {t : Tree} {rest : List Token} (h : Stops l rest) :
    finish l t rest = some (t, rest) := by
  unfold finish
  split
  · exact parseTrailers_of_stops h
  · split
    · exact parseOperands_of_stops h
    · rfl

/-- The parser at a level with operators that associate to the left. -/
theorem parse_associatesLeft {l : Level} (hl : l.associatesLeft = true) (ts : List Token) :
    parse l ts =
      (taken ts (parse l.tighter ts)).bind fun p => parseOperands l p.val.1 p.val.2 := by
  rw [parse.eq_def, dif_pos hl]
  rfl

/-- Some tokens read as a tree of a level: there is at least one of them, and the parser gets to the
tree whatever follows. -/
structure Reads (l : Level) (ts : List Token) (t : Tree) : Prop where
  nonempty : ts ≠ []
  parse_append : ∀ rest, Follows l rest → parse l (ts ++ rest) = finish l t rest

theorem Reads.stops {l : Level} {ts : List Token} {t : Tree} (h : Reads l ts t) {rest : List Token}
    (hrest : Stops l rest) : parse l (ts ++ rest) = some (t, rest) := by
  rw [h.parse_append rest hrest.follows, finish_of_stops hrest]

theorem length_lt_append {ts : List Token} (h : ts ≠ []) (rest : List Token) :
    rest.length < (ts ++ rest).length := by
  have := List.length_pos_iff.mpr h
  rw [List.length_append]
  omega

/-- What is read takes something away, as the parser asks before it goes on. -/
theorem Reads.taken_eq {l : Level} {ts : List Token} {t : Tree} (h : Reads l ts t) {rest : List Token}
    (hrest : Stops l rest) : taken (ts ++ rest) (parse l (ts ++ rest)) =
      some ⟨(t, rest), length_lt_append h.nonempty rest⟩ := by
  rw [h.stops hrest, taken_of_lt (length_lt_append h.nonempty rest)]

/-- Where no word of negation stands, an inversion is what the next level reads. -/
theorem parse_inversion_of_ne {ts : List Token} (h : ts.head? ≠ some .notWord) :
    parse .inversion ts = parse .comparison ts := by
  rw [parse.eq_def, dif_neg (by decide)]
  cases ts with
  | nil => rfl
  | cons tok r => cases tok <;> first | rfl | exact absurd rfl h

/-- Where no sign stands, a factor is what the next level reads. -/
theorem parse_factor_of_ne {ts : List Token} (h : ts.head? ≠ some (.operator .subtract)) :
    parse .factor ts = parse .power ts := by
  rw [parse.eq_def, dif_neg (by decide)]
  rcases ts with - | ⟨tok, r⟩
  · rfl
  · cases tok with
    | operator op => cases op <;> first | rfl | exact absurd rfl h
    | _ => rfl

/-- An expression of the next tighter level, at each level. -/
theorem Reads.tighter {l : Level} {ts : List Token} {t : Tree} (hp : Parses l.tighter ts t)
    (h : Reads l.tighter ts t) : Reads l ts t := by
  refine ⟨h.nonempty, fun rest hrest => ?_⟩
  obtain ⟨tok, r, k, rfl, hk, hle⟩ := hp.head
  cases l with
  | disjunction | conjunction | sum | term =>
    rw [parse_associatesLeft rfl, h.taken_eq hrest]
    rfl
  | inversion =>
    have hs : Stops .inversion rest := hrest
    -- what the next level reads does not begin with the word of negation
    have ha : parse .comparison (tok :: r ++ rest) = some (t, rest) := h.stops (hs.mono (by decide))
    have hne : tok ≠ .notWord := by
      rintro rfl
      obtain rfl : Level.inversion = k := by simpa [Token.begins] using hk
      exact absurd hle (by decide)
    rw [parse_inversion_of_ne (by simpa using hne), ha]
    rfl
  | comparison =>
    have hs : Stops .comparison rest := hrest
    have ha : taken _ (parse .sum (tok :: r ++ rest)) = _ := h.taken_eq (hs.mono (by decide))
    rw [parse, dif_neg (by decide)]
    dsimp only
    rw [ha]
    show (do
      let (cs, r) ← parseComparisons rest
      return (if cs.isEmpty then t else .compare t cs, r)) = _
    rw [parseComparisons_of_stops hs]
    rfl
  | factor =>
    have hs : Stops .factor rest := hrest
    -- what the next level reads does not begin with a sign
    have ha : parse .power (tok :: r ++ rest) = some (t, rest) := h.stops (hs.mono (by decide))
    have hne : tok ≠ .operator .subtract := by
      rintro rfl
      obtain rfl : Level.factor = k := by simpa [Token.begins] using hk
      exact absurd hle (by decide)
    rw [parse_factor_of_ne (by simpa using hne), ha]
    rfl
  | power =>
    have hs : Stops .power rest := hrest
    have ha : taken _ (parse .primary (tok :: r ++ rest)) = _ := h.taken_eq (hs.mono (by decide))
    rw [parse, dif_neg (by decide)]
    dsimp only
    rw [ha]
    -- the operator of a power does not follow, for it would continue the expression
    rcases rest with - | ⟨u, r'⟩
    · rfl
    · cases u with
      | operator op =>
        cases op <;> first | rfl | exact absurd (hs (.operator .power) (by simp) .power rfl) (by decide)
      | _ => rfl
  | primary =>
    have ha : taken _ (parse .atom (tok :: r ++ rest)) = _ := h.taken_eq hrest
    rw [parse, dif_neg (by decide)]
    dsimp only
    rw [ha]
    rfl
  | atom => exact h.parse_append rest hrest

/-- The operands of a chain of comparisons. -/
theorem parseComparisons_flatMap {cs : List (BinaryOp × List Token × Tree)} {rest : List Token}
    (hop : ∀ c ∈ cs, opLevel c.1 = .comparison) (hb : ∀ c ∈ cs, Reads .sum c.2.1 c.2.2)
    (hrest : Stops .comparison rest) :
    parseComparisons (cs.flatMap (fun c => .operator c.1 :: c.2.1) ++ rest) =
      some (cs.map fun c => (c.1, c.2.2), rest) := by
  induction cs with
  | nil => exact parseComparisons_of_stops hrest
  | cons c cs ih =>
    obtain ⟨op, ts, t⟩ := c
    have hc : opLevel op = .comparison := hop (op, ts, t) (by simp)
    -- what follows the operand is the end or the next operator, neither of which continues it
    have hnext : Stops .sum (cs.flatMap (fun c => .operator c.1 :: c.2.1) ++ rest) := by
      cases cs with
      | nil => exact hrest.mono (by decide)
      | cons d ds =>
        have hd : opLevel d.1 = .comparison := hop d (by simp)
        exact stops_operator (by rw [hd]; decide)
    have hread := (hb (op, ts, t) (by simp)).taken_eq hnext
    have ih := ih (fun c hc => hop c (List.mem_cons_of_mem _ hc)) fun c hc =>
      hb c (List.mem_cons_of_mem _ hc)
    rw [List.flatMap_cons, List.cons_append, List.cons_append, List.append_assoc, parseComparisons,
      if_pos hc, hread]
    show (do
      let (cs, r) ← parseComparisons _
      return ((op, t) :: cs, r)) = _
    rw [ih]
    rfl

/-- The arguments of a call. -/
theorem parseArguments_intercalate {args : List (List Token × Tree)} (hne : args ≠ [])
    (ha : ∀ p ∈ args, Reads .disjunction p.1 p.2) (rest : List Token) :
    parseArguments (List.intercalate [.comma] (args.map Prod.fst) ++ .closing :: rest) =
      some (args.map Prod.snd, .closing :: rest) := by
  induction args with
  | nil => exact absurd rfl hne
  | cons p ps ih =>
    obtain ⟨ts, t⟩ := p
    -- an argument ends at the comma or at the parenthesis after it
    have hread : ∀ tok r, tok.continues = none → taken (ts ++ tok :: r)
        (parse .disjunction (ts ++ tok :: r)) = some ⟨(t, tok :: r), length_lt_append (ha (ts, t)
          (by simp)).nonempty _⟩ :=
      fun tok r htok => (ha (ts, t) (by simp)).taken_eq (stops_delimiter htok)
    cases ps with
    | nil =>
      have hjoin : List.intercalate [.comma] ([(ts, t)].map Prod.fst) = ts := by simp [List.intercalate]
      rw [hjoin, parseArguments, hread .closing rest rfl]
      rfl
    | cons q qs =>
      have ih := ih (by simp) fun p hp => ha p (List.mem_cons_of_mem _ hp)
      have hjoin : List.intercalate [.comma] (((ts, t) :: q :: qs).map Prod.fst) ++ .closing :: rest =
          ts ++ .comma ::
            (List.intercalate [.comma] ((q :: qs).map Prod.fst) ++ .closing :: rest) := by
        simp [List.intercalate]
      rw [hjoin, parseArguments, hread .comma _ rfl]
      show (do
        let (args, r) ← parseArguments _
        return (t :: args, r)) = _
      rw [ih]
      rfl

theorem finish_of_associatesLeft {l : Level} (hl : l.associatesLeft = true) (t : Tree)
    (rest : List Token) : finish l t rest = parseOperands l t rest := by
  cases l <;> first | rfl | cases hl

theorem follows_of_associatesLeft {l : Level} (hl : l.associatesLeft = true) {rest : List Token} :
    Follows l rest ↔ Stops l.tighter rest := by
  rw [Follows, if_pos (Or.inl hl)]

/-- An operation whose operands associate to the left: the parser, done with the left operand, finds
the operator and takes the right one, and is then where it is after any operand. -/
theorem Reads.leftAssociative {op : BinaryOp} {ts us : List Token} {a b : Tree}
    (hop : (opLevel op).associatesLeft = true) (ha : Reads (opLevel op) ts a)
    (hb : Reads (opLevel op).tighter us b) :
    Reads (opLevel op) (ts ++ .operator op :: us) (.binary op a b) := by
  refine ⟨by simp, fun rest hrest => ?_⟩
  have hstops : Stops (opLevel op).tighter rest := (follows_of_associatesLeft hop).mp hrest
  -- the operator ends its left operand for the tighter levels only
  have hlt : (opLevel op).tighter.rank < (opLevel op).rank := by
    cases h : opLevel op <;> first | decide | (rw [h] at hop; cases hop)
  have hfollows : Follows (opLevel op) (.operator op :: (us ++ rest)) :=
    (follows_of_associatesLeft hop).mpr (stops_operator hlt)
  rw [List.append_assoc, List.cons_append, ha.parse_append _ hfollows,
    finish_of_associatesLeft hop, finish_of_associatesLeft hop, parseOperands, if_pos rfl,
    hb.taken_eq hstops]
  rfl

/-- A chain of comparisons. -/
theorem Reads.comparison {ts : List Token} {a : Tree} {cs : List (BinaryOp × List Token × Tree)}
    (ha : Reads .sum ts a) (hne : cs ≠ []) (hop : ∀ c ∈ cs, opLevel c.1 = .comparison)
    (hb : ∀ c ∈ cs, Reads .sum c.2.1 c.2.2) :
    Reads .comparison (ts ++ cs.flatMap fun c => .operator c.1 :: c.2.1)
      (.compare a (cs.map fun c => (c.1, c.2.2))) := by
  refine ⟨List.append_ne_nil_of_left_ne_nil ha.nonempty _, fun rest hrest => ?_⟩
  have hstops : Stops .comparison rest := hrest
  obtain ⟨c, cs, rfl⟩ := List.exists_cons_of_ne_nil hne
  have hnext : Stops .sum ((c :: cs).flatMap (fun c => .operator c.1 :: c.2.1) ++ rest) :=
    stops_operator (by rw [hop c (by simp)]; decide)
  rw [List.append_assoc, parse, dif_neg (by decide)]
  dsimp only
  rw [ha.taken_eq hnext]
  show (do
    let (cs, r) ← parseComparisons _
    return (if cs.isEmpty then a else .compare a cs, r)) = _
  rw [parseComparisons_flatMap hop hb hstops]
  rfl

/-- A power, whose right operand is as long as a factor can be. -/
theorem Reads.power {ts us : List Token} {a b : Tree} (ha : Reads .primary ts a)
    (hb : Reads .factor us b) : Reads .power (ts ++ .operator .power :: us) (.binary .power a b) := by
  refine ⟨by simp, fun rest hrest => ?_⟩
  have hstops : Stops .power rest := hrest
  have hnext : Stops .primary (.operator .power :: (us ++ rest)) := stops_operator (by decide)
  rw [List.append_assoc, List.cons_append, parse, dif_neg (by decide)]
  dsimp only
  rw [ha.taken_eq hnext]
  show (do
    let (b, r) ← parse .factor (us ++ rest)
    return (Tree.binary .power a b, r)) = _
  rw [hb.stops hstops.factor]
  rfl

/-- Whatever follows the expression before a trailer, the parser gets to it: only an atom has to end
there, and no trailer continues an atom. -/
theorem follows_primary {tok : Token} {r : List Token} (h : tok.continues = some .primary) :
    Follows .primary (tok :: r) := by
  refine stops_cons fun k hk => ?_
  obtain rfl : Level.primary = k := by simpa [h] using hk
  decide

theorem Reads.field {ts : List Token} {e : Tree} (n : String) (h : Reads .primary ts e) :
    Reads .primary (ts ++ [.dot, .name n]) (.attribute e n) := by
  refine ⟨by simp, fun rest hrest => ?_⟩
  rw [List.append_assoc, List.cons_append, h.parse_append _ (follows_primary rfl)]
  show parseTrailers _ _ = parseTrailers _ _
  rw [List.cons_append, parseTrailers]
  rfl

/-- A call with arguments, once they have been read. -/
theorem parseTrailers_call {a : Tree} {ts r : List Token} {args : List Tree}
    (hne : ts.head? ≠ some .closing) (hargs : parseArguments ts = some (args, .closing :: r))
    (hlt : r.length + 1 < ts.length) :
    parseTrailers a (.opening :: ts) = parseTrailers (.call a args) r := by
  have htaken : taken ts (parseArguments ts) = some ⟨(args, .closing :: r), hlt⟩ := by
    rw [hargs, taken_of_lt]
  rw [parseTrailers.eq_def]
  split
  -- without arguments the closing parenthesis would follow
  case h_2 heq =>
    obtain ⟨-, rfl⟩ := List.cons.inj heq
    exact absurd rfl hne
  case h_3 heq =>
    obtain ⟨-, rfl⟩ := List.cons.inj heq
    rw [htaken]
    rfl
  all_goals simp_all

theorem Reads.call {ts : List Token} {f : Tree} {args : List (List Token × Tree)}
    (hf : Reads .primary ts f) (hp : ∀ p ∈ args, Parses .disjunction p.1 p.2)
    (ha : ∀ p ∈ args, Reads .disjunction p.1 p.2) :
    Reads .primary (ts ++ .opening :: (List.intercalate [.comma] (args.map Prod.fst) ++ [.closing]))
      (.call f (args.map Prod.snd)) := by
  refine ⟨by simp, fun rest hrest => ?_⟩
  rw [List.append_assoc, List.cons_append, List.append_assoc,
    hf.parse_append _ (follows_primary rfl)]
  show parseTrailers _ _ = parseTrailers _ _
  by_cases hne : args = []
  · subst hne
    exact parseTrailers.eq_def _ _
  · -- the first argument does not begin with the closing parenthesis
    obtain ⟨tok, r, htok, hlist⟩ : ∃ tok r, tok ≠ .closing ∧
        List.intercalate [.comma] (args.map Prod.fst) = tok :: r := by
      obtain ⟨p, ps, rfl⟩ := List.exists_cons_of_ne_nil hne
      obtain ⟨tok, r, k, hts, hk, -⟩ := (hp p (by simp)).head
      have htok : tok ≠ .closing := by
        rintro rfl
        simp [Token.begins] at hk
      rw [List.map_cons, hts]
      cases ps with
      | nil => exact ⟨tok, r ++ [], htok, rfl⟩
      | cons q qs =>
        exact ⟨tok, r ++ .comma :: List.intercalate [.comma] ((q :: qs).map Prod.fst), htok, rfl⟩
    have hargs := parseArguments_intercalate hne ha rest
    refine parseTrailers_call ?_ hargs ?_
    · rw [hlist, List.cons_append, List.head?_cons]
      exact fun heq => htok (Option.some.inj heq)
    · simp only [hlist, List.length_append, List.length_cons]
      omega

theorem Reads.subscript {ts us : List Token} {e i : Tree} (he : Reads .primary ts e)
    (hi : Reads .disjunction us i) :
    Reads .primary (ts ++ .openingBracket :: (us ++ [.closingBracket])) (.subscript e i) := by
  refine ⟨by simp, fun rest hrest => ?_⟩
  rw [List.append_assoc, List.cons_append, List.append_assoc,
    he.parse_append _ (follows_primary rfl)]
  show parseTrailers _ _ = parseTrailers _ _
  rw [List.singleton_append, parseTrailers, hi.taken_eq (stops_delimiter rfl)]
  rfl

theorem Reads.parentheses {ts : List Token} {t : Tree} (h : Reads .disjunction ts t) :
    Reads .atom (.opening :: (ts ++ [.closing])) t := by
  refine ⟨by simp, fun rest hrest => ?_⟩
  rw [List.cons_append, List.append_assoc, List.singleton_append, parse, dif_neg (by decide)]
  dsimp only
  rw [h.stops (stops_delimiter rfl)]
  rfl

/-- **The parser is complete.** It reads every derivation of the grammar. -/
theorem Parses.reads {l : Level} {ts : List Token} {t : Tree} (h : Parses l ts t) :
    Reads l ts t := by
  induction h with
  | tighter h ih => exact ih.tighter h
  | leftAssociative hop _ _ iha ihb => exact iha.leftAssociative hop ihb
  | negation _ ih =>
    refine ⟨by simp, fun rest hrest => ?_⟩
    have hstops : Stops .inversion rest := hrest
    rw [List.cons_append, parse, dif_neg (by decide)]
    dsimp only
    rw [ih.stops hstops]
    rfl
  | comparison _ hne hop _ iha ihb => exact iha.comparison hne hop ihb
  | sign _ ih =>
    refine ⟨by simp, fun rest hrest => ?_⟩
    have hstops : Stops .factor rest := hrest
    rw [List.cons_append, parse, dif_neg (by decide)]
    dsimp only
    rw [ih.stops hstops]
    rfl
  | power _ _ iha ihb => exact iha.power ihb
  | field n _ ih => exact ih.field n
  | call _ ha ihf iha => exact ihf.call ha iha
  | subscript _ _ ihe ihi => exact ihe.subscript ihi
  | name _ | number _ | text _ =>
    refine ⟨by simp, fun rest hrest => ?_⟩
    rw [List.cons_append, parse, dif_neg (by decide)]
    rfl
  | parentheses _ ih => exact ih.parentheses

/-- The parser takes all the tokens of an expression. -/
theorem Parses.parse_eq {l : Level} {ts : List Token} {t : Tree} (h : Parses l ts t) :
    parse l ts = some (t, []) := by
  have := h.reads.stops (stops_nil l)
  rwa [List.append_nil] at this

/-- **The grammar is unambiguous.** Some tokens are one expression of a level at most. -/
theorem Parses.unique {l : Level} {ts : List Token} {t u : Tree} (h : Parses l ts t)
    (h' : Parses l ts u) : t = u := by
  have heq : some (t, []) = some (u, []) := h.parse_eq.symm.trans h'.parse_eq
  simpa using heq

end Script

end BlockBoard
