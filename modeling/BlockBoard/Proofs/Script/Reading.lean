import BlockBoard.Proofs.Script.Grammar
import BlockBoard.Proofs.Script.Spelling
/-!
# Expressions are read back

An expression is written with parentheses only where its place asks for them, and the board reads it
back as it was meant.

- `Expr.tree`: what an expression means.
- `Expr.Proper`: what expressions of a program have in common: names that are names, numerals of
  digits, and attributes only of things that are reached by name.
- `Expr.Proper.read`: **the code of a proper expression is one expression of the grammar, and it is
  read in one way: as the tree that was written**.
-/

namespace BlockBoard

namespace Expr

open Script

/-! ## Meaning and tokens -/

mutual

/-- What an expression means. -/
def tree : Expr → Tree
  | .name n => .name n
  | .number n => .number n.text
  | .text s => .text s
  | .attribute e field => .attribute e.tree field
  | .call f args => .call f.tree (trees args)
  | .subscript e i => .subscript e.tree i.tree
  | .negate e => .negate e.tree
  | .not e => .not e.tree
  | .binary op a b =>
    if opLevel op = .comparison then .compare a.tree [(op, b.tree)] else .binary op a.tree b.tree

/-- What arguments mean. -/
def trees : List Expr → List Tree
  | [] => []
  | e :: r => e.tree :: trees r

end

/-- The tokens of a part of a class in its place, like `Fragment.fit`. -/
def fitTokens (bound class_ : Precedence) (ts : List Token) : List Token :=
  if bound.rank < class_.rank then .opening :: (ts ++ [.closing]) else ts

mutual

/-- The tokens of an expression. -/
def tokens : Expr → List Token
  | .name n => [.name n]
  | .number n => [.number n.text]
  | .text s => [.text s]
  | .attribute e field => fitTokens .call e.fragment.precedence e.tokens ++ [.dot, .name field]
  | .call f args =>
    fitTokens .call f.fragment.precedence f.tokens ++
      .opening :: (List.intercalate [.comma] (argumentTokens args) ++ [.closing])
  | .subscript e i =>
    fitTokens .call e.fragment.precedence e.tokens ++
      .openingBracket :: (fitTokens .loosest i.fragment.precedence i.tokens ++ [.closingBracket])
  | .negate e => .operator .subtract :: fitTokens .unary e.fragment.precedence e.tokens
  | .not e => .notWord :: fitTokens .logicalNot e.fragment.precedence e.tokens
  | .binary op a b =>
    fitTokens op.left a.fragment.precedence a.tokens ++
      .operator op :: fitTokens op.right b.fragment.precedence b.tokens

/-- The tokens of each of several arguments. -/
def argumentTokens : List Expr → List (List Token)
  | [] => []
  | e :: r => fitTokens .loosest e.fragment.precedence e.tokens :: argumentTokens r

end

/-- Whether an expression is a name, or reached from one by attributes alone. -/
def isPath : Expr → Bool
  | .name _ => true
  | .attribute e _ => e.isPath
  | _ => false

/-- What expressions of a program have in common. A numeral has no attributes, for its point would be
read as one of its digits. -/
inductive Proper : Expr → Prop
  | name {n : String} (h : isName n = true) : Proper (.name n)
  | number {n : Numeral} (h : n.fraction.all Char.isDigit = true) : Proper (.number n)
  | text (s : String) : Proper (.text s)
  | field {e : Expr} {n : String} (he : Proper e) (hpath : e.isPath = true) (hn : isName n = true) :
      Proper (.attribute e n)
  | call {f : Expr} {args : List Expr} (hf : Proper f) (ha : ∀ a ∈ args, Proper a) :
      Proper (.call f args)
  | subscript {e i : Expr} (he : Proper e) (hi : Proper i) : Proper (.subscript e i)
  | negate {e : Expr} (he : Proper e) : Proper (.negate e)
  | not {e : Expr} (he : Proper e) : Proper (.not e)
  | binary (op : BinaryOp) {a b : Expr} (ha : Proper a) (hb : Proper b) : Proper (.binary op a b)

/-! ## The code of an expression has its tokens -/

/-- What may follow an expression: a point only where it cannot be the point of a numeral. -/
def ends (e : Expr) : Char → Bool := if e.isPath then endsName else endsExpr

theorem endsName_of_endsExpr {c : Char} (h : endsExpr c = true) : endsName c = true := by
  rw [endsExpr, Bool.and_eq_true] at h
  exact h.1

theorem spells_endsExpr {e : Expr} {cs : List Char} {ts : List Token} (h : Spells e.ends cs ts) :
    Spells endsExpr cs ts := by
  unfold ends at h
  split at h
  · exact h.weaken fun c hc => endsName_of_endsExpr hc
  · exact h

/-- Parentheses around a piece of code. -/
theorem spells_parentheses {p : Char → Bool} {cs : List Char} {ts : List Token}
    (h : Spells endsExpr cs ts) : Spells p ('(' :: (cs ++ [')'])) (.opening :: (ts ++ [.closing])) :=
  .cons (tokens?_symbol (by decide) fun _ => rfl) <|
    h.append (.single (tokens?_symbol (by decide) fun _ => rfl)) (by simp) (by simp; decide)

/-- A part in its place. -/
theorem spells_fit {e : Expr} (h : Spells endsExpr e.fragment.code.toList e.tokens)
    (bound : Precedence) :
    Spells endsExpr (e.fragment.fit bound).toList
      (fitTokens bound e.fragment.precedence e.tokens) := by
  unfold Fragment.fit fitTokens
  split
  · have hcode : ("(" ++ e.fragment.code ++ ")").toList = '(' :: (e.fragment.code.toList ++ [')']) := by
      simp
    rw [hcode]
    exact spells_parentheses h
  · exact h

/-- A path is tight enough to have attributes. -/
theorem fit_of_isPath {e : Expr} (h : e.isPath = true) :
    e.fragment.fit .call = e.fragment.code ∧
      fitTokens .call e.fragment.precedence e.tokens = e.tokens := by
  have hrank : ¬ Precedence.call.rank < e.fragment.precedence.rank := by
    cases e <;> simp [isPath, fragment, Precedence.rank] at h ⊢
  exact ⟨if_neg hrank, if_neg hrank⟩

/-- Arguments, with a comma and a space between them. -/
theorem spells_arguments {args : List Expr}
    (h : ∀ a ∈ args, Spells endsExpr a.fragment.code.toList a.tokens) :
    Spells endsExpr (argumentCode args).toList (List.intercalate [.comma] (argumentTokens args)) := by
  induction args with
  | nil =>
    intro rest _
    simp [argumentCode, argumentTokens, List.intercalate]
  | cons a r ih =>
    have ha := spells_fit (h a (by simp)) .loosest
    cases r with
    | nil => simpa [argumentCode, argumentTokens, List.intercalate] using ha
    | cons b r =>
      have ih := ih fun x hx => h x (List.mem_cons_of_mem _ hx)
      have hspace : Spells endsExpr (' ' :: (argumentCode (b :: r)).toList)
          (List.intercalate [.comma] (argumentTokens (b :: r))) := by
        intro rest hrest
        rw [List.cons_append, tokens?_space, ih rest hrest]
      have hcomma : Spells endsExpr (',' :: ' ' :: (argumentCode (b :: r)).toList)
          (.comma :: List.intercalate [.comma] (argumentTokens (b :: r))) :=
        .cons (tokens?_symbol (by decide) fun _ => rfl) hspace
      have := ha.append hcomma (by simp) (by simp; decide)
      simpa [argumentCode, argumentTokens, List.intercalate] using this

/-- The code of a proper expression has its tokens. -/
theorem Proper.spells {e : Expr} (h : e.Proper) : Spells e.ends e.fragment.code.toList e.tokens := by
  induction h with
  | name h => exact spells_name h
  | number h => exact spells_number h
  | text s => exact spells_text s
  | @field e n _ hpath hn ih =>
    -- a path ends where a name ends, so that a point may follow
    have hends : e.ends = endsName := if_pos hpath
    have hdot : Spells endsName ('.' :: n.toList) [.dot, .name n] :=
      .cons (tokens?_symbol (by decide) fun _ => rfl) (spells_name hn)
    have hboth := ih.append hdot (by simp) (by rw [hends]; simp; decide)
    obtain ⟨hcode, htokens⟩ := fit_of_isPath hpath
    rw [show (e.attribute n).ends = endsName from if_pos hpath, tokens, htokens, fragment, hcode]
    simpa using hboth
  | @call f args _ _ ihf iha =>
    have hf := spells_fit (spells_endsExpr ihf) .call
    have hargs := spells_parentheses (p := endsExpr) <|
      spells_arguments fun a ha => spells_endsExpr (iha a ha)
    have hboth := hf.append hargs (by simp) (by simp; decide)
    rw [show (Expr.call f args).ends = endsExpr from rfl, tokens, fragment]
    simpa using hboth
  | @subscript e i _ _ ihe ihi =>
    have he := spells_fit (spells_endsExpr ihe) .call
    have hi : Spells endsExpr ('[' :: ((i.fragment.fit .loosest).toList ++ [']']))
        (.openingBracket ::
          (fitTokens .loosest i.fragment.precedence i.tokens ++ [.closingBracket])) :=
      .cons (tokens?_symbol (by decide) fun _ => rfl) <|
        (spells_fit (spells_endsExpr ihi) .loosest).append
          (.single (tokens?_symbol (by decide) fun _ => rfl)) (by simp) (by simp; decide)
    have hboth := he.append hi (by simp) (by simp; decide)
    rw [show (Expr.subscript e i).ends = endsExpr from rfl, tokens, fragment]
    simpa using hboth
  | @negate e _ ih =>
    have he := spells_fit (spells_endsExpr ih) .unary
    have hsign := he.cons (tokens?_symbol (c := '-') (t := .operator .subtract) (by decide) fun _ => rfl)
    rw [show (Expr.negate e).ends = endsExpr from rfl, tokens, fragment]
    simpa using hsign
  | @not e _ ih =>
    have he := spells_fit (spells_endsExpr ih) .logicalNot
    rw [show (Expr.not e).ends = endsExpr from rfl, tokens, fragment]
    intro rest hrest
    -- the space after the word belongs to no token
    have hword : ("not " ++ e.fragment.fit .logicalNot).toList =
        'n' :: 'o' :: 't' :: ' ' :: (e.fragment.fit .logicalNot).toList := by
      rw [String.toList_append]
      rfl
    rw [hword]
    simp only [List.cons_append]
    rw [tokens?_not, he rest hrest, Option.map_map]
    rfl
  | @binary op a b _ _ iha ihb =>
    have ha := spells_fit (spells_endsExpr iha) op.left
    have hb := spells_fit (spells_endsExpr ihb) op.right
    -- neither do the spaces around an operator
    have hop : Spells endsExpr (' ' :: (op.symbol.toList ++ ' ' :: (b.fragment.fit op.right).toList))
        (.operator op :: fitTokens op.right b.fragment.precedence b.tokens) := by
      intro rest hrest
      rw [List.cons_append, List.append_assoc, List.cons_append, tokens?_operator, hb rest hrest,
        Option.map_map]
      rfl
    have hboth := ha.append hop (by simp) (by simp; decide)
    rw [show (Expr.binary op a b).ends = endsExpr from rfl, tokens, fragment]
    simpa using hboth

/-! ## The tokens of an expression have its meaning -/

/-- The level of the grammar that a class belongs to. -/
def level : Precedence → Level
  | .atomic => .atom
  | .call => .primary
  | .exponent => .power
  | .unary => .factor
  | .multiplicative => .term
  | .additive => .sum
  | .relational => .comparison
  | .logicalNot => .inversion
  | .logicalAnd => .conjunction
  | .logicalOr | .loosest => .disjunction

/-- Levels are in the order of their classes. -/
theorem rank_level_le {p q : Precedence} (h : p.rank ≤ q.rank) : (level p).rank ≤ (level q).rank := by
  revert h
  cases p <;> cases q <;> decide

/-- A part in its place is of the level that the place admits. -/
theorem parses_fit {p : Precedence} {ts : List Token} {t : Tree} (h : Parses (level p) ts t)
    (bound : Precedence) : Parses (level bound) (fitTokens bound p ts) t := by
  unfold fitTokens
  split
  -- in parentheses an expression is an atom, however loose it is
  · have hloose : Parses .disjunction ts t := h.lift (by cases p <;> decide)
    exact (Parses.parentheses hloose).lift (by cases bound <;> decide)
  · exact h.lift (rank_level_le (by omega))

/-- The class of an operator is its level. -/
theorem level_precedence (op : BinaryOp) : level op.precedence = opLevel op := by cases op <;> rfl

/-- A comparison of two operands is a chain of one. -/
theorem parses_compare {op : BinaryOp} {ts us : List Token} {a b : Tree}
    (hop : opLevel op = .comparison) (ha : Parses .sum ts a) (hb : Parses .sum us b) :
    Parses .comparison (ts ++ .operator op :: us) (.compare a [(op, b)]) := by
  have := @Parses.comparison ts a [(op, us, b)] ha (by simp) (by simpa using hop)
    (by simpa using hb)
  simpa using this

/-- An operation on two parts, by the kind of its operator: those that associate to the left admit
their own level there, comparisons do not, and a power admits a sign on its right. -/
theorem parses_binary {op : BinaryOp} {ts us : List Token} {a b : Tree}
    (ha : Parses (level op.left) ts a) (hb : Parses (level op.right) us b) :
    Parses (opLevel op) (ts ++ .operator op :: us)
      (if opLevel op = .comparison then .compare a [(op, b)] else .binary op a b) := by
  cases op with
  | add | subtract | multiply | divide | floorDivide | modulo | and | or =>
    exact .leftAssociative rfl ha hb
  | equal | notEqual | less | lessEqual | greater | greaterEqual =>
    exact parses_compare rfl ha hb
  | power => exact .power ha hb

/-- The arguments of a call, each with its tokens. -/
def readings : List Expr → List (List Token × Tree)
  | [] => []
  | e :: r => (fitTokens .loosest e.fragment.precedence e.tokens, e.tree) :: readings r

theorem map_fst_readings (args : List Expr) : (readings args).map Prod.fst = argumentTokens args := by
  induction args with
  | nil => rfl
  | cons e r ih => rw [readings, List.map_cons, ih, argumentTokens]

theorem map_snd_readings (args : List Expr) : (readings args).map Prod.snd = trees args := by
  induction args with
  | nil => rfl
  | cons e r ih => rw [readings, List.map_cons, ih, trees]

theorem parses_readings {args : List Expr}
    (h : ∀ a ∈ args, Parses (level a.fragment.precedence) a.tokens a.tree) :
    ∀ p ∈ readings args, Parses .disjunction p.1 p.2 := by
  induction args with
  | nil => simp [readings]
  | cons e r ih =>
    intro p hp
    rw [readings, List.mem_cons] at hp
    rcases hp with rfl | hp
    · exact parses_fit (h e (by simp)) .loosest
    · exact ih (fun a ha => h a (List.mem_cons_of_mem _ ha)) p hp

/-- The tokens of an expression have its meaning. -/
theorem Proper.parses {e : Expr} (h : e.Proper) :
    Parses (level e.fragment.precedence) e.tokens e.tree := by
  induction h with
  | name _ => exact .name _
  | number _ => exact .number _
  | text s => exact .text s
  | field _ _ _ ih => exact .field _ (parses_fit ih .call)
  | @call f args _ _ ihf iha =>
    have := Parses.call (parses_fit ihf .call) (parses_readings iha)
    rwa [map_fst_readings, map_snd_readings] at this
  | subscript _ _ ihe ihi => exact .subscript (parses_fit ihe .call) (parses_fit ihi .loosest)
  | negate _ ih => exact .sign (parses_fit ih .unary)
  | not _ ih => exact .negation (parses_fit ih .logicalNot)
  | @binary op a b _ _ iha ihb =>
    rw [show (Expr.binary op a b).fragment.precedence = op.precedence from rfl, level_precedence]
    exact parses_binary (parses_fit iha op.left) (parses_fit ihb op.right)

/-- **An expression is read as it was meant.** The code of a proper expression consists of tokens, and
by the grammar these are the tree of the expression and no other. -/
theorem Proper.read {e : Expr} (h : e.Proper) :
    ∃ ts, tokens? e.fragment.code.toList = some ts ∧ ∀ t, Parses .disjunction ts t ↔ t = e.tree := by
  have hparses : Parses .disjunction e.tokens e.tree :=
    h.parses.lift (by cases e.fragment.precedence <;> decide)
  refine ⟨e.tokens, h.spells.tokens?_eq, fun t => ⟨fun ht => ht.unique hparses, ?_⟩⟩
  rintro rfl
  exact hparses

end Expr

end BlockBoard
