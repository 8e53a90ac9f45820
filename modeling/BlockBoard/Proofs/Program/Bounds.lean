import BlockBoard.Program.Requirements
import BlockBoard.Proofs.Program.Integers
/-!
# The bounds of a random number

The bounds of a random number are exchanged where they are spelled out and the first is the larger one, so
that they are in order when the program runs. They are compared as integers of sixty-four bits, though, and
the number on the face of a block may be a larger one: then the bounds stay as they are.

- `Block.BoundIs`: the integer that is given as a bound in a graph, without a look at the program.
- `boundIs_of_integer?`: a bound that is spelled out is the one that is given.
- `boundsReversed_iff`: when bounds are exchanged.
- `draw_bounds`: **the bounds of a random number are those that are given, and in order unless one is too
  large to be compared**.
- `draw_reversed`: bounds that are out of order in the program.
-/

namespace BlockBoard

/-! ## Bounds in a graph -/

/-- The literals that are accepted as bounds. -/
def boundRange : LiteralRange := ⟨-1000000000, 1000000000⟩

namespace Block

/-- The number on the face of a block; zero if there is none. -/
def faceNumber (b : Block) : Binary64 :=
  ((b.field? "NUM").bind FieldValue.asNumber?).getD (.zero false)

/-- What is plugged in as a bound is given in the graph: nothing, a literal, or a number. -/
def PlainBound (b : Block) (socket : String) : Prop :=
  ∀ first rest, b.input? socket = some (.chain first rest) → first.kind = .number

/-- The integer that is given as a bound, with a number of levels left below the block. A number that is
too deep is replaced by the default. -/
inductive BoundIs (b : Block) (levels : Nat) (socket : String) (default : Int) : Int → Prop
  | unbound (h : b.input? socket = none) : BoundIs b levels socket default default
  | literal {v : FieldValue} (h : b.input? socket = some (.literal v)) :
      BoundIs b levels socket default ((boundRange.read? v).getD default)
  | tooDeep {first : Block} {rest : List Block} (h : b.input? socket = some (.chain first rest))
      (hlevels : levels = 0) : BoundIs b levels socket default default
  | number {first : Block} {rest : List Block} {n : Int} (h : b.input? socket = some (.chain first rest))
      (hlevels : levels ≠ 0) (hn : first.faceNumber.WrittenAs n) : BoundIs b levels socket default n

end Block

/-! ## Numbers -/

section Number

variable {b : Block} (hkind : b.kind = .number)

include hkind

/-- The expression of a number. -/
theorem value_number (below : Option Below) : (valueOf below b).value = .ofNumber b.faceNumber := by
  unfold Block.faceNumber
  simp only [valueOf, hkind]
  cases b.field? "NUM" with
  | none => rfl
  | some v =>
    rw [Option.bind_some]
    cases hv : v.asNumber? with
    | none =>
      simp only [hv]
      rfl
    | some x =>
      simp only [hv]
      rfl

/-- A number is taken for an integer if it is one. -/
theorem producesInteger_number : b.producesInteger = b.faceNumber.isIntegral := by
  obtain ⟨kind, id, fields, inputs⟩ := b
  obtain rfl : kind = .number := hkind
  unfold Block.faceNumber
  have hfield : (Block.mk .number id fields inputs).field? "NUM" = fields.lookup "NUM" := rfl
  rw [Block.producesInteger, hfield]
  have hzero : (Binary64.zero false).isIntegral = true := by decide +kernel
  cases fields.lookup "NUM" with
  | none => exact hzero.symm
  | some v =>
    show v.isIntegral = (v.asNumber?.getD (.zero false)).isIntegral
    unfold FieldValue.isIntegral
    cases v.asNumber? with
    | none => exact hzero.symm
    | some x => rfl

end Number

/-! ## Bounds in the program -/

/-- A bound that is spelled out is the one that is given. -/
theorem boundIs_of_integer? {b : Block} {socket : String} (default : Nat) {levels : Nat} {n : Int}
    (hrange : literalRange? b.kind socket = some boundRange)
    (hsocket : valueSocket? b socket = some (.number, .ofNat default)) (hplain : b.PlainBound socket)
    (h : (integerInput (belowWith levels) b socket).value.integer? = some n) :
    b.BoundIs levels socket default n := by
  unfold integerInput inputOf at h
  rw [Noted.value_bind, hsocket] at h
  cases hinput : b.input? socket with
  | none =>
    rw [hinput] at h
    obtain rfl : (default : Int) = n := Option.some.inj h
    exact .unbound hinput
  | some binding =>
    rw [hinput] at h
    cases binding with
    | literal v =>
      have hread := (numberLiteral_read hrange (by decide) (by decide) default v).1
      obtain rfl := Option.some.inj (hread.symm.trans h)
      exact .literal hinput
    | chain first rest =>
      have hnumber := hplain first rest hinput
      have hvalue : first.kind.isStatement = false := by
        rw [hnumber]
        rfl
      simp only [hvalue, Bool.false_eq_true, if_false] at h
      by_cases hintegral : first.producesInteger = true
      · simp only [if_pos hintegral] at h
        cases levels with
        | zero =>
          obtain rfl : (default : Int) = n := Option.some.inj h
          exact .tooDeep hinput rfl
        | succ levels =>
          have hwritten : (Expr.ofNumber first.faceNumber).integer? = some n := by
            rw [← value_number hnumber (belowWith levels)]
            exact h
          obtain ⟨m, hm, hwrittenAs⟩ :=
            Expr.writtenAs_ofNumber (producesInteger_number hnumber ▸ hintegral)
          obtain rfl := Option.some.inj (hm.symm.trans hwritten)
          exact .number hinput (Nat.succ_ne_zero levels) hwrittenAs
      · -- what is no integer is converted, and is not spelled out
        simp only [if_neg hintegral] at h
        cases h

/-- Bounds are exchanged if they are spelled out, both fit in sixty-four bits, and the first is the larger
one. -/
theorem boundsReversed_iff {low high : Expr} {p q : Int} (hp : low.integer? = some p)
    (hq : high.integer? = some q) :
    boundsReversed low high = true ↔ isInt64 p = true ∧ isInt64 q = true ∧ q < p := by
  unfold boundsReversed
  rw [hp, hq, Option.filter_some, Option.filter_some]
  cases isInt64 p <;> cases isInt64 q <;> simp

/-- **The bounds of a random number are those that are given, and in order unless one is too large to be
compared.**

This is for every random number whose bounds are given in the graph, wherever it stands. If both bounds are
spelled out as integers, they are those of the block in the one order or the other. They are in order, or
they are as in the block, and one of them does not fit in sixty-four bits. -/
theorem draw_bounds (levels : Nat) {b : Block} (hkind : b.kind = .randomInt)
    (hfrom : b.PlainBound "FROM") (hto : b.PlainBound "TO") :
    ∃ low high : Expr,
      (valueOf (belowWith levels) b).value =
        .call (.attribute (.name "random") "randint") [low, high] ∧
      ∀ a c : Int, low.integer? = some a → high.integer? = some c →
        ∃ p q : Int, b.BoundIs levels "FROM" 1 p ∧ b.BoundIs levels "TO" 10 q ∧
          ((a, c) = (p, q) ∨ (a, c) = (q, p)) ∧
          (a ≤ c ∨ (a, c) = (p, q) ∧ ¬ (isInt64 p = true ∧ isInt64 q = true)) := by
  have hbound {n : Int} (h : (integerInput (belowWith levels) b "FROM").value.integer? = some n) :
      b.BoundIs levels "FROM" 1 n := by
    refine boundIs_of_integer? 1 ?_ ?_ hfrom h
    · rw [hkind]
      rfl
    · rw [valueSocket?, hkind]
      rfl
  have hbound' {n : Int} (h : (integerInput (belowWith levels) b "TO").value.integer? = some n) :
      b.BoundIs levels "TO" 10 n := by
    refine boundIs_of_integer? 10 ?_ ?_ hto h
    · rw [hkind]
      rfl
    · rw [valueSocket?, hkind]
      rfl
  rw [value_randomInt _ hkind]
  generalize (integerInput (belowWith levels) b "FROM").value = low at hbound
  generalize (integerInput (belowWith levels) b "TO").value = high at hbound'
  by_cases hreversed : boundsReversed low high = true
  · refine ⟨high, low, by rw [if_pos hreversed], fun a c ha hc => ?_⟩
    obtain ⟨-, -, hlt⟩ := (boundsReversed_iff hc ha).mp hreversed
    exact ⟨c, a, hbound hc, hbound' ha, .inr rfl, .inl (by omega)⟩
  · refine ⟨low, high, by rw [if_neg hreversed], fun a c ha hc => ?_⟩
    refine ⟨a, c, hbound ha, hbound' hc, .inl rfl, ?_⟩
    by_cases hle : a ≤ c
    · exact .inl hle
    · exact .inr ⟨rfl, fun hfit => hreversed <|
        (boundsReversed_iff ha hc).mpr ⟨hfit.1, hfit.2, by omega⟩⟩

/-- A random number between a number and a literal. -/
def drawBlock (x : Binary64) (v : FieldValue) : Block :=
  .mk .randomInt none [] [("FROM", .chain (.mk .number none [("NUM", .number x)] []) []), ("TO", .literal v)]

theorem plainBound_drawBlock (x : Binary64) (v : FieldValue) :
    (drawBlock x v).PlainBound "FROM" ∧ (drawBlock x v).PlainBound "TO" := by
  have hfrom : (drawBlock x v).input? "FROM" =
      some (.chain (.mk .number none [("NUM", .number x)] []) []) := rfl
  have hto : (drawBlock x v).input? "TO" = some (.literal v) := rfl
  constructor
  · intro first rest h
    cases hfrom.symm.trans h
    rfl
  · intro first rest h
    cases hto.symm.trans h

/-- The integers that the arguments of a call spell. -/
def Expr.spelledArguments : Expr → List (Option Int)
  | .call _ args => args.map Expr.integer?
  | _ => []

/-- A number above a text that spells a smaller one. -/
def exchangedDraw : Block := drawBlock (.ofNat 7) (.text " 3 ")

theorem draw_bounds_exchanged :
    exchangedDraw.PlainBound "FROM" ∧ exchangedDraw.PlainBound "TO" ∧
    (valueOf (belowWith 1) exchangedDraw).value.spelledArguments = [some 3, some 7] ∧
    ∃ p q : Int, exchangedDraw.BoundIs 1 "FROM" 1 p ∧ exchangedDraw.BoundIs 1 "TO" 10 q ∧
      (((3, 7) : Int × Int) = (p, q) ∨ ((3, 7) : Int × Int) = (q, p)) := by
  obtain ⟨hfrom, hto⟩ := plainBound_drawBlock (.ofNat 7) (.text " 3 ")
  have hspelled : (valueOf (belowWith 1) exchangedDraw).value.spelledArguments = [some 3, some 7] := by
    decide +kernel
  obtain ⟨low, high, hvalue, hbounds⟩ := draw_bounds 1 rfl hfrom hto
  have hends : [low.integer?, high.integer?] = [some 3, some 7] := by
    rw [← hspelled, exchangedDraw, hvalue]
    rfl
  obtain ⟨hlow, hhigh⟩ := List.cons.inj hends
  obtain ⟨p, q, hp, hq, hpair, -⟩ := hbounds 3 7 hlow (List.cons.inj hhigh).1
  exact ⟨hfrom, hto, hspelled, p, q, hp, hq, hpair⟩

/-- A number beyond sixty-four bits, above a smaller literal. -/
def reversedDraw : Block := drawBlock (.ofNat 10000000000000000000) (.number (.ofNat 1))

/-- Bounds that are not compared, and are out of order in the program. -/
theorem draw_reversed :
    reversedDraw.PlainBound "FROM" ∧ reversedDraw.PlainBound "TO" ∧
    (valueOf (belowWith maxNesting) reversedDraw).value.spelledArguments =
      [some 10000000000000000000, some 1] ∧
    (BlockGraph.generate ⟨[⟨reversedDraw, []⟩]⟩).body = "random.randint(10000000000000000000, 1)\n" := by
  obtain ⟨hfrom, hto⟩ := plainBound_drawBlock (.ofNat 10000000000000000000) (.number (.ofNat 1))
  exact ⟨hfrom, hto, by decide +kernel, by decide +kernel⟩

end BlockBoard
