import BlockBoard.Proofs.Number.Whole
import BlockBoard.Proofs.Program.Statements
/-!
# Integers where the device asks for them

Places, sizes, times and bounds have to be integers when the program runs. Whether a block in such a
socket is converted is decided by looking at the blocks, before any of them is lowered; this module says
that the look ahead agrees with what the blocks are lowered to.

- `Expr.IsInteger`: the expressions that are known to be integers.
- `range_of_integerSocket`: the range of a socket for integers, and its default.
- `numberLiteral_read`: what a literal in such a socket is spelled as.
- `isInteger_valueOf`: **a block that is taken for an integer is lowered to one**, and with it
  `integerBelow_belowWith`, by induction on the levels.
- `isInteger_integerInput`: what stands for such a socket is an integer.
-/

namespace BlockBoard

/-! ## Integers -/

/-- Expressions that are integers whatever they are made of: numerals without a fraction, their
negations, draws of a random integer, and conversions. -/
inductive Expr.IsInteger : Expr → Prop
  | numeral (n : Nat) : (Expr.ofNat n).IsInteger
  | negate {e : Expr} (h : e.IsInteger) : e.negate.IsInteger
  | draw (args : List Expr) : (Expr.call (.attribute (.name "random") "randint") args).IsInteger
  | convert (args : List Expr) : (Expr.callName "int" args).IsInteger

theorem Expr.isInteger_ofNumber {x : Binary64} (h : x.isIntegral = true) :
    (Expr.ofNumber x).IsInteger := by
  obtain ⟨n, heq, -, -⟩ := Expr.ofNumber_of_isIntegral h
  rw [heq]
  split
  · exact .negate (.numeral n)
  · exact .numeral n

/-! ## Sockets for integers -/

/-- The sockets whose values have to be integers. -/
def integerSockets : List String :=
  ["X", "Y", "W", "H", "R", "FREQUENCY", "DURATION", "MS", "TIMES", "FROM", "TO"]

/-- The greatest magnitude that a socket admits. -/
def greatestLiteral : Nat := 1000000000

/-- A number is in a range. -/
structure LiteralRange.Holds (r : LiteralRange) (n : Int) : Prop where
  least : r.least ≤ n
  greatest : n ≤ r.greatest

/-- What a socket with a range reads from a literal: an integer of that range. -/
def LiteralRange.read? (r : LiteralRange) (v : FieldValue) : Option Int :=
  v.asNumber?.bind fun x =>
    if x.isIntegral ∧ r.least ≤ x.truncate ∧ x.truncate ≤ r.greatest then some x.truncate else none

theorem LiteralRange.holds_of_read? {r : LiteralRange} {v : FieldValue} {n : Int}
    (h : r.read? v = some n) : r.Holds n := by
  obtain ⟨x, -, hx⟩ := Option.bind_eq_some_iff.mp h
  split at hx
  · rename_i hrange
    obtain rfl := Option.some.inj hx
    exact ⟨hrange.2.1, hrange.2.2⟩
  · cases hx

/-- What holds of every socket for integers: its range is one of numbers that are exact, and its
default is a numeral in it. -/
def SocketSpec.isInteger (k : BlockKind) (s : SocketSpec) : Bool :=
  match s.kind with
  | .value .number (.number ⟨n, []⟩) => (literalRange? k s.name).any fun r : LiteralRange =>
    decide (r.least ≤ (n : Int) ∧ (n : Int) ≤ r.greatest ∧ r.least.natAbs ≤ greatestLiteral ∧
      r.greatest.natAbs ≤ greatestLiteral)
  | _ => false

theorem BlockKind.isInteger_sockets (k : BlockKind) :
    k.definition.sockets.all (fun s => !integerSockets.contains s.name || s.isInteger k) = true := by
  -- one row of the catalogue after the other
  cases k <;> decide

/-- The range and the default of a socket for integers. -/
theorem range_of_integerSocket {b : Block} {socket : String} (hname : socket ∈ integerSockets)
    (h : (valueSocket? b socket).isSome = true) :
    ∃ r n, literalRange? b.kind socket = some r ∧ valueSocket? b socket = some (.number, .ofNat n) ∧
      r.Holds n ∧ r.least.natAbs ≤ greatestLiteral ∧ r.greatest.natAbs ≤ greatestLiteral := by
  unfold valueSocket? at h ⊢
  cases hsocket : b.kind.definition.socket? socket with
  | none =>
    rw [hsocket] at h
    cases h
  | some s =>
    have hmem : s ∈ b.kind.definition.sockets := List.mem_of_find?_eq_some hsocket
    obtain rfl : s.name = socket := by simpa using List.find?_some hsocket
    have hall := List.all_eq_true.mp b.kind.isInteger_sockets s hmem
    rw [List.contains_iff_mem.mpr hname, Bool.not_true, Bool.false_or, SocketSpec.isInteger] at hall
    split at hall
    · rename_i n hkind
      obtain ⟨r, hr, hrange⟩ := (Option.any_eq_true _ _).mp hall
      obtain ⟨hleast, hgreatest, hexact⟩ := of_decide_eq_true hrange
      refine ⟨r, n, hr, ?_, ⟨hleast, hgreatest⟩, hexact⟩
      obtain ⟨name, kind⟩ := s
      obtain rfl : kind = _ := hkind
      rfl
    · cases hall

/-! ## Literals -/

/-- The range of a socket admits a number exactly if it is an integer between its bounds. -/
theorem literalInRange_iff {k : BlockKind} {socket : String} {r : LiteralRange}
    (h : literalRange? k socket = some r) (hleast : r.least.natAbs ≤ greatestLiteral)
    (hgreatest : r.greatest.natAbs ≤ greatestLiteral) {x : Binary64} :
    literalInRange k socket x = true ↔
      x.isIntegral = true ∧ r.least ≤ x.truncate ∧ x.truncate ≤ r.greatest := by
  have hexact : greatestLiteral < 2 ^ 53 := by decide
  rw [literalInRange, h]
  simp only [Bool.and_eq_true]
  constructor
  · rintro ⟨⟨hlow, hhigh⟩, hx⟩
    exact ⟨hx, (Binary64.ofInt_le_iff hx (hleast.trans_lt hexact)).mp hlow,
      (Binary64.le_ofInt_iff hx (hgreatest.trans_lt hexact)).mp hhigh⟩
  · rintro ⟨hx, hlow, hhigh⟩
    exact ⟨⟨(Binary64.ofInt_le_iff hx (hleast.trans_lt hexact)).mpr hlow,
      (Binary64.le_ofInt_iff hx (hgreatest.trans_lt hexact)).mpr hhigh⟩, hx⟩

/-- A literal in a socket for integers is spelled as the integer that it reads as, if that is in the
range of the socket, and is replaced by the default of the socket otherwise. -/
theorem numberLiteral_read {b : Block} {socket : String} {r : LiteralRange}
    (h : literalRange? b.kind socket = some r) (hleast : r.least.natAbs ≤ greatestLiteral)
    (hgreatest : r.greatest.natAbs ≤ greatestLiteral) (n : Nat) (v : FieldValue) :
    (numberLiteral b socket (.ofNat n) v).value.integer? = some ((r.read? v).getD n) ∧
      (numberLiteral b socket (.ofNat n) v).value.IsInteger := by
  unfold numberLiteral LiteralRange.read?
  cases hv : v.asNumber? with
  | none => exact ⟨rfl, .numeral n⟩
  | some x =>
    rw [Option.filter_some, Option.bind_some]
    by_cases hx : literalInRange b.kind socket x = true
    · obtain ⟨hintegral, hlow, hhigh⟩ := (literalInRange_iff h hleast hgreatest).mp hx
      have hsmall : x.truncate.natAbs < 2 ^ 53 := by
        have : greatestLiteral < 2 ^ 53 := by decide
        omega
      rw [if_pos hx, if_pos ⟨hintegral, hlow, hhigh⟩]
      exact ⟨Expr.integer?_ofNumber hintegral hsmall, Expr.isInteger_ofNumber hintegral⟩
    · rw [if_neg hx, if_neg fun hrange => hx ((literalInRange_iff h hleast hgreatest).mpr hrange)]
      exact ⟨rfl, .numeral n⟩

/-! ## The look ahead -/

/-- What is plugged into a sign is looked up by the name of its socket. -/
theorem operandProducesInteger_eq (inputs : List (String × Binding)) :
    operandProducesInteger inputs = (inputs.lookup "NUM").all Binding.producesInteger := by
  induction inputs with
  | nil => rfl
  | cons entry r ih =>
    obtain ⟨socket, binding⟩ := entry
    rw [operandProducesInteger, List.lookup_cons]
    by_cases h : socket = "NUM"
    · subst h
      rfl
    · rw [if_neg (by simpa using h), ih, beq_eq_false_iff_ne.mpr fun heq => h heq.symm]

/-- A block below that is taken for an integer is lowered to one, unless it is a statement. -/
def IntegerBelow (below : Option Below) : Prop :=
  ∀ level ∈ below, ∀ child : Block, child.kind.isStatement = false → child.producesInteger = true →
    (level.value child).value.IsInteger

section Blocks

variable {below : Option Below} (h : IntegerBelow below) (b : Block) {socket : String}

include h

/-- What is plugged into a socket for numbers, if it is taken for an integer. -/
theorem isInteger_inputOf {n : Nat} (hsocket : valueSocket? b socket = some (.number, .ofNat n))
    (hinput : ∀ binding ∈ b.input? socket, binding.producesInteger = true) :
    (inputOf below b socket).value.IsInteger := by
  unfold inputOf
  rw [hsocket]
  cases hbinding : b.input? socket with
  | none => exact .numeral n
  | some binding =>
    have hproduces := hinput binding hbinding
    cases binding with
    | literal v =>
      show (numberLiteral b socket (.ofNat n) v).value.IsInteger
      unfold numberLiteral
      split
      · rename_i x hx
        have hv : v.asNumber? = some x := (Option.filter_eq_some_iff.mp hx).1
        rw [Binding.producesInteger, FieldValue.isIntegral, hv] at hproduces
        exact Expr.isInteger_ofNumber hproduces
      · exact .numeral n
    | chain child rest =>
      rw [Binding.producesInteger] at hproduces
      by_cases hstatement : child.kind.isStatement = true
      · simp only [if_pos hstatement]
        exact .numeral n
      · simp only [if_neg hstatement]
        -- where no level is left, the default stands in
        cases hbelow : below with
        | none => exact .numeral n
        | some level => exact h level hbelow child (by simpa using hstatement) hproduces

/-- **A block that is taken for an integer is lowered to one**, unless it is a statement. -/
theorem isInteger_valueOf (hstatement : b.kind.isStatement = false)
    (hproduces : b.producesInteger = true) : (valueOf below b).value.IsInteger := by
  obtain ⟨kind, id, fields, inputs⟩ := b
  have hkind : (Block.mk kind id fields inputs).kind = kind := rfl
  cases kind with
  | randomInt =>
    simp only [valueOf, hkind, Noted.value_bind]
    split
    · exact .draw _
    · exact .draw _
  | number =>
    simp only [valueOf, hkind]
    have hfield : (Block.mk .number id fields inputs).field? "NUM" = fields.lookup "NUM" := rfl
    rw [hfield]
    rw [Block.producesInteger] at hproduces
    cases hlookup : fields.lookup "NUM" with
    | none => exact .numeral 0
    | some v =>
      simp only [hlookup] at hproduces
      cases hv : v.asNumber? with
      | none =>
        simp only [hv]
        exact .numeral 0
      | some x =>
        rw [FieldValue.isIntegral, hv] at hproduces
        simp only [hv]
        exact Expr.isInteger_ofNumber hproduces
  | negate =>
    have hinput : ∀ binding ∈ (Block.mk .negate id fields inputs).input? "NUM",
        binding.producesInteger = true := by
      intro binding hbinding
      rw [Block.producesInteger, operandProducesInteger_eq] at hproduces
      have hlookup : inputs.lookup "NUM" = some binding := hbinding
      rw [hlookup] at hproduces
      exact hproduces
    simp only [valueOf, hkind, Noted.value_bind]
    exact .negate (isInteger_inputOf h _ (n := 0) rfl hinput)
  | _ => exact absurd (hstatement.symm.trans hproduces) Bool.false_ne_true

/-- The expression for an integer, where the socket holds something that was checked for one. -/
theorem isInteger_integerInput {n : Nat} (hsocket : valueSocket? b socket = some (.number, .ofNat n))
    (hliteral : ∀ v, b.input? socket = some (.literal v) →
      (numberLiteral b socket (.ofNat n) v).value.IsInteger) :
    (integerInput below b socket).value.IsInteger := by
  unfold integerInput
  rw [Noted.value_bind]
  cases hbinding : b.input? socket with
  | none =>
    unfold inputOf
    rw [hsocket, hbinding]
    exact .numeral n
  | some binding =>
    cases binding with
    | literal v =>
      unfold inputOf
      rw [hsocket, hbinding]
      exact hliteral v hbinding
    | chain child rest =>
      by_cases hproduces : child.producesInteger = true
      · simp only [if_pos hproduces]
        refine isInteger_inputOf h b hsocket fun binding hmem => ?_
        rw [hbinding] at hmem
        obtain rfl := Option.some.inj hmem
        exact hproduces
      · simp only [if_neg hproduces]
        exact .convert _

end Blocks

theorem integerBelow_belowWith (n : Nat) : IntegerBelow (belowWith n) := by
  induction n with
  | zero => nofun
  | succ n ih =>
    intro level hlevel child hstatement hproduces
    obtain rfl := Option.some.inj hlevel
    exact isInteger_valueOf ih child hstatement hproduces

end BlockBoard
