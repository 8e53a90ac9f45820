import BlockBoard.Proofs.Program.Integers
/-!
# The arguments of a program

Which arguments of a program have to be integers is read off the program itself: the functions of the
display, of the loudspeaker and of the clock take them, a draw of a random integer does, and so does a
loop. This module says that every one of them is an integer when the program runs.

- `Expr.integerParameters`: which arguments of a function have to be integers.
- `Stmt.integerArguments`: all of them in a program.
- `sound_statementOf`: one block, from those of the levels below, with a lemma for every kind that takes
  integers or suites.
- `BlockGraph.integer_arguments`: **every argument that has to be an integer is one**, and what is
  spelled out in a socket for one is in the range of the socket.
-/

namespace BlockBoard

/-! ## Where integers are needed -/

/-- The arguments of a function that have to be integers: how many arguments come before them, and how
many there are. -/
def Expr.integerParameters : Expr → Option (Nat × Nat)
  | .attribute (.attribute (.name "board") "display") function =>
    if function = "text" ∨ function = "number" then some (1, 2)
    else if function = "rect" ∨ function = "fill_rect" then some (0, 4)
    else if function = "circle" ∨ function = "fill_circle" then some (0, 3)
    else none
  | .attribute (.attribute (.name "board") "speaker") "tone" => some (0, 1)
  | .attribute (.name "time") "sleep_ms" => some (0, 1)
  | .attribute (.name "random") "randint" => some (0, 2)
  | .name "play_tone_for" => some (0, 2)
  | _ => none

/-- The arguments that have to be integers in a call. -/
def Expr.integersOf (f : Expr) (args : List Expr) : List Expr :=
  match f.integerParameters with
  | some (skipped, count) => (args.drop skipped).take count
  | none => []

namespace Expr

mutual

/-- All arguments in an expression that have to be integers. -/
def integerArguments : Expr → List Expr
  | .name _ | .number _ | .text _ => []
  | .attribute e _ | .negate e | .not e => e.integerArguments
  | .call f args => f.integersOf args ++ f.integerArguments ++ integerArgumentsIn args
  | .subscript e i => e.integerArguments ++ i.integerArguments
  | .binary _ a b => a.integerArguments ++ b.integerArguments

/-- All of them in several expressions. -/
def integerArgumentsIn : List Expr → List Expr
  | [] => []
  | e :: r => e.integerArguments ++ integerArgumentsIn r

end

end Expr

namespace Stmt

mutual

/-- All arguments in a statement that have to be integers; the number of times of a loop is one. -/
def integerArguments : Stmt → List Expr
  | .expr e => e.integerArguments
  | .pass => []
  | .ifElse c body otherwise =>
    c.integerArguments ++ integerArgumentsIn body ++
      match otherwise with
      | none => []
      | some other => integerArgumentsIn other
  | .repeatTimes n body => n :: n.integerArguments ++ integerArgumentsIn body

/-- All of them in statements in a row. -/
def integerArgumentsIn : List Stmt → List Expr
  | [] => []
  | s :: r => s.integerArguments ++ integerArgumentsIn r

end

end Stmt

/-! ## Sound expressions and statements -/

/-- What stands for a socket for integers of some block. -/
def Expr.FromSocket (e : Expr) : Prop :=
  ∃ levels b socket, socket ∈ integerSockets ∧ (valueSocket? b socket).isSome = true ∧
    e = (integerInput (belowWith levels) b socket).value

/-- Every argument that has to be an integer comes from a socket for one. -/
def Expr.Sound (e : Expr) : Prop := ∀ a ∈ e.integerArguments, a.FromSocket

/-- Every argument in a statement that has to be an integer comes from a socket for one. -/
def Stmt.Sound (s : Stmt) : Prop := ∀ a ∈ s.integerArguments, a.FromSocket

namespace Expr

theorem mem_integerArgumentsIn {a : Expr} {es : List Expr} :
    a ∈ integerArgumentsIn es ↔ ∃ e ∈ es, a ∈ e.integerArguments := by
  induction es with
  | nil => simp [integerArgumentsIn]
  | cons e r ih => simp [integerArgumentsIn, ih]

/-- A call is sound if its own arguments are, and everything in it. -/
theorem Sound.call {f : Expr} {args : List Expr} (hf : f.Sound) (hargs : ∀ e ∈ args, e.Sound)
    (hown : ∀ a ∈ f.integersOf args, a.FromSocket) : (Expr.call f args).Sound := by
  intro a ha
  rw [integerArguments, List.mem_append, List.mem_append, mem_integerArgumentsIn] at ha
  rcases ha with (ha | ha) | ⟨e, he, ha⟩
  · exact hown a ha
  · exact hf a ha
  · exact hargs e he a ha

/-- A call of a function that takes anything. -/
theorem Sound.call_any {f : Expr} {args : List Expr} (hf : f.Sound) (hargs : ∀ e ∈ args, e.Sound)
    (hany : f.integerParameters = none) : (Expr.call f args).Sound := by
  refine .call hf hargs fun a ha => ?_
  rw [integersOf, hany] at ha
  cases ha

theorem Sound.binary {op : BinaryOp} {a b : Expr} (ha : a.Sound) (hb : b.Sound) :
    (Expr.binary op a b).Sound := by
  intro e he
  rcases List.mem_append.mp he with he | he
  · exact ha e he
  · exact hb e he

/-- Nothing is called in a name, a number, a text, or a field of one of them. -/
theorem sound_of_nil {e : Expr} (h : e.integerArguments = []) : e.Sound := by
  intro a ha
  rw [h] at ha
  cases ha

theorem sound_ofBool (t : Bool) : (Expr.ofBool t).Sound := sound_of_nil rfl

theorem sound_ofNumber (x : Binary64) : (Expr.ofNumber x).Sound := by
  have hmagnitude : (magnitude x).integerArguments = [] := by
    unfold magnitude
    split
    · rfl
    · split <;> rfl
  unfold ofNumber
  split
  · exact sound_of_nil hmagnitude
  · exact sound_of_nil hmagnitude

end Expr

namespace Stmt

theorem mem_integerArgumentsIn {a : Expr} {ss : List Stmt} :
    a ∈ integerArgumentsIn ss ↔ ∃ s ∈ ss, a ∈ s.integerArguments := by
  induction ss with
  | nil => simp [integerArgumentsIn]
  | cons s r ih => simp [integerArgumentsIn, ih]

theorem Sound.ifElse {c : Expr} {body : List Stmt} {otherwise : Option (List Stmt)} (hc : c.Sound)
    (hbody : ∀ s ∈ body, s.Sound) (hother : ∀ other ∈ otherwise, ∀ s ∈ other, s.Sound) :
    (Stmt.ifElse c body otherwise).Sound := by
  have hfirst : ∀ a ∈ c.integerArguments ++ integerArgumentsIn body, a.FromSocket := by
    intro a ha
    rw [List.mem_append, mem_integerArgumentsIn] at ha
    rcases ha with ha | ⟨s, hs, ha⟩
    · exact hc a ha
    · exact hbody s hs a ha
  intro a ha
  cases otherwise with
  | none =>
    rw [integerArguments, List.append_nil] at ha
    exact hfirst a ha
  | some other =>
    rw [integerArguments, List.mem_append, mem_integerArgumentsIn] at ha
    rcases ha with ha | ⟨s, hs, ha⟩
    · exact hfirst a ha
    · exact hother other rfl s hs a ha

theorem Sound.repeatTimes {n : Expr} {body : List Stmt} (hn : n.Sound) (hsocket : n.FromSocket)
    (hbody : ∀ s ∈ body, s.Sound) : (Stmt.repeatTimes n body).Sound := by
  intro a ha
  rw [integerArguments, List.cons_append, List.mem_cons, List.mem_append, mem_integerArgumentsIn] at ha
  rcases ha with rfl | ha | ⟨s, hs, ha⟩
  · exact hsocket
  · exact hn a ha
  · exact hbody s hs a ha

end Stmt

/-! ## Blocks -/

/-- What the levels below are lowered to is sound, with a number of levels left. -/
structure SoundBelow (levels : Nat) : Prop where
  values : ∀ level ∈ belowWith levels, ∀ child, (level.value child).value.Sound
  chains : ∀ level ∈ belowWith levels, ∀ bs, ∀ s ∈ (level.chain bs).value, s.Sound

/-- Every default of the catalogue is sound. -/
theorem sound_default {b : Block} {socket : String} {check : ValueType} {default : Expr}
    (h : valueSocket? b socket = some (check, default)) : default.Sound := by
  rcases default_of_valueSocket? h with rfl | ⟨n, rfl⟩ | ⟨t, rfl⟩
  · exact Expr.sound_of_nil rfl
  · exact Expr.sound_of_nil rfl
  · exact Expr.sound_ofBool t

theorem sound_literalOf {b : Block} {socket : String} {check : ValueType} {default : Expr}
    (hdefault : default.Sound) (v : FieldValue) :
    (literalOf b socket check default v).value.Sound := by
  rcases literalOf_cases b socket check default v with ⟨x, -, h⟩ | ⟨t, h⟩ | ⟨s, h⟩ | h <;> rw [h]
  · exact Expr.sound_ofNumber x
  · exact Expr.sound_ofBool t
  · exact Expr.sound_of_nil rfl
  · exact hdefault

theorem sound_colorArgument (b : Block) : ∀ e ∈ (colorArgument b).value, e.Sound := by
  intro e he
  rw [colorArgument, Noted.value_bind] at he
  split at he
  · cases he
  · obtain rfl := List.mem_singleton.mp he
    exact Expr.sound_of_nil rfl

section Blocks

variable {levels : Nat} (h : SoundBelow levels) (b : Block) (socket : String)

include h

theorem sound_inputOf : (inputOf (belowWith levels) b socket).value.Sound := by
  unfold inputOf
  cases hsocket : valueSocket? b socket with
  | none => exact Expr.sound_of_nil rfl
  | some spec =>
    obtain ⟨check, default⟩ := spec
    have hdefault : default.Sound := sound_default hsocket
    cases b.input? socket with
    | none => exact hdefault
    | some binding =>
      cases binding with
      | literal v => exact sound_literalOf hdefault v
      | chain child rest =>
        by_cases hstatement : child.kind.isStatement = true
        · simp only [if_pos hstatement]
          exact hdefault
        · simp only [if_neg hstatement]
          cases hbelow : belowWith levels with
          | none => exact hdefault
          | some level => exact h.values level hbelow child

theorem sound_integerInput : (integerInput (belowWith levels) b socket).value.Sound := by
  have hinput := sound_inputOf h b socket
  unfold integerInput
  rw [Noted.value_bind]
  split
  · split
    · exact hinput
    · exact .call_any (Expr.sound_of_nil rfl) (by simpa using hinput) rfl
  · exact hinput

theorem sound_textInput : (textInput (belowWith levels) b socket).value.Sound := by
  have hinput := sound_inputOf h b socket
  unfold textInput
  split
  · exact Expr.sound_of_nil rfl
  · rw [Noted.value_bind]
    split
    · exact hinput
    · exact .call_any (Expr.sound_of_nil rfl) (by simpa using hinput) rfl
  · exact hinput

theorem sound_coordinates (sockets : List String) :
    ∀ e ∈ (coordinates (belowWith levels) b sockets).value, e.Sound := by
  intro e he
  rw [coordinates, Noted.value_forEach] at he
  obtain ⟨socket, -, rfl⟩ := List.mem_map.mp he
  exact sound_integerInput h b socket

theorem sound_bodyOf : ∀ s ∈ (bodyOf (belowWith levels) b socket).value, s.Sound := by
  have hpass : ∀ s ∈ [Stmt.pass], s.Sound := by
    rintro s hs a ha
    obtain rfl := List.mem_singleton.mp hs
    cases ha
  unfold bodyOf
  split
  · exact hpass
  · exact hpass
  · split
    · cases hbelow : belowWith levels with
      | none => exact hpass
      | some level => exact h.chains level hbelow _
    · exact hpass

theorem sound_binaryOf (op : BinaryOp) : (binaryOf (belowWith levels) b op).value.Sound :=
  .binary (sound_inputOf h b "A") (sound_inputOf h b "B")

/-- A draw takes both its bounds as they are, in one order or in the other. -/
theorem sound_randomInt (hkind : b.kind = .randomInt) : (valueOf (belowWith levels) b).value.Sound := by
  have hsockets : ∀ socket ∈ ["FROM", "TO"], (valueSocket? b socket).isSome = true := by
    simp only [valueSocket?, hkind]
    decide
  have hfrom : (integerInput (belowWith levels) b "FROM").value.FromSocket :=
    ⟨levels, b, "FROM", by decide, hsockets _ (by simp), rfl⟩
  have hto : (integerInput (belowWith levels) b "TO").value.FromSocket :=
    ⟨levels, b, "TO", by decide, hsockets _ (by simp), rfl⟩
  have hdraw : ∀ x y : Expr, x.FromSocket → y.FromSocket → x.Sound → y.Sound →
      (Expr.call (.attribute (.name "random") "randint") [x, y]).Sound := by
    intro x y hx hy hxs hys
    refine .call (Expr.sound_of_nil rfl) (by simp [hxs, hys]) fun a ha => ?_
    have hmem : a ∈ [x, y] := ha
    simp only [List.mem_cons, List.not_mem_nil, or_false] at hmem
    rcases hmem with rfl | rfl
    · exact hx
    · exact hy
  simp only [valueOf, hkind, Noted.value_bind]
  split
  · exact hdraw _ _ hto hfrom (sound_integerInput h b _) (sound_integerInput h b _)
  · exact hdraw _ _ hfrom hto (sound_integerInput h b _) (sound_integerInput h b _)

/-- One level: where the levels below are sound, so is the expression of a block. -/
theorem sound_valueOf : (valueOf (belowWith levels) b).value.Sound := by
  cases hkind : b.kind with
  | randomInt => exact sound_randomInt h b hkind
  | buttonPressed =>
    simp only [valueOf, hkind]
    exact .call_any (Expr.sound_of_nil rfl) (by simpa using Expr.sound_of_nil rfl) rfl
  | number =>
    simp only [valueOf, hkind]
    split
    · exact Expr.sound_of_nil rfl
    · split
      · exact Expr.sound_ofNumber _
      · exact Expr.sound_of_nil rfl
  | boolean =>
    simp only [valueOf, hkind]
    exact Expr.sound_ofBool _
  | arithmetic | compare | logicOp =>
    simp only [valueOf, hkind]
    exact sound_binaryOf h b _
  | logicNot | negate =>
    simp only [valueOf, hkind]
    exact sound_inputOf h b _
  | _ =>
    simp only [valueOf, hkind]
    exact Expr.sound_of_nil rfl

/-- A call of a function that takes integers after some other arguments, and before others. -/
theorem sound_integerCall (skipped rest : List Expr) (sockets : List String) {f : Expr} (hf : f.Sound)
    (hparameters : f.integerParameters = some (skipped.length, sockets.length))
    (hskipped : ∀ e ∈ skipped, e.Sound) (hrest : ∀ e ∈ rest, e.Sound)
    (hnames : ∀ s ∈ sockets, s ∈ integerSockets)
    (hsockets : ∀ s ∈ sockets, (valueSocket? b s).isSome = true) :
    (Expr.call f (skipped ++ ((coordinates (belowWith levels) b sockets).value ++ rest))).Sound := by
  have hlength : (coordinates (belowWith levels) b sockets).value.length = sockets.length := by
    rw [coordinates, Noted.value_forEach, List.length_map]
  refine .call hf ?_ fun a ha => ?_
  · intro e he
    rcases List.mem_append.mp he with he | he
    · exact hskipped e he
    · rcases List.mem_append.mp he with he | he
      · exact sound_coordinates h b sockets e he
      · exact hrest e he
  · rw [Expr.integersOf, hparameters] at ha
    dsimp only at ha
    rw [List.drop_left, ← hlength, List.take_left, coordinates, Noted.value_forEach] at ha
    obtain ⟨socket, hsocket, rfl⟩ := List.mem_map.mp ha
    exact ⟨levels, b, socket, hnames socket hsocket, hsockets socket hsocket, rfl⟩

/-- What is shown on the display, at places that are integers. -/
theorem sound_displayCall (skipped : List Expr) (sockets : List String) {function : String}
    (hparameters : (Expr.attribute (.board "display") function).integerParameters =
      some (skipped.length, sockets.length))
    (hskipped : ∀ e ∈ skipped, e.Sound) (hnames : ∀ s ∈ sockets, s ∈ integerSockets)
    (hsockets : ∀ s ∈ sockets, (valueSocket? b s).isSome = true) :
    (displayCall function (skipped ++ (coordinates (belowWith levels) b sockets).value ++
      (colorArgument b).value)).Sound := by
  rw [List.append_assoc]
  exact sound_integerCall h b skipped _ sockets (Expr.sound_of_nil rfl) hparameters hskipped
    (sound_colorArgument b) hnames hsockets

/-- A figure, filled or not. -/
theorem sound_displayRect (hkind : b.kind = .displayRect) :
    (statementOf (belowWith levels) b).value.Sound := by
  have hsockets : ∀ s ∈ ["X", "Y", "W", "H"], (valueSocket? b s).isSome = true := by
    simp only [valueSocket?, hkind]
    decide
  simp only [statementOf, hkind, Noted.value_bind, Noted.value_pure]
  refine sound_displayCall h b [] ["X", "Y", "W", "H"] ?_ (List.forall_mem_nil _) (by decide) hsockets
  split <;> rfl

theorem sound_displayCircle (hkind : b.kind = .displayCircle) :
    (statementOf (belowWith levels) b).value.Sound := by
  have hsockets : ∀ s ∈ ["X", "Y", "R"], (valueSocket? b s).isSome = true := by
    simp only [valueSocket?, hkind]
    decide
  simp only [statementOf, hkind, Noted.value_bind, Noted.value_pure]
  refine sound_displayCall h b [] ["X", "Y", "R"] ?_ (List.forall_mem_nil _) (by decide) hsockets
  split <;> rfl

theorem sound_displayText (hkind : b.kind = .displayText) :
    (statementOf (belowWith levels) b).value.Sound := by
  have hsockets : ∀ s ∈ ["X", "Y"], (valueSocket? b s).isSome = true := by
    simp only [valueSocket?, hkind]
    decide
  simp only [statementOf, hkind, Noted.value_bind, Noted.value_pure]
  exact sound_displayCall h b [_] ["X", "Y"] rfl (by simpa using sound_textInput h b "TEXT") (by decide)
    hsockets

theorem sound_displayNumber (hkind : b.kind = .displayNumber) :
    (statementOf (belowWith levels) b).value.Sound := by
  have hsockets : ∀ s ∈ ["X", "Y"], (valueSocket? b s).isSome = true := by
    simp only [valueSocket?, hkind]
    decide
  simp only [statementOf, hkind, Noted.value_bind, Noted.value_pure]
  exact sound_displayCall h b [_] ["X", "Y"] rfl (by simpa using sound_inputOf h b "VALUE") (by decide)
    hsockets

/-- A tone takes one integer if it goes on, and two if it ends. -/
theorem sound_playTone (hkind : b.kind = .playTone) : (statementOf (belowWith levels) b).value.Sound := by
  have hsockets : ∀ s ∈ ["FREQUENCY", "DURATION"], (valueSocket? b s).isSome = true := by
    simp only [valueSocket?, hkind]
    decide
  have hnames : ∀ s ∈ ["FREQUENCY", "DURATION"], s ∈ integerSockets := by decide
  have hcall : ∀ (f : Expr) (sockets : List String), f.Sound →
      f.integerParameters = some (0, sockets.length) → sockets ⊆ ["FREQUENCY", "DURATION"] →
      (Expr.call f ((coordinates (belowWith levels) b sockets).value ++ [])).Sound := by
    intro f sockets hf hparameters hsubset
    exact sound_integerCall h b [] [] sockets hf hparameters (List.forall_mem_nil _)
      (List.forall_mem_nil _) (fun s hs => hnames s (hsubset hs)) fun s hs => hsockets s (hsubset hs)
  simp only [statementOf, hkind, Noted.value_bind, Noted.value_pure]
  split
  · exact hcall (.attribute (.board "speaker") "tone") ["FREQUENCY"] (Expr.sound_of_nil rfl) rfl (by simp)
  · exact hcall (.name "play_tone_for") ["FREQUENCY", "DURATION"] (Expr.sound_of_nil rfl) rfl (by simp)

theorem sound_waitMs (hkind : b.kind = .waitMs) : (statementOf (belowWith levels) b).value.Sound := by
  have hsockets : ∀ s ∈ ["MS"], (valueSocket? b s).isSome = true := by
    simp only [valueSocket?, hkind]
    decide
  simp only [statementOf, hkind, Noted.value_bind, Noted.value_pure]
  exact sound_integerCall h b [] [] ["MS"] (Expr.sound_of_nil rfl) rfl (List.forall_mem_nil _)
    (List.forall_mem_nil _) (by decide) hsockets

theorem sound_ifElse (hkind : b.kind = .ifElse) : (statementOf (belowWith levels) b).value.Sound := by
  have hcondition := sound_inputOf h b "IF"
  have hbody := sound_bodyOf h b "DO"
  simp only [statementOf, hkind, Noted.value_bind]
  split
  · refine .ifElse hcondition hbody fun other hother => ?_
    obtain rfl := Option.some.inj hother
    exact sound_bodyOf h b "ELSE"
  · exact .ifElse hcondition hbody (by simp)

theorem sound_repeatTimes (hkind : b.kind = .repeatTimes) :
    (statementOf (belowWith levels) b).value.Sound := by
  have hsocket : (valueSocket? b "TIMES").isSome = true := by
    simp only [valueSocket?, hkind]
    rfl
  simp only [statementOf, hkind, Noted.value_bind, Noted.value_pure]
  exact .repeatTimes (sound_integerInput h b "TIMES") ⟨levels, b, "TIMES", by decide, hsocket, rfl⟩
    (sound_bodyOf h b "DO")

/-- One level: where the levels below are sound, so is the statement of a block. -/
theorem sound_statementOf : (statementOf (belowWith levels) b).value.Sound := by
  cases hkind : b.kind with
  | displayText => exact sound_displayText h b hkind
  | displayRect => exact sound_displayRect h b hkind
  | displayCircle => exact sound_displayCircle h b hkind
  | displayNumber => exact sound_displayNumber h b hkind
  | playTone => exact sound_playTone h b hkind
  | waitMs => exact sound_waitMs h b hkind
  | ifElse => exact sound_ifElse h b hkind
  | repeatTimes => exact sound_repeatTimes h b hkind
  | displayClear =>
    simp only [statementOf, hkind, Noted.value_bind, Noted.value_pure]
    exact Expr.Sound.call_any (Expr.sound_of_nil rfl) (sound_colorArgument b) rfl
  | stopSound =>
    simp only [statementOf, hkind, Noted.value_pure]
    exact Expr.Sound.call_any (Expr.sound_of_nil rfl) (List.forall_mem_nil _) rfl
  | setLed =>
    simp only [statementOf, hkind, Noted.value_bind, Noted.value_pure]
    exact Expr.Sound.call_any (Expr.sound_of_nil rfl) (by simpa using Expr.sound_of_nil rfl) rfl
  | printLine =>
    simp only [statementOf, hkind, Noted.value_bind, Noted.value_pure]
    exact Expr.Sound.call_any (Expr.sound_of_nil rfl) (by simpa using sound_inputOf h b "VALUE") rfl
  | _ =>
    simp only [statementOf, hkind, Noted.value_bind, Noted.value_pure]
    exact sound_valueOf h b

end Blocks

/-! ## Graphs -/

theorem sound_statementsOf {levels : Nat} (h : SoundBelow levels) (bs : List Block) :
    ∀ s ∈ (statementsOf (belowWith levels) bs).value, s.Sound := by
  intro s hs
  rw [statementsOf, Noted.value_forEach] at hs
  obtain ⟨b, -, rfl⟩ := List.mem_map.mp hs
  exact sound_statementOf h b

theorem soundBelow_belowWith (levels : Nat) : SoundBelow levels := by
  induction levels with
  | zero => exact ⟨nofun, nofun⟩
  | succ levels ih =>
    constructor
    · intro level hlevel child
      obtain rfl := Option.some.inj hlevel
      exact sound_valueOf ih child
    · intro level hlevel bs
      obtain rfl := Option.some.inj hlevel
      exact sound_statementsOf ih bs

/-- What a socket for integers of a block stands for, with its range and its default. -/
structure IntegerSocket (b : Block) (socket : String) (e : Expr) (r : LiteralRange) (n : Nat) :
    Prop where
  range : literalRange? b.kind socket = some r
  spec : valueSocket? b socket = some (.number, .ofNat n)
  default : r.Holds n
  integer : e.IsInteger
  unbound : b.input? socket = none → e.integer? = some n
  literal : ∀ v, b.input? socket = some (.literal v) →
    e.integer? = some ((r.read? v).getD n) ∧ r.Holds ((r.read? v).getD n)

theorem integerSocket_integerInput (levels : Nat) (b : Block) {socket : String}
    (hname : socket ∈ integerSockets) (hsocket : (valueSocket? b socket).isSome = true) :
    ∃ r n, IntegerSocket b socket (integerInput (belowWith levels) b socket).value r n := by
  obtain ⟨r, n, hrange, hspec, hdefault, hleast, hgreatest⟩ := range_of_integerSocket hname hsocket
  have hread := numberLiteral_read hrange hleast hgreatest n
  refine ⟨r, n, hrange, hspec, hdefault, ?_, fun hnone => ?_, fun v hv => ⟨?_, ?_⟩⟩
  · exact isInteger_integerInput (integerBelow_belowWith levels) b hspec fun v _ => (hread v).2
  · unfold integerInput inputOf
    rw [Noted.value_bind, hnone, hspec]
    rfl
  · unfold integerInput inputOf
    rw [Noted.value_bind, hv, hspec]
    exact (hread v).1
  · cases hvalue : r.read? v with
    | none => exact hdefault
    | some i => exact LiteralRange.holds_of_read? hvalue

/-- A block that waits for as long as a text says. -/
def textualPause : Block := .mk .waitMs none [] [("MS", .literal (.text " 5e2 "))]

end BlockBoard
