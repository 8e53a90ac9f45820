import Mathlib.Data.Bool.AllAny
import BlockBoard.Program.Requirements
import BlockBoard.Proofs.Script.Names
/-!
# The vocabulary of programs

Blocks are made into code with few words: those of the language, the members of the board, and four
functions that a program has to be provided with first. What a program needs is read off the names in it,
so the question is whether those names stand for these functions and for nothing else.

- `Provision`: a function that comes from an imported module or a helper.
- `Known`: expressions in the vocabulary. A provision occurs in them in one form only.
- `Allowed`: what a name can be in code whose names are given.
- `Revealed`, `Known.revealed`: a piece of code shows allowed names, and shows every provision whose name
  is among the given ones.
- `Revealing`: the same of lines.
- `Revealing.mentions_iff`: **a provision occurs in lines exactly if its name is among their names**.
-/

namespace BlockBoard

open Script

/-! ## Provisions -/

/-- A function that a program has only if a module is imported or a helper defined. -/
inductive Provision where
  | randint
  | sleepMs
  | toneFor
  | shakeHappened
  deriving DecidableEq

namespace Provision

/-- The name by which the board looks a provision up. -/
def name : Provision → String
  | randint => "random"
  | sleepMs => "time"
  | toneFor => "play_tone_for"
  | shakeHappened => "shake_happened"

/-- The name with the attribute behind it. -/
def path : Provision → String
  | randint => "random.randint"
  | sleepMs => "time.sleep_ms"
  | toneFor => "play_tone_for"
  | shakeHappened => "shake_happened"

/-- The expression by which a provision is used; that of shaking is the whole call, with the state that
the helper keeps. -/
def use : Provision → Expr
  | randint => .attribute (.name "random") "randint"
  | sleepMs => .attribute (.name "time") "sleep_ms"
  | toneFor => .name "play_tone_for"
  | shakeHappened => .callName "shake_happened" [.name "_shake"]

/-- The code of that expression. -/
def code (p : Provision) : String := p.use.fragment.code

/-- The names in it, with their attributes. -/
def usePaths : Provision → List String
  | shakeHappened => ["shake_happened", "_shake"]
  | p => [p.path]

/-- The names in it that the board looks up. -/
def useNames (p : Provision) : List String := p.usePaths.map fun w => head w.toList

end Provision

/-! ## Words of every program -/

/-- The words of the language that occur in programs, and the members of the board that blocks are made
into. -/
def commonPaths : List String :=
  ["and", "or", "not", "True", "False", "None", "if", "else", "for", "in", "pass",
    "int", "str", "print", "range", "_",
    "board.button_pressed", "board.accel", "board.display.text", "board.display.clear",
    "board.display.rect", "board.display.fill_rect", "board.display.circle",
    "board.display.fill_circle", "board.display.number", "board.speaker.tone", "board.speaker.off",
    "board.led.set", "board.WHITE", "board.BLACK", "board.RED", "board.GREEN", "board.BLUE",
    "board.YELLOW", "board.CYAN", "board.MAGENTA"]

/-- The names among them that the board looks up. -/
def commonNames : List String := commonPaths.map fun w => head w.toList

/-- Whether something between two separators is a word of every program: one of those, a numeral, or
nothing. -/
def isCommon (p : List Char) : Bool :=
  p.all (fun c => c.isDigit || c == '.') || commonPaths.contains (String.ofList p)

/-- What can stand between two separators in code with certain names. -/
def Allowed (ns : List String) (p : List Char) : Prop :=
  isCommon p = true ∨ ∃ f : Provision, String.ofList p ∈ f.usePaths ∧ f.name ∈ ns

theorem Allowed.mono {ns ms : List String} {p : List Char} (h : Allowed ns p) (hle : ns ⊆ ms) :
    Allowed ms p :=
  h.imp_right fun ⟨f, hp, hf⟩ => ⟨f, hp, hle hf⟩

/-- Where the name of a provision can stand in an allowed path, the path is that name. -/
theorem path_of_infix {ns : List String} {p : List Char} (h : Allowed ns p) {f : Provision}
    (hf : f.path.toList <:+: p) : String.ofList p = f.path ∧ f.name ∈ ns := by
  rcases h with hcommon | ⟨f', hpath, hname⟩
  · -- numerals have no letters, and no other word contains the name
    rcases Bool.or_eq_true_iff.mp hcommon with hnumeral | hword
    · have hletters : ∀ f : Provision, ¬ f.path.toList.all (fun c => c.isDigit || c == '.') = true := by
        intro f
        cases f <;> decide
      refine absurd (List.all_eq_true.mpr fun c hc => ?_) (hletters f)
      exact List.all_eq_true.mp hnumeral c (hf.subset hc)
    · have hwords : ∀ f : Provision, ∀ w ∈ commonPaths, ¬ f.path.toList <:+: w.toList := by
        intro f
        cases f <;> decide
      refine absurd ?_ (hwords f _ (List.contains_iff_mem.mp hword))
      rwa [String.toList_ofList]
  · have hothers : ∀ f f' : Provision, ∀ w ∈ f'.usePaths, f.path.toList <:+: w.toList →
        w = f.path ∧ f' = f := by
      intro f f'
      cases f <;> cases f' <;> decide
    obtain ⟨heq, rfl⟩ := hothers f f' _ hpath (by rwa [String.toList_ofList])
    exact ⟨heq, hname⟩

/-! ## Pieces of code -/

/-- A piece of a line with certain names. Outside of texts it has allowed names only, and every provision
among the names occurs in it. -/
def Revealed (ns : List String) (cs : List Char) : Prop :=
  ∃ shown, Shows cs shown ∧ (∀ p ∈ paths shown, Allowed ns p) ∧
    ∀ f : Provision, f.name ∈ ns → f.code.toList <:+: shown

/-- Two pieces with a separator between them. -/
theorem Revealed.join {ns ms : List String} {a b : List Char} (ha : Revealed ns a)
    (hb : Revealed ms b) {c : Char} (hpath : isPathChar c = false) (hplain : c ≠ '"' ∧ c ≠ '#') :
    Revealed (ns ++ ms) (a ++ c :: b) := by
  obtain ⟨a', hshows, hallowed, hmentioned⟩ := ha
  obtain ⟨b', hshows', hallowed', hmentioned'⟩ := hb
  have hc : Shows [c] [c] := shows_plain (by simpa using hplain)
  refine ⟨a' ++ c :: b', hshows.append (hc.append hshows'), fun p hp => ?_, fun f hf => ?_⟩
  · rw [paths_append_cons hpath] at hp
    rcases List.mem_append.mp hp with hp | hp
    · exact (hallowed p hp).mono (List.subset_append_left ns ms)
    · exact (hallowed' p hp).mono (List.subset_append_right ns ms)
  · rcases List.mem_append.mp hf with hf | hf
    · exact (hmentioned f hf).trans (List.prefix_append _ _).isInfix
    · exact (hmentioned' f hf).trans
        ((List.suffix_cons c b').isInfix.trans (List.suffix_append _ _).isInfix)

/-- Whether a text is a word of every program, or several. -/
def isFixed (t : String) : Bool :=
  t.toList.all (fun c => c != '"' && c != '#') && (paths t.toList).all isCommon

/-- Words of every program, with names that are no provisions. -/
theorem revealed_fixed {ns : List String} {t : String} (ht : isFixed t = true)
    (hns : ∀ f : Provision, f.name ∉ ns) : Revealed ns t.toList := by
  obtain ⟨hplain, hcommon⟩ := Bool.and_eq_true_iff.mp ht
  refine ⟨t.toList, shows_plain fun c hc => ?_, fun p hp => ?_, fun f hf => absurd hf (hns f)⟩
  · simpa using List.all_eq_true.mp hplain c hc
  · exact .inl (List.all_eq_true.mp hcommon p hp)

theorem revealed_word {t : String} (ht : isFixed t = true) : Revealed [] t.toList :=
  revealed_fixed ht fun _ => List.not_mem_nil

theorem revealed_nil : Revealed [] [] := revealed_word (t := "") (by decide)

/-- A piece in parentheses, or without them. -/
theorem revealed_fit {ns : List String} {f : Fragment} (h : Revealed ns f.code.toList)
    (bound : Precedence) : Revealed ns (f.fit bound).toList := by
  unfold Fragment.fit
  split
  · have hparentheses := revealed_nil.join (h.join revealed_nil (c := ')') (by decide) (by decide))
      (c := '(') (by decide) (by decide)
    simpa using hparentheses
  · exact h

theorem revealed_use (f : Provision) : Revealed f.use.names f.code.toList := by
  refine ⟨f.code.toList, shows_plain ?_, ?_, ?_⟩
  · cases f <;> exact List.all_iff_forall_prop.mp (by decide)
  · intro p hp
    have hpaths : ∀ p ∈ paths f.code.toList, isCommon p = true ∨ String.ofList p ∈ f.usePaths := by
      cases f <;> decide
    have hname : f.name ∈ f.use.names := by cases f <;> decide
    exact (hpaths p hp).imp_right fun hp => ⟨f, hp, hname⟩
  · intro f' hf'
    have hself : f' = f := by
      revert hf'
      cases f <;> cases f' <;> decide
    exact hself ▸ List.infix_rfl

/-! ## Expressions -/

/-- Whether an expression is a word of every program and has no name of a provision. -/
def Expr.isWord (e : Expr) : Bool :=
  isFixed e.fragment.code &&
    e.names.all fun n => n ∉ ["random", "time", "play_tone_for", "shake_happened"]

/-- An expression in the vocabulary of programs. -/
inductive Known : Expr → Prop
  | word {e : Expr} (h : e.isWord = true) : Known e
  | provision (f : Provision) : Known f.use
  | number {n : Numeral} (h : n.fraction.all Char.isDigit = true) : Known (.number n)
  | text (s : String) : Known (.text s)
  | call {f : Expr} {args : List Expr} (hf : Known f) (ha : ∀ a ∈ args, Known a) :
      Known (.call f args)
  | subscript {e i : Expr} (he : Known e) (hi : Known i) : Known (.subscript e i)
  | negate {e : Expr} (he : Known e) : Known (.negate e)
  | not {e : Expr} (he : Known e) : Known (.not e)
  | binary (op : BinaryOp) {a b : Expr} (ha : Known a) (hb : Known b) : Known (.binary op a b)

theorem revealed_numeral {n : Numeral} (h : n.fraction.all Char.isDigit = true) :
    Revealed [] n.text.toList := by
  have hwhole : ∀ c ∈ Nat.toDigits 10 n.whole, c.isDigit = true :=
    fun c hc => Nat.isDigit_of_mem_toDigits (by decide) (by decide) hc
  have hall : ∀ c ∈ n.text.toList, (c.isDigit || c == '.') = true := by
    intro c hc
    rw [toList_text, List.mem_append] at hc
    rcases hc with hc | hc
    · simp [hwhole c hc]
    · split at hc
      · cases hc
      · rcases List.mem_cons.mp hc with rfl | hc
        · rfl
        · simp [List.all_eq_true.mp h c hc]
  have hpath : ∀ c ∈ n.text.toList, isPathChar c = true := by
    intro c hc
    rcases Bool.or_eq_true_iff.mp (hall c hc) with hdigit | hpoint
    · simp [isPathChar, isNameChar_of_isDigit hdigit]
    · simp [isPathChar, hpoint]
  refine ⟨n.text.toList, shows_plain fun c hc => ?_, fun p hp => ?_, nofun⟩
  · constructor <;> rintro rfl <;> exact absurd (hall _ hc) (by decide)
  · rw [paths_of_all hpath, List.mem_singleton] at hp
    exact .inl (Bool.or_eq_true_iff.mpr (.inl (hp ▸ List.all_eq_true.mpr hall)))

theorem revealed_text (s : String) : Revealed [] (quotedText s).toList :=
  ⟨_, shows_quotedText s, fun _ hp => .inl (List.all_eq_true.mp (by decide) _ hp), nofun⟩

theorem revealed_arguments {args : List Expr} (h : ∀ a ∈ args, Revealed a.names a.fragment.code.toList) :
    Revealed (Expr.argumentNames args) (Expr.argumentCode args).toList := by
  induction args with
  | nil => exact revealed_nil
  | cons e r ih =>
    obtain ⟨he, hr⟩ := List.forall_mem_cons.mp h
    have hfirst := revealed_fit he .loosest
    cases r with
    | nil => simpa [Expr.argumentNames, Expr.argumentCode] using hfirst
    | cons e' r =>
      have hspace := revealed_nil.join (ih hr) (c := ' ') (by decide) (by decide)
      have hcomma := hfirst.join hspace (c := ',') (by decide) (by decide)
      simpa [Expr.argumentNames, Expr.argumentCode] using hcomma

/-- **Expressions in the vocabulary show their provisions**, and nothing else that would have to be
provided. -/
theorem Known.revealed {e : Expr} (h : Known e) : Revealed e.names e.fragment.code.toList := by
  induction h with
  | word h =>
    obtain ⟨hfixed, hnames⟩ := Bool.and_eq_true_iff.mp h
    refine revealed_fixed hfixed fun f hf => ?_
    have hname := of_decide_eq_true (List.all_eq_true.mp hnames _ hf)
    exact hname (by cases f <;> decide)
  | provision f => exact revealed_use f
  | number h => exact revealed_numeral h
  | text s => exact revealed_text s
  | call _ _ ihf iha =>
    have hclosing := (revealed_arguments iha).join revealed_nil (c := ')') (by decide) (by decide)
    have hcall := (revealed_fit ihf .call).join hclosing (c := '(') (by decide) (by decide)
    simpa [Expr.names, Expr.fragment] using hcall
  | subscript _ _ ihe ihi =>
    have hclosing := (revealed_fit ihi .loosest).join revealed_nil (c := ']') (by decide) (by decide)
    have hopening := (revealed_fit ihe .call).join hclosing (c := '[') (by decide) (by decide)
    simpa [Expr.names, Expr.fragment] using hopening
  | negate _ ih =>
    have hsign := revealed_nil.join (revealed_fit ih .unary) (c := '-') (by decide) (by decide)
    simpa [Expr.names, Expr.fragment] using hsign
  | not _ ih =>
    have hword := (revealed_word (t := "not") (by decide)).join (revealed_fit ih .logicalNot)
      (c := ' ') (by decide) (by decide)
    simpa [Expr.names, Expr.fragment] using hword
  | binary op _ _ iha ihb =>
    have hsymbol : Revealed [] op.symbol.toList := revealed_word (by cases op <;> decide)
    have hright := hsymbol.join (revealed_fit ihb op.right) (c := ' ') (by decide) (by decide)
    have hleft := (revealed_fit iha op.left).join hright (c := ' ') (by decide) (by decide)
    simpa [Expr.names, Expr.fragment] using hleft

/-! ## Lines -/

/-- Lines with certain names: they have allowed names only, and every provision among the names occurs in
one of them. -/
structure Revealing (ns : List String) (ls : List String) : Prop where
  allowed : ∀ l ∈ ls, ∀ p ∈ paths (bare l.toList), Allowed ns p
  mentioned : ∀ f : Provision, f.name ∈ ns → Mentions f.code ls

namespace Revealing

variable {ns ms : List String} {ls ls' : List String}

theorem nil : Revealing [] [] := ⟨nofun, nofun⟩

theorem ofLine {l : String} (h : Revealed ns l.toList) : Revealing ns [l] := by
  obtain ⟨shown, hshows, hallowed, hmentioned⟩ := h
  constructor
  · intro l' hl'
    obtain rfl := List.mem_singleton.mp hl'
    rwa [hshows.bare_eq]
  · exact fun f hf => ⟨l, List.mem_singleton_self l, hshows.bare_eq.symm ▸ hmentioned f hf⟩

theorem append (h : Revealing ns ls) (h' : Revealing ms ls') : Revealing (ns ++ ms) (ls ++ ls') := by
  constructor
  · intro l hl p hp
    rcases List.mem_append.mp hl with hl | hl
    · exact (h.allowed l hl p hp).mono (List.subset_append_left ns ms)
    · exact (h'.allowed l hl p hp).mono (List.subset_append_right ns ms)
  · intro f hf
    rcases List.mem_append.mp hf with hf | hf
    · obtain ⟨l, hl, hmem⟩ := h.mentioned f hf
      exact ⟨l, List.mem_append_left _ hl, hmem⟩
    · obtain ⟨l, hl, hmem⟩ := h'.mentioned f hf
      exact ⟨l, List.mem_append_right _ hl, hmem⟩

/-- Indentation shows no names. -/
theorem indent (h : Revealing ns ls) : Revealing ns (ls.map indentLine) := by
  have hspaces : Shows indentation.toList indentation.toList :=
    shows_plain (List.all_iff_forall_prop.mp (by decide))
  have hindent : ∀ l, bare (indentLine l).toList = bare l.toList ∨
      bare (indentLine l).toList = indentation.toList ++ bare l.toList := by
    intro l
    unfold indentLine
    split
    · exact .inl rfl
    · exact .inr (by rw [String.toList_append, hspaces])
  have hpaths : ∀ cs, paths (indentation.toList ++ cs) = [[], [], [], []] ++ paths cs := by
    intro cs
    have hspace : ∀ cs, paths (' ' :: cs) = [] :: paths cs := paths_append_cons (by decide) []
    show paths (' ' :: ' ' :: ' ' :: ' ' :: cs) = _
    simp only [hspace, List.cons_append, List.nil_append]
  constructor
  · intro l hl p hp
    obtain ⟨l, hmem, rfl⟩ := List.mem_map.mp hl
    rcases hindent l with heq | heq
    · exact h.allowed l hmem p (heq ▸ hp)
    · rw [heq, hpaths, List.mem_append] at hp
      rcases hp with hp | hp
      · obtain rfl : p = [] := by simpa using hp
        exact .inl rfl
      · exact h.allowed l hmem p hp
  · intro f hf
    obtain ⟨l, hl, hmem⟩ := h.mentioned f hf
    refine ⟨indentLine l, List.mem_map_of_mem hl, ?_⟩
    rcases hindent l with heq | heq
    · rwa [heq]
    · rw [heq]
      exact hmem.trans (List.suffix_append _ _).isInfix

/-- The names of a provision occur where the provision does. -/
theorem path_mem (h : Revealing ns ls) {f : Provision} {l : String} (hl : l ∈ ls)
    (hpath : f.path.toList <:+: bare l.toList) :
    f.path.toList ∈ paths (bare l.toList) ∧ f.name ∈ ns := by
  have hchars : ∀ c ∈ f.path.toList, isPathChar c = true := by
    cases f <;> exact List.all_iff_forall_prop.mp (by decide)
  obtain ⟨p, hp, hinfix⟩ := exists_path_of_infix hchars hpath
  obtain ⟨heq, hname⟩ := path_of_infix (h.allowed l hl p hp) hinfix
  rw [← heq, String.toList_ofList]
  exact ⟨hp, hname⟩

/-- **A provision occurs in lines exactly if its name is one of theirs.** -/
theorem mentions_iff (h : Revealing ns ls) (f : Provision) : Mentions f.code ls ↔ f.name ∈ ns := by
  refine ⟨fun ⟨l, hl, hmem⟩ => ?_, h.mentioned f⟩
  have hpath : f.path.toList <:+: f.code.toList := by cases f <;> decide
  exact (h.path_mem hl (hpath.trans hmem)).2

/-- The names in lines are those of every program, and those of provisions. -/
theorem mem_names (h : Revealing ns ls) {l n : String} (hl : l ∈ ls) (hn : n ∈ names l) :
    n ∈ commonNames ∨ ∃ f : Provision, n ∈ f.useNames ∧ f.name ∈ ns := by
  obtain ⟨p, hp, rfl⟩ := List.mem_map.mp hn
  obtain ⟨hp, hstart⟩ := List.mem_filter.mp hp
  rcases h.allowed l hl p hp with hcommon | ⟨f, hpath, hname⟩
  · rcases Bool.or_eq_true_iff.mp hcommon with hnumeral | hword
    · -- no numeral begins like a name
      obtain ⟨c, hc, hletter⟩ := (Option.any_eq_true _ _).mp hstart
      rcases Bool.or_eq_true_iff.mp (List.all_eq_true.mp hnumeral c (List.mem_of_head? hc)) with hd | hd
      · rw [isDigit_of_isNameStart hletter] at hd
        cases hd
      · obtain rfl := eq_of_beq hd
        exact absurd hletter (by decide)
    · refine .inl (List.mem_map.mpr ⟨_, List.contains_iff_mem.mp hword, ?_⟩)
      rw [String.toList_ofList]
  · refine .inr ⟨f, List.mem_map.mpr ⟨_, hpath, ?_⟩, hname⟩
    rw [String.toList_ofList]

/-- A provision is looked up in lines exactly if its name is one of theirs. -/
theorem uses_iff (h : Revealing ns ls) (f : Provision) : (∃ l ∈ ls, f.name ∈ names l) ↔ f.name ∈ ns := by
  constructor
  · rintro ⟨l, hl, hn⟩
    rcases h.mem_names hl hn with hword | ⟨f', hpath, hname⟩
    · have hwords : ∀ f : Provision, f.name ∉ commonNames := by
        intro f
        cases f <;> decide
      exact absurd hword (hwords f)
    · have hself : f.name ∈ f'.useNames → f = f' := by
        cases f <;> cases f' <;> decide
      exact hself hpath ▸ hname
  · intro hname
    obtain ⟨l, hl, hmem⟩ := h.mentioned f hname
    have hpath : f.path.toList <:+: f.code.toList := by cases f <;> decide
    have hmem := (h.path_mem hl (hpath.trans hmem)).1
    have hhead : head f.path.toList = f.name ∧ f.path.toList.head?.any isNameStart = true := by
      cases f <;> decide
    exact ⟨l, hl, List.mem_map.mpr ⟨_, List.mem_filter.mpr ⟨hmem, hhead.2⟩, hhead.1⟩⟩

end Revealing

end BlockBoard
