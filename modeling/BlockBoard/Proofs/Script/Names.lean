import BlockBoard.Proofs.Script.Outline
import Mathlib.Data.List.Infix
/-!
# Names in code

Which names a line of code uses and which it defines, as one finds them by looking at the line: texts
and comments do not count, and of a name with points in it only the part before the first point is
looked up by the board.

- `Script.bare`: what a line shows outside of texts and comments.
- `Script.paths`: the names of a piece of code, together with what stands behind their points.
- `Script.exists_path_of_infix`: what occurs in code and is part of a name occurs in one of its names.
- `Script.Shows`, `Script.shows_quotedText`: what a piece of a line shows, whatever follows it. **Nothing
  is left of a quoted text but its quotes.**
- `Script.names`, `Script.bound`: the names that a line uses, and those that it defines.
- `Script.Closed`: lines that use nothing but what has been defined.
-/

namespace BlockBoard

namespace Script

/-! ## Code without texts -/

/-- What a line shows outside of texts and comments, read from a place that is inside of a text or not.
The quotes of texts stay; in a text, a backslash protects the character after it. -/
def bareFrom : Bool → List Char → List Char
  | _, [] => []
  | false, c :: r => if c = '#' then [] else c :: bareFrom (c == '"') r
  | true, '\\' :: _ :: r => bareFrom true r
  | true, c :: r => if c = '"' then c :: bareFrom false r else bareFrom true r

/-- What a line shows outside of texts and comments. -/
def bare (l : List Char) : List Char := bareFrom false l

/-- Whether a text occurs in lines, outside of texts and comments. -/
def Mentions (w : String) (ls : List String) : Prop := ∃ l ∈ ls, w.toList <:+: bare l.toList

/-- A piece of a line shows something, whatever follows it. -/
def Shows (cs shown : List Char) : Prop := ∀ rest, bare (cs ++ rest) = shown ++ bare rest

/-- A whole line. -/
theorem Shows.bare_eq {cs shown : List Char} (h : Shows cs shown) : bare cs = shown := by
  have hwhole := h []
  rwa [List.append_nil, show bare [] = [] from rfl, List.append_nil] at hwhole

theorem Shows.append {a a' b b' : List Char} (ha : Shows a a') (hb : Shows b b') :
    Shows (a ++ b) (a' ++ b') := by
  intro rest
  rw [List.append_assoc, ha, hb, List.append_assoc]

/-- Without quotes and signs of comments, all is shown. -/
theorem shows_plain {cs : List Char} (h : ∀ c ∈ cs, c ≠ '"' ∧ c ≠ '#') : Shows cs cs := by
  intro rest
  induction cs with
  | nil => rfl
  | cons c r ih =>
    obtain ⟨⟨hquote, hhash⟩, hr⟩ := List.forall_mem_cons.mp h
    have hstate : (c == '"') = false := beq_eq_false_iff_ne.mpr hquote
    rw [List.cons_append, bare, bareFrom, if_neg hhash, hstate]
    exact congrArg (c :: ·) (ih hr)

/-- A character of a text that ends nothing is skipped. -/
theorem bareFrom_inside {c : Char} (hslash : c ≠ '\\') (hquote : c ≠ '"') (r : List Char) :
    bareFrom true (c :: r) = bareFrom true r := by
  rw [bareFrom.eq_def]
  split
  · cases ‹c :: r = []›
  · cases ‹true = false›
  · rename_i heq
    exact absurd (List.cons.inj heq).1 hslash
  · rename_i heq
    obtain ⟨rfl, rfl⟩ := List.cons.inj heq
    rw [if_neg hquote]

/-- What stands for a character of a quoted text is skipped. -/
theorem bareFrom_quotedChar (c : Char) (r : List Char) :
    bareFrom true (quotedChar c ++ r) = bareFrom true r := by
  have hhex : ∀ d < 16, d.digitChar ≠ '\\' ∧ d.digitChar ≠ '"' := by decide
  by_cases hescaped : c ∈ ['\\', '"', '\n', '\r', '\t', '#']
  · simp only [List.mem_cons, List.not_mem_nil, or_false] at hescaped
    rcases hescaped with rfl | rfl | rfl | rfl | rfl | rfl <;> rfl
  rw [quotedChar_of_not_mem hescaped]
  by_cases hcontrol : (c.toNat < 0x20 || c.toNat = 0x7f) = true
  · have hcode : c.toNat < 256 := by
      simp only [Bool.or_eq_true, decide_eq_true_eq] at hcontrol
      omega
    obtain ⟨hhigh, hhigh'⟩ := hhex (c.toNat / 16) (by omega)
    obtain ⟨hlow, hlow'⟩ := hhex (c.toNat % 16) (Nat.mod_lt _ (by decide))
    rw [if_pos hcontrol]
    show bareFrom true ((c.toNat / 16).digitChar :: (c.toNat % 16).digitChar :: r) = _
    rw [bareFrom_inside hhigh hhigh', bareFrom_inside hlow hlow']
  · simp only [List.mem_cons, List.not_mem_nil, or_false, not_or] at hescaped
    rw [if_neg hcontrol, List.singleton_append, bareFrom_inside hescaped.1 hescaped.2.1]

/-- **Nothing is left of a quoted text but its quotes**, whatever it says. -/
theorem shows_quotedText (s : String) : Shows (quotedText s).toList ['"', '"'] := by
  have hinside : ∀ (cs rest : List Char), bareFrom true (cs.flatMap quotedChar ++ '"' :: rest) =
      '"' :: bareFrom false rest := by
    intro cs rest
    induction cs with
    | nil => rfl
    | cons c r ih => rw [List.flatMap_cons, List.append_assoc, bareFrom_quotedChar, ih]
  intro rest
  have htext : (quotedText s).toList ++ rest =
      '"' :: (s.toList.flatMap quotedChar ++ '"' :: rest) := by
    simp [quotedText]
  rw [htext]
  show '"' :: bareFrom true _ = _
  rw [hinside]
  rfl

/-! ## Names with points -/

/-- Whether a character can stand in a name, or between a name and one of its attributes. -/
def isPathChar (c : Char) : Bool := isNameChar c || c == '.'

/-- The names of a piece of code, with what stands behind their points; also its numerals, and nothing
at all between two characters that belong to none. -/
def paths (cs : List Char) : List (List Char) := cs.splitOnP (!isPathChar ·)

theorem paths_append_cons {c : Char} (hc : isPathChar c = false) (a b : List Char) :
    paths (a ++ c :: b) = paths a ++ paths b :=
  List.splitOnP_append_cons a b (by simp [hc])

theorem paths_of_all {cs : List Char} (h : ∀ c ∈ cs, isPathChar c = true) : paths cs = [cs] :=
  List.splitOnP_eq_singleton fun c hc => by simp [h c hc]

/-- What does not go beyond a character occurs before or behind it. -/
theorem infix_or_infix {w a b : List Char} {c : Char} (hc : c ∉ w) (h : w <:+: a ++ c :: b) :
    w <:+: a ∨ w <:+: b := by
  have hnil : ∀ {v : List Char}, c ∉ v → v <+: c :: b → v = [] := by
    intro v hv hprefix
    cases v with
    | nil => rfl
    | cons d r => exact absurd (List.cons_prefix_cons.mp hprefix).1 fun h => hv (h ▸ List.mem_cons_self)
  rcases List.infix_append_iff.mp h with h | h | ⟨v, v', rfl, hsuffix, hprefix⟩
  · exact .inl h
  · rcases List.infix_cons_iff.mp h with h | h
    · exact .inl (hnil hc h ▸ List.nil_infix)
    · exact .inr h
  · rw [hnil (fun h => hc (List.mem_append_right v h)) hprefix, List.append_nil]
    exact .inl hsuffix.isInfix

/-- What occurs in code and is part of a name occurs in one of its names. -/
theorem exists_path_of_infix {w : List Char} (hw : ∀ c ∈ w, isPathChar c = true) {cs : List Char}
    (h : w <:+: cs) : ∃ p ∈ paths cs, w <:+: p := by
  induction hn : cs.length using Nat.strong_induction_on generalizing cs with
  | _ n ih =>
    by_cases hall : ∀ c ∈ cs, isPathChar c = true
    · exact ⟨cs, by simp [paths_of_all hall], h⟩
    · push Not at hall
      obtain ⟨c, hmem, hc⟩ := hall
      obtain ⟨a, b, rfl⟩ := List.append_of_mem hmem
      have hsep : isPathChar c = false := by simpa using hc
      simp only [List.length_append, List.length_cons] at hn
      rw [paths_append_cons hsep]
      rcases infix_or_infix (fun hmem => hc (hw c hmem)) h with h | h
      · obtain ⟨p, hp, hinfix⟩ := ih a.length (by omega) h rfl
        exact ⟨p, List.mem_append_left _ hp, hinfix⟩
      · obtain ⟨p, hp, hinfix⟩ := ih b.length (by omega) h rfl
        exact ⟨p, List.mem_append_right _ hp, hinfix⟩

/-! ## Lines that define names -/

/-- The part of a name that the board looks up by itself, the others being attributes. -/
def head (p : List Char) : String := String.ofList (p.takeWhile (· != '.'))

/-- The names that occur in a line. -/
def names (l : String) : List String :=
  ((paths (bare l.toList)).filter fun p => p.head?.any isNameStart).map head

/-- The names that a line defines: what it imports, the name of a class, the name of a function and those
of its parameters, or the variable that it assigns. -/
def bound (l : String) : List String :=
  match names l with
  | [] => []
  | first :: rest =>
    if first ∈ ["import", "class", "def"] then rest
    else
      let assigned := (l.toList.dropWhile (· == ' ')).dropWhile isNameChar
      if [' ', '=', ' '].isPrefixOf assigned then [first] else []

/-- The names that need no definition: reserved words, those of the built-in functions and constants, and
the underscore, which a loop assigns that does not count. -/
def languageNames : List String :=
  reservedWords ++ ["and", "or", "not", "True", "False", "None", "abs", "int", "print", "range", "str", "_"]

/-- Lines in which every name is known beforehand, or defined in the same line or an earlier one. -/
def Closed (known : List String) : List String → Prop
  | [] => True
  | l :: r => (∀ n ∈ names l, n ∈ known ∨ n ∈ bound l) ∧ Closed (known ++ bound l) r

instance decidableClosed (known : List String) : (ls : List String) → Decidable (Closed known ls)
  | [] => inferInstanceAs (Decidable True)
  | l :: r =>
    let _ := decidableClosed (known ++ bound l) r
    inferInstanceAs (Decidable ((∀ n ∈ names l, n ∈ known ∨ n ∈ bound l) ∧ _))

variable {known known' : List String} {a b : List String}

theorem Closed.mono (h : Closed known a) (hle : known ⊆ known') : Closed known' a := by
  induction a generalizing known known' with
  | nil => trivial
  | cons l r ih =>
    refine ⟨fun n hn => (h.1 n hn).imp_left (hle ·), ih h.2 ?_⟩
    exact List.append_subset.mpr
      ⟨List.subset_append_of_subset_left _ hle, List.subset_append_right _ _⟩

theorem Closed.append (ha : Closed known a) (hb : Closed (known ++ a.flatMap bound) b) :
    Closed known (a ++ b) := by
  induction a generalizing known with
  | nil => simpa using hb
  | cons l r ih =>
    refine ⟨ha.1, ih ha.2 ?_⟩
    rwa [List.append_assoc]

/-- Lines each of which uses nothing but what is known already or defined in it. -/
theorem closed_of_lines (h : ∀ l ∈ a, ∀ n ∈ names l, n ∈ known ∨ n ∈ bound l) : Closed known a := by
  induction a generalizing known with
  | nil => trivial
  | cons l r ih =>
    obtain ⟨hl, hr⟩ := List.forall_mem_cons.mp h
    exact ⟨hl, ih fun l' hl' n hn => (hr l' hl' n hn).imp_left (List.mem_append_left _)⟩

end Script

end BlockBoard
