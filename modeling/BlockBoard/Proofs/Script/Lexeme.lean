import BlockBoard.Proofs.Script.Outline
/-!
# The tokens of a program

The board cuts a whole program into tokens before it groups anything: line by line, each with the spaces
that it starts with, the words of statements and the colons among the tokens of expressions. The tokens
of a program follow from its statements alone, so that nothing that a text in it holds can become
anything but the value of a text.

- `Script.readText?`: a text in double quotes at the beginning of some code. `Script.readText?_quoted`:
  **a quoted text is read back, and nothing that follows it belongs to it**.
- `Script.Lexeme`, `Script.lexBody?`: the tokens of a program.
- `Script.lex?_append`: the tokens of an expression stand among those of its line.
- `Stmt.lexemes`: the tokens that a statement asks for.
- `Stmt.lexBody?_text`: **the code of statements is cut into the tokens that they ask for**.
-/

namespace BlockBoard

namespace Script

/-! ## One text -/

/-- The text in double quotes that some code begins with, and what follows it. -/
def readText? : List Char → Option (String × List Char)
  | '"' :: r => (scanText r).map fun (s, rest) => (String.ofList s, rest)
  | _ => none

/-- **A quoted text is read back**, and nothing that follows it belongs to it. -/
theorem readText?_quoted (s : String) (t : List Char) :
    readText? ((quotedText s).toList ++ t) = some (s, t) := by
  have htext : (quotedText s).toList ++ t = '"' :: (s.toList.flatMap quotedChar ++ '"' :: t) := by
    simp [quotedText]
  rw [htext, readText?, scanText_quoted, Option.map_some]
  simp only [String.ofList_toList]

/-- It is one token wherever the board looks for any, unless an empty text and a quote after it make up
three quotes. -/
theorem scan?_quotedText {s : String} {t : List Char} (ht : s = "" → t.head? ≠ some '"') :
    scan? ((quotedText s).toList ++ t) = some (.text s, t) := by
  have htext : (quotedText s).toList ++ t = '"' :: (s.toList.flatMap quotedChar ++ '"' :: t) := by
    simp [quotedText]
  have hempty : s.toList = [] → t.head? ≠ some '"' := fun h => ht (String.toList_eq_nil_iff.mp h)
  rw [htext, scan?_quoted hempty, String.ofList_toList]

/-! ## All tokens of a program -/

/-- A token of a program. -/
inductive Lexeme where
  /-- The beginning of a line, after some spaces. -/
  | line (spaces : Nat)
  | token (t : Token)
  /-- A word that is no name. -/
  | keyword (word : String)
  | colon
  deriving DecidableEq, Repr

namespace Lexeme

/-- The token of a text. -/
def text (s : String) : Lexeme := .token (.text s)

end Lexeme

/-- The word at the beginning of some code. -/
def firstWord (cs : List Char) : String := String.ofList (cs.takeWhile isNameChar)

/-- The first token of a line, and what follows it. -/
def scanLexeme? : List Char → Option (Lexeme × List Char)
  | ':' :: r => some (.colon, r)
  | cs =>
    if firstWord cs ∈ reservedWords then some (.keyword (firstWord cs), cs.dropWhile isNameChar)
    else (scan? cs).map fun (t, r) => (.token t, r)

/-- The tokens of a line, with spaces between them or none. -/
def lex? (cs : List Char) : Option (List Lexeme) :=
  match cs with
  | [] => some []
  | c :: r =>
    if c = ' ' then lex? r
    else match scanLexeme? (c :: r) with
      | some (l, rest) => if rest.length < (c :: r).length then (lex? rest).map (l :: ·) else none
      | none => none
termination_by cs.length
decreasing_by
  · exact Nat.lt_succ_self _
  · assumption

/-- The tokens of a line, with the spaces that it starts with. -/
def lexLine? (l : String) : Option (List Lexeme) :=
  let spaces := l.toList.takeWhile (· = ' ')
  (lex? (l.toList.drop spaces.length)).map (.line spaces.length :: ·)

/-- The tokens of lines in a row. -/
def lexLines? : List String → Option (List Lexeme)
  | [] => some []
  | l :: r => do return (← lexLine? l) ++ (← lexLines? r)

/-- The tokens of a program. -/
def lexBody? (body : String) : Option (List Lexeme) := lexLines? (lines body)

@[simp] theorem lex?_nil : lex? [] = some [] := by rw [lex?]

@[simp] theorem lex?_space (r : List Char) : lex? (' ' :: r) = lex? r := by
  rw [lex?]; simp

/-- The first token comes first, provided that it takes something away. -/
theorem lex?_of_scanLexeme {cs rest : List Char} {l : Lexeme} (hs : scanLexeme? cs = some (l, rest))
    (hne : cs.head? ≠ some ' ') (hlt : rest.length < cs.length) :
    lex? cs = (lex? rest).map (l :: ·) := by
  cases cs with
  | nil => simp at hlt
  | cons c r =>
    have hc : c ≠ ' ' := by simpa using hne
    rw [lex?]
    simp only [if_neg hc, hs, if_pos hlt]

theorem lex?_colon (r : List Char) : lex? (':' :: r) = (lex? r).map (.colon :: ·) :=
  lex?_of_scanLexeme rfl (by simp) (by simp)

/-- A word that is no name, in front of anything that ends it. -/
theorem lex?_keyword {w : String} (hw : w ∈ reservedWords) {r : List Char}
    (hr : ∀ c ∈ r.head?, isNameChar c = false) :
    lex? (w.toList ++ r) = (lex? r).map (.keyword w :: ·) := by
  have hwords : ∀ w ∈ reservedWords, w.toList.all isNameChar = true ∧ w.toList ≠ [] ∧
      w.toList.head? ≠ some ' ' ∧ w.toList.head? ≠ some ':' := by decide
  obtain ⟨hall, hne, hspace, hcolon⟩ := hwords w hw
  obtain ⟨htake, hdrop⟩ := takeWhile_dropWhile_stop (List.all_eq_true.mp hall) hr
  obtain ⟨c, cs, hcs⟩ := List.exists_cons_of_ne_nil hne
  have hfirst : firstWord (w.toList ++ r) = w := by rw [firstWord, htake, String.ofList_toList]
  have hscan : scanLexeme? (w.toList ++ r) = some (.keyword w, r) := by
    rw [scanLexeme?.eq_def]
    split
    · rename_i heq
      rw [hcs] at heq hcolon
      obtain ⟨rfl, -⟩ := List.cons.inj heq
      exact absurd rfl hcolon
    · rw [hfirst, if_pos hw, hdrop]
  refine lex?_of_scanLexeme hscan ?_ ?_
  · rw [hcs] at hspace ⊢
    exact hspace
  · rw [List.length_append, hcs, List.length_cons]
    omega

/-! ## Tokens of expressions among them -/

/-- What a text consists of does not depend on what follows it. -/
theorem scanText_append {cs s r : List Char} (h : scanText cs = some (s, r)) (rest : List Char) :
    scanText (cs ++ rest) = some (s, r ++ rest) := by
  -- one more character in front, where the rest is known
  have hfront : ∀ {c : Char} {r' : List Char} {s r : List Char},
      (∀ s r, scanText r' = some (s, r) → scanText (r' ++ rest) = some (s, r ++ rest)) →
      inFront c (scanText r') = some (s, r) →
      inFront c (scanText (r' ++ rest)) = some (s, r ++ rest) := by
    intro c r' s r ih h
    obtain ⟨⟨s', r''⟩, hread, heq⟩ := Option.map_eq_some_iff.mp h
    obtain ⟨rfl, rfl⟩ := Prod.mk.inj heq
    rw [ih s' r'' hread]
    rfl
  induction cs using scanText.induct generalizing s r with
  | case1 => cases h
  | case2 r' =>
    cases h
    rfl
  | case3 a b r' ih =>
    rw [scanText] at h
    obtain ⟨high, hhigh, h⟩ := Option.bind_eq_some_iff.mp h
    obtain ⟨low, hlow, h⟩ := Option.bind_eq_some_iff.mp h
    simp only [List.cons_append]
    rw [scanText, hhigh, hlow]
    exact hfront (fun _ _ => ih) h
  | case4 c r' hx ih =>
    rw [scanText.eq_4 c r' hx] at h
    obtain ⟨d, hd, h⟩ := Option.bind_eq_some_iff.mp h
    -- a mark of two digits that are not there would be no escape
    have hmark : c ≠ 'x' := by
      rintro rfl
      cases hd
    simp only [List.cons_append]
    rw [scanText.eq_4 c _ fun _ _ _ heq => (hmark heq).elim, hd]
    exact hfront (fun _ _ => ih) h
  | case5 c r' hquote hx hslash hends =>
    rw [scanText.eq_5 c r' hquote hx hslash, if_pos hends] at h
    cases h
  | case6 c r' hquote hx hslash hends ih =>
    have hplain : c ≠ '\\' := fun heq => hends (.inl heq)
    rw [scanText.eq_5 c r' hquote hx hslash, if_neg hends] at h
    rw [List.cons_append, scanText.eq_5 c _ hquote (fun _ _ _ heq => (hplain heq).elim)
      (fun _ _ heq => (hplain heq).elim), if_neg hends]
    exact hfront (fun _ _ => ih) h

/-- What follows an expression on its line: nothing, or a colon. -/
def FollowsExpr (rest : List Char) : Prop := ∀ c ∈ rest.head?, c = ':'

section Append

variable {cs r rest : List Char} {t : Token} (hrest : FollowsExpr rest)

include hrest

theorem FollowsExpr.eq_colon {c : Char} {u : List Char} (h : rest = c :: u) : c = ':' :=
  hrest c (by rw [h]; rfl)

theorem FollowsExpr.takeWhile_append {p : Char → Bool} (hp : p ':' = false) (cs : List Char) :
    (cs ++ rest).takeWhile p = cs.takeWhile p ∧
      (cs ++ rest).dropWhile p = cs.dropWhile p ++ rest := by
  have hstop : rest.takeWhile p = [] ∧ rest.dropWhile p = rest := by
    cases rest with
    | nil => exact ⟨rfl, rfl⟩
    | cons c u =>
      obtain rfl := hrest.eq_colon rfl
      simp [hp]
  induction cs with
  | nil => exact hstop
  | cons c cs ih =>
    by_cases hc : p c = true
    · simp [hc, ih]
    · simp [hc]

theorem FollowsExpr.touchesNumeral_append (cs : List Char) :
    touchesNumeral (cs ++ rest) = touchesNumeral cs := by
  cases cs with
  | cons c cs => rfl
  | nil =>
    cases rest with
    | nil => rfl
    | cons c u =>
      obtain rfl := hrest.eq_colon rfl
      rfl

theorem scanNumber?_append (h : scanNumber? cs = some (t, r)) :
    scanNumber? (cs ++ rest) = some (t, r ++ rest) := by
  obtain ⟨htake, hdrop⟩ := hrest.takeWhile_append (p := Char.isDigit) rfl cs
  rw [scanNumber?] at h ⊢
  rw [htake, hdrop]
  split at h
  · rename_i r' hpoint
    obtain ⟨htake', hdrop'⟩ := hrest.takeWhile_append (p := Char.isDigit) rfl r'
    rw [hpoint]
    simp only [List.cons_append, htake', hdrop', hrest.touchesNumeral_append]
    dsimp only at h
    split at h
    · cases h
    · rename_i hgood
      obtain ⟨rfl, rfl⟩ := Prod.mk.inj (Option.some.inj h)
      rw [if_neg hgood]
  · rename_i hpoint
    have hpoint' : ∀ u, List.dropWhile Char.isDigit cs ++ rest ≠ '.' :: u := by
      intro u heq
      cases hcs : List.dropWhile Char.isDigit cs with
      | nil =>
        rw [hcs] at heq
        exact absurd (hrest.eq_colon heq) (by decide)
      | cons c v =>
        rw [hcs] at heq
        obtain ⟨rfl, -⟩ := List.cons.inj heq
        exact hpoint v hcs
    split at h
    · cases h
    · rename_i hgood
      obtain ⟨rfl, rfl⟩ := Prod.mk.inj (Option.some.inj h)
      split
      · rename_i heq
        exact (hpoint' _ heq).elim
      · rw [hrest.touchesNumeral_append, if_neg hgood]

theorem scanSymbol?_append (h : scanSymbol? cs = some (t, r)) :
    scanSymbol? (cs ++ rest) = some (t, r ++ rest) := by
  -- no symbol becomes a longer one
  have hshort : ∀ {a : Char} {u : List Char}, a ≠ ':' → (∀ v, u = a :: v → False) →
      ∀ v, u ++ rest = a :: v → False := by
    intro a u ha hu v heq
    cases u with
    | nil => exact ha (hrest.eq_colon heq)
    | cons c u =>
      obtain ⟨rfl, -⟩ := List.cons.inj heq
      exact hu u rfl
  rw [scanSymbol?.eq_def] at h
  split at h
  case h_9 u hu =>
    cases h
    exact scanSymbol?.eq_9 _ (hshort (by decide) fun v hv => hu v (by rw [hv]))
  case h_10 u hu =>
    cases h
    exact scanSymbol?.eq_10 _ (hshort (by decide) fun v hv => hu v (by rw [hv]))
  case h_12 u hu =>
    cases h
    exact scanSymbol?.eq_12 _ (hshort (by decide) fun v hv => hu v (by rw [hv]))
  case h_13 u hu =>
    cases h
    exact scanSymbol?.eq_13 _ (hshort (by decide) fun v hv => hu v (by rw [hv]))
  case h_20 => cases h
  all_goals
    cases h
    rfl

/-- The first token is the same with a colon behind everything. -/
theorem scan?_append (h : scan? cs = some (t, r)) : scan? (cs ++ rest) = some (t, r ++ rest) := by
  rw [scan?.eq_def] at h
  split at h
  · cases h
  · rename_i u hquotes
    obtain ⟨⟨s, v⟩, hread, heq⟩ := Option.map_eq_some_iff.mp h
    obtain ⟨rfl, rfl⟩ := Prod.mk.inj heq
    have hquotes' : ∀ v, u ++ rest = '"' :: '"' :: v → False := by
      intro v' heq
      rcases u with _ | ⟨a, _ | ⟨b, u⟩⟩
      · simp [scanText] at hread
      · obtain ⟨-, hv⟩ := List.cons.inj heq
        exact absurd (hrest.eq_colon hv) (by decide)
      · obtain ⟨rfl, hv⟩ := List.cons.inj heq
        obtain ⟨rfl, -⟩ := List.cons.inj hv
        exact hquotes u rfl
    rw [List.cons_append, scan?.eq_2 _ hquotes', scanText_append hread]
    rfl
  · rename_i c u _ hquote
    rw [List.cons_append, scan?.eq_3 c _ (fun _ heq _ => hquote heq) hquote]
    split at h
    · rename_i hdigit
      rw [if_pos hdigit]
      exact scanNumber?_append hrest h
    · rename_i hdigit
      rw [if_neg hdigit]
      split at h
      · rename_i hname
        obtain ⟨htake, hdrop⟩ := hrest.takeWhile_append (p := isNameChar) rfl (c :: u)
        rw [if_pos hname, ← List.cons_append, htake, hdrop]
        obtain ⟨t', htoken, heq⟩ := Option.map_eq_some_iff.mp h
        obtain ⟨rfl, rfl⟩ := Prod.mk.inj heq
        rw [htoken]
        rfl
      · rename_i hname
        rw [if_neg hname]
        exact scanSymbol?_append hrest h
  · cases h

omit hrest in
/-- A word that is no name is no token of an expression. -/
theorem firstWord_not_mem (h : scan? cs = some (t, r)) : firstWord cs ∉ reservedWords := by
  have hwords : ∀ w ∈ reservedWords, wordToken? w = none ∧ w.toList.head?.any isNameStart = true := by
    decide
  intro hmem
  obtain ⟨hnone, hstart⟩ := hwords _ hmem
  rw [firstWord, String.toList_ofList] at hstart
  cases cs with
  | nil => cases hstart
  | cons c u =>
    have hc : isNameStart c = true := by
      rw [List.takeWhile_cons] at hstart
      split at hstart
      · exact hstart
      · cases hstart
    obtain ⟨-, hquote, hdigit⟩ := isNameStart_ne hc
    rw [firstWord] at hnone
    rw [scan?.eq_3 c u (fun _ heq _ => hquote heq) hquote, hdigit, hc, hnone] at h
    cases h

theorem scanLexeme?_append (h : scan? cs = some (t, r)) :
    scanLexeme? (cs ++ rest) = some (.token t, r ++ rest) := by
  have hfirst : firstWord (cs ++ rest) = firstWord cs := by
    rw [firstWord, (hrest.takeWhile_append (p := isNameChar) rfl cs).1, firstWord]
  rw [scanLexeme?.eq_def]
  split
  · rename_i u heq
    cases cs with
    | nil => cases h
    | cons c v =>
      obtain ⟨rfl, -⟩ := List.cons.inj heq
      have hcolon : scan? (':' :: v) = none := rfl
      rw [hcolon] at h
      cases h
  · rw [hfirst, if_neg (firstWord_not_mem h), scan?_append hrest h]
    rfl

/-- **The tokens of an expression stand among those of its line.** -/
theorem lex?_append {ts : List Token} (h : tokens? cs = some ts) :
    lex? (cs ++ rest) = (lex? rest).map (ts.map .token ++ ·) := by
  induction cs using tokens?.induct generalizing ts with
  | case1 =>
    rw [tokens?_nil] at h
    cases h
    simp
  | case2 u ih =>
    rw [tokens?_space] at h
    rw [List.cons_append, lex?_space]
    exact ih h
  | case3 c u hc t rest' hscan hlt ih =>
    rw [tokens?_of_scan hscan (by simpa using hc) hlt] at h
    obtain ⟨ts', hts', rfl⟩ := Option.map_eq_some_iff.mp h
    have hlonger : (rest' ++ rest).length < (c :: u ++ rest).length := by
      rw [List.length_append, List.length_append]
      omega
    rw [lex?_of_scanLexeme (scanLexeme?_append hrest hscan) (by simpa using hc) hlonger, ih hts',
      Option.map_map]
    rfl
  | case4 c u hc t rest' hscan hlt =>
    rw [tokens?] at h
    simp only [if_neg hc, hscan, if_neg hlt] at h
    cases h
  | case5 c u hc hscan =>
    rw [tokens?] at h
    simp only [if_neg hc, hscan] at h
    cases h

end Append

/-! ## Lines -/

/-- A line after some spaces. -/
def spaced (spaces : Nat) (l : String) : String := String.ofList (List.replicate spaces ' ') ++ l

theorem spaced_indentLine {l : String} (hl : l ≠ "") (spaces : Nat) :
    spaced spaces (indentLine l) = spaced (spaces + indentation.length) l := by
  have hshown : ¬ l.isEmpty = true := fun h => hl (String.isEmpty_iff.mp h)
  have hlength : List.replicate indentation.length ' ' = indentation.toList := rfl
  rw [indentLine, if_neg hshown, spaced, spaced, ← String.append_assoc, List.replicate_add, hlength,
    String.ofList_append, String.ofList_toList]

/-- The spaces that a line starts with are counted. -/
theorem lexLine?_spaced {l : String} (hl : Begins l) (spaces : Nat) :
    lexLine? (spaced spaces l) = (lex? l.toList).map (.line spaces :: ·) := by
  obtain ⟨c, hc, hseen⟩ := (Option.any_eq_true _ _).mp hl
  have hspace : c ≠ ' ' := by
    rintro rfl
    cases hseen
  have hstop : ∀ c ∈ l.toList.head?, decide (c = ' ') = false := by
    intro d hd
    rw [hc] at hd
    obtain rfl := Option.some.inj hd
    exact decide_eq_false hspace
  have hall : ∀ c ∈ List.replicate spaces ' ', decide (c = ' ') = true := by
    intro d hd
    exact decide_eq_true (List.eq_of_mem_replicate hd)
  have hlist : (spaced spaces l).toList = List.replicate spaces ' ' ++ l.toList := by
    rw [spaced, String.toList_append, String.toList_ofList]
  have htake := (takeWhile_dropWhile_stop hall hstop).1
  rw [lexLine?, hlist, htake, List.length_replicate]
  simp

theorem lexLines?_append {a b : List String} {xs ys : List Lexeme} (ha : lexLines? a = some xs)
    (hb : lexLines? b = some ys) : lexLines? (a ++ b) = some (xs ++ ys) := by
  induction a generalizing xs with
  | nil =>
    cases ha
    exact hb
  | cons l r ih =>
    obtain ⟨x, hx, ha⟩ := Option.bind_eq_some_iff.mp ha
    obtain ⟨xs', hxs', ha⟩ := Option.bind_eq_some_iff.mp ha
    cases ha
    rw [List.cons_append, lexLines?, hx, ih hxs', List.append_assoc]
    rfl

theorem lexLines?_line {l : String} {xs : List Lexeme} (hl : lexLine? l = some xs) :
    lexLines? [l] = some xs := by
  rw [lexLines?, hl]
  simp [lexLines?]

end Script

/-! ## Statements -/

open Script

namespace Expr

/-- The tokens of an expression in a line. -/
def lexemes (e : Expr) : List Lexeme := e.tokens.map .token

theorem code_eq (e : Expr) : e.code = e.fragment.code := by
  rw [code, Fragment.fit]
  cases e.fragment.precedence <;> rfl

theorem Proper.lex?_code {e : Expr} (h : e.Proper) {rest : List Char} (hrest : FollowsExpr rest) :
    lex? (e.code.toList ++ rest) = (lex? rest).map (e.lexemes ++ ·) := by
  rw [e.code_eq]
  exact lex?_append hrest h.spells.tokens?_eq

end Expr

namespace Stmt

mutual

/-- The tokens of a statement that stands after some spaces. -/
def lexemes (spaces : Nat) : Stmt → List Lexeme
  | .expr e => .line spaces :: e.lexemes
  | .pass => [.line spaces, .keyword "pass"]
  | .ifElse c body otherwise =>
    .line spaces :: .keyword "if" :: c.lexemes ++
      .colon :: suiteLexemes (spaces + indentation.length) body ++
      match otherwise with
      | none => []
      | some other =>
        .line spaces :: .keyword "else" :: .colon :: suiteLexemes (spaces + indentation.length) other
  | .repeatTimes n body =>
    .line spaces :: .keyword "for" :: .token (.name "_") :: .keyword "in" ::
      (Expr.callName "range" [n]).lexemes ++
      .colon :: suiteLexemes (spaces + indentation.length) body

/-- The tokens of statements in a row. -/
def suiteLexemes (spaces : Nat) : List Stmt → List Lexeme
  | [] => []
  | s :: r => s.lexemes spaces ++ suiteLexemes spaces r

end

/-! ## Headers -/

theorem followsExpr_colon : FollowsExpr [':'] := by
  rintro c ⟨⟩
  rfl

theorem lex?_ifHeader {c : Expr} (hc : c.Proper) :
    lex? ("if " ++ c.code ++ ":").toList = some (.keyword "if" :: c.lexemes ++ [.colon]) := by
  have hlist : ("if " ++ c.code ++ ":").toList = "if".toList ++ ' ' :: (c.code.toList ++ [':']) := by
    simp
  rw [hlist, lex?_keyword (by decide) (by simp; decide), lex?_space, hc.lex?_code followsExpr_colon,
    lex?_colon, lex?_nil]
  rfl

theorem lex?_forHeader {n : Expr} (hn : n.Proper) :
    lex? ("for _ in range(" ++ n.code ++ "):").toList =
      some (.keyword "for" :: .token (.name "_") :: .keyword "in" ::
        (Expr.callName "range" [n]).lexemes ++ [.colon]) := by
  have hcall : (Expr.callName "range" [n]).Proper := .call (.name (by decide)) (by simpa using hn)
  have hlist : ("for _ in range(" ++ n.code ++ "):").toList = "for".toList ++
      ' ' :: '_' :: ' ' :: ("in".toList ++
        ' ' :: ((Expr.callName "range" [n]).code.toList ++ [':'])) := by
    have hrange : (Expr.callName "range" [n]).code = "range" ++ "(" ++ n.code ++ ")" :=
      Expr.code_eq _
    rw [hrange]
    simp
  have hname : ∀ r, lex? ('_' :: ' ' :: r) = (lex? r).map (.token (.name "_") :: ·) := by
    intro r
    have hscan : scanLexeme? ('_' :: ' ' :: r) = some (.token (.name "_"), ' ' :: r) := rfl
    rw [lex?_of_scanLexeme hscan (by simp) (by simp), lex?_space]
  rw [hlist, lex?_keyword (by decide) (by simp; decide), lex?_space, hname,
    lex?_keyword (by decide) (by simp; decide), lex?_space, hcall.lex?_code followsExpr_colon, lex?_colon,
    lex?_nil]
  rfl

/-! ## All statements -/

/-- A statement is cut into the tokens that it asks for, wherever it stands. -/
def CutAsMeant (s : Stmt) : Prop :=
  ∀ spaces, lexLines? (s.lines.map (spaced spaces)) = some (s.lexemes spaces)

theorem lexLines?_suiteLines {ss : List Stmt} (h : ∀ s ∈ ss, s.CutAsMeant) (spaces : Nat) :
    lexLines? ((suiteLines ss).map (spaced spaces)) = some (suiteLexemes spaces ss) := by
  induction ss with
  | nil => rfl
  | cons s r ih =>
    obtain ⟨hs, hr⟩ := List.forall_mem_cons.mp h
    rw [suiteLines, List.map_append, suiteLexemes]
    exact lexLines?_append (hs spaces) (ih hr)

/-- A suite stands one level deeper. -/
theorem lexLines?_suite {ss : List Stmt} (hproper : ∀ s ∈ ss, s.Proper) (h : ∀ s ∈ ss, s.CutAsMeant)
    (spaces : Nat) : lexLines? (((suiteLines ss).map indentLine).map (spaced spaces)) =
      some (suiteLexemes (spaces + indentation.length) ss) := by
  rw [List.map_map, ← lexLines?_suiteLines h]
  congr 1
  refine List.map_congr_left fun l hl => spaced_indentLine ?_ spaces
  rintro rfl
  exact absurd (codeLine_suiteLines hproper "" hl).solid (by decide)

/-- **A proper statement is cut into the tokens that it asks for.** -/
theorem Proper.cutAsMeant {s : Stmt} (h : s.Proper) : s.CutAsMeant := by
  induction h with
  | @expr e he =>
    intro spaces
    have hlex : lex? e.fragment.code.toList = some e.lexemes := by
      have hcode := he.lex?_code (show FollowsExpr [] from nofun)
      rwa [List.append_nil, lex?_nil, Option.map_some, List.append_nil, e.code_eq] at hcode
    refine lexLines?_line ?_
    rw [lexLine?_spaced he.statementLine.begins, hlex]
    rfl
  | pass =>
    intro spaces
    have hlex : lex? "pass".toList = some [.keyword "pass"] := by
      simpa using lex?_keyword (w := "pass") (by decide) (r := []) nofun
    refine lexLines?_line ?_
    rw [lexLine?_spaced (by decide), hlex]
    rfl
  | @ifElse c body otherwise hc hbody hother ihbody ihother =>
    intro spaces
    have hheader : lexLine? (spaced spaces ("if " ++ c.code ++ ":")) =
        some (.line spaces :: .keyword "if" :: c.lexemes ++ [.colon]) := by
      rw [lexLine?_spaced (((show Begins "if " by decide).append _).append _), lex?_ifHeader hc]
      rfl
    have hsuite := lexLines?_append (lexLines?_line hheader) (lexLines?_suite hbody ihbody spaces)
    rw [lines.eq_def, lexemes.eq_def]
    cases otherwise with
    | none => simpa using hsuite
    | some other =>
      have helse : lexLine? (spaced spaces "else:") =
          some [.line spaces, .keyword "else", .colon] := by
        have hlist : "else:".toList = "else".toList ++ [':'] := rfl
        rw [lexLine?_spaced (by decide), hlist, lex?_keyword (by decide) (by simp; decide), lex?_colon,
          lex?_nil]
        rfl
      have hsecond := lexLines?_append (lexLines?_line helse)
        (lexLines?_suite (hother other rfl) (ihother other rfl) spaces)
      simpa using lexLines?_append hsuite hsecond
  | @repeatTimes n body hn hbody ihbody =>
    intro spaces
    have hheader : lexLine? (spaced spaces ("for _ in range(" ++ n.code ++ "):")) =
        some (.line spaces :: .keyword "for" :: .token (.name "_") :: .keyword "in" ::
          (Expr.callName "range" [n]).lexemes ++ [.colon]) := by
      rw [lexLine?_spaced (((show Begins "for _ in range(" by decide).append _).append _),
        lex?_forHeader hn]
      rfl
    have hsuite := lexLines?_append (lexLines?_line hheader) (lexLines?_suite hbody ihbody spaces)
    rw [lines, lexemes]
    simpa using hsuite

/-- **The code of statements is cut into the tokens that they ask for**, whatever texts it holds. -/
theorem lexBody?_text {ss : List Stmt} (h : ∀ s ∈ ss, s.Proper) :
    lexBody? (text ss) = some (suiteLexemes 0 ss) := by
  have hspaced : (suiteLines ss).map (spaced 0) = suiteLines ss := by
    conv_rhs => rw [← List.map_id (suiteLines ss)]
    exact List.map_congr_left fun l _ => by simp [spaced]
  rw [lexBody?, lines_text h, ← lexLines?_suiteLines (fun s hs => (h s hs).cutAsMeant), hspaced]

end Stmt

end BlockBoard
