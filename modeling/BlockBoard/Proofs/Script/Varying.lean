import BlockBoard.Proofs.Script.Lexeme
/-!
# Programs that differ in their texts

Two programs whose tokens are the same but for the values of some texts. Whatever programs are put
together from keeps this: an expression or a statement made of parts that differ so differs in the texts
of its parts, in their order.

- `Script.AlikeBut`: two rows of tokens that are alike but for some texts.
- `Expr.Varies`, `Expr.VariesAll`: expressions and arguments whose tokens are.
- `Expr.Varies.of_no_text`: expressions do not vary where there is no text, as in integers
  (`Expr.Varies.integer?`) and in a zero (`Expr.Proper.text_not_mem_zero`).
- `Stmt.Varies`, `Stmt.VariesAll`: statements whose tokens are.
-/

namespace BlockBoard

namespace Script

/-- Two rows of tokens that are alike but for some texts: which they are in the one and in the other. -/
inductive AlikeBut {α : Type} (text : String → α) :
    List String → List String → List α → List α → Prop
  | nil : AlikeBut text [] [] [] []
  | same (x : α) {T T' : List String} {xs xs' : List α} (h : AlikeBut text T T' xs xs') :
      AlikeBut text T T' (x :: xs) (x :: xs')
  | differ (s s' : String) {T T' : List String} {xs xs' : List α} (h : AlikeBut text T T' xs xs') :
      AlikeBut text (s :: T) (s' :: T') (text s :: xs) (text s' :: xs')

namespace AlikeBut

variable {α β : Type} {text : String → α} {T T' U U' : List String} {xs xs' ys ys' : List α}

theorem refl (text : String → α) (xs : List α) : AlikeBut text [] [] xs xs := by
  induction xs with
  | nil => exact .nil
  | cons x r ih => exact .same x ih

theorem append (h : AlikeBut text T T' xs xs') (h' : AlikeBut text U U' ys ys') :
    AlikeBut text (T ++ U) (T' ++ U') (xs ++ ys) (xs' ++ ys') := by
  induction h with
  | nil => exact h'
  | same x _ ih => exact .same x ih
  | differ s s' _ ih => exact .differ s s' ih

/-- The same tokens behind both. -/
theorem append_same (h : AlikeBut text T T' xs xs') (ys : List α) :
    AlikeBut text T T' (xs ++ ys) (xs' ++ ys) := by
  simpa using h.append (refl text ys)

theorem map (f : α → β) (h : AlikeBut text T T' xs xs') :
    AlikeBut (f ∘ text) T T' (xs.map f) (xs'.map f) := by
  induction h with
  | nil => exact .nil
  | same x _ ih => exact .same (f x) ih
  | differ s s' _ ih => exact .differ s s' ih

theorem symm (h : AlikeBut text T T' xs xs') : AlikeBut text T' T xs' xs := by
  induction h with
  | nil => exact .nil
  | same x _ ih => exact .same x ih
  | differ s s' _ ih => exact .differ s' s ih

/-- Each of the texts is a token of its own, in their order. -/
theorem sublist (h : AlikeBut text T T' xs xs') : (T.map text).Sublist xs := by
  induction h with
  | nil => exact .slnil
  | same x _ ih => exact .cons x ih
  | differ s _ _ ih => exact .cons_cons (text s) ih

/-- There are as many texts in both. -/
theorem length_eq (h : AlikeBut text T T' xs xs') : T.length = T'.length := by
  induction h with
  | nil => rfl
  | same _ _ ih => exact ih
  | differ _ _ _ ih => rw [List.length_cons, List.length_cons, ih]

/-- Where there is no text among the tokens, there is none to differ in. -/
theorem eq_nil (h : AlikeBut text T T' xs xs') (hnone : ∀ s, text s ∉ xs) : T = [] := by
  cases T with
  | nil => rfl
  | cons s r => exact absurd (h.sublist.subset List.mem_cons_self) (hnone s)

end AlikeBut

end Script

/-! ## Expressions -/

open Script

namespace Expr

/-- Two expressions that hold together in the same way, with the same tokens but for some texts. Without
such texts they are the same. -/
structure Varies (T T' : List String) (e e' : Expr) : Prop where
  precedence : e.fragment.precedence = e'.fragment.precedence
  tokens : AlikeBut Token.text T T' e.tokens e'.tokens
  eq_of_nil : T = [] → e = e'

/-- Two rows of arguments that vary one by one. -/
inductive VariesAll : List String → List String → List Expr → List Expr → Prop
  | nil : VariesAll [] [] [] []
  | cons {T T' U U' : List String} {e e' : Expr} {r r' : List Expr} (h : Varies T T' e e')
      (hr : VariesAll U U' r r') : VariesAll (T ++ U) (T' ++ U') (e :: r) (e' :: r')

variable {T T' U U' : List String} {e e' f f' : Expr} {es es' fs fs' : List Expr}

theorem Varies.refl (e : Expr) : Varies [] [] e e := ⟨rfl, .refl _ _, fun _ => rfl⟩

theorem Varies.text (s s' : String) : Varies [s] [s'] (.text s) (.text s') :=
  ⟨rfl, .differ s s' .nil, nofun⟩

theorem Varies.fitTokens (h : Varies T T' e e') (bound : Precedence) :
    AlikeBut Token.text T T' (fitTokens bound e.fragment.precedence e.tokens)
      (fitTokens bound e'.fragment.precedence e'.tokens) := by
  unfold Expr.fitTokens
  rw [← h.precedence]
  split
  · exact .same _ (h.tokens.append_same _)
  · exact h.tokens

theorem Varies.negate (h : Varies T T' e e') : Varies T T' e.negate e'.negate where
  precedence := rfl
  tokens := .same _ (h.fitTokens .unary)
  eq_of_nil hT := by rw [h.eq_of_nil hT]

theorem Varies.not (h : Varies T T' e e') : Varies T T' e.not e'.not where
  precedence := rfl
  tokens := .same _ (h.fitTokens .logicalNot)
  eq_of_nil hT := by rw [h.eq_of_nil hT]

theorem Varies.binary (op : BinaryOp) (h : Varies T T' e e') (h' : Varies U U' f f') :
    Varies (T ++ U) (T' ++ U') (.binary op e f) (.binary op e' f') where
  precedence := rfl
  tokens := (h.fitTokens op.left).append (.same _ (h'.fitTokens op.right))
  eq_of_nil hT := by
    obtain ⟨hT, hU⟩ := List.append_eq_nil_iff.mp hT
    rw [h.eq_of_nil hT, h'.eq_of_nil hU]

theorem VariesAll.refl (es : List Expr) : VariesAll [] [] es es := by
  induction es with
  | nil => exact .nil
  | cons e r ih => exact .cons (.refl e) ih

theorem VariesAll.single (h : Varies T T' e e') : VariesAll T T' [e] [e'] := by
  simpa using VariesAll.cons h .nil

theorem VariesAll.append (h : VariesAll T T' es es') (h' : VariesAll U U' fs fs') :
    VariesAll (T ++ U) (T' ++ U') (es ++ fs) (es' ++ fs') := by
  induction h with
  | nil => exact h'
  | cons he _ ih =>
    rw [List.append_assoc, List.append_assoc]
    exact .cons he ih

theorem VariesAll.append_same (h : VariesAll T T' es es') (fs : List Expr) :
    VariesAll T T' (es ++ fs) (es' ++ fs) := by
  simpa using h.append (.refl fs)

theorem VariesAll.eq_of_nil (h : VariesAll T T' es es') (hT : T = []) : es = es' := by
  induction h with
  | nil => rfl
  | cons he _ ih =>
    obtain ⟨hT, hU⟩ := List.append_eq_nil_iff.mp hT
    rw [he.eq_of_nil hT, ih hU]

theorem VariesAll.tokens (h : VariesAll T T' es es') :
    AlikeBut Token.text T T' (List.intercalate [.comma] (argumentTokens es))
      (List.intercalate [.comma] (argumentTokens es')) := by
  induction h with
  | nil => exact .nil
  | @cons _ _ _ _ e e' r r' he hr ih =>
    cases hr with
    | nil => simpa [argumentTokens, List.intercalate] using he.fitTokens .loosest
    | cons hf hr =>
      have := (he.fitTokens .loosest).append (.same .comma ih)
      simpa [argumentTokens, List.intercalate] using this

theorem VariesAll.call (f : Expr) (h : VariesAll T T' es es') : Varies T T' (.call f es) (.call f es')
    where
  precedence := rfl
  tokens := by
    have hfunction := AlikeBut.refl Token.text (Expr.fitTokens .call f.fragment.precedence f.tokens)
    exact hfunction.append (.same .opening (h.tokens.append_same [.closing]))
  eq_of_nil hT := by rw [h.eq_of_nil hT]

/-! ### What texts do not change -/

theorem Varies.symm (h : Varies T T' e e') : Varies T' T e' e where
  precedence := h.precedence.symm
  tokens := h.tokens.symm
  eq_of_nil hT := by
    have hlength := h.tokens.length_eq
    rw [hT] at hlength
    exact (h.eq_of_nil (List.length_eq_zero_iff.mp hlength)).symm

/-- Expressions do not vary at all where there is no text in the one. -/
theorem Varies.of_no_text (h : Varies T T' e e') (hnone : ∀ s, Token.text s ∉ e.tokens) :
    T = [] ∧ T' = [] ∧ e = e' := by
  have hT := h.tokens.eq_nil hnone
  have hlength := h.tokens.length_eq
  rw [hT] at hlength
  exact ⟨hT, List.length_eq_zero_iff.mp hlength.symm, h.eq_of_nil hT⟩

/-- There is no text in an integer. -/
theorem text_not_mem_of_integer? {n : Int} (h : e.integer? = some n) (s : String) :
    Token.text s ∉ e.tokens := by
  unfold integer? at h
  split at h
  · simp [Expr.tokens]
  · simp [Expr.tokens, Expr.fitTokens, fragment, Precedence.rank]
  · cases h

/-- They spell the same integer, if any. -/
theorem Varies.integer? (h : Varies T T' e e') : e.integer? = e'.integer? := by
  cases he : e.integer? with
  | some n =>
    obtain ⟨-, -, rfl⟩ := h.of_no_text (text_not_mem_of_integer? he)
    exact he.symm
  | none =>
    cases he' : e'.integer? with
    | none => rfl
    | some n =>
      obtain ⟨-, -, rfl⟩ := h.symm.of_no_text (text_not_mem_of_integer? he')
      exact he.symm.trans he'

/-- There is no text in what is written as a zero. -/
theorem Proper.text_not_mem_zero (he : e.Proper) (h : e.code = "0") (s : String) :
    Token.text s ∉ e.tokens := by
  have hzero : tokens? "0".toList = some [.number "0"] :=
    (spells_number (n := .ofNat 0) rfl).tokens?_eq
  have htokens := he.spells.tokens?_eq
  rw [← e.code_eq, h, hzero] at htokens
  rw [← Option.some.inj htokens]
  simp

end Expr

/-! ## Statements -/

namespace Stmt

/-- Two statements with the same tokens but for some texts, wherever they stand. -/
def Varies (T T' : List String) (s s' : Stmt) : Prop :=
  ∀ spaces, AlikeBut Lexeme.text T T' (s.lexemes spaces) (s'.lexemes spaces)

/-- Two suites with the same tokens but for some texts, wherever they stand. -/
def VariesAll (T T' : List String) (ss ss' : List Stmt) : Prop :=
  ∀ spaces, AlikeBut Lexeme.text T T' (suiteLexemes spaces ss) (suiteLexemes spaces ss')

variable {T T' U U' V V' : List String} {e e' : Expr} {ss ss' rr rr' : List Stmt}

theorem varies_lexemes (h : Expr.Varies T T' e e') :
    AlikeBut Lexeme.text T T' e.lexemes e'.lexemes := h.tokens.map Lexeme.token

theorem VariesAll.refl (ss : List Stmt) : VariesAll [] [] ss ss := fun _ => .refl _ _

theorem VariesAll.cons {s s' : Stmt} (h : Varies T T' s s') (hr : VariesAll U U' ss ss') :
    VariesAll (T ++ U) (T' ++ U') (s :: ss) (s' :: ss') :=
  fun spaces => (h spaces).append (hr spaces)

theorem Varies.expr (h : Expr.Varies T T' e e') : Varies T T' (.expr e) (.expr e') := by
  intro spaces
  rw [lexemes, lexemes]
  exact .same _ (varies_lexemes h)

/-- A call as a statement. -/
theorem Varies.call (f : Expr) {es es' : List Expr} (h : Expr.VariesAll T T' es es') :
    Varies T T' (.expr (.call f es)) (.expr (.call f es')) := .expr (h.call f)

theorem Varies.ifThen (h : Expr.Varies T T' e e') (hbody : VariesAll U U' ss ss') :
    Varies (T ++ U) (T' ++ U') (.ifElse e ss none) (.ifElse e' ss' none) := by
  intro spaces
  rw [lexemes, lexemes, List.append_nil, List.append_nil]
  exact .same _ (.same _ ((varies_lexemes h).append (.same _ (hbody _))))

theorem Varies.ifElse (h : Expr.Varies T T' e e') (hbody : VariesAll U U' ss ss')
    (hother : VariesAll V V' rr rr') :
    Varies (T ++ (U ++ V)) (T' ++ (U' ++ V')) (.ifElse e ss (some rr)) (.ifElse e' ss' (some rr')) := by
  intro spaces
  have hsecond : AlikeBut Lexeme.text V V' _ _ :=
    .same (.line spaces) (.same (.keyword "else") (.same .colon (hother (spaces + indentation.length))))
  have hfirst := (varies_lexemes h).append (.same .colon (hbody (spaces + indentation.length)))
  rw [lexemes, lexemes, ← List.append_assoc, ← List.append_assoc]
  exact .same _ (.same _ (hfirst.append hsecond))

theorem Varies.repeatTimes (h : Expr.Varies T T' e e') (hbody : VariesAll U U' ss ss') :
    Varies (T ++ U) (T' ++ U') (.repeatTimes e ss) (.repeatTimes e' ss') := by
  intro spaces
  have hrange := varies_lexemes ((Expr.VariesAll.single h).call (.name "range"))
  rw [lexemes, lexemes]
  exact .same _ (.same _ (.same _ (.same _ (hrange.append (.same _ (hbody _))))))

end Stmt

end BlockBoard
