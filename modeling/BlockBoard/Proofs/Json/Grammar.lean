import Mathlib.Data.Bool.AllAny
import BlockBoard.Json.Reader
import BlockBoard.Proofs.Number.Digits
/-!
# The grammar of documents

Which texts are documents, and what they say, by rules that know nothing of a reader: one for every kind of
value, with blanks wherever two tokens meet, and with every way in which a character or an exponent may be
written.

- `Json.Inside`: what may stand between the quotes of a string.
- `Json.Number.Spelled`: the texts of a number.
- `Json.Spells`: the grammar, one constructor for each rule.
- `Json.value?_sound`: what is read is there, by induction on the fuel.
- `Json.Spells.read`: what is there is read, by induction on the derivation.
- `Json.ofText?_eq_some_iff`: **a text is read as a document exactly if it spells it**.
-/

namespace BlockBoard

namespace Json

/-! ## The rules -/

/-- Nothing but characters that may stand between tokens. -/
def Blanks (cs : List Char) : Prop := ∀ c ∈ cs, isSpace c = true

/-- What stands between the quotes of a string, and the parts of the string that it spells. -/
inductive Inside : List StringPart → List Char → Prop
  | nil : Inside [] []
  | plain {c : Char} {ps : List StringPart} {cs : List Char} (hquote : c ≠ '"') (hbackslash : c ≠ '\\')
    (hcontrol : 0x20 ≤ c.toNat) (h : Inside ps cs) : Inside (.char c :: ps) (c :: cs)
  | letter {e c : Char} {ps : List StringPart} {cs : List Char} (he : escaped? e = some c)
    (h : Inside ps cs) : Inside (.char c :: ps) ('\\' :: e :: cs)
  | unit {a b c d : Char} {n : Nat} {ps : List StringPart} {cs : List Char}
    (hn : codeUnit? a b c d = some n) (h : Inside ps cs) :
    Inside (.unit n :: ps) ('\\' :: 'u' :: a :: b :: c :: d :: cs)

/-- A string that parts spell. -/
def stringOf (ps : List StringPart) : Option String := (spell? ps).map String.ofList

/-- A number as it can be written: there are digits before the point, of which only the last may be a zero
at their beginning, and nothing but digits after it. -/
structure Number.Proper (n : Number) : Prop where
  whole_ne_nil : n.whole ≠ []
  whole : ∀ c ∈ n.whole, c.isDigit = true
  head : n.whole.head? = some '0' → n.whole = ['0']
  fraction : ∀ c ∈ n.fraction, c.isDigit = true

/-- A fraction as it is written. -/
def fractionText : List Char → List Char
  | [] => []
  | c :: r => '.' :: c :: r

/-- The texts of a sign: a plus may be left out. -/
inductive SignText : Bool → List Char → Prop
  | absent : SignText false []
  | plus : SignText false ['+']
  | minus : SignText true ['-']

/-- The texts of an exponent, which may be absent. -/
inductive ExponentText : Option Int → List Char → Prop
  | absent : ExponentText none []
  | present {mark : Char} (hmark : mark = 'e' ∨ mark = 'E') {negative : Bool} {sign ds : List Char}
    (hsign : SignText negative sign) (hne : ds ≠ []) (hds : ∀ c ∈ ds, c.isDigit = true) :
    ExponentText (some (if negative then -(digitsValue ds : Int) else digitsValue ds))
      (mark :: (sign ++ ds))

/-- The texts of a number. -/
inductive Number.Spelled (n : Number) : List Char → Prop
  | mk {exponent : List Char} (h : n.Proper) (hexponent : ExponentText n.exponent exponent) :
    Spelled n ((if n.negative then ['-'] else []) ++ (n.whole ++ (fractionText n.fraction ++ exponent)))

/-- The name of a member with its colon, and with blanks around it. -/
inductive Label : Option String → List Char → Prop
  | mk {w w' cs : List Char} {ps : List StringPart} (hw : Blanks w) (h : Inside ps cs) (hw' : Blanks w') :
    Label (stringOf ps) (w ++ '"' :: (cs ++ '"' :: (w' ++ [':'])))

/-- A part of a document: a value, a value with blanks around it, the items of an array or the members of an
object, of which there is at least one. -/
inductive Phrase where
  | value (v : Json)
  | element (v : Json)
  | items (vs : List Json)
  | members (ms : List (Option String × Json))

/-- Some characters spell a part of a document. -/
inductive Spells : Phrase → List Char → Prop
  | null : Spells (.value .null) ['n', 'u', 'l', 'l']
  | yes : Spells (.value (.boolean true)) ['t', 'r', 'u', 'e']
  | no : Spells (.value (.boolean false)) ['f', 'a', 'l', 's', 'e']
  | number {n : Number} {cs : List Char} (h : n.Spelled cs) : Spells (.value (.number n)) cs
  | string {ps : List StringPart} {cs : List Char} (h : Inside ps cs) :
    Spells (.value (.string (stringOf ps))) ('"' :: (cs ++ ['"']))
  | emptyArray {w : List Char} (hw : Blanks w) : Spells (.value (.array [])) ('[' :: (w ++ [']']))
  | array {vs : List Json} {cs : List Char} (h : Spells (.items vs) cs) :
    Spells (.value (.array vs)) ('[' :: (cs ++ [']']))
  | emptyObject {w : List Char} (hw : Blanks w) : Spells (.value (.object [])) ('{' :: (w ++ ['}']))
  | object {ms : List (Option String × Json)} {cs : List Char} (h : Spells (.members ms) cs) :
    Spells (.value (.object ms)) ('{' :: (cs ++ ['}']))
  | element {v : Json} {w cs w' : List Char} (hw : Blanks w) (h : Spells (.value v) cs) (hw' : Blanks w') :
    Spells (.element v) (w ++ (cs ++ w'))
  | item {v : Json} {cs : List Char} (h : Spells (.element v) cs) : Spells (.items [v]) cs
  | items {v : Json} {vs : List Json} {cs ds : List Char} (h : Spells (.element v) cs)
    (hrest : Spells (.items vs) ds) : Spells (.items (v :: vs)) (cs ++ ',' :: ds)
  | member {k : Option String} {v : Json} {ls cs : List Char} (hl : Label k ls)
    (h : Spells (.element v) cs) : Spells (.members [(k, v)]) (ls ++ cs)
  | members {k : Option String} {v : Json} {ms : List (Option String × Json)} {ls cs ds : List Char}
    (hl : Label k ls) (h : Spells (.element v) cs) (hrest : Spells (.members ms) ds) :
    Spells (.members ((k, v) :: ms)) (ls ++ (cs ++ ',' :: ds))

/-! ## Blanks -/

theorem not_isSpace_of_isDigit {c : Char} (h : c.isDigit = true) : isSpace c = false ∧ c ≠ ']' := by
  constructor
  · rw [Bool.eq_false_iff]
    intro hspace
    simp only [isSpace, Bool.or_eq_true, beq_iff_eq] at hspace
    rcases hspace with ((rfl | rfl) | rfl) | rfl <;> exact absurd h (by decide)
  · rintro rfl
    exact absurd h (by decide)

theorem skipSpace_cons {c : Char} (h : isSpace c = false) (r : List Char) :
    skipSpace (c :: r) = c :: r := by
  rw [skipSpace, List.dropWhile_cons, if_neg (by simp [h])]

theorem skipSpace_append {cs : List Char} (h : ∀ c ∈ cs, isSpace c = true) (r : List Char) :
    skipSpace (cs ++ r) = skipSpace r :=
  List.dropWhile_append_of_pos h

theorem Blanks.nil : Blanks [] := nofun

theorem Blanks.skipSpace_cons {w : List Char} (h : Blanks w) {c : Char} (hc : isSpace c = false)
    (r : List Char) : skipSpace (w ++ c :: r) = c :: r :=
  (skipSpace_append h _).trans (Json.skipSpace_cons hc r)

/-- A text begins with blanks, and then with its next token. -/
theorem exists_blanks (s : List Char) : ∃ w, Blanks w ∧ s = w ++ skipSpace s :=
  ⟨s.takeWhile isSpace, List.all_eq_true.mp List.all_takeWhile, List.takeWhile_append_dropWhile.symm⟩

/-! ## Strings -/

theorem stringParts?_letter {e c : Char} (he : escaped? e = some c) (hne : e ≠ 'u') (r : List Char) :
    stringParts? ('\\' :: e :: r) = (stringParts? r).map fun q => (.char c :: q.1, q.2) := by
  rw [stringParts?, he, Option.map_eq_bind]
  · rfl
  · rintro _ _ _ _ _ rfl
    exact absurd rfl hne

theorem stringParts?_plain {c : Char} (hquote : c ≠ '"') (hbackslash : c ≠ '\\')
    (hcontrol : ¬ c.toNat < 0x20) (r : List Char) :
    stringParts? (c :: r) = (stringParts? r).map fun q => (.char c :: q.1, q.2) := by
  rw [stringParts?, if_neg (by simp [hbackslash, hcontrol]), Option.map_eq_bind]
  · rfl
  · exact hquote
  · rintro _ _ _ _ _ rfl
    exact absurd rfl hbackslash
  · rintro _ _ rfl
    exact absurd rfl hbackslash

theorem stringParts?_unit {a b c d : Char} {n : Nat} (hn : codeUnit? a b c d = some n) (r : List Char) :
    stringParts? ('\\' :: 'u' :: a :: b :: c :: d :: r) =
      (stringParts? r).map fun q => (.unit n :: q.1, q.2) := by
  rw [stringParts?, hn, Option.map_eq_bind]
  rfl

/-- What stands between two quotes is read up to the second one. -/
theorem Inside.read {ps : List StringPart} {cs : List Char} (h : Inside ps cs) (rest : List Char) :
    string? (cs ++ '"' :: rest) = some (stringOf ps, rest) := by
  have hparts : stringParts? (cs ++ '"' :: rest) = some (ps, rest) := by
    induction h with
    | nil => rfl
    | plain hquote hbackslash hcontrol _ ih =>
      rw [List.cons_append, stringParts?_plain hquote hbackslash (Nat.not_lt.mpr hcontrol), ih]
      rfl
    | letter he _ ih =>
      rw [List.cons_append, List.cons_append, stringParts?_letter he (by rintro rfl; cases he), ih]
      rfl
    | unit hn _ ih =>
      show stringParts? ('\\' :: 'u' :: _ :: _ :: _ :: _ :: (_ ++ '"' :: rest)) = _
      rw [stringParts?_unit hn, ih]
      rfl
  rw [string?, hparts]
  rfl

/-- What has been read of a string stands before a quote. -/
theorem inside_of_stringParts? {s rest : List Char} {ps : List StringPart}
    (h : stringParts? s = some (ps, rest)) : ∃ cs, Inside ps cs ∧ s = cs ++ '"' :: rest := by
  fun_induction stringParts? s generalizing ps rest with
  | case1 => cases h
  | case2 r =>
    cases h
    exact ⟨[], .nil, rfl⟩
  | case3 a b c d r ih =>
    obtain ⟨n, hn, h⟩ := Option.bind_eq_some_iff.mp h
    obtain ⟨⟨qs, rest'⟩, hr, h⟩ := Option.bind_eq_some_iff.mp h
    cases h
    obtain ⟨cs, hcs, rfl⟩ := ih hr
    exact ⟨_, .unit hn hcs, rfl⟩
  | case4 e r _ ih =>
    obtain ⟨c, hc, h⟩ := Option.bind_eq_some_iff.mp h
    obtain ⟨⟨qs, rest'⟩, hr, h⟩ := Option.bind_eq_some_iff.mp h
    cases h
    obtain ⟨cs, hcs, rfl⟩ := ih hr
    exact ⟨_, .letter hc hcs, rfl⟩
  | case5 => cases h
  | case6 c r hquote _ _ hplain ih =>
    obtain ⟨⟨qs, rest'⟩, hr, h⟩ := Option.bind_eq_some_iff.mp h
    cases h
    obtain ⟨cs, hcs, rfl⟩ := ih hr
    simp only [Bool.or_eq_true, beq_iff_eq, decide_eq_true_eq, not_or, Nat.not_lt] at hplain
    exact ⟨_, .plain hquote hplain.1 hplain.2 hcs, rfl⟩

theorem inside_of_string? {s rest : List Char} {k : Option String} (h : string? s = some (k, rest)) :
    ∃ ps cs, Inside ps cs ∧ k = stringOf ps ∧ s = cs ++ '"' :: rest := by
  obtain ⟨⟨ps, rest'⟩, hparts, h⟩ := Option.bind_eq_some_iff.mp h
  cases h
  obtain ⟨cs, hcs, rfl⟩ := inside_of_stringParts? hparts
  exact ⟨ps, cs, hcs, rfl, rfl⟩

/-! ## Numbers -/

/-- Where a value may end: before a blank, a comma or a closing bracket, and at the end of a text. -/
def Follows (rest : List Char) : Prop :=
  ∀ c ∈ rest.head?, isSpace c = true ∨ c = ',' ∨ c = ']' ∨ c = '}'

/-- No number goes on there. -/
theorem Follows.stops {rest : List Char} (h : Follows rest) :
    ∀ c ∈ rest.head?, c.isDigit = false ∧ c ≠ '.' ∧ c ≠ 'e' ∧ c ≠ 'E' := by
  intro c hc
  have hcases : c = ' ' ∨ c = '\n' ∨ c = '\t' ∨ c = '\r' ∨ c = ',' ∨ c = ']' ∨ c = '}' := by
    simpa [isSpace, or_assoc] using h c hc
  rcases hcases with rfl | rfl | rfl | rfl | rfl | rfl | rfl <;> decide

theorem isDigit_of_mem_takeWhile (s : List Char) : ∀ c ∈ s.takeWhile Char.isDigit, c.isDigit = true :=
  List.all_eq_true.mp List.all_takeWhile

/-- What follows the sign of an exponent. -/
def exponentAfter? (negative : Bool) (t : List Char) : Option (Option Int × List Char) :=
  if (t.takeWhile Char.isDigit).isEmpty then none
  else
    let e : Int := digitsValue (t.takeWhile Char.isDigit)
    some (some (if negative then -e else e), t.dropWhile Char.isDigit)

/-- A sign is read, and so is what follows it. -/
theorem exponent?_sign {mark : Char} (hmark : mark = 'e' ∨ mark = 'E') {negative : Bool}
    {sign : List Char} (h : SignText negative sign) {t : List Char} (hplus : ∀ r, t ≠ '+' :: r)
    (hminus : ∀ r, t ≠ '-' :: r) : exponent? (mark :: (sign ++ t)) = exponentAfter? negative t := by
  have hexponent : (mark == 'e' || mark == 'E') = true := by simpa using hmark
  cases h with
  | absent =>
    rw [List.nil_append, exponent?, if_pos hexponent]
    · rfl
    · rintro r rfl
      exact hminus r rfl
    · rintro r rfl
      exact hplus r rfl
  | plus => exact if_pos hexponent
  | minus => exact if_pos hexponent

/-- After its mark an exponent begins with a sign, which may be absent. -/
theorem exists_sign {mark : Char} (hmark : mark = 'e' ∨ mark = 'E') (r : List Char) :
    ∃ negative sign t, SignText negative sign ∧ r = sign ++ t ∧
      exponent? (mark :: r) = exponentAfter? negative t := by
  have hexponent : (mark == 'e' || mark == 'E') = true := by simpa using hmark
  by_cases hminus : ∃ t, r = '-' :: t
  · obtain ⟨t, rfl⟩ := hminus
    exact ⟨true, ['-'], t, .minus, rfl, if_pos hexponent⟩
  · by_cases hplus : ∃ t, r = '+' :: t
    · obtain ⟨t, rfl⟩ := hplus
      exact ⟨false, ['+'], t, .plus, rfl, if_pos hexponent⟩
    · exact ⟨false, [], r, .absent, rfl, exponent?_sign hmark .absent
        (fun t heq => hplus ⟨t, heq⟩) fun t heq => hminus ⟨t, heq⟩⟩

theorem ExponentText.read {e : Option Int} {cs rest : List Char} (h : ExponentText e cs)
    (hrest : Follows rest) : exponent? (cs ++ rest) = some (e, rest) := by
  cases h with
  | absent =>
    cases rest with
    | nil => rfl
    | cons c r =>
      obtain ⟨-, -, he, hE⟩ := hrest.stops c rfl
      rw [List.nil_append, exponent?.eq_def]
      exact if_neg (by simp [he, hE])
  | @present mark hmark negative sign ds hsign hne hds =>
    obtain ⟨d, r, rfl⟩ := List.exists_cons_of_ne_nil hne
    have hd : d.isDigit = true := hds d List.mem_cons_self
    obtain ⟨htake, hdrop⟩ := takeWhile_dropWhile_stop hds fun c hc => (hrest.stops c hc).1
    rw [List.cons_append, List.append_assoc, exponent?_sign hmark hsign
      (by rintro _ heq; cases heq; cases hd) (by rintro _ heq; cases heq; cases hd), exponentAfter?, htake,
      hdrop, List.isEmpty_cons, if_neg Bool.false_ne_true]

theorem exponentText_of_exponent? {s rest : List Char} {e : Option Int}
    (h : exponent? s = some (e, rest)) : ∃ cs, ExponentText e cs ∧ s = cs ++ rest := by
  cases s with
  | nil =>
    cases h
    exact ⟨[], .absent, rfl⟩
  | cons c r =>
    by_cases hmark : c = 'e' ∨ c = 'E'
    · obtain ⟨negative, sign, t, hsign, rfl, hexponent⟩ := exists_sign hmark r
      rw [hexponent, exponentAfter?] at h
      split at h
      · cases h
      · rename_i hne
        cases h
        refine ⟨_, .present hmark hsign (by simpa using hne) (isDigit_of_mem_takeWhile t), ?_⟩
        rw [List.cons_append, List.append_assoc, List.takeWhile_append_dropWhile]
    · rw [exponent?.eq_def] at h
      dsimp only at h
      rw [if_neg (by simpa using hmark)] at h
      cases h
      exact ⟨[], .absent, rfl⟩

/-- A part of a number ends where it is followed by none of its own characters. -/
theorem fraction?_fractionText {ds rest : List Char} (h : ∀ c ∈ ds, c.isDigit = true)
    (hdigit : ∀ c ∈ rest.head?, c.isDigit = false) (hpoint : ∀ c ∈ rest.head?, c ≠ '.') :
    fraction? (fractionText ds ++ rest) = some (ds, rest) := by
  cases ds with
  | nil =>
    show fraction? rest = _
    rw [fraction?.eq_def]
    split
    · exact absurd rfl (hpoint '.' rfl)
    · rfl
  | cons d ds =>
    obtain ⟨htake, hdrop⟩ := takeWhile_dropWhile_stop h hdigit
    show fraction? ('.' :: (d :: ds ++ rest)) = _
    rw [fraction?, htake, hdrop, List.isEmpty_cons, if_neg Bool.false_ne_true]

theorem fractionText_of_fraction? {s ds rest : List Char} (h : fraction? s = some (ds, rest)) :
    (∀ c ∈ ds, c.isDigit = true) ∧ s = fractionText ds ++ rest := by
  unfold fraction? at h
  split at h
  · rename_i r
    dsimp only at h
    split at h
    · cases h
    · rename_i hne
      cases h
      refine ⟨isDigit_of_mem_takeWhile r, ?_⟩
      have hr := List.takeWhile_append_dropWhile (p := Char.isDigit) (l := r)
      cases hds : r.takeWhile Char.isDigit with
      | nil => exact absurd (by rw [hds]; rfl) hne
      | cons d ds =>
        rw [hds] at hr
        show '.' :: r = '.' :: (d :: ds ++ _)
        rw [hr]
  · cases h
    exact ⟨nofun, rfl⟩

theorem whole?_append {ds rest : List Char} (hne : ds ≠ []) (h : ∀ c ∈ ds, c.isDigit = true)
    (hhead : ds.head? = some '0' → ds = ['0']) (hdigit : ∀ c ∈ rest.head?, c.isDigit = false) :
    whole? (ds ++ rest) = some (ds, rest) := by
  obtain ⟨htake, hdrop⟩ := takeWhile_dropWhile_stop h hdigit
  rw [whole?, htake, hdrop]
  split
  · exact absurd rfl hne
  · cases hhead rfl
  · rfl

theorem whole_of_whole? {s ds rest : List Char} (h : whole? s = some (ds, rest)) :
    ds ≠ [] ∧ (∀ c ∈ ds, c.isDigit = true) ∧ (ds.head? = some '0' → ds = ['0']) ∧ s = ds ++ rest := by
  unfold whole? at h
  dsimp only at h
  split at h
  · cases h
  · cases h
  · rename_i hne hzero
    cases h
    refine ⟨hne, isDigit_of_mem_takeWhile s, fun hhead => ?_, List.takeWhile_append_dropWhile.symm⟩
    obtain ⟨r, hr⟩ := List.head?_eq_some_iff.mp hhead
    cases r with
    | nil => exact hr
    | cons d r => exact absurd hr (hzero d r)

/-- What follows the sign of a number. -/
def unsigned? (negative : Bool) (t : List Char) : Option (Number × List Char) := do
  let (whole, t) ← whole? t
  let (fraction, t) ← fraction? t
  let (exponent, t) ← exponent? t
  return (⟨negative, whole, fraction, exponent⟩, t)

theorem number?_negative (t : List Char) : number? ('-' :: t) = unsigned? true t := rfl

theorem number?_positive {s : List Char} (h : ∀ t, s ≠ '-' :: t) : number? s = unsigned? false s := by
  rw [number?.eq_def]
  split
  rename_i negative t heq
  split at heq
  · exact absurd rfl (h _)
  · cases heq
    rfl

theorem Number.Spelled.read_unsigned {n : Number} (h : n.Proper) {exponent rest : List Char}
    (hexponent : ExponentText n.exponent exponent) (hrest : Follows rest) (negative : Bool) :
    unsigned? negative (n.whole ++ (fractionText n.fraction ++ (exponent ++ rest))) =
      some (⟨negative, n.whole, n.fraction, n.exponent⟩, rest) := by
  obtain ⟨_, whole, fraction, e⟩ := n
  dsimp only at hexponent ⊢
  -- what follows the fraction is an exponent or the end of the number
  have hmark : ∀ c ∈ (exponent ++ rest).head?, c.isDigit = false ∧ c ≠ '.' := by
    intro c hc
    cases hexponent with
    | absent => exact ⟨(hrest.stops c hc).1, (hrest.stops c hc).2.1⟩
    | present hmark =>
      cases hc
      rcases hmark with rfl | rfl <;> decide
  have hpoint : ∀ c ∈ (fractionText fraction ++ (exponent ++ rest)).head?, c.isDigit = false := by
    intro c hc
    cases fraction with
    | nil => exact (hmark c hc).1
    | cons d ds =>
      cases hc
      rfl
  rw [unsigned?, whole?_append h.whole_ne_nil h.whole h.head hpoint, Option.bind_eq_bind, Option.bind_some]
  dsimp only
  rw [fraction?_fractionText h.fraction (fun c hc => (hmark c hc).1) fun c hc => (hmark c hc).2,
    Option.bind_eq_bind, Option.bind_some]
  dsimp only
  rw [hexponent.read hrest]
  rfl

/-- **A number is read from each of its texts**, up to where a value may end. -/
theorem Number.Spelled.read {n : Number} {cs rest : List Char} (h : n.Spelled cs) (hrest : Follows rest) :
    number? (cs ++ rest) = some (n, rest) := by
  obtain ⟨hn, hexponent⟩ := h
  have hread := read_unsigned hn hexponent hrest
  obtain ⟨negative, whole, fraction, e⟩ := n
  dsimp only at hread ⊢
  simp only [List.append_assoc]
  cases negative with
  | true => exact (number?_negative _).trans (hread true)
  | false =>
    refine (number?_positive fun t heq => ?_).trans (hread false)
    -- no digit is a sign
    obtain ⟨d, r, rfl⟩ := List.exists_cons_of_ne_nil hn.whole_ne_nil
    have hd : d.isDigit = true := hn.whole d List.mem_cons_self
    cases heq
    cases hd

theorem spelled_of_number? {s rest : List Char} {n : Number} (h : number? s = some (n, rest)) :
    ∃ cs, n.Spelled cs ∧ s = cs ++ rest := by
  obtain ⟨negative, t, rfl, hunsigned⟩ : ∃ negative t, s = (if negative then ['-'] else []) ++ t ∧
      unsigned? negative t = some (n, rest) := by
    by_cases hminus : ∃ t, s = '-' :: t
    · obtain ⟨t, rfl⟩ := hminus
      exact ⟨true, t, rfl, h⟩
    · exact ⟨false, s, rfl, (number?_positive fun t heq => hminus ⟨t, heq⟩).symm.trans h⟩
  obtain ⟨⟨whole, t₁⟩, hwhole, hunsigned⟩ := Option.bind_eq_some_iff.mp hunsigned
  obtain ⟨⟨fraction, t₂⟩, hfraction, hunsigned⟩ := Option.bind_eq_some_iff.mp hunsigned
  obtain ⟨⟨exponent, t₃⟩, hexponent, hunsigned⟩ := Option.bind_eq_some_iff.mp hunsigned
  cases hunsigned
  obtain ⟨hne, hdigits, hhead, rfl⟩ := whole_of_whole? hwhole
  obtain ⟨hplaces, rfl⟩ := fractionText_of_fraction? hfraction
  obtain ⟨cs, hcs, rfl⟩ := exponentText_of_exponent? hexponent
  refine ⟨_, .mk (n := ⟨negative, whole, fraction, exponent⟩) ⟨hne, hdigits, hhead, hplaces⟩ hcs, ?_⟩
  simp only [List.append_assoc]

/-! ## What is read is there -/

theorem append_of_word? {w r rest : List Char} (h : word? w r = some rest) : r = w ++ rest := by
  induction w generalizing r with
  | nil =>
    cases h
    rfl
  | cons c w ih =>
    cases r with
    | nil => cases h
    | cons d r =>
      rw [word?] at h
      split at h
      · rename_i hc
        rw [ih h, List.cons_append, eq_of_beq hc]
      · cases h

/-- A word that has been read spells its value. -/
theorem Spells.of_word? {v v' : Json} {c : Char} {w r rest : List Char} (hv : Spells (.value v) (c :: w))
    (h : (word? w r).map (v, ·) = some (v', rest)) : ∃ cs, Spells (.value v') cs ∧ c :: r = cs ++ rest := by
  obtain ⟨t, ht, heq⟩ := Option.map_eq_some_iff.mp h
  cases heq
  exact ⟨_, hv, congrArg (c :: ·) (append_of_word? ht)⟩

/-- Blanks before the first item belong to it. -/
theorem Spells.items_blanks {w cs : List Char} {vs : List Json} (hw : Blanks w)
    (h : Spells (.items vs) cs) : Spells (.items vs) (w ++ cs) := by
  have helement : ∀ {v : Json} {cs : List Char}, Spells (.element v) cs → Spells (.element v) (w ++ cs) := by
    rintro v _ (_ | _ | _ | _ | _ | _ | _ | _ | _ | ⟨hw₁, hv, hw₂⟩)
    rw [← List.append_assoc]
    exact .element (fun c hc => (List.mem_append.mp hc).elim (hw c) (hw₁ c)) hv hw₂
  cases h with
  | item h => exact .item (helement h)
  | items h hrest =>
    rw [← List.append_assoc]
    exact .items (helement h) hrest

/-- Blanks before the first name belong to it. -/
theorem Spells.members_blanks {w cs : List Char} {ms : List (Option String × Json)} (hw : Blanks w)
    (h : Spells (.members ms) cs) : Spells (.members ms) (w ++ cs) := by
  have hlabel : ∀ {k : Option String} {ls : List Char}, Label k ls → Label k (w ++ ls) := by
    rintro _ _ ⟨hw₁, hk, hw₂⟩
    rw [← List.append_assoc]
    exact .mk (fun c hc => (List.mem_append.mp hc).elim (hw c) (hw₁ c)) hk hw₂
  cases h with
  | member hl h =>
    rw [← List.append_assoc]
    exact .member (hlabel hl) h
  | members hl h hrest =>
    rw [← List.append_assoc]
    exact .members (hlabel hl) h hrest

/-- What is read with some fuel is there. -/
structure Sound (fuel : Nat) : Prop where
  value : ∀ {s rest : List Char} {v : Json}, value? fuel s = some (v, rest) →
    ∃ w cs, Blanks w ∧ Spells (.value v) cs ∧ s = w ++ (cs ++ rest)
  items : ∀ {s rest : List Char} {vs : List Json}, items? fuel s = some (vs, rest) →
    ∃ cs, Spells (.items vs) cs ∧ s = cs ++ ']' :: rest
  members : ∀ {s rest : List Char} {ms : List (Option String × Json)}, members? fuel s = some (ms, rest) →
    ∃ cs, Spells (.members ms) cs ∧ s = cs ++ '}' :: rest

/-- A value that has been read is there, if its items and its members are. -/
theorem Sound.value_succ {fuel : Nat} (ih : Sound fuel) {s rest : List Char} {v : Json}
    (h : value? (fuel + 1) s = some (v, rest)) :
    ∃ w cs, Blanks w ∧ Spells (.value v) cs ∧ s = w ++ (cs ++ rest) := by
  obtain ⟨w, hw, hs⟩ := exists_blanks s
  rw [hs]
  suffices hvalue : ∃ cs, Spells (.value v) cs ∧ skipSpace s = cs ++ rest by
    obtain ⟨cs, hcs, heq⟩ := hvalue
    exact ⟨w, cs, hw, hcs, by rw [heq]⟩
  rw [value?] at h
  split at h <;> rename_i heq
  · rw [heq]
    exact Spells.null.of_word? h
  · rw [heq]
    exact Spells.yes.of_word? h
  · rw [heq]
    exact Spells.no.of_word? h
  · obtain ⟨⟨k, t⟩, ht, hv⟩ := Option.map_eq_some_iff.mp h
    cases hv
    obtain ⟨ps, cs, hcs, rfl, rfl⟩ := inside_of_string? ht
    exact ⟨_, .string hcs, by rw [heq, List.cons_append, List.append_assoc]; rfl⟩
  · rename_i r
    obtain ⟨w', hw', hr⟩ := exists_blanks r
    split at h <;> rename_i hinner
    · cases h
      exact ⟨_, .emptyArray hw', by rw [heq, hr, hinner, List.cons_append, List.append_assoc]; rfl⟩
    · obtain ⟨⟨vs, t⟩, ht, hv⟩ := Option.map_eq_some_iff.mp h
      cases hv
      obtain ⟨cs, hcs, hitems⟩ := ih.items ht
      refine ⟨_, .array (hcs.items_blanks hw'), ?_⟩
      rw [heq, hr, hitems, List.cons_append, List.append_assoc, List.append_assoc]
      rfl
  · rename_i r
    obtain ⟨w', hw', hr⟩ := exists_blanks r
    split at h <;> rename_i hinner
    · cases h
      exact ⟨_, .emptyObject hw', by rw [heq, hr, hinner, List.cons_append, List.append_assoc]; rfl⟩
    · obtain ⟨⟨ms, t⟩, ht, hv⟩ := Option.map_eq_some_iff.mp h
      cases hv
      obtain ⟨cs, hcs, hmembers⟩ := ih.members ht
      refine ⟨_, .object (hcs.members_blanks hw'), ?_⟩
      rw [heq, hr, hmembers, List.cons_append, List.append_assoc, List.append_assoc]
      rfl
  · obtain ⟨⟨n, t⟩, ht, hv⟩ := Option.map_eq_some_iff.mp h
    cases hv
    obtain ⟨cs, hcs, hnumber⟩ := spelled_of_number? ht
    exact ⟨cs, .number hcs, hnumber⟩

/-- A value that has been read, with the blanks after it. -/
theorem Sound.element {fuel : Nat} (ih : Sound fuel) {s r : List Char} {v : Json}
    (h : value? fuel s = some (v, r)) : ∃ cs, Spells (.element v) cs ∧ s = cs ++ skipSpace r := by
  obtain ⟨w, cs, hw, hcs, rfl⟩ := ih.value h
  obtain ⟨w', hw', hr⟩ := exists_blanks r
  refine ⟨_, .element hw hcs hw', ?_⟩
  rw [List.append_assoc, List.append_assoc, ← hr]

theorem Sound.items_succ {fuel : Nat} (ih : Sound fuel) {s rest : List Char} {vs : List Json}
    (h : items? (fuel + 1) s = some (vs, rest)) : ∃ cs, Spells (.items vs) cs ∧ s = cs ++ ']' :: rest := by
  rw [items?] at h
  obtain ⟨⟨v, r⟩, hv, hmore⟩ := Option.bind_eq_some_iff.mp h
  obtain ⟨cs, hcs, rfl⟩ := ih.element hv
  dsimp only at hmore
  split at hmore <;> rename_i hr
  · obtain ⟨⟨ws, t⟩, hws, hdone⟩ := Option.bind_eq_some_iff.mp hmore
    cases hdone
    obtain ⟨ds, hds, rfl⟩ := ih.items hws
    exact ⟨_, .items hcs hds, by rw [hr, List.append_assoc]; rfl⟩
  · cases hmore
    exact ⟨cs, .item hcs, by rw [hr]⟩
  · cases hmore

theorem Sound.members_succ {fuel : Nat} (ih : Sound fuel) {s rest : List Char}
    {ms : List (Option String × Json)} (h : members? (fuel + 1) s = some (ms, rest)) :
    ∃ cs, Spells (.members ms) cs ∧ s = cs ++ '}' :: rest := by
  obtain ⟨w, hw, hs⟩ := exists_blanks s
  rw [members?] at h
  split at h <;> rename_i hquote
  · obtain ⟨⟨k, r⟩, hk, hnamed⟩ := Option.bind_eq_some_iff.mp h
    obtain ⟨ps, ks, hks, rfl, rfl⟩ := inside_of_string? hk
    obtain ⟨w', hw', hr⟩ := exists_blanks r
    dsimp only at hnamed
    split at hnamed <;> rename_i hcolon
    · obtain ⟨⟨v, r'⟩, hv, hmore⟩ := Option.bind_eq_some_iff.mp hnamed
      obtain ⟨cs, hcs, rfl⟩ := ih.element hv
      have hlabel : Label (stringOf ps) (w ++ '"' :: (ks ++ '"' :: (w' ++ [':']))) := .mk hw hks hw'
      have hall : s = w ++ '"' :: (ks ++ '"' :: (w' ++ [':'])) ++ (cs ++ skipSpace r') := by
        rw [hs, hquote, hr, hcolon]
        simp
      dsimp only at hmore
      split at hmore <;> rename_i hr'
      · obtain ⟨⟨ns, t⟩, hns, hdone⟩ := Option.bind_eq_some_iff.mp hmore
        cases hdone
        obtain ⟨ds, hds, rfl⟩ := ih.members hns
        exact ⟨_, .members hlabel hcs hds, by rw [hall, hr']; simp⟩
      · cases hmore
        exact ⟨_, .member hlabel hcs, by rw [hall, hr', List.append_assoc _ cs]⟩
      · cases hmore
    · cases hnamed
  · cases h

/-- **What is read is there**, however much fuel there is. -/
theorem sound (fuel : Nat) : Sound fuel := by
  induction fuel with
  | zero => exact ⟨nofun, nofun, nofun⟩
  | succ fuel ih => exact ⟨ih.value_succ, ih.items_succ, ih.members_succ⟩

/-! ## What is there is read -/

theorem skipSpace_skipSpace (s : List Char) : skipSpace (skipSpace s) = skipSpace s := by
  obtain ⟨w, hw, hs⟩ := exists_blanks s
  calc skipSpace (skipSpace s) = skipSpace (w ++ skipSpace s) := (skipSpace_append hw _).symm
    _ = skipSpace s := by rw [← hs]

theorem value?_skipSpace (fuel : Nat) (s : List Char) : value? fuel (skipSpace s) = value? fuel s := by
  cases fuel with
  | zero => rfl
  | succ fuel => rw [value?, value?, skipSpace_skipSpace]

theorem items?_skipSpace (fuel : Nat) (s : List Char) : items? fuel (skipSpace s) = items? fuel s := by
  cases fuel with
  | zero => rfl
  | succ fuel => rw [items?, items?, value?_skipSpace]

theorem members?_skipSpace (fuel : Nat) (s : List Char) :
    members? fuel (skipSpace s) = members? fuel s := by
  cases fuel with
  | zero => rfl
  | succ fuel => rw [members?, members?, skipSpace_skipSpace]

/-- Only a number begins with a sign or with a digit. -/
theorem value?_number {fuel : Nat} {s r : List Char} {c : Char} (hs : skipSpace s = c :: r)
    (hc : c = '-' ∨ c.isDigit = true) :
    value? (fuel + 1) s = (number? (c :: r)).map fun q => (.number q.1, q.2) := by
  have hnot : ∀ d ∈ ['n', 't', 'f', '"', '[', '{'], ∀ t, c :: r ≠ d :: t := by
    have hothers : ∀ d ∈ ['n', 't', 'f', '"', '[', '{'], ¬ (d = '-' ∨ d.isDigit = true) :=
      List.all_iff_forall_prop.mp (by decide)
    intro d hd t heq
    exact hothers d hd ((List.cons.inj heq).1 ▸ hc)
  rw [value?, hs]
  split
  case h_7 => rfl
  all_goals
    rename_i heq
    exact absurd heq (hnot _ (by decide) _)

theorem value?_array {fuel : Nat} {r : List Char} (hne : ∀ t, skipSpace r ≠ ']' :: t) :
    value? (fuel + 1) ('[' :: r) = (items? fuel r).map fun q => (.array q.1, q.2) := by
  rw [← items?_skipSpace, value?, skipSpace_cons (by decide)]
  generalize hr : skipSpace r = items at hne
  simp only [hr]

theorem value?_object {fuel : Nat} {r : List Char} (hne : ∀ t, skipSpace r ≠ '}' :: t) :
    value? (fuel + 1) ('{' :: r) = (members? fuel r).map fun q => (.object q.1, q.2) := by
  rw [← members?_skipSpace, value?, skipSpace_cons (by decide)]
  generalize hr : skipSpace r = members at hne
  simp only [hr]

theorem items?_last {fuel : Nat} {s r rest : List Char} {v : Json} (hv : value? fuel s = some (v, r))
    (hr : skipSpace r = ']' :: rest) : items? (fuel + 1) s = some ([v], rest) := by
  rw [items?, hv, Option.bind_eq_bind, Option.bind_some]
  dsimp only
  rw [hr]
  rfl

theorem items?_more {fuel : Nat} {s r t : List Char} {v : Json} (hv : value? fuel s = some (v, r))
    (hr : skipSpace r = ',' :: t) :
    items? (fuel + 1) s = (items? fuel t).map fun q => (v :: q.1, q.2) := by
  rw [items?, hv, Option.bind_eq_bind, Option.bind_some]
  dsimp only
  rw [hr, Option.map_eq_bind]
  rfl

/-- A label is read up to its colon. -/
theorem Label.read {k : Option String} {ls : List Char} (h : Label k ls) (t : List Char) :
    ∃ r r', skipSpace (ls ++ t) = '"' :: r ∧ string? r = some (k, r') ∧ skipSpace r' = ':' :: t := by
  cases h with
  | @mk w w' cs ps hw hk hw' =>
    refine ⟨cs ++ '"' :: (w' ++ ':' :: t), w' ++ ':' :: t, ?_, hk.read _, ?_⟩
    · have htext : w ++ '"' :: (cs ++ '"' :: (w' ++ [':'])) ++ t =
          w ++ '"' :: (cs ++ '"' :: (w' ++ ':' :: t)) := by simp
      rw [htext, skipSpace_append hw]
      exact skipSpace_cons (by decide) _
    · rw [skipSpace_append hw']
      exact skipSpace_cons (by decide) _

theorem Label.members?_last {k : Option String} {ls : List Char} (hl : Label k ls) {fuel : Nat}
    {t r rest : List Char} {v : Json} (hv : value? fuel t = some (v, r)) (hr : skipSpace r = '}' :: rest) :
    members? (fuel + 1) (ls ++ t) = some ([(k, v)], rest) := by
  obtain ⟨s, s', hs, hk, hs'⟩ := hl.read t
  rw [members?, hs]
  simp only [hk, Option.bind_eq_bind, Option.bind_some, hs', hv, hr]
  rfl

theorem Label.members?_more {k : Option String} {ls : List Char} (hl : Label k ls) {fuel : Nat}
    {t r u : List Char} {v : Json} (hv : value? fuel t = some (v, r)) (hr : skipSpace r = ',' :: u) :
    members? (fuel + 1) (ls ++ t) = (members? fuel u).map fun q => ((k, v) :: q.1, q.2) := by
  obtain ⟨s, s', hs, hk, hs'⟩ := hl.read t
  rw [members?, hs, Option.map_eq_bind]
  simp only [hk, Option.bind_eq_bind, Option.bind_some, hs', hv, hr]
  rfl

/-- The first character of a number is a sign or a digit. -/
theorem Number.Spelled.head {n : Number} {cs : List Char} (h : n.Spelled cs) :
    ∃ c r, cs = c :: r ∧ (c = '-' ∨ c.isDigit = true) := by
  obtain ⟨hn, hexponent⟩ := h
  obtain ⟨d, r, hwhole⟩ := List.exists_cons_of_ne_nil hn.whole_ne_nil
  have hd : d.isDigit = true := hn.whole d (by rw [hwhole]; exact List.mem_cons_self)
  rw [hwhole]
  by_cases hnegative : n.negative = true
  · rw [if_pos hnegative]
    exact ⟨_, _, rfl, .inl rfl⟩
  · rw [if_neg hnegative]
    exact ⟨_, _, rfl, .inr hd⟩

/-- A value begins with a character that is neither a blank nor a closing bracket. -/
theorem Spells.head_value {v : Json} {cs : List Char} (h : Spells (.value v) cs) :
    ∃ c r, cs = c :: r ∧ isSpace c = false ∧ c ≠ ']' := by
  cases h with
  | number h =>
    obtain ⟨c, r, rfl, hc⟩ := h.head
    refine ⟨c, r, rfl, ?_⟩
    rcases hc with rfl | hc
    · decide
    · exact not_isSpace_of_isDigit hc
  | _ => exact ⟨_, _, rfl, by decide, by decide⟩

theorem Spells.head_element {v : Json} {cs : List Char} (h : Spells (.element v) cs) (rest : List Char) :
    ∃ c r, skipSpace (cs ++ rest) = c :: r ∧ c ≠ ']' := by
  cases h with
  | element hw hv hw' =>
    obtain ⟨c, r, rfl, hc, hclosing⟩ := hv.head_value
    rw [List.append_assoc, skipSpace_append hw]
    exact ⟨c, _, skipSpace_cons hc _, hclosing⟩

/-- An array with items is not taken for one without. -/
theorem Spells.head_items {vs : List Json} {cs : List Char} (h : Spells (.items vs) cs)
    (rest t : List Char) : skipSpace (cs ++ rest) ≠ ']' :: t := by
  obtain ⟨c, r, hr, hc⟩ : ∃ c r, skipSpace (cs ++ rest) = c :: r ∧ c ≠ ']' := by
    cases h with
    | item h => exact h.head_element rest
    | items h =>
      rw [List.append_assoc]
      exact h.head_element _
  rw [hr]
  rintro heq
  exact hc (List.cons.inj heq).1

/-- An object with members is not taken for one without. -/
theorem Spells.head_members {ms : List (Option String × Json)} {cs : List Char}
    (h : Spells (.members ms) cs) (rest t : List Char) : skipSpace (cs ++ rest) ≠ '}' :: t := by
  obtain ⟨r, hr⟩ : ∃ r, skipSpace (cs ++ rest) = '"' :: r := by
    cases h with
    | member hl | members hl =>
      rw [List.append_assoc]
      obtain ⟨r, -, hr, -⟩ := hl.read _
      exact ⟨r, hr⟩
  rw [hr]
  rintro heq
  cases heq

/-- A part of a document is read from a text, whatever follows it there. The fuel of a value may be used up,
and there is always more of it than a row takes. -/
def Phrase.IsRead : Phrase → List Char → Prop
  | .value v, cs => ∀ {fuel : Nat} {rest : List Char}, Follows rest → 2 * cs.length ≤ fuel →
    value? fuel (cs ++ rest) = some (v, rest)
  | .element v, cs => ∀ {fuel : Nat} {rest : List Char}, Follows rest → 2 * cs.length ≤ fuel →
    ∃ r, value? fuel (cs ++ rest) = some (v, r) ∧ skipSpace r = skipSpace rest
  | .items vs, cs => ∀ {fuel : Nat} {rest : List Char}, 2 * cs.length < fuel →
    items? fuel (cs ++ ']' :: rest) = some (vs, rest)
  | .members ms, cs => ∀ {fuel : Nat} {rest : List Char}, 2 * cs.length < fuel →
    members? fuel (cs ++ '}' :: rest) = some (ms, rest)

theorem Follows.blanks_append {w rest : List Char} (hw : Blanks w) (h : Follows rest) :
    Follows (w ++ rest) := by
  cases w with
  | nil => exact h
  | cons c w =>
    rintro _ ⟨⟩
    exact .inl (hw c List.mem_cons_self)

theorem follows_comma (rest : List Char) : Follows (',' :: rest) := by
  rintro _ ⟨⟩
  exact .inr (.inl rfl)

theorem follows_bracket (rest : List Char) : Follows (']' :: rest) := by
  rintro _ ⟨⟩
  exact .inr (.inr (.inl rfl))

theorem follows_brace (rest : List Char) : Follows ('}' :: rest) := by
  rintro _ ⟨⟩
  exact .inr (.inr (.inr rfl))

/-- **What is there is read.** -/
theorem Spells.read {p : Phrase} {cs : List Char} (h : Spells p cs) : p.IsRead cs := by
  induction h with
  | null | yes | no =>
    intro fuel rest _ hfuel
    obtain ⟨fuel, rfl⟩ := Nat.exists_eq_add_one.mpr (Nat.zero_lt_of_lt hfuel)
    rfl
  | number h =>
    intro fuel rest hrest hfuel
    obtain ⟨c, r, rfl, hc⟩ := h.head
    obtain ⟨fuel, rfl⟩ := Nat.exists_eq_add_one.mpr (Nat.zero_lt_of_lt hfuel)
    have hblank : isSpace c = false := by
      rcases hc with rfl | hc
      · decide
      · exact (not_isSpace_of_isDigit hc).1
    rw [List.cons_append, value?_number (skipSpace_cons hblank _) hc, ← List.cons_append, h.read hrest]
    rfl
  | string h =>
    intro fuel rest _ hfuel
    obtain ⟨fuel, rfl⟩ := Nat.exists_eq_add_one.mpr (Nat.zero_lt_of_lt hfuel)
    rw [List.cons_append, List.append_assoc, value?, skipSpace_cons (by decide)]
    exact congrArg (Option.map _) (h.read rest)
  | emptyArray hw =>
    intro fuel rest _ hfuel
    obtain ⟨fuel, rfl⟩ := Nat.exists_eq_add_one.mpr (Nat.zero_lt_of_lt hfuel)
    rw [List.cons_append, List.append_assoc, value?, skipSpace_cons (by decide)]
    simp only [List.cons_append, List.nil_append, hw.skipSpace_cons (c := ']') (by decide)]
  | emptyObject hw =>
    intro fuel rest _ hfuel
    obtain ⟨fuel, rfl⟩ := Nat.exists_eq_add_one.mpr (Nat.zero_lt_of_lt hfuel)
    rw [List.cons_append, List.append_assoc, value?, skipSpace_cons (by decide)]
    simp only [List.cons_append, List.nil_append, hw.skipSpace_cons (c := '}') (by decide)]
  | array h ih =>
    intro fuel rest _ hfuel
    simp only [List.length_cons, List.length_append] at hfuel
    obtain ⟨fuel, rfl⟩ := Nat.exists_eq_add_one.mpr (Nat.zero_lt_of_lt hfuel)
    rw [List.cons_append, List.append_assoc, value?_array (h.head_items _), List.cons_append,
      List.nil_append, ih (by omega)]
    rfl
  | object h ih =>
    intro fuel rest _ hfuel
    simp only [List.length_cons, List.length_append] at hfuel
    obtain ⟨fuel, rfl⟩ := Nat.exists_eq_add_one.mpr (Nat.zero_lt_of_lt hfuel)
    rw [List.cons_append, List.append_assoc, value?_object (h.head_members _), List.cons_append,
      List.nil_append, ih (by omega)]
    rfl
  | @element v w cs w' hw h hw' ih =>
    intro fuel rest hrest hfuel
    simp only [List.length_append] at hfuel
    refine ⟨w' ++ rest, ?_, skipSpace_append hw' rest⟩
    have hread := @ih fuel _ (hrest.blanks_append hw') (by omega)
    rw [List.append_assoc, ← value?_skipSpace, skipSpace_append hw, value?_skipSpace, List.append_assoc]
    exact hread
  | item h ih =>
    intro fuel rest hfuel
    obtain ⟨fuel, rfl⟩ := Nat.exists_eq_add_one.mpr (Nat.zero_lt_of_lt hfuel)
    obtain ⟨r, hv, hr⟩ := @ih fuel _ (follows_bracket rest) (by omega)
    exact items?_last hv (hr.trans (skipSpace_cons (by decide) _))
  | items h hrest ih ihrest =>
    intro fuel rest hfuel
    simp only [List.length_append, List.length_cons] at hfuel
    obtain ⟨fuel, rfl⟩ := Nat.exists_eq_add_one.mpr (Nat.zero_lt_of_lt hfuel)
    obtain ⟨r, hv, hr⟩ := @ih fuel _ (follows_comma (_ ++ ']' :: rest)) (by omega)
    rw [List.append_assoc, List.cons_append, items?_more hv (hr.trans (skipSpace_cons (by decide) _)),
      ihrest (by omega)]
    rfl
  | member hl h ih =>
    intro fuel rest hfuel
    simp only [List.length_append] at hfuel
    obtain ⟨fuel, rfl⟩ := Nat.exists_eq_add_one.mpr (Nat.zero_lt_of_lt hfuel)
    obtain ⟨r, hv, hr⟩ := @ih fuel _ (follows_brace rest) (by omega)
    rw [List.append_assoc]
    exact hl.members?_last hv (hr.trans (skipSpace_cons (by decide) _))
  | members hl h hrest ih ihrest =>
    intro fuel rest hfuel
    simp only [List.length_append, List.length_cons] at hfuel
    obtain ⟨fuel, rfl⟩ := Nat.exists_eq_add_one.mpr (Nat.zero_lt_of_lt hfuel)
    obtain ⟨r, hv, hr⟩ := @ih fuel _ (follows_comma (_ ++ '}' :: rest)) (by omega)
    rw [List.append_assoc, List.append_assoc, List.cons_append,
      hl.members?_more hv (hr.trans (skipSpace_cons (by decide) _)), ihrest (by omega)]
    rfl

/-! ## Texts and documents -/

/-- **A text is read as a document exactly if it spells it.** -/
theorem ofText?_eq_some_iff {t : String} {v : Json} :
    ofText? t = some v ↔ Spells (.element v) t.toList := by
  constructor
  · intro h
    obtain ⟨⟨v', r⟩, hv, h⟩ := Option.bind_eq_some_iff.mp h
    dsimp only at h
    split at h <;> rename_i hr
    · cases h
      obtain ⟨cs, hcs, ht⟩ := (sound _).element hv
      rw [List.isEmpty_iff.mp hr, List.append_nil] at ht
      rwa [ht]
    · cases h
  · intro h
    have hread : Phrase.IsRead (.element v) t.toList := h.read
    obtain ⟨r, hv, hr⟩ := @hread (2 * t.toList.length + 2) [] nofun (by omega)
    rw [List.append_nil] at hv
    rw [ofText?]
    dsimp only
    rw [hv]
    exact if_pos (by rw [hr]; rfl)

end Json

end BlockBoard
