import BlockBoard.Proofs.Number.Digits
import BlockBoard.Proofs.Script.Token
/-!
# Spelling

How the tokens of a piece of code follow from those of its parts. What may come next matters only by
its first character: a name ends where no character of a name follows, a numeral moreover where no
point does.

- `Script.Spells`: a piece of code reads as some tokens in front of everything that ends it. Pieces are
  put together by `Spells.append`, so that a whole expression is read part by part.
- `Script.spells_name`, `Script.spells_number`, `Script.spells_text`: names, numerals and quoted texts
  read as themselves. For texts this is the inverse of quoting, character by character
  (`Script.scanText_quoted`).
-/

namespace BlockBoard

namespace Script

/-- Whether a character that follows a name is no part of it, and does not make it the mark before a
quote. -/
def endsName (c : Char) : Bool := !isNameChar c && c != '"'

/-- Whether a character that follows an expression of any kind is no part of it. -/
def endsExpr (c : Char) : Bool := endsName c && c != '.'

/-- A piece of code reads as some tokens, whatever follows it, as long as that starts with one of the
characters that end the piece or there is nothing more. -/
def Spells (ends : Char → Bool) (cs : List Char) (ts : List Token) : Prop :=
  ∀ rest, (∀ c ∈ rest.head?, ends c = true) → tokens? (cs ++ rest) = (tokens? rest).map (ts ++ ·)

/-- A whole piece of code has its tokens. -/
theorem Spells.tokens?_eq {ends : Char → Bool} {cs : List Char} {ts : List Token}
    (h : Spells ends cs ts) : tokens? cs = some ts := by
  have := h [] (by simp)
  simpa using this

theorem Spells.weaken {p q : Char → Bool} {cs : List Char} {ts : List Token} (h : Spells p cs ts)
    (hpq : ∀ c, q c = true → p c = true) : Spells q cs ts :=
  fun rest hrest => h rest fun c hc => hpq c (hrest c hc)

/-- Two pieces in a row, the second of which ends the first. -/
theorem Spells.append {p q : Char → Bool} {a b : List Char} {ts us : List Token} (ha : Spells p a ts)
    (hb : Spells q b us) (hne : b ≠ []) (hend : ∀ c ∈ b.head?, p c = true) :
    Spells q (a ++ b) (ts ++ us) := by
  intro rest hrest
  have hhead : ∀ c ∈ (b ++ rest).head?, p c = true := by
    rw [List.head?_append, List.head?_eq_some_head hne]
    simpa [List.head?_eq_some_head hne] using hend
  rw [List.append_assoc, ha _ hhead, hb _ hrest, Option.map_map]
  congr 1
  funext vs
  exact (List.append_assoc ts us vs).symm

/-- A symbol in front of a piece. -/
theorem Spells.cons {p : Char → Bool} {c : Char} {t : Token} {cs : List Char} {ts : List Token}
    (hc : ∀ r, tokens? (c :: r) = (tokens? r).map (t :: ·)) (h : Spells p cs ts) :
    Spells p (c :: cs) (t :: ts) := by
  intro rest hrest
  rw [List.cons_append, hc, h rest hrest, Option.map_map]
  rfl

/-- A symbol alone. -/
theorem Spells.single {p : Char → Bool} {c : Char} {t : Token}
    (hc : ∀ r, tokens? (c :: r) = (tokens? r).map (t :: ·)) : Spells p [c] [t] :=
  fun rest _ => hc rest

/-! ## Symbols -/

theorem scan?_of_symbol {c : Char} {r : List Char} (hq : c ≠ '"') (hd : c.isDigit = false)
    (hn : isNameStart c = false) : scan? (c :: r) = scanSymbol? (c :: r) := by
  rw [scan?.eq_def]
  split <;> simp_all

/-- A symbol of one character that begins no longer one is a token in front of anything. -/
theorem tokens?_symbol {c : Char} {t : Token}
    (hc : c ≠ ' ' ∧ c ≠ '"' ∧ c.isDigit = false ∧ isNameStart c = false)
    (hs : ∀ r, scanSymbol? (c :: r) = some (t, r)) (r : List Char) :
    tokens? (c :: r) = (tokens? r).map (t :: ·) := by
  obtain ⟨hspace, hquote, hdigit, hname⟩ := hc
  refine tokens?_of_scan ?_ (by simpa using hspace) (by simp)
  rw [scan?_of_symbol hquote hdigit hname, hs]

/-- An operator between spaces, and the space before it. -/
theorem tokens?_operator (op : BinaryOp) (r : List Char) :
    tokens? (' ' :: (op.symbol.toList ++ ' ' :: r)) = (tokens? r).map (.operator op :: ·) := by
  rw [tokens?_space]
  have h : scan? (op.symbol.toList ++ ' ' :: r) = some (.operator op, ' ' :: r) := by
    cases op <;> rfl
  rw [tokens?_of_scan h (by cases op <;> simp [BinaryOp.symbol])
    (by cases op <;> simp [BinaryOp.symbol]),
    tokens?_space]

/-- The word of a negation, and the space after it. -/
theorem tokens?_not (r : List Char) :
    tokens? ('n' :: 'o' :: 't' :: ' ' :: r) = (tokens? r).map (.notWord :: ·) := by
  have h : scan? ('n' :: 'o' :: 't' :: ' ' :: r) = some (.notWord, ' ' :: r) := rfl
  rw [tokens?_of_scan h (by simp) (by simp), tokens?_space]

/-! ## Names -/

/-- Whether a text is a name. -/
def isName (n : String) : Bool :=
  wordToken? n == some (.name n) && n.toList.head?.any isNameStart && n.toList.all isNameChar

/-- No digit begins a name. -/
theorem isDigit_of_isNameStart {c : Char} (h : isNameStart c = true) : c.isDigit = false := by
  have hdigits : ∀ n < 58, 48 ≤ n → isNameStart (Char.ofNat n) = false := by decide
  rw [Bool.eq_false_iff]
  intro hdigit
  obtain ⟨hlow, hhigh⟩ := Char.isDigit_iff_toNat.mp hdigit
  have hnone := hdigits c.toNat (Nat.lt_succ_of_le hhigh) hlow
  rw [Char.ofNat_toNat, h] at hnone
  cases hnone

theorem isNameStart_ne {c : Char} (h : isNameStart c = true) :
    c ≠ ' ' ∧ c ≠ '"' ∧ c.isDigit = false := by
  refine ⟨?_, ?_, isDigit_of_isNameStart h⟩
  · rintro rfl
    exact absurd h (by decide)
  · rintro rfl
    exact absurd h (by decide)

theorem spells_name {n : String} (h : isName n = true) : Spells endsName n.toList [.name n] := by
  obtain ⟨⟨htoken, hstart⟩, hall⟩ : (wordToken? n = some (.name n) ∧
      n.toList.head?.any isNameStart = true) ∧ n.toList.all isNameChar = true := by
    simpa [isName] using h
  intro rest hrest
  have hstop : ∀ c ∈ rest.head?, isNameChar c = false := by
    intro c hc
    have := hrest c hc
    simp only [endsName, Bool.and_eq_true, Bool.not_eq_true'] at this
    exact this.1
  obtain ⟨htake, hdrop⟩ := takeWhile_dropWhile_stop (List.all_eq_true.mp hall) hstop
  have hn : String.ofList n.toList = n := String.ofList_toList
  cases hcs : n.toList with
  | nil => simp [hcs] at hstart
  | cons c r =>
    rw [hcs, List.cons_append] at htake hdrop
    have hc : isNameStart c = true := by simpa [hcs] using hstart
    obtain ⟨hspace, hquote, hdigit⟩ := isNameStart_ne hc
    have hscan : scan? (c :: (r ++ rest)) = some (.name n, rest) := by
      rw [scan?.eq_def]
      split
      · simp_all
      · simp_all
      · rename_i heq
        cases heq
        rw [hdigit, hc, htake, hdrop, ← hcs, hn, htoken]
        rfl
      · simp_all
    have hlt : rest.length < (c :: (r ++ rest)).length := by
      rw [List.length_cons, List.length_append]
      omega
    rw [List.cons_append, tokens?_of_scan hscan (by simpa using hspace) hlt]
    rfl

/-! ## Numerals -/

theorem isNameChar_of_isDigit {c : Char} (h : c.isDigit = true) : isNameChar c = true := by
  simp [isNameChar, Char.isAlphanum, h]

/-- What ends an expression touches no numeral. -/
theorem touchesNumeral_eq_false {rest : List Char} (h : ∀ c ∈ rest.head?, endsExpr c = true) :
    touchesNumeral rest = false ∧ ∀ c ∈ rest.head?, c.isDigit = false ∧ c ≠ '.' := by
  cases rest with
  | nil => simp [touchesNumeral]
  | cons c r =>
    have hc := h c (by simp)
    simp only [endsExpr, endsName, Bool.and_eq_true, Bool.not_eq_true', bne_iff_ne] at hc
    obtain ⟨⟨hname, -⟩, hdot⟩ := hc
    refine ⟨by simp [touchesNumeral, hname, hdot], ?_⟩
    intro x hx
    obtain rfl : x = c := by simpa using hx.symm
    refine ⟨?_, hdot⟩
    cases hd : x.isDigit with
    | false => rfl
    | true => rw [isNameChar_of_isDigit hd] at hname; cases hname

theorem hasLeadingZero_toDigits (n : Nat) : hasLeadingZero (Nat.toDigits 10 n) = false := by
  rcases Nat.eq_zero_or_pos n with rfl | hn
  · rfl
  · have hhead := head?_toDigits_ne_zero n hn
    unfold hasLeadingZero
    split
    · simp_all
    · rfl

theorem toList_text (n : Numeral) :
    n.text.toList =
      Nat.toDigits 10 n.whole ++ if n.fraction.isEmpty then [] else '.' :: n.fraction := by
  rw [Numeral.text, String.toList_append, decimalText, String.toList_ofList]
  cases n.fraction with
  | nil => rfl
  | cons d ds => simp

/-- A numeral whose fraction consists of digits is scanned as itself. -/
theorem scanNumber?_text {n : Numeral} (h : n.fraction.all Char.isDigit = true) {rest : List Char}
    (hrest : ∀ c ∈ rest.head?, endsExpr c = true) :
    scanNumber? (n.text.toList ++ rest) = some (.number n.text, rest) := by
  obtain ⟨htouch, hstop⟩ := touchesNumeral_eq_false hrest
  have hwhole : ∀ c ∈ Nat.toDigits 10 n.whole, c.isDigit = true :=
    fun c hc => isDigit_of_mem_toDigits hc
  have hn : String.ofList n.text.toList = n.text := String.ofList_toList
  rw [toList_text] at hn ⊢
  cases hf : n.fraction with
  | nil =>
    obtain ⟨htake, hdrop⟩ := takeWhile_dropWhile_stop hwhole fun c hc => (hstop c hc).1
    rw [hf] at hn
    simp only [List.isEmpty_nil, if_true, List.append_nil] at hn ⊢
    rw [scanNumber?, htake, hdrop]
    split
    · exact absurd rfl (hstop '.' (by simp)).2
    · simp [hasLeadingZero_toDigits, htouch, hn]
  | cons d ds =>
    have hfraction : ∀ c ∈ d :: ds, c.isDigit = true := by
      rw [hf] at h
      exact List.all_eq_true.mp h
    -- the whole digits end at the point, and the others at what follows the numeral
    have hpoint : ∀ c ∈ ('.' :: (d :: ds) ++ rest).head?, c.isDigit = false := by simp
    obtain ⟨htake, hdrop⟩ := takeWhile_dropWhile_stop hwhole hpoint
    obtain ⟨htake', hdrop'⟩ := takeWhile_dropWhile_stop hfraction fun c hc => (hstop c hc).1
    rw [hf] at hn
    simp only [List.isEmpty_cons, Bool.false_eq_true, if_false] at hn ⊢
    rw [List.append_assoc, scanNumber?, htake, hdrop]
    simp only [List.cons_append] at htake' hdrop' ⊢
    simp [htake', hdrop', htouch, hn]

theorem scan?_of_digit {c : Char} {r : List Char} (hc : c.isDigit = true) :
    scan? (c :: r) = scanNumber? (c :: r) := by
  rw [scan?.eq_def]
  split <;> simp_all

theorem spells_number {n : Numeral} (h : n.fraction.all Char.isDigit = true) :
    Spells endsExpr n.text.toList [.number n.text] := by
  intro rest hrest
  have hscan := scanNumber?_text h hrest
  obtain ⟨c, r, hcr⟩ := List.exists_cons_of_ne_nil (Nat.toDigits_ne_nil (n := n.whole) (b := 10))
  have hc : c.isDigit = true :=
    isDigit_of_mem_toDigits (n := n.whole) (by simp [hcr])
  rw [toList_text, hcr] at hscan ⊢
  simp only [List.cons_append] at hscan ⊢
  have hhead := hscan
  rw [← scan?_of_digit hc] at hhead
  rw [tokens?_of_scan hhead]
  · rfl
  · rintro h
    obtain rfl : c = ' ' := by simpa using h
    simp at hc
  · rw [List.length_cons, List.length_append, List.length_append]
    omega

/-! ## Texts -/

theorem hexDigit?_digitChar : ∀ d, d < 16 → hexDigit? d.digitChar = some d := by decide

/-- A character without an escape of its own is written by its code or stands for itself. -/
theorem quotedChar_of_not_mem {c : Char} (h : c ∉ ['\\', '"', '\n', '\r', '\t', '#']) :
    quotedChar c = if c.toNat < 0x20 || c.toNat = 0x7f then
      ['\\', 'x', (c.toNat / 16).digitChar, (c.toNat % 16).digitChar] else [c] := by
  simp only [List.mem_cons, List.not_mem_nil, or_false, not_or] at h
  obtain ⟨hslash, hquote, hline, hreturn, htab, hhash⟩ := h
  rw [quotedChar, if_neg hslash, if_neg hquote, if_neg hline, if_neg hreturn, if_neg htab,
    if_neg hhash]

/-- The characters with an escape of their own read as themselves. -/
theorem scanText_escaped {c : Char} (h : c ∈ ['\\', '"', '\n', '\r', '\t', '#']) (r : List Char) :
    scanText (quotedChar c ++ r) = inFront c (scanText r) := by
  simp only [List.mem_cons, List.not_mem_nil, or_false] at h
  rcases h with rfl | rfl | rfl | rfl | rfl | rfl <;> rfl

/-- Two digits to the base sixteen read as the character with that code. -/
theorem scanText_code {c : Char} (h : c.toNat < 256) (r : List Char) :
    scanText ('\\' :: 'x' :: (c.toNat / 16).digitChar :: (c.toNat % 16).digitChar :: r) =
      inFront c (scanText r) := by
  show (do
    let high ← hexDigit? (c.toNat / 16).digitChar
    let low ← hexDigit? (c.toNat % 16).digitChar
    inFront (Char.ofNat (16 * high + low)) (scanText r)) = _
  rw [hexDigit?_digitChar _ (by omega), hexDigit?_digitChar _ (by omega)]
  simp only [Option.bind_eq_bind, Option.bind_some, Nat.div_add_mod, Char.ofNat_toNat]

/-- A character of a quoted text reads as itself. -/
theorem scanText_quotedChar (c : Char) (r : List Char) :
    scanText (quotedChar c ++ r) = inFront c (scanText r) := by
  by_cases hescaped : c ∈ ['\\', '"', '\n', '\r', '\t', '#']
  · exact scanText_escaped hescaped r
  rw [quotedChar_of_not_mem hescaped]
  by_cases hcontrol : (c.toNat < 0x20 || c.toNat = 0x7f) = true
  · have hcode : c.toNat < 256 := by
      simp only [Bool.or_eq_true, decide_eq_true_eq] at hcontrol
      omega
    rw [if_pos hcontrol]
    exact scanText_code hcode r
  · -- nothing that ends a line or a text is left
    have hzero : c.toNat ≠ 0 := by
      intro h
      simp [h] at hcontrol
    rw [if_neg hcontrol, List.singleton_append, scanText.eq_def]
    split <;> simp_all

/-- A quoted text reads as itself, and nothing that follows it belongs to it. -/
theorem scanText_quoted (s r : List Char) :
    scanText (s.flatMap quotedChar ++ '"' :: r) = some (s, r) := by
  induction s with
  | nil => rfl
  | cons c s ih =>
    rw [List.flatMap_cons, List.append_assoc, scanText_quotedChar, ih]
    rfl

/-- What stands for a character of a quoted text does not start with a quote. -/
theorem head?_quotedChar_ne (c : Char) : (quotedChar c).head? ≠ some '"' := by
  unfold quotedChar
  repeat' split
  all_goals simp_all

/-- Three quotes never come in a row where a quoted text begins, unless it is empty and a quote follows. -/
theorem scan?_quoted {s rest : List Char} (hrest : s = [] → rest.head? ≠ some '"') :
    scan? ('"' :: (s.flatMap quotedChar ++ '"' :: rest)) = some (.text (String.ofList s), rest) := by
  rw [scan?.eq_def]
  split
  · rename_i heq
    cases s with
    | nil => simp_all
    | cons c s =>
      -- three quotes would need a second one where the text begins
      obtain ⟨d, ds, hd⟩ : ∃ d ds, quotedChar c = d :: ds := by
        unfold quotedChar
        repeat' split
        all_goals exact ⟨_, _, rfl⟩
      have := head?_quotedChar_ne c
      simp_all
  · rename_i heq
    cases heq
    rw [scanText_quoted]
    rfl
  · rename_i hquote heq
    cases heq
    exact (hquote rfl).elim
  · rename_i heq
    cases heq

theorem spells_text (s : String) : Spells endsExpr (quotedText s).toList [.text s] := by
  intro rest hrest
  have htext : (quotedText s).toList = '"' :: (s.toList.flatMap quotedChar ++ ['"']) := by
    simp [quotedText]
  have hhead : rest.head? ≠ some '"' := by
    intro h
    have := hrest '"' h
    simp [endsExpr, endsName] at this
  have hscan := scan?_quoted (s := s.toList) fun _ => hhead
  rw [String.ofList_toList] at hscan
  rw [htext, List.cons_append, List.append_assoc]
  refine tokens?_of_scan hscan (by simp) ?_
  rw [List.length_cons, List.length_append, List.length_append]
  omega

end Script

end BlockBoard
