import BlockBoard.Proofs.Program.Regions
/-!
# Taking the user's code out of a program

Any code can be linked, also code that was not made from blocks: it may have blank lines at its beginning,
carriage returns, markers of either kind, and no line end after its last line. This module says when it is
found again in the text of the program as it is, and that linking what was found gives the program again
exactly then.

- `length_takeWhile_lt`: a marker in the code cuts something off.
- `trimBlankEnd_append_blanks`: blanks behind a text are trimmed with its own.
- `Program.extraction_exact`: **when extraction is exact, and that linking is stable**.
-/

namespace BlockBoard

/-! ## Lines before a marker -/

/-- Lines up to one of them make up at least as much text as those before it and the line itself. -/
theorem length_intercalate_append_cons (between l : List Char) (ls r : List (List Char)) :
    (between.intercalate ls).length + l.length ≤ (between.intercalate (ls ++ l :: r)).length := by
  induction ls with
  | nil => cases r <;> simp [List.intercalate_cons_cons]
  | cons l' ls ih =>
    cases ls with
    | nil =>
      rw [List.singleton_append, List.intercalate_cons_cons, List.intercalate_singleton]
      rw [List.nil_append, List.intercalate_nil, List.length_nil, Nat.zero_add] at ih
      simp only [List.length_append]
      omega
    | cons l'' ls =>
      rw [List.cons_append, List.cons_append, List.intercalate_cons_cons, List.intercalate_cons_cons,
        ← List.cons_append]
      simp only [List.length_append] at ih ⊢
      omega

/-- Without the lines from a marker on, less text is left. -/
theorem length_takeWhile_lt {marker : List Char} (hmarker : marker ≠ []) {ls : List (List Char)}
    (h : marker ∈ ls) :
    (['\n'].intercalate (ls.takeWhile (· ≠ marker))).length < (['\n'].intercalate ls).length := by
  obtain ⟨r, hr⟩ : ∃ r, ls = ls.takeWhile (· ≠ marker) ++ marker :: r := by
    induction ls with
    | nil => cases h
    | cons l ls ih =>
      by_cases hl : l = marker
      · exact ⟨ls, by rw [List.takeWhile_cons_of_neg (by simpa using hl), hl, List.nil_append]⟩
      · obtain ⟨r, hr⟩ := ih ((List.mem_cons.mp h).resolve_left (Ne.symm hl))
        exact ⟨r, by rw [List.takeWhile_cons_of_pos (by simpa using hl), List.cons_append, ← hr]⟩
  have hle := length_intercalate_append_cons ['\n'] marker (ls.takeWhile (· ≠ marker)) r
  have := List.length_pos_iff.mpr hmarker
  rw [← hr] at hle
  omega

/-! ## Trimming -/

/-- Blanks behind a text are trimmed with its own. -/
theorem trimBlankEnd_append_blanks (s : String) {blanks : String}
    (h : ∀ c ∈ blanks.toList, isBlank c = true) : trimBlankEnd (s ++ blanks) = trimBlankEnd s := by
  rw [← String.toList_inj, toList_trimBlankEnd, toList_trimBlankEnd, String.toList_append, List.rdropWhile,
    List.reverse_append, List.dropWhile_append_of_pos fun c hc => h c (List.mem_reverse.mp hc),
    List.rdropWhile]

theorem trimBlankEnd_trimBlankEnd (s : String) : trimBlankEnd (trimBlankEnd s) = trimBlankEnd s := by
  rw [← String.toList_inj, toList_trimBlankEnd, toList_trimBlankEnd, List.rdropWhile_idempotent]

theorem length_trimBlankEnd_le (s : String) : (trimBlankEnd s).toList.length ≤ s.toList.length := by
  rw [toList_trimBlankEnd]
  exact (List.rdropWhile_prefix isBlank s.toList).length_le

namespace Program

/-! ## Linking -/

/-- The marker is a line of a region exactly if it is a line of its text. -/
theorem userCodeEnd_mem_contentLines_iff (content : String) :
    userCodeEnd.toList ∈ contentLines content ↔ userCodeEnd.toList ∈ piecesAt '\n' content.toList := by
  unfold contentLines
  split
  · rename_i hempty
    rw [String.isEmpty_iff.mp hempty]
    decide
  · rfl

/-- Only the text of the code and its needs make the program. -/
theorem link_eq_iff {code : GeneratedCode} {body : String} :
    link ⟨body, code.needs⟩ = link code ↔ trimBlankEnd body = trimBlankEnd code.body := by
  constructor
  · exact congrArg userCode
  · intro h
    rw [link, link, h]

/-- **When extraction is exact, and that linking is stable**, for any code with any needs.

The user's code is what stands at its place in the text of the program. Something is always found there by
the markers: the lines of the user's code before the first one that is the marker at its end. That is the
user's code exactly if none of its lines is the marker; and exactly then linking what was found, with the same
needs, gives the program again. Blanks behind the code change nothing of the program. -/
theorem extraction_exact (code : GeneratedCode) :
    (link code).userCodeRange.slice? (link code).source = some (link code).userCode ∧
    (userCode? (link code).source = some (link code).userCode ↔
      userCodeEnd.toList ∉ piecesAt '\n' (trimBlankEnd code.body).toList) ∧
    (∃ found, userCode? (link code).source = some found ∧
      (link ⟨found, code.needs⟩ = link code ↔
        userCodeEnd.toList ∉ piecesAt '\n' (trimBlankEnd code.body).toList)) ∧
    ∀ blanks : String, (∀ c ∈ blanks.toList, isBlank c = true) →
      link ⟨code.body ++ blanks, code.needs⟩ = link code := by
  have hfound := userCode?_source_eq (hash_not_mem_helpers code)
  have hlines := userCodeEnd_mem_contentLines_iff (link code).userCode
  have huser : (link code).userCode = trimBlankEnd code.body := rfl
  -- without a marker all lines are found, and with one too few
  have hexact (h : userCodeEnd.toList ∉ contentLines (link code).userCode) :
      String.ofList (['\n'].intercalate (link code).linesBeforeEnd) = (link code).userCode :=
    Option.some.inj (hfound.symm.trans (userCode?_source (hash_not_mem_helpers code) h))
  have hshort (h : userCodeEnd.toList ∈ contentLines (link code).userCode) :
      (['\n'].intercalate (link code).linesBeforeEnd).length < (link code).userCode.toList.length := by
    rw [← intercalate_contentLines]
    exact length_takeWhile_lt (by decide) h
  rw [← huser, ← hlines]
  refine ⟨slice?_userCodeRange _, ⟨fun h hmem => ?_, userCode?_source (hash_not_mem_helpers code)⟩,
    ⟨_, hfound, ?_, ?_⟩, ?_⟩
  · have hsame := Option.some.inj (hfound.symm.trans h)
    have := hshort hmem
    rw [← hsame, String.toList_ofList] at this
    exact Nat.lt_irrefl _ this
  · intro h hmem
    have hle := length_trimBlankEnd_le (String.ofList (['\n'].intercalate (link code).linesBeforeEnd))
    rw [link_eq_iff.mp h, ← huser, String.toList_ofList] at hle
    exact absurd (hshort hmem) (Nat.not_lt.mpr hle)
  · intro h
    rw [hexact h, link_eq_iff, huser, trimBlankEnd_trimBlankEnd]
  · intro blanks hblanks
    exact link_eq_iff.mpr (trimBlankEnd_append_blanks code.body hblanks)

/-- Code that begins with a blank line and a marker, has a marker with something behind it, and ends
within a line. -/
def awkwardCode : GeneratedCode :=
  ⟨"\n# ==== BEGIN USER CODE ====\n# ==== END USER CODE ====\r\n # ==== END USER CODE ====", { shake := true }⟩

theorem extraction_exact_awkward :
    userCode? (link awkwardCode).source = some (link awkwardCode).userCode ∧
    (∀ c ∈ "\u2003\r\n".toList, isBlank c = true) ∧
    link ⟨awkwardCode.body ++ "\u2003\r\n", awkwardCode.needs⟩ = link awkwardCode := by
  obtain ⟨-, hexact, -, hblanks⟩ := extraction_exact awkwardCode
  have hblank : ∀ c ∈ "\u2003\r\n".toList, isBlank c = true := List.all_eq_true.mp (by decide)
  exact ⟨hexact.mpr (by decide), hblank, hblanks _ hblank⟩

end Program

end BlockBoard
