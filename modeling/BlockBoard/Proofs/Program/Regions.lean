import BlockBoard.Program.Linking
import BlockBoard.Proofs.Program.Statements
import BlockBoard.Proofs.Text.Utf8
/-!
# The regions of a program

The markers of a program stand where they belong and nowhere else. Besides the markers there is no sign
of a comment in a program that was made from blocks: neither in what surrounds the user's code nor in
the code itself, whatever texts it quotes.

- `Program.piecesAt_source`: the lines of a program, region by region.
- `Program.filter_source`, `Program.occurrences_marker`: without signs of comments in the regions, the
  markers are the only lines with one, and occur once each.
- `Program.userCode?_source`: the user's code is found again in the text of a program.
- `Program.slice?_helpersRange`, `Program.slice?_userCodeRange`: the contents of the regions are what stands at
  their places in the text.
- `BlockGraph.compile_regions`: **the regions of every program made from blocks**.
-/

namespace BlockBoard

/-- The lines that mark the regions of a program, from the first to the last. -/
def markers : List String := [helpersBegin, helpersEnd, userCodeBegin, userCodeEnd]

/-! ## Finding a line -/

section Lines

variable {marker : List Char} {ls : List (List Char)}

theorem afterMarker?_append_cons (h : marker ∉ ls) (r : List (List Char)) :
    afterMarker? marker (ls ++ marker :: r) = some r := by
  induction ls with
  | nil => exact if_pos rfl
  | cons l ls ih =>
    have hl : l ≠ marker := fun h' => h (h' ▸ List.mem_cons_self)
    rw [List.cons_append, afterMarker?, if_neg hl, ih fun h' => h (List.mem_cons_of_mem l h')]

/-- What precedes the first marker, where one follows at the latest. -/
theorem beforeMarker?_append_cons (marker : List Char) (ls r : List (List Char)) :
    beforeMarker? marker (ls ++ marker :: r) = some (ls.takeWhile (· ≠ marker)) := by
  induction ls with
  | nil => exact if_pos rfl
  | cons l ls ih =>
    rw [List.cons_append, beforeMarker?]
    by_cases hl : l = marker
    · rw [if_pos hl, List.takeWhile_cons_of_neg (by simpa using hl)]
    · rw [if_neg hl, ih, List.takeWhile_cons_of_pos (by simpa using hl)]
      rfl

/-- Where no line has a sign of a comment, nothing is left of those that have one. -/
theorem filter_hash_eq_nil (h : ∀ l ∈ ls, '#' ∉ l) : ls.filter ('#' ∈ ·) = [] := by
  rw [List.filter_eq_nil_iff]
  exact fun l hl hmem => h l hl (of_decide_eq_true hmem)

end Lines

/-! ## Finding a range -/

/-- What stands behind a text is found by its place, whatever follows it. -/
theorem ByteRange.slice?_behind (before content after : String) :
    (behind before content).slice? (before ++ content ++ after) = some content := by
  rw [slice?, behind, utf8_append, utf8_append, List.append_assoc, List.extract_eq_take_drop, List.drop_left,
    Nat.add_sub_cancel_left, List.take_left, utf8Text?_utf8]

namespace Program

/-- **The helpers are what stands at their place in the text of a program.** -/
theorem slice?_helpersRange (p : Program) : p.helpersRange.slice? p.source = some p.helpers := by
  have hsource : p.source = p.preamble ++ helpersBegin ++ "\n" ++ p.helpers ++
      ((if p.helpers.isEmpty then "" else "\n") ++ helpersEnd ++ "\n" ++ "\n" ++
        region userCodeBegin p.userCode userCodeEnd ++ "\n" ++ tickLoop) := by
    simp only [source, region, String.append_assoc]
  rw [helpersRange, hsource]
  exact ByteRange.slice?_behind _ _ _

/-- **The user's code is what stands at its place in the text of a program.** -/
theorem slice?_userCodeRange (p : Program) : p.userCodeRange.slice? p.source = some p.userCode := by
  have hsource : p.source = p.preamble ++ region helpersBegin p.helpers helpersEnd ++ "\n" ++ userCodeBegin ++
      "\n" ++ p.userCode ++ ((if p.userCode.isEmpty then "" else "\n") ++ userCodeEnd ++ "\n" ++ "\n" ++
        tickLoop) := by
    simp only [source, region, String.append_assoc]
  rw [userCodeRange, hsource]
  exact ByteRange.slice?_behind _ _ _

/-! ## The lines of a program -/

/-- The lines of what a region holds; there are none if it holds nothing. -/
def contentLines (content : String) : List (List Char) :=
  if content.isEmpty then [] else piecesAt '\n' content.toList

theorem intercalate_contentLines (content : String) :
    ['\n'].intercalate (contentLines content) = content.toList := by
  unfold contentLines
  split
  · rename_i h
    rw [String.isEmpty_iff.mp h]
    rfl
  · exact intercalate_piecesAt '\n' content.toList

theorem hash_not_mem_contentLines {content : String} (h : '#' ∉ content.toList) :
    ∀ l ∈ contentLines content, '#' ∉ l := by
  intro l hl hmem
  unfold contentLines at hl
  split at hl
  · cases hl
  · exact h (mem_of_mem_piecesAt hl hmem)

/-- The lines of a region, and of what follows it. -/
theorem piecesAt_region {first last : String} (hfirst : '\n' ∉ first.toList)
    (hlast : '\n' ∉ last.toList) (content : String) (rest : List Char) :
    piecesAt '\n' ((region first content last).toList ++ rest) =
      first.toList :: (contentLines content ++ last.toList :: piecesAt '\n' rest) := by
  unfold region contentLines
  by_cases hempty : content.isEmpty = true
  · rw [if_pos hempty, if_pos hempty, String.isEmpty_iff.mp hempty]
    have htext : (first ++ "\n" ++ "" ++ "" ++ last ++ "\n").toList ++ rest =
        first.toList ++ '\n' :: (last.toList ++ '\n' :: rest) := by simp
    rw [htext, piecesAt_line hfirst, piecesAt_line hlast]
    rfl
  · rw [if_neg hempty, if_neg hempty]
    have htext : (first ++ "\n" ++ content ++ "\n" ++ last ++ "\n").toList ++ rest =
        first.toList ++ '\n' :: (content.toList ++ '\n' :: (last.toList ++ '\n' :: rest)) := by simp
    rw [htext, piecesAt_line hfirst, piecesAt_append_cons, piecesAt_line hlast]

theorem hash_not_mem_preamble (p : Program) : '#' ∉ p.preamble.toList := by
  have himport : ∀ m : ImportedModule, '#' ∉ ("import " ++ m.name ++ "\n").toList := by
    intro m
    cases m <;> decide
  simp only [preamble, String.toList_append, String.toList_join, List.mem_append, List.mem_flatMap,
    List.mem_map]
  rintro ((h | ⟨_, ⟨m, -, rfl⟩, h⟩) | h)
  · exact absurd h (by decide)
  · exact himport m (by simpa using h)
  · exact absurd h (by decide)

/-- The lines of a program: those before the regions, without signs of comments, the regions, and the
loop at its end. -/
theorem piecesAt_source (p : Program) : ∃ before : List (List Char), (∀ l ∈ before, '#' ∉ l) ∧
    piecesAt '\n' p.source.toList =
      before ++ helpersBegin.toList :: (contentLines p.helpers ++ helpersEnd.toList :: [] ::
        userCodeBegin.toList :: (contentLines p.userCode ++ userCodeEnd.toList :: [] ::
          piecesAt '\n' tickLoop.toList)) := by
  obtain ⟨lead, hlead⟩ : ∃ lead, p.preamble.toList = lead ++ ['\n'] := by
    refine ⟨("import board\n" ++ String.join (p.modules.map fun m => "import " ++ m.name ++ "\n") ++
      "\nboard.init()\n").toList, ?_⟩
    simp [preamble]
  have hplain : '#' ∉ lead := by
    intro h
    exact p.hash_not_mem_preamble (hlead ▸ List.mem_append_left _ h)
  have hblank : ∀ r, piecesAt '\n' ('\n' :: r) = [] :: piecesAt '\n' r :=
    piecesAt_line List.not_mem_nil
  have htext : p.source.toList = lead ++ '\n' :: ((region helpersBegin p.helpers helpersEnd).toList ++
      '\n' :: ((region userCodeBegin p.userCode userCodeEnd).toList ++ '\n' :: tickLoop.toList)) := by
    simp [source, hlead]
  refine ⟨piecesAt '\n' lead, fun l hl h => hplain (mem_of_mem_piecesAt hl h), ?_⟩
  rw [htext, piecesAt_append_cons, piecesAt_region (by decide) (by decide), hblank,
    piecesAt_region (by decide) (by decide), hblank]

/-! ## The markers -/

section Markers

variable {p : Program} (hhelpers : '#' ∉ p.helpers.toList) (hcode : '#' ∉ p.userCode.toList)

include hhelpers hcode

/-- Without signs of comments in the regions, the markers are the only lines with one. -/
theorem filter_source :
    (piecesAt '\n' p.source.toList).filter ('#' ∈ ·) = markers.map String.toList := by
  obtain ⟨before, hbefore, hlines⟩ := p.piecesAt_source
  have htick : ∀ l ∈ piecesAt '\n' tickLoop.toList, '#' ∉ l :=
    fun l hl h => absurd (mem_of_mem_piecesAt hl h) (by decide)
  have hmarker : ∀ m ∈ markers, '#' ∈ m.toList := by decide
  have hblank : '#' ∉ ([] : List Char) := List.not_mem_nil
  simp only [markers, List.mem_cons, List.not_mem_nil, or_false, forall_eq_or_imp, forall_eq] at hmarker
  obtain ⟨h₁, h₂, h₃, h₄⟩ := hmarker
  rw [hlines]
  simp only [List.filter_append, List.filter_cons, filter_hash_eq_nil hbefore,
    filter_hash_eq_nil (hash_not_mem_contentLines hhelpers),
    filter_hash_eq_nil (hash_not_mem_contentLines hcode), filter_hash_eq_nil htick, h₁, h₂, h₃, h₄,
    hblank]
  rfl

/-- Each marker occurs at one place in the whole text. -/
theorem occurrences_marker : ∀ m ∈ markers, occurrences m.toList p.source.toList = 1 := by
  intro m hm
  have hlines := filter_source hhelpers hcode
  have hmarker : ∀ m ∈ markers, m.toList.head? = some '#' ∧ '\n' ∉ m.toList := by decide
  obtain ⟨hhead, hline⟩ := hmarker m hm
  obtain ⟨t, ht⟩ := List.head?_eq_some_iff.mp hhead
  -- the lines with a sign of a comment have no second one
  have hfirst : ∀ l ∈ piecesAt '\n' p.source.toList, '#' ∉ l.tail := by
    intro l hl h
    have hmem : l ∈ markers.map String.toList :=
      hlines ▸ List.mem_filter.mpr ⟨hl, decide_eq_true (List.mem_of_mem_tail h)⟩
    have hone : ∀ l ∈ markers.map String.toList, '#' ∉ l.tail := by decide
    exact hone l hmem h
  have hbegins : ∀ l, m.toList.isPrefixOf l = true → '#' ∈ l := by
    intro l h
    rw [ht] at h
    exact (List.isPrefixOf_iff_prefix.mp h).subset List.mem_cons_self
  have honce : ∀ m ∈ markers, (markers.map String.toList).countP m.toList.isPrefixOf = 1 := by decide
  calc occurrences m.toList p.source.toList
      = (piecesAt '\n' p.source.toList).countP m.toList.isPrefixOf := by
        rw [ht] at hline ⊢
        exact occurrences_eq_countP hline hfirst
    _ = ((piecesAt '\n' p.source.toList).filter ('#' ∈ ·)).countP m.toList.isPrefixOf := by
        rw [List.countP_filter]
        refine List.countP_congr fun l _ => ?_
        rw [Bool.and_eq_true, decide_eq_true_eq]
        exact ⟨fun h => ⟨h, hbegins l h⟩, And.left⟩
    _ = 1 := by rw [hlines, honce m hm]

end Markers

/-- The lines of the user's code before the first one that is the marker at its end. -/
def linesBeforeEnd (p : Program) : List (List Char) :=
  (contentLines p.userCode).takeWhile (· ≠ userCodeEnd.toList)

/-- What is found of the user's code in the text of a program are the lines before the first one that is
the marker at its end. -/
theorem userCode?_source_eq {p : Program} (hhelpers : '#' ∉ p.helpers.toList) :
    userCode? p.source = some (String.ofList (['\n'].intercalate p.linesBeforeEnd)) := by
  obtain ⟨before, hbefore, hlines⟩ := p.piecesAt_source
  have hbegin : userCodeBegin.toList ∉
      before ++ helpersBegin.toList :: (contentLines p.helpers ++ [helpersEnd.toList, []]) := by
    have hhash : '#' ∈ userCodeBegin.toList := by decide
    simp only [List.mem_append, List.mem_cons, List.not_mem_nil, or_false]
    rintro (h | h | h | h | h)
    · exact hbefore _ h hhash
    · exact absurd h (by decide)
    · exact hash_not_mem_contentLines hhelpers _ h hhash
    · exact absurd h (by decide)
    · exact absurd h (by decide)
  have hafter := afterMarker?_append_cons hbegin
    (contentLines p.userCode ++ userCodeEnd.toList :: [] :: piecesAt '\n' tickLoop.toList)
  have hsource : piecesAt '\n' p.source.toList =
      (before ++ helpersBegin.toList :: (contentLines p.helpers ++ [helpersEnd.toList, []])) ++
        userCodeBegin.toList :: (contentLines p.userCode ++ userCodeEnd.toList :: [] ::
          piecesAt '\n' tickLoop.toList) := by
    rw [hlines]
    simp
  rw [userCode?, hsource, hafter]
  show (beforeMarker? _ _ >>= fun r => some (String.ofList (List.intercalate ['\n'] r))) = _
  rw [beforeMarker?_append_cons]
  rfl

/-- The user's code is found again in the text of a program, unless a line of it is the marker at its
end. -/
theorem userCode?_source {p : Program} (hhelpers : '#' ∉ p.helpers.toList)
    (hend : userCodeEnd.toList ∉ contentLines p.userCode) : userCode? p.source = some p.userCode := by
  have hall : p.linesBeforeEnd = contentLines p.userCode :=
    List.takeWhile_eq_self_iff.mpr fun l hl => decide_eq_true fun h => hend (h ▸ hl)
  rw [userCode?_source_eq hhelpers, hall, intercalate_contentLines, String.ofList_toList]

/-! ## Programs made from code -/

theorem hash_not_mem_unlines {ls : List String} (h : ∀ l ∈ ls, '#' ∉ l.toList) :
    '#' ∉ (unlines ls).toList := by
  rw [toList_unlines, List.mem_flatMap]
  rintro ⟨l, hl, hmem⟩
  rcases List.mem_append.mp hmem with hmem | hmem
  · exact h l hl hmem
  · exact absurd (List.mem_singleton.mp hmem) (by decide)

theorem hash_not_mem_helper (h : Helper) : '#' ∉ h.source.toList := by
  cases h with
  | toneFor => exact hash_not_mem_unlines (by decide)
  | shake => exact hash_not_mem_unlines (by decide)

theorem hash_not_mem_helpers (code : GeneratedCode) : '#' ∉ (link code).helpers.toList := by
  intro h
  rw [link, String.toList_intercalate] at h
  rcases mem_of_mem_intercalate h with h | ⟨l, hl, h⟩
  · exact absurd h (by decide)
  · obtain ⟨source, hsource, rfl⟩ := List.mem_map.mp hl
    obtain ⟨helper, -, rfl⟩ := List.mem_map.mp hsource
    exact hash_not_mem_helper helper h

end Program

/-- **The regions of a program made from blocks**, whatever the blocks, and whatever texts stand in their
fields and sockets.

The code of the blocks has no sign of a comment and no control character but line ends. The lines with a
sign of a comment are the four markers in their order, and no marker occurs anywhere else. Without blocks
there is no code; otherwise it is the user's code with one line end, which is all that trimming takes
away. The helpers and the user's code are what stands at their places in the text of the program, and the
user's code is found there again by the markers. -/
theorem BlockGraph.compile_regions (g : BlockGraph) :
    (∀ c ∈ g.generate.body.toList, c ≠ '#' ∧ (c = '\n' ∨ 0x20 ≤ c.toNat ∧ c.toNat ≠ 0x7F)) ∧
    (piecesAt '\n' g.compile.source.toList).filter ('#' ∈ ·) = markers.map String.toList ∧
    (∀ m ∈ markers, occurrences m.toList g.compile.source.toList = 1) ∧
    (g.generate.body = "" ↔ g.chains = []) ∧
    (g.generate.body = "" ∨ g.generate.body = g.compile.userCode ++ "\n") ∧
    g.compile.userCode.toList.getLast? ≠ some '\n' ∧
    g.compile.helpersRange.slice? g.compile.source = some g.compile.helpers ∧
    g.compile.userCodeRange.slice? g.compile.source = some g.compile.userCode ∧
    userCode? g.compile.source = some g.compile.userCode := by
  have hproper := g.proper_lower
  have hcode : ∀ c ∈ g.generate.body.toList,
      c ≠ '#' ∧ (c = '\n' ∨ 0x20 ≤ c.toNat ∧ c.toNat ≠ 0x7F) := by
    intro c hc
    rcases Stmt.isPlain_of_mem_text hproper hc with rfl | hplain
    · exact ⟨by decide, .inl rfl⟩
    · simp only [isPlain, Bool.and_eq_true, bne_iff_ne, decide_eq_true_eq] at hplain
      exact ⟨hplain.1.1, .inr ⟨hplain.1.2, hplain.2⟩⟩
  -- trimming adds nothing, so the user's code has no sign of a comment either
  have huser : '#' ∉ g.compile.userCode.toList :=
    fun h => (hcode '#' (mem_of_mem_trimBlankEnd h)).1 rfl
  have hhelpers : '#' ∉ g.compile.helpers.toList := Program.hash_not_mem_helpers g.generate
  have hend : userCodeEnd.toList ∉ Program.contentLines g.compile.userCode :=
    fun h => Program.hash_not_mem_contentLines huser _ h (by decide)
  refine ⟨hcode, Program.filter_source hhelpers huser, Program.occurrences_marker hhelpers huser,
    Stmt.text_eq_empty_iff.trans g.lower_eq_nil_iff, Stmt.trimBlankEnd_text hproper, fun h => ?_,
    g.compile.slice?_helpersRange, g.compile.slice?_userCodeRange, Program.userCode?_source hhelpers hend⟩
  exact absurd (isBlank_of_getLast?_trimBlankEnd h) (by decide)

end BlockBoard
