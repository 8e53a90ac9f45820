import BlockBoard.Program.Linking
import BlockBoard.Proofs.Program.Walking
/-!
# What a program needs and what it has

A program imports the modules and defines the helpers that its code uses, and no others, before the first
line that uses them.

- `Helper.reads`: what the lines of a helper use and define.
- `Program.source_link`: the lines of a program, from the first to the last.
- `BlockGraph.controlFree_sourceLines`: **no line of the program of a graph has a control character in it**.
- `Program.closed_leadLines`, `Program.provided_of_name`: the lines before the user's code use nothing that
  has not been defined, and define what the code needs.
- `BlockGraph.requirements_exact`: **the requirements of a graph are exact**.
-/

namespace BlockBoard

open Script

/-! ## Lines of texts -/

theorem unlines_eq_empty_iff {ls : List String} : unlines ls = "" ↔ ls = [] := by
  rw [← String.toList_eq_nil_iff, toList_unlines, List.flatMap_eq_nil_iff]
  refine ⟨fun h => List.eq_nil_iff_forall_not_mem.mpr fun l hl => ?_, fun h => by simp [h]⟩
  exact absurd (h l hl) (by simp)

/-- Texts with blank lines between them. -/
theorem intercalate_unlines (ls : List (List String)) :
    String.intercalate "\n\n" (ls.map unlines) = unlines (["", ""].intercalate ls) := by
  rw [← String.toList_inj, String.toList_intercalate]
  induction ls with
  | nil => decide
  | cons l r ih =>
    cases r with
    | nil => simp
    | cons l' r =>
      simp only [List.map_cons, List.intercalate_cons_cons] at ih ⊢
      rw [ih]
      simp

/-! ## Helpers -/

namespace Helper

/-- The name by which a helper is called. -/
def name : Helper → String
  | toneFor => "play_tone_for"
  | shake => "shake_happened"

/-- The modules that a helper uses. -/
def modules : Helper → List ImportedModule
  | toneFor => [.time]
  | shake => []

/-- The names that a helper defines for the user's code. -/
def defines : Helper → List String
  | toneFor => ["play_tone_for"]
  | shake => ["shake_happened", "_shake"]

/-- What can be seen in the lines of a helper: they use the board, the helper's modules and what they
define themselves. -/
structure Reads (h : Helper) (ls : List String) : Prop where
  controlFree : ∀ l ∈ ls, ControlFree l
  closed : Closed (languageNames ++ "board" :: h.modules.map ImportedModule.name) ls
  defines : ∀ n ∈ h.defines, n ∈ ls.flatMap bound
  uses : ∀ m : ImportedModule, (∃ l ∈ ls, m.name ∈ names l) ↔ m ∈ h.modules

instance (h : Helper) (ls : List String) : Decidable (h.Reads ls) :=
  decidable_of_iff ((∀ l ∈ ls, ControlFree l) ∧
      Closed (languageNames ++ "board" :: h.modules.map ImportedModule.name) ls ∧
      (∀ n ∈ h.defines, n ∈ ls.flatMap bound) ∧
      ((∃ l ∈ ls, "random" ∈ names l) ↔ ImportedModule.random ∈ h.modules) ∧
      ((∃ l ∈ ls, "time" ∈ names l) ↔ ImportedModule.time ∈ h.modules))
    ⟨fun ⟨hfree, hclosed, hdefines, hrandom, htime⟩ =>
      ⟨hfree, hclosed, hdefines, fun | .random => hrandom | .time => htime⟩,
    fun ⟨hfree, hclosed, hdefines, huses⟩ =>
      ⟨hfree, hclosed, hdefines, huses .random, huses .time⟩⟩

theorem reads (h : Helper) : unlines (lines h.source) = h.source ∧ h.Reads (lines h.source) := by
  obtain ⟨ls, hsource, hreads⟩ : ∃ ls, h.source = unlines ls ∧ h.Reads ls := by
    cases h <;> exact ⟨_, rfl, by decide +kernel⟩
  have hlines : lines h.source = ls := by rw [hsource, lines_unlines fun l hl => (hreads.controlFree l hl).isLine]
  rw [hlines]
  exact ⟨hsource.symm, hreads⟩

end Helper

namespace Program

/-! ## The lines of a program -/

/-- The lines that import modules. -/
def importLines (ms : List ImportedModule) : List String :=
  "import board" :: ms.map fun m => "import " ++ m.name

/-- The lines that define helpers, with blank lines between them and one after the last. -/
def helperLines (hs : List Helper) : List String :=
  ["", ""].intercalate (hs.map fun h => lines h.source) ++ if hs.isEmpty then [] else [""]

/-- The lines of a program before the user's code. -/
def leadLines (needs : Requirements) : List String :=
  importLines needs.modules ++ ["", "board.init()", "", helpersBegin] ++ helperLines needs.helpers ++
    [helpersEnd, "", userCodeBegin]

/-- A region whose content consists of lines. -/
theorem region_eq_unlines {content : String} {ls : List String}
    (h : content = "" ∧ ls = [] ∨ content ≠ "" ∧ content ++ "\n" = unlines ls) (first last : String) :
    region first content last = unlines (first :: (ls ++ [last])) := by
  unfold region
  rcases h with ⟨rfl, rfl⟩ | ⟨hne, hlines⟩
  · rw [← String.toList_inj]
    simp
  · have hfull : ¬ content.isEmpty = true := by rwa [String.isEmpty_iff]
    rw [if_neg hfull, unlines_cons, unlines_append, ← hlines, ← String.toList_inj]
    simp

theorem preamble_eq_unlines (p : Program) :
    p.preamble = unlines (importLines p.modules ++ ["", "board.init()", ""]) := by
  have himports : ∀ ms : List ImportedModule,
      String.join (ms.map fun m => "import " ++ m.name ++ "\n") =
        unlines (ms.map fun m => "import " ++ m.name) := by
    intro ms
    rw [unlines, List.map_map]
    rfl
  rw [preamble, himports, importLines, List.cons_append, unlines_cons, unlines_append,
    ← String.toList_inj]
  simp

/-- The region of the helpers consists of the lines of their definitions. -/
theorem region_helpers (hs : List Helper) :
    region helpersBegin (String.intercalate "\n\n" (hs.map Helper.source)) helpersEnd =
      unlines (helpersBegin :: (helperLines hs ++ [helpersEnd])) := by
  refine region_eq_unlines ?_ _ _
  have hsource : hs.map Helper.source = (hs.map fun h => lines h.source).map unlines := by
    rw [List.map_map]
    exact List.map_congr_left fun h _ => h.reads.1.symm
  rw [hsource, intercalate_unlines, helperLines]
  cases hs with
  | nil => exact .inl ⟨rfl, rfl⟩
  | cons h r =>
    have hne : ["", ""].intercalate ((h :: r).map fun h => lines h.source) ≠ [] := by
      have hlines : lines h.source ≠ [] := by
        intro hnil
        have hempty := h.reads.1
        rw [hnil] at hempty
        cases h <;> exact absurd hempty (by decide)
      cases r <;> simp [hlines]
    refine .inr ⟨fun h => hne (unlines_eq_empty_iff.mp h), ?_⟩
    rw [List.isEmpty_cons, if_neg Bool.false_ne_true, unlines_append]
    rfl

/-- The region of the user's code consists of the lines of the code. -/
theorem region_userCode {ss : List Stmt} (h : ∀ s ∈ ss, s.Proper) :
    region userCodeBegin (trimBlankEnd (Stmt.text ss)) userCodeEnd =
      unlines (userCodeBegin :: (Stmt.suiteLines ss ++ [userCodeEnd])) := by
  refine region_eq_unlines ?_ _ _
  rcases Stmt.trimBlankEnd_text h with hempty | htrim
  · exact .inl ⟨by rw [hempty]; decide, unlines_eq_empty_iff.mp hempty⟩
  · refine .inr ⟨fun hnil => ?_, htrim.symm⟩
    -- no line of the code is empty
    have hlines := Stmt.lines_text h
    rw [htrim, hnil] at hlines
    have hempty : "" ∈ Stmt.suiteLines ss := hlines ▸ by decide
    exact absurd (Stmt.codeLine_suiteLines h "" hempty).solid (by decide)

/-- A program made from code consists of imports, the helpers, the code, and the loop. -/
theorem source_link {ss : List Stmt} (h : ∀ s ∈ ss, s.Proper) :
    (link (.ofStmts ss)).source =
      unlines (leadLines (.ofNames (Stmt.suiteNames ss)) ++ Stmt.suiteLines ss ++
        userCodeEnd :: "" :: lines tickLoop) := by
  have htick : unlines (lines tickLoop) = tickLoop := by decide
  have hhelpers := region_helpers (Requirements.ofNames (Stmt.suiteNames ss)).helpers
  have hcode := region_userCode h
  rw [source, preamble_eq_unlines]
  simp only [link, GeneratedCode.ofStmts] at *
  rw [hhelpers, hcode]
  simp only [leadLines, unlines_append, unlines_cons, htick]
  simp [← String.toList_inj]

/-! ## Names before the user's code -/

theorem mem_helperLines {hs : List Helper} {l : String} (hl : l ∈ helperLines hs) :
    l = "" ∨ ∃ h ∈ hs, l ∈ lines h.source := by
  rcases List.mem_append.mp hl with hl | hl
  · rcases mem_of_mem_intercalate hl with hl | ⟨ls, hls, hl⟩
    · exact .inl (by simpa using hl)
    · obtain ⟨h, hh, rfl⟩ := List.mem_map.mp hls
      exact .inr ⟨h, hh, hl⟩
  · split at hl
    · cases hl
    · exact .inl (List.mem_singleton.mp hl)

theorem mem_helperLines_of_mem {hs : List Helper} {h : Helper} (hh : h ∈ hs) {l : String}
    (hl : l ∈ lines h.source) : l ∈ helperLines hs :=
  List.mem_append_left _ (mem_intercalate_of_mem (List.mem_map_of_mem hh) hl)

theorem closed_intercalate {known : List String} {lss : List (List String)}
    (h : ∀ ls ∈ lss, Closed known ls) : Closed known (["", ""].intercalate lss) := by
  have hblank : Closed known ["", ""] := closed_of_lines fun l hl n hn => by
    have hnames : ∀ l ∈ ["", ""], names l = [] := by decide
    rw [hnames l hl] at hn
    cases hn
  have hlater : ∀ {a b : List String}, Closed known a → Closed known b → Closed known (a ++ b) :=
    fun ha hb => ha.append (hb.mono (List.subset_append_left _ _))
  induction lss with
  | nil => trivial
  | cons ls r ih =>
    obtain ⟨hls, hr⟩ := List.forall_mem_cons.mp h
    cases r with
    | nil => rwa [List.intercalate_singleton]
    | cons ls' r =>
      rw [List.intercalate_cons_cons]
      exact hlater (hlater hls hblank) (ih hr)

/-- Helpers are closed where the board and their modules are known. -/
theorem closed_helperLines {known : List String} {hs : List Helper}
    (hknown : "board" :: languageNames ⊆ known)
    (hmodules : ∀ h ∈ hs, ∀ m ∈ h.modules, m.name ∈ known) : Closed known (helperLines hs) := by
  have hblank : Closed known (if hs.isEmpty then [] else [""]) := by
    refine closed_of_lines fun l hl n hn => ?_
    have hnames : names "" = [] := by decide
    split at hl
    · cases hl
    · rw [List.mem_singleton.mp hl, hnames] at hn
      cases hn
  refine Closed.append (closed_intercalate fun ls hls => ?_)
    (hblank.mono (List.subset_append_left _ _))
  obtain ⟨h, hh, rfl⟩ := List.mem_map.mp hls
  refine h.reads.2.closed.mono fun n hn => ?_
  rcases List.mem_append.mp hn with hn | hn
  · exact hknown (List.mem_cons_of_mem _ hn)
  · rcases List.mem_cons.mp hn with rfl | hn
    · exact hknown List.mem_cons_self
    · obtain ⟨m, hm, rfl⟩ := List.mem_map.mp hn
      exact hmodules h hh m hm

/-- Every import defines the module, and uses nothing. -/
theorem importLine_reads : names "import board" = ["import", "board"] ∧ bound "import board" = ["board"] ∧
    ∀ m : ImportedModule, names ("import " ++ m.name) = ["import", m.name] ∧
      bound ("import " ++ m.name) = [m.name] := by
  refine ⟨by decide, by decide, fun m => ?_⟩
  cases m <;> decide

theorem bound_importLines (ms : List ImportedModule) :
    (importLines ms).flatMap bound = "board" :: ms.map ImportedModule.name := by
  obtain ⟨-, hboard, himport⟩ := importLine_reads
  have hrest : (ms.map fun m => "import " ++ m.name).flatMap bound = ms.map ImportedModule.name := by
    induction ms with
    | nil => rfl
    | cons m r ih => rw [List.map_cons, List.flatMap_cons, (himport m).2, ih, List.map_cons]; rfl
  rw [importLines, List.flatMap_cons, hboard, hrest]
  rfl

theorem closed_importLines {known : List String} (hknown : languageNames ⊆ known)
    (ms : List ImportedModule) : Closed known (importLines ms) := by
  obtain ⟨hnames, hbound, himport⟩ := importLine_reads
  have hword : "import" ∈ known := hknown (by decide)
  refine closed_of_lines (List.forall_mem_cons.mpr ⟨?_, fun l hl => ?_⟩)
  · rw [hnames, hbound]
    simp [hword]
  · obtain ⟨m, -, rfl⟩ := List.mem_map.mp hl
    rw [(himport m).1, (himport m).2]
    simp [hword]

/-- The lines before the user's code use nothing that has not been defined, if the modules of the helpers
are imported. -/
theorem closed_leadLines {needs : Requirements}
    (h : ∀ h ∈ needs.helpers, ∀ m ∈ h.modules, m ∈ needs.modules) :
    Closed languageNames (leadLines needs) := by
  have hmiddle : ∀ l ∈ ["", "board.init()", "", helpersBegin], ∀ n ∈ names l, n ∈ ["board"] := by decide
  have hend : ∀ l ∈ [helpersEnd, "", userCodeBegin], names l = [] := by decide
  refine Closed.append (.append (.append (closed_importLines (List.Subset.refl _) _) ?_) ?_) ?_
  · refine closed_of_lines fun l hl n hn => .inl ?_
    rw [bound_importLines, List.mem_singleton.mp (hmiddle l hl n hn)]
    simp
  · rw [List.flatMap_append, bound_importLines]
    refine closed_helperLines (fun n hn => ?_) fun h' hh m hm => ?_
    · rcases List.mem_cons.mp hn with rfl | hn <;> simp_all
    · simp [List.mem_map_of_mem (h h' hh m hm)]
  · refine closed_of_lines fun l hl n hn => ?_
    rw [hend l hl] at hn
    cases hn

theorem controlFree_leadLines (needs : Requirements) : ∀ l ∈ leadLines needs, ControlFree l := by
  have himport : ControlFree "import board" ∧ ∀ m : ImportedModule, ControlFree ("import " ++ m.name) := by
    refine ⟨by decide, fun m => ?_⟩
    cases m <;> decide
  have hmiddle : ∀ l ∈ ["", "board.init()", "", helpersBegin], ControlFree l := by decide
  have hend : ∀ l ∈ [helpersEnd, "", userCodeBegin], ControlFree l := by decide
  intro l hl
  rcases List.mem_append.mp hl with hl | hl
  · rcases List.mem_append.mp hl with hl | hl
    · rcases List.mem_append.mp hl with hl | hl
      · rcases List.mem_cons.mp hl with rfl | hl
        · exact himport.1
        · obtain ⟨m, -, rfl⟩ := List.mem_map.mp hl
          exact himport.2 m
      · exact hmiddle l hl
    · rcases mem_helperLines hl with rfl | ⟨h, -, hl⟩
      · exact hmiddle "" List.mem_cons_self
      · exact h.reads.2.controlFree l hl
  · exact hend l hl

/-- They define the board, the modules, and what the helpers define. -/
theorem mem_bound_leadLines {needs : Requirements} {n : String}
    (h : n = "board" ∨ (∃ m ∈ needs.modules, n = m.name) ∨ ∃ h ∈ needs.helpers, n ∈ h.defines) :
    n ∈ (leadLines needs).flatMap bound := by
  simp only [leadLines, List.flatMap_append, bound_importLines]
  rcases h with rfl | ⟨m, hm, rfl⟩ | ⟨h, hh, hn⟩
  · simp
  · simp [List.mem_map_of_mem hm]
  · obtain ⟨l, hl, hbound⟩ := List.mem_flatMap.mp (h.reads.2.defines n hn)
    have hmem : n ∈ (helperLines needs.helpers).flatMap bound :=
      List.mem_flatMap.mpr ⟨l, mem_helperLines_of_mem hh hl, hbound⟩
    simp only [List.mem_append]
    exact .inl (.inr hmem)

/-- The helpers use the modules that they are said to use. -/
theorem uses_helperLines {hs : List Helper} (m : ImportedModule) :
    (∃ l ∈ helperLines hs, m.name ∈ names l) ↔ ∃ h ∈ hs, m ∈ h.modules := by
  constructor
  · rintro ⟨l, hl, hn⟩
    rcases mem_helperLines hl with rfl | ⟨h, hh, hl⟩
    · have hnames : names "" = [] := by decide
      rw [hnames] at hn
      cases hn
    · exact ⟨h, hh, (h.reads.2.uses m).mp ⟨l, hl, hn⟩⟩
  · rintro ⟨h, hh, hm⟩
    obtain ⟨l, hl, hn⟩ := (h.reads.2.uses m).mpr hm
    exact ⟨l, mem_helperLines_of_mem hh hl, hn⟩

end Program

/-! ## Requirements -/

namespace Requirements

/-- The provision that comes from a module, and the one that comes from a helper. -/
theorem mem_modules_ofNames (ns : List String) :
    (ImportedModule.random ∈ (ofNames ns).modules ↔ Provision.randint.name ∈ ns) ∧
    (ImportedModule.time ∈ (ofNames ns).modules ↔
      Provision.sleepMs.name ∈ ns ∨ Provision.toneFor.name ∈ ns) ∧
    (Helper.toneFor ∈ (ofNames ns).helpers ↔ Provision.toneFor.name ∈ ns) ∧
    (Helper.shake ∈ (ofNames ns).helpers ↔ Provision.shakeHappened.name ∈ ns) := by
  refine ⟨?_, ?_, ?_, ?_⟩ <;> simp [ofNames, modules, helpers, Provision.name]

/-- The modules that a helper uses are among those that are needed. -/
theorem modules_of_helper {ns : List String} {h : Helper} (hh : h ∈ (ofNames ns).helpers) :
    ∀ m ∈ h.modules, m ∈ (ofNames ns).modules := by
  obtain ⟨-, htime, htone, -⟩ := mem_modules_ofNames ns
  cases h with
  | shake => nofun
  | toneFor =>
    intro m hm
    obtain rfl := List.mem_singleton.mp hm
    exact htime.mpr (.inr (htone.mp hh))

/-- What a provision brings with it is provided by what is needed. -/
theorem provided_of_name {ns : List String} {f : Provision} (hf : f.name ∈ ns) :
    ∀ n ∈ f.useNames,
      (∃ m ∈ (ofNames ns).modules, n = m.name) ∨ ∃ h ∈ (ofNames ns).helpers, n ∈ h.defines := by
  obtain ⟨hrandom, htime, htone, hshake⟩ := mem_modules_ofNames ns
  intro n hn
  cases f with
  | randint =>
    have hheads : Provision.randint.useNames = ["random"] := by decide
    rw [hheads, List.mem_singleton] at hn
    exact .inl ⟨.random, hrandom.mpr hf, hn⟩
  | sleepMs =>
    have hheads : Provision.sleepMs.useNames = ["time"] := by decide
    rw [hheads, List.mem_singleton] at hn
    exact .inl ⟨.time, htime.mpr (.inl hf), hn⟩
  | toneFor =>
    have hheads : Provision.toneFor.useNames = Helper.toneFor.defines := by decide
    exact .inr ⟨.toneFor, htone.mpr hf, hheads ▸ hn⟩
  | shakeHappened =>
    have hheads : Provision.shakeHappened.useNames = Helper.shake.defines := by decide
    exact .inr ⟨.shake, hshake.mpr hf, hheads ▸ hn⟩

end Requirements

/-- The lines of the program of a graph. -/
def BlockGraph.sourceLines (g : BlockGraph) : List String :=
  Program.leadLines (.ofNames (Stmt.suiteNames g.lower.value)) ++ Stmt.suiteLines g.lower.value ++
    userCodeEnd :: "" :: lines tickLoop

theorem BlockGraph.source_compile (g : BlockGraph) : g.compile.source = unlines g.sourceLines :=
  Program.source_link g.proper_lower

/-- There are no control characters in them, whatever stands in the fields of the graph. -/
theorem BlockGraph.controlFree_sourceLines (g : BlockGraph) : ∀ l ∈ g.sourceLines, ControlFree l := by
  have hend : ∀ l ∈ userCodeEnd :: "" :: lines tickLoop, ControlFree l := by decide
  intro l hl
  rcases List.mem_append.mp hl with hl | hl
  · rcases List.mem_append.mp hl with hl | hl
    · exact Program.controlFree_leadLines _ l hl
    · exact (Stmt.codeLine_suiteLines g.proper_lower l hl).controlFree
  · exact hend l hl

theorem BlockGraph.lines_source (g : BlockGraph) : lines g.compile.source = g.sourceLines := by
  rw [g.source_compile, lines_unlines fun l hl => (g.controlFree_sourceLines l hl).isLine]

/-- A program whose code shows its names uses nothing that has not been defined. -/
theorem closed_program {ns ls : List String} (h : Revealing ns ls) :
    Closed languageNames (Program.leadLines (.ofNames ns) ++ ls ++ userCodeEnd :: "" :: lines tickLoop) := by
  have hlead : Closed languageNames (Program.leadLines (.ofNames ns)) :=
    Program.closed_leadLines fun h hh => Requirements.modules_of_helper hh
  have hboard : "board" ∈ (Program.leadLines (.ofNames ns)).flatMap bound :=
    Program.mem_bound_leadLines (.inl rfl)
  refine Closed.append (hlead.append (closed_of_lines fun l hl n hn => .inl ?_))
    (closed_of_lines fun l hl n hn => .inl ?_)
  · rw [List.mem_append]
    rcases h.mem_names hl hn with hword | ⟨f, hpath, hname⟩
    · have hwords : ∀ n ∈ commonNames, n = "board" ∨ n ∈ languageNames := by decide
      rcases hwords n hword with rfl | hword
      · exact .inr hboard
      · exact .inl hword
    · exact .inr (Program.mem_bound_leadLines (.inr (Requirements.provided_of_name hname n hpath)))
  · have htick : ∀ l ∈ userCodeEnd :: "" :: lines tickLoop, ∀ n ∈ names l,
        n = "board" ∨ n ∈ languageNames := by decide
    rw [List.mem_append, List.flatMap_append, List.mem_append]
    rcases htick l hl n hn with rfl | hword
    · exact .inr (.inl hboard)
    · exact .inl hword

/-- A module is required exactly if the required helpers or the code use it. -/
theorem mem_modules_iff_uses {ns ls : List String} (h : Revealing ns ls) (m : ImportedModule) :
    m ∈ (Requirements.ofNames ns).modules ↔
      ∃ l ∈ Program.helperLines (Requirements.ofNames ns).helpers ++ ls, m.name ∈ names l := by
  obtain ⟨hrandom, htime, htone, hshake⟩ := Requirements.mem_modules_ofNames ns
  have hsplit : (∃ l ∈ Program.helperLines (Requirements.ofNames ns).helpers ++ ls, m.name ∈ names l) ↔
      (∃ h ∈ (Requirements.ofNames ns).helpers, m ∈ h.modules) ∨ ∃ l ∈ ls, m.name ∈ names l := by
    rw [← Program.uses_helperLines m]
    simp only [List.mem_append, or_and_right, exists_or]
  rw [hsplit]
  cases m with
  | random =>
    have hnone : ∀ h : Helper, ImportedModule.random ∉ h.modules := by
      intro h
      cases h <;> decide
    rw [hrandom, ← h.uses_iff .randint]
    refine ⟨.inr, fun hor => hor.elim (fun ⟨h, _, hm⟩ => absurd hm (hnone h)) id⟩
  | time =>
    have hone : ∀ h : Helper, ImportedModule.time ∈ h.modules ↔ h = .toneFor := by
      intro h
      cases h <;> decide
    rw [htime, ← htone, ← h.uses_iff .sleepMs, or_comm]
    simp only [hone, exists_eq_right]
    rfl

/-- **The requirements of a graph are exact.** They are what is recorded on a walk through the graph, piece by
piece as the code is made. Outside of texts, the code of the graph uses random numbers exactly if their module
is required, shaking and timed tones exactly if their helpers are, and waits or plays timed tones exactly if
the module of the time is.

The program consists of the import lines of the required modules, the required helpers, the code and the
loop, and the code neither imports nor defines anything itself. No line uses a name that is not defined in
it or in an earlier one. A module is imported exactly if the helpers or the code use it, and a helper
defined exactly if the code uses it. -/
theorem BlockGraph.requirements_exact (g : BlockGraph) :
    Walk.generate g = g.generate ∧
    (Mentions "random.randint" (lines g.generate.body) ↔
      ImportedModule.random ∈ g.generate.needs.modules) ∧
    (Mentions "shake_happened(_shake)" (lines g.generate.body) ↔
      Helper.shake ∈ g.generate.needs.helpers) ∧
    (Mentions "play_tone_for" (lines g.generate.body) ↔
      Helper.toneFor ∈ g.generate.needs.helpers) ∧
    (Mentions "time.sleep_ms" (lines g.generate.body) ∨
        Mentions "play_tone_for" (lines g.generate.body) ↔
      ImportedModule.time ∈ g.generate.needs.modules) ∧
    lines g.compile.source =
      Program.importLines g.generate.needs.modules ++ ["", "board.init()", "", helpersBegin] ++
        Program.helperLines g.generate.needs.helpers ++ [helpersEnd, "", userCodeBegin] ++
        lines g.generate.body ++ userCodeEnd :: "" :: lines tickLoop ∧
    (∀ l ∈ lines g.generate.body, ∀ n ∈ ["import", "class", "def"], n ∉ names l) ∧
    Closed languageNames (lines g.compile.source) ∧
    (∀ m, m ∈ g.generate.needs.modules ↔
      ∃ l ∈ Program.helperLines g.generate.needs.helpers ++ lines g.generate.body, m.name ∈ names l) ∧
    (∀ h, h ∈ g.generate.needs.helpers ↔ ∃ l ∈ lines g.generate.body, h.name ∈ names l) := by
  have hrevealing := revealing_lower g
  have hbody : lines g.generate.body = Stmt.suiteLines g.lower.value := Stmt.lines_text g.proper_lower
  have hneeds : g.generate.needs = .ofNames (Stmt.suiteNames g.lower.value) := rfl
  obtain ⟨hrandom, htime, htone, hshake⟩ :=
    Requirements.mem_modules_ofNames (Stmt.suiteNames g.lower.value)
  refine ⟨Walk.generate_eq g, ?_⟩
  rw [hbody, hneeds]
  refine ⟨?_, ?_, ?_, ?_, g.lines_source, fun l hl n hn hname => ?_, ?_, fun m => ?_, fun h => ?_⟩
  · exact (hrevealing.mentions_iff .randint).trans hrandom.symm
  · exact (hrevealing.mentions_iff .shakeHappened).trans hshake.symm
  · exact (hrevealing.mentions_iff .toneFor).trans htone.symm
  · exact (or_congr (hrevealing.mentions_iff .sleepMs) (hrevealing.mentions_iff .toneFor)).trans htime.symm
  · have hwords : ∀ n ∈ ["import", "class", "def"], n ∉ commonNames ∧ ∀ f : Provision, n ∉ f.useNames := by
      intro n hn
      refine ⟨?_, fun f => ?_⟩
      · revert n
        decide
      · revert n
        cases f <;> decide
    obtain ⟨hcommon, huse⟩ := hwords n hn
    rcases hrevealing.mem_names hl hname with hword | ⟨f, hword, -⟩
    · exact hcommon hword
    · exact huse f hword
  · rw [g.lines_source]
    exact closed_program hrevealing
  · exact mem_modules_iff_uses hrevealing m
  · cases h with
    | toneFor => exact htone.trans (hrevealing.uses_iff .toneFor).symm
    | shake => exact hshake.trans (hrevealing.uses_iff .shakeHappened).symm

end BlockBoard
