import Mathlib.Data.Bool.AllAny
import BlockBoard.Proofs.Board.Running
/-!
# Writing a file on a simulated board

A file is sent as programs that consist of statements about files, each of which the board carries out at
once. The contents go as hexadecimal digits, so that every byte can be typed.

- `Board.unhex?_hexBytes`: hexadecimal digits are read back.
- `Board.exec_statements`: a program that consists of statements about files is carried out, and prints
  nothing.
- `Board.execAll_appends`: **the pieces of a file are joined in order**, by induction on the pieces.
- `Board.writeFile_connected`: **a file is replaced by what was sent**, whatever bytes that is.
- `Board.writeFile_exact`: **a file arrives byte for byte**, and nothing else changes.
-/

namespace BlockBoard

namespace Board

/-! ## Hexadecimal digits -/

theorem hexNibble?_digitChar : ∀ n < 16, hexNibble? (Nat.digitChar n) = some (UInt8.ofNat n) := by
  decide

/-- **Hexadecimal digits are read back.** -/
theorem unhex?_hexBytes (bs : List UInt8) : unhex? (hexBytes bs).toList = some bs := by
  rw [hexBytes, String.toList_ofList]
  induction bs with
  | nil => rfl
  | cons b r ih =>
    have hlow : b.toNat % 16 < 16 := Nat.mod_lt _ (by decide)
    have hhigh : b.toNat / 16 < 16 := by
      have hlt := b.toNat_lt
      omega
    have hbyte : UInt8.ofNat (b.toNat / 16) * 16 + UInt8.ofNat (b.toNat % 16) = b := by
      apply UInt8.toNat.inj
      simp
      omega
    rw [List.flatMap_cons, List.cons_append, List.cons_append, List.nil_append, unhex?,
      hexNibble?_digitChar _ hhigh, hexNibble?_digitChar _ hlow, ih]
    dsimp only [bind, Option.bind, pure]
    rw [hbyte]

/-- Hexadecimal digits can be typed, and do not end a line. -/
theorem typeable_hexBytes {bs : List UInt8} {c : Char} (h : c ∈ (hexBytes bs).toList) :
    4 < c.toNat ∧ c ≠ '\n' := by
  have hdigit : ∀ n < 16, 4 < (Nat.digitChar n).toNat ∧ Nat.digitChar n ≠ '\n' := by decide
  rw [hexBytes, String.toList_ofList, List.mem_flatMap] at h
  obtain ⟨b, -, hc⟩ := h
  have hlt := b.toNat_lt
  rcases List.mem_cons.mp hc with rfl | hc
  · exact hdigit _ (by omega)
  · rw [List.mem_singleton.mp hc]
    exact hdigit _ (by omega)

/-! ## Lines of statements -/

/-- A line, and the lines after it. -/
theorem linesOf_line {a : List Char} (h : '\n' ∉ a) (b : List Char) :
    linesOf (a ++ '\n' :: b) = dropReturn a :: linesOf b := by
  obtain ⟨p, ps, hps⟩ := List.exists_cons_of_ne_nil (piecesAt_ne_nil '\n' b)
  unfold linesOf
  rw [piecesAt_line h, hps]
  rfl

/-- A text of one line. -/
theorem linesOf_single {a : List Char} (h : '\n' ∉ a) (hne : a ≠ []) : linesOf a = [a] := by
  have hpieces : piecesAt '\n' a = [a] := by
    rw [piecesAt_eq_splitOn]
    exact List.splitOn_eq_singleton h
  have hfull : a.isEmpty = false := by simpa using hne
  unfold linesOf
  rw [hpieces]
  simp [hfull]

/-- A statement: what stands between a beginning and an end. -/
def phrase (first last : String) (middle : List Char) : List Char := first.toList ++ middle ++ last.toList

section Phrase

variable (first last : String) (middle : List Char)

theorem between?_phrase : between? first last (phrase first last middle) = some middle := by
  have hfirst : first.toList.isPrefixOf (first.toList ++ middle ++ last.toList) = true := by
    rw [List.isPrefixOf_iff_prefix, List.append_assoc]
    exact List.prefix_append _ _
  have hrest : (first.toList ++ middle ++ last.toList).drop first.length = middle ++ last.toList := by
    rw [List.append_assoc, ← String.length_toList, List.drop_left]
  have hlast : last.toList.isSuffixOf (middle ++ last.toList) = true :=
    List.isSuffixOf_iff_suffix.mpr (List.suffix_append _ _)
  rw [between?, phrase, hrest, hfirst, hlast, ← String.length_toList]
  simp

theorem looksLike_phrase : (first.toList.isPrefixOf (phrase first last middle) &&
    last.toList.isSuffixOf (phrase first last middle)) = true := by
  rw [Bool.and_eq_true, List.isPrefixOf_iff_prefix, List.isSuffixOf_iff_suffix, phrase]
  refine ⟨?_, List.suffix_append _ _⟩
  rw [List.append_assoc]
  exact List.prefix_append _ _

variable {first last middle}

/-- Nothing is dropped from a statement that has no blanks at its ends. -/
theorem dropBlanks_phrase {c d : Char} {r l : List Char} (hfirst : first.toList = c :: r)
    (hlast : last.toList = l ++ [d]) (hc : isBlank c = false) (hd : isBlank d = false) :
    dropBlanks (phrase first last middle) = phrase first last middle := by
  have hends : phrase first last middle = c :: (r ++ middle ++ l) ++ [d] := by
    simp [phrase, hfirst, hlast]
  rw [hends, dropBlanks, dropBlankEnd, List.cons_append, List.dropWhile_cons_of_neg (by simp [hc]),
    ← List.cons_append, List.reverse_append, List.reverse_singleton, List.singleton_append,
    List.dropWhile_cons_of_neg (by simp [hd])]
  simp

/-- A statement is a line as it is if it does not end with a carriage return. -/
theorem dropReturn_phrase {d : Char} {l : List Char} (hlast : last.toList = l ++ [d]) (hd : d ≠ '\r') :
    dropReturn (phrase first last middle) = phrase first last middle := by
  rw [dropReturn, if_neg]
  rw [phrase, hlast, ← List.append_assoc, List.getLast?_concat, Option.some_inj]
  exact hd

/-- A statement is one line if what stands in it is. -/
theorem newline_not_mem_phrase (hfirst : '\n' ∉ first.toList) (hmiddle : '\n' ∉ middle)
    (hlast : '\n' ∉ last.toList) : '\n' ∉ phrase first last middle := by
  simp only [phrase, List.mem_append, not_or]
  exact ⟨⟨hfirst, hmiddle⟩, hlast⟩

end Phrase

/-- A statement that opens a file. -/
theorem ofLine?_open {line name : List Char}
    (h : ("f=open('".toList.isPrefixOf line && "','wb')".toList.isSuffixOf line) = true)
    (hname : between? "f=open('" "','wb')" line = some name) :
    FileStatement.ofLine? line = some (.openFor (String.ofList name)) := by
  unfold FileStatement.ofLine?
  dsimp only
  rw [if_pos h, hname]
  rfl

/-- A statement that writes bytes. -/
theorem ofLine?_append {line hex : List Char}
    (hother : ¬ ("f=open('".toList.isPrefixOf line && "','wb')".toList.isSuffixOf line) = true)
    (h : ("w(u('".toList.isPrefixOf line && "'))".toList.isSuffixOf line) = true)
    (hhex : between? "w(u('" "'))" line = some hex) :
    FileStatement.ofLine? line = some (.append hex) := by
  unfold FileStatement.ofLine?
  dsimp only
  rw [if_neg hother, if_pos h, hhex]
  rfl

/-- What the board is told after it has opened a file. -/
def preparations : String := "w=f.write\nimport binascii\nu=binascii.unhexlify"

/-- The program that opens a file consists of statements about files. -/
theorem fileStatements?_open {name code : String} (hname : '\n' ∉ name.toList)
    (hcode : code.toList = phrase "f=open('" "','wb')" name.toList ++ '\n' :: preparations.toList) :
    fileStatements? code = some [.openFor name, .nothing, .nothing, .nothing] := by
  have hend : "','wb')".toList = "','wb'".toList ++ [')'] := rfl
  have hlines : ((linesOf code.toList).map dropBlanks).filter (fun l => !l.isEmpty) =
      phrase "f=open('" "','wb')" name.toList ::
        ["w=f.write".toList, "import binascii".toList, "u=binascii.unhexlify".toList] := by
    have hrest : ((linesOf preparations.toList).map dropBlanks).filter (fun l => !l.isEmpty) =
        ["w=f.write".toList, "import binascii".toList, "u=binascii.unhexlify".toList] := by
      decide +kernel
    rw [hcode, linesOf_line (newline_not_mem_phrase (by decide) hname (by decide)),
      dropReturn_phrase hend (by decide), List.map_cons,
      dropBlanks_phrase (c := 'f') rfl hend (by decide) (by decide), List.filter_cons_of_pos rfl, hrest]
  have hopen : FileStatement.ofLine? (phrase "f=open('" "','wb')" name.toList) = some (.openFor name) := by
    have hstatement := ofLine?_open (looksLike_phrase "f=open('" "','wb')" name.toList)
      (between?_phrase _ _ _)
    rwa [String.ofList_toList] at hstatement
  have hprepare : ["w=f.write".toList, "import binascii".toList, "u=binascii.unhexlify".toList].mapM
      FileStatement.ofLine? = some [.nothing, .nothing, .nothing] := by decide +kernel
  unfold fileStatements?
  rw [hlines]
  dsimp only
  rw [List.mapM_cons, hopen, hprepare]
  rfl

/-- The program that writes a piece of a file consists of one statement about files. -/
theorem fileStatements?_write (bs : List UInt8) {code : String}
    (hcode : code.toList = phrase "w(u('" "'))" (hexBytes bs).toList) :
    fileStatements? code = some [.append (hexBytes bs).toList] := by
  have hend : "'))".toList = "')".toList ++ [')'] := rfl
  have hhex : '\n' ∉ (hexBytes bs).toList := fun hmem => (typeable_hexBytes hmem).2 rfl
  have hlines : ((linesOf code.toList).map dropBlanks).filter (fun l => !l.isEmpty) =
      [phrase "w(u('" "'))" (hexBytes bs).toList] := by
    have hline : '\n' ∉ phrase "w(u('" "'))" (hexBytes bs).toList :=
      newline_not_mem_phrase (by decide) hhex (by decide)
    rw [hcode, linesOf_single hline nofun, List.map_singleton,
      dropBlanks_phrase (c := 'w') rfl hend (by decide) (by decide)]
    rfl
  have hother : ¬ ("f=open('".toList.isPrefixOf (phrase "w(u('" "'))" (hexBytes bs).toList) &&
      "','wb')".toList.isSuffixOf (phrase "w(u('" "'))" (hexBytes bs).toList)) = true := by
    have hfirst : "f=open('".toList.isPrefixOf (phrase "w(u('" "'))" (hexBytes bs).toList) = false := rfl
    rw [hfirst]
    exact Bool.false_ne_true
  unfold fileStatements?
  rw [hlines]
  dsimp only
  rw [List.mapM_cons, ofLine?_append hother (looksLike_phrase _ _ _) (between?_phrase _ _ _)]
  rfl

/-! ## Programs that consist of statements about files -/

theorem AtRawPrompt.with_files {log : List String} {typed : List UInt8} {b : Board}
    (h : b.AtRawPrompt log typed) (openFile : Option (String × List UInt8))
    (files : List (String × List UInt8)) : Board.AtRawPrompt log typed { b with openFile, files } :=
  ⟨h.connected, h.mode, h.running, h.typed, h.outbox, h.programs⟩

/-- **A program that consists of statements about files is carried out**, and prints nothing. -/
theorem exec_statements {log : List String} {b : Board} (h : b.AtRawPrompt log []) {code : String}
    (htypeable : ∀ c ∈ code.toList, 4 < c.toNat) {statements : List FileStatement}
    (hcode : fileStatements? code = some statements) {openFile : Option (String × List UInt8)}
    {files : List (String × List UInt8)}
    (hrun : ∀ b' : Board, b'.openFile = b.openFile → b'.files = b.files →
      b'.runFileStatements statements = (.ok (), { b' with openFile, files })) (timeout : Nat) :
    (RawMode.exec timeout code : Operation Board SessionError String).outcome b =
      (.ok "", { b with openFile, files }) := by
  have htyped : Board.AtRawPrompt log (utf8 code).reverse { b with typed := (utf8 code).reverse } :=
    ⟨h.connected, h.mode, h.running, rfl, h.outbox, h.programs⟩
  have hstart : Board.receive { b with typed := (utf8 code).reverse } [ctrlD] =
      { { b with openFile, files } with outbox := accepted ++ ctrlD :: finishMark } := by
    have htext : utf8Text (utf8 code).reverse.reverse = code := by
      rw [List.reverse_reverse, utf8Text_utf8]
    have hbegun : ({ b with typed := [] } : Board).emit accepted = { b with outbox := accepted } := by
      rw [emit, ← h.typed, h.outbox, List.nil_append]
    rw [receive_cons, if_pos h.connected, take_ctrlD htyped, execute, htext, hcode]
    dsimp only
    rw [hbegun, hrun { b with outbox := accepted } rfl rfl]
    rfl
  have hupload := upload_accepted h htypeable hstart timeout
  -- the whole answer has been read by then
  have hread : (ctrlD :: finishMark).drop (answerChunk - accepted.length) = b.outbox := by
    rw [h.outbox]
    rfl
  rw [hread] at hupload
  have hreply : (RawMode.ofLink (readMoreUntil ((ctrlD :: finishMark).take (answerChunk - accepted.length))
      finishMark timeout) : Operation Board SessionError (List UInt8)).outcome { b with openFile, files } =
        (.ok (ctrlD :: finishMark), { b with openFile, files }) :=
    Operation.mapError_of_ok (readMoreUntil_of_contains (by decide) timeout _)
  have hprinted : RawMode.outcomeOf (ctrlD :: finishMark) = .ok "" := by decide +kernel
  rw [RawMode.exec, Operation.bind_of_ok hupload, Operation.bind_of_ok hreply, Operation.outcome_of, hprinted]

/-! ## Whole files -/

/-- A text that is put between two others can be typed if all of them can. -/
theorem typeable_between {first middle last : String} (hfirst : ∀ c ∈ first.toList, 4 < c.toNat)
    (hmiddle : ∀ c ∈ middle.toList, 4 < c.toNat) (hlast : ∀ c ∈ last.toList, 4 < c.toNat) :
    ∀ c ∈ (first ++ middle ++ last).toList, 4 < c.toNat := by
  intro c hc
  rw [String.toList_append, String.toList_append, List.mem_append, List.mem_append] at hc
  rcases hc with (hc | hc) | hc
  · exact hfirst c hc
  · exact hmiddle c hc
  · exact hlast c hc

/-- **The pieces of a file are joined in order**, and become the file when it is closed. -/
theorem execAll_appends {log : List String} {b : Board} (h : b.AtRawPrompt log []) {name : String}
    {written : List UInt8} (hopen : b.openFile = some (name, written)) (ps : List (List UInt8))
    (timeout : Nat) :
    (RawMode.execAll timeout (ps.map (fun p => "w(u('" ++ hexBytes p ++ "'))") ++ ["f.close()"]) :
      Operation Board SessionError Unit).outcome b =
        (.ok (), ({ b with openFile := none } : Board).putFile name (written ++ ps.flatten)) := by
  induction ps generalizing b written with
  | nil =>
    let closed := ({ b with openFile := none } : Board).putFile name written
    have hclose : fileStatements? "f.close()" = some [.close] := by decide +kernel
    have hrun : ∀ b' : Board, b'.openFile = b.openFile → b'.files = b.files →
        b'.runFileStatements [.close] = (.ok (), { b' with openFile := none, files := closed.files }) := by
      intro b' hopen' hfiles
      rw [runFileStatements, hopen', hopen]
      simp only [closed, putFile, hfiles]
      rfl
    rw [List.flatten_nil, List.append_nil]
    exact Operation.bind_of_ok (exec_statements h (List.all_iff_forall_prop.mp (by decide)) hclose hrun
      timeout)
  | cons p r ih =>
    have hcode : ("w(u('" ++ hexBytes p ++ "'))").toList = phrase "w(u('" "'))" (hexBytes p).toList := by
      rw [String.toList_append, String.toList_append, phrase]
    have htypeable : ∀ c ∈ ("w(u('" ++ hexBytes p ++ "'))").toList, 4 < c.toNat :=
      typeable_between (List.all_iff_forall_prop.mp (by decide)) (fun _ hc => (typeable_hexBytes hc).1)
        (List.all_iff_forall_prop.mp (by decide))
    have hrun : ∀ b' : Board, b'.openFile = b.openFile → b'.files = b.files →
        b'.runFileStatements [.append (hexBytes p).toList] =
          (.ok (), { b' with openFile := some (name, written ++ p), files := b.files }) := by
      intro b' hopen' hfiles
      rw [runFileStatements, hopen', hopen]
      dsimp only
      rw [unhex?_hexBytes, ← hfiles]
      rfl
    have hexec := exec_statements h htypeable (fileStatements?_write p hcode) hrun timeout
    have hrest := ih (h.with_files (some (name, written ++ p)) b.files) rfl
    rw [List.append_assoc, ← List.flatten_cons] at hrest
    exact (Operation.bind_of_ok hexec).trans hrest

/-- **A file is replaced by what was sent**, whatever bytes that is. -/
theorem writeFile_connected {log : List String} {b : Board} (h : b.AtRawPrompt log []) {name : String}
    (hname : ∀ c ∈ name.toList, 4 < c.toNat ∧ c ≠ '\n') (contents : List UInt8) (timeout : Nat) :
    (RawMode.writeFile timeout name contents : Operation Board SessionError Unit).outcome b =
      (.ok (), ({ b with openFile := none } : Board).putFile name contents) := by
  let code := "f=open('" ++ name ++ "','wb')\nw=f.write\nimport binascii\nu=binascii.unhexlify"
  have hcode : code.toList = phrase "f=open('" "','wb')" name.toList ++ '\n' :: preparations.toList := by
    have hlast : "','wb')\nw=f.write\nimport binascii\nu=binascii.unhexlify".toList =
        "','wb')".toList ++ '\n' :: preparations.toList := rfl
    rw [String.toList_append, String.toList_append, hlast, phrase, List.append_assoc]
    simp only [List.append_assoc]
  have htypeable : ∀ c ∈ code.toList, 4 < c.toNat :=
    typeable_between (List.all_iff_forall_prop.mp (by decide)) (fun c hc => (hname c hc).1)
      (List.all_iff_forall_prop.mp (by decide))
  have hrun : ∀ b' : Board, b'.openFile = b.openFile → b'.files = b.files →
      b'.runFileStatements [.openFor name, .nothing, .nothing, .nothing] =
        (.ok (), { b' with openFile := some (name, []), files := b.files }) := by
    intro b' _ hfiles
    rw [← hfiles]
    rfl
  have hopen := exec_statements h htypeable
    (fileStatements?_open (fun hmem => (hname _ hmem).2 rfl) hcode) hrun timeout
  have hrest := execAll_appends (h.with_files (some (name, [])) b.files) rfl
    (piecesOf RawMode.filePiece contents) timeout
  rw [flatten_piecesOf (by decide), List.nil_append] at hrest
  exact (Operation.bind_of_ok hopen).trans hrest

/-! ## The files of a board -/

theorem file?_putFile (b : Board) (name : String) (contents : List UInt8) :
    (b.putFile name contents).file? name = some contents := by
  rw [file?, putFile, List.lookup_cons_self]

/-- Writing a file leaves every other one as it is. -/
theorem file?_putFile_of_ne (b : Board) {name other : String} (h : other ≠ name) (contents : List UInt8) :
    (b.putFile name contents).file? other = b.file? other := by
  have hfilter : ∀ files : List (String × List UInt8),
      (files.filter fun f => f.1 != name).lookup other = files.lookup other := by
    intro files
    induction files with
    | nil => rfl
    | cons f r ih =>
      by_cases hf : f.1 = name
      · have hne : (other == f.1) = false := by
          rw [hf]
          exact beq_false_of_ne h
        rw [List.filter_cons_of_neg (by simp [hf]), ih, List.lookup_cons, hne]
      · rw [List.filter_cons_of_pos (by simpa using hf), List.lookup_cons, List.lookup_cons, ih]
  have hne : (other == name) = false := beq_false_of_ne h
  rw [file?, putFile, List.lookup_cons, hne]
  exact hfilter b.files

/-- **A file arrives byte for byte.**

For every board whose raw prompt is idle, with nothing typed there and nothing left to say, every name
without control characters of the prompt and without line ends, and all contents: the file is written, and
then holds exactly the contents. Every other file and the programs that have run are as before, and the raw
prompt is idle again. -/
theorem writeFile_exact {b : Board} (h : b.AtRawPrompt b.programs []) {name : String}
    (hname : ∀ c ∈ name.toList, 4 < c.toNat ∧ c ≠ '\n') (contents : List UInt8) (timeout : Nat) :
    ∃ b', (RawMode.writeFile timeout name contents : Operation Board SessionError Unit).outcome b =
        (.ok (), b') ∧
      b'.file? name = some contents ∧ (∀ other, other ≠ name → b'.file? other = b.file? other) ∧
      b'.programs = b.programs ∧ b'.AtRawPrompt b.programs [] := by
  refine ⟨_, writeFile_connected h hname contents timeout, file?_putFile _ _ _, fun other hother => ?_, rfl, ?_⟩
  · rw [file?_putFile_of_ne _ hother]
    rfl
  · exact ⟨h.connected, h.mode, h.running, h.typed, h.outbox, rfl⟩

/-- A board at its idle raw prompt that holds two files, and has begun to write another one. -/
def idleBoard : Board :=
  { connected := true, mode := .interpreter true, files := [("main.py", [1]), ("a b", [2, 3])]
    openFile := some ("c", [4]), programs := ["f()"] }

/-- Contents with all control characters, which fill one piece and begin another. -/
def pieceAndMore : List UInt8 := (List.range 129).map UInt8.ofNat

theorem writeFile_exact_replaces :
    ∃ b', (RawMode.writeFile 1000 "a b" pieceAndMore : Operation Board SessionError Unit).outcome idleBoard =
        (.ok (), b') ∧
      b'.file? "a b" = some pieceAndMore ∧ b'.file? "main.py" = some [1] ∧ b'.file? "c" = none ∧
      b'.programs = ["f()"] := by
  have hidle : idleBoard.AtRawPrompt idleBoard.programs [] := ⟨rfl, rfl, rfl, rfl, rfl, rfl⟩
  have hname : ∀ c ∈ "a b".toList, 4 < c.toNat ∧ c ≠ '\n' := List.all_iff_forall_prop.mp (by decide)
  obtain ⟨b', hwrite, hfile, hothers, hprograms, -⟩ := writeFile_exact hidle hname pieceAndMore 1000
  exact ⟨b', hwrite, hfile, hothers "main.py" (by decide), hothers "c" (by decide), hprograms⟩

end Board

end BlockBoard
