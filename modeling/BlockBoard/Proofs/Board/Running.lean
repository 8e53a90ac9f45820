import BlockBoard.Proofs.Board.Flashing
import BlockBoard.Proofs.Board.Keeping
import BlockBoard.Proofs.Link.Pattern
import BlockBoard.Proofs.Text.Lines
import BlockBoard.Proofs.Text.Utf8
import BlockBoard.Repl.RawMode
/-!
# Running a program on a simulated board

From whatever prompt the interpreter is at, with whatever has been typed there, and whether or not a
program runs: a program that is sent as the raw prompt wants it arrives as it is.

- `Board.AtPrompt`: the interpreter listens, and has been given some programs so far.
- `Board.AtRawPrompt`: it does so at its raw prompt, where a text has been typed.
- `Board.receive_typed_eq`: bytes that are no control characters are typed, one after the other.
- `Board.enter_connected`: the raw prompt is entered from everywhere.
- `Board.Endless`: texts that can be typed and are programs that never end.
- `Board.upload_accepted`: a text that the board takes arrives as it is.
- `Board.upload_endless`: **a program that never ends is uploaded as it is, and runs**.
-/

namespace BlockBoard

namespace Board

/-! ## At a prompt -/

/-- The interpreter of a connected board listens, and these are the programs that it has been given. -/
structure AtPrompt (log : List String) (b : Board) : Prop where
  connected : b.connected = true
  interpreter : b.AtInterpreter
  programs : b.programs = log

/-- Only the end of a text adds a program. -/
theorem AtPrompt.take {log : List String} {b : Board} (h : b.AtPrompt log) {byte : UInt8}
    (hbyte : byte ≠ ctrlD) : (b.take byte).AtPrompt log := by
  have hprograms : (b.take byte).programs = log := (kept_take hbyte).programs.trans h.programs
  obtain ⟨raw, hmode⟩ := h.interpreter
  unfold Board.take at hprograms ⊢
  cases raw with
  | false =>
    obtain ⟨huntouched, hinterpreter⟩ := receiveAtPrompt_untouched h.interpreter byte
    rw [hmode] at hprograms ⊢
    exact ⟨huntouched.connected.trans h.connected, hinterpreter, hprograms⟩
  | true =>
    obtain ⟨huntouched, hinterpreter⟩ := receiveAtRawPrompt_untouched h.interpreter byte
    rw [hmode] at hprograms ⊢
    exact ⟨huntouched.connected.trans h.connected, hinterpreter, hprograms⟩

theorem AtPrompt.receive {log : List String} {b : Board} (h : b.AtPrompt log) {bs : List UInt8}
    (hbs : ctrlD ∉ bs) : (b.receive bs).AtPrompt log := by
  induction bs generalizing b with
  | nil => exact h
  | cons byte r ih =>
    rw [List.mem_cons, not_or] at hbs
    rw [receive_cons, if_pos h.connected]
    exact ih (h.take fun heq => hbs.1 heq.symm) hbs.2

/-- Nothing runs after an interrupt, whichever prompt it reaches. -/
theorem running_take_ctrlC {b : Board} (h : b.AtInterpreter) : (b.take ctrlC).running = false := by
  obtain ⟨raw, hmode⟩ := h
  unfold Board.take
  cases hrunning : b.running with
  | false => cases raw <;> simp [hmode, receiveAtPrompt, receiveAtRawPrompt, hrunning, emit]
  | true => cases raw <;> simp [hmode, receiveAtPrompt, receiveAtRawPrompt, hrunning, emit]

/-- The raw prompt of a connected board on which nothing runs. A text has been typed there, the latest byte
first, and the board has nothing left to say. -/
structure AtRawPrompt (log : List String) (typed : List UInt8) (b : Board) : Prop where
  connected : b.connected = true
  mode : b.mode = .interpreter true
  running : b.running = false
  typed : b.typed = typed
  outbox : b.outbox = []
  programs : b.programs = log

/-- **Bytes that are no control characters of the prompt are typed**, and nothing else happens. -/
theorem receive_typed_eq {log : List String} {typed : List UInt8} {b : Board}
    (h : b.AtRawPrompt log typed) {bs : List UInt8} (hbs : ∀ byte ∈ bs, 4 < byte.toNat) :
    b.receive bs = { b with typed := bs.reverse ++ typed } := by
  induction bs generalizing b typed with
  | nil =>
    rw [List.reverse_nil, List.nil_append, ← h.typed]
    rfl
  | cons byte r ih =>
    obtain ⟨hbyte, hr⟩ := List.forall_mem_cons.mp hbs
    have hplain : ∀ c : UInt8, c.toNat ≤ 4 → byte ≠ c := by
      rintro c hc rfl
      omega
    have htake : b.take byte = { b with typed := byte :: b.typed } := by
      have hquiet : ¬ b.running = true := by simp [h.running]
      unfold Board.take
      split
      · rename_i hmode
        cases h.mode.symm.trans hmode
      · rename_i hmode
        cases h.mode.symm.trans hmode
      · rw [receiveAtRawPrompt, if_neg (hplain ctrlC (by decide)), if_neg hquiet,
          if_neg (hplain ctrlA (by decide)), if_neg (hplain ctrlB (by decide)),
          if_neg (hplain ctrlD (by decide))]
    have hnext : Board.AtRawPrompt log (byte :: typed) { b with typed := byte :: b.typed } :=
      ⟨h.connected, h.mode, h.running, congrArg (byte :: ·) h.typed, h.outbox, h.programs⟩
    rw [receive_cons, if_pos h.connected, htake, ih hnext hr, List.reverse_cons, List.append_assoc]
    rfl

theorem receive_typed {log : List String} {typed : List UInt8} {b : Board}
    (h : b.AtRawPrompt log typed) {bs : List UInt8} (hbs : ∀ byte ∈ bs, 4 < byte.toNat) :
    (b.receive bs).AtRawPrompt log (bs.reverse ++ typed) := by
  rw [receive_typed_eq h hbs]
  exact ⟨h.connected, h.mode, h.running, rfl, h.outbox, h.programs⟩

/-! ## Waiting -/

/-- What is waited for and has been said by then is read at once, with what else fits a read. -/
theorem readUntil_said {b : Board} {pattern : List UInt8} (hpattern : containsBytes [] pattern = false)
    (h : containsBytes (b.outbox.take answerChunk) pattern = true) (timeout : Nat) :
    (readUntil pattern timeout).outcome b =
      (.ok (b.outbox.take answerChunk), { b with outbox := b.outbox.drop answerChunk }) := by
  obtain ⟨byte, r, hsaid⟩ : ∃ byte r, b.outbox.take answerChunk = byte :: r := by
    refine List.exists_cons_of_ne_nil fun hnil => ?_
    rw [hnil, hpattern] at h
    cases h
  have hne : ¬ b.outbox.isEmpty = true := by
    intro hempty
    rw [List.isEmpty_iff.mp hempty] at hsaid
    cases hsaid
  show readUntilWithin pattern timeout (Transport.backlog b + 1) [] b = _
  rw [readUntilWithin, hpattern, if_neg Bool.false_ne_true, read_eq, if_neg hne, hsaid]
  dsimp only
  rw [List.nil_append, ← hsaid]
  cases Transport.backlog b with
  | zero => rw [readUntilWithin, if_pos h]
  | succ n => rw [readUntilWithin, if_pos h]

/-- An interrupt reaches every connected board, and what the board says to it is read and forgotten. -/
theorem interrupt_connected {b : Board} (h : b.connected = true) :
    (RawMode.interrupt : Operation Board SessionError Unit).outcome b =
      (.ok (), { b.receive [carriageReturn, ctrlC, ctrlC] with outbox := [] }) := by
  have huntouched : Untouched b (b.receive [carriageReturn, ctrlC, ctrlC]) :=
    untouched_receive (by decide)
  obtain ⟨n, hdrain⟩ := drain_connected (huntouched.connected.trans h)
  exact Operation.mapError_of_ok
    ((Operation.bind_of_ok (outcome_send h _)).trans (Operation.bind_of_ok hdrain))

/-- It reaches no other board. -/
theorem connected_of_interrupt {b b' : Board}
    (h : (RawMode.interrupt : Operation Board SessionError Unit).outcome b = (.ok (), b')) :
    b.connected = true := by
  by_contra hnot
  have hsend : (send [carriageReturn, ctrlC, ctrlC] : Operation Board LinkError Unit).outcome b =
      (.error .closed, b) := (write_eq _ b).trans (if_neg hnot)
  have hfails : (RawMode.interrupt : Operation Board SessionError Unit).outcome b =
      (.error (.link .closed), b) := by
    rw [RawMode.interrupt, RawMode.ofLink, Operation.outcome_mapError, Operation.bind_of_error hsend]
    rfl
  cases hfails.symm.trans h

/-- The way to the raw prompt from either prompt, when nothing runs. The friendly prompt echoes what stands
before it. -/
theorem receive_ctrlA {log : List String} {b : Board} (h : b.AtPrompt log) (hrunning : b.running = false)
    (houtbox : b.outbox = []) :
    ∃ before, (before = [] ∨ before = [carriageReturn]) ∧
      b.receive [carriageReturn, ctrlA] = { b with
        mode := .interpreter true, typed := [], outbox := before ++ lineEnd ++ rawBanner } := by
  obtain ⟨raw, hmode⟩ := h.interpreter
  have hconnected := h.connected
  rcases b with ⟨⟩
  dsimp only at hmode hconnected hrunning houtbox
  subst hmode hconnected hrunning houtbox
  cases raw with
  | false => exact ⟨[carriageReturn], .inr rfl, rfl⟩
  | true => exact ⟨[], .inl rfl, rfl⟩

/-- **The raw prompt is entered from everywhere**: a program that runs is stopped, and what was typed or
said before is forgotten. -/
theorem enter_connected {log : List String} {b : Board} (h : b.AtPrompt log) (timeout : Nat) :
    ∃ b', (RawMode.enter timeout : Operation Board SessionError Unit).outcome b = (.ok (), b') ∧
      b'.AtRawPrompt log [] := by
  -- the interrupt: whatever ran has stopped, and what it has said is read and forgotten
  let told : Board := b.receive [carriageReturn, ctrlC, ctrlC]
  have htold : told.AtPrompt log := h.receive (by decide)
  have hstopped : told.running = false := by
    have hbefore : (b.receive [carriageReturn, ctrlC]).AtPrompt log := h.receive (by decide)
    have hlast : told = (b.receive [carriageReturn, ctrlC]).take ctrlC := by
      have hsplit := receive_append b [carriageReturn, ctrlC] [ctrlC]
      rw [receive_cons, if_pos hbefore.connected] at hsplit
      exact hsplit
    rw [hlast]
    exact running_take_ctrlC hbefore.interpreter
  let heard : Board := { told with outbox := [] }
  have hinterrupt : (RawMode.interrupt : Operation Board SessionError Unit).outcome b =
      (.ok (), heard) := interrupt_connected h.connected
  -- the way to the raw prompt, from either prompt
  obtain ⟨before, hbefore, hentered⟩ := receive_ctrlA (b := heard)
    ⟨htold.connected, htold.interpreter, htold.programs⟩ hstopped rfl
  let banner := before ++ lineEnd ++ rawBanner
  have hbanner : banner.take answerChunk = banner ∧ banner.drop answerChunk = [] ∧
      containsBytes banner rawBanner = true := by
    rcases hbefore with rfl | rfl <;> decide +kernel
  have hread : (readUntil rawBanner timeout).outcome (heard.receive [carriageReturn, ctrlA]) =
      (.ok banner, { heard.receive [carriageReturn, ctrlA] with outbox := [] }) := by
    have houtbox : (heard.receive [carriageReturn, ctrlA]).outbox = banner := by rw [hentered]
    have hpattern : containsBytes [] rawBanner = false := by decide +kernel
    have hsaid := readUntil_said (b := heard.receive [carriageReturn, ctrlA]) hpattern
      (by rw [houtbox, hbanner.1]; exact hbanner.2.2) timeout
    rwa [houtbox, hbanner.1, hbanner.2.1] at hsaid
  refine ⟨{ heard.receive [carriageReturn, ctrlA] with outbox := [] }, ?_, ?_⟩
  · refine (Operation.bind_of_ok hinterrupt).trans (Operation.mapError_of_ok ?_)
    exact (Operation.bind_of_ok (outcome_send (b := heard) htold.connected _)).trans
      (Operation.bind_of_ok hread)
  · rw [hentered]
    exact ⟨htold.connected, rfl, hstopped, rfl, rfl, htold.programs⟩

/-! ## Typing a program -/

theorem flatten_piecesWithin {α : Type} {size : Nat} (hsize : 0 < size) {n : Nat} {xs : List α}
    (h : xs.length ≤ n) : (piecesWithin size n xs).flatten = xs := by
  induction n generalizing xs with
  | zero => rw [List.length_eq_zero_iff.mp (Nat.le_zero.mp h)]; rfl
  | succ n ih =>
    cases xs with
    | nil => rfl
    | cons x r =>
      have hrest : ((x :: r).drop size).length ≤ n := by
        rw [List.length_drop]
        omega
      rw [piecesWithin, List.flatten_cons, ih hrest, List.take_append_drop]

/-- Nothing is lost or added when a list is cut into pieces. -/
theorem flatten_piecesOf {α : Type} {size : Nat} (hsize : 0 < size) (xs : List α) :
    (piecesOf size xs).flatten = xs :=
  flatten_piecesWithin hsize (Nat.le_refl _)

/-- Pieces that are sent one after the other arrive as one. -/
theorem outcome_sendAll {log : List String} {typed : List UInt8} {b : Board}
    (h : b.AtRawPrompt log typed) {ps : List (List UInt8)}
    (hps : ∀ p ∈ ps, ∀ byte ∈ p, 4 < byte.toNat) :
    (RawMode.sendAll ps : Operation Board LinkError Unit).outcome b = (.ok (), b.receive ps.flatten) := by
  induction ps generalizing b typed with
  | nil => rfl
  | cons p r ih =>
    obtain ⟨hp, hr⟩ := List.forall_mem_cons.mp hps
    rw [RawMode.sendAll, Operation.bind_of_ok (outcome_send h.connected p),
      ih (receive_typed h hp) hr, List.flatten_cons, receive_append]

/-! ## Programs that run -/

/-- A text that can be typed at the raw prompt, and is a program that never ends. -/
structure Endless (source : String) : Prop where
  typeable : ∀ c ∈ source.toList, 4 < c.toNat
  /-- It does not consist of the statements about files that the board carries out by itself. -/
  program : fileStatements? source = none
  loops : occursIn "while True:".toList source.toList = true

/-- What a program prints as soon as it starts. -/
def printed (source : String) : List UInt8 :=
  (printedTexts source).flatMap fun t => utf8 (String.ofList t) ++ lineEnd

/-- A connected board that runs the latest of the programs that it has been given. It never says that a text
has ended. -/
structure Runs (log : List String) (b : Board) : Prop where
  connected : b.connected = true
  interpreter : b.AtInterpreter
  running : b.running = true
  programs : b.programs = log
  quiet : ctrlD ∉ b.outbox

/-- The bytes of a text without control characters of the prompt are none either. -/
theorem toNat_of_mem_utf8 {s : String} (hs : ∀ c ∈ s.toList, 4 < c.toNat) {byte : UInt8}
    (h : byte ∈ utf8 s) : 4 < byte.toNat := by
  obtain ⟨c, hc, hbyte⟩ := List.mem_flatMap.mp h
  have hlarge := hs c hc
  rcases toNat_of_mem_utf8Char hbyte with heq | hlarger <;> omega

theorem mem_of_mem_linesOf {s l : List Char} {c : Char} (hl : l ∈ linesOf s) (hc : c ∈ l) : c ∈ s := by
  rcases List.mem_append.mp hl with hl | hl
  · obtain ⟨p, hp, rfl⟩ := List.mem_map.mp hl
    refine mem_of_mem_piecesAt (List.mem_of_mem_dropLast hp) ?_
    unfold dropReturn at hc
    split at hc
    · exact List.mem_of_mem_dropLast hc
    · exact hc
  · split at hl
    · cases hl
    · rename_i hfull
      obtain rfl := List.mem_singleton.mp hl
      cases hlast : (piecesAt '\n' s).getLast? with
      | none =>
        rw [hlast] at hc
        cases hc
      | some p =>
        rw [hlast] at hc
        exact mem_of_mem_piecesAt (List.mem_of_getLast? hlast) hc

theorem mem_of_mem_between? {first last : String} {line t : List Char} {c : Char}
    (h : between? first last line = some t) (hc : c ∈ t) : c ∈ line := by
  unfold between? at h
  dsimp only at h
  split at h
  · cases h
    exact List.mem_of_mem_drop (List.mem_of_mem_take hc)
  · cases h

/-- Nothing that a program prints ends a text. -/
theorem ctrlD_not_mem_printed {source : String} (h : ∀ c ∈ source.toList, 4 < c.toNat) :
    ctrlD ∉ printed source := by
  intro hmem
  obtain ⟨t, ht, hbyte⟩ := List.mem_flatMap.mp hmem
  obtain ⟨l, hl, hbetween⟩ := List.mem_filterMap.mp ht
  rcases List.mem_append.mp hbyte with hbyte | hbyte
  · refine absurd (toNat_of_mem_utf8 (fun c hc => h c ?_) hbyte) (by decide)
    rw [String.toList_ofList] at hc
    exact mem_of_mem_linesOf hl (mem_of_mem_between? hbetween hc)
  · exact absurd hbyte (by decide)

/-- The end of a text starts what has been typed. -/
theorem take_ctrlD {log : List String} {typed : List UInt8} {b : Board} (h : b.AtRawPrompt log typed) :
    b.take ctrlD = b.execute := by
  have hquiet : ¬ b.running = true := by simp [h.running]
  unfold Board.take
  rw [h.mode]
  dsimp only
  rw [receiveAtRawPrompt, if_neg (by decide), if_neg hquiet, if_neg (by decide), if_neg (by decide),
    if_pos rfl]

/-- A program that has been typed starts at the end of its text. -/
theorem receive_ctrlD {log : List String} {source : String} (hs : Endless source) {b : Board}
    (h : b.AtRawPrompt log (utf8 source).reverse) :
    b.receive [ctrlD] = { b with
      typed := [], outbox := accepted ++ printed source, running := true
      programs := log ++ [source] } := by
  have hcode : utf8Text b.typed.reverse = source := by rw [h.typed, List.reverse_reverse, utf8Text_utf8]
  rw [receive_cons, if_pos h.connected, take_ctrlD h, execute, hcode, hs.program]
  dsimp only
  rw [startProgram]
  dsimp only
  rw [hs.loops, if_pos rfl]
  simp only [emit, h.outbox, h.programs, receive, List.nil_append]
  rfl

/-- What follows the acceptance of a program in a reply. -/
theorem afterAcceptance_append (r : List UInt8) : RawMode.afterAcceptance (accepted ++ r) = r := by
  have hfind : findBytes? accepted (accepted ++ r) = some 0 := by
    show (if accepted.isPrefixOf (accepted ++ r) then some 0 else _) = some 0
    rw [if_pos (List.isPrefixOf_iff_prefix.mpr (List.prefix_append _ _))]
  rw [RawMode.afterAcceptance, hfind]
  dsimp only
  rw [Nat.zero_add, List.drop_left]

/-- A text arrives as it is. If the board says first that it has taken it, then what it says next has begun
to be read. -/
theorem upload_accepted {log : List String} {b b' : Board} (h : b.AtRawPrompt log []) {source : String}
    (hsource : ∀ c ∈ source.toList, 4 < c.toNat) {said : List UInt8}
    (hstart : Board.receive { b with typed := (utf8 source).reverse } [ctrlD] =
      { b' with outbox := accepted ++ said }) (timeout : Nat) :
    (RawMode.upload timeout (utf8 source) : Operation Board SessionError _).outcome b =
      (.ok (said.take (answerChunk - accepted.length)),
        { b' with outbox := said.drop (answerChunk - accepted.length) }) := by
  have hbytes : ∀ p ∈ piecesOf RawMode.uploadPiece (utf8 source), ∀ byte ∈ p, 4 < byte.toNat := by
    intro p hp byte hbyte
    refine toNat_of_mem_utf8 hsource ?_
    have hsize : 0 < RawMode.uploadPiece := by decide
    rw [← flatten_piecesOf hsize (utf8 source)]
    exact List.mem_flatten_of_mem hp hbyte
  -- the text arrives, and its end starts it
  have htyped : b.receive (utf8 source) = { b with typed := (utf8 source).reverse } := by
    have hreceive := receive_typed_eq h fun byte hbyte => toNat_of_mem_utf8 hsource hbyte
    rwa [List.append_nil] at hreceive
  have hsend : (RawMode.sendAll (piecesOf RawMode.uploadPiece (utf8 source)) :
      Operation Board LinkError Unit).outcome b = (.ok (), { b with typed := (utf8 source).reverse }) := by
    rw [outcome_sendAll h hbytes, flatten_piecesOf (by decide), htyped]
  have hend : (send [ctrlD] : Operation Board LinkError Unit).outcome
      { b with typed := (utf8 source).reverse } = (.ok (), { b' with outbox := accepted ++ said }) := by
    rw [outcome_send (b := { b with typed := (utf8 source).reverse }) h.connected, hstart]
  -- the acceptance is what the board says first
  have htake : (accepted ++ said).take answerChunk =
      accepted ++ said.take (answerChunk - accepted.length) := by
    rw [List.take_append]
    rfl
  have hdrop : (accepted ++ said).drop answerChunk = said.drop (answerChunk - accepted.length) := by
    rw [List.drop_append]
    rfl
  have hpattern : containsBytes [] accepted = false := by decide
  have hread := readUntil_said (b := { b' with outbox := accepted ++ said }) hpattern
    (by rw [htake]; exact containsBytes_iff.mpr (List.prefix_append _ _).isInfix) timeout
  dsimp only at hread
  rw [htake, hdrop] at hread
  refine Operation.mapError_of_ok ?_
  rw [Operation.bind_of_ok hsend, Operation.bind_of_ok hend, Operation.bind_of_ok hread,
    afterAcceptance_append]
  rfl

/-- **A program that never ends is uploaded as it is, and runs.** It changes no file. -/
theorem upload_endless {log : List String} {source : String} (hs : Endless source) {b : Board}
    (h : b.AtRawPrompt log []) (timeout : Nat) :
    ∃ begun b', (RawMode.upload timeout (utf8 source) : Operation Board SessionError _).outcome b =
        (.ok begun, b') ∧ b'.Runs (log ++ [source]) ∧ ctrlD ∉ begun ∧ b'.files = b.files := by
  have htyped : Board.AtRawPrompt log (utf8 source).reverse { b with typed := (utf8 source).reverse } :=
    ⟨h.connected, h.mode, h.running, rfl, h.outbox, h.programs⟩
  let started : Board := { b with typed := [], running := true, programs := log ++ [source] }
  have hstart : Board.receive { b with typed := (utf8 source).reverse } [ctrlD] =
      { started with outbox := accepted ++ printed source } := receive_ctrlD hs htyped
  have hupload := upload_accepted h hs.typeable hstart timeout
  have hprinted := ctrlD_not_mem_printed hs.typeable
  exact ⟨_, _, hupload, ⟨h.connected, ⟨true, h.mode⟩, rfl, rfl,
    fun hmem => hprinted (List.mem_of_mem_drop hmem)⟩, fun hmem => hprinted (List.mem_of_mem_take hmem), rfl⟩

end Board

end BlockBoard
