import BlockBoard.Proofs.Link.Arriving
import BlockBoard.Proofs.Loader.Progress
import BlockBoard.Proofs.Text.Lines
import BlockBoard.Proofs.Text.Utf8
import BlockBoard.Repl.RawMode
/-!
# Running a program to its end

The raw prompt answers a program with an acceptance, with what the program prints, and with what it raises,
each of the two up to a control character, and then it shows its mark. Two searches go over the answer, one
after the other: the first may read more than the acceptance, and hands on what it has read.

- `RawMode.reply`: the answer to a program.
- `RawMode.afterAcceptance_of_prefix`: what the first search hands on.
- `RawMode.nothing_after_finishMark`: the second search comes to its end with the answer, and not before.
- `RawMode.outcomeOf_body`: how the answer reads.
- `RawMode.exec_answered`: **a program comes to what the answer says, however it is cut**.
-/

namespace BlockBoard

/-- Nothing is left of a text without its blanks exactly if there is nothing else in it. -/
theorem isEmpty_trimBlank_iff {s : String} :
    (trimBlank s).isEmpty = true ↔ ∀ c ∈ s.toList, isBlank c = true := by
  have hempty : ∀ cs : List Char, dropBlanks cs = [] ↔ ∀ c ∈ cs, isBlank c = true := by
    intro cs
    rw [dropBlanks, dropBlankEnd, List.reverse_eq_nil_iff, List.dropWhile_eq_nil_iff]
    constructor
    · intro h c hc
      rw [← List.takeWhile_append_dropWhile (p := isBlank) (l := cs)] at hc
      rcases List.mem_append.mp hc with hc | hc
      · exact List.mem_takeWhile_imp hc
      · exact h c (List.mem_reverse.mpr hc)
    · intro h c hc
      exact h c ((List.dropWhile_sublist isBlank).subset (List.mem_reverse.mp hc))
  rw [trimBlank, String.isEmpty_iff, ← hempty]
  constructor
  · intro h
    simpa using congrArg String.toList h
  · intro h
    rw [h]

namespace RawMode

/-! ## The answer to a program -/

/-- What the raw prompt says of a program after its acceptance. -/
def body (printed raised : List UInt8) : List UInt8 := printed ++ ctrlD :: (raised ++ finishMark)

/-- What the raw prompt answers to a program. -/
def reply (printed raised : List UInt8) : List UInt8 := accepted ++ body printed raised

/-- An acceptance that has been read stands where it stands first. What has been read after it is handed
on. -/
theorem afterAcceptance_of_prefix {noise rest bs : List UInt8}
    (hfirst : ∀ j < noise.length, ¬ accepted <+: (noise ++ (accepted ++ rest)).drop j)
    (hbs : bs <+: noise ++ (accepted ++ rest)) (haccepted : accepted <:+: bs) :
    bs = noise ++ (accepted ++ afterAcceptance bs) := by
  -- it has been read whole
  obtain ⟨before, after, heq⟩ := haccepted
  have hplace : noise.length ≤ before.length := by
    by_contra hless
    refine hfirst before.length (Nat.not_le.mp hless) ?_
    have hstands : accepted <+: bs.drop before.length := by
      rw [← heq, List.append_assoc, List.drop_left]
      exact List.prefix_append _ _
    exact hstands.trans (hbs.drop before.length)
  have hlength : (noise ++ accepted).length ≤ bs.length := by
    rw [← heq]
    simp only [List.length_append]
    omega
  have hwhole : noise ++ accepted <+: noise ++ (accepted ++ rest) := by
    rw [← List.append_assoc]
    exact List.prefix_append _ _
  obtain ⟨begun, rfl⟩ := List.prefix_of_prefix_length_le hwhole hbs hlength
  -- it is found there
  have hfind : findBytes? accepted (noise ++ accepted ++ begun) = some noise.length := by
    rw [findBytes?_eq_some_iff]
    refine ⟨by simp, ?_, fun j hj hstands => hfirst j hj (hstands.trans (hbs.drop j))⟩
    rw [List.append_assoc, List.drop_left]
    exact List.prefix_append _ _
  have hdrop : (noise ++ accepted ++ begun).drop (noise.length + accepted.length) = begun := by
    rw [← List.length_append, List.drop_left]
  rw [afterAcceptance, hfind]
  dsimp only
  rw [hdrop, List.append_assoc]

section Body

variable {printed raised : List UInt8}

theorem piecesAt_body (hprinted : ctrlD ∉ printed) (hraised : ctrlD ∉ raised) :
    piecesAt ctrlD (body printed raised) = [printed, raised, [promptMark]] := by
  rw [body, piecesAt_line hprinted, finishMark, piecesAt_line hraised]
  rfl

/-- **The mark comes with the end of the answer**, and not before: neither what is printed nor what is raised
holds the first byte of it, and what is raised does not begin with the second one. -/
theorem nothing_after_finishMark (hprinted : ctrlD ∉ printed) (hraised : ctrlD ∉ raised)
    (hhead : raised.head? ≠ some promptMark) {bs rest : List UInt8} (hbs : bs ++ rest = body printed raised)
    (hmark : finishMark <:+: bs) : rest = [] := by
  obtain ⟨before, after, rfl⟩ := hmark
  have hcut : before ++ ctrlD :: (promptMark :: (after ++ rest)) = body printed raised := by
    rw [← hbs]
    simp [finishMark]
  have hpieces := piecesAt_body hprinted hraised
  rw [← hcut, piecesAt_append_cons] at hpieces
  obtain ⟨p, ps, hmore⟩ : ∃ p ps, piecesAt ctrlD (after ++ rest) = p :: ps :=
    List.exists_cons_of_ne_nil (piecesAt_ne_nil ctrlD (after ++ rest))
  have hlast : piecesAt ctrlD (promptMark :: (after ++ rest)) = (promptMark :: p) :: ps := by
    rw [piecesAt, if_neg (by decide), hmore]
  rw [hlast] at hpieces
  -- the mark ends one of the pieces, and only what ends the second one can be it
  rcases hbefore : piecesAt ctrlD before with _ | ⟨q, _ | ⟨q', qs⟩⟩
  · exact absurd hbefore (piecesAt_ne_nil ctrlD before)
  · rw [hbefore] at hpieces
    obtain ⟨-, hraised', -⟩ := by simpa using hpieces
    rw [← hraised'] at hhead
    exact absurd rfl hhead
  · rw [hbefore] at hpieces
    obtain ⟨-, -, hend⟩ : q = printed ∧ q' = raised ∧ qs ++ (promptMark :: p) :: ps = [[promptMark]] := by
      simpa using hpieces
    obtain ⟨rfl, rfl⟩ : p = [] ∧ ps = [] := by
      cases qs <;> simp_all
    have hnone : after ++ rest = [] := by
      rw [← intercalate_piecesAt ctrlD (after ++ rest), hmore]
      rfl
    exact (List.append_eq_nil_iff.mp hnone).2

/-- **How the answer reads.** -/
theorem outcomeOf_body (hprinted : ctrlD ∉ printed) (hraised : ctrlD ∉ raised) :
    outcomeOf (body printed raised) =
      if (trimBlank (utf8Text raised)).isEmpty then .ok (utf8Text printed)
      else .error (.fault (.raised (trimBlank (utf8Text raised)))) := by
  rw [outcomeOf, piecesAt_body hprinted hraised]
  rfl

end Body

/-! ## Running a program -/

section Exec

variable {σ : Type} [Transport σ]

/-- A program can be sent over a link, and then these bytes arrive, in whatever pieces. -/
inductive Answered (program : String) (bs : List UInt8) (s s' : σ) : Prop
  | mk {s₁ s₂ : σ} {ps : List (List UInt8)}
    (hsend : (sendAll (piecesOf uploadPiece (utf8 program)) : Operation σ LinkError Unit).outcome s =
      (.ok (), s₁))
    (hstart : (send [ctrlD] : Operation σ LinkError Unit).outcome s₁ = (.ok (), s₂))
    (hps : Arrives answerChunk ps s₂ s') (hcut : ps.flatten = bs)

section Answered

variable {program : String} {noise printed raised : List UInt8} {s s' : σ}

/-- The first search stops somewhere after the acceptance, and hands on what it has read after it. The rest
of the answer has still to come. -/
theorem Answered.upload (h : Answered program (noise ++ reply printed raised) s s')
    (hfinite : Transport.Finite σ)
    (hfirst : ∀ j < noise.length, ¬ accepted <+: (noise ++ reply printed raised).drop j) (timeout : Nat) :
    ∃ begun ps s₁, (RawMode.upload timeout (utf8 program)).outcome s = (.ok begun, s₁) ∧
      Arrives answerChunk ps s₁ s' ∧ begun ++ ps.flatten = body printed raised := by
  obtain @⟨s₁, s₂, ps, hsend, hstart, hps, hcut⟩ := h
  have haccepted : accepted <:+: [] ++ ps.flatten := by
    rw [List.nil_append, hcut, reply]
    exact (List.prefix_append accepted _).isInfix.trans (List.suffix_append noise _).isInfix
  obtain ⟨qs, rs, s₃, rfl, hrs, hcome, hread⟩ := hps.outcome_readMoreUntil hfinite haccepted timeout
  rw [List.nil_append] at hcome hread
  rw [List.flatten_append] at hcut
  have hbegun := afterAcceptance_of_prefix hfirst ⟨rs.flatten, hcut⟩ hcome
  refine ⟨afterAcceptance qs.flatten, rs, s₃, Operation.mapError_of_ok ?_, hrs, ?_⟩
  · rw [Operation.bind_of_ok hsend, Operation.bind_of_ok hstart]
    exact Operation.bind_of_ok hread
  · rw [hbegun, reply, List.append_assoc, List.append_assoc] at hcut
    exact List.append_cancel_left (List.append_cancel_left hcut)

/-- The second search goes on from there, and stops with the last read. -/
theorem Answered.outcome_exec (h : Answered program (noise ++ reply printed raised) s s')
    (hfinite : Transport.Finite σ) (hprinted : ctrlD ∉ printed) (hraised : ctrlD ∉ raised)
    (hhead : raised.head? ≠ some promptMark)
    (hfirst : ∀ j < noise.length, ¬ accepted <+: (noise ++ reply printed raised).drop j) (timeout : Nat) :
    (exec timeout program).outcome s = (outcomeOf (body printed raised), s') := by
  obtain ⟨begun, ps, s₁, hupload, hps, hrest⟩ := h.upload hfinite hfirst timeout
  have hmark : finishMark <:+: begun ++ ps.flatten := by
    rw [hrest, body, ← List.singleton_append, ← List.append_assoc, ← List.append_assoc]
    exact (List.suffix_append _ finishMark).isInfix
  obtain ⟨qs, rs, s₂, rfl, hrs, hend, hread⟩ := hps.outcome_readMoreUntil hfinite hmark timeout
  rw [List.flatten_append, ← List.append_assoc] at hrest
  have hnone := hrs.eq_nil_of_flatten (nothing_after_finishMark hprinted hraised hhead hrest hend)
  subst hnone
  cases hrs
  rw [List.flatten_nil, List.append_nil] at hrest
  rw [hrest] at hread
  have hreply : (ofLink (readMoreUntil begun finishMark timeout) :
      Operation σ SessionError (List UInt8)).outcome s₁ = (.ok (body printed raised), s') :=
    Operation.mapError_of_ok hread
  rw [exec, Operation.bind_of_ok hupload, Operation.bind_of_ok hreply]
  rfl

/-- **A program comes to what the answer says, however the answer is cut.**

For every link whose backlog bounds its reads, every program that can be sent, and every noise before the
answer in which no acceptance begins: if noise and answer arrive, in whatever pieces, then the program comes
to the text of what it has printed if it has raised nothing but blanks, and otherwise to a failure with the
text of what it has raised, without the blanks around it. The link, which may write down what is asked of
it, is left as the last of these reads leaves it: nobody waits for more. -/
theorem exec_answered (hfinite : Transport.Finite σ) (hprinted : ctrlD ∉ printed) (hraised : ctrlD ∉ raised)
    (hhead : raised.head? ≠ some promptMark)
    (hfirst : ∀ j < noise.length, ¬ accepted <+: (noise ++ reply printed raised).drop j)
    (h : Answered program (noise ++ reply printed raised) s s') (timeout : Nat) :
    ((∀ c ∈ (utf8Text raised).toList, isBlank c = true) →
      (exec timeout program).outcome s = (.ok (utf8Text printed), s')) ∧
    ((¬ ∀ c ∈ (utf8Text raised).toList, isBlank c = true) →
      (exec timeout program).outcome s =
        (.error (.fault (.raised (trimBlank (utf8Text raised)))), s')) := by
  rw [h.outcome_exec hfinite hprinted hraised hhead hfirst, outcomeOf_body hprinted hraised]
  constructor
  · intro hblank
    rw [if_pos (isEmpty_trimBlank_iff.mpr hblank)]
  · intro hsaid
    rw [if_neg fun hempty => hsaid (isEmpty_trimBlank_iff.mp hempty)]

end Answered

end Exec

/-- A link at whose other end a program prints and raises something, and where a letter of an earlier answer
has been left behind. Answers come three bytes at a time. -/
def answeredLink (printed raised : List UInt8) : ScriptedLink :=
  { script := { initial := utf8 "O", replies := [none, some (reply printed raised)], chunk := some 3 } }

/-- The acceptance is cut, and another one is printed; what is raised is told without its blanks. -/
theorem exec_answered_cut :
    (∃ l, (exec 1000 "f()").outcome (answeredLink (utf8 "OK>") []) = (.ok "OK>", l)) ∧
    ∃ l, (exec 1000 "f()").outcome (answeredLink [] (utf8 " no\n")) = (.error (.fault (.raised "no")), l) := by
  have hprints : ∃ l, Answered "f()" (utf8 "O" ++ reply (utf8 "OK>") []) (answeredLink (utf8 "OK>") []) l :=
    ⟨_, .mk rfl rfl (.cons rfl (.cons rfl (.cons rfl (.nil _)))) rfl⟩
  have hraises : ∃ l, Answered "f()" (utf8 "O" ++ reply [] (utf8 " no\n")) (answeredLink [] (utf8 " no\n")) l :=
    ⟨_, .mk rfl rfl (.cons rfl (.cons rfl (.cons rfl (.cons rfl (.nil _))))) rfl⟩
  have hblank : (trimBlank (utf8Text [])).isEmpty = true := by decide +kernel
  have hsaid : ¬ (trimBlank (utf8Text (utf8 " no\n"))).isEmpty = true := by decide +kernel
  constructor
  · obtain ⟨l, h⟩ := hprints
    refine ⟨l, ?_⟩
    rw [(exec_answered ScriptedLink.finite (by decide +kernel) (by decide) (by decide) (by decide +kernel)
      h 1000).1 (isEmpty_trimBlank_iff.mp hblank), utf8Text_utf8]
  · obtain ⟨l, h⟩ := hraises
    refine ⟨l, ?_⟩
    rw [(exec_answered ScriptedLink.finite (by decide) (by decide +kernel) (by decide +kernel)
      (by decide +kernel) h 1000).2 fun hall => hsaid (isEmpty_trimBlank_iff.mpr hall), utf8Text_utf8]
    rfl

end RawMode

end BlockBoard
