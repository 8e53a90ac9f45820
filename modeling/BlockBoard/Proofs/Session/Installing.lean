import BlockBoard.Proofs.Board.Writing
import BlockBoard.Proofs.Session.Ports
import BlockBoard.Proofs.Session.Refusing
import BlockBoard.Proofs.Session.Running
import BlockBoard.Proofs.Session.Saving
/-!
# Saving a program from end to end

A save writes the boot program of the board and restarts it; the next save of a program with the same digest
over the same connection is skipped. Nothing else that a session does touches the boot program, so that after
every save that succeeds, written or skipped, the board holds the program as it is.

- `Board.atPrompt_of_enter`: the raw prompt is entered only where an interpreter listens.
- `Board.writeBootProgram_connected`: a program becomes the boot program, and runs.
- `Desk.Served`: a session whose board nobody types at.
- `Desk.Served.installed`: **what a session remembers to have saved is the boot program of its board**, by
  induction on what has happened.
- `save_installs`: **a save that succeeds leaves the program on the board**.
-/

namespace BlockBoard

namespace Board

/-! ## Entering the raw prompt -/

/-- Bytes without the end of a frame say nothing to the loader. -/
theorem receive_loader {b : Board} (hmode : b.mode = .loader) {bs : List UInt8}
    (hbs : Slip.endByte ∉ bs) : ∃ decoder, b.receive bs = { b with decoder } := by
  induction bs generalizing b with
  | nil => exact ⟨b.decoder, rfl⟩
  | cons byte r ih =>
    rw [List.mem_cons, not_or] at hbs
    rw [receive_cons]
    split
    · have htake : b.take byte = { b with decoder := (b.decoder.push byte).2 } := by
        rw [take_loader hmode, Slip.Decoder.push_of_ne fun heq => hbs.1 heq.symm]
        rfl
      rw [htake]
      exact ih (b := { b with decoder := (b.decoder.push byte).2 }) hmode hbs.2
    · exact ⟨b.decoder, rfl⟩

/-- Waiting is in vain where nothing has been said. -/
theorem readUntil_silent {b : Board} (hconnected : b.connected = true) (houtbox : b.outbox = [])
    {pattern : List UInt8} (hpattern : containsBytes [] pattern = false) (timeout : Nat) :
    (readUntil pattern timeout).outcome b = (.error (.timeout timeout), b) := by
  show readUntilWithin pattern timeout (Transport.backlog b + 1) [] b = _
  rw [readUntilWithin, hpattern, if_neg Bool.false_ne_true, read_eq, houtbox, List.isEmpty_nil, if_pos rfl,
    if_pos hconnected]

/-- **The raw prompt is entered only where an interpreter listens**: a loader does not answer. -/
theorem atPrompt_of_enter {timeout : Nat} {b b' : Board}
    (h : (RawMode.enter timeout : Operation Board SessionError Unit).outcome b = (.ok (), b')) :
    b.AtPrompt b.programs := by
  obtain ⟨_, b₁, hinterrupt, henter⟩ := Operation.eq_ok_of_bind h
  have hconnected := connected_of_interrupt hinterrupt
  cases hmode : b.mode with
  | interpreter raw => exact ⟨hconnected, ⟨raw, hmode⟩, rfl⟩
  | loader =>
    -- what a loader has said by then is forgotten, and it says nothing more
    exfalso
    have hquiet : Slip.endByte ∉ [carriageReturn, ctrlC, ctrlC] ∧
        Slip.endByte ∉ [carriageReturn, ctrlA] := by decide
    obtain ⟨decoder, htold⟩ := receive_loader hmode hquiet.1
    rw [interrupt_connected hconnected, htold] at hinterrupt
    obtain ⟨-, rfl⟩ := Prod.mk.inj hinterrupt
    let heard : Board := { b with decoder, outbox := [] }
    obtain ⟨decoder', htold'⟩ := receive_loader (b := heard) hmode hquiet.2
    have hsend : (send [carriageReturn, ctrlA] : Operation Board LinkError Unit).outcome heard =
        (.ok (), { heard with decoder := decoder' }) := by
      rw [outcome_send (b := heard) hconnected, htold']
    have hbanner : containsBytes [] rawBanner = false := by decide +kernel
    have hwait := readUntil_silent (b := { heard with decoder := decoder' }) hconnected rfl hbanner timeout
    rw [RawMode.ofLink, Operation.outcome_mapError, Operation.bind_of_ok hsend,
      Operation.bind_of_error hwait] at henter
    cases (Prod.mk.inj henter).1

/-! ## The boot program -/

/-- A board that starts runs its boot program. -/
theorem boot_endless {b : Board} {source : String} (hs : Endless source)
    (hfile : b.file? bootFile = some (utf8 source)) :
    b.boot = { b with
      mode := .interpreter false, running := true, programs := b.programs ++ [source]
      outbox := b.outbox ++ bootBanner ++ printed source } := by
  have hfile' : ({ b with mode := .interpreter false, running := false }.emit bootBanner : Board).file?
      bootFile = some (utf8 source) := hfile
  unfold boot
  dsimp only
  rw [hfile']
  dsimp only
  rw [utf8Text_utf8, startProgram]
  dsimp only
  rw [hs.loops, if_pos rfl]
  rfl

/-- Leaving the raw prompt when nothing runs. -/
theorem receive_ctrlB {log : List String} {b : Board} (h : b.AtRawPrompt log []) :
    b.receive [carriageReturn, ctrlB] = { b with
      mode := .interpreter false, typed := [carriageReturn]
      outbox := lineEnd ++ bootBanner ++ prompt } := by
  obtain ⟨hconnected, hmode, hrunning, htyped, houtbox, -⟩ := h
  rcases b with ⟨⟩
  dsimp only at hconnected hmode hrunning htyped houtbox
  subst hconnected hmode hrunning htyped houtbox
  rfl

/-- The end of a text restarts an interpreter at its friendly prompt. -/
theorem receive_restart {b : Board} (hconnected : b.connected = true)
    (hmode : b.mode = .interpreter false) (hrunning : b.running = false) :
    b.receive [ctrlD] = (b.emit (utf8 "MPY: soft reboot\r\n")).boot := by
  rw [receive_cons, if_pos hconnected, take, hmode]
  dsimp only
  rw [receiveAtPrompt, if_neg (by decide), if_neg (by decide), if_pos ⟨rfl, by simp [hrunning]⟩]
  rfl

/-- **A program becomes the boot program of a board whose interpreter listens, and runs.** -/
theorem writeBootProgram_connected {log : List String} {b : Board} (h : b.AtPrompt log) {p : Program}
    (hp : Endless p.source) (timeout : Nat) :
    ∃ b', (Conduct.writeBootProgram timeout p : Operation Board SessionError Unit).outcome b =
        (.ok (), b') ∧ b'.Runs (log ++ [p.source]) ∧ b'.file? bootFile = some p.bytes := by
  obtain ⟨raw, henter, hraw⟩ := enter_connected h timeout
  -- the file is written, and the raw prompt is left
  let written : Board := ({ raw with openFile := none } : Board).putFile bootFile p.bytes
  have hwrite : (RawMode.writeFile timeout bootFile p.bytes :
      Operation Board SessionError Unit).outcome raw = (.ok (), written) :=
    writeFile_connected hraw (List.all_iff_forall_prop.mp (by decide)) p.bytes timeout
  have hwritten : written.AtRawPrompt log [] := hraw.with_files none _
  let left : Board := { written with
    mode := .interpreter false, typed := [carriageReturn], outbox := lineEnd ++ bootBanner ++ prompt }
  have hexit : (RawMode.exit : Operation Board SessionError Unit).outcome written = (.ok (), left) := by
    have hsend := outcome_send hwritten.connected [carriageReturn, ctrlB]
    rw [receive_ctrlB hwritten] at hsend
    exact Operation.mapError_of_ok hsend
  -- the board restarts into it
  let asked : Board := left.emit (utf8 "MPY: soft reboot\r\n")
  have hfile : asked.file? bootFile = some (utf8 p.source) := file?_putFile _ _ _
  have hrestart : (RawMode.restart : Operation Board SessionError Unit).outcome left =
      (.ok (), asked.boot) := by
    have hsend := outcome_send (b := left) hwritten.connected [ctrlD]
    rw [receive_restart (b := left) hwritten.connected rfl hwritten.running] at hsend
    exact Operation.mapError_of_ok hsend
  refine ⟨asked.boot, ?_, ?_, ?_⟩
  · exact (Operation.bind_of_ok henter).trans ((Operation.bind_of_ok hwrite).trans
      ((Operation.bind_of_ok hexit).trans hrestart))
  · rw [boot_endless hp hfile]
    refine ⟨hwritten.connected, ⟨false, rfl⟩, rfl, congrArg (· ++ [p.source]) hwritten.programs, ?_⟩
    have hquiet : ctrlD ∉ lineEnd ++ bootBanner ++ prompt ++ utf8 "MPY: soft reboot\r\n" ++ bootBanner := by
      decide +kernel
    intro hmem
    rcases List.mem_append.mp hmem with hmem | hmem
    · exact hquiet hmem
    · exact ctrlD_not_mem_printed hp.typeable hmem
  · show asked.boot.files.lookup bootFile = _
    rw [files_boot]
    exact hfile

end Board

/-! ## A save -/

namespace Conduct

/-- **A save that writes** has stopped a program that ran, and written the boot program over the link. -/
theorem save_of_written {σ : Type} [Transport σ] {p : Program} {d d' : Desk σ} {n : Nat} {digest : String}
    (h : (save p : Conduct σ SaveOutcome).outcome d = (.ok (.written n digest), d')) :
    n = p.bytes.length ∧ digest = p.digest ∧ ∃ d₁ port,
      (quiesce : Conduct σ Unit).outcome d = (.ok (), d₁) ∧ d₁.session.linked = true ∧
      (writeBootProgram d₁.session.flashing.commandTimeout.toNat p).outcome d₁.port = (.ok (), port) ∧
      d' = noted { d₁.moved .running with port } p := by
  rw [outcome_save] at h
  split at h
  · cases h
  split at h
  · cases h
  obtain ⟨_, d₃, hsaves, hreply⟩ := Operation.eq_ok_of_bind h
  change (Except.ok (SaveOutcome.written p.bytes.length p.digest), noted d₃ p) = _ at hreply
  obtain ⟨hanswer, rfl⟩ := Prod.mk.inj hreply
  obtain ⟨rfl, rfl⟩ := SaveOutcome.written.inj (Except.ok.inj hanswer)
  obtain ⟨_, d₁, hquiesce, hsaves⟩ := Operation.eq_ok_of_bind hsaves
  obtain ⟨_, d₂, hmove, hsaves⟩ := Operation.eq_ok_of_bind hsaves
  rw [outcome_move] at hmove
  split at hmove
  · cases hmove
    rw [timeout, bind_assoc, outcome_session_bind, pure_bind] at hsaves
    obtain ⟨hlinked, port, hwrite, rfl⟩ := orAbandon_onLink_of_ok hsaves
    exact ⟨rfl, rfl, d₁, port, hquiesce, hlinked, hwrite, rfl⟩
  · cases hmove

theorem kept_quiesce : (quiesce : Conduct Board Unit).Relates (OnPort Board.Kept) :=
  relates_quiesce Board.steady_kept (Board.kept_write (by decide)) (Board.kept_write (by decide))

/-- **A save that writes leaves its program on the board**, and the board runs it. -/
theorem presents_of_written {p : Program} (hp : Board.Endless p.source) {d d' : Desk Board} {n : Nat}
    {digest : String} (h : (save p : Conduct Board SaveOutcome).outcome d = (.ok (.written n digest), d')) :
    Presents (d.port.programs ++ [p.source]) d' ∧ d'.port.file? bootFile = some p.bytes := by
  obtain ⟨-, -, d₁, port, hquiesce, hlinked, hwrite, rfl⟩ := save_of_written h
  -- stopping a program gives the board no other one
  have hkept := kept_quiesce d
  rw [hquiesce] at hkept
  obtain ⟨_, b, henter, -⟩ := Operation.eq_ok_of_bind hwrite
  obtain ⟨port', hwrite', hruns, hfile⟩ :=
    Board.writeBootProgram_connected (Board.atPrompt_of_enter henter) hp _
  obtain ⟨-, rfl⟩ := Prod.mk.inj (hwrite'.symm.trans hwrite)
  rw [hkept.programs] at hruns
  exact ⟨⟨rfl, hlinked, hruns, List.not_mem_nil⟩, hfile⟩

/-- A program that has not been saved yet is saved on every board whose interpreter listens. -/
theorem save_connected {p : Program} (hp : Board.Endless p.source) {log : List String} {d : Desk Board}
    (hstate : Attentive d.session) (hlinked : d.session.linked = true) (hboard : d.port.AtPrompt log)
    (hsaved : d.session.saved ≠ some p.digest) :
    ∃ d', (save p : Conduct Board SaveOutcome).outcome d =
      (.ok (.written p.bytes.length p.digest), d') := by
  obtain ⟨d₁, hquiesce, hready, hlinked₁, hprompt⟩ := quiesce_atPrompt hstate hlinked hboard
  obtain ⟨port, hwrite, -, -⟩ :=
    Board.writeBootProgram_connected hprompt hp d₁.session.flashing.commandTimeout.toNat
  exact ⟨_, save_of_ok hsaved hstate hquiesce hready hlinked₁ hwrite⟩

/-! ## What leaves the boot program alone -/

/-- Entering the raw prompt keeps the files, whatever comes of it. -/
theorem sameFiles_enter (timeout : Nat) :
    (RawMode.enter timeout : Operation Board SessionError Unit).Relates Board.SameFiles := by
  have htrans := Board.steady_sameFiles.trans
  have hsend : ∀ bs, ctrlD ∉ bs → (send bs : Operation Board LinkError Unit).Relates Board.SameFiles :=
    fun bs h b => (Board.kept_write h b).files
  have hinterrupt : (RawMode.interrupt : Operation Board SessionError Unit).Relates Board.SameFiles :=
    Operation.relates_mapError (Operation.relates_bind htrans (hsend _ (by decide)) fun _ =>
      Operation.relates_bind htrans (relates_drain Board.steady_sameFiles) fun _ _ => rfl)
  exact Operation.relates_bind htrans hinterrupt fun _ => Operation.relates_mapError
    (Operation.relates_bind htrans (hsend _ (by decide)) fun _ =>
      Operation.relates_bind htrans (relates_readUntil Board.steady_sameFiles _ _) fun _ _ => rfl)

/-- Running a program that never ends keeps the files, whatever comes of it. -/
theorem sameFiles_upload {source : String} (hs : Board.Endless source) (timeout : Nat) :
    (do RawMode.enter timeout; RawMode.upload timeout (utf8 source) :
      Operation Board SessionError (List UInt8)).Relates Board.SameFiles := by
  intro b
  have hbefore := sameFiles_enter timeout b
  rcases henter : (RawMode.enter timeout : Operation Board SessionError Unit).outcome b with ⟨e | _, b₁⟩
  · rw [henter] at hbefore
    rw [Operation.bind_of_error henter]
    exact hbefore
  · rw [henter] at hbefore
    rw [Operation.bind_of_ok henter]
    -- what has been entered is the raw prompt, where the text of a program arrives
    obtain ⟨raw, henter', hraw⟩ := Board.enter_connected (Board.atPrompt_of_enter henter) timeout
    obtain ⟨-, rfl⟩ := Prod.mk.inj (henter'.symm.trans henter)
    obtain ⟨begun, b', hupload, -, -, hfiles⟩ := Board.upload_endless hs hraw timeout
    rw [hupload]
    exact Eq.trans hfiles hbefore

end Conduct

/-- The program that a request hands over to the board. -/
def Request.program? : Request → Option Program
  | run p | save p => some p
  | _ => none

namespace Conduct

/-- **Every request but a save keeps the files of a board**, as long as nobody types and programs never
end. -/
theorem sameFiles_perform (cancelled : Board → Bool) {r : Request} (hinput : ∀ bs, r ≠ .input bs)
    (hsave : ∀ p, r ≠ .save p) (hprogram : ∀ p ∈ r.program?, Board.Endless p.source) :
    (r.perform cancelled).Relates (OnPort Board.SameFiles) := by
  have hR := Board.steady_sameFiles
  have hinterrupt : ∀ b, Board.SameFiles b (Transport.write interruption b).2 :=
    fun b => (Board.kept_write (by decide) b).files
  have hleave : ∀ b, Board.SameFiles b (Transport.write leave b).2 :=
    fun b => (Board.kept_write (by decide) b).files
  have hanswer : ∀ {α : Type} {x : Conduct Board α} (f : α → Reply), x.Relates (OnPort Board.SameFiles) →
      (do return f (← x) : Conduct Board Reply).Relates (OnPort Board.SameFiles) :=
    fun f hx => relates_bind_port hR hx fun _ _ => rfl
  cases r with
  | connect =>
    refine hanswer (fun _ => .done) (relates_connect_port hR fun settings b => ?_)
    show (Board.openLink settings b).2.files = b.files
    unfold Board.openLink
    split <;> rfl
  | disconnect => exact hanswer (fun _ => .done) (relates_disconnect_port hR.refl)
  | stop => exact hanswer (fun _ => .done) (relates_stop_port hR hinterrupt hleave)
  | clear => exact fun _ => rfl
  | snapshot => exact fun _ => rfl
  | run p =>
    exact hanswer (fun _ => .done)
      (relates_run_port hR hinterrupt hleave fun timeout => sameFiles_upload (hprogram p rfl) timeout)
  | save p => exact absurd rfl (hsave p)
  | input bs => exact absurd rfl (hinput bs)
  | flash image expected =>
    exact hanswer .flashed (relates_flash_port hR hinterrupt hleave image expected
      (fun j b => Board.files_flash j cancelled b) Board.files_hardReset)

end Conduct

/-! ## Histories without anything typed -/

/-- Something that happens to a session and its board while nobody types: every program that is run or saved
never ends, the cable is pulled out and put back, and the board says something of its own. -/
def Occurrence.Untyped : Occurrence Board → Prop
  | .request _ r => (∀ bs, r ≠ .input bs) ∧ ∀ p ∈ r.program?, Board.Endless p.source
  | .relay _ => True
  | .change f => f = Board.unplug ∨ f = Board.plugIn ∨ ∃ bs, f = (·.emit bs)

/-- The program that an occurrence hands over to the board. -/
def Occurrence.program? : Occurrence Board → Option Program
  | .request _ r => r.program?
  | _ => none

/-- A session over a board that nobody types at, with the programs that have been run or saved. -/
inductive Desk.Served (s : Settings) : List Program → Desk Board → Prop
  | start (port : Board) : Served s [] (Desk.start s.device s.flash s.maxLines.toNat port)
  | after {ps : List Program} {d : Desk Board} (h : Served s ps d) {o : Occurrence Board}
    (ho : o.Untyped) : Served s (ps ++ o.program?.toList) (d.after o)

theorem Desk.Served.reachable {s : Settings} {ps : List Program} {d : Desk Board} (h : d.Served s ps) :
    d.Reachable s := by
  induction h with
  | start port => exact .start port
  | after _ _ ih => exact ih.after _

namespace Conduct

/-- A request to save ends as the save does. -/
theorem save_of_perform {σ : Type} [Connector σ] {cancelled : σ → Bool} {p : Program} {d d' : Desk σ}
    {outcome : SaveOutcome}
    (h : ((Request.save p).perform cancelled).outcome d = (.ok (.saved outcome), d')) :
    (save p : Conduct σ SaveOutcome).outcome d = (.ok outcome, d') := by
  obtain ⟨_, d₁, hsave, hreply⟩ := Operation.eq_ok_of_bind h
  cases hreply
  exact hsave

/-- A save that is not carried out keeps the files, unless it costs the link. -/
theorem sameFiles_save {cancelled : Board → Bool} {p : Program} {d d' : Desk Board}
    {answer : Except SessionError Reply} (hd : d.session.Sound)
    (h : ((Request.save p).perform cancelled).outcome d = (answer, d'))
    (hleaves : LeavesSaved (.save p, answer)) : d'.port.files = d.port.files := by
  cases answer with
  | ok reply =>
    obtain ⟨outcome, d₁, hsave, hreply⟩ := Operation.eq_ok_of_bind h
    cases hreply
    cases outcome with
    | written n digest => exact absurd rfl (hleaves.program n digest)
    | unchanged digest => rw [(save_of_unchanged hsave).2.1]
  | error e =>
    have hrefusal : e.isRefusal = true := by
      rcases hleaves.failure e rfl with rfl | rfl | ⟨source, target, rfl⟩
      · obtain ⟨image, expected, hflash⟩ := hleaves.cancelled rfl
        cases hflash
      · rfl
      · rfl
    obtain ⟨progress, hends⟩ :=
      perform_of_refusal cancelled hd (refusal?_of_isRefusal cancelled hd h hrefusal)
    cases hends.symm.trans h
    rfl

/-- What leaves a session with what it holds leaves the files of the board alone. -/
theorem sameFiles_after {d : Desk Board} (hd : d.session.Sound) {o : Occurrence Board} (ho : o.Untyped)
    (hleaves : ∀ e ∈ d.exchange? o, LeavesSaved e) : (d.after o).port.files = d.port.files := by
  cases o with
  | relay reads => exact relates_relayWithin_port Board.steady_sameFiles reads d
  | change f => rcases ho with rfl | rfl | ⟨bs, rfl⟩ <;> rfl
  | request cancelled r =>
    obtain ⟨hinput, hprogram⟩ := ho
    by_cases hsave : ∀ p, r ≠ .save p
    · exact sameFiles_perform cancelled hinput hsave hprogram d
    · obtain ⟨p, rfl⟩ : ∃ p, r = .save p := by simpa using hsave
      rcases hperform : ((Request.save p).perform cancelled).outcome d with ⟨answer, d'⟩
      have hexchange : d.exchange? (.request cancelled (.save p)) = some (.save p, answer) := by
        rw [Desk.exchange?, hperform]
      rw [Desk.after_request, hperform]
      exact sameFiles_save hd hperform (hleaves _ hexchange)

end Conduct

/-- **What a session remembers to have saved is the boot program of its board**, whatever has happened to
the two, as long as nobody types. -/
theorem Desk.Served.installed {s : Settings} {ps : List Program} {d : Desk Board} (h : d.Served s ps)
    {digest : String} (hholds : Conduct.Holds digest d.session) :
    ∃ q ∈ ps, q.digest = digest ∧ d.port.file? bootFile = some q.bytes := by
  induction h with
  | start port => cases hholds.1
  | @after ps d hserved o ho ih =>
    have hsound := hserved.reachable.sound.1
    rcases Conduct.holds_after hsound o hholds with ⟨q, hq, hexchange⟩ | ⟨hbefore, hleaves⟩
    · -- it has just been written
      cases o with
      | relay reads => cases hexchange
      | change f => cases hexchange
      | request cancelled r =>
        obtain ⟨rfl, hanswer⟩ := Prod.mk.inj (Option.some.inj hexchange)
        have hsave := Conduct.save_of_perform (Prod.ext hanswer rfl)
        obtain ⟨-, hfile⟩ := Conduct.presents_of_written (ho.2 q rfl) hsave
        exact ⟨q, List.mem_append_right _ (List.mem_singleton_self q), hq, hfile⟩
    · obtain ⟨q, hmem, hq, hfile⟩ := ih hbefore
      refine ⟨q, List.mem_append_left _ hmem, hq, ?_⟩
      rw [Board.file?, Conduct.sameFiles_after hsound ho hleaves]
      exact hfile

/-! ## Everything together -/

/-- What a save that succeeds has left behind: the boot program of the board is the program, byte for byte.
If it was written, then the board has been given just this program more, and runs it. -/
structure Desk.Installs (p : Program) (outcome : SaveOutcome) (d d' : Desk Board) : Prop where
  file : d'.port.file? bootFile = some p.bytes
  written : ∀ n digest, outcome = .written n digest →
    n = p.bytes.length ∧ d'.Running (d.port.programs ++ [p.source])

/-- **A save that succeeds leaves the program on the board.**

For all settings, every board and every history in which nobody types: if a save of the program of a graph
succeeds, and no other program that has been run or saved has its digest, then the boot program of the board
is the program, byte for byte. If it was written, then the number of bytes reported is the length of the
program, the board has been given just this program more and runs it, and the session says so. All of it is
still so when everything that the board has said is passed on. -/
theorem save_installs {s : Settings} {ps : List Program} {d : Desk Board} (hd : d.Served s ps)
    (g : BlockGraph) (hdigest : ∀ q ∈ ps, q.digest = g.compile.digest → q.source = g.compile.source)
    (cancelled : Board → Bool) {outcome : SaveOutcome} {d' : Desk Board}
    (h : ((Request.save g.compile).perform cancelled).outcome d = (.ok (.saved outcome), d')) :
    Desk.Installs g.compile outcome d d' ∧
    ∃ d'', d.handle cancelled (.save g.compile) = (.ok (.saved outcome), d'') ∧
      Desk.Installs g.compile outcome d d'' := by
  have hsound := hd.reachable.sound.1
  have hsave := Conduct.save_of_perform h
  have hfile : d'.port.file? bootFile = some g.compile.bytes := by
    cases outcome with
    | written n digest => exact (Conduct.presents_of_written g.endless_source hsave).2
    | unchanged digest =>
      obtain ⟨-, rfl, hsaved, hconnected⟩ := Conduct.save_of_unchanged hsave
      obtain ⟨q, hmem, hq, hfile⟩ := hd.installed ⟨hsaved, hconnected⟩
      rw [hfile, Program.bytes, Program.bytes, hdigest q hmem hq]
  have hwritten : ∀ n digest, outcome = .written n digest →
      n = g.compile.bytes.length ∧ Conduct.Presents (d.port.programs ++ [g.compile.source]) d' := by
    rintro n digest rfl
    exact ⟨(Conduct.save_of_written hsave).1,
      (Conduct.presents_of_written g.endless_source hsave).1⟩
  -- passing on what the board says only reads
  rcases hsettle : (Conduct.settle : Conduct Board Unit).outcome d' with ⟨result, d''⟩
  have hsame : d''.port.files = d'.port.files := by
    have hrelay := Conduct.relates_relayWithin_port Board.steady_sameFiles
      (Transport.backlog d'.port + 1) d'
    rwa [show (Conduct.relayWithin _ : Conduct Board Unit).outcome d' = _ from hsettle] at hrelay
  refine ⟨⟨hfile, fun n digest hanswer => ?_⟩, d'', ?_, ?_, fun n digest hanswer => ?_⟩
  · obtain ⟨hn, hpresents⟩ := hwritten n digest hanswer
    exact ⟨hn, hpresents.running⟩
  · rw [Desk.handle, h]
    dsimp only
    rw [hsettle]
  · rw [Board.file?, hsame]
    exact hfile
  · obtain ⟨hn, hpresents⟩ := hwritten n digest hanswer
    obtain ⟨d₁, hrelay, hstill⟩ :=
      Conduct.relayWithin_presents hpresents (Transport.backlog d'.port + 1)
    have hsame := (show (Conduct.relayWithin _ : Conduct Board Unit).outcome d' = _ from hsettle).symm.trans
      hrelay
    obtain ⟨-, rfl⟩ := Prod.mk.inj hsame
    exact ⟨hn, hstill.running⟩

/-- A session that has connected to a board. -/
def attachedDesk : Desk Board :=
  (Desk.start smallBlocks.device smallBlocks.flash smallBlocks.maxLines.toNat ({} : Board)).after
    (.request (fun _ => false) .connect)

/-- A graph that prints a line. -/
def greeting : BlockGraph :=
  ⟨[⟨.mk .printLine none [] [("TEXT", .literal (.text "hello"))], []⟩]⟩

/-- A program that is saved twice is written, and then skipped. -/
theorem save_installs_twice : ∃ d' : Desk Board,
    attachedDesk.Served smallBlocks [] ∧ d'.Served smallBlocks [greeting.compile] ∧
    ((Request.save greeting.compile).perform fun _ => false).outcome attachedDesk =
      (.ok (.saved (.written greeting.compile.bytes.length greeting.compile.digest)), d') ∧
    d'.port.programs = [greeting.compile.source] ∧
    ((Request.save greeting.compile).perform fun _ => false).outcome d' =
      (.ok (.saved (.unchanged greeting.compile.digest)), d') ∧
    d'.port.file? bootFile = some greeting.compile.bytes := by
  have hserved : attachedDesk.Served smallBlocks [] :=
    (Desk.Served.start _).after (o := .request (fun _ => false) .connect) ⟨nofun, nofun⟩
  have hattached : attachedDesk.session.state = .connected ∧ attachedDesk.session.linked = true ∧
      attachedDesk.session.saved = none ∧ attachedDesk.port.connected = true ∧
      attachedDesk.port.mode = .interpreter false ∧ attachedDesk.port.programs = [] := by
    decide +kernel
  obtain ⟨hstate, hlinked, hsaved, hconnected, hmode, hprograms⟩ := hattached
  have hprogram := greeting.endless_source
  obtain ⟨d', hsave⟩ := Conduct.save_connected hprogram (.inl hstate) hlinked
    ⟨hconnected, ⟨false, hmode⟩, hprograms⟩ (by rw [hsaved]; nofun)
  have hwritten : ((Request.save greeting.compile).perform fun _ => false).outcome attachedDesk =
      (.ok (.saved (.written greeting.compile.bytes.length greeting.compile.digest)), d') := by
    rw [Conduct.perform_save, hsave]
    rfl
  obtain ⟨⟨-, hboots⟩, -⟩ := save_installs hserved greeting nofun (fun _ => false) hwritten
  obtain ⟨-, hrunning⟩ := hboots _ _ rfl
  -- the second save is skipped
  have hafter : attachedDesk.after (.request (fun _ => false) (.save greeting.compile)) = d' := by
    rw [Desk.after_request, hwritten]
  have hserved' : d'.Served smallBlocks [greeting.compile] := by
    have hserved := hserved.after (o := .request (fun _ => false) (.save greeting.compile))
      ⟨nofun, fun p hp => Option.some.inj hp ▸ hprogram⟩
    rwa [hafter] at hserved
  have hskipped : ((Request.save greeting.compile).perform fun _ => false).outcome d' =
      (.ok (.saved (.unchanged greeting.compile.digest)), d') := by
    obtain ⟨-, -, d₁, port, -, -, -, hnoted⟩ := Conduct.save_of_written hsave
    rw [Conduct.perform_save, Conduct.save_of_saved (by rw [hnoted]; rfl) (.inr hrunning.state)]
    rfl
  obtain ⟨hinstalls, -⟩ := save_installs hserved' greeting
    (fun q hq _ => by rw [List.mem_singleton.mp hq]) (fun _ => false) hskipped
  refine ⟨d', hserved, hserved', hwritten, ?_, hskipped, hinstalls.file⟩
  rw [hrunning.programs, hprograms]
  rfl

end BlockBoard
