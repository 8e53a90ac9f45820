import BlockBoard.Proofs.Board.Cancelling
/-!
# What a board keeps

Only the end of a text that was typed at the raw prompt changes the files of a board, and only that or a
restart gives it another program. Whatever else is sent, in whatever mode the board is, leaves both alone;
and so does a whole flash with the files, whatever becomes of it.

- `Board.Kept`: files and programs are the same before and after.
- `Board.kept_receive`: **bytes that do not end a text keep both**, whoever listens.
- `Flash.Job.plan_eq_working`: the plan of a flash between entering the loader and the restart.
- `Board.files_flash`: **a flash keeps the files**, whatever its outcome.
-/

namespace BlockBoard

/-! ## The steps at the loader -/

namespace Flash.Job

/-- The steps between entering the loader and the restart. -/
def working (j : Job) : List Step :=
  j.approach.drop 3 ++ j.speedUp ++ j.lastLook ::
    plainStep (.command ⟨.flashBegin, j.region, 0, j.eraseTimeout⟩) :: plainStep .noteCancel ::
      (j.blocks.zipIdx.flatMap j.blockSteps ++ j.closing.dropLast)

theorem plan_eq_working (j : Job) :
    j.plan = [plainStep (.verify j.image.length), plainStep .checkCancel] ++
      plainStep .enterLoader :: j.working ++ [⟨.hardReset, some j.image.length⟩] := by
  have happroach : j.approach = [plainStep (.verify j.image.length), plainStep .checkCancel] ++
      plainStep .enterLoader :: j.approach.drop 3 := rfl
  have hclosing : j.closing = j.closing.dropLast ++ [⟨.hardReset, some j.image.length⟩] := rfl
  rw [plan_eq_erasure, erasure, hclosing, happroach, working]
  simp only [List.append_assoc, List.cons_append, List.nil_append]

/-- The board is not restarted in between. -/
theorem ne_hardReset_working (j : Job) : ∀ s ∈ j.working, s.action ≠ .hardReset := by
  intro s hs
  simp only [working, List.mem_append, List.mem_cons, List.mem_flatMap] at hs
  rcases hs with (hs | hs) | rfl | rfl | rfl | ⟨b, -, hs⟩ | hs
  · exact j.ne_hardReset s (List.mem_append_left _ (List.mem_of_mem_drop hs))
  · exact j.ne_hardReset s (List.mem_append_right _ hs)
  · simp [lastLook, plainStep]
  · simp [plainStep]
  · simp [plainStep]
  · simp only [blockSteps, List.mem_cons, List.not_mem_nil, or_false] at hs
    rcases hs with rfl | rfl <;> simp [plainStep]
  · simp only [closing, changeBaud, List.cons_append, List.nil_append, List.map_cons, List.map_nil,
      List.dropLast_cons_cons, List.dropLast_singleton, List.mem_cons, List.not_mem_nil, or_false] at hs
    rcases hs with rfl | rfl | rfl | rfl | rfl <;> simp [plainStep, command]

end Flash.Job

namespace Board

open Flash

/-! ## Bytes -/

/-- The files are the same before and after, and no program has been given in between. -/
structure Kept (b b' : Board) : Prop where
  files : b'.files = b.files
  programs : b'.programs = b.programs

theorem Kept.refl (b : Board) : Kept b b := ⟨rfl, rfl⟩

theorem Kept.trans {a b c : Board} (h : Kept a b) (h' : Kept b c) : Kept a c :=
  ⟨h'.files.trans h.files, h'.programs.trans h.programs⟩

theorem steady_kept : Transport.Steady Kept where
  refl := .refl
  trans _ _ _ := .trans
  read n b := by
    obtain ⟨outbox, hread⟩ := read_cases n b
    rw [hread]
    exact ⟨rfl, rfl⟩

/-- The loader knows neither files nor programs. -/
theorem kept_handleCommand (b : Board) (op : UInt8) (check : UInt32) (data : List UInt8) :
    Kept b (b.handleCommand op check data) := by
  unfold handleCommand writeBlock
  dsimp only
  repeat' split
  all_goals exact ⟨rfl, rfl⟩

/-- A byte that does not end a text keeps files and programs, whoever takes it. -/
theorem kept_take {b : Board} {byte : UInt8} (h : byte ≠ ctrlD) : Kept b (b.take byte) := by
  unfold take
  split
  · unfold receiveAtLoader
    dsimp only
    split
    · have hdecoder : Kept b { b with decoder := (b.decoder.push byte).2 } := ⟨rfl, rfl⟩
      exact hdecoder.trans (kept_handleCommand _ _ _ _)
    · exact ⟨rfl, rfl⟩
  · unfold receiveAtPrompt
    simp only [h, false_and, if_false]
    repeat' split
    all_goals exact ⟨rfl, rfl⟩
  · unfold receiveAtRawPrompt
    simp only [h, if_false]
    repeat' split
    all_goals exact ⟨rfl, rfl⟩

/-- **Bytes that do not end a text keep files and programs**, whoever listens. -/
theorem kept_receive {b : Board} {bs : List UInt8} (h : ctrlD ∉ bs) : Kept b (b.receive bs) := by
  induction bs generalizing b with
  | nil => exact .refl b
  | cons byte r ih =>
    rw [List.mem_cons, not_or] at h
    rw [receive_cons]
    split
    · exact (kept_take fun heq => h.1 heq.symm).trans (ih h.2)
    · exact .refl b

theorem kept_write {bs : List UInt8} (h : ctrlD ∉ bs) (b : Board) : Kept b (Transport.write bs b).2 := by
  rw [write_eq, ifConnected]
  split
  · exact kept_receive h
  · exact .refl b

/-! ## Programs and restarts -/

theorem files_startProgram (b : Board) (code : String) : (b.startProgram code).files = b.files := by
  unfold startProgram
  dsimp only
  split
  · rfl
  · split <;> rfl

theorem files_boot (b : Board) : b.boot.files = b.files := by
  unfold boot
  dsimp only
  split
  · exact files_startProgram _ _
  · rfl

theorem files_hardReset (b : Board) : (Transport.hardReset b).2.files = b.files := by
  rw [hardReset_eq, ifConnected]
  split
  · exact files_boot _
  · rfl

/-! ## Flashing -/

/-- The files are the same before and after. -/
def SameFiles (b b' : Board) : Prop := b'.files = b.files

theorem steady_sameFiles : Transport.Steady SameFiles where
  refl _ := rfl
  trans _ _ _ h h' := h'.trans h
  read n b := (steady_kept.read n b).files

theorem AtLoader.ready_handleCommand {b : Board} (h : b.AtLoader) (op : UInt8) (check : UInt32)
    (data : List UInt8) : (b.handleCommand op check data).Ready := by
  unfold handleCommand writeBlock
  dsimp only
  repeat' split
  all_goals exact fun hconnected => ⟨hconnected, h.mode, h.decoder⟩

/-- A command keeps the files of a board that is at its loader, and leaves it there. -/
theorem write_command (c : Command) (b : Board) :
    WhileReady SameFiles b (Transport.write c.frame b).2 := by
  rw [write_eq]
  refine whileReady_ifConnected steady_sameFiles.refl (fun b hloader => ?_) b
  rw [Command.frame, receive_frame hloader c.packet_ne_nil]
  split
  · exact ⟨hloader.ready_handleCommand _ _ _, (kept_handleCommand _ _ _ _).files⟩
  · exact ⟨fun _ => hloader, rfl⟩

theorem sameFiles_enterLoader (b : Board) : SameFiles b (Transport.enterLoader b).2 := by
  rw [enterLoader_eq, ifConnected]
  split <;> rfl

/-- Every step but a restart keeps the files of a board that is at its loader. -/
theorem admits_sameFiles {a : Action} (hreset : a ≠ .hardReset) : a.Admits (WhileReady SameFiles) where
  write c _ := write_command c
  setBaud baud _ b := by
    rw [setBaud_eq]
    refine whileReady_ifConnected steady_sameFiles.refl (fun b h => ?_) b
    exact ⟨fun _ => ⟨h.connected, h.mode, h.decoder⟩, rfl⟩
  enterLoader _ b := fun _ => ⟨(ready_enterLoader b).1, sameFiles_enterLoader b⟩
  hardReset h := absurd h hreset

/-- **A flash keeps the files of a board**, whatever its outcome. -/
theorem files_flash (j : Job) (cancelled : Board → Bool) (b : Board) :
    (BlockBoard.flash j cancelled b).link.files = b.files := by
  have hworking : ∀ s ∈ j.working, s.action.Admits (WhileReady SameFiles) :=
    fun s hs => admits_sameFiles (j.ne_hardReset_working s hs)
  have henter := fun b => And.intro (ready_enterLoader b).1 (sameFiles_enterLoader b)
  rcases hrun : (takeAll j cancelled j.plan).outcome (.start j b) with ⟨result, r'⟩
  have hlink : (BlockBoard.flash j cancelled b).link = r'.link := by rw [flash_eq, hrun]
  rw [hlink]
  -- up to the restart the board is at its loader, and a restart keeps the files anyway
  rw [j.plan_eq_working] at hrun
  rcases takeAll_append_cases hrun with ⟨e, hfirst, -⟩ | ⟨r₁, hfirst, hreset⟩
  · exact relates_takeAll_entered steady_sameFiles henter j.working hworking hfirst
  · have hloader : r₁.link.files = b.files :=
      relates_takeAll_entered steady_sameFiles henter j.working hworking hfirst
    have hrestart : ∀ s ∈ [(⟨.hardReset, some j.image.length⟩ : Step)], s.action.Admits SameFiles := by
      intro s hs
      obtain rfl := List.mem_singleton.mp hs
      exact ⟨nofun, nofun, nofun, fun _ => files_hardReset⟩
    have hsame := relates_takeAll steady_sameFiles hrestart j cancelled r₁
    rw [hreset] at hsame
    exact Eq.trans hsame hloader

end Board

end BlockBoard
