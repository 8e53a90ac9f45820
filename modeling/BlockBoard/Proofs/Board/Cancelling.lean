import BlockBoard.Proofs.Board.Receiving
import BlockBoard.Proofs.Loader.Cancelling
/-!
# A simulated board during a flash that is cancelled

Up to the last look at the request to cancel, a flash leaves the flash of a board alone. This needs an
invariant: as soon as the loader has been entered, the board is at its loader between any two calls and
holds nothing of a frame, so that every frame is read as it was written.

- `Board.WhileReady`: the invariant is kept, and a relation holds between the board before and after.
- `Board.relates_takeAll_entered`: a run that enters the loader keeps what its steps keep under the
  invariant.
- `Board.admits_spares`: commands that do not change the flash keep it.
- `Board.sameFlash_of_cancelled`: **a flash that is cancelled leaves the flash of the board alone**.
-/

namespace BlockBoard

namespace Board

open Flash

/-! ## The invariant -/

/-- The flash of the board and its connection are the same before and after. -/
structure SameFlash (b b' : Board) : Prop where
  storage : b'.storage = b.storage
  connected : b'.connected = b.connected

theorem SameFlash.refl (b : Board) : SameFlash b b := ⟨rfl, rfl⟩

theorem SameFlash.trans {a b c : Board} (h : SameFlash a b) (h' : SameFlash b c) : SameFlash a c :=
  ⟨h'.storage.trans h.storage, h'.connected.trans h.connected⟩

theorem Untouched.sameFlash {b b' : Board} (h : Untouched b b') : SameFlash b b' :=
  ⟨h.storage, h.connected⟩

/-- A board that is connected at all is at its loader. -/
def Ready (b : Board) : Prop := b.connected = true → b.AtLoader

/-- From a board that is ready, a relation holds and the board is ready again. -/
def WhileReady (E : Board → Board → Prop) (b b' : Board) : Prop := b.Ready → b'.Ready ∧ E b b'

/-- From a board that is ready, the flash is left alone and the board is ready again. -/
def Spares : Board → Board → Prop := WhileReady SameFlash

/-- What works only on a board that is connected leaves one alone that is not. -/
theorem whileReady_ifConnected {E : Board → Board → Prop} (hrefl : ∀ b, E b b) {f : Board → Board}
    (h : ∀ b : Board, b.AtLoader → (f b).Ready ∧ E b (f b)) (b : Board) :
    WhileReady E b (ifConnected f b).2 := by
  intro hready
  unfold ifConnected
  split
  · rename_i hconnected
    exact h b (hready hconnected)
  · exact ⟨hready, hrefl b⟩

/-- Reading takes bytes off the wire to the host, and nothing else. -/
theorem read_cases (n : Nat) (b : Board) :
    ∃ outbox, (Transport.read n b).2 = { b with outbox } := by
  rw [read_eq]
  split
  · exact ⟨b.outbox, rfl⟩
  · exact ⟨b.outbox.drop n, rfl⟩

/-- Reading leaves a board ready that is. -/
theorem steady_whileReady {E : Board → Board → Prop} (hE : Transport.Steady E) :
    Transport.Steady (WhileReady E) where
  refl b h := ⟨h, hE.refl b⟩
  trans _ _ _ h h' hready := ⟨(h' (h hready).1).1, hE.trans _ _ _ (h hready).2 (h' (h hready).1).2⟩
  read n b hready := by
    refine ⟨?_, hE.read n b⟩
    obtain ⟨outbox, hread⟩ := read_cases n b
    rw [hread]
    intro hconnected
    obtain ⟨h₁, h₂, h₃⟩ := hready hconnected
    exact ⟨h₁, h₂, h₃⟩

theorem steady_sameFlash : Transport.Steady SameFlash where
  refl := .refl
  trans _ _ _ := .trans
  read n b := by
    obtain ⟨outbox, hread⟩ := read_cases n b
    rw [hread]
    exact ⟨rfl, rfl⟩

theorem steady_untouched : Transport.Steady Untouched where
  refl := .refl
  trans _ _ _ := .trans
  read n b := by
    obtain ⟨outbox, hread⟩ := read_cases n b
    rw [hread]
    exact ⟨rfl, rfl⟩

theorem untouched_write {bs : List UInt8} (h : Slip.endByte ∉ bs) (b : Board) :
    Untouched b (Transport.write bs b).2 := by
  rw [write_eq, ifConnected]
  split
  · exact untouched_receive h
  · exact .refl b

/-! ## The steps of a flash -/

theorem spares_write {c : Command} (h : c.op.writesFlash = false) (b : Board) :
    Spares b (Transport.write c.frame b).2 := by
  rw [write_eq]
  refine whileReady_ifConnected .refl (fun b hloader => ?_) b
  obtain ⟨bs, hreceive⟩ := receive_command hloader h
  rw [hreceive]
  exact ⟨fun _ => hloader.emit bs, (untouched_emit b bs).sameFlash⟩

theorem spares_setBaud (baud : UInt32) (b : Board) : Spares b (Transport.setBaud baud b).2 := by
  rw [setBaud_eq]
  refine whileReady_ifConnected .refl (fun b h => ?_) b
  exact ⟨fun _ => ⟨h.connected, h.mode, h.decoder⟩, rfl, rfl⟩

theorem spares_enterLoader (b : Board) : Spares b (Transport.enterLoader b).2 := by
  rw [enterLoader_eq]
  refine whileReady_ifConnected .refl (fun b h => ?_) b
  exact ⟨fun _ => ⟨h.connected, rfl, rfl⟩, rfl, rfl⟩

/-- A step whose commands do not change the flash keeps the invariant, a restart apart. -/
theorem admits_spares {a : Action} (hcommands : ∀ c ∈ a.commands, c.op.writesFlash = false)
    (hreset : a ≠ .hardReset) : a.Admits Spares where
  write c hc := spares_write (hcommands c hc)
  setBaud baud _ := spares_setBaud baud
  enterLoader _ := spares_enterLoader
  hardReset h := absurd h hreset

/-- Entering the loader makes a board ready, whatever it was before. -/
theorem ready_enterLoader (b : Board) :
    (Transport.enterLoader b).2.Ready ∧ SameFlash b (Transport.enterLoader b).2 := by
  rw [enterLoader_eq, ifConnected]
  split
  · exact ⟨fun hconnected => ⟨hconnected, rfl, rfl⟩, rfl, rfl⟩
  · exact ⟨fun hconnected => absurd hconnected ‹_›, .refl b⟩

/-- The steps before the loader is entered do not touch the link. -/
theorem link_takeAll_checks {σ : Type} [Transport σ] (j : Job) (cancelled : σ → Bool) (r : Run σ) :
    r.link = ((takeAll j cancelled
      [plainStep (.verify j.image.length), plainStep .checkCancel]).outcome r).2.link := by
  have hsame : ∀ a : Action, (∀ r : Run σ, r.link = ((a.perform j cancelled).outcome r).2.link) →
      ((plainStep a).take j cancelled).Relates (OnRun Eq) := by
    intro a ha r
    rw [OnRun, Step.link_take]
    exact ha r
  have htrans : ∀ r r' r'' : Run σ, OnRun Eq r r' → OnRun Eq r' r'' → OnRun Eq r r'' :=
    fun _ _ _ => Eq.trans
  have hnil : (takeAll j cancelled [] : Operation (Run σ) SessionError Unit).Relates (OnRun Eq) :=
    fun _ => rfl
  refine Operation.relates_bind (R := OnRun Eq) htrans (hsame _ fun r => ?_) (fun _ =>
    Operation.relates_bind (R := OnRun Eq) htrans (hsame _ fun r => ?_) fun _ => hnil) r
  · rw [outcome_verify]
    repeat' split
    all_goals rfl
  · rfl

/-- A run that begins like a flash keeps a relation that its steps keep on a board that is ready. -/
theorem relates_takeAll_entered {E : Board → Board → Prop} (hE : Transport.Steady E)
    (henter : ∀ b, (Transport.enterLoader b).2.Ready ∧ E b (Transport.enterLoader b).2) {j : Job}
    {cancelled : Board → Bool} (rest : List Step)
    (hrest : ∀ s ∈ rest, s.action.Admits (WhileReady E)) {r r' : Run Board}
    {result : Except SessionError Unit}
    (h : (takeAll j cancelled ([plainStep (.verify j.image.length), plainStep .checkCancel] ++
      plainStep .enterLoader :: rest)).outcome r = (result, r')) : E r.link r'.link := by
  have hchecks := link_takeAll_checks j cancelled r
  rcases takeAll_append_cases h with ⟨e, hfirst, -⟩ | ⟨r₁, hfirst, hsecond⟩
  · rw [hfirst] at hchecks
    rw [hchecks]
    exact hE.refl _
  · rw [hfirst] at hchecks
    obtain ⟨hready, hsame⟩ := henter r₁.link
    rw [takeAll_cons] at hsecond
    have hlink : (((plainStep .enterLoader).take j cancelled).outcome r₁).2.link =
        (Transport.enterLoader r₁.link).2 := by
      rw [Step.link_take]
      show ((onLink Transport.enterLoader).outcome r₁).2.link = _
      rw [outcome_onLink]
      rfl
    rcases Operation.bind_cases hsecond with ⟨e, htake, -⟩ | ⟨_, r₂, htake, hmore⟩
    · rw [htake] at hlink
      rw [hchecks, hlink]
      exact hsame
    · rw [htake] at hlink
      have hkeeps := relates_takeAll (steady_whileReady hE) hrest j cancelled r₂
      rw [hmore] at hkeeps
      rw [hchecks]
      exact hE.trans _ _ _ hsame (hlink ▸ (hkeeps (hlink ▸ hready)).2)

/-- A run that begins like a flash leaves the flash alone, as long as its commands do. -/
theorem sameFlash_takeAll {j : Job} {cancelled : Board → Bool} (rest : List Step)
    (hrest : ∀ s ∈ rest, s.action.Admits Spares) {r r' : Run Board} {result : Except SessionError Unit}
    (h : (takeAll j cancelled ([plainStep (.verify j.image.length), plainStep .checkCancel] ++
      plainStep .enterLoader :: rest)).outcome r = (result, r')) : SameFlash r.link r'.link :=
  relates_takeAll_entered steady_sameFlash ready_enterLoader rest hrest h

/-! ## A flash that is cancelled -/

/-- **A flash that is cancelled leaves the flash of the board alone**, and the board as connected as it
was. -/
theorem sameFlash_of_cancelled {j : Job} {cancelled : Board → Bool} {r r' : Run Board}
    (h : (takeAll j cancelled j.plan).outcome r = (.error .cancelled, r')) :
    SameFlash r.link r'.link := by
  have hadmits : ∀ s ∈ j.approach ++ j.speedUp, s.action.Admits Spares := fun s hs =>
    admits_spares (j.writesFlash_of_mem s hs) (j.ne_hardReset s hs)
  rcases cancelled_cases h with happroach | ⟨r₁, hfirst, hset⟩
  · exact sameFlash_takeAll (j.approach.drop 3)
      (fun s hs => hadmits s (List.mem_append_left _ (List.mem_of_mem_drop hs))) happroach
  · have hsame : SameFlash r.link r₁.link :=
      sameFlash_takeAll (j.approach.drop 3 ++ j.speedUp) (fun s hs => hadmits s (by
        rcases List.mem_append.mp hs with hs | hs
        · exact List.mem_append_left _ (List.mem_of_mem_drop hs)
        · exact List.mem_append_right _ hs)) hfirst
    refine hsame.trans ?_
    rw [setBaud_eq, ifConnected] at hset
    split at hset
    · rw [← (Prod.mk.inj hset).2]
      exact ⟨rfl, rfl⟩
    · cases hset

end Board

end BlockBoard
