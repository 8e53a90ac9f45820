import BlockBoard.Proofs.Session.Relaying
/-!
# What a request does to the port

A relation between an earlier and a later state of the port holds of a whole request if it holds of what the
request asks of the link. All else that a session does, moving, giving up the link, passing on what has been
read, leaves the port alone.

- `Conduct.relates_relayWithin_port`: passing on output only reads.
- `Conduct.relates_run_port`, `Conduct.relates_flash_port` and their like: the requests, one by one.
- `Conduct.relates_perform_port`: **every request keeps a relation that everything that can be asked of a
  link keeps**.
-/

namespace BlockBoard

namespace Conduct

variable {σ α β : Type} {R : σ → σ → Prop}

/-! ## What leaves the port alone -/

theorem relates_bind_port [Transport σ] (hR : Transport.Steady R) {x : Conduct σ α}
    {f : α → Conduct σ β} (hx : x.Relates (OnPort R)) (hf : ∀ a, (f a).Relates (OnPort R)) :
    (x >>= f).Relates (OnPort R) :=
  Operation.relates_bind (R := OnPort R) (fun d d' d'' => hR.trans d.port d'.port d''.port) hx hf

theorem relates_require_port [Transport σ] (hrefl : ∀ s, R s s) (next : SessionState) :
    (require next : Conduct σ Unit).Relates (OnPort R) := by
  intro d
  rw [outcome_require]
  split <;> exact hrefl d.port

theorem relates_abandon_port (hrefl : ∀ s, R s s) (e : SessionError) :
    (abandon e : Conduct σ Unit).Relates (OnPort R) := by
  intro d
  obtain ⟨notices, habandon⟩ := outcome_abandon e d
  have hport : d.abandoned.port = d.port := Desk.port_movedIfPossible _ _
  rw [habandon]
  show R d.port d.abandoned.port
  rw [hport]
  exact hrefl d.port

theorem relates_disconnect_port (hrefl : ∀ s, R s s) :
    (disconnect : Conduct σ Unit).Relates (OnPort R) := by
  intro d
  have hport : d.closed.port = d.port := Desk.port_movedIfPossible _ _
  rw [outcome_disconnect]
  show R d.port d.closed.port
  rw [hport]
  exact hrefl d.port

theorem relates_lose_port (hrefl : ∀ s, R s s) (reason : String) :
    (lose reason : Conduct σ Unit).Relates (OnPort R) := by
  intro d
  rw [outcome_lose]
  show R d.port (Desk.closed _).port
  rw [Desk.closed, Desk.port_movedIfPossible]
  exact hrefl d.port

theorem relates_relay_port (hrefl : ∀ s, R s s) (bs : List UInt8) :
    (relay bs : Conduct σ Unit).Relates (OnPort R) := by
  intro d
  by_cases hbs : bs = []
  · rw [hbs]
    exact hrefl d.port
  · obtain ⟨d', hrelay, -, hport, -⟩ := passed_relay hbs d
    rw [hrelay]
    show R d.port d'.port
    rw [hport]
    exact hrefl d.port

/-! ## Passing on output -/

/-- **Passing on output only reads.** -/
theorem relates_relayWithin_port [Transport σ] (hR : Transport.Steady R) (fuel : Nat) :
    (relayWithin fuel : Conduct σ Unit).Relates (OnPort R) := by
  induction fuel with
  | zero => exact fun d => hR.refl d.port
  | succ fuel ih =>
    refine relates_bind_port hR (fun d => hR.refl d.port) fun s => ?_
    split
    · refine relates_bind_port hR (fun d => hR.read relayChunk d.port) fun answer => ?_
      cases answer with
      | silent => exact fun d => hR.refl d.port
      | failed e => exact relates_lose_port hR.refl _
      | bytes bs =>
        cases bs with
        | nil => exact relates_lose_port hR.refl _
        | cons b r => exact relates_bind_port hR (relates_relay_port hR.refl _) fun _ => ih
    · exact fun d => hR.refl d.port

/-! ## Requests -/

theorem relates_connect_port [Connector σ] (hR : Transport.Steady R)
    (hopen : ∀ settings s, R s (Connector.openLink settings s).2) :
    (connect : Conduct σ Unit).Relates (OnPort R) := by
  refine relates_bind_port hR (relates_move_port hR.refl _) fun _ =>
    relates_bind_port hR (fun d => hR.refl d.port) fun s => ?_
  have hlink : (onPort ((Operation.of (Connector.openLink s.device)).mapError .link) :
      Conduct σ String).Relates (OnPort R) := fun d =>
    Operation.relates_mapError (x := Operation.of (Connector.openLink s.device)) (hopen s.device) d.port
  exact relates_bind_port hR (relates_orAbandon_port hlink) fun _ =>
    relates_bind_port hR (fun d => hR.refl d.port) fun _ => relates_move_port hR.refl _

section Transport

variable [Transport σ] (hR : Transport.Steady R) (hinterrupt : ∀ s, R s (Transport.write interruption s).2)
  (hleave : ∀ s, R s (Transport.write leave s).2)

include hR hinterrupt hleave

theorem relates_stop_port : (stop : Conduct σ Unit).Relates (OnPort R) := by
  refine relates_bind_port hR (fun d => hR.refl d.port) fun s => ?_
  split
  · exact relates_quiesce hR hinterrupt hleave
  · exact fun d => hR.refl d.port
  · exact fun d => hR.refl d.port

theorem relates_run_port {p : Program}
    (hrun : ∀ timeout, (do RawMode.enter timeout; RawMode.upload timeout p.bytes :
      Operation σ SessionError (List UInt8)).Relates R) :
    (run p : Conduct σ Unit).Relates (OnPort R) := by
  refine relates_bind_port hR (relates_require_port hR.refl _) fun _ =>
    relates_bind_port hR (relates_quiesce hR hinterrupt hleave) fun _ =>
    relates_bind_port hR (relates_move_port hR.refl _) fun _ =>
    relates_bind_port hR (fun d => hR.refl d.port) fun timeout => ?_
  exact relates_bind_port hR (relates_orAbandon_port (relates_onLink_port hR.refl (hrun timeout))) fun _ =>
    relates_bind_port hR (fun d => hR.refl d.port) fun _ => relates_relay_port hR.refl _

omit hinterrupt hleave in
theorem relates_deliver_port {cancelled : σ → Bool} {j : Flash.Job}
    (hflash : ∀ s, R s (BlockBoard.flash j cancelled s).link)
    (hreset : ∀ s, R s (Transport.hardReset s).2) :
    (deliver cancelled j).Relates (OnPort R) := by
  have hsend : (sendImage cancelled j).Relates (OnPort R) := by
    intro d
    rw [outcome_sendImage]
    split
    · exact hflash d.port
    · exact hR.refl d.port
  have hrestart : (attempt (onPort ((Operation.of Transport.hardReset).mapError .link)) :
      Conduct σ (Except SessionError Unit)).Relates (OnPort R) := fun d =>
    Operation.relates_mapError (x := Operation.of Transport.hardReset) hreset d.port
  have hback : ∀ (a : Except SessionError FlashReport),
      (do move .connected; ofExcept a : Conduct σ FlashReport).Relates (OnPort R) := fun a =>
    relates_bind_port hR (relates_move_port hR.refl _) fun _ d => hR.refl d.port
  refine relates_bind_port hR (x := attempt (sendImage cancelled j)) hsend fun result => ?_
  split
  · exact hback (.ok _)
  · refine relates_bind_port hR (fun d => hR.refl d.port) fun s => ?_
    split
    · refine relates_bind_port hR hrestart fun answer => ?_
      split
      · exact relates_bind_port hR (fun d => hR.refl d.port) fun _ => hback (.error .cancelled)
      · exact hback (.error .cancelled)
    · exact hback (.error .cancelled)
  · exact relates_bind_port hR (relates_abandon_port hR.refl _) fun _ d => hR.refl d.port

theorem relates_flash_port {cancelled : σ → Bool} (image : List UInt8) (expected : Nat)
    (hflash : ∀ j s, R s (BlockBoard.flash j cancelled s).link)
    (hreset : ∀ s, R s (Transport.hardReset s).2) :
    (flash cancelled image expected).Relates (OnPort R) := by
  intro d
  rw [outcome_flash]
  have hrest : (do
      require .flashing
      quiesce
      move .flashing
      let s ← session
      deliver cancelled ⟨s.device, s.flashing, image, expected⟩ : Conduct σ FlashReport).Relates
        (OnPort R) :=
    relates_bind_port hR (relates_require_port hR.refl _) fun _ =>
      relates_bind_port hR (relates_quiesce hR hinterrupt hleave) fun _ =>
      relates_bind_port hR (relates_move_port hR.refl _) fun _ =>
      relates_bind_port hR (fun d => hR.refl d.port) fun s =>
        relates_deliver_port hR (hflash _) hreset
  exact hrest (begun image d)

theorem relates_saveProgram_port {p : Program}
    (hwrite : ∀ timeout, (writeBootProgram timeout p : Operation σ SessionError Unit).Relates R) :
    (saveProgram p : Conduct σ Unit).Relates (OnPort R) := by
  refine relates_bind_port hR (relates_quiesce hR hinterrupt hleave) fun _ =>
    relates_bind_port hR (relates_move_port hR.refl _) fun _ =>
    relates_bind_port hR (fun d => hR.refl d.port) fun timeout => ?_
  exact relates_orAbandon_port (relates_onLink_port hR.refl (hwrite timeout))

theorem relates_save_port {p : Program}
    (hwrite : ∀ timeout, (writeBootProgram timeout p : Operation σ SessionError Unit).Relates R) :
    (save p : Conduct σ SaveOutcome).Relates (OnPort R) := by
  intro d
  rw [outcome_save]
  split
  · exact hR.refl d.port
  split
  · exact hR.refl d.port
  · have hnoted : (do
        update fun s => { s with tail := [], saved := some p.digest }
        return .written p.bytes.length p.digest : Conduct σ SaveOutcome).Relates (OnPort R) :=
      fun d => hR.refl d.port
    exact relates_bind_port hR (relates_saveProgram_port hR hinterrupt hleave hwrite) (fun _ => hnoted) d

omit hinterrupt hleave in
theorem relates_input_port {bs : List UInt8} (hwrite : ∀ s, R s (Transport.write bs s).2) :
    (input bs : Conduct σ Unit).Relates (OnPort R) := by
  have hsend : (onPort ((send bs).mapError .link) : Conduct σ Unit).Relates (OnPort R) := fun d =>
    Operation.relates_mapError (x := send bs) hwrite d.port
  refine relates_bind_port hR (fun d => hR.refl d.port) fun s => ?_
  dsimp only
  split
  · exact fun d => hR.refl d.port
  split
  · exact fun d => hR.refl d.port
  · refine relates_bind_port hR (x := attempt _) hsend fun answer => ?_
    split
    · exact fun d => hR.refl d.port
    · exact relates_bind_port hR (relates_lose_port hR.refl _) fun _ d => hR.refl d.port

end Transport

end Conduct

/-! ## Everything that can be asked -/

namespace Connector.Stable

variable {σ : Type} [Connector σ] {R : σ → σ → Prop}

/-- A flash keeps such a relation, whatever comes of it. -/
theorem flash (hR : Connector.Stable R) (j : Flash.Job) (cancelled : σ → Bool) (s : σ) :
    R s (BlockBoard.flash j cancelled s).link := by
  have hsteps : ∀ step ∈ j.plan, step.action.Admits R := fun _ _ =>
    ⟨fun c _ => hR.write c.frame, fun baud _ => hR.setBaud baud, fun _ => hR.enterLoader,
      fun _ => hR.hardReset⟩
  exact Flash.relates_takeAll hR.toSteady hsteps j cancelled (.start j s)

theorem enter (hR : Connector.Stable R) (timeout : Nat) :
    (RawMode.enter timeout : Operation σ SessionError Unit).Relates R := by
  have hinterrupt : (RawMode.interrupt : Operation σ SessionError Unit).Relates R :=
    Operation.relates_mapError (Operation.relates_bind hR.trans (hR.write _) fun _ =>
      Operation.relates_bind hR.trans (relates_drain hR.toSteady) fun _ => hR.refl)
  exact Operation.relates_bind hR.trans hinterrupt fun _ => Operation.relates_mapError
    (Operation.relates_bind hR.trans (hR.write _) fun _ =>
      Operation.relates_bind hR.trans (relates_readUntil hR.toSteady _ _) fun _ => hR.refl)

theorem sendAll (hR : Connector.Stable R) (ps : List (List UInt8)) :
    (RawMode.sendAll ps : Operation σ LinkError Unit).Relates R := by
  induction ps with
  | nil => exact hR.refl
  | cons p r ih => exact Operation.relates_bind hR.trans (hR.write p) fun _ => ih

theorem upload (hR : Connector.Stable R) (timeout : Nat) (program : List UInt8) :
    (RawMode.upload timeout program : Operation σ SessionError (List UInt8)).Relates R :=
  Operation.relates_mapError (Operation.relates_bind hR.trans (hR.sendAll _) fun _ =>
    Operation.relates_bind hR.trans (hR.write _) fun _ =>
      Operation.relates_bind hR.trans (relates_readUntil hR.toSteady _ _) fun _ => hR.refl)

theorem execAll (hR : Connector.Stable R) (timeout : Nat) (programs : List String) :
    (RawMode.execAll timeout programs : Operation σ SessionError Unit).Relates R := by
  induction programs with
  | nil => exact hR.refl
  | cons p r ih =>
    have hexec : (RawMode.exec timeout p : Operation σ SessionError String).Relates R :=
      Operation.relates_bind hR.trans (hR.upload _ _) fun _ =>
        Operation.relates_bind hR.trans
          (Operation.relates_mapError fun s => relates_readUntilWithin hR.toSteady _ _ _ _ s)
          fun _ => hR.refl
    exact Operation.relates_bind hR.trans hexec fun _ => ih

/-- Replacing the boot program and restarting the board keeps such a relation, whatever comes of it. -/
theorem writeBootProgram (hR : Connector.Stable R) (timeout : Nat) (p : Program) :
    (Conduct.writeBootProgram timeout p : Operation σ SessionError Unit).Relates R :=
  Operation.relates_bind hR.trans (hR.enter _) fun _ =>
    Operation.relates_bind hR.trans (hR.execAll _ _) fun _ =>
      Operation.relates_bind hR.trans (Operation.relates_mapError (hR.write _)) fun _ =>
        Operation.relates_mapError (hR.write _)

end Connector.Stable

namespace Conduct

variable {σ : Type} [Connector σ] {R : σ → σ → Prop}

/-- **Every request keeps a relation that everything that can be asked of a link keeps.** -/
theorem relates_perform_port (hR : Connector.Stable R) (cancelled : σ → Bool) (r : Request) :
    (r.perform cancelled).Relates (OnPort R) := by
  have hsteady := hR.toSteady
  have hanswer : ∀ {α : Type} {x : Conduct σ α} (f : α → Reply), x.Relates (OnPort R) →
      (do return f (← x) : Conduct σ Reply).Relates (OnPort R) :=
    fun f hx => relates_bind_port hsteady hx fun _ d => hR.refl d.port
  cases r with
  | connect => exact hanswer (fun _ => .done) (relates_connect_port hsteady hR.openLink)
  | disconnect => exact hanswer (fun _ => .done) (relates_disconnect_port hR.refl)
  | stop => exact hanswer (fun _ => .done) (relates_stop_port hsteady (hR.write _) (hR.write _))
  | clear => exact fun d => hR.refl d.port
  | snapshot => exact fun d => hR.refl d.port
  | run p =>
    exact hanswer (fun _ => .done) (relates_run_port hsteady (hR.write _) (hR.write _) fun timeout =>
      Operation.relates_bind hR.trans (hR.enter timeout) fun _ => hR.upload timeout _)
  | save p =>
    exact hanswer .saved
      (relates_save_port hsteady (hR.write _) (hR.write _) fun timeout => hR.writeBootProgram timeout p)
  | input bs => exact hanswer (fun _ => .done) (relates_input_port hsteady (hR.write bs))
  | flash image expected =>
    exact hanswer .flashed (relates_flash_port hsteady (hR.write _) (hR.write _) image expected
      (fun j s => hR.flash j cancelled s) hR.hardReset)

end Conduct

end BlockBoard
