import Gd32Firmware.SdTransfer

/-!
# Rules for the card driver

One rule for every part of the driver. A rule asks what an assertion has to survive : the
instants (`Keeps I acc`), the clearing of flags, the notes in the log, and the writes to the
variables. `HandlerKeeps` collects this for the interrupt handler, so that an assertion that
meets it survives every instant of the thread.
-/

namespace Gd32Firmware

open Program

namespace Program

variable {α : Type} {acc : Program World Unit} {I P T A E : World → Prop}

/-! ## The library -/

theorem Keeps.configure {s : Setting} (hacc : Keeps I acc)
    (h : ∀ w, I w → I (w.note (.set s))) : Keeps I (configure acc s) :=
  hacc.bind fun _ => Keeps.note h

/-- A register is read in the state that the instant before left. -/
theorem Triple.reads {f : World → α} (hacc : Triple P acc (fun _ => I) E) :
    Triple P (do acc; Pure.pure (f (← MonadState.get))) (fun a w => I w ∧ f w = a) E :=
  Triple.bind hacc fun _ =>
    Triple.bind (Triple.get (Q := fun w w' => I w' ∧ w' = w) fun _ hw => ⟨hw, rfl⟩) fun _ =>
      Triple.pure _ fun _ hw => ⟨hw.1, by rw [hw.2]⟩

theorem Keeps.reads {f : World → α} (hacc : Keeps I acc) :
    Keeps I (do acc; Pure.pure (f (← MonadState.get))) :=
  (Triple.reads hacc).imp fun _ _ h => h.1

theorem Triple.sdioStat (hacc : Triple P acc (fun _ => I) E) :
    Triple P (sdioStat acc) (fun stat w => I w ∧ w.sdio.stat = stat) E :=
  Triple.reads hacc

theorem Keeps.sdioStat (hacc : Keeps I acc) : Keeps I (sdioStat acc) :=
  Keeps.reads hacc

theorem Triple.sdioFlagGet {mask : List Flag} (hacc : Triple P acc (fun _ => I) E) :
    Triple P (sdioFlagGet acc mask) (fun b w => I w ∧ (b = true ↔ anySet mask w.sdio.stat)) E :=
  Triple.bind (Triple.sdioStat hacc) fun _ => Triple.pure _ fun _ hw => ⟨hw.1, by simp [hw.2]⟩

theorem Keeps.sdioFlagGet {mask : List Flag} (hacc : Keeps I acc) :
    Keeps I (sdioFlagGet acc mask) :=
  (Triple.sdioFlagGet hacc).imp fun _ _ h => h.1

theorem Triple.sdioFlagClear {mask : List Flag} {Q : Unit → World → Prop} (hacc : Keeps I acc)
    (h : ∀ w, I w → Q () (w.clear mask)) : Triple I (sdioFlagClear acc mask) Q I :=
  Triple.bind hacc fun _ => Triple.modify _ h

theorem Keeps.sdioFlagClear {mask : List Flag} (hacc : Keeps I acc)
    (h : ∀ w, I w → I (w.clear mask)) : Keeps I (sdioFlagClear acc mask) :=
  Triple.sdioFlagClear hacc h

theorem Triple.sdioCommandIndexGet (hacc : Keeps I acc) :
    Triple I (sdioCommandIndexGet acc) (fun index w => I w ∧ w.sdio.rspcmdidx = index) I :=
  Triple.reads hacc

theorem Keeps.sdioCommandIndexGet (hacc : Keeps I acc) : Keeps I (sdioCommandIndexGet acc) :=
  Keeps.reads hacc

theorem Triple.sdioResponseGet {i : Fin 4} (hacc : Keeps I acc) :
    Triple I (sdioResponseGet acc i) (fun word w => I w ∧ w.sdio.resp i = word) I :=
  Triple.reads hacc

theorem Keeps.sdioResponseGet {i : Fin 4} (hacc : Keeps I acc) :
    Keeps I (sdioResponseGet acc i) :=
  Keeps.reads hacc

/-- A word is taken from the state that the instant before left. -/
theorem Triple.sdioDataRead {Q : UInt32 → World → Prop} (hacc : Triple P acc (fun _ => I) E)
    (h : ∀ w, I w → Q (w.sdio.fifo.headD 0) ((w.setSdio fun sdio =>
      { sdio with fifo := sdio.fifo.tail }).note (.read (w.sdio.fifo.headD 0)))) :
    Triple P (sdioDataRead acc) Q E := by
  refine Triple.bind hacc fun _ => ?_
  refine Triple.bind (Q := fun w' w => I w ∧ w = w') (Triple.get fun _ hw => ⟨hw, rfl⟩)
    fun w' => ?_
  refine Triple.bind (Q := fun _ w =>
    Q (w'.sdio.fifo.headD 0) (w.note (.read (w'.sdio.fifo.headD 0)))) (Triple.modify _ ?_)
    fun _ => ?_
  · rintro w ⟨hw, rfl⟩
    exact h w hw
  · exact Triple.bind (Q := fun _ => Q (w'.sdio.fifo.headD 0)) (Triple.note fun _ hw => hw)
      fun _ => Triple.pure _ fun _ hw => hw

theorem Keeps.sdioDataRead (hacc : Keeps I acc)
    (hfifo : ∀ w, I w → I (w.setSdio fun sdio => { sdio with fifo := sdio.fifo.tail }))
    (hread : ∀ word w, I w → I (w.note (.read word))) : Keeps I (sdioDataRead acc) :=
  Triple.sdioDataRead hacc fun w hw => hread _ _ (hfifo w hw)

theorem Keeps.dmaConfig {s : Setting} (hacc : Keeps I acc)
    (hftf : ∀ w, I w → I (w.setSdio fun sdio => { sdio with ftf := false }))
    (h : ∀ w, I w → I (w.note (.set s))) : Keeps I (dmaConfig acc s) :=
  hacc.bind fun _ => (Keeps.modify _ hftf).bind fun _ => Keeps.note h

theorem Keeps.getDrv : Keeps I getDrv :=
  Triple.getDrv fun _ h => h

/-- A continuation runs in the state that the first program leaves if it returned `SD_OK`. -/
theorem Triple.ifOk {f rest : Program World SdError} {Q R : SdError → World → Prop}
    (hf : Triple P f Q E) (hrest : Triple (Q .ok) rest R E)
    (hR : ∀ status w, status ≠ .ok → Q status w → R status w) : Triple P (ifOk f rest) R E := by
  refine Triple.bind hf fun status => ?_
  refine Triple.ite (fun h => ?_) fun h => Triple.pure _ (hR status · h)
  subst h
  exact hrest

theorem Keeps.ifOk {f rest : Program World SdError} (hf : Keeps I f) (hrest : Keeps I rest) :
    Keeps I (ifOk f rest) :=
  Triple.ifOk hf hrest fun _ _ _ h => h

theorem Keeps.checkFaults (hacc : Keeps I acc) (hclear : ∀ mask w, I w → I (w.clear mask)) :
    ∀ faults, Keeps I (checkFaults acc faults)
  | [] => Keeps.pure _
  | (flag, _) :: faults => (Keeps.sdioFlagGet hacc).bind fun _ =>
    Keeps.ite ((Keeps.sdioFlagClear hacc (hclear [flag])).bind fun _ => Keeps.pure _)
      (checkFaults hacc hclear faults)

/-! ## Responses -/

theorem Triple.waitResponse (hacc : Keeps I acc) :
    Triple I (waitResponse acc) (fun _ => I) I :=
  Keeps.sdLoop (fun _ => (Keeps.sdioStat hacc).bind fun _ =>
    Keeps.ite (Keeps.pure _) (Keeps.pure _)) ()

/-- `P` holds until the flags are cleared, `T` from then on, and `A` if the response is
accepted. -/
theorem Triple.r1ErrorCheck {cmdindex : UInt8} (hP : Keeps P acc)
    (hclear : ∀ flag w, P w → P (w.clear [flag])) (hT : Keeps T acc)
    (htake : ∀ w, P w → T ((w.clear sdioMaskIntcFlags).note (.taken cmdindex)))
    (hA : ∀ w, T w → A (w.note (.accepted cmdindex))) :
    Triple P (r1ErrorCheck acc cmdindex)
      (fun status w => (status = .ok → A w) ∧ (status ≠ .ok → P w ∨ T w))
      fun w => P w ∨ T w := by
  have hstay : ∀ flag fault, fault ≠ SdError.ok →
      Triple P (do Gd32Firmware.sdioFlagClear acc [flag]; Pure.pure fault)
        (fun status w => (status = .ok → A w) ∧ (status ≠ .ok → P w ∨ T w)) fun w => P w ∨ T w :=
    fun flag fault hfault =>
      Triple.bind (Q := fun _ => P) ((Keeps.sdioFlagClear hP (hclear flag)).weaken
        (fun _ _ h => h) fun _ h => Or.inl h) fun _ =>
        Triple.pure _ fun w hw => ⟨fun h => absurd h hfault, fun _ => Or.inl hw⟩
  refine Triple.bind (Q := fun _ => P)
    ((Triple.waitResponse hP).weaken (fun _ _ h => h) fun _ h => Or.inl h) fun regStatus => ?_
  refine Triple.ite (fun _ => hstay _ _ (by decide)) fun _ =>
    Triple.ite (fun _ => hstay _ _ (by decide)) fun _ => ?_
  refine Triple.bind (Q := fun _ => P)
    ((Keeps.sdioCommandIndexGet hP).weaken (fun _ _ h => h) fun _ h => Or.inl h) fun index => ?_
  refine Triple.ite (fun _ => Triple.pure _ fun w hw => ⟨nofun, fun _ => Or.inl hw⟩) fun _ => ?_
  -- the flags are cleared
  refine Triple.bind (Q := fun _ => T) ?_ fun _ => ?_
  · refine Triple.bind (Q := fun _ w => T (w.note (.taken cmdindex))) ?_ fun _ =>
      Triple.note fun _ hw => hw
    exact (Triple.sdioFlagClear hP htake).weaken (fun _ _ h => h) fun _ h => Or.inl h
  refine Triple.bind (Q := fun _ => T)
    ((Keeps.sdioResponseGet hT).weaken (fun _ _ h => h) fun _ h => Or.inr h) fun resp => ?_
  refine Triple.ite (fun _ => ?_) fun _ => ?_
  · exact Triple.bind (Q := fun _ => A) (Triple.note hA) fun _ =>
      Triple.pure _ fun w hw => ⟨fun _ => hw, fun h => absurd rfl h⟩
  · exact Triple.pure _ fun w hw =>
      ⟨fun h => absurd h (r1ErrorTypeCheck_ne_ok resp), fun _ => Or.inr hw⟩

theorem Keeps.r1ErrorCheck {cmdindex : UInt8} (hacc : Keeps I acc)
    (hclear : ∀ mask w, I w → I (w.clear mask))
    (htaken : ∀ w, I w → I (w.note (.taken cmdindex)))
    (haccepted : ∀ w, I w → I (w.note (.accepted cmdindex))) :
    Keeps I (r1ErrorCheck acc cmdindex) := by
  refine (Triple.r1ErrorCheck hacc (fun flag => hclear [flag]) hacc
    (fun w hw => htaken _ (hclear _ w hw)) haccepted).weaken (fun status w h => ?_) fun w h => ?_
  · by_cases hok : status = .ok
    · exact h.1 hok
    · exact (h.2 hok).elim id id
  · exact h.elim id id

/-! ## Commands -/

/-- The assertion `C` about the command in the registers survives the instants, so the
command that goes out is in `C`. -/
theorem Triple.sendCommand {C : Command → Prop} {Q : Unit → World → Prop} {index : UInt8}
    {argument : UInt32} {response : ResponseType} (hacc : Keeps I acc)
    (hC : Keeps (fun w => I w ∧ C w.sdio.command) acc) (hself : C ⟨index, argument, response⟩)
    (hconf : ∀ w, I w → I (w.setSdio fun sdio =>
      { sdio with command := ⟨index, argument, response⟩ }))
    (hwait : ∀ w, I w → I (w.note (.set .waitType)))
    (hcmd : ∀ c w, C c → I w → Q () (w.note (.cmd c))) :
    Triple I (sendCommand acc index argument response) Q I := by
  refine Triple.bind (Q := fun _ w => I w ∧ C w.sdio.command) ?_ fun _ => ?_
  · exact Triple.bind hacc fun _ => Triple.modify _ fun w hw => ⟨hconf w hw, hself⟩
  refine Triple.bind (Q := fun _ w => I w ∧ C w.sdio.command) ?_ fun _ => ?_
  · refine (Keeps.configure hC fun w hw => ?_).weaken (fun _ _ h => h) fun _ h => h.1
    exact ⟨hwait w hw.1, hw.2⟩
  refine Triple.bind (Q := fun _ w => I w ∧ C w.sdio.command)
    (hC.weaken (fun _ _ h => h) fun _ h => h.1) fun _ => ?_
  exact Triple.modify _ fun w hw => hcmd _ w hw.2 hw.1

/-- Nothing is known about the command that goes out. -/
theorem Triple.sendAnyCommand {Q : Unit → World → Prop} {index : UInt8} {argument : UInt32}
    {response : ResponseType} (hacc : Keeps I acc)
    (hconf : ∀ w, I w → I (w.setSdio fun sdio =>
      { sdio with command := ⟨index, argument, response⟩ }))
    (hwait : ∀ w, I w → I (w.note (.set .waitType)))
    (hcmd : ∀ c w, I w → Q () (w.note (.cmd c))) :
    Triple I (Gd32Firmware.sendCommand acc index argument response) Q I :=
  Triple.sendCommand (C := fun _ => True) hacc
    (hacc.conseq (fun _ hw => hw.1) (fun _ _ hw => ⟨hw, True.intro⟩) fun _ hw => ⟨hw, True.intro⟩)
    True.intro hconf hwait fun c w _ => hcmd c w

end Program

/-- The command that the handler sends. -/
def stopCommand : Command := ⟨12, 0, .short⟩

/-! ## The handler -/

/-- The handler wrote nothing but its three variables. -/
def Driver.HandlerWrote (drv drv' : Driver) : Prop :=
  drv' = { drv with
    transerror := drv'.transerror
    transend := drv'.transend
    numberBytes := drv'.numberBytes }

/-- A setting that does not say what a transfer moves. -/
def Setting.Plain : Setting → Prop
  | .dataConfig .. | .dmaReceive .. | .dmaTransfer .. => False
  | _ => True

/-- What the log records while the handler runs. -/
def Event.OfHandler : Event → Prop
  | .set s => s.Plain
  | .irq _ | .irqEnd _ | .irqFault _ => True
  | .cmd c => c = stopCommand
  | .taken cmdindex | .accepted cmdindex => cmdindex = 12
  | _ => False

/-- An assertion that survives whatever an instant of the thread does. -/
structure HandlerKeeps (I : World → Prop) : Prop where
  observe : ∀ s tape w, I w → I (w.observe s tape)
  clear : ∀ mask w, I w → I (w.clear mask)
  stop : ∀ w, I w → I (w.setSdio fun sdio => { sdio with command := stopCommand })
  event : ∀ e w, e.OfHandler → I w → I (w.note e)
  drv : ∀ f w, (∀ drv : Driver, drv.HandlerWrote (f drv)) → I w → I (w.setDrv f)

namespace Program

variable {α : Type} {acc : Program World Unit} {I P P₁ E : World → Prop}

theorem Keeps.command_masked {C : Command → Prop} :
    Keeps (fun w => C w.sdio.command) Gd32Firmware.masked :=
  Keeps.masked fun _ _ _ hw => hw

/-- The handler : what holds when it starts, and what its branches make of it. -/
theorem Triple.sdInterruptsProcess {Q : World → Prop}
    (hirq : ∀ w, P w → P₁ ((w.note (.irq w.drv.transerror)).setDrv
      fun drv => { drv with transerror := .ok }))
    (hmasked : Keeps P₁ masked)
    (hend : Triple (fun w => P₁ w ∧ .dtend ∈ w.sdio.stat) handleEnd (fun _ => Q) E)
    (hfault : ∀ flag fault, (flag, fault) ∈ handlerFaults →
      Triple (fun w => P₁ w ∧ flag ∈ w.sdio.stat) (handlerFault flag fault) (fun _ => Q) E)
    (hQ : ∀ w, P₁ w → Q w) (hE : ∀ w, P₁ w → E w) :
    Triple P sdInterruptsProcess (fun _ => Q) E := by
  have hfaults : ∀ faults, (∀ e ∈ faults, e ∈ handlerFaults) →
      Triple P₁ (handleFaults faults) (fun _ => Q) E := by
    intro faults
    induction faults with
    | nil => exact fun _ => (Keeps.getDrv.weaken (fun _ _ h => h) hE).bind fun _ => Triple.pure _ hQ
    | cons e faults ih =>
      intro hsub
      refine Triple.bind ((Triple.sdioFlagGet hmasked).weaken (fun _ _ h => h) hE) fun b => ?_
      refine Triple.ite (fun hb => ?_) fun _ => ?_
      · exact (hfault e.1 e.2 (hsub e (by simp))).strengthen fun w hw =>
          ⟨hw.1, anySet_singleton.mp (hw.2.1 hb)⟩
      · exact (ih fun e he => hsub e (by simp [he])).strengthen fun _ hw => hw.1
  refine Triple.bind (Q := fun drv w => P w ∧ drv = w.drv)
    (Triple.getDrv fun w hw => ⟨hw, rfl⟩) fun drv => ?_
  refine Triple.bind (Q := fun _ w => P₁ (w.setDrv fun drv => { drv with transerror := .ok }))
    (Triple.note ?_) fun _ => ?_
  · rintro w ⟨hw, rfl⟩
    exact hirq w hw
  refine Triple.bind (Q := fun _ => P₁) (Triple.setDrv fun _ hw => hw) fun _ => ?_
  refine Triple.bind ((Triple.sdioFlagGet hmasked).weaken (fun _ _ h => h) hE) fun b => ?_
  refine Triple.ite (fun hb => ?_) fun _ => ?_
  · exact hend.strengthen fun w hw => ⟨hw.1, anySet_singleton.mp (hw.2.1 hb)⟩
  · exact (hfaults _ fun _ h => h).strengthen fun _ hw => hw.1

/-- An error branch of the handler : `F` holds until the flag is cleared, `I` from then on. -/
theorem Triple.handlerFault {F : World → Prop} {flag : Flag} {fault : SdError}
    (hfault : ∀ w, P w → F (w.note (.irqFault flag))) (hF : Keeps F Gd32Firmware.masked)
    (hclear : ∀ w, F w → I (w.clear [flag])) (hI : Keeps I Gd32Firmware.masked)
    (hset : ∀ s w, Setting.Plain s → I w → I (w.note (.set s)))
    (hdrv : ∀ w, I w → I (w.setDrv fun drv => { drv with numberBytes := 0, transerror := fault }))
    (hFE : ∀ w, F w → E w) (hIE : ∀ w, I w → E w) :
    Triple P (handlerFault flag fault) (fun _ => I) E := by
  refine Triple.bind (Q := fun _ => F) (Triple.note hfault) fun _ => ?_
  refine Triple.bind ((Triple.sdioFlagClear (Q := fun _ => I) hF hclear).weaken
    (fun _ _ h => h) hFE) fun _ => Triple.weaken ?_ (fun _ _ h => h) hIE
  refine (Keeps.configure hI (hset (.interruptDisable _) · True.intro)).bind fun _ => ?_
  exact (Keeps.setDrv hdrv).bind fun _ => Keeps.pure _

/-- An instant of the thread, from what the hardware and the handler do. -/
theorem Keeps.access (hobserve : ∀ s tape w, I w → I (w.observe s tape))
    (hirq : Keeps I sdInterruptsProcess) : Keeps I access := by
  refine Triple.bind (Triple.tick (Q := fun _ => I) hobserve fun _ h => h) fun irq => ?_
  exact Keeps.ite (hirq.bind fun _ => Keeps.pure ()) (Keeps.pure ())

end Program

namespace HandlerKeeps

variable {I : World → Prop}

theorem masked (h : HandlerKeeps I) : Keeps I masked :=
  Keeps.masked h.observe

theorem sdTransferStop (h : HandlerKeeps I) :
    Keeps I (sdTransferStop Gd32Firmware.masked) := by
  refine Triple.bind (Q := fun _ => I) ?_ fun _ => ?_
  · exact Triple.sendCommand (C := (· = stopCommand)) h.masked
      (h.masked.and (Keeps.command_masked (C := (· = stopCommand)))) rfl h.stop
      (fun w => h.event (.set _) w trivial) fun c w hc => h.event _ w hc
  · exact Keeps.r1ErrorCheck h.masked h.clear (fun w => h.event _ w rfl)
      fun w => h.event _ w rfl

/-- The branch for the end of the data : what holds once it is entered, and what its stop
command makes of it. -/
theorem handleEnd (h : HandlerKeeps I) {P E : World → Prop} {N : UInt32 → World → Prop}
    (hend : ∀ w, P w → N w.drv.stopcondition (w.note (.irqEnd w.drv.stopcondition)))
    (hstop : ∀ stopcondition, Triple (N stopcondition) (handlerStop stopcondition)
      (fun _ => I) E) (hE : ∀ w, I w → E w) : Triple P handleEnd (fun _ => I) E := by
  refine Triple.bind (Q := fun drv w => P w ∧ w.drv = drv) (Triple.getDrv fun _ hw => ⟨hw, rfl⟩)
    fun drv => ?_
  refine Triple.bind (Q := fun _ => N drv.stopcondition) (Triple.note ?_) fun _ => ?_
  · rintro w ⟨hw, rfl⟩
    exact hend w hw
  refine Triple.bind (hstop _) fun transerror => Triple.weaken ?_ (fun _ _ h => h) hE
  refine Keeps.bind (Keeps.setDrv fun w => h.drv _ w fun _ => by rfl) fun _ => ?_
  refine (Keeps.sdioFlagClear h.masked (h.clear _)).bind fun _ => ?_
  refine (Keeps.configure h.masked fun w =>
    h.event (.set (.interruptDisable _)) w trivial).bind fun _ => ?_
  exact (Keeps.setDrv fun w => h.drv _ w fun _ => by rfl).bind fun _ => Keeps.pure _

theorem handlerStop (h : HandlerKeeps I) (stopcondition : UInt32) :
    Keeps I (handlerStop stopcondition) :=
  Keeps.ite h.sdTransferStop (Keeps.pure _)

theorem handlerFault (h : HandlerKeeps I) {P : World → Prop} {flag : Flag} (fault : SdError)
    (hfault : ∀ w, P w → I (w.note (.irqFault flag))) :
    Triple P (handlerFault flag fault) (fun _ => I) I :=
  Triple.handlerFault hfault h.masked (h.clear _) h.masked
    (fun s w hs => h.event (.set s) w hs) (fun w => h.drv _ w fun _ => rfl)
    (fun _ hw => hw) fun _ hw => hw

/-- The handler keeps the assertion from the moment on at which its entry establishes it. -/
theorem sdInterruptsProcess (h : HandlerKeeps I) {P : World → Prop}
    (hirq : ∀ w, P w → I ((w.note (.irq w.drv.transerror)).setDrv
      fun drv => { drv with transerror := .ok })) :
    Triple P sdInterruptsProcess (fun _ => I) I :=
  Triple.sdInterruptsProcess hirq h.masked
    (h.handleEnd (N := fun _ => I) (fun w hw => h.event _ w trivial hw.1) h.handlerStop
      fun _ hw => hw)
    (fun flag fault _ => h.handlerFault fault fun w hw => h.event (.irqFault flag) w trivial hw.1)
    (fun _ hw => hw) fun _ hw => hw

theorem access (h : HandlerKeeps I) : Keeps I access :=
  Keeps.access h.observe <|
    h.sdInterruptsProcess fun w hw => h.drv _ _ (fun _ => rfl) (h.event _ w trivial hw)

/-- What every sample establishes holds after an instant. The handler may clear flags, but it
takes one more sample after the last of them. -/
theorem access_of_observe (h : HandlerKeeps I) {F : World → Prop} (hFI : ∀ w, F w → I w)
    (hobserve : ∀ s tape w, I w → F (w.observe s tape))
    (hevent : ∀ e w, e.OfHandler → F w → F (w.note e))
    (hdrv : ∀ f w, (∀ drv : Driver, drv.HandlerWrote (f drv)) → F w → F (w.setDrv f)) :
    Triple I Gd32Firmware.access (fun _ => F) I := by
  have hmasked : Triple I Gd32Firmware.masked (fun _ => F) I :=
    Triple.bind (Triple.tick (Q := fun _ => F) hobserve fun _ hw => hw) fun _ =>
      Triple.pure _ fun _ hw => hw
  -- both branches of the handler end like this, after they have cleared their flag
  have htail : ∀ (f : Driver → Driver) (status : SdError),
      (∀ drv : Driver, drv.HandlerWrote (f drv)) → Triple I (do
        Gd32Firmware.configure Gd32Firmware.masked (.interruptDisable handledInterrupts)
        Gd32Firmware.setDrv f
        pure status) (fun _ => F) I := by
    intro f status hf
    refine Triple.bind (Q := fun _ => F) ?_ fun _ => ?_
    · exact Triple.bind hmasked fun _ => Triple.note fun w => hevent (.set _) w trivial
    · exact Triple.bind (Q := fun _ => F) (Triple.setDrv fun w => hdrv f w hf) fun _ =>
        Triple.pure _ fun _ hw => hw
  have hend : Triple (fun w => F w ∧ .dtend ∈ w.sdio.stat) Gd32Firmware.handleEnd
      (fun _ => F) I := by
    refine Triple.bind (Q := fun _ => I) (Triple.getDrv fun w hw => hFI w hw.1) fun drv => ?_
    refine Triple.bind (Q := fun _ => I) (Triple.note fun w => h.event _ w trivial) fun _ => ?_
    refine Triple.bind (h.handlerStop _) fun transerror => ?_
    refine Triple.bind (Keeps.setDrv fun w => h.drv _ w fun _ => by rfl) fun _ => ?_
    refine Triple.bind (Keeps.sdioFlagClear h.masked (h.clear _)) fun _ => ?_
    exact htail _ transerror fun _ => by rfl
  have hfault : ∀ flag fault, (flag, fault) ∈ handlerFaults →
      Triple (fun w => F w ∧ flag ∈ w.sdio.stat) (Gd32Firmware.handlerFault flag fault)
        (fun _ => F) I := by
    intro flag fault _
    refine Triple.bind (Q := fun _ => I) (Triple.note fun w hw =>
      h.event (.irqFault flag) w trivial (hFI w hw.1)) fun _ => ?_
    refine Triple.bind (Keeps.sdioFlagClear h.masked (h.clear _)) fun _ => ?_
    exact htail _ fault fun _ => by rfl
  refine Triple.bind (Triple.tick (Q := fun _ => F) hobserve fun _ hw => hw) fun irq => ?_
  refine Triple.ite (fun _ => ?_) fun _ => Triple.pure _ fun _ hw => hw
  have hkeeps : Keeps F Gd32Firmware.masked :=
    Keeps.masked fun s tape w hw => hobserve s tape w (hFI w hw)
  refine Triple.bind (Triple.sdInterruptsProcess (fun w hw => ?_) hkeeps hend hfault
    (fun _ hw => hw) hFI) fun _ => Triple.pure _ fun _ hw => hw
  exact hdrv _ _ (fun _ => by rfl) (hevent (.irq _) w trivial hw)

end HandlerKeeps

/-- The handler leaves the command registers alone, or leaves its own command there. -/
theorem handlerKeeps_command (c : Command) :
    HandlerKeeps fun w => w.sdio.command = c ∨ w.sdio.command = stopCommand where
  observe _ _ _ h := h
  clear _ _ h := h
  stop _ _ := Or.inr rfl
  event _ _ _ h := h
  drv _ _ _ h := h

end Gd32Firmware
