import Gd32Firmware.SdRules

/-!
# Rules for the transfers

`KeepingAccess` and its extensions collect what an assertion has to survive in the parts of the
transfers, so that a property of the driver proves it once and gets every part : `KeepingSetUp`
adds what is set up before the data moves, `KeepingLink` the commands, `KeepingData` the data,
`KeepingTransfers` the rest of a transfer. `TransferStages` is the rule for a whole transfer that
goes through several assertions : those that hold before, at and after its data command.
-/

namespace Gd32Firmware

open Program

/-! ## The parts of the transfers -/

/-- What the log records while data is moved. -/
def Event.OfData : Event → Prop
  | .set s => s.Plain
  | .read _ | .push _ | .tfhSeen => True
  | _ => False

/-- An assertion that survives the use of the peripheral. -/
structure KeepingAccess (I : World → Prop) : Prop where
  access : Keeps I access
  plainSet : ∀ s w, Setting.Plain s → I w → I (w.note (.set s))
  sdio : ∀ g w, (∀ sdio, (g sdio).stat = sdio.stat) → I w → I (w.setSdio g)

/-- An assertion that survives the moving of data. -/
structure KeepingData (I : World → Prop) : Prop extends KeepingAccess I where
  data : ∀ e w, e.OfData → I w → I (w.note e)
  store : ∀ ptr word w, I w → I (w.store ptr word)
  plainSet := fun s w hs => data (.set s) w hs

/-- An assertion that survives the settings that say what is moved. -/
structure KeepingSetUp (I : World → Prop) : Prop extends KeepingAccess I where
  setUp : ∀ s w, I w → I (w.note (.set s))
  plainSet := fun s w _ => setUp s w

/-- An assertion that survives all of these, and the writing of the total. -/
structure Keeping (I : World → Prop) : Prop extends KeepingData I, KeepingSetUp I where
  total : ∀ n w, I w → I (w.setDrv fun drv => { drv with totalnumberBytes := n })

namespace KeepingAccess

variable {I : World → Prop}

theorem configure (h : KeepingAccess I) {s : Setting} (hs : s.Plain) :
    Keeps I (configure Gd32Firmware.access s) :=
  Keeps.configure h.access fun w => h.plainSet s w hs

theorem flagGet (h : KeepingAccess I) (mask : List Flag) :
    Keeps I (sdioFlagGet Gd32Firmware.access mask) :=
  Keeps.sdioFlagGet h.access

end KeepingAccess

namespace KeepingData

variable {I : World → Prop}

theorem readWords (h : KeepingData I) : ∀ n ptempbuff, Keeps I (readWords n ptempbuff)
  | 0, _ => Keeps.pure ()
  | n + 1, ptempbuff =>
    (Keeps.sdioDataRead h.access (fun w => h.sdio _ w fun _ => by rfl) fun word w =>
      h.data (.read word) w trivial).bind fun word =>
    (Keeps.modify _ (h.store ptempbuff word)).bind fun _ => readWords h n (ptempbuff + 1)

theorem writeWords (h : KeepingData I) : ∀ n ptempbuff, Keeps I (writeWords n ptempbuff)
  | 0, _ => Keeps.pure ()
  | n + 1, ptempbuff =>
    Keeps.get.bind fun w => (h.access.bind fun _ =>
      Keeps.note fun w' => h.data (.push (w.ram ptempbuff)) w' trivial).bind fun _ =>
    writeWords h n (ptempbuff + 1)

/-- The polling loop of a read ends when it has seen one of its flags. -/
theorem pollReceive (h : KeepingData I) (ended : Flag) (ptempbuff : ℕ) :
    Triple I (pollReceive ended ptempbuff)
      (fun _ w => I w ∧ anySet (pollFlags .rxore ended) w.sdio.stat) I := by
  refine Triple.sdLoop (J := fun _ => I) (fun ptempbuff => ?_) (fun _ _ h => h) ptempbuff
  refine Triple.bind (Triple.sdioFlagGet h.access) fun b => ?_
  refine Triple.ite (fun hb => Triple.pure _ fun w hw => ⟨hw.1, hw.2.1 hb⟩) fun _ => ?_
  refine Triple.bind (Q := fun _ => I) ((h.flagGet _).strengthen fun _ hw => hw.1) fun b => ?_
  refine Triple.ite (fun _ => ?_) fun _ => Triple.pure _ fun _ h => h
  exact Triple.bind (h.readWords 8 ptempbuff) fun _ => Triple.pure _ fun _ h => h

theorem drainFifo (h : KeepingData I) (ptempbuff : ℕ) : Keeps I (drainFifo ptempbuff) :=
  Keeps.sdLoop (fun ptempbuff => (h.flagGet _).bind fun _ =>
    Keeps.ite ((h.readWords 1 ptempbuff).bind fun _ => Keeps.pure _) (Keeps.pure _)) ptempbuff

/-- After a burst the loop goes on. -/
theorem sendBurst (h : KeepingData I) {R : Unit → World → Prop} (ptempbuff : ℕ)
    (transbytes : UInt32) :
    Triple I (sendBurst ptempbuff transbytes) (Sum.elim (fun _ => I) R) I := by
  refine Triple.bind (Keeps.note fun w => h.data .tfhSeen w trivial) fun _ => ?_
  refine Triple.bind Keeps.getDrv fun drv => ?_
  refine Triple.ite (fun _ => ?_) fun _ => ?_
  · exact Triple.bind (h.writeWords _ ptempbuff) fun _ => Triple.pure _ fun _ h => h
  · exact Triple.bind (h.writeWords 8 ptempbuff) fun _ => Triple.pure _ fun _ h => h

/-- The polling loop of a write ends when it has seen one of its flags. -/
theorem pollSend (h : KeepingData I) (ended : Flag) (pwritebuffer : ℕ) :
    Triple I (pollSend ended pwritebuffer)
      (fun _ w => I w ∧ anySet (pollFlags .txure ended) w.sdio.stat) I := by
  refine Triple.sdLoop (J := fun _ => I) (fun (ptempbuff, transbytes) => ?_) (fun _ _ h => h) _
  refine Triple.bind (Triple.sdioFlagGet h.access) fun b => ?_
  refine Triple.ite (fun hb => Triple.pure _ fun w hw => ⟨hw.1, hw.2.1 hb⟩) fun _ => ?_
  refine Triple.bind (Q := fun _ => I) ((h.flagGet _).strengthen fun _ hw => hw.1) fun b => ?_
  exact Triple.ite (fun _ => h.sendBurst ptempbuff transbytes) fun _ =>
    Triple.pure _ fun _ h => h

end KeepingData

namespace KeepingSetUp

variable {I : World → Prop}

theorem configure (h : KeepingSetUp I) (s : Setting) : Keeps I (configure Gd32Firmware.access s) :=
  Keeps.configure h.access (h.setUp s)

theorem startData (h : KeepingSetUp I) (blocksize : UInt16) (toSdio : Bool) :
    Keeps I (startData blocksize toSdio) :=
  Keeps.getDrv.bind fun _ => (h.configure _).bind fun _ => (h.configure _).bind fun _ =>
    h.configure _

theorem dmaConfig (h : KeepingSetUp I) (s : Setting) : Keeps I (dmaConfig Gd32Firmware.access s) :=
  Keeps.dmaConfig h.access (fun w => h.sdio _ w fun _ => by rfl) fun w =>
    h.setUp s w

end KeepingSetUp

namespace Program

variable {α : Type} {I X E : World → Prop}

theorem Triple.writeShared {f : Driver → Driver} {Q : Unit → World → Prop}
    (hacc : Keeps I access) (h : ∀ w, I w → Q () (w.setDrv f)) :
    Triple I (writeShared f) Q I :=
  Triple.bind hacc fun _ => Triple.setDrv h

theorem Triple.readShared {f : Driver → α} (hacc : Triple I access (fun _ => I) E) :
    Triple I (readShared f) (fun a w => I w ∧ f w.drv = a) E :=
  Triple.bind hacc fun _ => Triple.bind (Q := fun drv w => I w ∧ w.drv = drv)
    (Triple.getDrv fun _ hw => ⟨hw, rfl⟩) fun _ => Triple.pure _ fun _ hw => ⟨hw.1, by rw [hw.2]⟩

/-- The wait for the DMA channel. -/
theorem Triple.waitFtf {Q : Bool → World → Prop} (hacc : Triple I access (fun _ => I) E)
    (hseen : ∀ w, I w → Q true (w.note .ftfSeen))
    (htimeout : ∀ w, I w → Q false (w.note .dmaTimeout)) (hIE : ∀ w, I w → E w) (timeout : ℕ) :
    Triple I (waitFtf timeout) Q E := by
  refine Triple.sdLoop (J := fun _ => I) (fun timeout => ?_) (fun _ => hIE) timeout
  refine Triple.bind (Q := fun _ => I) ((Triple.reads hacc).imp fun _ _ h => h.1) fun b => ?_
  refine Triple.ite (fun _ => ?_) fun _ => Triple.ite (fun _ => ?_) fun _ => ?_
  · exact Triple.bind (Q := fun _ => Q true) (Triple.note hseen) fun _ => Triple.pure _ fun _ h => h
  · exact Triple.bind (Q := fun _ => Q false) (Triple.note htimeout) fun _ =>
      Triple.pure _ fun _ h => h
  · exact Triple.pure _ fun _ h => h

/-- The wait for the handler : `X` holds once the handler has reported something. -/
theorem Triple.waitTransend {rest : Program World SdError} {R : SdError → World → Prop}
    (hI : Triple I access (fun _ => I) E) (hX : Triple X access (fun _ => X) E)
    (hexit : ∀ w, I w → w.drv.transend ≠ 0 ∨ w.drv.transerror ≠ .ok → X w)
    (hR : ∀ w, X w → R w.drv.transerror w)
    (hrest : Triple (fun w => X w ∧ w.drv.transerror = .ok) rest R E)
    (hIE : ∀ w, I w → E w) : Triple I (waitTransend rest) R E := by
  refine Triple.bind (Q := fun _ => X) ?_ fun _ => ?_
  · refine Triple.sdLoop (J := fun _ => I) (R := fun _ => X) (fun _ => ?_) (fun _ => hIE) ()
    refine Triple.bind (Triple.readShared hI) fun transend => Triple.ite (fun _ => ?_) fun h => ?_
    · refine Triple.bind (Triple.strengthen (Triple.readShared hI) fun _ hw => hw.1)
        fun transerror => Triple.ite (fun _ => ?_) fun h => ?_
      · exact Triple.pure _ fun _ hw => hw.1
      · exact Triple.pure _ fun w hw => hexit w hw.1 (Or.inr (hw.2 ▸ h))
    · exact Triple.pure _ fun w hw => hexit w hw.1 (Or.inl (hw.2 ▸ h))
  refine Triple.bind (Triple.readShared hX) fun transerror => ?_
  refine Triple.ite (fun _ => ?_) fun h => ?_
  · refine (Triple.readShared hX).conseq (fun _ hw => hw.1) ?_ fun _ h => h
    rintro _ w ⟨hw, rfl⟩
    exact hR w hw
  · exact hrest.strengthen fun w hw => ⟨hw.1, by rw [hw.2]; exact not_not.mp h⟩

end Program

namespace KeepingAccess

variable {I : World → Prop}

theorem waitFtf {Q : Bool → World → Prop} (h : KeepingAccess I)
    (hseen : ∀ w, I w → Q true (w.note .ftfSeen))
    (htimeout : ∀ w, I w → Q false (w.note .dmaTimeout)) (timeout : ℕ) :
    Triple I (Gd32Firmware.waitFtf timeout) Q I :=
  Triple.waitFtf h.access hseen htimeout (fun _ h => h) timeout

theorem waitTransend (h : KeepingAccess I) {rest : Program World SdError} (hrest : Keeps I rest) :
    Keeps I (Gd32Firmware.waitTransend rest) :=
  Triple.waitTransend h.access h.access (fun _ hw _ => hw) (fun _ hw => hw)
    (hrest.strengthen fun _ hw => hw.1) fun _ hw => hw

/-- The wait for a DMA transfer writes nothing. -/
theorem awaitDma (h : KeepingAccess I) (hseen : ∀ w, I w → I (w.note .ftfSeen))
    (htimeout : ∀ w, I w → I (w.note .dmaTimeout)) (timeout : ℕ)
    {rest : Program World SdError} (hrest : Keeps I rest) :
    Keeps I (Gd32Firmware.awaitDma timeout rest) :=
  Keeps.bind (h.waitFtf hseen htimeout timeout) fun _ =>
    Keeps.ite (h.waitTransend hrest) (Keeps.pure _)

end KeepingAccess

namespace Program

variable {P E : World → Prop} {R : SdError → World → Prop} {poll dma : Program World SdError}

/-- The branches for the transfer mode. -/
theorem Triple.byMode {m : UInt32} (hmode : ∀ w, P w → w.drv.transmode = m)
    (hpoll : m = sdPollingMode → Triple P poll R E)
    (hdma : m = sdDmaMode → Triple P dma R E)
    (hother : m ≠ sdPollingMode → m ≠ sdDmaMode → ∀ w, P w → R .parameterInvalid w) :
    Triple P (do
      let transmode := (← Gd32Firmware.getDrv).transmode
      if transmode = sdPollingMode then poll
      else if transmode = sdDmaMode then dma
      else Pure.pure .parameterInvalid) R E := by
  refine Triple.bind (Q := fun drv w => P w ∧ drv.transmode = m)
    (Triple.getDrv fun w hw => ⟨hw, hmode w hw⟩) fun drv => Triple.of_fact fun hm => ?_
  subst hm
  refine Triple.ite hpoll fun hne => Triple.ite hdma fun hne' => ?_
  exact Triple.pure _ (hother hne hne')

/-- In polling mode. -/
theorem Triple.polled (hmode : ∀ w, P w → w.drv.transmode = sdPollingMode)
    (h : Triple P poll R E) :
    Triple P (do
      let transmode := (← Gd32Firmware.getDrv).transmode
      if transmode = sdPollingMode then poll
      else if transmode = sdDmaMode then dma
      else Pure.pure .parameterInvalid) R E :=
  Triple.byMode hmode (fun _ => h) (fun hm => absurd hm (by decide)) fun hne _ => absurd rfl hne

/-- In DMA mode. -/
theorem Triple.byDma (hmode : ∀ w, P w → w.drv.transmode = sdDmaMode)
    (h : Triple P dma R E) :
    Triple P (do
      let transmode := (← Gd32Firmware.getDrv).transmode
      if transmode = sdPollingMode then poll
      else if transmode = sdDmaMode then dma
      else Pure.pure .parameterInvalid) R E :=
  Triple.byMode hmode (fun hm => absurd hm (by decide)) (fun _ => h) fun _ hne => absurd rfl hne

end Program

/-- The block size that a transfer uses. -/
def effectiveBlocksize (cardtype : CardType) (blocksize : UInt16) : UInt16 :=
  if cardtype = .highCapacitySdCard then 512 else blocksize

/-- The block sizes that the transfers accept. -/
def ValidBlocksize (blocksize : UInt16) : Prop :=
  0 < blocksize ∧ blocksize ≤ 2048 ∧ blocksize &&& (blocksize - 1) = 0

instance (blocksize : UInt16) : Decidable (ValidBlocksize blocksize) :=
  inferInstanceAs (Decidable (_ ∧ _ ∧ _))

namespace Program

/-- The setup up to `CMD16` : `I₀` holds until `transerror` is reset, `I₁` until `transend` is,
and `I` from then on. -/
theorem Triple.transferSetup {I I₀ I₁ E : World → Prop} {R : SdError → World → Prop}
    {rest : ℕ → UInt32 → UInt16 → Program World SdError} (hI : Keeps I access)
    (hset : ∀ s w, I w → I (w.note (.set s)))
    (htotal : ∀ w, I w → I (w.setDrv fun drv => { drv with totalnumberBytes := 0 }))
    (hI₀ : Keeps I₀ access)
    (h₀ : ∀ w, I₀ w → I₁ (w.setDrv fun drv => { drv with transerror := .ok }))
    (hI₁ : Keeps I₁ access)
    (h₁ : ∀ w, I₁ w → I (w.setDrv fun drv => { drv with transend := 0 }))
    (hnull : ∀ w, I₀ w → R .parameterInvalid w) (hlocked : ∀ w, I w → R .lockUnlockFailed w)
    (hinvalid : ∀ w, I w → R .parameterInvalid w) (hE : ∀ w, I₀ w ∨ I₁ w ∨ I w → E w)
    {pbuffer : Option ℕ} {addr : UInt32} {blocksize : UInt16}
    (hrest : ∀ pbuffer' addr' blocksize', ValidBlocksize blocksize' → (∃ w, I w ∧
      pbuffer = some pbuffer' ∧
      addr' = (if w.drv.cardtype = .highCapacitySdCard then addr / 512 else addr) ∧
      blocksize' = if w.drv.cardtype = .highCapacitySdCard then 512 else blocksize) →
      Triple I (Gd32Firmware.ifOk (commandR1 Gd32Firmware.access 16 blocksize'.toUInt32)
        (rest pbuffer' addr' blocksize')) R E) :
    Triple I₀ (Gd32Firmware.transferSetup pbuffer addr blocksize rest) R E := by
  have hkeep : ∀ {α : Type} {m : Program World α}, Keeps I m → Triple I m (fun _ => I) E :=
    fun hm => hm.weaken (fun _ _ h => h) fun w hw => hE w (Or.inr (Or.inr hw))
  have hconfigure : ∀ s, Triple I (Gd32Firmware.configure access s) (fun _ => I) E :=
    fun s => hkeep (Keeps.configure hI (hset s))
  cases pbuffer with
  | none => exact Triple.pure _ hnull
  | some pbuffer =>
    refine Triple.bind (Q := fun _ => I₁) ((Triple.writeShared hI₀ h₀).weaken
      (fun _ _ h => h) fun w hw => hE w (Or.inl hw)) fun _ => ?_
    refine Triple.bind (Q := fun _ => I) ((Triple.writeShared hI₁ h₁).weaken
      (fun _ _ h => h) fun w hw => hE w (Or.inr (Or.inl hw))) fun _ => ?_
    refine Triple.bind (hkeep (Keeps.setDrv htotal)) fun _ => ?_
    refine Triple.bind (hconfigure _) fun _ => ?_
    refine Triple.bind (hconfigure _) fun _ => ?_
    refine Triple.bind (hconfigure _) fun _ => ?_
    refine Triple.bind (hconfigure _) fun _ => ?_
    refine Triple.bind (hkeep (Keeps.sdioResponseGet hI)) fun resp => ?_
    refine Triple.ite (fun _ => Triple.pure _ hlocked) fun _ => ?_
    refine Triple.bind (Q := fun drv w => I w ∧ w.drv = drv)
      (Triple.getDrv fun _ hw => ⟨hw, rfl⟩) fun drv => ?_
    refine Triple.ite (fun hvalid => ?_) fun _ => Triple.pure _ fun w hw => hinvalid w hw.1
    -- the card type is the one that was read
    rintro w ⟨hw, rfl⟩
    exact hrest _ _ _ hvalid ⟨w, hw, rfl, by simp⟩ w hw

end Program

namespace KeepingSetUp

variable {I : World → Prop}

/-- The same for an assertion that survives the settings. -/
theorem setup {I₀ I₁ E : World → Prop} {R : SdError → World → Prop}
    {rest : ℕ → UInt32 → UInt16 → Program World SdError} (h : KeepingSetUp I)
    (htotal : ∀ w, I w → I (w.setDrv fun drv => { drv with totalnumberBytes := 0 }))
    (hI₀ : Keeps I₀ access)
    (h₀ : ∀ w, I₀ w → I₁ (w.setDrv fun drv => { drv with transerror := .ok }))
    (hI₁ : Keeps I₁ access)
    (h₁ : ∀ w, I₁ w → I (w.setDrv fun drv => { drv with transend := 0 }))
    (hnull : ∀ w, I₀ w → R .parameterInvalid w) (hlocked : ∀ w, I w → R .lockUnlockFailed w)
    (hinvalid : ∀ w, I w → R .parameterInvalid w) (hE : ∀ w, I₀ w ∨ I₁ w ∨ I w → E w)
    {pbuffer : Option ℕ} {addr : UInt32} {blocksize : UInt16}
    (hrest : ∀ pbuffer' addr' blocksize', ValidBlocksize blocksize' → (∃ w, I w ∧
      pbuffer = some pbuffer' ∧
      addr' = (if w.drv.cardtype = .highCapacitySdCard then addr / 512 else addr) ∧
      blocksize' = if w.drv.cardtype = .highCapacitySdCard then 512 else blocksize) →
      Triple I (ifOk (commandR1 Gd32Firmware.access 16 blocksize'.toUInt32)
        (rest pbuffer' addr' blocksize')) R E) :
    Triple I₀ (transferSetup pbuffer addr blocksize rest) R E :=
  Triple.transferSetup h.access h.setUp htotal hI₀ h₀ hI₁ h₁ hnull hlocked hinvalid hE hrest

end KeepingSetUp

/-- The commands that do not start a transfer of data. -/
def plainCommands : List UInt8 := [12, 13, 16, 23, 55]

/-- An assertion that survives the clearing of flags, and the commands in `cmds`. -/
structure KeepingLink (cmds : UInt8 → UInt32 → Prop) (I : World → Prop) : Prop
    extends KeepingAccess I where
  clear : ∀ mask w, I w → I (w.clear mask)
  plain : ∀ index argument, index ∈ plainCommands → cmds index argument
  cmd : ∀ c w, cmds c.index c.argument → I w → I (w.note (.cmd c))
  taken : ∀ index argument w, cmds index argument → I w → I (w.note (.taken index))
  accepted : ∀ index argument w, cmds index argument → I w → I (w.note (.accepted index))

/-- An assertion that survives the moving of data too. -/
structure KeepingPhase (cmds : UInt8 → UInt32 → Prop) (I : World → Prop) : Prop
    extends KeepingData I, KeepingLink cmds I

namespace KeepingLink

variable {cmds : UInt8 → UInt32 → Prop} {I : World → Prop}

theorem flagClear (h : KeepingLink cmds I) (mask : List Flag) :
    Keeps I (sdioFlagClear Gd32Firmware.access mask) :=
  Keeps.sdioFlagClear h.access (h.clear mask)

theorem sendCommand (h : KeepingLink cmds I) {index : UInt8} {argument : UInt32}
    (hcmds : cmds index argument) (response : ResponseType) :
    Keeps I (sendCommand Gd32Firmware.access index argument response) := by
  refine Triple.sendCommand (C := fun c => c = ⟨index, argument, response⟩ ∨ c = stopCommand)
    h.access (h.access.and (handlerKeeps_command _).access) (Or.inl rfl)
    (fun w => h.sdio _ w fun _ => by rfl) (fun w => h.plainSet .waitType w trivial) ?_
  rintro c w (rfl | rfl)
  · exact h.cmd _ w hcmds
  · exact h.cmd _ w (h.plain 12 0 (by decide))

theorem commandR1 (h : KeepingLink cmds I) {index : UInt8} {argument : UInt32}
    (hcmds : cmds index argument) : Keeps I (commandR1 Gd32Firmware.access index argument) :=
  (h.sendCommand hcmds .short).bind fun _ =>
    Keeps.r1ErrorCheck h.access h.clear (fun w => h.taken index argument w hcmds)
      fun w => h.accepted index argument w hcmds

theorem plainCommand (h : KeepingLink cmds I) {index : UInt8} {argument : UInt32}
    (hindex : index ∈ plainCommands) : Keeps I (Gd32Firmware.commandR1 access index argument) :=
  h.commandR1 (h.plain index argument hindex)

theorem checkFaults (h : KeepingLink cmds I) (faults : List (Flag × SdError)) :
    Keeps I (checkFaults Gd32Firmware.access faults) :=
  Keeps.checkFaults h.access h.clear faults

theorem stopPolled (h : KeepingLink cmds I) : Keeps I stopPolled :=
  (h.flagGet _).bind fun _ => Keeps.ite
    (Keeps.getDrv.bind fun _ => Keeps.ite (h.plainCommand (by decide)) (Keeps.pure _))
    (Keeps.pure _)

theorem sdCardStateGet (h : KeepingLink cmds I) (pcardstate : UInt8) :
    Keeps I (sdCardStateGet pcardstate) := by
  refine Keeps.getDrv.bind fun drv =>
    (h.sendCommand (h.plain 13 _ (by decide)) .short).bind fun _ => ?_
  refine Keeps.bind (Triple.waitResponse h.access) fun regStatus => ?_
  refine Keeps.ite ((h.flagClear _).bind fun _ => Keeps.pure _) ?_
  refine Keeps.ite ((h.flagClear _).bind fun _ => Keeps.pure _) ?_
  refine (Keeps.sdioCommandIndexGet h.access).bind fun _ => Keeps.ite (Keeps.pure _) ?_
  exact (h.flagClear _).bind fun _ => (Keeps.sdioResponseGet h.access).bind fun _ =>
    Keeps.ite (Keeps.pure _) (Keeps.pure _)

theorem finishWrite (h : KeepingLink cmds I) : Keeps I finishWrite :=
  (h.flagClear _).bind fun _ => (h.sdCardStateGet 0).bind fun _ =>
    Keeps.sdLoop (fun (_, cardstate) =>
      Keeps.ite ((h.sdCardStateGet cardstate).bind fun _ => Keeps.pure _) (Keeps.pure _)) _

theorem waitReady (h : KeepingLink cmds I) : Keeps I waitReady := by
  refine (Keeps.sdioResponseGet h.access).bind fun response => Keeps.sdLoop (fun _ => ?_) _
  refine Keeps.ite ?_ (Keeps.ite (Keeps.pure _) (Keeps.pure _))
  refine Keeps.getDrv.bind fun drv => (h.plainCommand (by decide)).bind fun status => ?_
  exact Keeps.ite (Keeps.pure _)
    ((Keeps.sdioResponseGet h.access).bind fun _ => Keeps.pure _)

theorem announceBlocks (h : KeepingLink cmds I) (blocksnumber : UInt32) :
    Keeps I (announceBlocks blocksnumber) :=
  Keeps.getDrv.bind fun _ => Keeps.ite
    (Keeps.ifOk (h.plainCommand (by decide)) (h.plainCommand (by decide))) (Keeps.pure _)

/-- The data command : `P` holds until its response is taken, `T` from then on, and `A` if it
is accepted. -/
theorem dataCommand (h : KeepingLink cmds I) {T A : World → Prop} {index : UInt8}
    (hcmd : ∀ c w, I w → I (w.note (.cmd c))) (hT : Keeps T Gd32Firmware.access)
    (htake : ∀ w, I w → T ((w.clear sdioMaskIntcFlags).note (.taken index)))
    (hA : ∀ w, T w → A (w.note (.accepted index))) (argument : UInt32) :
    Triple I (Gd32Firmware.commandR1 Gd32Firmware.access index argument)
      (fun status w => (status = .ok → A w) ∧ (status ≠ .ok → I w ∨ T w))
      fun w => I w ∨ T w := by
  refine Triple.bind (Q := fun _ => I) ?_ fun _ =>
    Triple.r1ErrorCheck h.access (fun flag => h.clear [flag]) hT htake hA
  exact (Triple.sendAnyCommand h.access (fun w => h.sdio _ w fun _ => by rfl)
    (fun w => h.plainSet .waitType w trivial) hcmd).weaken (fun _ _ h => h) fun _ h => Or.inl h

end KeepingLink

/-- An assertion that survives both. -/
structure KeepingCommands (cmds : UInt8 → UInt32 → Prop) (I : World → Prop) : Prop
    extends KeepingPhase cmds I, Keeping I

namespace KeepingCommands

variable {cmds : UInt8 → UInt32 → Prop} {I : World → Prop}

/-- The setup : `I₀` holds until `transerror` is reset, `I₁` until `transend` is, `I` until the
card is ready for the data command. -/
theorem transferSetup {I₀ I₁ E : World → Prop} {R : SdError → World → Prop}
    {rest : ℕ → UInt32 → UInt16 → Program World SdError} (h : KeepingCommands cmds I)
    (hI₀ : Keeps I₀ access)
    (h₀ : ∀ w, I₀ w → I₁ (w.setDrv fun drv => { drv with transerror := .ok }))
    (hI₁ : Keeps I₁ access)
    (h₁ : ∀ w, I₁ w → I (w.setDrv fun drv => { drv with transend := 0 }))
    (hnull : ∀ w, I₀ w → R .parameterInvalid w)
    (hR : ∀ status w, status ≠ .ok → I w → R status w)
    (hE : ∀ w, I₀ w ∨ I₁ w ∨ I w → E w) {pbuffer : Option ℕ} {addr : UInt32}
    {blocksize : UInt16} (hrest : ∀ pbuffer' addr' blocksize', (∃ w, I w ∧
      pbuffer = some pbuffer' ∧
      addr' = (if w.drv.cardtype = .highCapacitySdCard then addr / 512 else addr) ∧
      blocksize' = if w.drv.cardtype = .highCapacitySdCard then 512 else blocksize) →
      Triple I (rest pbuffer' addr' blocksize') R E) :
    Triple I₀ (transferSetup pbuffer addr blocksize rest) R E :=
  h.toKeepingSetUp.setup (h.total 0) hI₀ h₀ hI₁ h₁ hnull (fun w => hR _ w (by decide))
    (fun w => hR _ w (by decide)) hE fun pbuffer' addr' blocksize' _ hw =>
      Triple.ifOk ((h.plainCommand (by decide)).weaken (fun _ _ h => h)
        fun w hw => hE w (Or.inr (Or.inr hw))) (hrest pbuffer' addr' blocksize' hw) hR

end KeepingCommands

/-- An assertion that survives everything that the transfers do. -/
structure KeepingTransfers (cmds : UInt8 → UInt32 → Prop) (I : World → Prop) : Prop
    extends KeepingCommands cmds I where
  transerror : ∀ w, I w → I (w.setDrv fun drv => { drv with transerror := .ok })
  transend : ∀ w, I w → I (w.setDrv fun drv => { drv with transend := 0 })
  stopcondition : ∀ n w, I w → I (w.setDrv fun drv => { drv with stopcondition := n })
  ftfSeen : ∀ w, I w → I (w.note .ftfSeen)
  dmaTimeout : ∀ w, I w → I (w.note .dmaTimeout)

namespace KeepingTransfers

variable {cmds : UInt8 → UInt32 → Prop} {I : World → Prop}

theorem waitFtf (h : KeepingTransfers cmds I) (timeout : ℕ) : Keeps I (waitFtf timeout) :=
  KeepingAccess.waitFtf h.toKeepingAccess h.ftfSeen h.dmaTimeout timeout

theorem awaitDma (h : KeepingTransfers cmds I) (timeout : ℕ) {rest : Program World SdError}
    (hrest : Keeps I rest) : Keeps I (awaitDma timeout rest) :=
  h.toKeepingAccess.awaitDma h.ftfSeen h.dmaTimeout timeout hrest

theorem writeStop (h : KeepingTransfers cmds I) (n : UInt32) :
    Keeps I (writeShared fun drv => { drv with stopcondition := n }) :=
  Triple.writeShared h.access (h.stopcondition n)

theorem writeTotal (h : KeepingTransfers cmds I) (n : UInt32) :
    Keeps I (setDrv fun drv => { drv with totalnumberBytes := n }) :=
  Keeps.setDrv (h.total n)

theorem pollReceive (h : KeepingTransfers cmds I) (ended : Flag) (ptempbuff : ℕ) :
    Keeps I (pollReceive ended ptempbuff) :=
  (KeepingData.pollReceive h.toKeepingData ended ptempbuff).imp fun _ _ hw => hw.1

theorem pollSend (h : KeepingTransfers cmds I) (ended : Flag) (pwritebuffer : ℕ) :
    Keeps I (pollSend ended pwritebuffer) :=
  (KeepingData.pollSend h.toKeepingData ended pwritebuffer).imp fun _ _ hw => hw.1

theorem blockReadData (h : KeepingTransfers cmds I) (preadbuffer : ℕ) (blocksize : UInt16) :
    Keeps I (blockReadData preadbuffer blocksize) := by
  refine Keeps.getDrv.bind fun drv => Keeps.ite ?_ (Keeps.ite ?_ (Keeps.pure _))
  · refine (h.pollReceive _ _).bind fun ptempbuff => Keeps.ifOk (h.checkFaults _) ?_
    exact (h.drainFifo _).bind fun _ => (h.flagClear _).bind fun _ => Keeps.pure _
  · refine (h.configure _).bind fun _ => (h.configure _).bind fun _ => ?_
    exact (h.dmaConfig _).bind fun _ => (h.waitFtf _).bind fun _ =>
      Keeps.ite (Keeps.pure _) (Keeps.pure _)

theorem multiblocksReadData (h : KeepingTransfers cmds I) (preadbuffer : ℕ) :
    Keeps I (multiblocksReadData preadbuffer) := by
  refine Keeps.getDrv.bind fun drv => Keeps.ite ?_ (Keeps.ite ?_ (Keeps.pure _))
  · refine (h.pollReceive _ _).bind fun ptempbuff => Keeps.ifOk (h.checkFaults _) ?_
    exact (h.drainFifo _).bind fun _ =>
      Keeps.ifOk h.stopPolled ((h.flagClear _).bind fun _ => Keeps.pure _)
  · refine (h.configure _).bind fun _ => (h.configure _).bind fun _ => ?_
    exact Keeps.getDrv.bind fun _ => (h.dmaConfig _).bind fun _ => h.awaitDma _ (Keeps.pure _)

theorem blockWriteData (h : KeepingTransfers cmds I) (pwritebuffer : ℕ) (blocksize : UInt16) :
    Keeps I (blockWriteData pwritebuffer blocksize) := by
  refine Keeps.getDrv.bind fun drv => Keeps.ite ?_ (Keeps.ite ?_ (Keeps.pure _))
  · exact (h.pollSend _ _).bind fun _ => Keeps.ifOk (h.checkFaults _) h.finishWrite
  · refine (h.configure _).bind fun _ => (h.dmaConfig _).bind fun _ => ?_
    exact (h.configure _).bind fun _ => h.awaitDma _ h.finishWrite

theorem multiblocksWriteData (h : KeepingTransfers cmds I) (pwritebuffer : ℕ) :
    Keeps I (multiblocksWriteData pwritebuffer) := by
  refine Keeps.getDrv.bind fun drv => Keeps.ite ?_ (Keeps.ite ?_ (Keeps.pure _))
  · refine (h.pollSend _ _).bind fun _ => Keeps.ifOk (h.checkFaults _) ?_
    exact Keeps.ifOk h.stopPolled ((h.flagClear _).bind fun _ => h.finishWrite)
  · refine (h.configure _).bind fun _ => (h.configure _).bind fun _ => ?_
    exact Keeps.getDrv.bind fun _ => (h.dmaConfig _).bind fun _ => h.awaitDma _ h.finishWrite

theorem dataPhase (h : KeepingTransfers cmds I) (t : Transfer) (pbuffer : ℕ) (blocksize : UInt16) :
    Keeps I (t.data pbuffer blocksize) := by
  cases t with
  | blockRead => exact h.blockReadData pbuffer blocksize
  | multiblocksRead => exact h.multiblocksReadData pbuffer
  | blockWrite => exact h.blockWriteData pbuffer blocksize
  | multiblocksWrite => exact h.multiblocksWriteData pbuffer

/-- A transfer keeps an assertion that allows its data command. -/
theorem run (h : KeepingTransfers cmds I) (t : Transfer) {addr : UInt32}
    (haddr : ∀ w, I w → cmds t.dataCommand
      (if w.drv.cardtype = .highCapacitySdCard then addr / 512 else addr))
    (pbuffer : Option ℕ) (blocksize : UInt16) (blocksnumber : UInt32) :
    Keeps I (t.run pbuffer addr blocksize blocksnumber) := by
  have hsetup : ∀ {rest : ℕ → UInt32 → UInt16 → Program World SdError},
      (∀ pbuffer addr' blocksize', cmds t.dataCommand addr' →
        Keeps I (rest pbuffer addr' blocksize')) →
      Keeps I (Gd32Firmware.transferSetup pbuffer addr blocksize rest) := by
    refine fun hrest => h.transferSetup h.access h.transerror h.access h.transend
      (fun _ hw => hw) (fun _ _ _ hw => hw) (fun w hw => by simpa using hw) ?_
    rintro pbuffer _ blocksize' ⟨w, hw, -, rfl, -⟩
    exact hrest pbuffer _ blocksize' (haddr w hw)
  cases t with
  | blockRead =>
    rw [Transfer.run, sdBlockRead]
    refine hsetup fun pbuffer addr' blocksize' hcmd => ?_
    refine (h.writeStop _).bind fun _ => (h.writeTotal _).bind fun _ => ?_
    exact (h.startData _ _).bind fun _ => Keeps.ifOk (h.commandR1 hcmd) (h.blockReadData _ _)
  | multiblocksRead =>
    rw [Transfer.run, sdMultiblocksRead]
    refine hsetup fun pbuffer addr' blocksize' hcmd => ?_
    refine Keeps.ite (Keeps.ite (Keeps.pure _) ?_) (Keeps.pure _)
    refine (h.writeStop _).bind fun _ => (h.writeTotal _).bind fun _ => ?_
    exact (h.startData _ _).bind fun _ => Keeps.ifOk (h.commandR1 hcmd) (h.multiblocksReadData _)
  | blockWrite =>
    rw [Transfer.run, sdBlockWrite]
    refine hsetup fun pbuffer addr' blocksize' hcmd => ?_
    refine Keeps.getDrv.bind fun drv => Keeps.ifOk (h.plainCommand (by decide)) ?_
    refine Keeps.ifOk h.waitReady (Keeps.ifOk (h.commandR1 hcmd) ?_)
    refine (h.writeStop _).bind fun _ => (h.writeTotal _).bind fun _ => ?_
    exact (h.startData _ _).bind fun _ => h.blockWriteData _ _
  | multiblocksWrite =>
    rw [Transfer.run, sdMultiblocksWrite]
    refine hsetup fun pbuffer addr' blocksize' hcmd => ?_
    refine Keeps.getDrv.bind fun drv => Keeps.ifOk (h.plainCommand (by decide)) ?_
    refine Keeps.ite (Keeps.ite (Keeps.pure _) ?_) h.finishWrite
    refine Keeps.ifOk (h.announceBlocks _) (Keeps.ifOk (h.commandR1 hcmd) ?_)
    refine (h.writeStop _).bind fun _ => (h.writeTotal _).bind fun _ => ?_
    exact (h.startData _ _).bind fun _ => h.multiblocksWriteData _

end KeepingTransfers

/-- What the transfers leave alone in the variables : whatever neither the handler nor a
transfer writes. -/
theorem keepingTransfers_fixed {δ : Type} {p : Driver → δ} {a : δ}
    (hhandler : ∀ drv drv', drv.HandlerWrote drv' → p drv' = p drv)
    (hstop : ∀ drv n, p { drv with stopcondition := n } = p drv)
    (htotal : ∀ drv n, p { drv with totalnumberBytes := n } = p drv) :
    KeepingTransfers (fun _ _ => True) fun w => p w.drv = a where
  access := HandlerKeeps.access ⟨fun _ _ _ h => h, fun _ _ h => h, fun _ h => h,
    fun _ _ _ h => h, fun f w hf h => (hhandler _ _ (hf w.drv)).trans h⟩
  data _ _ _ h := h
  sdio _ _ _ h := h
  store _ _ _ h := h
  setUp _ _ h := h
  total _ _ h := (htotal _ _).trans h
  clear _ _ h := h
  plain _ _ _ := trivial
  cmd _ _ _ h := h
  taken _ _ _ _ h := h
  accepted _ _ _ _ h := h
  transerror _ h := (hhandler _ _ (by rfl)).trans h
  transend _ h := (hhandler _ _ (by rfl)).trans h
  stopcondition _ _ h := (hstop _ _).trans h
  ftfSeen _ h := h
  dmaTimeout _ h := h

/-- What an event cannot undo stays in the log. -/
theorem keepingTransfers_log {L : List Event → Prop} (hL : ∀ e log, L log → L (e :: log)) :
    KeepingTransfers (fun _ _ => True) fun w => L w.log where
  access := HandlerKeeps.access ⟨fun _ _ _ => hL _ _, fun _ _ h => h, fun _ h => h,
    fun _ _ _ => hL _ _, fun _ _ _ h => h⟩
  data _ _ _ := hL _ _
  sdio _ _ _ h := h
  store _ _ _ h := h
  setUp _ _ := hL _ _
  total _ _ h := h
  clear _ _ h := h
  plain _ _ _ := trivial
  cmd _ _ _ := hL _ _
  taken _ _ _ _ := hL _ _
  accepted _ _ _ _ := hL _ _
  transerror _ h := h
  transend _ h := h
  stopcondition _ _ h := h
  ftfSeen _ := hL _ _
  dmaTimeout _ := hL _ _

/-! ## Conditions on the log -/

/-- Every event of a log is allowed after the events before it. -/
def AllOk (ok : List Event → Event → Prop) : List Event → Prop
  | [] => True
  | e :: log => ok log e ∧ AllOk ok log

instance decidableAllOk {ok : List Event → Event → Prop} [∀ log e, Decidable (ok log e)] :
    (log : List Event) → Decidable (AllOk ok log)
  | [] => isTrue trivial
  | e :: log =>
    have : Decidable (AllOk ok log) := decidableAllOk log
    inferInstanceAs (Decidable (ok log e ∧ AllOk ok log))

/-- The transfer mode and the card type are in `D`, and `X` holds if every event so far was
allowed. -/
structure Guarded (ok : List Event → Event → Prop) (D : UInt32 → CardType → Prop)
    (X : World → Prop) (w : World) : Prop where
  fixed : D w.drv.transmode w.drv.cardtype
  holds : AllOk ok w.log → X w

namespace Guarded

variable {ok : List Event → Event → Prop} {D : UInt32 → CardType → Prop} {X Y : World → Prop}
  {w : World}

theorem imp (h : Guarded ok D X w) (hXY : X w → Y w) : Guarded ok D Y w :=
  ⟨h.fixed, fun hs => hXY (h.holds hs)⟩

theorem note {e : Event} (h : Guarded ok D X w) (hXY : ok w.log e → X w → Y (w.note e)) :
    Guarded ok D Y (w.note e) :=
  ⟨h.fixed, fun hs => hXY hs.1 (h.holds hs.2)⟩

theorem observe {s : Sample} {tape : List Sample} (h : Guarded ok D X w)
    (hXY : ok w.log (.sample s) → X w → Y (w.observe s tape)) :
    Guarded ok D Y (w.observe s tape) :=
  ⟨h.fixed, fun hs => hXY hs.1 (h.holds hs.2)⟩

/-- A change that leaves the log, the mode and the card type alone. -/
theorem update {w' : World} (h : Guarded ok D X w) (hlog : w'.log = w.log)
    (hmode : w'.drv.transmode = w.drv.transmode) (hcard : w'.drv.cardtype = w.drv.cardtype)
    (hXY : X w → Y w') : Guarded ok D Y w' :=
  ⟨by rw [hmode, hcard]; exact h.fixed, fun hs => hXY (h.holds (hlog ▸ hs))⟩

end Guarded

/-- The handler ends the transfer. -/
def Event.handlesEnd : Event → Bool
  | .irqEnd _ => true
  | _ => false

/-- The data command of a transfer, or its response. -/
def Event.OfDataCommand (t : Transfer) : Event → Prop
  | .cmd c => c.index = t.dataCommand
  | .taken cmdindex | .accepted cmdindex => cmdindex = t.dataCommand
  | _ => False

namespace Transfer

variable (t : Transfer)

theorem plain_ne_dataCommand : ∀ index ∈ plainCommands, index ≠ t.dataCommand := by
  cases t <;> simp [plainCommands, dataCommand]

theorem errors_subset : ∀ f ∈ t.errors, f ∈ sdioMaskIntcFlags := by
  cases t <;> decide

/-- The handler does not send the data command. -/
theorem not_ofDataCommand_of_ofHandler {e : Event} (he : e.OfHandler) :
    ¬ e.OfDataCommand t := by
  cases e with
  | cmd c =>
    obtain rfl : c = stopCommand := he
    exact t.plain_ne_dataCommand 12 (by decide)
  | taken cmdindex =>
    obtain rfl : cmdindex = 12 := he
    exact t.plain_ne_dataCommand 12 (by decide)
  | accepted cmdindex =>
    obtain rfl : cmdindex = 12 := he
    exact t.plain_ne_dataCommand 12 (by decide)
  | _ => exact id

theorem not_ofDataCommand_of_ofData {e : Event} (he : e.OfData) : ¬ e.OfDataCommand t := by
  cases e with
  | cmd c => exact he.elim
  | taken cmdindex => exact he.elim
  | accepted cmdindex => exact he.elim
  | _ => exact id

end Transfer

theorem Driver.HandlerWrote.transmode {drv drv' : Driver} (h : drv.HandlerWrote drv') :
    drv'.transmode = drv.transmode := by
  rw [h]

theorem Driver.HandlerWrote.cardtype {drv drv' : Driver} (h : drv.HandlerWrote drv') :
    drv'.cardtype = drv.cardtype := by
  rw [h]

section Log

variable {t : Transfer} {ok : List Event → Event → Prop} {D : UInt32 → CardType → Prop}
  {L : List Event → Prop}

/-- An assertion about the log that only the data command can end survives every instant. -/
theorem handlerKeeps_log (hL : ∀ e log, ¬ e.OfDataCommand t → L log → L (e :: log)) :
    HandlerKeeps (Guarded ok D fun w => L w.log) where
  observe _ _ _ h := h.observe fun _ => hL _ _ id
  clear _ _ h := h.update rfl rfl rfl id
  stop _ h := h.update rfl rfl rfl id
  event _ _ he h := h.note fun _ => hL _ _ (t.not_ofDataCommand_of_ofHandler he)
  drv _ w hf h := h.update rfl (hf w.drv).transmode (hf w.drv).cardtype id

/-- It survives the parts of the transfers other than the data command. -/
theorem keepingCommands_log (hL : ∀ e log, ¬ e.OfDataCommand t → L log → L (e :: log)) :
    KeepingCommands (fun index _ => index ≠ t.dataCommand) (Guarded ok D fun w => L w.log) where
  access := (handlerKeeps_log hL).access
  data _ _ he h := h.note fun _ => hL _ _ (t.not_ofDataCommand_of_ofData he)
  sdio _ _ _ h := h.update rfl rfl rfl id
  store _ _ _ h := h.update rfl rfl rfl id
  setUp _ _ h := h.note fun _ => hL _ _ id
  total _ _ h := h.update rfl rfl rfl id
  clear _ _ h := h.update rfl rfl rfl id
  plain index _ := t.plain_ne_dataCommand index
  cmd _ _ hc h := h.note fun _ => hL _ _ hc
  taken _ _ _ hc h := h.note fun _ => hL _ _ hc
  accepted _ _ _ hc h := h.note fun _ => hL _ _ hc

end Log

/-! ## A transfer as a whole -/

/-- The assertions that hold as a transfer goes on : `I₀` until it resets `transerror`, `I₁`
until it resets `transend`, `P` until it sets `stopcondition`, `P₁` until its data command is
accepted, and `A` while the data is moved. A write sets `stopcondition` after its data command,
and `A₀` holds in between. `R` is what the transfer returns. -/
structure TransferStages (t : Transfer) (I₀ I₁ P P₁ A₀ A : World → Prop)
    (R : SdError → World → Prop) : Prop where
  start : Keeps I₀ access
  transerror : ∀ w, I₀ w → I₁ (w.setDrv fun drv => { drv with transerror := .ok })
  reset : Keeps I₁ access
  transend : ∀ w, I₁ w → P (w.setDrv fun drv => { drv with transend := 0 })
  setup : KeepingCommands (fun index _ => index ≠ t.dataCommand) P
  null : ∀ w, I₀ w → R .parameterInvalid w
  skipped : ∀ status w, P w → R status w
  stopBefore : t.isRead → ∀ w, P w → P₁ (w.setDrv fun drv => { drv with stopcondition := t.stop })
  noStopBefore : t.isRead = false → ∀ w, P w → P₁ w
  before : Keeping P₁
  command : ∀ argument, Triple P₁ (commandR1 access t.dataCommand argument)
    (fun status w => (status = .ok → A₀ w) ∧ (status ≠ .ok → R status w)) fun _ => True
  accepted : Keeps A₀ access
  noStopAfter : t.isRead → ∀ w, A₀ w → A w
  stopAfter : t.isRead = false → ∀ w, A₀ w →
    A (w.setDrv fun drv => { drv with stopcondition := t.stop })
  after : Keeping A
  data : ∀ pbuffer blocksize, Triple A (t.data pbuffer blocksize) R fun _ => True

namespace TransferStages

variable {t : Transfer} {I₀ I₁ P P₁ A₀ A : World → Prop} {R : SdError → World → Prop}

/-- A write of a variable between two stages. -/
theorem ofWrite {I J : World → Prop} {f : Driver → Driver} (hacc : Keeps I access)
    (h : ∀ w, I w → J (w.setDrv f)) :
    Triple I (writeShared f) (fun _ => J) fun _ => True :=
  (Triple.writeShared hacc h).forget

theorem ofSetup (h : TransferStages t I₀ I₁ P P₁ A₀ A R) {addr : UInt32}
    {rest : ℕ → UInt32 → UInt16 → Program World SdError}
    (hrest : ∀ pbuffer addr blocksize, Triple P (rest pbuffer addr blocksize) R fun _ => True)
    (pbuffer : Option ℕ) (blocksize : UInt16) :
    Triple I₀ (transferSetup pbuffer addr blocksize rest) R fun _ => True :=
  h.setup.transferSetup h.start h.transerror h.reset h.transend h.null
    (fun status w _ => h.skipped status w) (fun _ _ => trivial)
    fun pbuffer addr blocksize _ => hrest pbuffer addr blocksize

/-- A read from its data command on. -/
theorem readCommand (h : TransferStages t I₀ I₁ P P₁ A₀ A R) (hread : t.isRead)
    (total argument : UInt32) (blocksize : UInt16) (pbuffer : ℕ) :
    Triple P (do
      writeShared fun drv => { drv with stopcondition := t.stop }
      setDrv fun drv => { drv with totalnumberBytes := total }
      startData blocksize true
      ifOk (commandR1 access t.dataCommand argument) (t.data pbuffer blocksize)) R
      fun _ => True := by
  refine Triple.bind (ofWrite h.setup.access (h.stopBefore hread)) fun _ => ?_
  refine Triple.bind ((Keeps.setDrv (h.before.total total)).triple) fun _ => ?_
  refine Triple.bind ((h.before.startData blocksize true).triple) fun _ => ?_
  refine Triple.ifOk (h.command argument) ?_ fun status w hne hw => hw.2 hne
  exact (h.data pbuffer blocksize).strengthen fun w hw => h.noStopAfter hread w (hw.1 rfl)

/-- A write from its data command on. -/
theorem writeCommand (h : TransferStages t I₀ I₁ P P₁ A₀ A R) (hwrite : t.isRead = false)
    (total argument : UInt32) (blocksize : UInt16) (pbuffer : ℕ) :
    Triple P (ifOk (commandR1 access t.dataCommand argument) do
      writeShared fun drv => { drv with stopcondition := t.stop }
      setDrv fun drv => { drv with totalnumberBytes := total }
      startData blocksize false
      t.data pbuffer blocksize) R fun _ => True := by
  refine Triple.ifOk ((h.command argument).strengthen (h.noStopBefore hwrite)) ?_
    fun status w hne hw => hw.2 hne
  refine Triple.bind (Triple.strengthen (ofWrite h.accepted (h.stopAfter hwrite))
    fun w hw => hw.1 rfl) fun _ => ?_
  refine Triple.bind ((Keeps.setDrv (h.after.total total)).triple) fun _ => ?_
  exact Triple.bind ((h.after.startData blocksize false).triple) fun _ =>
    h.data pbuffer blocksize

/-- A part before the data command that may fail. -/
theorem ifOkPlain (h : TransferStages t I₀ I₁ P P₁ A₀ A R) {f rest : Program World SdError}
    (hf : Keeps P f) (hrest : Triple P rest R fun _ => True) :
    Triple P (ifOk f rest) R fun _ => True :=
  Triple.ifOk hf.triple hrest fun status w _ => h.skipped status w

theorem run (h : TransferStages t I₀ I₁ P P₁ A₀ A R) (pbuffer : Option ℕ) (addr : UInt32)
    (blocksize : UInt16) (blocksnumber : UInt32) :
    Triple I₀ (t.run pbuffer addr blocksize blocksnumber) R fun _ => True := by
  have hplain : ∀ {index : UInt8} {argument : UInt32}, index ∈ plainCommands →
      Keeps P (commandR1 access index argument) := fun hindex => h.setup.plainCommand hindex
  cases t with
  | blockRead =>
    rw [Transfer.run, sdBlockRead]
    exact h.ofSetup (fun pbuffer addr blocksize =>
      h.readCommand rfl blocksize.toUInt32 addr blocksize pbuffer) pbuffer blocksize
  | multiblocksRead =>
    rw [Transfer.run, sdMultiblocksRead]
    refine h.ofSetup (fun pbuffer addr blocksize => ?_) pbuffer blocksize
    refine Triple.ite (fun _ => Triple.ite (fun _ => Triple.pure _ (h.skipped _)) fun _ => ?_)
      fun _ => Triple.pure _ (h.skipped _)
    exact h.readCommand rfl (blocksnumber * blocksize.toUInt32) addr blocksize pbuffer
  | blockWrite =>
    rw [Transfer.run, sdBlockWrite]
    refine h.ofSetup (fun pbuffer addr blocksize => ?_) pbuffer blocksize
    refine Triple.bind Keeps.getDrv.triple fun drv => ?_
    refine h.ifOkPlain (hplain (by decide)) (h.ifOkPlain h.setup.waitReady ?_)
    exact h.writeCommand rfl blocksize.toUInt32 addr blocksize pbuffer
  | multiblocksWrite =>
    rw [Transfer.run, sdMultiblocksWrite]
    refine h.ofSetup (fun pbuffer addr blocksize => ?_) pbuffer blocksize
    refine Triple.bind Keeps.getDrv.triple fun drv => ?_
    refine h.ifOkPlain (hplain (by decide)) (Triple.ite (fun _ => ?_) fun _ => ?_)
    · refine Triple.ite (fun _ => Triple.pure _ (h.skipped _)) fun _ => ?_
      refine h.ifOkPlain (h.setup.announceBlocks blocksnumber) ?_
      exact h.writeCommand rfl (blocksnumber * blocksize.toUInt32) addr blocksize pbuffer
    · exact h.setup.finishWrite.triple.imp fun status w hw => h.skipped status w hw

end TransferStages

end Gd32Firmware
