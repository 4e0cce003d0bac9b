import Gd32Firmware.SdInit
import Gd32Firmware.SdRules

/-!
# Rules for the bring-up of the card

What an assertion has to survive in the parts of the bring-up, which run with the interrupt
masked. `KeepingBus` and `KeepingMasked` are for the parts that leave the variables of the
driver alone, `KeepingOf` for the parts that write some of them, and `KeepingInit` for all.
-/

namespace Gd32Firmware

open Program

namespace Program

variable {acc : Program World Unit} {I P A : World → Prop}

/-! ## Responses -/

theorem Keeps.responseError {regStatus : List Flag} {rest : Program World SdError}
    (hacc : Keeps I acc) (hclear : ∀ mask w, I w → I (w.clear mask)) (hrest : Keeps I rest) :
    Keeps I (responseError acc regStatus rest) :=
  Keeps.ite ((Keeps.sdioFlagClear hacc (hclear _)).bind fun _ => Keeps.pure _) <|
    Keeps.ite ((Keeps.sdioFlagClear hacc (hclear _)).bind fun _ => Keeps.pure _) hrest

theorem Keeps.cmdsentErrorCheck (hacc : Keeps I acc) (hclear : ∀ mask w, I w → I (w.clear mask)) :
    Keeps I (cmdsentErrorCheck acc) := by
  refine Keeps.bind (Keeps.sdLoop (fun timeout => ?_) _) fun timeout => ?_
  · exact (Keeps.sdioFlagGet hacc).bind fun _ => Keeps.ite (Keeps.pure _) <|
      Keeps.ite (Keeps.pure _) (Keeps.pure _)
  · exact Keeps.ite (Keeps.pure _) <|
      (Keeps.sdioFlagClear hacc (hclear _)).bind fun _ => Keeps.pure _

theorem Keeps.r2ErrorCheck (hacc : Keeps I acc) (hclear : ∀ mask w, I w → I (w.clear mask)) :
    Keeps I (r2ErrorCheck acc) :=
  Keeps.bind (Triple.waitResponse hacc) fun _ => Keeps.responseError hacc hclear <|
    (Keeps.sdioFlagClear hacc (hclear _)).bind fun _ => Keeps.pure _

theorem Keeps.r3ErrorCheck (hacc : Keeps I acc) (hclear : ∀ mask w, I w → I (w.clear mask)) :
    Keeps I (r3ErrorCheck acc) :=
  Keeps.bind (Triple.waitResponse hacc) fun _ => Keeps.ite
    ((Keeps.sdioFlagClear hacc (hclear _)).bind fun _ => Keeps.pure _)
    ((Keeps.sdioFlagClear hacc (hclear _)).bind fun _ => Keeps.pure _)

theorem Keeps.r6ErrorCheck {cmdindex : UInt8} {prca : UInt16} (hacc : Keeps I acc)
    (hclear : ∀ mask w, I w → I (w.clear mask)) : Keeps I (r6ErrorCheck acc cmdindex prca) := by
  have hclear : ∀ mask, Keeps I (Gd32Firmware.sdioFlagClear acc mask) :=
    fun mask => Keeps.sdioFlagClear hacc (hclear mask)
  refine Keeps.bind (Triple.waitResponse hacc) fun regStatus => ?_
  refine Keeps.ite ((hclear _).bind fun _ => Keeps.pure _) ?_
  refine Keeps.ite ((hclear _).bind fun _ => Keeps.pure _) ?_
  refine (Keeps.sdioCommandIndexGet hacc).bind fun _ => Keeps.ite (Keeps.pure _) ?_
  refine (hclear _).bind fun _ => (Keeps.sdioResponseGet hacc).bind fun _ => ?_
  exact Keeps.ite (Keeps.pure _) (Keeps.ite (Keeps.pure _) (Keeps.ite (Keeps.pure _)
    (Keeps.pure _)))

/-- The check of the answer to `CMD8` : `P` holds until it is accepted, and `A` from then on. -/
theorem Triple.r7ErrorCheck (hP : Keeps P acc) (hclear : ∀ mask w, P w → P (w.clear mask))
    (hA : ∀ w, P w → A (w.note (.accepted 8))) :
    Triple P (r7ErrorCheck acc) (fun status w => (status = .ok → A w) ∧ (status ≠ .ok → P w))
      P := by
  refine Triple.bind (Keeps.sdioStat hP) fun regStatus => ?_
  refine Triple.bind (Q := fun _ => P) (Keeps.sdLoop ?_ _) ?_
  · rintro ⟨regStatus, timeout⟩
    exact Keeps.ite ((Keeps.sdioStat hP).bind fun _ => Keeps.pure _) (Keeps.pure _)
  rintro ⟨regStatus, timeout⟩
  refine Triple.ite (fun _ => ?_) fun _ => Triple.ite (fun _ => ?_) fun _ => ?_
  · exact Triple.bind (Keeps.sdioFlagClear hP (hclear _)) fun _ =>
      Triple.pure _ fun w hw => ⟨fun h => absurd h (by decide), fun _ => hw⟩
  · refine Triple.bind (Keeps.sdioFlagClear hP (hclear _)) fun _ => ?_
    exact Triple.bind (Q := fun _ => A) (Triple.note hA) fun _ =>
      Triple.pure _ fun w hw => ⟨fun _ => hw, fun h => absurd rfl h⟩
  · exact Triple.pure _ fun w hw => ⟨fun h => absurd h (by decide), fun _ => hw⟩

end Program

/-! ## The parts that leave the variables alone -/

/-- What the log records in these parts. -/
def Event.OfInit : Event → Prop
  | .accepted cmdindex => cmdindex ≠ 8
  | .sample _ | .ocr _ | .begin _ | .done _ _ | .lockCheck _ => False
  | _ => True

/-- An assertion that survives them, if they leave the response registers alone. -/
structure KeepingBus (I : World → Prop) : Prop where
  observe : ∀ s tape w, I w → I (w.observe s tape)
  clear : ∀ mask w, I w → I (w.clear mask)
  bus : ∀ g w, (∀ sdio, (g sdio).rspcmdidx = sdio.rspcmdidx ∧ (g sdio).resp = sdio.resp) →
    I w → I (w.setSdio g)
  event : ∀ e w, e.OfInit → I w → I (w.note e)

/-- An assertion that survives the reset of the peripheral too. -/
structure KeepingMasked (I : World → Prop) : Prop extends KeepingBus I where
  sdio : ∀ g w, I w → I (w.setSdio g)

namespace KeepingBus

variable {I : World → Prop}

theorem masked (h : KeepingBus I) : Keeps I masked :=
  Keeps.masked h.observe

theorem configure (h : KeepingBus I) (s : Setting) :
    Keeps I (configure Gd32Firmware.masked s) :=
  Keeps.configure h.masked fun w => h.event (.set s) w trivial

theorem flagClear (h : KeepingBus I) (mask : List Flag) :
    Keeps I (sdioFlagClear Gd32Firmware.masked mask) :=
  Keeps.sdioFlagClear h.masked (h.clear mask)

theorem responseGet (h : KeepingBus I) (i : Fin 4) :
    Keeps I (sdioResponseGet Gd32Firmware.masked i) :=
  Keeps.sdioResponseGet h.masked

theorem sendCommand (h : KeepingBus I) (index : UInt8) (argument : UInt32)
    (response : ResponseType) :
    Keeps I (sendCommand Gd32Firmware.masked index argument response) :=
  Triple.sendAnyCommand h.masked (fun w => h.bus _ w fun _ => ⟨rfl, rfl⟩)
    (fun w => h.event (.set .waitType) w trivial) fun c w => h.event (.cmd c) w trivial

theorem commandR1 (h : KeepingBus I) {cmdindex : UInt8} (hindex : cmdindex ≠ 8)
    (argument : UInt32) : Keeps I (commandR1 Gd32Firmware.masked cmdindex argument) :=
  (h.sendCommand _ _ _).bind fun _ => Keeps.r1ErrorCheck h.masked h.clear
    (fun w => h.event (.taken cmdindex) w trivial) fun w => h.event (.accepted cmdindex) w hindex

theorem powerUp (h : KeepingBus I) : Keeps I powerUp := by
  refine (h.configure _).bind fun _ => (h.configure _).bind fun _ => ?_
  refine (h.configure _).bind fun _ => ?_
  refine Keeps.bind (h.masked.bind fun _ => Keeps.modify _ fun w => h.bus _ w fun _ =>
    ⟨rfl, rfl⟩) fun _ => ?_
  exact (h.configure _).bind fun _ => (h.sendCommand _ _ _).bind fun _ =>
    Keeps.cmdsentErrorCheck h.masked h.clear

/-- The loop of `sd_power_on` : `K` holds of the last response if it says that the card is
powered up. -/
theorem voltageLoop (h : KeepingBus I) {K : UInt32 → World → Prop} (sdcardtype : UInt32)
    (hocr : ∀ response w, I w →
      I (w.note (.ocr response)) ∧ K response (w.note (.ocr response))) :
    Triple I (voltageLoop sdcardtype)
      (fun r w => I w ∧ (r.1 = .ok → r.2.2 < 65535 → K r.2.1 w)) I := by
  refine Triple.strengthen (Triple.sdLoop
    (J := fun b w => I w ∧ (b.1 = true → K b.2.1 w)) ?_ (fun _ _ hw => hw.1) _)
    fun w hw => ⟨hw, fun h => absurd h (by decide)⟩
  rintro ⟨busyflag, response, count⟩
  refine Triple.ite (fun _ => ?_) fun hexit => Triple.pure _ fun w hw => ⟨hw.1, fun _ hlt => ?_⟩
  · refine Triple.bind ((h.commandR1 (by decide) 0).strengthen fun _ hw => hw.1) fun status => ?_
    refine Triple.ite (fun hne => Triple.pure _ fun w hw => ⟨hw, fun h => absurd h hne⟩)
      fun _ => ?_
    refine Triple.bind (h.sendCommand _ _ _) fun _ => ?_
    refine Triple.bind (Keeps.r3ErrorCheck h.masked h.clear) fun status => ?_
    refine Triple.ite (fun hne => Triple.pure _ fun w hw => ⟨hw, fun h => absurd h hne⟩)
      fun _ => ?_
    refine Triple.bind (h.responseGet 0) fun response => ?_
    refine Triple.bind (Q := fun _ w => I w ∧ K response w) (Triple.note (hocr response))
      fun _ => Triple.pure _ fun w hw => ⟨hw.1, fun _ => hw.2⟩
  · refine hw.2 ?_
    by_contra hbusy
    exact hexit ⟨hbusy, hlt⟩

theorem readResponses (h : KeepingBus I) : Keeps I readResponses :=
  (h.responseGet 0).bind fun _ => (h.responseGet 1).bind fun _ => (h.responseGet 2).bind fun _ =>
    (h.responseGet 3).bind fun _ => Keeps.pure _

theorem sendRelativeAddr (h : KeepingBus I) : Keeps I sendRelativeAddr :=
  Keeps.getDrv.bind fun _ => Keeps.ite
    ((h.sendCommand _ _ _).bind fun _ => Keeps.r6ErrorCheck h.masked h.clear) (Keeps.pure _)

theorem sdCardSelectDeselect (h : KeepingBus I) (cardrca : UInt16) :
    Keeps I (sdCardSelectDeselect cardrca) :=
  h.commandR1 (by decide) _

theorem sdCardstatusGet (h : KeepingBus I) (pcardstatus : UInt32) :
    Keeps I (sdCardstatusGet pcardstatus) :=
  Keeps.getDrv.bind fun _ => (h.commandR1 (by decide) _).bind fun _ =>
    Keeps.ite (Keeps.pure _) ((h.responseGet 0).bind fun _ => Keeps.pure _)

theorem receiveScr (h : KeepingBus I) : Keeps I receiveScr := by
  refine Keeps.sdLoop ?_ _
  rintro ⟨tempScr, idxScr⟩
  refine (Keeps.sdioFlagGet h.masked).bind fun _ => Keeps.ite (Keeps.pure _) ?_
  refine (Keeps.sdioFlagGet h.masked).bind fun _ => Keeps.ite ?_ (Keeps.pure _)
  exact Keeps.bind (Keeps.sdioDataRead h.masked (fun w => h.bus _ w fun _ => ⟨rfl, rfl⟩)
    fun word w => h.event (.read word) w trivial) fun _ => Keeps.pure _

theorem setBusWidth (h : KeepingBus I) (buswidth argument : UInt32) :
    Keeps I (setBusWidth buswidth argument) :=
  Keeps.getDrv.bind fun _ => Keeps.ite
    (Keeps.ifOk (h.commandR1 (by decide) _) (h.commandR1 (by decide) _)) (Keeps.pure _)

end KeepingBus

/-! ## The parts that write some of the variables -/

/-- An assertion that survives writes to the variables that leave `p` alone. -/
structure KeepingOf {δ : Type} (p : Driver → δ) (I : World → Prop) : Prop
    extends KeepingBus I where
  drv : ∀ f w, (∀ drv, p (f drv) = p drv) → I w → I (w.setDrv f)

/-- An assertion that does not look at the variables, with one about them. -/
theorem KeepingBus.withDrv {δ : Type} {p : Driver → δ} {I : World → Prop} {D : δ → Prop}
    (h : KeepingBus I) (hdrv : ∀ f w, I w → I (w.setDrv f)) :
    KeepingOf p fun w => I w ∧ D (p w.drv) where
  observe s tape w hw := ⟨h.observe s tape w hw.1, hw.2⟩
  clear mask w hw := ⟨h.clear mask w hw.1, hw.2⟩
  bus g w hg hw := ⟨h.bus g w hg hw.1, hw.2⟩
  event e w he hw := ⟨h.event e w he hw.1, hw.2⟩
  drv f w hf hw := ⟨hdrv f w hw.1, by rw [World.setDrv_drv, hf]; exact hw.2⟩

namespace KeepingOf

variable {δ : Type} {p : Driver → δ} {I : World → Prop}

theorem setDrv (h : KeepingOf p I) {f : Driver → Driver} (hf : ∀ drv, p (f drv) = p drv) :
    Keeps I (setDrv f) :=
  Keeps.setDrv fun w => h.drv f w hf

theorem allSendCid (h : KeepingOf p I) (hcid : ∀ drv cid, p { drv with sdCid := cid } = p drv) :
    Keeps I allSendCid := by
  refine Keeps.getDrv.bind fun _ => Keeps.ite ?_ (Keeps.pure _)
  refine (h.sendCommand _ _ _).bind fun _ => Keeps.ifOk (Keeps.r2ErrorCheck h.masked h.clear) ?_
  exact h.readResponses.bind fun _ => (h.setDrv fun _ => hcid _ _).bind fun _ => Keeps.pure _

theorem sendCsd (h : KeepingOf p I) (hrca : ∀ drv rca, p { drv with sdRca := rca } = p drv)
    (hcsd : ∀ drv csd, p { drv with sdCsd := csd } = p drv) (tempRca : UInt16) :
    Keeps I (sendCsd tempRca) := by
  refine Keeps.getDrv.bind fun _ => Keeps.ite ?_ (Keeps.pure _)
  refine (h.setDrv fun _ => hrca _ _).bind fun _ => (h.sendCommand _ _ _).bind fun _ =>
    Keeps.ifOk (Keeps.r2ErrorCheck h.masked h.clear) ?_
  exact h.readResponses.bind fun _ => (h.setDrv fun _ => hcsd _ _).bind fun _ => Keeps.pure _

theorem sdCardInit (h : KeepingOf p I) (hcid : ∀ drv cid, p { drv with sdCid := cid } = p drv)
    (hrca : ∀ drv rca, p { drv with sdRca := rca } = p drv)
    (hcsd : ∀ drv csd, p { drv with sdCsd := csd } = p drv) : Keeps I sdCardInit := by
  refine (Keeps.reads h.masked).bind fun _ =>
    Keeps.ite (Keeps.ifOk (h.allSendCid hcid) ?_) (Keeps.pure _)
  refine h.sendRelativeAddr.bind ?_
  rintro ⟨status, tempRca⟩
  exact Keeps.ite (Keeps.pure _) (h.sendCsd hrca hcsd tempRca)

theorem sdScrGet (h : KeepingOf p I) (hscr : ∀ drv scr, p { drv with sdScr := scr } = p drv)
    (rca : UInt16) : Keeps I (sdScrGet rca) := by
  refine Keeps.ifOk (h.commandR1 (by decide) _) (Keeps.ifOk (h.commandR1 (by decide) _) ?_)
  refine (h.configure _).bind fun _ => (h.configure _).bind fun _ => ?_
  refine (h.configure _).bind fun _ => ?_
  refine Keeps.ifOk (h.commandR1 (by decide) _) (h.receiveScr.bind fun _ => ?_)
  exact Keeps.ifOk (Keeps.checkFaults h.masked h.clear _) ((h.flagClear _).bind fun _ =>
    (h.setDrv fun _ => hscr _ _).bind fun _ => Keeps.pure _)

theorem sdBusWidthConfig (h : KeepingOf p I)
    (hscr : ∀ drv scr, p { drv with sdScr := scr } = p drv) (buswidth : UInt32) :
    Keeps I (sdBusWidthConfig buswidth) := by
  refine (h.responseGet 0).bind fun _ => Keeps.ite (Keeps.pure _) (Keeps.getDrv.bind fun _ => ?_)
  exact Keeps.ifOk (h.sdScrGet hscr _) (Keeps.ite (h.setBusWidth _ _)
    (Keeps.ite (h.setBusWidth _ _) (Keeps.pure _)))

theorem changeBusMode (h : KeepingOf p I)
    (hscr : ∀ drv scr, p { drv with sdScr := scr } = p drv) (buswidth busmode : UInt32) :
    Keeps I (changeBusMode buswidth busmode) :=
  Keeps.ifOk (h.sdBusWidthConfig hscr _) <| (h.configure _).bind fun _ =>
    (h.configure _).bind fun _ => (h.configure _).bind fun _ => Keeps.pure _

theorem sdBusModeConfig (h : KeepingOf p I)
    (hscr : ∀ drv scr, p { drv with sdScr := scr } = p drv) (busmode : UInt32) :
    Keeps I (sdBusModeConfig busmode) := by
  refine Keeps.getDrv.bind fun _ => Keeps.ite (Keeps.pure _) (Keeps.ite ?_ (Keeps.pure _))
  exact Keeps.ite (Keeps.pure _) (Keeps.ite (h.changeBusMode hscr _ _)
    (Keeps.ite (h.changeBusMode hscr _ _) (Keeps.pure _)))

theorem sdTransferModeConfig (h : KeepingOf p I)
    (hmode : ∀ drv mode, p { drv with transmode := mode } = p drv) (txmode : UInt32) :
    Keeps I (sdTransferModeConfig txmode) :=
  Keeps.ite ((h.setDrv fun _ => hmode _ _).bind fun _ => Keeps.pure _) (Keeps.pure _)

end KeepingOf

/-! ## All parts -/

/-- An assertion that survives every part of the bring-up but the reset of the peripheral. -/
structure KeepingIdentify (I : World → Prop) : Prop extends KeepingBus I where
  drv : ∀ f w, I w → I (w.setDrv f)
  ifCond : ∀ w, I w → I (w.note (.accepted 8))
  ocr : ∀ response w, I w → I (w.note (.ocr response))

/-- An assertion that survives every part of the bring-up. -/
structure KeepingInit (I : World → Prop) : Prop extends KeepingMasked I, KeepingIdentify I

namespace KeepingIdentify

variable {I : World → Prop}

theorem setDrv (h : KeepingIdentify I) (f : Driver → Driver) : Keeps I (setDrv f) :=
  Keeps.setDrv (h.drv f)

/-- The writes may change everything. -/
theorem keepingOf (h : KeepingIdentify I) : KeepingOf (fun _ => ()) I :=
  { h with drv := fun f w _ => h.drv f w }

theorem sendIfCond (h : KeepingIdentify I) : Keeps I sendIfCond := by
  refine (h.sendCommand _ _ _).bind fun _ => Keeps.bind ?_ fun status => Keeps.ite ?_ (Keeps.pure _)
  · refine (Triple.r7ErrorCheck h.masked h.clear h.ifCond).imp fun status w hw => ?_
    exact (eq_or_ne status .ok).elim hw.1 hw.2
  · exact (h.setDrv _).bind fun _ => Keeps.pure _

theorem voltageValidation (h : KeepingIdentify I) (sdcardtype : UInt32) :
    Keeps I (voltageValidation sdcardtype) := by
  refine Keeps.bind ((h.voltageLoop (K := fun _ _ => True) sdcardtype fun response w hw =>
    ⟨h.ocr response w hw, trivial⟩).imp fun _ _ hw => hw.1) ?_
  rintro ⟨status, response, count⟩
  refine Keeps.ite (Keeps.pure _) (Keeps.ite (Keeps.pure _) (Keeps.ite ?_ (Keeps.pure _)))
  exact (h.setDrv _).bind fun _ => Keeps.pure _

theorem sdPowerOn (h : KeepingIdentify I) : Keeps I sdPowerOn :=
  Keeps.ifOk h.powerUp <| h.sendIfCond.bind fun sdcardtype =>
    (h.commandR1 (by decide) _).bind fun _ =>
      Keeps.ite (h.voltageValidation sdcardtype) (Keeps.pure _)

theorem cardInformationGet (h : KeepingIdentify I) : Keeps I cardInformationGet :=
  Keeps.getDrv.bind fun _ => (h.setDrv _).bind fun _ => Keeps.pure _

theorem sdBusModeConfig (h : KeepingIdentify I) (busmode : UInt32) :
    Keeps I (sdBusModeConfig busmode) :=
  h.keepingOf.sdBusModeConfig (fun _ _ => rfl) busmode

theorem sdTransferModeConfig (h : KeepingIdentify I) (txmode : UInt32) :
    Keeps I (sdTransferModeConfig txmode) :=
  h.keepingOf.sdTransferModeConfig (fun _ _ => rfl) txmode

end KeepingIdentify

theorem KeepingInit.sdInit {I : World → Prop} (h : KeepingInit I) : Keeps I sdInit := by
  refine Keeps.bind (h.masked.bind fun _ => Keeps.modify _ (h.sdio _)) fun _ => ?_
  refine Keeps.ifOk h.sdPowerOn (Keeps.ifOk
    (h.keepingOf.sdCardInit (fun _ _ => rfl) (fun _ _ => rfl) fun _ _ => rfl) ?_)
  exact (h.configure _).bind fun _ => (h.configure _).bind fun _ =>
    (h.configure _).bind fun _ => Keeps.pure _

end Gd32Firmware
