import Gd32Firmware.SdInitRules

/-!
# The history in `sd_power_on`

`sd_power_on` classifies the card by what it answers, and stores the result in `cardtype`. Two
runs from the same hardware differ only in the variables of the driver that they start from,
which no part of `sd_power_on` looks at (`Blind`), so they take the same branches. The variable
is assigned only on some of them : when `CMD8` is answered, and when the operation conditions
have the bit for a high capacity (`classify`). On the others it keeps what an earlier card left
there.
-/

namespace Gd32Firmware

open Program

/-! ## Two runs -/

/-- The worlds differ in the variables of the driver at most. -/
def SameHardware (w w' : World) : Prop :=
  ∃ drv, w' = w.setDrv fun _ => drv

/-- The program does not look at the variables of the driver. -/
abbrev Blind {α : Type} (m : Program World α) : Prop :=
  Couples SameHardware m m

namespace Blind

variable {α β γ : Type} {acc : Program World Unit}

/-- What the program reads is the same in both worlds. -/
theorem read {δ : Type} {g : World → δ} {f : δ → Program World α} (hg : ∀ w h, g (w.setDrv h) = g w)
    (hf : ∀ a, Blind (f a)) : Blind (do f (g (← get))) := by
  refine Couples.get ?_
  rintro w _ ⟨drv, rfl⟩
  rw [hg]
  exact hf (g w)

theorem modify {f : World → World} (hf : ∀ w h, f (w.setDrv h) = (f w).setDrv h) :
    Blind (modify f) :=
  Couples.modify fun w _ ⟨drv, h⟩ => ⟨drv, by rw [h, hf]⟩

theorem tick : Blind tick := by
  rintro w _ ⟨drv, rfl⟩
  unfold exec Gd32Firmware.tick
  cases w with
  | mk tape sdio drv' ram log =>
    cases tape with
    | nil => exact ⟨rfl, drv, rfl⟩
    | cons s tape => exact ⟨rfl, drv, rfl⟩

theorem masked : Blind masked :=
  Couples.bind tick fun _ => Couples.pure ()

theorem note (e : Event) : Blind (note e) :=
  modify fun _ _ => rfl

theorem setDrv (f : Driver → Driver) : Blind (setDrv f) :=
  Couples.modify fun w _ ⟨drv, h⟩ => ⟨f drv, by rw [h]; rfl⟩

theorem sdLoop {body : β → Program World (β ⊕ γ)} (hbody : ∀ b, Blind (body b)) (b : β) :
    Blind (sdLoop body b) :=
  read (g := fun w => w.tape.length) (fun _ _ => rfl) fun n => Couples.iterate hbody (n + 1) b

/-! ### The library -/

theorem configure (hacc : Blind acc) (s : Setting) : Blind (configure acc s) :=
  Couples.bind hacc fun _ => note _

theorem sdioStat (hacc : Blind acc) : Blind (sdioStat acc) :=
  Couples.bind hacc fun _ => read (g := fun w => w.sdio.stat) (fun _ _ => rfl) Couples.pure

theorem sdioFlagGet (hacc : Blind acc) (mask : List Flag) : Blind (sdioFlagGet acc mask) :=
  Couples.bind (sdioStat hacc) fun _ => Couples.pure _

theorem sdioFlagClear (hacc : Blind acc) (mask : List Flag) : Blind (sdioFlagClear acc mask) :=
  Couples.bind hacc fun _ => modify fun _ _ => rfl

theorem sdioCommandIndexGet (hacc : Blind acc) : Blind (sdioCommandIndexGet acc) :=
  Couples.bind hacc fun _ => read (g := fun w => w.sdio.rspcmdidx) (fun _ _ => rfl) Couples.pure

theorem sdioResponseGet (hacc : Blind acc) (i : Fin 4) : Blind (sdioResponseGet acc i) :=
  Couples.bind hacc fun _ => read (g := fun w => w.sdio.resp i) (fun _ _ => rfl) Couples.pure

theorem sendCommand (hacc : Blind acc) (index : UInt8) (argument : UInt32)
    (response : ResponseType) : Blind (sendCommand acc index argument response) := by
  refine Couples.bind (Couples.bind hacc fun _ => modify fun _ _ => rfl) fun _ => ?_
  exact Couples.bind (configure hacc _) fun _ => Couples.bind hacc fun _ => modify fun _ _ => rfl

/-! ### Responses -/

theorem waitResponse (hacc : Blind acc) : Blind (waitResponse acc) :=
  sdLoop (fun _ => Couples.bind (sdioStat hacc) fun _ =>
    Couples.ite (Couples.pure _) (Couples.pure _)) ()

theorem responseError (hacc : Blind acc) (regStatus : List Flag) {rest : Program World SdError}
    (hrest : Blind rest) : Blind (responseError acc regStatus rest) :=
  Couples.ite (Couples.bind (sdioFlagClear hacc _) fun _ => Couples.pure _) <|
    Couples.ite (Couples.bind (sdioFlagClear hacc _) fun _ => Couples.pure _) hrest

theorem ifOk {f rest : Program World SdError} (hf : Blind f) (hrest : Blind rest) :
    Blind (ifOk f rest) :=
  Couples.bind hf fun _ => Couples.ite hrest (Couples.pure _)

theorem cmdsentErrorCheck (hacc : Blind acc) : Blind (cmdsentErrorCheck acc) := by
  refine Couples.bind (sdLoop (fun timeout => ?_) _) fun timeout => ?_
  · exact Couples.bind (sdioFlagGet hacc _) fun _ => Couples.ite (Couples.pure _) <|
      Couples.ite (Couples.pure _) (Couples.pure _)
  · exact Couples.ite (Couples.pure _) <|
      Couples.bind (sdioFlagClear hacc _) fun _ => Couples.pure _

theorem r1ErrorCheck (hacc : Blind acc) (cmdindex : UInt8) : Blind (r1ErrorCheck acc cmdindex) := by
  refine Couples.bind (waitResponse hacc) fun regStatus => responseError hacc regStatus ?_
  refine Couples.bind (sdioCommandIndexGet hacc) fun _ => Couples.ite (Couples.pure _) ?_
  refine Couples.bind (Couples.bind (sdioFlagClear hacc _) fun _ => note _) fun _ => ?_
  exact Couples.bind (sdioResponseGet hacc 0) fun _ =>
    Couples.ite (Couples.bind (note _) fun _ => Couples.pure _) (Couples.pure _)

theorem commandR1 (hacc : Blind acc) (cmdindex : UInt8) (argument : UInt32) :
    Blind (commandR1 acc cmdindex argument) :=
  Couples.bind (sendCommand hacc _ _ _) fun _ => r1ErrorCheck hacc _

theorem r3ErrorCheck (hacc : Blind acc) : Blind (r3ErrorCheck acc) :=
  Couples.bind (waitResponse hacc) fun _ => Couples.ite
    (Couples.bind (sdioFlagClear hacc _) fun _ => Couples.pure _)
    (Couples.bind (sdioFlagClear hacc _) fun _ => Couples.pure _)

theorem r7ErrorCheck (hacc : Blind acc) : Blind (r7ErrorCheck acc) := by
  refine Couples.bind (sdioStat hacc) fun regStatus => Couples.bind (sdLoop ?_ _) ?_
  · rintro ⟨regStatus, timeout⟩
    exact Couples.ite (Couples.bind (sdioStat hacc) fun _ => Couples.pure _) (Couples.pure _)
  · rintro ⟨regStatus, timeout⟩
    refine Couples.ite (Couples.bind (sdioFlagClear hacc _) fun _ => Couples.pure _) ?_
    exact Couples.ite (Couples.bind (sdioFlagClear hacc _) fun _ =>
      Couples.bind (note _) fun _ => Couples.pure _) (Couples.pure _)

/-! ### `sd_power_on` -/

theorem voltageLoop (sdcardtype : UInt32) : Blind (voltageLoop sdcardtype) := by
  refine sdLoop (fun (busyflag, response, count) => ?_) _
  refine Couples.ite (Couples.bind (commandR1 masked _ _) fun status =>
    Couples.ite (Couples.pure _) ?_) (Couples.pure _)
  refine Couples.bind (sendCommand masked _ _ _) fun _ =>
    Couples.bind (r3ErrorCheck masked) fun status => Couples.ite (Couples.pure _) ?_
  exact Couples.bind (sdioResponseGet masked 0) fun _ =>
    Couples.bind (note _) fun _ => Couples.pure _

theorem voltageValidation (sdcardtype : UInt32) : Blind (voltageValidation sdcardtype) := by
  refine Couples.bind (voltageLoop sdcardtype) fun (status, response, count) => ?_
  refine Couples.ite (Couples.pure _) (Couples.ite (Couples.pure _) ?_)
  exact Couples.ite (Couples.bind (setDrv _) fun _ => Couples.pure _) (Couples.pure _)

theorem powerUp : Blind powerUp := by
  refine Couples.bind (configure masked _) fun _ => Couples.bind (configure masked _) fun _ => ?_
  refine Couples.bind (configure masked _) fun _ => ?_
  refine Couples.bind (Couples.bind masked fun _ => modify fun _ _ => rfl) fun _ => ?_
  exact Couples.bind (configure masked _) fun _ =>
    Couples.bind (sendCommand masked _ _ _) fun _ => cmdsentErrorCheck masked

theorem sendIfCond : Blind sendIfCond :=
  Couples.bind (sendCommand masked _ _ _) fun _ => Couples.bind (r7ErrorCheck masked) fun _ =>
    Couples.ite (Couples.bind (setDrv _) fun _ => Couples.pure _) (Couples.pure _)

theorem sdPowerOn : Blind sdPowerOn :=
  ifOk powerUp <| Couples.bind sendIfCond fun sdcardtype =>
    Couples.bind (commandR1 masked _ _) fun _ =>
      Couples.ite (voltageValidation sdcardtype) (Couples.pure _)

end Blind

/-! ## The card type -/

/-- The last operation conditions that the card sent. -/
def lastOcr : List Event → Option UInt32
  | [] => none
  | .ocr response :: _ => some response
  | _ :: log => lastOcr log

/-- The card answered `CMD8`. -/
def answersIfCond : List Event → Bool
  | [] => false
  | .accepted cmdindex :: log => cmdindex = 8 || answersIfCond log
  | _ :: log => answersIfCond log

/-- The card says that it has a high capacity. -/
def highCapacity (ocr : Option UInt32) : Bool :=
  ocr.any fun response => response &&& 0x40000000 ≠ 0

/-- What `sd_power_on` makes of `cardtype`. -/
def classify (cardtype : CardType) (ocr : Option UInt32) (ifCond : Bool) : CardType :=
  if highCapacity ocr then .highCapacitySdCard
  else if ifCond then .stdCapacitySdCardV20
  else cardtype

/-- An assertion about the card type and the answers that classify the card. -/
abbrev Answered (D : CardType → Option UInt32 → Bool → Prop) (w : World) : Prop :=
  D w.drv.cardtype (lastOcr w.log) (answersIfCond w.log)

theorem keepingMasked_answered (D : CardType → Option UInt32 → Bool → Prop) :
    KeepingMasked (Answered D) where
  observe _ _ _ h := h
  clear _ _ h := h
  bus _ _ _ h := h
  sdio _ _ h := h
  event e w he h := by
    have hocr : lastOcr (e :: w.log) = lastOcr w.log := by
      cases e <;> first | rfl | exact he.elim
    have hcond : answersIfCond (e :: w.log) = answersIfCond w.log := by
      cases e with
      | accepted cmdindex =>
        have hne : cmdindex ≠ 8 := he
        simp [answersIfCond, hne]
      | _ => rfl
    unfold Answered
    rw [World.note_log, hocr, hcond]
    exact h

/-- It survives the writes to the other variables. -/
theorem keepingOf_answered (D : CardType → Option UInt32 → Bool → Prop) :
    KeepingOf (·.cardtype) (Answered D) :=
  { keepingMasked_answered D with
    drv := fun f w hf h => by
      unfold Answered
      rw [World.setDrv_drv, hf]
      exact h }

/-- Before a card has answered. -/
theorem answered_start {w : World} (hlog : w.log = []) :
    Answered (fun c ocr ifCond => c = w.drv.cardtype ∧ ocr = none ∧ ifCond = false) w := by
  unfold Answered
  rw [hlog]
  exact ⟨rfl, rfl, rfl⟩

variable {cardtype : CardType}

theorem sendIfCond_answered :
    Triple (Answered fun c ocr ifCond => c = cardtype ∧ ocr = none ∧ ifCond = false) sendIfCond
      (fun _ => Answered fun c ocr ifCond => c = classify cardtype none ifCond ∧ ocr = none)
      fun _ => True := by
  have hkeep := keepingMasked_answered fun c ocr ifCond =>
    c = cardtype ∧ ocr = none ∧ ifCond = false
  refine Triple.bind (hkeep.sendCommand 8 0x1AA .short).triple fun _ => ?_
  refine Triple.bind ((Triple.r7ErrorCheck (A := Answered fun _ ocr ifCond =>
    ocr = none ∧ ifCond = true) hkeep.masked hkeep.clear fun w hw => ⟨hw.2.1, rfl⟩).forget)
    fun status => Triple.ite (fun hok => ?_) fun hne => ?_
  · refine Triple.bind (Q := fun _ => Answered fun c ocr ifCond =>
      c = classify cardtype none ifCond ∧ ocr = none) (Triple.setDrv fun w hw => ?_) fun _ =>
      Triple.pure _ fun _ h => h
    obtain ⟨hocr, hcond⟩ := hw.1 hok
    refine ⟨?_, hocr⟩
    rw [World.setDrv_log, hcond]
    rfl
  · refine Triple.pure _ fun w hw => ?_
    obtain ⟨hcard, hocr, hcond⟩ := hw.2 hne
    refine ⟨?_, hocr⟩
    rw [hcard, hcond]
    rfl

theorem voltageValidation_answered (sdcardtype : UInt32) :
    Triple (Answered fun c _ ifCond => c = classify cardtype none ifCond)
      (voltageValidation sdcardtype)
      (fun status w => status = .ok →
        Answered (fun c ocr ifCond => c = classify cardtype ocr ifCond) w) fun _ => True := by
  have hkeep := keepingMasked_answered fun c _ ifCond => c = classify cardtype none ifCond
  refine Triple.bind ((hkeep.voltageLoop (K := fun response w => lastOcr w.log = some response)
    sdcardtype fun response w hw => ⟨hw, rfl⟩).forget) ?_
  rintro ⟨status, response, count⟩
  refine Triple.ite (fun hne => Triple.pure _ fun w _ hok => absurd hok hne) fun hok => ?_
  refine Triple.ite (fun _ => Triple.pure _ fun w _ h => absurd h (by decide)) fun hlt => ?_
  refine Triple.ite (fun hcap => ?_) fun hcap => Triple.pure _ fun w hw _ => ?_
  · refine Triple.bind (Q := fun _ => Answered fun c ocr ifCond => c = classify cardtype ocr ifCond)
      (Triple.setDrv fun w hw => ?_) fun _ => Triple.pure _ fun _ h _ => h
    have hocr := hw.2 (not_not.mp hok) (not_le.mp hlt)
    unfold Answered
    rw [World.setDrv_log, hocr]
    simp [classify, highCapacity, hcap]
  · have hocr := hw.2 (not_not.mp hok) (not_le.mp hlt)
    unfold Answered
    rw [hocr, hw.1]
    simp [classify, highCapacity, not_not.mp hcap]

/-- A card that is powered up is classified by its answers, and by what `cardtype` held if it
gave none. -/
theorem sdPowerOn_answered :
    Triple (Answered fun c ocr ifCond => c = cardtype ∧ ocr = none ∧ ifCond = false) sdPowerOn
      (fun status w => status = .ok →
        Answered (fun c ocr ifCond => c = classify cardtype ocr ifCond) w) fun _ => True := by
  have hbefore := keepingMasked_answered fun c ocr ifCond =>
    c = cardtype ∧ ocr = none ∧ ifCond = false
  have hafter := keepingMasked_answered fun c ocr ifCond =>
    c = classify cardtype none ifCond ∧ ocr = none
  refine Triple.ifOk hbefore.powerUp.triple ?_ fun status w hne _ hok => absurd hok hne
  refine Triple.bind sendIfCond_answered fun sdcardtype => ?_
  refine Triple.bind (hafter.commandR1 (show (55 : UInt8) ≠ 8 by decide) 0).triple fun status =>
    Triple.ite (fun _ => ?_) fun _ => Triple.pure _ fun w hw _ => ?_
  · exact (voltageValidation_answered sdcardtype).strengthen fun w hw => hw.1
  · unfold Answered
    rw [hw.2]
    exact hw.1

/-- The card has said what it is. -/
def Classified (log : List Event) : Prop :=
  answersIfCond log ∨ highCapacity (lastOcr log)

/-- When `sd_power_on` succeeds, it succeeds from every other state of the variables too, and
ends with the same `cardtype` exactly if the card has said what it is or `cardtype` was the
same before. -/
theorem sdPowerOn_cardtype_eq_iff (w w' : World) (drv : Driver) (hlog : w.log = [])
    (hrun : exec sdPowerOn w = (some .ok, w')) :
    (∃ w'', exec sdPowerOn (w.setDrv fun _ => drv) = (some .ok, w'') ∧
      w''.drv.cardtype = w'.drv.cardtype) ↔
    Classified w'.log ∨ drv.cardtype = w.drv.cardtype := by
  obtain ⟨hok, drv', hsame⟩ := Blind.sdPowerOn w (w.setDrv fun _ => drv) ⟨drv, rfl⟩
  rw [hrun] at hok hsame
  have hrun' : exec sdPowerOn (w.setDrv fun _ => drv) = (some .ok, w'.setDrv fun _ => drv') :=
    Prod.ext hok.symm hsame
  have hcard : w'.drv.cardtype =
      classify w.drv.cardtype (lastOcr w'.log) (answersIfCond w'.log) :=
    sdPowerOn_answered.of_eq_some (answered_start hlog) hrun rfl
  have hcard' : drv'.cardtype =
      classify drv.cardtype (lastOcr w'.log) (answersIfCond w'.log) :=
    sdPowerOn_answered.of_eq_some (s := w.setDrv fun _ => drv) (answered_start hlog) hrun' rfl
  have hiff : drv'.cardtype = w'.drv.cardtype ↔
      Classified w'.log ∨ drv.cardtype = w.drv.cardtype := by
    rw [hcard, hcard', classify, classify, Classified]
    split_ifs <;> simp_all
  constructor
  · rintro ⟨w'', h, heq⟩
    obtain rfl : w'.setDrv (fun _ => drv') = w'' := (Prod.mk.inj (hrun'.symm.trans h)).2
    exact hiff.mp heq
  · exact fun h => ⟨_, hrun', hiff.mpr h⟩

/-- The samples of `sd_power_on` with a card that is powered up at once : what follows `CMD8`,
and the operation conditions. -/
def identification (ifCond : Sample) (ocr : UInt32) : List Sample :=
  quiet 8 ++ [{ flags := [.cmdsend] }] ++ quiet 4 ++ [ifCond] ++ quiet 4 ++ [answer 55 0x120] ++
    quiet 6 ++ [answer 55 0x120] ++ quiet 6 ++ [answer 63 ocr] ++ quiet 2

/-- The variables after a card of high capacity. -/
def afterSdhcDriver : Driver :=
  { Driver.initial with cardtype := .highCapacitySdCard }

/-- A card of version 2.0 that replaces one of high capacity. -/
theorem sdPowerOn_cardtype_eq_iff_v20 :
    ∃ w'', exec sdPowerOn (World.start afterSdhcDriver
        (identification { flags := [.cmdrecv] } 0x80FF8000)) = (some .ok, w'') ∧
      w''.drv.cardtype = (exec sdPowerOn (World.start Driver.initial
        (identification { flags := [.cmdrecv] } 0x80FF8000))).2.drv.cardtype := by
  have hok : (exec sdPowerOn (World.start Driver.initial
      (identification { flags := [.cmdrecv] } 0x80FF8000))).1 = some .ok := by
    decide
  have hclassified : Classified (exec sdPowerOn (World.start Driver.initial
      (identification { flags := [.cmdrecv] } 0x80FF8000))).2.log := Or.inl (by decide)
  have hiff := sdPowerOn_cardtype_eq_iff _ _ afterSdhcDriver rfl (exec_of_fst hok)
  exact hiff.mpr (Or.inl hclassified)

/-- A card of version 1.1 does not answer `CMD8`, and is taken for the one before it. -/
theorem sdPowerOn_keeps_old_cardtype :
    (exec sdPowerOn (World.start Driver.initial
        (identification { flags := [.cmdtmout] } 0x80FF8000))).1 = some .ok ∧
      (exec sdPowerOn (World.start Driver.initial
        (identification { flags := [.cmdtmout] } 0x80FF8000))).2.drv.cardtype =
          .stdCapacitySdCardV11 ∧
      (exec sdPowerOn (World.start afterSdhcDriver
        (identification { flags := [.cmdtmout] } 0x80FF8000))).1 = some .ok ∧
      (exec sdPowerOn (World.start afterSdhcDriver
        (identification { flags := [.cmdtmout] } 0x80FF8000))).2.drv.cardtype =
          .highCapacitySdCard := by
  decide

end Gd32Firmware
