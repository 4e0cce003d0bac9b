import Gd32Firmware.DiskIo
import Gd32Firmware.DiskSectors
import Gd32Firmware.Machine
import Gd32Firmware.SdBringUp
import Mathlib.Tactic.FinCases

/-!
# The card that the disk functions speak of

`sd_io_init` fills `sd_cardinfo` in the middle of the bring-up, from the type that
`sd_power_on` gives the card and from the CSD that the card sent in answer to `CMD9`. The disk
functions use it in every request, and `disk_initialize` and `disk_status` report a drive that
is ready whatever has happened.

`Drive` is the driver with what its last bring-up did, and `drive` the machine that takes the
calls in any order. After every run, `sd_cardinfo` is that of the card of the last bring-up if
`sd_init` succeeded in it and the card said what it is (`drive_belongs`).
-/

namespace Gd32Firmware

open Program

/-! ## The answer to `CMD9` -/

/-- The last response that arrived. -/
def lastResponse : List Event → Option (UInt8 × (Fin 4 → UInt32))
  | [] => none
  | .sample s :: log => s.response.or (lastResponse log)
  | _ :: log => lastResponse log

/-- At an instant after `CMD9`, this was in a response register. -/
def CsdWord (log : List Event) (i : Fin 4) (word : UInt32) : Prop :=
  ∃ log' r, log' <:+ log ∧ (commands log').head?.map Command.index = some 9 ∧
    lastResponse log' = some r ∧ r.2 i = word

/-- The words were read from the response registers after `CMD9`. -/
def CsdRead (log : List Event) (csd : Fin 4 → UInt32) : Prop :=
  ∀ i, CsdWord log i (csd i)

/-- The response registers hold the last response. -/
def Known (w : World) : Prop :=
  lastResponse w.log = some (w.sdio.rspcmdidx, w.sdio.resp)

/-- They hold it if a command index has arrived since the reset. -/
def Answering (w : World) : Prop :=
  w.sdio.rspcmdidx ≠ 0 → Known w

/-- They hold it, and the last command was `CMD9`. -/
def AfterCsd (w : World) : Prop :=
  Known w ∧ (commands w.log).head?.map Command.index = some 9

section Known

variable {w : World} {s : Sample} {tape : List Sample} {e : Event}

theorem CsdWord.mono {log log' : List Event} {i : Fin 4} {word : UInt32}
    (h : CsdWord log i word) (hlog : log <:+ log') : CsdWord log' i word := by
  obtain ⟨log₀, r, hsuffix, hr⟩ := h
  exact ⟨log₀, r, hsuffix.trans hlog, hr⟩

theorem CsdRead.cons {log : List Event} {csd : Fin 4 → UInt32} (h : CsdRead log csd) :
    CsdRead (e :: log) csd :=
  fun i => (h i).mono (List.suffix_cons e log)

theorem lastResponse_cons (he : e.OfInit) (log : List Event) :
    lastResponse (e :: log) = lastResponse log := by
  cases e <;> first | rfl | exact he.elim

theorem known_observe_of_response {r : UInt8 × (Fin 4 → UInt32)} (hr : s.response = some r) :
    Known (w.observe s tape) := by
  simp [Known, World.observe, lastResponse, hr]

theorem Known.observe (h : Known w) : Known (w.observe s tape) := by
  cases hr : s.response with
  | some r => exact known_observe_of_response hr
  | none => simpa [Known, World.observe, lastResponse, hr] using h

theorem keepingBus_known : KeepingBus Known where
  observe _ _ _ h := h.observe
  clear _ _ h := h
  bus g w hg h := by
    unfold Known
    rw [World.setSdio_log, World.setSdio_sdio, (hg _).1, (hg _).2]
    exact h
  event e w he h := by
    unfold Known
    rw [World.note_log, lastResponse_cons he]
    exact h

theorem keepingIdentify_answering : KeepingIdentify Answering where
  observe s tape w h := by
    cases hr : s.response with
    | some r => exact fun _ => known_observe_of_response hr
    | none => exact fun hne => (h (by simpa [World.observe, hr] using hne)).observe
  clear _ _ h := h
  bus g w hg h hne := keepingBus_known.bus g w hg (h (by simpa [(hg _).1] using hne))
  event e w he h hne := keepingBus_known.event e w he (h hne)
  drv _ _ h := h
  ifCond _ h := h
  ocr _ _ h := h

end Known

/-- A relative address is accepted only from a response with the index of `CMD3`. -/
theorem r6ErrorCheck_known (prca : UInt16) :
    Triple Answering (r6ErrorCheck masked 3 prca) (fun r w => r.1 = .ok → Known w)
      fun _ => True := by
  have hany : KeepingBus Answering := keepingIdentify_answering.toKeepingBus
  have hfail : ∀ {flag : Flag} {fault : SdError}, fault ≠ .ok →
      Triple Answering (do sdioFlagClear masked [flag]; pure (fault, prca))
        (fun r w => r.1 = .ok → Known w) fun _ => True :=
    fun hfault => Triple.bind (hany.flagClear _).triple fun _ =>
      Triple.pure _ fun _ _ hok => absurd hok hfault
  refine Triple.bind (Keeps.triple (Triple.waitResponse hany.masked)) fun regStatus => ?_
  refine Triple.ite (fun _ => hfail (by decide)) fun _ =>
    Triple.ite (fun _ => hfail (by decide)) fun _ => ?_
  refine Triple.bind (Triple.sdioCommandIndexGet hany.masked).forget fun index =>
    Triple.ite (fun _ => Triple.pure _ fun _ _ => nofun) fun hindex => ?_
  obtain rfl : index = 3 := not_not.mp hindex
  refine Triple.strengthen (P := Known) ?_ fun w hw => hw.1 (by rw [hw.2]; decide)
  refine Triple.bind (keepingBus_known.flagClear _).triple fun _ => ?_
  refine Triple.bind (keepingBus_known.responseGet 0).triple fun response => ?_
  have hpure : ∀ r : SdError × UInt16, Triple Known (Pure.pure r : Program World _)
      (fun r w => r.1 = .ok → Known w) fun _ => True :=
    fun r => Triple.pure _ fun _ hw _ => hw
  exact Triple.ite (fun _ => hpure _) fun _ => Triple.ite (fun _ => hpure _) fun _ =>
    Triple.ite (fun _ => hpure _) fun _ => hpure _

/-- One response register, after `CMD9`. -/
theorem sdioResponseGet_csdWord {R : List Event → Prop} (hR : ∀ e log, R log → R (e :: log))
    (i : Fin 4) :
    Triple (fun w => AfterCsd w ∧ R w.log) (sdioResponseGet masked i)
      (fun word w => AfterCsd w ∧ R w.log ∧ CsdWord w.log i word) fun _ => True := by
  have hkeep : Keeps (fun w => AfterCsd w ∧ R w.log) masked :=
    Keeps.masked fun _ _ _ hw => ⟨⟨hw.1.1.observe, hw.1.2⟩, hR _ _ hw.2⟩
  refine (Triple.sdioResponseGet hkeep).weaken ?_ fun _ _ => trivial
  rintro word w ⟨⟨hafter, hr⟩, hword⟩
  exact ⟨hafter, hr, w.log, _, List.suffix_rfl, hafter.2, hafter.1, hword⟩

theorem readResponses_csdRead :
    Triple AfterCsd readResponses (fun csd w => CsdRead w.log csd) fun _ => True := by
  have hmono : ∀ {i word} e log, CsdWord log i word → CsdWord (e :: log) i word :=
    fun e log h => h.mono (List.suffix_cons e log)
  refine Triple.bind ((sdioResponseGet_csdWord (R := fun _ => True) (fun _ _ h => h) 0).strengthen
    fun w hw => ⟨hw, trivial⟩) fun r0 => ?_
  refine Triple.bind ((sdioResponseGet_csdWord (R := (CsdWord · 0 r0)) hmono 1).strengthen
    fun w hw => ⟨hw.1, hw.2.2⟩) fun r1 => ?_
  refine Triple.bind (sdioResponseGet_csdWord
    (R := fun log => CsdWord log 0 r0 ∧ CsdWord log 1 r1)
    (fun e log h => ⟨hmono e log h.1, hmono e log h.2⟩) 2) fun r2 => ?_
  refine Triple.bind ((sdioResponseGet_csdWord
    (R := fun log => (CsdWord log 0 r0 ∧ CsdWord log 1 r1) ∧ CsdWord log 2 r2)
    (fun e log h => ⟨⟨hmono e log h.1.1, hmono e log h.1.2⟩, hmono e log h.2⟩) 3)) fun r3 => ?_
  refine Triple.pure _ fun w hw i => ?_
  obtain ⟨-, ⟨⟨h0, h1⟩, h2⟩, h3⟩ := hw
  fin_cases i
  · exact h0
  · exact h1
  · exact h2
  · exact h3

theorem sendCsd_csdRead {c : CardType} (hc : c.IsSdMemory) (tempRca : UInt16) :
    Triple (fun w => Known w ∧ w.drv.cardtype = c) (sendCsd tempRca)
      (fun status w => status = .ok → CsdRead w.log w.drv.sdCsd) fun _ => True := by
  refine Triple.bind (Q := fun drv w => Known w ∧ drv.cardtype = c)
    (Triple.getDrv fun _ hw => hw) fun drv => Triple.of_fact fun hdrv => ?_
  refine Triple.ite (fun _ => ?_) fun hne => absurd ?_ hne
  · refine Triple.bind (Q := fun _ => Known) (Triple.setDrv fun _ hw => hw) fun _ => ?_
    have hcommand : Triple Known (sendCommand masked 9 (tempRca.toUInt32 <<< 16) .long)
        (fun _ => AfterCsd) Known := by
      have hself : Keeps (fun w => w.sdio.command = ⟨9, tempRca.toUInt32 <<< 16, .long⟩) masked :=
        Keeps.command_masked (C := (· = ⟨9, tempRca.toUInt32 <<< 16, .long⟩))
      refine Triple.sendCommand (C := (· = ⟨9, tempRca.toUInt32 <<< 16, .long⟩))
        keepingBus_known.masked (keepingBus_known.masked.and hself) rfl
        (fun w => keepingBus_known.bus _ w fun _ => ⟨rfl, rfl⟩)
        (fun w => keepingBus_known.event (.set .waitType) w trivial) ?_
      rintro _ w rfl hw
      exact ⟨keepingBus_known.event (.cmd _) w trivial hw, rfl⟩
    have hafter : Keeps AfterCsd masked :=
      Keeps.masked fun _ _ _ hw => ⟨hw.1.observe, hw.2⟩
    refine Triple.bind hcommand.forget fun _ => ?_
    refine Triple.ifOk (Keeps.triple (Keeps.r2ErrorCheck hafter fun _ _ hw => hw)) ?_
      fun status w hne _ hok => absurd hok hne
    refine Triple.bind readResponses_csdRead fun csd => ?_
    exact Triple.bind (Q := fun _ w => CsdRead w.log w.drv.sdCsd) (Triple.setDrv fun _ hw => hw)
      fun _ => Triple.pure _ fun _ hw _ => hw
  · rw [hdrv]
    rintro rfl
    exact absurd hc (by decide)

/-- `sd_card_init` of an SD memory card reads the CSD. -/
theorem sdCardInit_csdRead :
    Triple Answering sdCardInit
      (fun status w => status = .ok → w.drv.cardtype.IsSdMemory → CsdRead w.log w.drv.sdCsd)
      fun _ => True := by
  refine Triple.strengthen (P := fun w => ∃ c, Answering w ∧ w.drv.cardtype = c)
    (Triple.forall fun c => ?_) fun w hw => ⟨_, hw, rfl⟩
  have hkeep : KeepingOf (·.cardtype) fun w => Answering w ∧ w.drv.cardtype = c :=
    keepingIdentify_answering.withDrv (D := (· = c)) keepingIdentify_answering.drv
  by_cases hc : c.IsSdMemory
  · refine Triple.bind (Keeps.reads hkeep.masked).triple fun power =>
      Triple.ite (fun _ => ?_) fun _ => Triple.pure _ fun _ _ => nofun
    refine Triple.ifOk (hkeep.allSendCid fun _ _ => rfl).triple ?_
      fun status w hne _ hok => absurd hok hne
    refine Triple.bind (Q := fun r w => r.1 = .ok → Known w ∧ w.drv.cardtype = c) ?_ ?_
    · refine Triple.bind (Q := fun drv w => (Answering w ∧ w.drv.cardtype = c) ∧
        drv.cardtype = c) (Triple.getDrv fun _ hw => ⟨hw, hw.2⟩) fun drv =>
        Triple.of_fact fun hdrv => Triple.ite (fun _ => ?_) fun hne => ?_
      · refine Triple.bind (hkeep.sendCommand 3 0 .short).triple fun _ => ?_
        have hcard : Keeps (fun w => w.drv.cardtype = c) (r6ErrorCheck masked 3 1) :=
          Keeps.r6ErrorCheck (Keeps.masked fun _ _ _ hw => hw) fun _ _ hw => hw
        exact ((r6ErrorCheck_known 1).and hcard.triple).weaken
          (fun _ _ hw hok => ⟨hw.1 hok, hw.2⟩) fun _ _ => trivial
      · exact absurd (Or.inl (hdrv.symm ▸ hc)) hne
    · rintro ⟨status, tempRca⟩
      refine Triple.ite (fun hne => Triple.pure _ fun _ _ hok => absurd hok hne) fun hok => ?_
      exact ((sendCsd_csdRead hc tempRca).strengthen fun w hw => hw (not_not.mp hok)).imp
        fun _ _ hw hok _ => hw hok
  · have hstay := hkeep.sdCardInit (fun _ _ => rfl) (fun _ _ => rfl) fun _ _ => rfl
    exact hstay.triple.imp fun _ w hw _ hmem => absurd (hw.2 ▸ hmem) hc

/-! ## The bring-up -/

/-- The card has its type from what it answered, and from what `cardtype` held if it answered
nothing. If it is an SD memory card, its CSD has been read. -/
def Identified (before : CardType) (w : World) : Prop :=
  Answered (fun c ocr ifCond => c = classify before ocr ifCond) w ∧
    (w.drv.cardtype.IsSdMemory → CsdRead w.log w.drv.sdCsd)

/-- `sd_cardinfo` is what `sd_card_information_get` makes of the variables. -/
def Decoded (drv : Driver) : Prop :=
  ∃ before, sdCardInformationGet drv (some before) = (.ok, some drv.sdCardinfo)

/-- The variables that `Identified` and `Decoded` look at. -/
def Driver.card (drv : Driver) :
    CardType × (Fin 4 → UInt32) × (Fin 4 → UInt32) × UInt16 × SdCardInfo :=
  (drv.cardtype, drv.sdCsd, drv.sdCid, drv.sdRca, drv.sdCardinfo)

theorem decoded_congr {drv drv' : Driver} (h : drv'.card = drv.card) :
    Decoded drv' ↔ Decoded drv := by
  simp only [Driver.card, Prod.mk.injEq] at h
  obtain ⟨hcard, hcsd, hcid, hrca, hinfo⟩ := h
  simp only [Decoded, sdCardInformationGet, hcard, hcsd, hcid, hrca, hinfo]

section BringUp

variable {before : CardType} {w : World} {e : Event}

theorem keepingOf_identified : KeepingOf Driver.card (Identified before) where
  observe s tape w h := ⟨(keepingMasked_answered _).observe s tape w h.1, fun hc => (h.2 hc).cons⟩
  clear _ _ h := h
  bus _ _ _ h := h
  event e w he h := ⟨(keepingMasked_answered _).event e w he h.1, fun hc => (h.2 hc).cons⟩
  drv f w hf h := by
    have hcard := congrArg Prod.fst (hf w.drv)
    have hcsd := congrArg (fun c => c.2.1) (hf w.drv)
    refine ⟨(keepingOf_answered _).drv f w (fun drv => congrArg Prod.fst (hf drv)) h.1, ?_⟩
    simp only [Driver.card] at hcard hcsd
    simp only [World.setDrv_drv, World.setDrv_log, hcard, hcsd]
    exact h.2

/-- `sd_init` identifies the card. -/
theorem sdInit_identified :
    Triple (Answered fun c ocr ifCond => c = before ∧ ocr = none ∧ ifCond = false) sdInit
      (fun status w => status = .ok → Identified before w) fun _ => True := by
  have hstart := keepingMasked_answered fun c ocr ifCond =>
    c = before ∧ ocr = none ∧ ifCond = false
  refine Triple.bind (Q := fun _ w => Answered (fun c ocr ifCond =>
    c = before ∧ ocr = none ∧ ifCond = false) w ∧ Answering w) ?_ fun _ => ?_
  · exact Triple.bind hstart.masked.triple fun _ =>
      Triple.modify _ fun w hw => ⟨hw, fun hne => absurd rfl hne⟩
  refine Triple.ifOk (sdPowerOn_answered.and keepingIdentify_answering.sdPowerOn.triple).forget
    ?_ fun status w hne _ hok => absurd hok hne
  have hanswered := (keepingOf_answered fun c ocr ifCond =>
    c = classify before ocr ifCond).sdCardInit (fun _ _ => rfl) (fun _ _ => rfl) fun _ _ => rfl
  refine Triple.ifOk (((hanswered.triple.and sdCardInit_csdRead).strengthen
    fun w hw => ⟨hw.1 rfl, hw.2⟩).forget) ?_ fun status w hne _ hok => absurd hok hne
  refine Triple.strengthen (P := Identified before) ?_ fun w hw => ⟨hw.1, hw.2 rfl⟩
  refine Triple.bind (keepingOf_identified.configure _).triple fun _ => ?_
  refine Triple.bind (keepingOf_identified.configure _).triple fun _ => ?_
  exact Triple.bind (keepingOf_identified.configure _).triple fun _ =>
    Triple.pure _ fun _ hw _ => hw

/-- `sd_init` has not succeeded. -/
def NotInit (log : List Event) : Prop :=
  ¬ log.any (Event.succeeds .init)

/-- The card is identified and `sd_cardinfo` is decoded, unless `sd_init` failed. -/
def Located (before : CardType) (w : World) : Prop :=
  Identified before w ∧ Decoded w.drv ∨ NotInit w.log

theorem NotInit.cons {log : List Event} (h : NotInit log) (he : e.succeeds .init = false) :
    NotInit (e :: log) := by
  rw [NotInit, List.any_cons, he, Bool.false_or]
  exact h

/-- It survives what `sd_io_init` itself records. -/
theorem Identified.step (h : Identified before w) (he : e.ofBringUp) :
    Identified before (w.note e) := by
  refine ⟨?_, fun hc => (h.2 hc).cons⟩
  cases e <;> first | exact h.1 | exact nomatch he

theorem Located.step (h : Located before w) (he : e.ofBringUp) (hinit : e.succeeds .init = false) :
    Located before (w.note e) :=
  h.imp (And.imp_left fun h => h.step he) fun h => h.cons hinit

theorem keepingOf_located : KeepingOf Driver.card (Located before) where
  observe s tape w h := h.imp (And.imp_left (keepingOf_identified.observe s tape w))
    fun h => h.cons rfl
  clear _ _ h := h
  bus _ _ _ h := h
  event e w he h := h.imp (And.imp_left (keepingOf_identified.event e w he))
    fun h => h.cons (by cases e <;> first | rfl | exact he.elim)
  drv f w hf h := h.imp (And.imp (keepingOf_identified.drv f w hf)
    (decoded_congr (hf w.drv)).mpr) id

theorem sdCardInformationGet_eq_ok (d : Driver) (pcardinfo : SdCardInfo) :
    ∃ info, sdCardInformationGet d (some pcardinfo) = (.ok, some info) := by
  rw [sdCardInformationGet]
  dsimp only
  split_ifs <;> exact ⟨_, rfl⟩

/-- The first step. -/
theorem initStep_identified :
    Triple (fun w => w.drv.cardtype = before ∧ w.log = []) (bringUpStep .init sdInit)
      (fun status w => (status = .ok → Identified before w) ∧ (status ≠ .ok → NotInit w.log))
      fun _ => True := by
  refine Triple.bind (Q := fun _ w => Answered (fun c ocr ifCond =>
    c = before ∧ ocr = none ∧ ifCond = false) w ∧ Stepped NotInit w) (Triple.note ?_) fun _ => ?_
  · rintro w ⟨rfl, hlog⟩
    refine ⟨answered_start (w := w) hlog, ?_⟩
    rw [Stepped, World.note_log, hlog, NotInit]
    decide
  refine Triple.bind (sdInit_identified.and (keepingInit_stepped NotInit).sdInit.triple).forget
    fun status => ?_
  refine Triple.bind (Q := fun _ w => (status = .ok → Identified before w) ∧
    (status ≠ .ok → NotInit w.log)) (Triple.note fun w hw => ⟨fun hok => ?_, fun hne => ?_⟩)
    fun _ => Triple.pure _ fun _ hw => hw
  · exact (hw.1 hok).step rfl
  · have hnot : NotInit w.log := by
      rw [NotInit, ← any_steps ofBringUp_of_succeeds]
      exact hw.2
    exact hnot.cons (by simp [Event.succeeds, hne])

theorem cardInformationGet_decoded :
    Triple (Identified before) cardInformationGet (fun _ => Located before) fun _ => True := by
  refine Triple.bind (Q := fun drv w => Identified before w ∧ w.drv = drv)
    (Triple.getDrv fun _ hw => ⟨hw, rfl⟩) fun drv => ?_
  obtain ⟨info, hinfo⟩ := sdCardInformationGet_eq_ok drv drv.sdCardinfo
  simp only [hinfo, Option.getD_some]
  refine Triple.bind (Q := fun _ => Located before) (Triple.setDrv ?_) fun _ =>
    Triple.pure _ fun _ hw => hw
  rintro w ⟨hw, rfl⟩
  exact Or.inl ⟨hw, w.drv.sdCardinfo, hinfo⟩

/-- A later step. -/
theorem bringUpStep_located {step : BringUp} (hstep : step ≠ .init) {f : Program World SdError}
    (hf : Keeps (Located before) f) : Triple (Located before) (bringUpStep step f)
      (fun _ => Located before) fun _ => True := by
  refine Triple.bind (Q := fun _ => Located before) (Triple.note fun w hw => hw.step rfl rfl)
    fun _ => Triple.bind hf.triple fun status => ?_
  refine Triple.bind (Q := fun _ => Located before) (Triple.note fun w hw => hw.step rfl ?_)
    fun _ => Triple.pure _ fun _ hw => hw
  simp [Event.succeeds, hstep]

theorem nextIfOk_located {status : SdError} {f : Program World SdError}
    (hf : Triple (Located before) f (fun _ => Located before) fun _ => True) :
    Triple (Located before) (nextIfOk status f) (fun _ => Located before) fun _ => True :=
  Triple.ite (fun _ => hf) fun _ => Triple.pure _ fun _ hw => hw

/-- The bring-up as a whole. -/
theorem sdIoInit_located :
    Triple (fun w => w.drv.cardtype = before ∧ w.log = []) sdIoInit (fun _ => Located before)
      fun _ => True := by
  refine Triple.bind initStep_identified fun status => ?_
  refine Triple.bind (Q := fun _ => Located before) (Triple.ite (fun hok => ?_) fun hne =>
    Triple.pure _ fun w hw => Or.inr (hw.2 hne)) fun status => ?_
  · refine Triple.bind (Q := fun _ => Identified before)
      (Triple.note fun w hw => (hw.1 hok).step rfl) fun _ =>
      Triple.bind cardInformationGet_decoded fun status => ?_
    exact Triple.bind (Q := fun _ => Located before) (Triple.note fun w hw => hw.step rfl rfl)
      fun _ => Triple.pure _ fun _ hw => hw
  refine Triple.bind (nextIfOk_located (bringUpStep_located (by decide)
    (Keeps.getDrv.bind fun _ => keepingOf_located.sdCardSelectDeselect _))) fun _ => ?_
  refine Triple.bind (Q := fun _ => Located before) (Triple.note fun w hw => hw.step rfl rfl)
    fun _ => Triple.bind (keepingOf_located.sdCardstatusGet 0).triple ?_
  rintro ⟨status, cardstate⟩
  refine Triple.bind (Q := fun _ => Located before) (Triple.note fun w hw => hw.step rfl rfl)
    fun _ => ?_
  refine Triple.bind (Q := fun _ => Located before) (Triple.note fun w hw => hw.step rfl rfl)
    fun _ => Triple.ite (fun _ => Triple.stuck fun _ _ => trivial) fun _ => ?_
  refine Triple.bind (nextIfOk_located (bringUpStep_located (by decide)
    (keepingOf_located.sdBusModeConfig (fun _ _ => rfl) _))) fun status => ?_
  exact nextIfOk_located (bringUpStep_located (by decide)
    (keepingOf_located.sdTransferModeConfig (fun _ _ => rfl) _))

end BringUp

/-! ## The calls -/

/-- What a call of `sd_io_init` did : what `cardtype` held before, the result and the log. -/
structure BringUpRecord where
  cardtype : CardType
  result : Option SdError
  log : List Event

/-- The driver, and what its last bring-up did. -/
structure Drive where
  world : World
  lastInit : Option BringUpRecord

/-- A call, in whatever order they come. The disk functions are called for `SD_CARD`. -/
inductive DiskCall where
  | sdIoInit
  | diskInitialize
  | diskStatus
  | diskRead (buff : Option ℕ) (sector count : UInt32)
  | diskWrite (buff : Option ℕ) (sector count : UInt32)
  | diskIoctl (cmd : UInt8)

/-- The calls that ask for the state of the drive. -/
def DiskCall.IsQuery : DiskCall → Prop
  | .diskInitialize | .diskStatus => True
  | _ => False

/-- The calls that use the geometry of the card. -/
def DiskCall.IsRequest : DiskCall → Prop
  | .diskRead .. | .diskWrite .. | .diskIoctl _ => True
  | _ => False

/-- What a call returns, if it does. -/
inductive DiskAnswer where
  | ioInit (status : Option SdError)
  | state (stat : Option UInt8)
  | transfer (res : Option (Option DResult))
  | control (res : Option (Option (DResult × IoctlData)))

/-- One call, with the samples of the hardware during it. A call that does not return leaves the
state in which it was last seen. -/
def drive : Machine Drive (DiskCall × List Sample) DiskAnswer where
  step s op :=
    let w := { s.world with tape := op.2, log := [] }
    match op.1 with
    | .sdIoInit =>
      let o := exec sdIoInit w
      ({ world := o.2, lastInit := some ⟨w.drv.cardtype, o.1, o.2.log⟩ }, .ioInit o.1)
    | .diskInitialize => (s, .state (some (diskInitialize 0)))
    | .diskStatus => (s, .state (diskStatus 0))
    | .diskRead buff sector count =>
      let o := exec (diskRead 0 buff sector count) w
      ({ s with world := o.2 }, .transfer o.1)
    | .diskWrite buff sector count =>
      let o := exec (diskWrite 0 buff sector count) w
      ({ s with world := o.2 }, .transfer (o.1.map some))
    | .diskIoctl cmd =>
      let o := exec (diskIoctl 0 cmd) w
      ({ s with world := o.2 }, .control o.1)

/-- A bring-up that succeeded : `sd_init` did too, and the card has the type that it answered. -/
structure BringUpRecord.Good (b : BringUpRecord) : Prop where
  result : b.result = some .ok
  init : b.log.any (Event.succeeds .init)
  classified : Classified b.log ∨ b.cardtype = .stdCapacitySdCardV11

/-- `sd_cardinfo` is that of the card of a bring-up : it is decoded from the type that the card
answered and from the CSD that it sent. -/
structure Belongs (b : BringUpRecord) (drv : Driver) : Prop where
  cardtype : drv.cardtype =
    classify .stdCapacitySdCardV11 (lastOcr b.log) (answersIfCond b.log)
  csd : CsdRead b.log drv.sdCsd
  decoded : Decoded drv

/-- The last bring-up succeeded. -/
def Ready (s : Drive) : Prop :=
  ∃ b, s.lastInit = some b ∧ b.Good

/-- The disk functions are called only while the last bring-up has succeeded. -/
def CalledReady (s : Drive) (op : DiskCall × List Sample) : Prop :=
  op.1.IsQuery ∨ op.1.IsRequest → Ready s

/-- A drive that is reported as ready has been brought up, and a request uses the geometry of the
card that was, and divides by no zero. -/
structure CallFits (s : Drive) (op : DiskCall × List Sample) : Prop where
  query : op.1.IsQuery → (drive.step s op).2 = .state (some 0) →
    ∃ b, s.lastInit = some b ∧ b.result = some .ok
  request : op.1.IsRequest →
    ∃ b, s.lastInit = some b ∧ b.result = some .ok ∧ Belongs b s.world.drv
  division : (drive.step s op).2 ≠ .control (some none)

/-- The invariant : `sd_cardinfo` is that of the card of the last bring-up, if it succeeded. -/
def Fitting (s : Drive) : Prop :=
  ∀ b, s.lastInit = some b → b.Good → Belongs b s.world.drv

theorem classify_eq_of_classified {c c' : CardType} {log : List Event}
    (h : Classified log ∨ c = c') :
    classify c (lastOcr log) (answersIfCond log) =
      classify c' (lastOcr log) (answersIfCond log) := by
  rcases h with h | rfl
  · unfold Classified at h
    unfold classify
    split_ifs <;> simp_all
  · rfl

theorem isSdMemory_classify (ocr : Option UInt32) (ifCond : Bool) :
    (classify .stdCapacitySdCardV11 ocr ifCond).IsSdMemory := by
  unfold classify
  split_ifs <;> decide

namespace Belongs

variable {b : BringUpRecord} {drv drv' : Driver}

/-- The bring-up of a card leaves its geometry. -/
theorem of_located {w : World} {result : Option SdError} {before : CardType}
    (h : Located before w) (hgood : BringUpRecord.Good ⟨before, result, w.log⟩) :
    Belongs ⟨before, result, w.log⟩ w.drv := by
  rcases h with ⟨⟨hanswered, hcsd⟩, hdecoded⟩ | hnot
  · have hcard : w.drv.cardtype =
        classify .stdCapacitySdCardV11 (lastOcr w.log) (answersIfCond w.log) :=
      hanswered.trans (classify_eq_of_classified hgood.classified)
    exact ⟨hcard, hcsd (hcard ▸ isSdMemory_classify _ _), hdecoded⟩
  · exact absurd hgood.init hnot

theorem congr (h : Belongs b drv) (heq : drv'.card = drv.card) : Belongs b drv' := by
  have hparts := heq
  simp only [Driver.card, Prod.mk.injEq] at hparts
  refine ⟨hparts.1.trans h.cardtype, ?_, (decoded_congr heq).mpr h.decoded⟩
  rw [hparts.2.1]
  exact h.csd

/-- The divisor of `disk_ioctl`. -/
theorem cardBlocksize_ne_zero (h : Belongs b drv) : drv.sdCardinfo.cardBlocksize ≠ 0 := by
  have hstandard : StandardCapacity drv → drv.sdCardinfo.cardBlocksize ≠ 0 := by
    intro hcard hzero
    have hpow := hcard.toNat_blocksize
    rw [hzero] at hpow
    exact absurd hpow.symm (Nat.two_pow_pos _).ne'
  have hcard := h.cardtype
  unfold classify at hcard
  split_ifs at hcard
  · obtain ⟨before, hdecoded⟩ := h.decoded
    simp only [sdCardInformationGet, hcard, reduceCtorEq, or_self, if_false, if_true,
      Prod.mk.injEq, Option.some.injEq, true_and] at hdecoded
    rw [← hdecoded]
    exact (by decide : (512 : UInt32) ≠ 0)
  · exact hstandard ⟨Or.inr hcard, h.decoded⟩
  · exact hstandard ⟨Or.inl hcard, h.decoded⟩

end Belongs

/-- A transfer leaves the card as it is. -/
theorem run_card (t : Transfer) (a) (pbuffer : Option ℕ) (addr : UInt32) (blocksize : UInt16)
    (blocksnumber : UInt32) :
    Keeps (fun w => w.drv.card = a) (t.run pbuffer addr blocksize blocksnumber) := by
  have hkeep : KeepingTransfers (fun _ _ => True) fun w => w.drv.card = a := by
    refine keepingTransfers_fixed (p := Driver.card) (fun drv drv' h => ?_) (fun _ _ => rfl)
      fun _ _ => rfl
    rw [h]
    rfl
  exact hkeep.run t (fun _ _ => trivial) pbuffer blocksize blocksnumber

theorem diskRead_card (a) (buff : Option ℕ) (sector count : UInt32) :
    Keeps (fun w => w.drv.card = a) (diskRead 0 buff sector count) :=
  Keeps.bind (Keeps.getDrv.bind fun _ => Keeps.ite (run_card .multiblocksRead a _ _ _ _)
    (run_card .blockRead a _ _ _ 0)) fun _ => Keeps.pure _

theorem diskWrite_card (a) (buff : Option ℕ) (sector count : UInt32) :
    Keeps (fun w => w.drv.card = a) (diskWrite 0 buff sector count) :=
  Keeps.bind (Keeps.getDrv.bind fun _ => Keeps.ite (run_card .multiblocksWrite a _ _ _ _)
    (run_card .blockWrite a _ _ _ 0)) fun _ => Keeps.pure _

/-- `disk_ioctl` changes nothing. -/
theorem diskIoctl_keeps (I : World → Prop) (cmd : UInt8) : Keeps I (diskIoctl 0 cmd) :=
  Keeps.getDrv.bind fun _ => Keeps.ite (Keeps.ite (Keeps.pure _) (Keeps.pure _)) <|
    Keeps.ite (Keeps.pure _) (Keeps.ite (Keeps.pure _) (Keeps.pure _))

/-- Every call keeps the invariant. -/
theorem drive_step_fitting (s : Drive) (op : DiskCall × List Sample) (h : Fitting s) :
    Fitting (drive.step s op).1 := by
  obtain ⟨call, tape⟩ := op
  cases call with
  | sdIoInit =>
    rintro _ ⟨⟩ hgood
    exact Belongs.of_located (sdIoInit_located.of_eq_some ⟨rfl, rfl⟩ (exec_of_fst hgood.result))
      hgood
  | diskInitialize => exact h
  | diskStatus => exact h
  | diskRead buff sector count =>
    exact fun b hb hgood => (h b hb hgood).congr ((diskRead_card _ buff sector count).exec rfl)
  | diskWrite buff sector count =>
    exact fun b hb hgood => (h b hb hgood).congr ((diskWrite_card _ buff sector count).exec rfl)
  | diskIoctl cmd =>
    exact fun b hb hgood => (h b hb hgood).congr
      ((diskIoctl_keeps (fun w => w.drv.card = _) cmd).exec rfl)

/-- After every run, `sd_cardinfo` is that of the card of the last bring-up, if it succeeded. -/
theorem drive_belongs (w : World) (ops : List (DiskCall × List Sample)) :
    Fitting (drive.run ⟨w, none⟩ ops) :=
  drive.run_invariant drive_step_fitting ops fun _ => nofun

/-- `disk_ioctl` returns if the divisor is not zero. -/
theorem diskIoctl_returns (cmd : UInt8) :
    Triple (fun w => w.drv.sdCardinfo.cardBlocksize ≠ 0) (diskIoctl 0 cmd)
      (fun res _ => res ≠ none) fun _ => True := by
  refine Triple.bind (Q := fun drv _ => drv.sdCardinfo.cardBlocksize ≠ 0)
    (Triple.getDrv fun _ hw => hw) fun drv => ?_
  have hsome : ∀ res, Triple (fun _ => drv.sdCardinfo.cardBlocksize ≠ 0)
      (pure (some res) : Program World (Option (DResult × IoctlData))) (fun res _ => res ≠ none)
      fun _ => True := fun res => Triple.pure _ fun _ _ => nofun
  refine Triple.ite (fun _ => Triple.ite (fun hzero => ?_) fun _ => hsome _) fun _ => ?_
  · exact Triple.pure _ fun w hne => absurd hzero hne
  · exact Triple.ite (fun _ => hsome _) fun _ => Triple.ite (fun _ => hsome _) fun _ => hsome _

/-- The drive stays ready until the next bring-up. -/
theorem Ready.step {s : Drive} (h : Ready s) (op : DiskCall × List Sample)
    (hop : op.1.IsQuery ∨ op.1.IsRequest) : Ready (drive.step s op).1 := by
  obtain ⟨call, tape⟩ := op
  cases call with
  | sdIoInit => exact (hop.elim id id).elim
  | _ => exact h

theorem fits_of_calledReady (s : Drive) (op : DiskCall × List Sample) (h : Fitting s)
    (hcalled : CalledReady s op) : CallFits s op := by
  have hready : op.1.IsQuery ∨ op.1.IsRequest → ∃ b, s.lastInit = some b ∧ b.result = some .ok ∧
      Belongs b s.world.drv := by
    intro hop
    obtain ⟨b, hb, hgood⟩ := hcalled hop
    exact ⟨b, hb, hgood.result, h b hb hgood⟩
  refine ⟨fun hquery _ => ?_, fun hrequest => hready (Or.inr hrequest), ?_⟩
  · obtain ⟨b, hb, hresult, -⟩ := hready (Or.inl hquery)
    exact ⟨b, hb, hresult⟩
  · obtain ⟨call, tape⟩ := op
    cases call with
    | diskIoctl cmd =>
      obtain ⟨b, -, -, hbelongs⟩ := hready (Or.inr trivial)
      intro hzero
      exact (diskIoctl_returns cmd).of_eq_some (s := { s.world with tape := tape, log := [] })
        hbelongs.cardBlocksize_ne_zero (exec_of_fst (DiskAnswer.control.inj hzero)) rfl
    | _ => exact nofun

/-- A bring-up, and then what FatFs asks of a new drive. -/
def mounting : List (DiskCall × List Sample) :=
  [(.sdIoInit, goodBringUp), (.diskInitialize, []), (.diskIoctl 2, []), (.diskIoctl 1, [])]

end Gd32Firmware
