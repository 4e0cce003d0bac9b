import Gd32Firmware.SdDataPhase
import Gd32Firmware.SdRegisters
import Mathlib.Algebra.Ring.Parity
import Mathlib.Data.Nat.ModEq
import Mathlib.Data.Nat.Prime.Basic
import Mathlib.Tactic.Positivity
import Mathlib.Tactic.Ring

/-!
# The length of a transfer

The data state machine moves as many bytes as it was set up for, and the DMA channel as many as
it was given. A transfer that returned `SD_OK` was set up for its own block size and number of
blocks (`run_moved`).

FatFs counts in sectors of 512 bytes, while the block size of the disk functions is
`card_blocksize`, which `sd_card_information_get` decodes from the CSD. Blocks are as many bytes
as the same number of sectors only if they have 512 bytes (`eq_nine_of_blocks_eq_sectors`).
-/

namespace Gd32Firmware

open Program

/-! ## What a transfer is set up for -/

/-- The length that the data state machine was last set up for. -/
def dataLength : List Event → Option UInt32
  | [] => none
  | .set (.dataConfig _ length _) :: _ => some length
  | _ :: log => dataLength log

/-- The buffer and the size that the DMA channel was last set up for. -/
def dmaRegion : List Event → Option (ℕ × UInt32)
  | [] => none
  | .set (.dmaReceive dstbuf bufsize) :: _ => some (dstbuf, bufsize)
  | .set (.dmaTransfer srcbuf bufsize) :: _ => some (srcbuf, bufsize)
  | _ :: log => dmaRegion log

/-- The mode and the total are these, and `D` holds of what was set up. -/
def Programmed (m total : UInt32) (D : Option UInt32 → Option (ℕ × UInt32) → Prop) (w : World) :
    Prop :=
  w.drv.transmode = m ∧ w.drv.totalnumberBytes = total ∧ D (dataLength w.log) (dmaRegion w.log)

section Programmed

variable {m total : UInt32} {D D' : Option UInt32 → Option (ℕ × UInt32) → Prop} {w : World}
  {e : Event}

theorem dataLength_cons (he : ∀ s, e = .set s → s.Plain) (log : List Event) :
    dataLength (e :: log) = dataLength log := by
  cases e with
  | set s =>
    cases s with
    | dataConfig timeout length blocksize => exact (he _ rfl).elim
    | _ => rfl
  | _ => rfl

theorem dmaRegion_cons (he : ∀ s, e = .set s → s.Plain) (log : List Event) :
    dmaRegion (e :: log) = dmaRegion log := by
  cases e with
  | set s =>
    cases s with
    | dmaReceive dstbuf bufsize => exact (he _ rfl).elim
    | dmaTransfer srcbuf bufsize => exact (he _ rfl).elim
    | _ => rfl
  | _ => rfl

theorem Programmed.note (h : Programmed m total D w) (he : ∀ s, e = .set s → s.Plain) :
    Programmed m total D (w.note e) := by
  refine ⟨h.1, h.2.1, ?_⟩
  rw [World.note_log, dataLength_cons he, dmaRegion_cons he]
  exact h.2.2

theorem handlerKeeps_programmed : HandlerKeeps (Programmed m total D) where
  observe s _ w h := h.note (e := .sample s) nofun
  clear _ _ h := h
  stop _ h := h
  event _ _ he h := h.note (by rintro s rfl; exact he)
  drv f w hf h := by
    have hwrote := hf w.drv
    unfold Programmed
    rw [World.setDrv_drv, hwrote]
    exact h

theorem keepingPhase_programmed : KeepingPhase (fun _ _ => True) (Programmed m total D) where
  access := handlerKeeps_programmed.access
  data _ _ he h := h.note (by rintro s rfl; exact he)
  sdio _ _ _ h := h
  store _ _ _ h := h
  clear _ _ h := h
  plain _ _ _ := trivial
  cmd _ _ _ h := h.note nofun
  taken _ _ _ _ h := h.note nofun
  accepted _ _ _ _ h := h.note nofun

theorem Programmed.imp (h : Programmed m total D w)
    (hD : ∀ length region, D length region → D' length region) : Programmed m total D' w :=
  ⟨h.1, h.2.1, hD _ _ h.2.2⟩

/-- The driver reads the total that was set. -/
theorem Program.readTotal {P : World → Prop} (h : ∀ w, P w → w.drv.totalnumberBytes = total) :
    Triple P getDrv (fun drv w => P w ∧ drv.totalnumberBytes = total) fun _ => True :=
  Triple.getDrv fun w hw => ⟨hw, h w hw⟩

/-- The data state machine is set up for the total. -/
theorem startData_programmed (blocksize : UInt16) (toSdio : Bool) :
    Triple (Programmed m total fun _ _ => True) (startData blocksize toSdio)
      (fun _ => Programmed m total fun length _ => length = some total) fun _ => True := by
  have hbefore : KeepingPhase (fun _ _ => True) (Programmed m total fun _ _ => True) :=
    keepingPhase_programmed
  have hafter : KeepingPhase (fun _ _ => True)
      (Programmed m total fun length _ => length = some total) := keepingPhase_programmed
  refine Triple.bind (readTotal fun _ hw => hw.2.1) fun drv => Triple.of_fact fun htotal => ?_
  refine Triple.bind (Q := fun _ => Programmed m total fun length _ => length = some total) ?_
    fun _ => ?_
  · refine Triple.bind hbefore.access.triple fun _ => Triple.note fun w hw => ?_
    exact ⟨hw.1, hw.2.1, congrArg some htotal⟩
  · refine Triple.bind (Keeps.triple (hafter.configure (s := .dataTransferConfig toSdio)
      trivial)) fun _ => ?_
    exact Keeps.triple (hafter.configure (s := .dsm true) trivial)

/-- The DMA channel is set up for the buffer, and the data state machine stays as it is. -/
theorem dmaConfig_programmed {s : Setting} {b : ℕ} {n : UInt32} {length : Option UInt32}
    (hs : ∀ log, dmaRegion (.set s :: log) = some (b, n) ∧
      dataLength (.set s :: log) = dataLength log) :
    Triple (Programmed m total fun l _ => l = length) (dmaConfig access s)
      (fun _ => Programmed m total fun l r => l = length ∧ r = some (b, n)) fun _ => True := by
  have hkeep : KeepingPhase (fun _ _ => True) (Programmed m total fun l _ => l = length) :=
    keepingPhase_programmed
  refine Triple.bind hkeep.access.triple fun _ => ?_
  refine Triple.bind (Q := fun _ => Programmed m total fun l _ => l = length)
    (Triple.modify _ fun _ hw => hw) fun _ => Triple.note fun w hw => ?_
  refine ⟨hw.1, hw.2.1, ?_⟩
  rw [World.note_log, (hs w.log).1, (hs w.log).2]
  exact ⟨hw.2.2, rfl⟩

/-- What a transfer with this total has set up when it returns `SD_OK`. -/
def SetUp (m total : UInt32) (b : ℕ) (status : SdError) (w : World) : Prop :=
  status = .ok → Programmed m total (fun length region =>
      length = some total ∧ (m = sdDmaMode → region = some (b, total))) w ∧
    (m = sdDmaMode → .ftfSeen ∈ w.log)

/-- What happened stays in the log. -/
theorem keepingTransfers_mem (e : Event) :
    KeepingTransfers (fun _ _ => True) fun w => e ∈ w.log :=
  keepingTransfers_log (L := fun log => e ∈ log) fun _ _ h => List.mem_cons_of_mem _ h

/-- The end of a DMA transfer : only one that came to its end is reported as good. -/
theorem waitFtf_setUp {b : ℕ} (timeout : ℕ) {rest : Program World SdError}
    (hrest : Keeps (Programmed m total fun length region =>
      length = some total ∧ region = some (b, total)) rest)
    (hmem : Keeps (fun w => .ftfSeen ∈ w.log) rest) :
    Triple (Programmed m total fun length region =>
        length = some total ∧ region = some (b, total))
      (do if ← waitFtf timeout then rest else pure .error) (SetUp m total b) fun _ => True := by
  have hstate : KeepingPhase (fun _ _ => True) (Programmed m total fun length region =>
      length = some total ∧ region = some (b, total)) := keepingPhase_programmed
  refine Triple.bind ((hstate.waitFtf (Q := fun ended w => Programmed m total (fun length region =>
    length = some total ∧ region = some (b, total)) w ∧ (ended = true → .ftfSeen ∈ w.log))
    (fun w hw => ⟨hw.note nofun, fun _ => List.mem_cons_self⟩)
    (fun w hw => ⟨hw.note nofun, nofun⟩) timeout).forget)
    fun ended => Triple.ite (fun hended => ?_) fun _ => Triple.pure _ fun _ _ => nofun
  refine ((hrest.and hmem).triple.strengthen fun w hw => ⟨hw.1, hw.2 hended⟩).imp
    fun _ _ hw _ => ⟨hw.1.imp fun _ _ h => ⟨h.1, fun _ => h.2⟩, fun _ => hw.2⟩

/-- A polled transfer uses no DMA, so that its setting up stays as it is. -/
theorem polled_setUp {b : ℕ} {f : Program World SdError} (hm : m = sdPollingMode)
    (hf : Keeps (Programmed m total fun length _ => length = some total) f) :
    Triple (Programmed m total fun length _ => length = some total) f (SetUp m total b)
      fun _ => True := by
  have hnot : ¬ m = sdDmaMode := by
    rw [hm]
    decide
  exact hf.triple.imp fun _ _ hw _ =>
    ⟨hw.imp fun _ _ h => ⟨h, fun hdma => absurd hdma hnot⟩, fun hdma => absurd hdma hnot⟩

/-- The part of a transfer that moves the data. -/
theorem data_programmed (t : Transfer) (b : ℕ) (blocksize : UInt16)
    (htotal : t.stop = 0 → blocksize.toUInt32 = total) :
    Triple (Programmed m total fun length _ => length = some total) (t.data b blocksize)
      (SetUp m total b) fun _ => True := by
  have hstate : KeepingPhase (fun _ _ => True)
      (Programmed m total fun length _ => length = some total) := keepingPhase_programmed
  have hdone : KeepingPhase (fun _ _ => True) (Programmed m total fun length region =>
      length = some total ∧ region = some (b, total)) := keepingPhase_programmed
  have hmem : KeepingTransfers (fun _ _ => True) fun w => .ftfSeen ∈ w.log :=
    keepingTransfers_mem .ftfSeen
  have hinvalid : ∀ w, Programmed m total (fun length _ => length = some total) w →
      SetUp m total b .parameterInvalid w := fun _ _ => nofun
  have hreceive : ∀ ended, Keeps (Programmed m total fun length _ => length = some total)
      (pollReceive ended b) :=
    fun ended => (hstate.pollReceive ended b).imp fun _ _ hw => hw.1
  have hsend : ∀ ended, Keeps (Programmed m total fun length _ => length = some total)
      (pollSend ended b) :=
    fun ended => (hstate.pollSend ended b).imp fun _ _ hw => hw.1
  cases t with
  | blockRead =>
    have hsize : blocksize.toUInt32 = total := htotal rfl
    refine Triple.byMode (fun _ hw => hw.1) (fun hm => polled_setUp hm ?_) (fun _ => ?_)
      fun _ _ => hinvalid
    · refine (hreceive _).bind fun ptempbuff => Keeps.ifOk (hstate.checkFaults _) ?_
      exact (hstate.drainFifo _).bind fun _ => (hstate.flagClear _).bind fun _ => Keeps.pure _
    · refine Triple.bind (Keeps.triple (hstate.configure (s := .interruptEnable _) trivial))
        fun _ => Triple.bind (Keeps.triple (hstate.configure (s := .dma true) trivial)) fun _ => ?_
      refine Triple.bind (dmaConfig_programmed fun log => ⟨rfl, rfl⟩) fun _ => ?_
      rw [hsize]
      exact waitFtf_setUp 100000 (Keeps.pure _) (Keeps.pure _)
  | multiblocksRead =>
    refine Triple.byMode (fun _ hw => hw.1) (fun hm => polled_setUp hm ?_) (fun _ => ?_)
      fun _ _ => hinvalid
    · refine (hreceive _).bind fun ptempbuff => Keeps.ifOk (hstate.checkFaults _) ?_
      exact (hstate.drainFifo _).bind fun _ =>
        Keeps.ifOk hstate.stopPolled ((hstate.flagClear _).bind fun _ => Keeps.pure _)
    · refine Triple.bind (Keeps.triple (hstate.configure (s := .interruptEnable _) trivial))
        fun _ => Triple.bind (Keeps.triple (hstate.configure (s := .dma true) trivial)) fun _ => ?_
      refine Triple.bind (readTotal fun _ hw => hw.2.1) fun drv => Triple.of_fact fun hn => ?_
      refine Triple.bind (dmaConfig_programmed fun log => ⟨rfl, rfl⟩) fun _ => ?_
      rw [hn]
      exact waitFtf_setUp 100000 (hdone.waitTransend (Keeps.pure _))
        (hmem.waitTransend (Keeps.pure _))
  | blockWrite =>
    have hsize : blocksize.toUInt32 = total := htotal rfl
    refine Triple.byMode (fun _ hw => hw.1) (fun hm => polled_setUp hm ?_) (fun _ => ?_)
      fun _ _ => hinvalid
    · exact (hsend _).bind fun _ => Keeps.ifOk (hstate.checkFaults _) hstate.finishWrite
    · refine Triple.bind (Keeps.triple (hstate.configure (s := .interruptEnable _) trivial))
        fun _ => Triple.bind (dmaConfig_programmed fun log => ⟨rfl, rfl⟩) fun _ => ?_
      rw [hsize]
      refine Triple.bind (Keeps.triple (hdone.configure (s := .dma true) trivial)) fun _ => ?_
      exact waitFtf_setUp 100000 (hdone.waitTransend hdone.finishWrite)
        (hmem.waitTransend hmem.finishWrite)
  | multiblocksWrite =>
    refine Triple.byMode (fun _ hw => hw.1) (fun hm => polled_setUp hm ?_) (fun _ => ?_)
      fun _ _ => hinvalid
    · refine (hsend _).bind fun _ => Keeps.ifOk (hstate.checkFaults _) ?_
      exact Keeps.ifOk hstate.stopPolled ((hstate.flagClear _).bind fun _ => hstate.finishWrite)
    · refine Triple.bind (Keeps.triple (hstate.configure (s := .interruptEnable _) trivial))
        fun _ => Triple.bind (Keeps.triple (hstate.configure (s := .dma true) trivial)) fun _ => ?_
      refine Triple.bind (readTotal fun _ hw => hw.2.1) fun drv => Triple.of_fact fun hn => ?_
      refine Triple.bind (dmaConfig_programmed fun log => ⟨rfl, rfl⟩) fun _ => ?_
      rw [hn]
      exact waitFtf_setUp 200000 (hdone.waitTransend hdone.finishWrite)
        (hmem.waitTransend hmem.finishWrite)

end Programmed

/-! ## A transfer that returned `SD_OK` -/

/-- The transfer mode and the card type are these. -/
def OfCard (m : UInt32) (cardtype : CardType) (w : World) : Prop :=
  (w.drv.transmode, w.drv.cardtype) = (m, cardtype)

/-- The driver has taken the response of the data command, which the card has accepted. -/
def Accepted (t : Transfer) (w : World) : Prop :=
  .accepted t.dataCommand ∈ w.log ∧ phase t w.log ≠ .before

/-- The value of `totalnumber_bytes`. -/
def Transfer.total (t : Transfer) (blocksize : UInt16) (blocksnumber : UInt32) : UInt32 :=
  if t.stop = 0 then blocksize.toUInt32 else blocksnumber * blocksize.toUInt32

section Run

variable {m total : UInt32} {cardtype : CardType} {t : Transfer}

theorem keepingTransfers_ofCard : KeepingTransfers (fun _ _ => True) (OfCard m cardtype) := by
  refine keepingTransfers_fixed (p := fun drv => (drv.transmode, drv.cardtype))
    (fun drv drv' h => ?_) (fun _ _ => rfl) fun _ _ => rfl
  rw [h]

theorem keepingTransfers_taken :
    KeepingTransfers (fun _ _ => True) fun w => phase t w.log ≠ .before :=
  keepingTransfers_log (L := fun log => phase t log ≠ .before) fun _ _ => phase_ne_before_cons

theorem keepingTransfers_accepted : KeepingTransfers (fun _ _ => True) (Accepted t) :=
  keepingTransfers_log
    (L := fun log => Event.accepted t.dataCommand ∈ log ∧ phase t log ≠ .before)
    fun _ _ h => ⟨List.mem_cons_of_mem _ h.1, phase_ne_before_cons h.2⟩

theorem phase_taken_ne_before (log : List Event) :
    phase t (.taken t.dataCommand :: log) ≠ .before := by
  by_cases hp : phase t log = .before
  · rw [phase_cons, hp, show Phase.before.next t (.taken t.dataCommand) = .running from if_pos rfl]
    decide
  · exact phase_ne_before_cons hp

/-- A data command whose response was good was accepted. -/
theorem KeepingPhase.commandR1_accepted {I : World → Prop}
    (h : KeepingPhase (fun _ _ => True) I) (argument : UInt32) :
    Triple I (Gd32Firmware.commandR1 access t.dataCommand argument)
      (fun status w => status = .ok → I w ∧ Accepted t w) fun _ => True := by
  refine (h.dataCommand (T := fun w => I w ∧ phase t w.log ≠ .before)
    (A := fun w => I w ∧ Accepted t w) (fun c w => h.cmd c w trivial)
    (h.access.and keepingTransfers_taken.access) (fun w hw => ?_) (fun w hw => ?_)
    argument).weaken (fun _ _ hw => hw.1) fun _ _ => trivial
  · exact ⟨h.taken _ argument _ trivial (h.clear _ w hw), phase_taken_ne_before _⟩
  · exact ⟨h.accepted _ argument w trivial hw.1, List.mem_cons_self, phase_ne_before_cons hw.2⟩

/-- What comes before and after the data command of a read, and after that of a write. -/
theorem prepare_programmed {R : SdError → World → Prop} {blocksize : UInt16} {toSdio : Bool}
    {rest : Program World SdError}
    (hrest : Triple (Programmed m total fun length _ => length = some total) rest R
      fun _ => True) :
    Triple (OfCard m cardtype) (do
      writeShared fun drv => { drv with stopcondition := t.stop }
      setDrv fun drv => { drv with totalnumberBytes := total }
      startData blocksize toSdio
      rest) R fun _ => True := by
  refine Triple.bind (Q := fun _ => OfCard m cardtype) ?_ fun _ => ?_
  · exact (Triple.writeShared keepingTransfers_ofCard.access fun _ hw => hw).forget
  refine Triple.bind (Q := fun _ => Programmed m total fun _ _ => True)
    (Triple.setDrv fun w hw => ⟨(Prod.mk.inj hw).1, rfl, trivial⟩) fun _ => ?_
  exact Triple.bind (startData_programmed blocksize toSdio) fun _ => hrest

/-- What a transfer that moves data has done when it returns. -/
def Moved (t : Transfer) (m total : UInt32) (pbuffer : Option ℕ) (status : SdError) (w : World) :
    Prop :=
  status = .ok → ∃ b, pbuffer = some b ∧ SetUp m total b .ok w ∧ Accepted t w

theorem data_moved {pbuffer : Option ℕ} {b : ℕ} (hb : pbuffer = some b) {blocksize : UInt16}
    (htotal : t.stop = 0 → blocksize.toUInt32 = total) :
    Triple (fun w => Programmed m total (fun length _ => length = some total) w ∧ Accepted t w)
      (t.data b blocksize) (Moved t m total pbuffer) fun _ => True :=
  ((data_programmed t b blocksize htotal).and
    (keepingTransfers_accepted.dataPhase t b blocksize).triple).weaken
    (fun _ _ hw hok => ⟨b, hb, hok ▸ hw.1, hw.2⟩) fun _ _ => trivial

theorem Moved.of_ne {pbuffer : Option ℕ} {status : SdError} (w : World) (hne : status ≠ .ok) :
    Moved t m total pbuffer status w :=
  fun hok => absurd hok hne

/-- What a transfer does before its data command : there is a buffer, and the block size is the
one of the card. -/
theorem transferSetup_moved {pbuffer : Option ℕ} {addr : UInt32} {blocksize : UInt16}
    {rest : ℕ → UInt32 → UInt16 → Program World SdError}
    (hrest : ∀ b addr', pbuffer = some b → Triple (OfCard m cardtype)
      (rest b addr' (effectiveBlocksize cardtype blocksize)) (Moved t m total pbuffer)
      fun _ => True) :
    Triple (OfCard m cardtype) (transferSetup pbuffer addr blocksize rest)
      (Moved t m total pbuffer) fun _ => True := by
  have hmode : KeepingTransfers (fun _ _ => True) (OfCard m cardtype) := keepingTransfers_ofCard
  refine hmode.transferSetup hmode.access (fun _ hw => hw) hmode.access
    (fun _ hw => hw) (fun w _ => Moved.of_ne w (by decide))
    (fun status w hne _ => Moved.of_ne w hne) (fun _ _ => trivial) ?_
  rintro b addr' blocksize' ⟨w, hw, hb, -, rfl⟩
  rw [(Prod.mk.inj hw).2]
  exact hrest b addr' hb

/-- The reads set the transfer up before the data command. -/
theorem read_moved {pbuffer : Option ℕ} {b : ℕ} (hb : pbuffer = some b) {blocksize : UInt16}
    {argument : UInt32} (htotal : t.stop = 0 → blocksize.toUInt32 = total) :
    Triple (OfCard m cardtype) (do
      writeShared fun drv => { drv with stopcondition := t.stop }
      setDrv fun drv => { drv with totalnumberBytes := total }
      startData blocksize true
      ifOk (commandR1 access t.dataCommand argument) (t.data b blocksize))
      (Moved t m total pbuffer) fun _ => True := by
  refine prepare_programmed ?_
  refine Triple.ifOk (keepingPhase_programmed.commandR1_accepted _) ?_
    fun status w hne _ => Moved.of_ne w hne
  exact (data_moved hb htotal).strengthen fun w hw => hw rfl

/-- The writes set the transfer up after the data command. -/
theorem write_moved {pbuffer : Option ℕ} {b : ℕ} (hb : pbuffer = some b) {blocksize : UInt16}
    {argument : UInt32} (htotal : t.stop = 0 → blocksize.toUInt32 = total) :
    Triple (OfCard m cardtype)
      (ifOk (commandR1 access t.dataCommand argument) do
        writeShared fun drv => { drv with stopcondition := t.stop }
        setDrv fun drv => { drv with totalnumberBytes := total }
        startData blocksize false
        t.data b blocksize) (Moved t m total pbuffer) fun _ => True := by
  refine Triple.ifOk (keepingTransfers_ofCard.commandR1_accepted _) ?_
    fun status w hne _ => Moved.of_ne w hne
  refine Triple.strengthen (P := fun w => OfCard m cardtype w ∧ Accepted t w) ?_
    fun w hw => hw rfl
  refine ((prepare_programmed (data_programmed t _ blocksize htotal)).and
    (Keeps.triple ?_)).weaken (fun _ _ hw hok => ⟨_, hb, hok ▸ hw.1, hw.2⟩) fun _ _ => trivial
  refine (keepingTransfers_accepted.writeStop _).bind fun _ => ?_
  refine (keepingTransfers_accepted.writeTotal _).bind fun _ => ?_
  exact (keepingTransfers_accepted.startData _ _).bind fun _ =>
    keepingTransfers_accepted.dataPhase t _ blocksize

/-- A transfer that returned `SD_OK` was set up for its block size and number of blocks. -/
theorem run_moved (t : Transfer) (pbuffer : Option ℕ) (addr : UInt32) (blocksize : UInt16)
    (blocksnumber : UInt32) (hcount : t.stop ≠ 0 → 1 < blocksnumber) :
    Triple (OfCard m cardtype) (t.run pbuffer addr blocksize blocksnumber)
      (Moved t m (t.total (effectiveBlocksize cardtype blocksize) blocksnumber) pbuffer)
      fun _ => True := by
  have hmode : KeepingTransfers (fun _ _ => True) (OfCard m cardtype) := keepingTransfers_ofCard
  cases t with
  | blockRead =>
    rw [Transfer.run, sdBlockRead]
    exact transferSetup_moved fun b addr' hb =>
      read_moved (t := .blockRead) hb fun _ => rfl
  | multiblocksRead =>
    rw [Transfer.run, sdMultiblocksRead]
    refine transferSetup_moved fun b addr' hb => Triple.ite (fun _ => ?_) fun hle => ?_
    · exact Triple.ite (fun _ => Triple.pure _ fun w _ => Moved.of_ne w (by decide)) fun _ =>
        read_moved (t := .multiblocksRead) hb fun h => absurd h (by decide)
    · exact absurd (hcount (by decide)) hle
  | blockWrite =>
    rw [Transfer.run, sdBlockWrite]
    refine transferSetup_moved fun b addr' hb => Triple.bind Keeps.getDrv.triple fun drv => ?_
    refine Triple.ifOk (hmode.plainCommand (by decide)).triple ?_
      fun status w hne _ => Moved.of_ne w hne
    refine Triple.ifOk hmode.waitReady.triple ?_ fun status w hne _ => Moved.of_ne w hne
    exact write_moved (t := .blockWrite) hb fun _ => rfl
  | multiblocksWrite =>
    rw [Transfer.run, sdMultiblocksWrite]
    refine transferSetup_moved fun b addr' hb => Triple.bind Keeps.getDrv.triple fun drv => ?_
    refine Triple.ifOk (hmode.plainCommand (by decide)).triple ?_
      fun status w hne _ => Moved.of_ne w hne
    refine Triple.ite (fun _ => ?_) fun hle => absurd (hcount (by decide)) hle
    refine Triple.ite (fun _ => Triple.pure _ fun w _ => Moved.of_ne w (by decide)) fun _ => ?_
    refine Triple.ifOk (hmode.announceBlocks _).triple ?_ fun status w hne _ => Moved.of_ne w hne
    exact write_moved (t := .multiblocksWrite) hb fun h => absurd h (by decide)

end Run

/-! ## Cards of standard capacity -/

/-- The bytes of a card, from the fields of a CSD of version 1.0. -/
def SdCsdStruct.capacity (csd : SdCsdStruct) : ℕ :=
  (csd.cSize.toNat + 1) * 2 ^ (csd.cSizeMult.toNat + 2) * 2 ^ csd.readBlLen.toNat

/-- A card with a CSD of version 1.0, decoded by `sd_card_information_get`. -/
structure StandardCapacity (drv : Driver) : Prop where
  cardtype : drv.cardtype = .stdCapacitySdCardV11 ∨ drv.cardtype = .stdCapacitySdCardV20
  decoded : ∃ before, sdCardInformationGet drv (some before) = (.ok, some drv.sdCardinfo)

namespace StandardCapacity

variable {drv : Driver}

theorem ne_highCapacity (h : StandardCapacity drv) : drv.cardtype ≠ .highCapacitySdCard := by
  rcases h.cardtype with hc | hc <;> simp [hc]

theorem fields (h : StandardCapacity drv) :
    drv.sdCardinfo.cardCsd.readBlLen.toNat < 16 ∧ drv.sdCardinfo.cardCsd.cSize.toNat < 2 ^ 12 ∧
      drv.sdCardinfo.cardCsd.cSizeMult.toNat < 2 ^ 3 ∧
      drv.sdCardinfo.cardBlocksize = 1 <<< drv.sdCardinfo.cardCsd.readBlLen.toUInt32 := by
  obtain ⟨before, hdecoded⟩ := h.decoded
  simp only [sdCardInformationGet, h.cardtype, if_true, Prod.mk.injEq, Option.some.injEq]
    at hdecoded
  have hslices := csdDecodeV1_slices drv.sdCsd before.cardCsd
  rw [← hdecoded.2]
  refine ⟨?_, ?_, ?_, rfl⟩
  · exact hslices.readBlLen ▸ bits_lt _ 83 80
  · exact hslices.cSize ▸ bits_lt _ 73 62
  · exact hslices.cSizeMult ▸ bits_lt _ 49 47

theorem toNat_blocksize (h : StandardCapacity drv) :
    drv.sdCardinfo.cardBlocksize.toNat = 2 ^ drv.sdCardinfo.cardCsd.readBlLen.toNat := by
  obtain ⟨hlen, -, -, hsize⟩ := h.fields
  rw [hsize]
  exact toNat_one_shiftLeft (UInt8.toNat_toUInt32 _) (by omega)

/-- The total of a transfer of so many blocks. -/
theorem toNat_total (h : StandardCapacity drv) {t : Transfer} {count : UInt32}
    (hone : t.stop = 0 → count = 1) :
    (t.total drv.sdCardinfo.cardBlocksize.toUInt16 count).toNat =
      count.toNat * 2 ^ drv.sdCardinfo.cardCsd.readBlLen.toNat % 2 ^ 32 := by
  have hsize : drv.sdCardinfo.cardBlocksize.toUInt16.toUInt32.toNat =
      2 ^ drv.sdCardinfo.cardCsd.readBlLen.toNat := by
    have hlt : 2 ^ drv.sdCardinfo.cardCsd.readBlLen.toNat < 2 ^ 16 :=
      Nat.pow_lt_pow_right (by decide) h.fields.1
    rw [UInt16.toNat_toUInt32, UInt32.toNat_toUInt16, h.toNat_blocksize, Nat.mod_eq_of_lt hlt]
  rw [← hsize, Transfer.total]
  split_ifs with hstop
  · rw [hone hstop, UInt32.toNat_one, Nat.one_mul, Nat.mod_eq_of_lt (UInt32.toNat_lt _)]
  · rw [UInt32.toNat_mul]

/-- A card with blocks of 512 bytes has at most 1 GB. -/
theorem capacity_le (h : StandardCapacity drv)
    (hlen : drv.sdCardinfo.cardCsd.readBlLen.toNat = 9) :
    drv.sdCardinfo.cardCsd.capacity ≤ 2 ^ 30 := by
  obtain ⟨-, hsize, hmult, -⟩ := h.fields
  have hpow : 2 ^ (drv.sdCardinfo.cardCsd.cSizeMult.toNat + 2) ≤ 2 ^ 9 :=
    Nat.pow_le_pow_right (by decide) (by omega)
  calc drv.sdCardinfo.cardCsd.capacity
    _ ≤ 2 ^ 12 * 2 ^ 9 * 2 ^ 9 := by
      rw [SdCsdStruct.capacity, hlen]
      gcongr
      omega
    _ = 2 ^ 30 := by norm_num

end StandardCapacity

/-- Blocks of `2 ^ n` bytes are as many bytes as the same number of sectors, in 32 bits, only
if they have 512 bytes. -/
theorem eq_nine_of_blocks_eq_sectors {count n : ℕ} (hcount : 1 ≤ count)
    (h : count * 2 ^ n % 2 ^ 32 = 512 * count) : n = 9 := by
  have hlt : count < 2 ^ 23 := by omega
  rcases Nat.lt_trichotomy n 9 with hn | hn | hn
  · have hpow : 2 ^ n ≤ 2 ^ 8 := Nat.pow_le_pow_right (by decide) (by omega)
    have hle : count * 2 ^ n ≤ count * 2 ^ 8 := Nat.mul_le_mul_left count hpow
    omega
  · exact hn
  · -- 512 divides out, and the odd factor that remains does not matter
    obtain ⟨k, rfl⟩ : ∃ k, n = 9 + (k + 1) := ⟨n - 10, by omega⟩
    have hsplit : count * 2 ^ (9 + (k + 1)) % 2 ^ 32 = 512 * (count * 2 ^ (k + 1) % 2 ^ 23) := by
      rw [← Nat.mul_mod_mul_left]
      congr 1
      ring
    have hmod : count ≡ count * 2 ^ (k + 1) [MOD 2 ^ 23] := by
      unfold Nat.ModEq
      omega
    have hdvd : 2 ^ 23 ∣ count * (2 ^ (k + 1) - 1) := by
      have hsub := (Nat.modEq_iff_dvd' (Nat.le_mul_of_pos_right _ (by positivity))).mp hmod
      rwa [Nat.mul_sub_one]
    have hodd : Odd (2 ^ (k + 1) - 1) :=
      Nat.Even.sub_odd Nat.one_le_two_pow (even_two.pow_of_ne_zero (by omega)) odd_one
    have hcoprime : Nat.Coprime (2 ^ 23) (2 ^ (k + 1) - 1) :=
      Nat.Coprime.pow_left 23 (Nat.coprime_two_left.mpr hodd)
    have hle := Nat.le_of_dvd hcount (hcoprime.dvd_of_dvd_mul_right hdvd)
    omega

end Gd32Firmware
