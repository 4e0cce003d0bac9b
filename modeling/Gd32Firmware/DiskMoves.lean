import Gd32Firmware.SdAddress
import Gd32Firmware.SdPolledRead

/-!
# The bytes that a disk function moves

FatFs counts in sectors of 512 bytes. `disk_read` and `disk_write` take the unit of the address
and of the length from `card_blocksize`. The card sends or takes the bytes from the address of
the data command on, as many as the data state machine was set up for. In DMA mode the channel
moves them, and in polling mode the driver does, word by word (`Moves`).

When a disk function returns `RES_OK` the sectors that it was asked for have been moved exactly
if the card has blocks of 512 bytes and the data phase is over without an error
(`disk_moves_iff`), which it is unless something went wrong at a step of the run (`StepsOk`).
-/

namespace Gd32Firmware

open Program

/-! ## What has been moved -/

/-- So many words went from the FIFO to the buffer at `b`, or from there to the FIFO. -/
def MovesWords (t : Transfer) (b n : ℕ) (w w' : World) : Prop :=
  if t.isRead then HoldsReceived w w' b n else pushes w'.log = bufferWords w.ram b n

/-- So many bytes went from the card at this address to a buffer, or from there to the card. The
data command of the transfer was accepted, and no other went out, nor to another address. The
data state machine was set up for the length, and the data phase is over without an error. In
polling mode the words of the FIFO are those of the buffer. In DMA mode the channel was set up
for the buffer and the length, and has come to its end. -/
structure Moves (t : Transfer) (buff : Option ℕ) (address length : ℕ) (w w' : World) : Prop where
  accepted : Accepted t w'
  command : ∀ c, .cmd c ∈ w'.log → c.index ∈ dataCommands →
    c.index = t.dataCommand ∧ c.argument.toNat = address
  dataLength : (dataLength w'.log).map UInt32.toNat = some length
  ended : dataPhase t w'.log = .done
  polled : w.drv.transmode = sdPollingMode →
    ∃ b, buff = some b ∧ MovesWords t b (length / 4) w w'
  dma : w.drv.transmode = sdDmaMode →
    (dmaRegion w'.log).map (fun r => (some r.1, r.2.toNat)) = some (buff, length) ∧
      .ftfSeen ∈ w'.log

/-! ## The FIFO -/

/-- What the hardware promises of a sample in a write of `n` words : the data phase does not end
well before all of them are in the FIFO. -/
def Event.DepartsOk (t : Transfer) (n : ℕ) (log : List Event) : Event → Prop
  | .sample s => dataPhase t (.sample s :: log) = .done → n ≤ (pushes log).length
  | _ => True

instance (t : Transfer) (n : ℕ) (log : List Event) (e : Event) :
    Decidable (e.DepartsOk t n log) :=
  decidable_of_iff (∀ s ∈ e.asSample,
      dataPhase t (.sample s :: log) = .done → n ≤ (pushes log).length)
    (Event.forall_asSample (P := Event.DepartsOk t n log) fun e he => by
      cases e <;> trivial)

/-- The words left as the hardware promises. -/
def DepartsOk (t : Transfer) (n : ℕ) : List Event → Prop :=
  AllOk fun log e => e.DepartsOk t n log

instance (t : Transfer) (n : ℕ) (log : List Event) : Decidable (DepartsOk t n log) :=
  inferInstanceAs (Decidable (AllOk _ log))

/-- What the hardware promises of the FIFO in a polled transfer of `totalnumber_bytes`. -/
def FifoServes (t : Transfer) (w w' : World) : Prop :=
  if t.isRead then
    ArrivesOk (dataPhase t) w.sdio.fifo (w'.drv.totalnumberBytes.toNat / 4) w'.log
  else DepartsOk t (w'.drv.totalnumberBytes.toNat / 4) w'.log

instance (t : Transfer) (w w' : World) : Decidable (FifoServes t w w') := by
  delta FifoServes
  infer_instance

theorem length_pushes_le (e : Event) (log : List Event) :
    (pushes log).length ≤ (pushes (e :: log)).length := by
  cases e with
  | push word =>
    rw [pushes_push, List.length_append]
    exact Nat.le_add_right _ _
  | _ => exact le_rfl

/-- When the data phase is over all words have been pushed. -/
theorem DepartsOk.le {t : Transfer} {n : ℕ} : ∀ {log}, DepartsOk t n log →
    dataPhase t log = .done → n ≤ (pushes log).length
  | [], _, hdone => Phase.noConfusion hdone
  | e :: log, ⟨he, hlog⟩, hdone => by
    refine le_trans ?_ (length_pushes_le e log)
    rcases (watches_dataPhase t).ends e log hdone with hlast | ⟨s, rfl⟩
    · exact DepartsOk.le hlog hlast
    · exact he hdone

/-- A polled write that returned has pushed the words of its buffer, when its data phase is over
and no word has to be cut. -/
theorem write_pushes {t : Transfer} (hwrite : t.isRead = false) {w w' : World} (hlog : w.log = [])
    (hmode : w.drv.transmode = sdPollingMode) {b : ℕ} {addr : UInt32} {blocksize : UInt16}
    {blocksnumber : UInt32} {status : SdError} {n : ℕ}
    (hrun : exec (t.run (some b) addr blocksize blocksnumber) w = (some status, w'))
    (htotal : (t.total (effectiveBlocksize w.drv.cardtype blocksize) blocksnumber).toNat = 4 * n)
    (hdeparts : DepartsOk t n w'.log) (hdone : dataPhase t w'.log = .done) :
    pushes w'.log = bufferWords w.ram b n := by
  have hwords :
      wordsOf (t.total (effectiveBlocksize w.drv.cardtype blocksize) blocksnumber) = n := by
    rw [wordsOf, htotal]
    omega
  have hle := hdeparts.le hdone
  have hsends := exec_sends hwrite blocksize blocksnumber w b addr hlog hmode rfl
  rw [hrun] at hsends
  rcases hsends with ⟨hnone, -⟩ | ⟨-, hsent⟩
  · -- nothing was to be sent
    rw [hnone] at hle ⊢
    rw [Nat.le_zero.mp hle]
    rfl
  · have hprefix := hsent.inOrder (by omega)
    rw [hwords] at hprefix
    exact hprefix.eq_of_length_le (by rwa [length_bufferWords])

/-! ## A transfer of sectors -/

section Sectors

variable {t : Transfer} {w w' : World} {buff : Option ℕ} {sector count : UInt32}

/-- The words of a polled transfer of blocks of 512 bytes. -/
theorem run_movesWords (hlog : w.log = []) (hmode : w.drv.transmode = sdPollingMode) {b : ℕ}
    {addr : UInt32} {blocksize : UInt16} (hseveral : t.stop ≠ 0 → 1 < count) {n : ℕ}
    (hrun : exec (t.run (some b) addr blocksize count) w = (some .ok, w'))
    (htotal : (t.total (effectiveBlocksize w.drv.cardtype blocksize) count).toNat = 4 * n)
    (hnumber : w'.drv.totalnumberBytes.toNat = 4 * n) (hfifo : FifoServes t w w')
    (hdone : dataPhase t w'.log = .done) : MovesWords t b n w w' := by
  have hwords : w'.drv.totalnumberBytes.toNat / 4 = n := by omega
  unfold FifoServes at hfifo
  unfold MovesWords
  rw [hwords] at hfifo
  by_cases hread : t.isRead
  · rw [if_pos hread] at hfifo ⊢
    refine read_holdsReceived (watches_dataPhase t) hread hlog hmode ?_ hrun hfifo ?_
    · rintro rfl
      exact hseveral (by decide)
    · rw [hdone]
      decide
  · rw [if_neg hread] at hfifo ⊢
    exact write_pushes (Bool.not_eq_true _ ▸ hread) hlog hmode hrun htotal hfifo hdone

/-- A transfer of sectors that returned `SD_OK` moved the sectors exactly if the card has blocks
of 512 bytes and the data phase is over. -/
theorem run_moves_iff (t : Transfer) (hlog : w.log = []) (hcard : StandardCapacity w.drv)
    (hcount : 1 ≤ count.toNat)
    (hinside : 512 * (sector.toNat + count.toNat) ≤ w.drv.sdCardinfo.cardCsd.capacity)
    (hone : t.stop = 0 → count = 1) (hseveral : t.stop ≠ 0 → 1 < count)
    (hrun : exec (t.run buff (sectorAddress w.drv sector)
      w.drv.sdCardinfo.cardBlocksize.toUInt16 count) w = (some .ok, w'))
    (hfifo : w.drv.transmode = sdPollingMode → FifoServes t w w') :
    Moves t buff (512 * sector.toNat) (512 * count.toNat) w w' ↔
      w.drv.sdCardinfo.cardCsd.readBlLen.toNat = 9 ∧ dataPhase t w'.log = .done := by
  obtain ⟨b, rfl, hsetup, haccepted⟩ := (run_moved t buff _ _ _ hseveral).of_eq_some
    (P := OfCard w.drv.transmode w.drv.cardtype) rfl hrun rfl
  have heffective : effectiveBlocksize w.drv.cardtype w.drv.sdCardinfo.cardBlocksize.toUInt16 =
      w.drv.sdCardinfo.cardBlocksize.toUInt16 := if_neg hcard.ne_highCapacity
  rw [heffective] at hsetup
  have honly : OnlyCommand w.drv.cardtype
      (fun index argument => index = t.dataCommand ∧ argument = sectorAddress w.drv sector) w' :=
    (run_onlyCommand t hcard.ne_highCapacity ⟨rfl, rfl⟩ _ _ _).of_eq_some
      ⟨rfl, fun c hc => by simp [hlog] at hc⟩ hrun
  obtain ⟨⟨-, hnumber, hlength, hregion⟩, hended⟩ := hsetup rfl
  have htotal := hcard.toNat_total hone
  constructor
  · intro hmoves
    refine ⟨eq_nine_of_blocks_eq_sectors hcount ?_, hmoves.ended⟩
    rw [← htotal]
    simpa [hlength] using hmoves.dataLength
  · rintro ⟨hlen, hdone⟩
    have hcapacity := hcard.capacity_le hlen
    have hbytes : (t.total w.drv.sdCardinfo.cardBlocksize.toUInt16 count).toNat =
        512 * count.toNat := by
      rw [htotal, hlen]
      omega
    have haddress : (sectorAddress w.drv sector).toNat = 512 * sector.toNat := by
      rw [sectorAddress, UInt32.toNat_mul, hcard.toNat_blocksize, hlen]
      omega
    have hfour : 512 * count.toNat = 4 * (512 * count.toNat / 4) := by omega
    exact
      { accepted := haccepted
        command := fun c hc hdata => by
          obtain ⟨hindex, hargument⟩ := honly.2 c hc hdata
          exact ⟨hindex, hargument ▸ haddress⟩
        dataLength := by rw [hlength, Option.map_some, hbytes]
        ended := hdone
        polled := fun hmode => ⟨b, rfl, run_movesWords hlog hmode hseveral hrun
          (by rw [heffective, hbytes, ← hfour]) (by rw [hnumber, hbytes, ← hfour]) (hfifo hmode)
          hdone⟩
        dma := fun hmode => by
          rw [hregion hmode, Option.map_some, hbytes]
          exact ⟨rfl, hended hmode⟩ }

end Sectors

/-! ## The disk functions -/

theorem diskResult_eq_resOk {status : SdError} : diskResult status = .resOk ↔ status = .ok := by
  simp [diskResult]

/-- The transfers that a request for so many sectors becomes. -/
def readTransfer (count : UInt32) : Transfer :=
  if 1 < count then .multiblocksRead else .blockRead

def writeTransfer (count : UInt32) : Transfer :=
  if 1 < count then .multiblocksWrite else .blockWrite

theorem diskReadSd_eq (buff : Option ℕ) (sector count : UInt32) :
    diskReadSd buff sector count = (do
      let drv ← getDrv
      (readTransfer count).run buff (sectorAddress drv sector)
        drv.sdCardinfo.cardBlocksize.toUInt16 count) := by
  unfold diskReadSd readTransfer
  split_ifs <;> rfl

theorem diskWriteSd_eq (buff : Option ℕ) (sector count : UInt32) :
    diskWriteSd buff sector count = (do
      let drv ← getDrv
      (writeTransfer count).run buff (sectorAddress drv sector)
        drv.sdCardinfo.cardBlocksize.toUInt16 count) := by
  unfold diskWriteSd writeTransfer
  split_ifs <;> rfl

/-- A transfer of one block or of several, by the number of sectors. -/
structure ForCount (t : Transfer) (count : UInt32) : Prop where
  one : t.stop = 0 → ¬ 1 < count
  several : t.stop ≠ 0 → 1 < count

theorem readTransfer_forCount (count : UInt32) : ForCount (readTransfer count) count := by
  unfold readTransfer
  split_ifs with h
  · exact ⟨fun hstop => absurd hstop (by decide), fun _ => h⟩
  · exact ⟨fun _ => h, fun hstop => absurd rfl hstop⟩

theorem writeTransfer_forCount (count : UInt32) : ForCount (writeTransfer count) count := by
  unfold writeTransfer
  split_ifs with h
  · exact ⟨fun hstop => absurd hstop (by decide), fun _ => h⟩
  · exact ⟨fun _ => h, fun hstop => absurd rfl hstop⟩

/-- What is said of a disk function that returned `RES_OK` : it moved the sectors exactly if the
card has blocks of 512 bytes and the data phase is over, for which it is enough that nothing went
wrong at a step. -/
theorem disk_moved_iff {t : Transfer} {count : UInt32} (ht : ForCount t count) {w w' : World}
    (hlog : w.log = []) (hcard : StandardCapacity w.drv) {buff : Option ℕ} {sector : UInt32}
    (hcount : 1 ≤ count.toNat)
    (hinside : 512 * (sector.toNat + count.toNat) ≤ w.drv.sdCardinfo.cardCsd.capacity)
    (hrun : exec (do
      let drv ← getDrv
      t.run buff (sectorAddress drv sector) drv.sdCardinfo.cardBlocksize.toUInt16 count) w =
        (some .ok, w'))
    (hfifo : w.drv.transmode = sdPollingMode → FifoServes t w w') :
    (Moves t buff (512 * sector.toNat) (512 * count.toNat) w w' ↔
        w.drv.sdCardinfo.cardCsd.readBlLen = 9 ∧ dataPhase t w'.log = .done) ∧
      (StepsOk t w.drv.transmode w'.log →
        (Moves t buff (512 * sector.toNat) (512 * count.toNat) w w' ↔
          w.drv.sdCardinfo.cardCsd.readBlLen = 9)) := by
  have hdrv : exec getDrv w = (some w.drv, w) := rfl
  rw [exec_bind_of_eq hdrv] at hrun
  have hone : t.stop = 0 → count = 1 := fun hstop => by
    have hle : ¬ 1 < count.toNat := fun h => ht.one hstop (UInt32.lt_iff_toNat_lt.mpr h)
    exact UInt32.toNat_inj.mp (le_antisymm (not_lt.mp hle) hcount)
  have hnine : w.drv.sdCardinfo.cardCsd.readBlLen.toNat = 9 ↔
      w.drv.sdCardinfo.cardCsd.readBlLen = 9 := by
    rw [← UInt8.toNat_inj]
    rfl
  have hiff := run_moves_iff t hlog hcard hcount hinside hone ht.several hrun hfifo
  rw [hnine] at hiff
  refine ⟨hiff, fun hsteps => hiff.trans (and_iff_left ?_)⟩
  obtain ⟨b, -, -, haccepted⟩ := (run_moved t buff _ _ _ ht.several).of_eq_some
    (P := OfCard w.drv.transmode w.drv.cardtype) rfl hrun rfl
  exact (run_reports t hlog hrun).dataPhase_done rfl hsteps (Or.inr haccepted.2)

/-- A card of standard capacity after its bring-up, with the largest size fields. -/
def standardDriver (transmode readBlLen : UInt32) : Driver :=
  let drv := { Driver.initial with
    transmode := transmode
    sdCsd := ![0, readBlLen <<< 16 ||| 0x3FF, 0xC0038000, 0] }
  { drv with
    sdCardinfo := ((sdCardInformationGet drv (some drv.sdCardinfo)).2).getD drv.sdCardinfo }

theorem standardDriver_standardCapacity (transmode readBlLen : UInt32) :
    StandardCapacity (standardDriver transmode readBlLen) :=
  ⟨Or.inl rfl, Driver.initial.sdCardinfo, rfl⟩

/-- The samples of a single read that succeeds, in DMA mode, -/
def readByDma : List Sample :=
  upToReadBlock ++ [answer 17 0x900] ++ quiet 6 ++ [{ flags := [.dtblkend, .dtend], ftf := true }]

/-- and in polling mode. -/
def readByPolling : List Sample :=
  upToReadBlock ++ [answer 17 0x900] ++ quiet 4 ++
    [{ flags := [.rxdtval, .dtblkend, .dtend], words := (List.range 128).map UInt32.ofNat }] ++
    List.replicate 261 rxdtvalSet ++ quiet 2

end Gd32Firmware
