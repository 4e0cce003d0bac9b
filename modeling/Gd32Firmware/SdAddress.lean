import Gd32Firmware.DiskIo
import Gd32Firmware.SdTransferRules

/-!
# The sector that a data command addresses

`disk_read` and `disk_write` multiply the sector by the block size, and the driver divides by
512 again for a high-capacity card. The product is taken in 32 bits, so that the data command
carries the sector modulo `2 ^ 23`. The assertion `OnlyAddress` says which argument the data
commands in the log carry. It survives everything that the transfers do.
-/

namespace Gd32Firmware

open Program

/-- The commands that start a transfer of data. -/
def dataCommands : List UInt8 := [17, 18, 24, 25]

theorem not_mem_dataCommands : ∀ index ∈ plainCommands, index ∉ dataCommands := by
  simp [plainCommands, dataCommands]

/-- An SDHC card, as the driver and `sd_cardinfo` have it. -/
structure HighCapacity (drv : Driver) : Prop where
  cardtype : drv.cardtype = .highCapacitySdCard
  cardType : drv.sdCardinfo.cardType = .highCapacitySdCard
  cardBlocksize : drv.sdCardinfo.cardBlocksize = 512

/-- The card is of this type, and all data commands so far are in `C`. -/
def OnlyCommand (cardtype : CardType) (C : UInt8 → UInt32 → Prop) (w : World) : Prop :=
  w.drv.cardtype = cardtype ∧
    ∀ c, .cmd c ∈ w.log → c.index ∈ dataCommands → C c.index c.argument

/-- The card is a high-capacity card, and all data commands so far carry an argument. -/
def OnlyAddress (argument : UInt32) (w : World) : Prop :=
  w.drv.cardtype = .highCapacitySdCard ∧
    ∀ c, .cmd c ∈ w.log → c.index ∈ dataCommands → c.argument = argument

section OnlyCommand

variable {cardtype : CardType} {C : UInt8 → UInt32 → Prop} {w : World} {e : Event}

theorem OnlyCommand.note (h : OnlyCommand cardtype C w)
    (he : ∀ c, e = .cmd c → c.index ∈ dataCommands → C c.index c.argument) :
    OnlyCommand cardtype C (w.note e) := by
  refine ⟨h.1, fun c hc => ?_⟩
  rcases List.mem_cons.mp hc with hc | hc
  · exact he c hc.symm
  · exact h.2 c hc

theorem handlerKeeps_onlyCommand : HandlerKeeps (OnlyCommand cardtype C) where
  observe _ _ _ h := ⟨h.1, fun c hc => h.2 c (by simpa using hc)⟩
  clear _ _ h := h
  stop _ h := h
  event e w he h := by
    refine h.note ?_
    rintro c rfl hc
    obtain rfl : c = stopCommand := he
    simp [stopCommand, dataCommands] at hc
  drv f w hf h := by
    refine ⟨?_, h.2⟩
    have hwrote := hf w.drv
    rw [World.setDrv_drv, hwrote]
    exact h.1

theorem keepingTransfers_onlyCommand :
    KeepingTransfers (fun index argument => index ∈ dataCommands → C index argument)
      (OnlyCommand cardtype C) where
  access := handlerKeeps_onlyCommand.access
  data e w he h := h.note (by rintro c rfl; exact he.elim)
  sdio _ _ _ h := h
  store _ _ _ h := h
  setUp _ _ h := h.note nofun
  total _ _ h := h
  clear _ _ h := h
  plain index _ hindex hdata := absurd hdata (not_mem_dataCommands index hindex)
  cmd c w hc h := h.note (by rintro _ ⟨⟩; exact hc)
  taken index _ w hc h := h.note nofun
  accepted index _ w hc h := h.note nofun
  transerror _ h := h
  transend _ h := h
  stopcondition _ _ h := h
  ftfSeen _ h := h.note nofun
  dmaTimeout _ h := h.note nofun

/-- A transfer to a standard-capacity card carries the address as it is. -/
theorem run_onlyCommand (t : Transfer) (hcard : cardtype ≠ .highCapacitySdCard) {addr : UInt32}
    (hC : C t.dataCommand addr) (pbuffer : Option ℕ) (blocksize : UInt16)
    (blocksnumber : UInt32) :
    Keeps (OnlyCommand cardtype C) (t.run pbuffer addr blocksize blocksnumber) := by
  refine keepingTransfers_onlyCommand.run t (fun w hw _ => ?_) pbuffer blocksize blocksnumber
  rw [if_neg (hw.1.symm ▸ hcard)]
  exact hC

end OnlyCommand

/-- The data command of a transfer carries the address in units of 512 bytes. -/
theorem run_onlyAddress (t : Transfer) (pbuffer : Option ℕ) (addr : UInt32)
    (blocksize : UInt16) (blocksnumber : UInt32) :
    Keeps (OnlyAddress (addr / 512)) (t.run pbuffer addr blocksize blocksnumber) := by
  have hkeep : KeepingTransfers (fun index argument => index ∈ dataCommands → argument = addr / 512)
      (OnlyAddress (addr / 512)) := keepingTransfers_onlyCommand
  refine hkeep.run t (fun w hw => ?_) pbuffer blocksize blocksnumber
  intro _
  simp [hw.1]

/-- A disk function is one of two transfers, at the address of the sector. -/
theorem disk_onlyAddress (several one : Transfer) (buff : Option ℕ) (sector count : UInt32)
    (drv : Driver) :
    Triple (fun w => OnlyAddress (sectorAddress drv sector / 512) w ∧ w.drv = drv)
      (do
        let drv ← getDrv
        if 1 < count then
          several.run buff (sectorAddress drv sector) drv.sdCardinfo.cardBlocksize.toUInt16 count
        else one.run buff (sectorAddress drv sector) drv.sdCardinfo.cardBlocksize.toUInt16 count)
      (fun _ => OnlyAddress (sectorAddress drv sector / 512))
      (OnlyAddress (sectorAddress drv sector / 512)) := by
  refine Triple.bind (Q := fun drv' w => OnlyAddress (sectorAddress drv sector / 512) w ∧
    drv' = drv) (Triple.getDrv fun _ hw => hw) fun drv' => ?_
  rintro w ⟨hw, rfl⟩
  exact Keeps.ite (run_onlyAddress _ _ _ _ _) (run_onlyAddress _ _ _ _ _) w hw

/-- Multiplying and dividing by 512 in 32 bits loses the upper nine bits. -/
theorem mul_div_512_eq_iff (sector : UInt32) :
    sector * 512 / 512 = sector ↔ sector.toNat < 2 ^ 23 := by
  have hlt := sector.toNat_lt
  rw [← UInt32.toNat_inj, UInt32.toNat_div, UInt32.toNat_mul]
  show sector.toNat * 512 % 2 ^ 32 / 512 = sector.toNat ↔ _
  omega

/-- Whatever the outcome of a program that kept `OnlyAddress`, the commands in its log carry
the argument. -/
theorem argument_of_outcome {α : Type} {argument : UInt32} {o : Option α × World}
    (h : Outcome (fun _ => OnlyAddress argument) (OnlyAddress argument) o) {c : Command}
    (hc : .cmd c ∈ o.2.log) (hdata : c.index ∈ dataCommands) : c.argument = argument := by
  rcases o with ⟨_ | a, w⟩
  · exact h.2 c hc hdata
  · exact h.2 c hc hdata

/-- The data command of `disk_read` and of `disk_write` carries the sector exactly if the
sector is below `2 ^ 23`. -/
theorem disk_argument_eq_sector_iff (w : World) (hlog : w.log = []) (hcard : HighCapacity w.drv)
    (buff : Option ℕ) (sector count : UInt32) (c : Command) (hdata : c.index ∈ dataCommands) :
    (.cmd c ∈ (exec (diskRead 0 buff sector count) w).2.log →
      (c.argument = sector ↔ sector.toNat < 2 ^ 23)) ∧
    (.cmd c ∈ (exec (diskWrite 0 buff sector count) w).2.log →
      (c.argument = sector ↔ sector.toNat < 2 ^ 23)) := by
  have hstart : OnlyAddress (sectorAddress w.drv sector / 512) w :=
    ⟨hcard.cardtype, fun c hc => by simp [hlog] at hc⟩
  have haddr : sectorAddress w.drv sector / 512 = sector * 512 / 512 := by
    rw [sectorAddress, hcard.cardBlocksize]
  rw [← mul_div_512_eq_iff, ← haddr]
  have hread : Outcome (fun _ => OnlyAddress (sectorAddress w.drv sector / 512))
      (OnlyAddress (sectorAddress w.drv sector / 512)) (exec (diskRead 0 buff sector count) w) :=
    Triple.bind (disk_onlyAddress .multiblocksRead .blockRead buff sector count w.drv)
      (fun _ => Keeps.pure _) w ⟨hstart, rfl⟩
  have hwrite : Outcome (fun _ => OnlyAddress (sectorAddress w.drv sector / 512))
      (OnlyAddress (sectorAddress w.drv sector / 512)) (exec (diskWrite 0 buff sector count) w) :=
    Triple.bind (disk_onlyAddress .multiblocksWrite .blockWrite buff sector count w.drv)
      (fun _ => Keeps.pure _) w ⟨hstart, rfl⟩
  constructor
  · intro hc
    rw [argument_of_outcome hread hc hdata]
  · intro hc
    rw [argument_of_outcome hwrite hc hdata]

/-- A high-capacity card of 8 GB, as the bring-up leaves it in the variables. -/
def highCapacityDriver : Driver :=
  { Driver.initial with
    cardtype := .highCapacitySdCard
    sdCardinfo := { Driver.initial.sdCardinfo with
      cardType := .highCapacitySdCard
      cardBlocksize := 512
      cardCsd := { Driver.initial.sdCardinfo.cardCsd with cSize := 16383 } } }

/-- The samples of a single read up to its data command. -/
def upToReadBlock : List Sample :=
  quiet 10 ++ [answer 16 0x900] ++ quiet 10

/-- Sector 5 is read at address 5. -/
theorem disk_argument_eq_sector_iff_five :
    (.cmd ⟨17, 5, .short⟩ ∈
        (exec (diskRead 0 (some 0) 5 1) (World.start highCapacityDriver upToReadBlock)).2.log) ∧
      ((5 : UInt32) = 5 ↔ (5 : UInt32).toNat < 2 ^ 23) := by
  have hissued : .cmd ⟨17, 5, .short⟩ ∈
      (exec (diskRead 0 (some 0) 5 1) (World.start highCapacityDriver upToReadBlock)).2.log :=
    mem_commands.mp (by decide)
  exact ⟨hissued, (disk_argument_eq_sector_iff _ rfl ⟨rfl, rfl, rfl⟩ (some 0) 5 1
    ⟨17, 5, .short⟩ (by decide)).1 hissued⟩

/-- Sector `2 ^ 23`, which the card has, is read at address 0. -/
theorem diskRead_aliases :
    (0x800000 : UInt32).toNat + 1 ≤
        (highCapacityDriver.sdCardinfo.cardCsd.cSize.toNat + 1) * 1024 ∧
      .cmd ⟨17, 0, .short⟩ ∈ (exec (diskRead 0 (some 0) 0x800000 1)
        (World.start highCapacityDriver upToReadBlock)).2.log :=
  ⟨by decide, mem_commands.mp (by decide)⟩

end Gd32Firmware
