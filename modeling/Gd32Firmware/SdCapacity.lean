import Gd32Firmware.DiskIo
import Gd32Firmware.SdRegisters
import Mathlib.Data.Nat.Prime.Basic

/-!
# The capacity of a card

The capacity is computed in four places : `sd_card_capacity_get` and
`sd_card_information_get` of `user/sys/sdcard.c`, `disk_ioctl` of `libraries/fatfs/diskio.c`,
and `card_info_get` of `user/bsp/bsp_sd.c`. The first three compute in 32 bits, the last one
takes every card for one of high capacity. `capacities_iff` says for which cards the four
agree with the number of bytes that the CSD stands for.
-/

namespace Gd32Firmware

open Program

/-! ## What is printed -/

/-- A call of `printf`. -/
structure Printf where
  format : String
  args : List UInt32 := []

/-- The number that `%d` shows. -/
def shownInt (arg : UInt32) : ℤ :=
  arg.toInt32.toInt

/-- A text that is printed under a condition. -/
def printIf (c : Prop) [Decidable c] (text : String) : List Printf :=
  if c then [⟨text, []⟩] else []

/-- The version that the SCR register stands for. -/
def printVersion (scr : UInt32) : List Printf :=
  let sdSpec := ((scr &&& 0x0F000000) >>> 24).toUInt8
  let sdSpec3 := ((scr &&& 0x00008000) >>> 15).toUInt8
  let sdSpec4 := ((scr &&& 0x00000400) >>> 10).toUInt8
  printIf (sdSpec = 2 ∧ sdSpec3 = 1 ∧ sdSpec4 = 1) "\r\n## Card version 4.xx ##" ++
    printIf (sdSpec = 2 ∧ sdSpec3 = 1 ∧ sdSpec4 ≠ 1) "\r\n## Card version 3.0x ##" ++
    printIf (sdSpec = 2 ∧ sdSpec3 ≠ 1) "\r\n## Card version 2.00 ##" ++
    printIf (sdSpec = 1) "\r\n## Card version 1.10 ##" ++
    printIf (sdSpec = 0) "\r\n## Card version 1.0x ##"

/-- The security that the SCR register stands for. -/
def printSecurity (scr : UInt32) : List Printf :=
  let sdSecurity := ((scr &&& 0x00700000) >>> 20).toUInt8
  printIf (sdSecurity = 2) "\r\n## SDSC card ##" ++
    printIf (sdSecurity = 3) "\r\n## SDHC card ##" ++
    printIf (sdSecurity = 4) "\r\n## SDXC card ##"

/-- The classes of commands. -/
def printClasses (tempCcc : UInt16) : List Printf :=
  printIf (tempCcc &&& 0x004 ≠ 0 ∧ tempCcc &&& 0x010 ≠ 0) "\r\n## Block operation supported ##" ++
    printIf (tempCcc &&& 0x020 ≠ 0) "\r\n## Erase supported ##" ++
    printIf (tempCcc &&& 0x040 ≠ 0) "\r\n## Write protection supported ##" ++
    printIf (tempCcc &&& 0x080 ≠ 0) "\r\n## Lock unlock supported ##" ++
    printIf (tempCcc &&& 0x100 ≠ 0) "\r\n## Application specific supported ##" ++
    printIf (tempCcc &&& 0x200 ≠ 0) "\r\n## I/O mode supported ##" ++
    printIf (tempCcc &&& 0x400 ≠ 0) "\r\n## Switch function supported ##"

/-- `card_info_get`. -/
def cardInfoGet (drv : Driver) : List Printf :=
  let csd := drv.sdCardinfo.cardCsd
  let blockCount := (csd.cSize + 1) * 1024
  let blockSize := 512
  [⟨"\r\n Card information:", []⟩] ++ printVersion (drv.sdScr 1) ++ printSecurity (drv.sdScr 1) ++
    [⟨"\r\n## Device size is %dKB ##", [sdCardCapacityGet drv]⟩,
      ⟨"\r\n## Block size is %dB ##", [blockSize]⟩,
      ⟨"\r\n## Block count is %d ##", [blockCount]⟩] ++
    printIf (csd.readBlPartial ≠ 0) "\r\n## Partial blocks for read allowed ##" ++
    printIf (csd.writeBlPartial ≠ 0) "\r\n## Partial blocks for write allowed ##" ++
    [⟨"\r\n## CardCommandClasses is: %x ##", [csd.ccc.toUInt32]⟩] ++ printClasses csd.ccc

/-! ## The capacity -/

/-- The bytes of a card, from its CSD. -/
def Driver.exactCapacity (drv : Driver) : ℕ :=
  let r := ofWords drv.sdCsd
  if drv.cardtype = .highCapacitySdCard then (bits r 69 48 + 1) * 512 * 1024
  else (bits r 73 62 + 1) * 2 ^ (bits r 49 47 + 2) * 2 ^ bits r 83 80

/-- The four computations give a number of bytes. -/
structure CapacityIs (drv : Driver) (n : ℕ) : Prop where
  capacityGet : (sdCardCapacityGet drv).toNat = n / 1024
  cardCapacity : drv.sdCardinfo.cardCapacity.toNat = n
  sectorCount : ∀ w : World, w.drv = drv →
    ∃ count, exec (diskIoctl 0 1) w = (some (some (.resOk, .dword count)), w) ∧
      count.toNat * drv.sdCardinfo.cardBlocksize.toNat = n
  printed : ∃ count size, ⟨"\r\n## Block count is %d ##", [count]⟩ ∈ cardInfoGet drv ∧
    ⟨"\r\n## Block size is %dB ##", [size]⟩ ∈ cardInfoGet drv ∧
    shownInt count * shownInt size = n

/-- They do so after `sd_card_information_get` of `sd_cardinfo`. -/
def CapacitiesAgree (drv : Driver) : Prop :=
  ∃ info, sdCardInformationGet drv (some drv.sdCardinfo) = (.ok, some info) ∧
    CapacityIs { drv with sdCardinfo := info } drv.exactCapacity

/-! ## The four computations -/

theorem exec_sectorCount {w : World} (hsize : w.drv.sdCardinfo.cardBlocksize ≠ 0) :
    exec (diskIoctl 0 1) w = (some (some (.resOk, .dword
      (w.drv.sdCardinfo.cardCapacity / w.drv.sdCardinfo.cardBlocksize))), w) := by
  have hrun : exec getDrv w = (some w.drv, w) := rfl
  rw [diskIoctl, if_pos rfl, exec_bind_of_eq hrun]
  simp [hsize]

/-- A call with an argument is not one of a text. -/
theorem not_mem_printIf {c : Prop} [Decidable c] {text format : String} {arg : UInt32} :
    ⟨format, [arg]⟩ ∉ printIf c text := by
  unfold printIf
  split_ifs <;> simp

theorem mem_cardInfoGet_blockCount {drv : Driver} {count : UInt32} :
    ⟨"\r\n## Block count is %d ##", [count]⟩ ∈ cardInfoGet drv ↔
      count = (drv.sdCardinfo.cardCsd.cSize + 1) * 1024 := by
  simp [cardInfoGet, printVersion, printSecurity, printClasses, not_mem_printIf]

theorem mem_cardInfoGet_blockSize {drv : Driver} {size : UInt32} :
    ⟨"\r\n## Block size is %dB ##", [size]⟩ ∈ cardInfoGet drv ↔ size = 512 := by
  simp [cardInfoGet, printVersion, printSecurity, printClasses, not_mem_printIf]

/-- The product for a standard-capacity card. -/
theorem toNat_standardCapacity {cSize : UInt32} {cSizeMult readBlLen : UInt8}
    (hmult : cSizeMult.toNat < 2 ^ 3) (hlen : readBlLen.toNat < 2 ^ 4) :
    ((cSize + 1) * ((1 : UInt32) <<< (cSizeMult.toUInt32 + 2)) *
        ((1 : UInt32) <<< readBlLen.toUInt32)).toNat =
      (cSize.toNat + 1) * 2 ^ (cSizeMult.toNat + 2) * 2 ^ readBlLen.toNat % 2 ^ 32 := by
  have hshift : ((1 : UInt32) <<< (cSizeMult.toUInt32 + 2)).toNat = 2 ^ (cSizeMult.toNat + 2) := by
    have hsum : (cSizeMult.toUInt32 + 2).toNat = cSizeMult.toNat + 2 := by
      rw [UInt32.toNat_add, UInt8.toNat_toUInt32]
      exact Nat.mod_eq_of_lt (by show cSizeMult.toNat + 2 < 2 ^ 32; omega)
    exact toNat_one_shiftLeft hsum (by omega)
  rw [UInt32.toNat_mul, UInt32.toNat_mul, UInt32.toNat_add, hshift,
    toNat_one_shiftLeft (UInt8.toNat_toUInt32 _) (by omega), UInt32.toNat_one, Nat.mod_mul_mod,
    Nat.mul_assoc, Nat.mod_mul_mod, ← Nat.mul_assoc]

theorem shownInt_of_lt {arg : UInt32} (h : arg.toNat < 2 ^ 31) : shownInt arg = arg.toNat := by
  have hfits : 2 * arg.toBitVec.toNat < 2 ^ 32 := by
    show 2 * arg.toNat < 2 ^ 32
    omega
  exact BitVec.toInt_eq_toNat_of_lt hfits

/-- What is printed, for a size that does not wrap. -/
theorem printed_iff {drv : Driver} {c n : ℕ} (hc : drv.sdCardinfo.cardCsd.cSize.toNat = c)
    (hfits : (c + 1) * 1024 < 2 ^ 31) :
    (∃ count size, ⟨"\r\n## Block count is %d ##", [count]⟩ ∈ cardInfoGet drv ∧
        ⟨"\r\n## Block size is %dB ##", [size]⟩ ∈ cardInfoGet drv ∧
        shownInt count * shownInt size = n) ↔
      (c + 1) * 1024 * 512 = n := by
  have hcount : ((drv.sdCardinfo.cardCsd.cSize + 1) * 1024).toNat = (c + 1) * 1024 := by
    have hone : (1 : UInt32).toNat = 1 := rfl
    have hkilo : (1024 : UInt32).toNat = 1024 := rfl
    rw [UInt32.toNat_mul, UInt32.toNat_add, hone, hkilo, hc]
    omega
  have hshown : shownInt ((drv.sdCardinfo.cardCsd.cSize + 1) * 1024) * shownInt 512 =
      ((c + 1) * 1024 * 512 : ℕ) := by
    rw [shownInt_of_lt (hcount ▸ hfits), hcount]
    rfl
  simp only [mem_cardInfoGet_blockCount, mem_cardInfoGet_blockSize, exists_eq_left, exists_and_left]
  rw [hshown, Nat.cast_inj]

/-- A capacity that is a whole number of blocks is counted in blocks. -/
theorem sectorCount_iff {drv : Driver} {n : ℕ} (hsize : drv.sdCardinfo.cardBlocksize ≠ 0)
    (hdvd : drv.sdCardinfo.cardBlocksize.toNat ∣ drv.sdCardinfo.cardCapacity.toNat) :
    (∀ w : World, w.drv = drv →
      ∃ count, exec (diskIoctl 0 1) w = (some (some (.resOk, .dword count)), w) ∧
        count.toNat * drv.sdCardinfo.cardBlocksize.toNat = n) ↔
      drv.sdCardinfo.cardCapacity.toNat = n := by
  have hcount : (drv.sdCardinfo.cardCapacity / drv.sdCardinfo.cardBlocksize).toNat *
      drv.sdCardinfo.cardBlocksize.toNat = drv.sdCardinfo.cardCapacity.toNat := by
    rw [UInt32.toNat_div, Nat.div_mul_cancel hdvd]
  constructor
  · intro h
    obtain ⟨count, hrun, hn⟩ := h (World.start drv []) rfl
    have hrun' := exec_sectorCount (w := World.start drv []) hsize
    rw [hrun] at hrun'
    simp only [Prod.mk.injEq, Option.some.injEq, IoctlData.dword.injEq] at hrun'
    rw [← hn, hrun'.1.2]
    exact hcount.symm
  · rintro rfl w rfl
    exact ⟨_, exec_sectorCount hsize, hcount⟩

/-- The four as conditions on the variables. -/
theorem capacityIs_iff {drv : Driver} {n : ℕ} (hsize : drv.sdCardinfo.cardBlocksize ≠ 0)
    (hdvd : drv.sdCardinfo.cardBlocksize.toNat ∣ drv.sdCardinfo.cardCapacity.toNat) :
    CapacityIs drv n ↔ (sdCardCapacityGet drv).toNat = n / 1024 ∧
      drv.sdCardinfo.cardCapacity.toNat = n ∧
      ∃ count size, ⟨"\r\n## Block count is %d ##", [count]⟩ ∈ cardInfoGet drv ∧
        ⟨"\r\n## Block size is %dB ##", [size]⟩ ∈ cardInfoGet drv ∧
        shownInt count * shownInt size = n :=
  ⟨fun h => ⟨h.capacityGet, h.cardCapacity, h.printed⟩,
    fun ⟨hget, hcap, hprint⟩ => ⟨hget, hcap, (sectorCount_iff hsize hdvd).2 hcap, hprint⟩⟩

theorem capacitiesAgree_of_eq {drv : Driver} {info : SdCardInfo}
    (heq : sdCardInformationGet drv (some drv.sdCardinfo) = (.ok, some info)) :
    CapacitiesAgree drv ↔ CapacityIs { drv with sdCardinfo := info } drv.exactCapacity := by
  constructor
  · rintro ⟨info', heq', h⟩
    obtain rfl : info' = info := Option.some_inj.1 (Prod.ext_iff.1 (heq'.symm.trans heq)).2
    exact h
  · exact fun h => ⟨info, heq, h⟩

/-- A standard-capacity card : the printed block count takes it for one whose number of bytes is
`(C_SIZE + 1) * 2 ^ 19`. -/
theorem capacitiesAgree_standard {drv : Driver}
    (h : drv.cardtype = .stdCapacitySdCardV11 ∨ drv.cardtype = .stdCapacitySdCardV20) :
    CapacitiesAgree drv ↔ drv.exactCapacity < 2 ^ 32 ∧
      bits (ofWords drv.sdCsd) 49 47 + bits (ofWords drv.sdCsd) 83 80 = 17 := by
  have hno : drv.cardtype ≠ .highCapacitySdCard := by
    rcases h with h | h <;> simp [h]
  obtain ⟨info, heq, hcsd, hsize, hcap⟩ := sdCardInformationGet_standard drv.sdCardinfo h
  have hslices := csdDecodeV1_slices drv.sdCsd drv.sdCardinfo.cardCsd
  rw [← hcsd] at hslices
  have hget : sdCardCapacityGet { drv with sdCardinfo := info } = info.cardCapacity / 1024 := by
    rw [hcap, hsize, hcsd]
    simp only [sdCardCapacityGet, h, if_true]
    rfl
  have hC := bits_lt (ofWords drv.sdCsd) 73 62
  have hM := bits_lt (ofWords drv.sdCsd) 49 47
  have hR := bits_lt (ofWords drv.sdCsd) 83 80
  have hexact : drv.exactCapacity = (bits (ofWords drv.sdCsd) 73 62 + 1) *
      2 ^ (bits (ofWords drv.sdCsd) 49 47 + 2) * 2 ^ bits (ofWords drv.sdCsd) 83 80 := by
    rw [Driver.exactCapacity, if_neg hno]
  have hblock : info.cardBlocksize.toNat = 2 ^ bits (ofWords drv.sdCsd) 83 80 := by
    rw [hsize, ← hslices.readBlLen]
    rw [← hslices.readBlLen] at hR
    exact toNat_one_shiftLeft (UInt8.toNat_toUInt32 _) (by omega)
  have hcap' : info.cardCapacity.toNat = drv.exactCapacity % 2 ^ 32 := by
    rw [hcap, hsize, toNat_standardCapacity (hslices.cSizeMult ▸ hM) (hslices.readBlLen ▸ hR),
      hslices.cSize, hslices.cSizeMult, hslices.readBlLen, hexact]
  have hdvd : info.cardBlocksize.toNat ∣ info.cardCapacity.toNat := by
    rw [hblock, hcap', Nat.dvd_mod_iff (Nat.pow_dvd_pow 2 (by omega)), hexact]
    exact Dvd.intro_left _ rfl
  have hne : info.cardBlocksize ≠ 0 := by
    intro h0
    rw [h0] at hblock
    exact absurd hblock.symm (Nat.two_pow_pos _).ne'
  rw [capacitiesAgree_of_eq heq, capacityIs_iff hne hdvd, printed_iff hslices.cSize (by omega),
    hget, UInt32.toNat_div, hcap']
  have hprint : (bits (ofWords drv.sdCsd) 73 62 + 1) * 1024 * 512 = drv.exactCapacity ↔
      bits (ofWords drv.sdCsd) 49 47 + bits (ofWords drv.sdCsd) 83 80 = 17 := by
    have hpow : (bits (ofWords drv.sdCsd) 73 62 + 1) * 1024 * 512 =
        (bits (ofWords drv.sdCsd) 73 62 + 1) * 2 ^ 19 := by
      rw [Nat.mul_assoc, show 1024 * 512 = 2 ^ 19 by decide]
    rw [hpow, hexact, Nat.mul_assoc _ (2 ^ _), ← Nat.pow_add,
      Nat.mul_right_inj (Nat.succ_ne_zero _), Nat.pow_right_inj (le_refl 2)]
    omega
  rw [hprint]
  constructor
  · rintro ⟨-, hwrap, heq17⟩
    exact ⟨hwrap ▸ Nat.mod_lt _ (Nat.two_pow_pos 32), heq17⟩
  · rintro ⟨hlt, heq17⟩
    rw [Nat.mod_eq_of_lt hlt]
    exact ⟨rfl, rfl, heq17⟩

/-- A high-capacity card : only `card_capacity` can wrap. -/
theorem capacitiesAgree_highCapacity {drv : Driver} (h : drv.cardtype = .highCapacitySdCard) :
    CapacitiesAgree drv ↔ drv.exactCapacity < 2 ^ 32 := by
  have hno : ¬ (CardType.highCapacitySdCard = .stdCapacitySdCardV11 ∨
      CardType.highCapacitySdCard = .stdCapacitySdCardV20) := by decide
  obtain ⟨info, heq, hcsd, hsize, hcap⟩ := sdCardInformationGet_highCapacity drv.sdCardinfo h
  have hC := bits_lt (ofWords drv.sdCsd) 69 48
  have hcSize : info.cardCsd.cSize.toNat = bits (ofWords drv.sdCsd) 69 48 := by
    rw [hcsd]
    exact csdDecodeV2_cSize drv.sdCsd (csdDecodeHead drv.sdCsd drv.sdCardinfo.cardCsd)
  have hone : (1 : UInt32).toNat = 1 := rfl
  have hsector : (512 : UInt32).toNat = 512 := rfl
  have hkilo : (1024 : UInt32).toNat = 1024 := rfl
  have hget : (sdCardCapacityGet { drv with sdCardinfo := info }).toNat =
      (bits (ofWords drv.sdCsd) 69 48 + 1) * 512 := by
    have hcall : sdCardCapacityGet { drv with sdCardinfo := info } =
        (info.cardCsd.cSize + 1) * 512 := by
      rw [hcsd]
      simp only [sdCardCapacityGet, h, hno, if_true, if_false]
      rfl
    rw [hcall, UInt32.toNat_mul, UInt32.toNat_add, hcSize, hone, hsector]
    omega
  have hexact : drv.exactCapacity = (bits (ofWords drv.sdCsd) 69 48 + 1) * 512 * 1024 := by
    rw [Driver.exactCapacity, if_pos h]
  have hcap' : info.cardCapacity.toNat = drv.exactCapacity % 2 ^ 32 := by
    rw [hcap, UInt32.toNat_mul, UInt32.toNat_mul, UInt32.toNat_add, hcSize, hone, hsector, hkilo,
      hexact]
    omega
  have hdvd : info.cardBlocksize.toNat ∣ info.cardCapacity.toNat := by
    rw [hsize, hcap', hexact, hsector]
    omega
  have hne : info.cardBlocksize ≠ 0 := by
    rw [hsize]
    decide
  rw [capacitiesAgree_of_eq heq, capacityIs_iff hne hdvd, hget, hcap']
  constructor
  · rintro ⟨-, hwrap, -⟩
    exact hwrap ▸ Nat.mod_lt _ (Nat.two_pow_pos 32)
  · intro hlt
    rw [Nat.mod_eq_of_lt hlt, hexact]
    rw [hexact] at hlt
    have hkilobytes : (bits (ofWords drv.sdCsd) 69 48 + 1) * 512 =
        (bits (ofWords drv.sdCsd) 69 48 + 1) * 512 * 1024 / 1024 := by omega
    have hsmall : bits (ofWords drv.sdCsd) 69 48 + 1 < 2 ^ 13 := by
      rw [Nat.mul_assoc] at hlt
      exact Nat.lt_of_mul_lt_mul_right (hlt.trans_eq (by decide : _ = 2 ^ 13 * (512 * 1024)))
    have hfits : (bits (ofWords drv.sdCsd) 69 48 + 1) * 1024 < 2 ^ 31 :=
      (Nat.mul_lt_mul_of_pos_right hsmall (by decide)).trans (by decide)
    have htotal : (bits (ofWords drv.sdCsd) 69 48 + 1) * 1024 * 512 =
        (bits (ofWords drv.sdCsd) 69 48 + 1) * 512 * 1024 := Nat.mul_right_comm ..
    exact ⟨hkilobytes, rfl, (printed_iff hcSize hfits).2 htotal⟩

/-- The four computations agree with the CSD, exactly if the capacity is below `2 ^ 32` bytes
and, on a standard-capacity card, `C_SIZE_MULT` and `READ_BL_LEN` are 17 together. -/
theorem capacities_iff (drv : Driver) (h : drv.cardtype.IsSdMemory) :
    CapacitiesAgree drv ↔ drv.exactCapacity < 2 ^ 32 ∧
      (drv.cardtype ≠ .highCapacitySdCard →
        bits (ofWords drv.sdCsd) 49 47 + bits (ofWords drv.sdCsd) 83 80 = 17) := by
  by_cases hhigh : drv.cardtype = .highCapacitySdCard
  · rw [capacitiesAgree_highCapacity hhigh]
    simp [hhigh]
  · have hstandard : drv.cardtype = .stdCapacitySdCardV11 ∨
        drv.cardtype = .stdCapacitySdCardV20 := by
      unfold CardType.IsSdMemory at h
      tauto
    rw [capacitiesAgree_standard hstandard]
    simp [hhigh]

/-- A standard-capacity card of 2 GB, with blocks of 1024 bytes. -/
theorem capacities_iff_two :
    CapacitiesAgree { Driver.initial with sdCsd := ![0, 0x000A03FF, 0xC0038000, 0] } ↔
      Driver.exactCapacity { Driver.initial with sdCsd := ![0, 0x000A03FF, 0xC0038000, 0] } <
        2 ^ 32 ∧
      (CardType.stdCapacitySdCardV11 ≠ .highCapacitySdCard →
        bits (ofWords ![0, 0x000A03FF, 0xC0038000, 0]) 49 47 +
          bits (ofWords ![0, 0x000A03FF, 0xC0038000, 0]) 83 80 = 17) :=
  capacities_iff { Driver.initial with sdCsd := ![0, 0x000A03FF, 0xC0038000, 0] } (Or.inl rfl)

/-- A high-capacity card of 8 GB. -/
theorem not_capacitiesAgree_wraps : ¬ CapacitiesAgree { Driver.initial with
    cardtype := .highCapacitySdCard
    sdCsd := ![0x400E0032, 0x5B590000, 0x3B377F80, 0x0A400001] } := by
  rintro ⟨info, heq, h⟩
  obtain rfl := Option.some_inj.1 (Prod.ext_iff.1 heq).2
  exact absurd h.cardCapacity (by decide +kernel)

end Gd32Firmware
