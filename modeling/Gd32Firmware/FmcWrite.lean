import Gd32Firmware.Fmc

/-!
# What a write to the flash leaves behind

`fmc_write_32bit_data` erases every sector from that of the first address to that of the
address behind the data, which is not an address of the data : if the data ends at the end of
a sector, the next sector is erased with it. `fmcWrite32bitData_iff` says that this sector,
when it has no byte of the data, is the only one that can lose words.
-/

namespace Gd32Firmware

/-- The address is one of the `4 * length` addresses to write. -/
def InRange (address : UInt32) (length : UInt16) (b : ℕ) : Prop :=
  address.toNat ≤ b ∧ b < address.toNat + 4 * length.toNat

/-- The sector has a byte of the range. -/
def Touches (address : UInt32) (length : UInt16) (sector : ℕ) : Prop :=
  ∃ b, InRange address length b ∧ InSector sector b

/-- Every word of the sector is erased. -/
def Blank (flash : Flash) (sector : ℕ) : Prop :=
  ∀ a : UInt32, a.toNat % 4 = 0 → InSector sector a.toNat → flash a = 0xFFFFFFFF

/-- The write returns, the range holds the data, and the sectors without a byte of the range
hold what they held. -/
def WritesRange (flash : Flash) (address : UInt32) (length : UInt16) (data32 : ℕ → Int32) : Prop :=
  ∃ flash', fmcWrite32bitData flash address length data32 = some flash' ∧
    (∀ i < length.toNat,
      flash' (UInt32.ofNat (address.toNat + 4 * i)) = (data32 i).toUInt32) ∧
    ∀ sector ≤ 11, ¬ Touches address length sector →
      ∀ a : UInt32, a.toNat % 4 = 0 → InSector sector a.toNat → flash' a = flash a

/-- The sector erased last has a byte of the range, or nothing to lose. -/
def EndSectorSafe (flash : Flash) (address : UInt32) (length : UInt16) : Prop :=
  ∃ sector ≤ 11, SectorOf sector (address.toNat + 4 * length.toNat) ∧
    (Touches address length sector ∨ Blank flash sector)

section Write

variable {address : UInt32} {length : UInt16}
  (hrange : ∀ b, InRange address length b → 0x08000000 ≤ b ∧ b ≤ 0x080FFFFF)
include hrange

/-- A range inside the flash does not wrap. -/
theorem range_le (hlen : length.toNat ≠ 0) :
    0x08000000 ≤ address.toNat ∧ address.toNat + 4 * length.toNat ≤ 0x08100000 := by
  have hfirst := hrange address.toNat ⟨le_refl _, by omega⟩
  have hlast := hrange (address.toNat + 4 * length.toNat - 1) ⟨by omega, by omega⟩
  omega

theorem end_toNat :
    (address + 4 * length.toUInt32).toNat = address.toNat + 4 * length.toNat := by
  have hlen := length.toNat_lt
  have hwords : 4 * length.toNat < 2 ^ 32 := by omega
  rw [UInt32.toNat_add, UInt32.toNat_mul, UInt16.toNat_toUInt32,
    show (4 : UInt32).toNat = 4 from rfl, Nat.mod_eq_of_lt hwords]
  refine Nat.mod_eq_of_lt ?_
  by_cases h0 : length.toNat = 0
  · have := address.toNat_lt
    omega
  · have := range_le hrange h0
    omega

/-- The sectors of the two ends come in order. -/
theorem sectorOf_le {s t : ℕ} (hs : SectorOf s address.toNat) (hs11 : s ≤ 11)
    (ht : SectorOf t (address.toNat + 4 * length.toNat)) (ht11 : t ≤ 11) : s ≤ t := by
  by_cases h0 : length.toNat = 0
  · rw [h0, Nat.mul_zero, Nat.add_zero] at ht
    exact (hs.unique ht hs11 ht11).le
  · rcases ht with ht | ⟨rfl, -⟩
    · obtain ⟨hfirst, -⟩ := range_le hrange h0
      have hbase := hs.base_le hfirst
      have hend := ht.2
      by_contra hlt
      have hmono := addrFmcSector_mono (show t + 1 ≤ s by omega)
      omega
    · exact hs11

/-- The write as a whole : the sectors of the two ends and those between them are blank,
except for the data. -/
theorem fmcWrite32bitData_spec (flash : Flash) (data32 : ℕ → Int32) :
    ∃ s t flash', s ≤ t ∧ t ≤ 11 ∧ SectorOf s address.toNat ∧
      SectorOf t (address.toNat + 4 * length.toNat) ∧
      fmcWrite32bitData flash address length data32 = some flash' ∧
      (∀ i < length.toNat,
        flash' (UInt32.ofNat (address.toNat + 4 * i)) = (data32 i).toUInt32) ∧
      ∀ a : UInt32, (∀ i < length.toNat, a.toNat ≠ address.toNat + 4 * i) → flash' a =
        if (addrFmcSector s).toNat ≤ a.toNat ∧ a.toNat < (addrFmcSector (t + 1)).toNat
        then 0xFFFFFFFF else flash a := by
  obtain ⟨s, hs11, hsnum, hs⟩ := fmcSectorGet_namesSector address
  obtain ⟨t, ht11, htnum, ht⟩ := fmcSectorGet_namesSector (address + 4 * length.toUInt32)
  rw [end_toNat hrange] at ht
  have hle := sectorOf_le hrange hs hs11 ht ht11
  obtain ⟨erased, herase, herased⟩ := eraseLoop_spec ht11 eraseFuel s flash (by omega)
    (by unfold eraseFuel; omega)
  have hwrap : address.toNat + 4 * length.toNat ≤ 2 ^ 32 := by
    rw [← end_toNat hrange]
    exact (UInt32.toNat_lt _).le
  obtain ⟨flash', hprog, hdata, hframe⟩ :=
    programLoop_spec data32 length.toNat 0 erased address hwrap
  refine ⟨s, t, flash', hle, ht11, hs, ht, ?_, fun i hi => ?_, fun a ha => ?_⟩
  · rw [fmcWrite32bitData, hsnum, htnum, ctlSectorNumber_toUInt16 hs11,
      ctlSectorNumber_toUInt16 ht11, herase]
    exact hprog
  · rw [hdata i hi, Nat.zero_add]
  · rw [hframe a ha, herased a]

/-- All the sectors that are erased have a byte of the range, except perhaps the last. -/
theorem touches_of_lt {s t sector : ℕ} (hs : SectorOf s address.toNat)
    (ht : SectorOf t (address.toNat + 4 * length.toNat)) (ht11 : t ≤ 11) (hst : s ≤ sector)
    (hlt : sector < t) : Touches address length sector := by
  have hlen : length.toNat ≠ 0 := fun h0 => by
    rw [h0, Nat.mul_zero, Nat.add_zero] at ht
    have heq := hs.unique ht (by omega) ht11
    omega
  obtain ⟨hfirst, hlast⟩ := range_le hrange hlen
  have hin := hs.inSector hfirst (by omega)
  have hend := ht.base_le (by omega)
  have hnext := addrFmcSector_mono (show s + 1 ≤ sector + 1 by omega)
  have hnext' := addrFmcSector_mono (show sector + 1 ≤ t by omega)
  have hlt' := addrFmcSector_lt (show sector ≤ 11 by omega)
  have hup := hin.2
  -- the first byte of the range that is not below the sector
  exact ⟨max address.toNat (addrFmcSector sector).toNat, ⟨le_max_left _ _, by omega⟩,
    le_max_right _ _, by omega⟩

omit hrange in
/-- An address outside the range is not that of a word to write. -/
theorem ne_of_not_inRange {a : ℕ} (h : ¬ InRange address length a) :
    ∀ i < length.toNat, a ≠ address.toNat + 4 * i := by
  rintro i hi rfl
  exact h ⟨by omega, by omega⟩

end Write

/-- A write to the flash writes its range and nothing else, exactly if the sector erased last
has a byte of the range or is blank. -/
theorem fmcWrite32bitData_iff (flash : Flash) (address : UInt32) (length : UInt16)
    (data32 : ℕ → Int32)
    (hrange : ∀ b, InRange address length b → 0x08000000 ≤ b ∧ b ≤ 0x080FFFFF) :
    WritesRange flash address length data32 ↔ EndSectorSafe flash address length := by
  obtain ⟨s, t, flash', hst, ht11, hs, ht, hrun, hdata, hframe⟩ :=
    fmcWrite32bitData_spec hrange flash data32
  have hout {a : UInt32} {sector : ℕ} (hno : ¬ Touches address length sector)
      (hin : InSector sector a.toNat) := hframe a (ne_of_not_inRange fun hr => hno ⟨_, hr, hin⟩)
  constructor
  · rintro ⟨flash'', hrun', -, hsame⟩
    obtain rfl : flash' = flash'' := Option.some.inj (hrun.symm.trans hrun')
    refine ⟨t, ht11, ht, or_iff_not_imp_left.2 fun hno a ha hin => ?_⟩
    have herased := (addrFmcSector_mono hst).trans hin.1
    rw [← hsame t ht11 hno a ha hin, hout hno hin, if_pos ⟨herased, hin.2⟩]
  · rintro ⟨t', ht'11, ht', hsafe⟩
    obtain rfl := ht.unique ht' ht11 ht'11
    refine ⟨flash', hrun, hdata, fun sector hsector hno a ha hin => ?_⟩
    rw [hout hno hin]
    split_ifs with herased
    · -- an erased sector without a byte of the range is the last one
      have hlow : s ≤ sector := by
        by_contra hlt
        have := addrFmcSector_mono (show sector + 1 ≤ s by omega)
        have := hin.2
        omega
      have hhigh : ¬ sector < t := fun hlt => hno (touches_of_lt hrange hs ht ht11 hlow hlt)
      obtain rfl : sector = t := by
        by_contra hne
        have := addrFmcSector_mono (show t + 1 ≤ sector by omega)
        have := hin.1
        omega
      exact (hsafe.resolve_left hno a ha hin).symm
    · rfl

/-- Two words in the middle of the second sector. -/
theorem fmcWrite32bitData_iff_two :
    WritesRange (fun _ => 0) 0x08004000 2 (fun _ => 7) ↔ EndSectorSafe (fun _ => 0) 0x08004000 2 :=
  fmcWrite32bitData_iff (fun _ => 0) 0x08004000 2 (fun _ => 7) fun b hb => by
    obtain ⟨hlow, hhigh⟩ := hb
    have h1 : (0x08004000 : UInt32).toNat = 0x08004000 := rfl
    have h2 : (2 : UInt16).toNat = 2 := rfl
    omega

/-- The last word of the first sector : the second sector is erased. -/
theorem fmcWrite32bitData_erases_next : ¬ WritesRange (fun _ => 0) 0x08003FFC 1 (fun _ => 7) := by
  rintro ⟨flash', hrun, -, hsame⟩
  have hno : ¬ Touches 0x08003FFC 1 1 := by
    rintro ⟨b, hb, hin⟩
    have hend : b < 0x08004000 := hb.2
    have hbase : 0x08004000 ≤ b := hin.1
    omega
  have hkept := hsame 1 (by decide) hno 0x08004000 (by decide) (by decide)
  have hlost : (fmcWrite32bitData (fun _ => 0) 0x08003FFC 1 (fun _ => 7)).map (· 0x08004000) =
      some 0xFFFFFFFF := by decide +kernel
  rw [hrun, Option.map_some, hkept] at hlost
  exact absurd hlost (by decide)

end Gd32Firmware
