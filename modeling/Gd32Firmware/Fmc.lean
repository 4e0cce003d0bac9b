import Mathlib.Data.UInt
import Mathlib.Data.List.GetD
import Mathlib.Logic.Function.Basic
import Mathlib.Tactic.IntervalCases

/-!
# The on-chip flash

`user/bsp/bsp_fmc.c` over the flash controller. The flash is 1 MB at `0x08000000`, in twelve
sectors of 16, 64 and 128 KB. A sector number is passed to the controller shifted left by 3
(`CTL_SN`), so the erase loop of `fmc_write_32bit_data` steps by 8. The controller is
modelled by its two operations : an erase sets every word of the sector to `0xFFFFFFFF`, a
program stores a word, and both report `FMC_READY`.
-/

namespace Gd32Firmware

/-- The words of the flash, by address. -/
abbrev Flash := UInt32 → UInt32

/-- `fmc_state_enum`. -/
inductive FmcState where
  | ready | busy | rdderr | pgserr | pgmerr | wperr | operr | toerr
  deriving DecidableEq, Repr

/-- `ADDR_FMC_SECTOR_0` to `ADDR_FMC_SECTOR_11`, then the end of the flash. -/
def addrFmcSector (sector : ℕ) : UInt32 :=
  [0x08000000, 0x08004000, 0x08008000, 0x0800C000, 0x08010000, 0x08020000, 0x08040000,
    0x08060000, 0x08080000, 0x080A0000, 0x080C0000, 0x080E0000].getD sector 0x08100000

/-- `CTL_SECTOR_NUMBER_0` to `CTL_SECTOR_NUMBER_11` : `CTL_SN(regval)`. -/
def ctlSectorNumber (regval : UInt32) : UInt32 :=
  (0xF8 : UInt32) &&& (regval <<< 3)

/-- The sector number of an address, that of the last sector for every address outside the
first eleven. -/
def fmcSectorGet (address : UInt32) : UInt32 :=
  if address < addrFmcSector 1 ∧ address ≥ addrFmcSector 0 then ctlSectorNumber 0
  else if address < addrFmcSector 2 ∧ address ≥ addrFmcSector 1 then ctlSectorNumber 1
  else if address < addrFmcSector 3 ∧ address ≥ addrFmcSector 2 then ctlSectorNumber 2
  else if address < addrFmcSector 4 ∧ address ≥ addrFmcSector 3 then ctlSectorNumber 3
  else if address < addrFmcSector 5 ∧ address ≥ addrFmcSector 4 then ctlSectorNumber 4
  else if address < addrFmcSector 6 ∧ address ≥ addrFmcSector 5 then ctlSectorNumber 5
  else if address < addrFmcSector 7 ∧ address ≥ addrFmcSector 6 then ctlSectorNumber 6
  else if address < addrFmcSector 8 ∧ address ≥ addrFmcSector 7 then ctlSectorNumber 7
  else if address < addrFmcSector 9 ∧ address ≥ addrFmcSector 8 then ctlSectorNumber 8
  else if address < addrFmcSector 10 ∧ address ≥ addrFmcSector 9 then ctlSectorNumber 9
  else if address < addrFmcSector 11 ∧ address ≥ addrFmcSector 10 then ctlSectorNumber 10
  else ctlSectorNumber 11

/-- The address lies in the sector. -/
def InSector (sector : ℕ) (address : ℕ) : Prop :=
  (addrFmcSector sector).toNat ≤ address ∧ address < (addrFmcSector (sector + 1)).toNat

instance (sector address : ℕ) : Decidable (InSector sector address) :=
  inferInstanceAs (Decidable (_ ∧ _))

/-- The controller erases the sector whose number is in the register. -/
def fmcSectorErase (flash : Flash) (fmcSector : UInt32) : Flash × FmcState :=
  (fun a => if InSector (fmcSector.toNat / 8) a.toNat then 0xFFFFFFFF else flash a, .ready)

/-- The controller stores a word. -/
def fmcWordProgram (flash : Flash) (address data : UInt32) : Flash × FmcState :=
  (Function.update flash address data, .ready)

/-- The erase loop. A controller that is not ready, like a counter that never passes the
end sector, keeps the program in a loop for good : no result. -/
def eraseLoop (flash : Flash) (i endSector : UInt16) : ℕ → Option Flash
  | 0 => none
  | fuel + 1 =>
    if i ≤ endSector then
      match fmcSectorErase flash i.toUInt32 with
      | (flash, .ready) => eraseLoop flash (i + 8) endSector fuel
      | _ => none
    else some flash

/-- The programming loop, for the `n` words from `i` on. -/
def programLoop (data32 : ℕ → Int32) : (n i : ℕ) → Flash → (address : UInt32) → Option Flash
  | 0, _, flash, _ => some flash
  | n + 1, i, flash, address =>
    match fmcWordProgram flash address (data32 i).toUInt32 with
    | (flash, .ready) => programLoop data32 n (i + 1) flash (address + 4)
    | _ => none

/-- A 16-bit counter that steps by 8 has come round after this many steps. -/
def eraseFuel : ℕ := 2 ^ 13 + 1

/-- `fmc_write_32bit_data` : erase from the sector of `address` to the sector of the address
behind the data, then program the data. -/
def fmcWrite32bitData (flash : Flash) (address : UInt32) (length : UInt16)
    (data32 : ℕ → Int32) : Option Flash := do
  let startSector := (fmcSectorGet address).toUInt16
  let endSector := (fmcSectorGet (address + 4 * length.toUInt32)).toUInt16
  let flash ← eraseLoop flash startSector endSector eraseFuel
  programLoop data32 length.toNat 0 flash address

/-! ## The sector map -/

/-- The sector that the program takes an address to be in : the one that holds it, the last
one if none does. -/
def SectorOf (sector address : ℕ) : Prop :=
  InSector sector address ∨ sector = 11 ∧ ∀ s ≤ 11, ¬ InSector s address

/-- The bases of the sectors are in increasing order. -/
theorem addrFmcSector_mono {s t : ℕ} (h : s ≤ t) :
    (addrFmcSector s).toNat ≤ (addrFmcSector t).toNat := by
  have hend {n : ℕ} (hn : 12 ≤ n) : addrFmcSector n = 0x08100000 :=
    List.getD_eq_default _ _ hn
  have hall : ∀ t ≤ 12, ∀ s ≤ t, (addrFmcSector s).toNat ≤ (addrFmcSector t).toNat := by decide
  rcases Nat.le_total t 12 with ht | ht
  · exact hall t ht s h
  · rw [hend ht, ← hend (le_refl 12)]
    rcases Nat.le_total s 12 with hs | hs
    · exact hall 12 (le_refl 12) s hs
    · rw [hend hs, ← hend (le_refl 12)]

/-- An address lies in one sector at most. -/
theorem InSector.unique {s t address : ℕ} (hs : InSector s address) (ht : InSector t address) :
    s = t := by
  rcases Nat.lt_trichotomy s t with hlt | heq | hlt
  · have := addrFmcSector_mono (Nat.succ_le_of_lt hlt)
    exact absurd (hs.2.trans_le (this.trans ht.1)) (lt_irrefl _)
  · exact heq
  · have := addrFmcSector_mono (Nat.succ_le_of_lt hlt)
    exact absurd (ht.2.trans_le (this.trans hs.1)) (lt_irrefl _)

theorem SectorOf.unique {s t address : ℕ} (hs : SectorOf s address) (ht : SectorOf t address)
    (hs' : s ≤ 11) (ht' : t ≤ 11) : s = t := by
  rcases hs with hs | ⟨rfl, hs⟩ <;> rcases ht with ht | ⟨rfl, ht⟩
  · exact hs.unique ht
  · exact absurd hs (ht s hs')
  · exact absurd ht (hs t ht')
  · rfl

/-- Every address of the flash lies in a sector. -/
theorem exists_inSector {address : ℕ} (hlow : 0x08000000 ≤ address) (hhigh : address < 0x08100000) :
    ∃ s ≤ 11, InSector s address := by
  by_contra hno
  have hge : ∀ u ≤ 12, (addrFmcSector u).toNat ≤ address := by
    intro u hu
    induction u with
    | zero => exact hlow
    | succ u ih =>
      by_contra hlt
      exact hno ⟨u, by omega, ih (by omega), by omega⟩
  have hend : (addrFmcSector 12).toNat = 0x08100000 := rfl
  exact absurd (hge 12 (le_refl _)) (by omega)

theorem addrFmcSector_lt {s : ℕ} (h : s ≤ 11) :
    (addrFmcSector s).toNat < (addrFmcSector (s + 1)).toNat := by
  have hall : ∀ k ≤ 11, (addrFmcSector k).toNat < (addrFmcSector (k + 1)).toNat := by decide
  exact hall s h

theorem SectorOf.inSector {s address : ℕ} (hs : SectorOf s address) (hlow : 0x08000000 ≤ address)
    (hhigh : address < 0x08100000) : InSector s address := by
  rcases hs with hs | ⟨-, hnone⟩
  · exact hs
  · obtain ⟨t, ht, hin⟩ := exists_inSector hlow hhigh
    exact absurd hin (hnone t ht)

/-- The sector of an address that is not below the flash begins at or before it. -/
theorem SectorOf.base_le {s address : ℕ} (hs : SectorOf s address) (hlow : 0x08000000 ≤ address) :
    (addrFmcSector s).toNat ≤ address := by
  by_cases hhigh : address < 0x08100000
  · exact (hs.inSector hlow hhigh).1
  · have hmono := addrFmcSector_mono (show s ≤ max s 12 from le_max_left _ _)
    have hend : (addrFmcSector (max s 12)).toNat = 0x08100000 := by
      rw [addrFmcSector, List.getD_eq_default _ _ (le_max_right s 12)]
      rfl
    omega

/-- The number that the controller takes is that of the sector of the address. -/
def NamesSector (number : UInt32) (address : ℕ) : Prop :=
  ∃ sector ≤ 11, number = ctlSectorNumber (UInt32.ofNat sector) ∧ SectorOf sector address

/-- One test of the chain in `fmc_sector_get`. -/
theorem namesSector_ite {address : UInt32} {number : UInt32} {s : ℕ} (hs : s ≤ 11)
    (h : ¬ InSector s address.toNat → NamesSector number address.toNat) :
    NamesSector (if address < addrFmcSector (s + 1) ∧ address ≥ addrFmcSector s
      then ctlSectorNumber (UInt32.ofNat s) else number) address.toNat := by
  have htest : (address < addrFmcSector (s + 1) ∧ address ≥ addrFmcSector s) ↔
      InSector s address.toNat := by
    rw [InSector, and_comm, ge_iff_le, UInt32.le_iff_toNat_le, UInt32.lt_iff_toNat_lt]
  by_cases hin : InSector s address.toNat
  · rw [if_pos (htest.2 hin)]
    exact ⟨s, hs, rfl, Or.inl hin⟩
  · rw [if_neg fun ht => hin (htest.1 ht)]
    exact h hin

/-- `fmc_sector_get` finds the sector of an address. -/
theorem fmcSectorGet_namesSector (address : UInt32) :
    NamesSector (fmcSectorGet address) address.toNat := by
  refine
    namesSector_ite (s := 0) (by decide) fun h0 => namesSector_ite (s := 1) (by decide) fun h1 =>
    namesSector_ite (s := 2) (by decide) fun h2 => namesSector_ite (s := 3) (by decide) fun h3 =>
    namesSector_ite (s := 4) (by decide) fun h4 => namesSector_ite (s := 5) (by decide) fun h5 =>
    namesSector_ite (s := 6) (by decide) fun h6 => namesSector_ite (s := 7) (by decide) fun h7 =>
    namesSector_ite (s := 8) (by decide) fun h8 => namesSector_ite (s := 9) (by decide) fun h9 =>
    namesSector_ite (s := 10) (by decide) fun h10 => ⟨11, by decide, rfl, ?_⟩
  by_cases h11 : InSector 11 address.toNat
  · exact Or.inl h11
  · refine Or.inr ⟨rfl, fun s hs => ?_⟩
    interval_cases s <;> assumption

/-- The encoded number of a sector, as the 16-bit counter holds it. -/
theorem ctlSectorNumber_toUInt16 {sector : ℕ} (h : sector ≤ 11) :
    (ctlSectorNumber (UInt32.ofNat sector)).toUInt16 = UInt16.ofNat (8 * sector) := by
  have hall : ∀ s ≤ 11, (ctlSectorNumber (UInt32.ofNat s)).toUInt16 = UInt16.ofNat (8 * s) := by
    decide
  exact hall sector h

/-! ## The loops -/

/-- From sector `s` to sector `t` the erase loop blanks all the words between the base of the
one and the end of the other. -/
theorem eraseLoop_spec {t : ℕ} (ht : t ≤ 11) :
    ∀ (fuel s : ℕ) (flash : Flash), s ≤ t + 1 → t + 1 - s < fuel →
      ∃ flash', eraseLoop flash (UInt16.ofNat (8 * s)) (UInt16.ofNat (8 * t)) fuel = some flash' ∧
        ∀ a : UInt32, flash' a =
          if (addrFmcSector s).toNat ≤ a.toNat ∧ a.toNat < (addrFmcSector (t + 1)).toNat
          then 0xFFFFFFFF else flash a
  | 0, s, flash, _, hfuel => absurd hfuel (Nat.not_lt_zero _)
  | fuel + 1, s, flash, hs, hfuel => by
    have hto {n : ℕ} (hn : n ≤ 12) : (UInt16.ofNat (8 * n)).toNat = 8 * n :=
      UInt16.toNat_ofNat_of_lt' (by show 8 * n < 65536; omega)
    have hle : UInt16.ofNat (8 * s) ≤ UInt16.ofNat (8 * t) ↔ s ≤ t := by
      rw [UInt16.le_iff_toNat_le, hto (by omega), hto (by omega)]
      omega
    rw [eraseLoop]
    by_cases hst : s ≤ t
    · rw [if_pos (hle.2 hst)]
      have hnext : UInt16.ofNat (8 * s) + 8 = UInt16.ofNat (8 * (s + 1)) := by
        rw [← UInt16.toNat_inj, UInt16.toNat_add, hto (by omega), hto (by omega)]
        show (8 * s + 8) % 2 ^ 16 = _
        omega
      have hnum : (UInt16.ofNat (8 * s)).toUInt32.toNat / 8 = s := by
        rw [UInt16.toNat_toUInt32, hto (by omega)]
        omega
      simp only [fmcSectorErase, hnext]
      obtain ⟨flash', hrun, hflash'⟩ := eraseLoop_spec ht fuel (s + 1) _ (by omega) (by omega)
      refine ⟨flash', hrun, fun a => ?_⟩
      have hmono := addrFmcSector_mono (show s + 1 ≤ t + 1 by omega)
      have hmono' := addrFmcSector_mono (show s ≤ s + 1 by omega)
      rw [hflash', hnum]
      by_cases hlater : (addrFmcSector (s + 1)).toNat ≤ a.toNat ∧
          a.toNat < (addrFmcSector (t + 1)).toNat
      · rw [if_pos hlater, if_pos (by omega)]
      · rw [if_neg hlater]
        exact if_congr (by unfold InSector; omega) rfl rfl
    · obtain rfl : s = t + 1 := by omega
      rw [if_neg (by rw [hle]; exact hst)]
      exact ⟨flash, rfl, fun a => (if_neg (by omega)).symm⟩

/-- The word of the data that belongs at an address, if one does. -/
theorem programLoop_spec (data32 : ℕ → Int32) :
    ∀ (n i : ℕ) (flash : Flash) (address : UInt32), address.toNat + 4 * n ≤ 2 ^ 32 →
      ∃ flash', programLoop data32 n i flash address = some flash' ∧
        (∀ j < n, flash' (UInt32.ofNat (address.toNat + 4 * j)) = (data32 (i + j)).toUInt32) ∧
        ∀ a : UInt32, (∀ j < n, a.toNat ≠ address.toNat + 4 * j) → flash' a = flash a
  | 0, i, flash, address, _ => ⟨flash, rfl, by simp, fun _ _ => rfl⟩
  | n + 1, i, flash, address, h => by
    have hto {j : ℕ} (hj : j < n + 1) :
        (UInt32.ofNat (address.toNat + 4 * j)).toNat = address.toNat + 4 * j :=
      UInt32.toNat_ofNat_of_lt' (by show _ < 2 ^ 32; omega)
    simp only [programLoop, fmcWordProgram]
    cases n with
    | zero =>
      refine ⟨_, rfl, fun j hj => ?_, fun a ha => Function.update_of_ne (fun h => ?_) _ _⟩
      · obtain rfl : j = 0 := by omega
        simp
      · exact ha 0 (by omega) (by rw [h]; rfl)
    | succ n =>
      have hnext : (address + 4).toNat = address.toNat + 4 := by
        rw [UInt32.toNat_add]
        exact Nat.mod_eq_of_lt (by show address.toNat + 4 < 2 ^ 32; omega)
      obtain ⟨flash', hrun, hdata, hframe⟩ := programLoop_spec data32 (n + 1) (i + 1)
        (Function.update flash address (data32 i).toUInt32) (address + 4) (by omega)
      refine ⟨flash', hrun, fun j hj => ?_, fun a ha => ?_⟩
      · cases j with
        | zero =>
          rw [Nat.mul_zero, Nat.add_zero, UInt32.ofNat_toNat, hframe _ (fun j _ => by omega)]
          simp
        | succ j =>
          have := hdata j (by omega)
          rwa [hnext, show address.toNat + 4 + 4 * j = address.toNat + 4 * (j + 1) by omega,
            show i + 1 + j = i + (j + 1) by omega] at this
      · rw [hframe a fun j hj h => ha (j + 1) (by omega) (by omega), Function.update_of_ne]
        rintro rfl
        exact ha 0 (by omega) rfl

end Gd32Firmware
