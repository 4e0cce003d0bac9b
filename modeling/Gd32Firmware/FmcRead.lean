import Gd32Firmware.FmcWrite

/-!
# Reading words of the flash

`fmc_read_32bit_data` of `user/bsp/bsp_fmc.c` counts the words in a variable of 8 bits, and
compares it with a length of 16 bits. A length of 256 or more is never reached :
`fmcRead32bitData_iff` says that these are the lengths for which the function does not do its
work, and the only ones.
-/

namespace Gd32Firmware

/-- The loop of `fmc_read_32bit_data`. There is no result while it is not over. -/
def readLoop (flash : Flash) (length : UInt16) :
    (fuel : ℕ) → (i : UInt8) → (address : UInt32) → (data32 : ℕ → Int32) → Option (ℕ → Int32)
  | 0, _, _, _ => none
  | fuel + 1, i, address, data32 =>
    if i.toUInt16 < length then
      readLoop flash length fuel (i + 1) (address + 4)
        (Function.update data32 i.toNat (flash address).toInt32)
    else some data32

/-- `fmc_read_32bit_data`, run for at most `fuel` rounds : what `data_32` points to after it,
if it has returned by then. -/
def fmcRead32bitData (fuel : ℕ) (flash : Flash) (address : UInt32) (length : UInt16)
    (data32 : ℕ → Int32) : Option (ℕ → Int32) :=
  readLoop flash length fuel 0 address data32

/-- The function returns, with the words of the range in their places and all other places as
they were. -/
def ReadsRange (flash : Flash) (address : UInt32) (length : UInt16) (data32 : ℕ → Int32) : Prop :=
  ∃ fuel data32', fmcRead32bitData fuel flash address length data32 = some data32' ∧
    ∀ i, data32' i =
      if i < length.toNat then (flash (address + 4 * UInt32.ofNat i)).toInt32 else data32 i

/-! ## The loop -/

/-- A counter of 8 bits stays below the length. -/
theorem readLoop_eq_none {flash : Flash} {length : UInt16} (hlen : 256 ≤ length.toNat) :
    ∀ (fuel : ℕ) (i : UInt8) (address : UInt32) (data32 : ℕ → Int32),
      readLoop flash length fuel i address data32 = none
  | 0, _, _, _ => rfl
  | fuel + 1, i, address, data32 => by
    have hbelow : i.toUInt16 < length := by
      rw [UInt16.lt_iff_toNat_lt, UInt8.toNat_toUInt16]
      exact i.toNat_lt.trans_le hlen
    rw [readLoop, if_pos hbelow]
    exact readLoop_eq_none hlen fuel _ _ _

/-- The loop from word `i` on, with `n` words to go. -/
theorem readLoop_spec {flash : Flash} {length : UInt16} (hlen : length.toNat < 256) :
    ∀ (n i : ℕ) (address : UInt32) (data32 : ℕ → Int32), i + n = length.toNat →
      ∃ data32', readLoop flash length (n + 1) (UInt8.ofNat i) address data32 = some data32' ∧
        ∀ j, data32' j =
          if i ≤ j ∧ j < length.toNat then (flash (address + 4 * UInt32.ofNat (j - i))).toInt32
          else data32 j := by
  intro n
  induction n with
  | zero =>
    intro i address data32 hi
    have hover : ¬ (UInt8.ofNat i).toUInt16 < length := by
      rw [UInt16.lt_iff_toNat_lt, UInt8.toNat_toUInt16,
        UInt8.toNat_ofNat_of_lt' (show i < 256 by omega)]
      omega
    exact ⟨data32, by rw [readLoop, if_neg hover], fun j => (if_neg (by omega)).symm⟩
  | succ n ih =>
    intro i address data32 hi
    have hto : (UInt8.ofNat i).toNat = i := UInt8.toNat_ofNat_of_lt' (show i < 256 by omega)
    have hbelow : (UInt8.ofNat i).toUInt16 < length := by
      rw [UInt16.lt_iff_toNat_lt, UInt8.toNat_toUInt16, hto]
      omega
    have hnext : UInt8.ofNat i + 1 = UInt8.ofNat (i + 1) := by
      rw [UInt8.ofNat_add]
      rfl
    obtain ⟨data32', hrun, hdata⟩ := ih (i + 1) (address + 4)
      (Function.update data32 i (flash address).toInt32) (by omega)
    refine ⟨data32', ?_, fun j => ?_⟩
    · rw [readLoop, if_pos hbelow, hto, hnext]
      exact hrun
    · rw [hdata j]
      rcases Nat.lt_trichotomy j i with hlt | rfl | hlt
      · rw [if_neg (by omega), if_neg (by omega), Function.update_of_ne (by omega)]
      · rw [if_neg (by omega), if_pos (by omega), Function.update_self, Nat.sub_self]
        simp
      · have hword : address + 4 + 4 * UInt32.ofNat (j - (i + 1)) =
            address + 4 * UInt32.ofNat (j - i) := by
          rw [show j - i = 1 + (j - (i + 1)) by omega, UInt32.ofNat_add, UInt32.mul_add,
            UInt32.add_assoc]
          rfl
        by_cases hin : j < length.toNat
        · rw [if_pos ⟨hlt, hin⟩, if_pos ⟨hlt.le, hin⟩, hword]
        · rw [if_neg (by omega), if_neg (by omega), Function.update_of_ne (by omega)]

/-! ## The function -/

/-- A read of less than 256 words is right. -/
theorem readsRange_of_lt {length : UInt16} (hlen : length.toNat < 256) (flash : Flash)
    (address : UInt32) (data32 : ℕ → Int32) : ReadsRange flash address length data32 := by
  obtain ⟨data32', hrun, hdata⟩ :=
    readLoop_spec hlen length.toNat 0 address data32 (Nat.zero_add _)
  exact ⟨length.toNat + 1, data32', hrun, fun i => by simpa using hdata i⟩

/-- The function reads its range, exactly if the length is less than 256. -/
theorem fmcRead32bitData_iff (flash : Flash) (address : UInt32) (length : UInt16)
    (data32 : ℕ → Int32) : ReadsRange flash address length data32 ↔ length.toNat < 256 := by
  refine ⟨?_, fun hlen => readsRange_of_lt hlen flash address data32⟩
  rintro ⟨fuel, data32', hrun, -⟩
  by_contra hlen
  rw [fmcRead32bitData, readLoop_eq_none (Nat.le_of_not_lt hlen)] at hrun
  exact nomatch hrun

/-- With 256 words to read the counter is back at 0 before it has reached the length. -/
theorem not_readsRange_wrapped : ¬ ReadsRange (fun _ => 0) 0x08000000 256 (fun _ => 0) := by
  rintro ⟨fuel, data32', hrun, -⟩
  rw [fmcRead32bitData, readLoop_eq_none (by decide)] at hrun
  exact nomatch hrun

/-- What `fmc_write_32bit_data` has written is read back. -/
theorem fmcRead32bitData_of_write {address : UInt32} {length : UInt16}
    (hrange : ∀ b, InRange address length b → 0x08000000 ≤ b ∧ b ≤ 0x080FFFFF)
    (hlen : length.toNat < 256) (flash : Flash) (written data32 : ℕ → Int32) :
    ∃ flash' fuel data32', fmcWrite32bitData flash address length written = some flash' ∧
      fmcRead32bitData fuel flash' address length data32 = some data32' ∧
      ∀ i < length.toNat, data32' i = written i := by
  obtain ⟨s, t, flash', -, -, -, -, hwrite, hwords, -⟩ :=
    fmcWrite32bitData_spec hrange flash written
  obtain ⟨fuel, data32', hread, hdata⟩ := readsRange_of_lt hlen flash' address data32
  refine ⟨flash', fuel, data32', hwrite, hread, fun i hi => ?_⟩
  have haddress : address + 4 * UInt32.ofNat i = UInt32.ofNat (address.toNat + 4 * i) := by
    rw [UInt32.ofNat_add, UInt32.ofNat_mul, UInt32.ofNat_toNat]
    rfl
  rw [hdata i, if_pos hi, haddress, hwords i hi]
  exact Int32.toInt32_toUInt32 _

end Gd32Firmware
