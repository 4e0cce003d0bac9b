import Mathlib.Data.Nat.Bitwise
import Mathlib.Data.Fin.VecNotation
import Mathlib.Data.UInt
import Mathlib.Tactic.FinCases

/-!
# Slices of bits

`bits n hi lo` is the number in the bits `hi` to `lo` of `n`, both included, as data sheets
write the fields of a register. A slice of a slice is a slice (`bits_bits`), two slices side by
side are one (`bits_append`), and a slice is what a mask and a shift leave
(`and_shiftRight_eq_bits`). A number below `2 ^ 128` is four words (`ofWords`), each of which is
a slice of it.
-/

namespace Gd32Firmware

/-- The bits `hi` to `lo`. -/
def bits (n hi lo : ℕ) : ℕ :=
  n / 2 ^ lo % 2 ^ (hi + 1 - lo)

section Bits

variable {n hi mid lo : ℕ}

theorem bits_lt (n hi lo : ℕ) : bits n hi lo < 2 ^ (hi + 1 - lo) :=
  Nat.mod_lt _ (Nat.two_pow_pos _)

/-- All the bits that a number has. -/
theorem bits_eq_self (h : n < 2 ^ (hi + 1)) : bits n hi 0 = n := by
  rw [bits, pow_zero, Nat.div_one, Nat.sub_zero, Nat.mod_eq_of_lt h]

/-- A slice of a slice. -/
theorem bits_bits {h l : ℕ} (hin : lo + h ≤ hi) :
    bits (bits n hi lo) h l = bits n (lo + h) (lo + l) := by
  by_cases hl : l ≤ h
  · have hsplit : hi + 1 - lo = l + (hi + 1 - lo - l) := by omega
    have hlen : h + 1 - l ≤ hi + 1 - lo - l := by omega
    rw [bits, bits, bits, hsplit, Nat.pow_add, Nat.mod_mul_right_div_self, Nat.div_div_eq_div_mul,
      ← Nat.pow_add, Nat.mod_mod_of_dvd _ (Nat.pow_dvd_pow 2 hlen),
      show lo + h + 1 - (lo + l) = h + 1 - l by omega]
  · have hempty : h + 1 - l = 0 := by omega
    have hempty' : lo + h + 1 - (lo + l) = 0 := by omega
    simp only [bits, hempty, hempty', pow_zero, Nat.mod_one]

/-- Two slices side by side. -/
theorem bits_append {m s : ℕ} (hm : m = mid + 1) (hlo : lo ≤ m) (hhi : mid ≤ hi) (hs : s = m - lo) :
    bits n hi m * 2 ^ s + bits n mid lo = bits n hi lo := by
  subst hm hs
  have hmid : mid + 1 = lo + (mid + 1 - lo) := by omega
  have hlen : hi + 1 - lo = mid + 1 - lo + (hi + 1 - (mid + 1)) := by omega
  have hdiv : n / 2 ^ (mid + 1) = n / 2 ^ lo / 2 ^ (mid + 1 - lo) := by
    rw [Nat.div_div_eq_div_mul, ← Nat.pow_add, ← hmid]
  rw [bits, bits, bits, hdiv, hlen, Nat.pow_add, Nat.mod_mul, Nat.add_comm, Nat.mul_comm]

/-- What a mask and a shift leave of a slice. -/
theorem bits_and_shiftRight {mask h l : ℕ} (hin : lo + h ≤ hi)
    (hmask : mask = (2 ^ (h + 1 - l) - 1) <<< l) :
    (bits n hi lo &&& mask) >>> l = bits n (lo + h) (lo + l) := by
  rw [hmask, Nat.shiftRight_and_distrib, Nat.shiftLeft_shiftRight, Nat.and_two_pow_sub_one_eq_mod,
    Nat.shiftRight_eq_div_pow, ← bits_bits hin]
  rfl

/-- What a mask leaves of a slice. -/
theorem bits_and {mask h : ℕ} (hin : lo + h ≤ hi) (hmask : mask = 2 ^ (h + 1) - 1) :
    bits n hi lo &&& mask = bits n (lo + h) lo :=
  bits_and_shiftRight (l := 0) hin hmask

/-- Two slices that are put side by side. -/
theorem bits_shiftLeft_or_shiftLeft {m s t : ℕ} (hm : m = mid + 1) (hlo : lo ≤ m) (hhi : mid ≤ hi)
    (hs : s = m - lo + t) :
    bits n hi m <<< s ||| bits n mid lo <<< t = bits n hi lo <<< t := by
  have hlen : m - lo = mid + 1 - lo := by omega
  rw [hs, Nat.shiftLeft_add, ← Nat.shiftLeft_or_distrib, hlen,
    ← Nat.shiftLeft_add_eq_or_of_lt (bits_lt n mid lo), Nat.shiftLeft_eq _ (mid + 1 - lo),
    bits_append hm hlo hhi hlen.symm]

theorem bits_shiftLeft_or {m s : ℕ} (hm : m = mid + 1) (hlo : lo ≤ m) (hhi : mid ≤ hi)
    (hs : s = m - lo) : bits n hi m <<< s ||| bits n mid lo = bits n hi lo :=
  bits_shiftLeft_or_shiftLeft (t := 0) hm hlo hhi hs

end Bits

/-! ## Words -/

/-- The number in four words, the most significant one first. -/
def ofWords (w : Fin 4 → UInt32) : ℕ :=
  (w 0).toNat * 2 ^ 96 + (w 1).toNat * 2 ^ 64 + (w 2).toNat * 2 ^ 32 + (w 3).toNat

/-- A word is a slice. -/
theorem word_eq_bits (w : Fin 4 → UInt32) (i : Fin 4) :
    (w i).toNat = bits (ofWords w) (127 - 32 * i) (96 - 32 * i) := by
  have h0 := (w 0).toNat_lt
  have h1 := (w 1).toNat_lt
  have h2 := (w 2).toNat_lt
  have h3 := (w 3).toNat_lt
  unfold bits ofWords
  fin_cases i <;> simp <;> omega

theorem ofWords_lt (w : Fin 4 → UInt32) : ofWords w < 2 ^ 128 := by
  have h0 := (w 0).toNat_lt
  have h1 := (w 1).toNat_lt
  have h2 := (w 2).toNat_lt
  have h3 := (w 3).toNat_lt
  unfold ofWords
  omega

/-- Every number of 128 bits is in some words. -/
theorem exists_ofWords_eq {n : ℕ} (hn : n < 2 ^ 128) : ∃ w, ofWords w = n := by
  refine ⟨![UInt32.ofNat (n / 2 ^ 96), UInt32.ofNat (n / 2 ^ 64), UInt32.ofNat (n / 2 ^ 32),
    UInt32.ofNat n], ?_⟩
  simp [ofWords]
  omega

-- two slices are never compared by computing them
attribute [irreducible] bits

end Gd32Firmware
