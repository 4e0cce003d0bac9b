import Gd32Firmware.BitSlice
import Gd32Firmware.SdCard
import Mathlib.Tactic.Ring

/-!
# The fields of the CID and CSD registers

`sd_card_information_get` takes the registers apart byte by byte, through one variable
(`tempbyte`).
-/

namespace Gd32Firmware

/-! ## Bytes -/

section Bytes

variable (w : Fin 4 → UInt32) (i : Fin 4)

/-- A byte under a mask of 32 bits. -/
theorem toNat_maskedByte (x mask k : UInt32) {lo : ℕ} (hlo : lo ≤ 24) (hk : k.toNat = lo)
    (hmask : mask.toNat = (2 ^ 8 - 1) <<< lo) :
    ((x &&& mask) >>> k).toUInt8.toNat = bits x.toNat (lo + 7) lo := by
  have hx : x.toNat = bits x.toNat 31 0 := (bits_eq_self x.toNat_lt).symm
  have hmask' : mask.toNat = (2 ^ (lo + 7 + 1 - lo) - 1) <<< lo := by
    rw [hmask]
    congr 3
    omega
  rw [UInt32.toNat_toUInt8, UInt32.toNat_shiftRight, UInt32.toNat_and, hk,
    Nat.mod_eq_of_lt (show lo < 32 by omega), hx, bits_and_shiftRight (by omega) hmask']
  simp only [Nat.zero_add, ← hx]
  refine Nat.mod_eq_of_lt ((bits_lt _ _ _).trans_eq ?_)
  congr 1
  omega

/-- The bytes of a register, numbered as in the comments of the code. -/
structure RegisterBytes (w : Fin 4 → UInt32) : Prop where
  b0 : (byte3 (w 0)).toNat = bits (ofWords w) 127 120
  b1 : (byte2 (w 0)).toNat = bits (ofWords w) 119 112
  b2 : (byte1 (w 0)).toNat = bits (ofWords w) 111 104
  b3 : (byte0 (w 0)).toNat = bits (ofWords w) 103 96
  b4 : (byte3 (w 1)).toNat = bits (ofWords w) 95 88
  b5 : (byte2 (w 1)).toNat = bits (ofWords w) 87 80
  b6 : (byte1 (w 1)).toNat = bits (ofWords w) 79 72
  b7 : (byte0 (w 1)).toNat = bits (ofWords w) 71 64
  b8 : (byte3 (w 2)).toNat = bits (ofWords w) 63 56
  b9 : (byte2 (w 2)).toNat = bits (ofWords w) 55 48
  b10 : (byte1 (w 2)).toNat = bits (ofWords w) 47 40
  b11 : (byte0 (w 2)).toNat = bits (ofWords w) 39 32
  b12 : (byte3 (w 3)).toNat = bits (ofWords w) 31 24
  b13 : (byte2 (w 3)).toNat = bits (ofWords w) 23 16
  b14 : (byte1 (w 3)).toNat = bits (ofWords w) 15 8
  b15 : (byte0 (w 3)).toNat = bits (ofWords w) 7 0

/-- A byte of a word is a slice of the register. -/
theorem toNat_wordByte (w : Fin 4 → UInt32) (i : Fin 4) (mask k : UInt32) {l b : ℕ}
    (hl : l ≤ 24) (hk : k.toNat = l) (hmask : mask.toNat = (2 ^ 8 - 1) <<< l)
    (hb : b = 96 - 32 * i + l) :
    ((w i &&& mask) >>> k).toUInt8.toNat = bits (ofWords w) (b + 7) b := by
  rw [toNat_maskedByte _ _ _ hl hk hmask, word_eq_bits, bits_bits (by omega), hb, Nat.add_assoc]

theorem registerBytes (w : Fin 4 → UInt32) : RegisterBytes w := by
  have hlast (i : Fin 4) : byte0 (w i) = ((w i &&& 0x000000FF) >>> 0).toUInt8 := by
    rw [byte0, UInt32.shiftRight_zero]
  constructor
  · exact toNat_wordByte w 0 _ _ (l := 24) (by decide) rfl (by decide) rfl
  · exact toNat_wordByte w 0 _ _ (l := 16) (by decide) rfl (by decide) rfl
  · exact toNat_wordByte w 0 _ _ (l := 8) (by decide) rfl (by decide) rfl
  · exact hlast 0 ▸ toNat_wordByte w 0 _ _ (l := 0) (by decide) rfl (by decide) rfl
  · exact toNat_wordByte w 1 _ _ (l := 24) (by decide) rfl (by decide) rfl
  · exact toNat_wordByte w 1 _ _ (l := 16) (by decide) rfl (by decide) rfl
  · exact toNat_wordByte w 1 _ _ (l := 8) (by decide) rfl (by decide) rfl
  · exact hlast 1 ▸ toNat_wordByte w 1 _ _ (l := 0) (by decide) rfl (by decide) rfl
  · exact toNat_wordByte w 2 _ _ (l := 24) (by decide) rfl (by decide) rfl
  · exact toNat_wordByte w 2 _ _ (l := 16) (by decide) rfl (by decide) rfl
  · exact toNat_wordByte w 2 _ _ (l := 8) (by decide) rfl (by decide) rfl
  · exact hlast 2 ▸ toNat_wordByte w 2 _ _ (l := 0) (by decide) rfl (by decide) rfl
  · exact toNat_wordByte w 3 _ _ (l := 24) (by decide) rfl (by decide) rfl
  · exact toNat_wordByte w 3 _ _ (l := 16) (by decide) rfl (by decide) rfl
  · exact toNat_wordByte w 3 _ _ (l := 8) (by decide) rfl (by decide) rfl
  · exact hlast 3 ▸ toNat_wordByte w 3 _ _ (l := 0) (by decide) rfl (by decide) rfl

/-- A masked byte, shifted down. -/
theorem toNat_field {x mask k : UInt8} {r b h l : ℕ} (hx : x.toNat = bits r (b + 7) b)
    (hh : h ≤ 7) (hl : l ≤ h) (hk : k.toNat = l)
    (hmask : mask.toNat = (2 ^ (h + 1 - l) - 1) <<< l) :
    ((x &&& mask) >>> k).toNat = bits r (b + h) (b + l) := by
  rw [UInt8.toNat_shiftRight, UInt8.toNat_and, hk, Nat.mod_eq_of_lt (show l < 8 by omega), hx,
    bits_and_shiftRight (by omega) hmask]

/-- A masked byte. -/
theorem toNat_lowField {x mask : UInt8} {r b h : ℕ} (hx : x.toNat = bits r (b + 7) b)
    (hh : h ≤ 7) (hmask : mask.toNat = 2 ^ (h + 1) - 1) :
    (x &&& mask).toNat = bits r (b + h) b := by
  rw [UInt8.toNat_and, hx, bits_and (by omega) hmask]

theorem toNat_one_shiftLeft {k : UInt32} {j : ℕ} (hk : k.toNat = j) (hj : j < 32) :
    ((1 : UInt32) <<< k).toNat = 2 ^ j := by
  have hlt : 2 ^ j < 2 ^ 32 := Nat.pow_lt_pow_right (by decide) hj
  rw [UInt32.toNat_shiftLeft, hk, Nat.mod_eq_of_lt hj, UInt32.toNat_one, Nat.one_shiftLeft,
    Nat.mod_eq_of_lt hlt]

/-- A byte in a place of a number of 32 bits. -/
theorem toNat_shiftLeft32 (x : UInt8) (k : UInt32) {j : ℕ} (hk : k.toNat = j) (hj : j ≤ 24) :
    (x.toUInt32 <<< k).toNat = x.toNat <<< j := by
  have hlt : x.toNat <<< j < 2 ^ 32 := by
    calc x.toNat <<< j
      _ = x.toNat * 2 ^ j := Nat.shiftLeft_eq ..
      _ ≤ x.toNat * 2 ^ 24 := Nat.mul_le_mul_left _ (Nat.pow_le_pow_right (by decide) hj)
      _ < 2 ^ 8 * 2 ^ 24 := Nat.mul_lt_mul_of_pos_right x.toNat_lt (by decide)
  rw [UInt32.toNat_shiftLeft, UInt8.toNat_toUInt32, hk,
    Nat.mod_eq_of_lt (show j < 32 by omega), Nat.mod_eq_of_lt hlt]

/-- A byte in a place of a number of 16 bits. -/
theorem toNat_shiftLeft16 (x : UInt8) (k : UInt16) {j : ℕ} (hk : k.toNat = j) (hj : j ≤ 8) :
    (x.toUInt16 <<< k).toNat = x.toNat <<< j := by
  have hlt : x.toNat <<< j < 2 ^ 16 := by
    calc x.toNat <<< j
      _ = x.toNat * 2 ^ j := Nat.shiftLeft_eq ..
      _ ≤ x.toNat * 2 ^ 8 := Nat.mul_le_mul_left _ (Nat.pow_le_pow_right (by decide) hj)
      _ < 2 ^ 8 * 2 ^ 8 := Nat.mul_lt_mul_of_pos_right x.toNat_lt (by decide)
  rw [UInt16.toNat_shiftLeft, UInt8.toNat_toUInt16, hk,
    Nat.mod_eq_of_lt (show j < 16 by omega), Nat.mod_eq_of_lt hlt]

/-- A few bits in a place of a byte. -/
theorem toNat_shiftLeft8 {x : UInt8} (k : UInt8) {n j : ℕ} (hx : x.toNat < 2 ^ n)
    (hk : k.toNat = j) (hj : j < 8) (hn : n + j ≤ 8) : (x <<< k).toNat = x.toNat <<< j := by
  have hlt : x.toNat <<< j < 2 ^ 8 := by
    calc x.toNat <<< j
      _ = x.toNat * 2 ^ j := Nat.shiftLeft_eq ..
      _ < 2 ^ n * 2 ^ j := Nat.mul_lt_mul_of_pos_right hx (Nat.two_pow_pos _)
      _ = 2 ^ (n + j) := (Nat.pow_add ..).symm
      _ ≤ 2 ^ 8 := Nat.pow_le_pow_right (by decide) hn
  rw [UInt8.toNat_shiftLeft, hk, Nat.mod_eq_of_lt hj, Nat.mod_eq_of_lt hlt]

end Bytes

/-! ## The CID -/

/-- The fields are the slices that the specification of the register names. -/
structure CidSlices (r : ℕ) (cid : SdCidStruct) : Prop where
  mid : cid.mid.toNat = bits r 127 120
  oid : cid.oid.toNat = bits r 119 104
  pnm0 : cid.pnm0.toNat = bits r 103 72
  pnm1 : cid.pnm1.toNat = bits r 71 64
  prv : cid.prv.toNat = bits r 63 56
  psn : cid.psn.toNat = bits r 55 24
  mdt : cid.mdt.toNat = bits r 19 8
  cidCrc : cid.cidCrc.toNat = bits r 7 1

/-- The fields in their places. -/
def cidAssemble (cid : SdCidStruct) : ℕ :=
  cid.mid.toNat * 2 ^ 120 + cid.oid.toNat * 2 ^ 104 + cid.pnm0.toNat * 2 ^ 72 +
    cid.pnm1.toNat * 2 ^ 64 + cid.prv.toNat * 2 ^ 56 + cid.psn.toNat * 2 ^ 24 +
    cid.mdt.toNat * 2 ^ 8 + cid.cidCrc.toNat * 2

/-- Decoding loses nothing : the fields are the slices, with the reserved bits they are the
register again, and no register with another serial number has the same `psn`. -/
structure CidLossless (sdCid : Fin 4 → UInt32) : Prop where
  slices : CidSlices (ofWords sdCid) (cidDecode sdCid)
  assemble : cidAssemble (cidDecode sdCid) + bits (ofWords sdCid) 23 20 * 2 ^ 20 +
    bits (ofWords sdCid) 0 0 = ofWords sdCid
  serial : ∀ sdCid', (cidDecode sdCid').psn = (cidDecode sdCid).psn →
    bits (ofWords sdCid') 55 24 = bits (ofWords sdCid) 55 24

section Cid

variable (sdCid : Fin 4 → UInt32)

theorem cidDecode_oid : (cidDecode sdCid).oid.toNat = bits (ofWords sdCid) 119 104 := by
  obtain h := registerBytes sdCid
  rw [cidDecode, UInt16.toNat_or, toNat_shiftLeft16 _ _ (j := 8) rfl (by decide),
    UInt8.toNat_toUInt16, h.b1, h.b2]
  exact bits_shiftLeft_or rfl (by decide) (by decide) rfl

theorem cidDecode_pnm0 : (cidDecode sdCid).pnm0.toNat = bits (ofWords sdCid) 103 72 := by
  have h := registerBytes sdCid
  rw [cidDecode, UInt32.toNat_or, UInt32.toNat_or, UInt32.toNat_or,
    toNat_shiftLeft32 _ _ (j := 24) rfl (by decide),
    toNat_shiftLeft32 _ _ (j := 16) rfl (by decide), toNat_shiftLeft32 _ _ (j := 8) rfl (by decide),
    UInt8.toNat_toUInt32, h.b3, h.b4, h.b5, h.b6,
    bits_shiftLeft_or_shiftLeft (by decide) (by decide) (by decide) (by decide),
    bits_shiftLeft_or_shiftLeft (by decide) (by decide) (by decide) (by decide)]
  exact bits_shiftLeft_or rfl (by decide) (by decide) rfl

theorem cidDecode_mdt : (cidDecode sdCid).mdt.toNat = bits (ofWords sdCid) 19 8 := by
  have h := registerBytes sdCid
  rw [cidDecode, UInt16.toNat_or, toNat_shiftLeft16 _ _ (j := 8) rfl (by decide),
    UInt8.toNat_toUInt16, toNat_lowField (b := 16) (h := 3) h.b13 (by decide) rfl, h.b14]
  exact bits_shiftLeft_or rfl (by decide) (by decide) rfl

/-- The third byte of the serial number is put where the fourth one is. -/
theorem cidDecode_psn : (cidDecode sdCid).psn.toNat = bits (ofWords sdCid) 55 40 * 2 ^ 16 +
    (bits (ofWords sdCid) 39 32 ||| bits (ofWords sdCid) 31 24) := by
  have h := registerBytes sdCid
  have hlow : bits (ofWords sdCid) 39 32 ||| bits (ofWords sdCid) 31 24 < 2 ^ 16 :=
    Nat.or_lt_two_pow ((bits_lt _ 39 32).trans (by decide)) ((bits_lt _ 31 24).trans (by decide))
  rw [cidDecode, UInt32.toNat_or, UInt32.toNat_or, UInt32.toNat_or,
    toNat_shiftLeft32 _ _ (j := 24) rfl (by decide),
    toNat_shiftLeft32 _ _ (j := 16) rfl (by decide), UInt8.toNat_toUInt32,
    UInt8.toNat_toUInt32, h.b9, h.b10, h.b11, h.b12,
    bits_shiftLeft_or_shiftLeft (by decide) (by decide) (by decide) (by decide), Nat.or_assoc,
    ← Nat.shiftLeft_add_eq_or_of_lt hlow, Nat.shiftLeft_eq]

/-- The serial number by its bytes. -/
theorem serial_eq (r : ℕ) :
    bits r 55 24 = bits r 55 40 * 2 ^ 16 + (bits r 39 32 * 2 ^ 8 + bits r 31 24) := by
  have h : bits r 55 40 * 2 ^ 16 + bits r 39 24 = bits r 55 24 :=
    bits_append rfl (by decide) (by decide) rfl
  have h' : bits r 39 32 * 2 ^ 8 + bits r 31 24 = bits r 39 24 :=
    bits_append rfl (by decide) (by decide) rfl
  rw [← h, ← h']

/-- All fields are right but the serial number, which is exactly if its third byte is 0. -/
theorem cidSlices_iff :
    CidSlices (ofWords sdCid) (cidDecode sdCid) ↔ bits (ofWords sdCid) 39 32 = 0 := by
  have hb := registerBytes sdCid
  constructor
  · intro h
    have hpsn := h.psn
    have hlow : bits (ofWords sdCid) 39 32 ||| bits (ofWords sdCid) 31 24 < 2 ^ 8 :=
      Nat.or_lt_two_pow (bits_lt _ 39 32) (bits_lt _ 31 24)
    rw [cidDecode_psn, serial_eq] at hpsn
    omega
  · intro h
    exact {
      mid := hb.b0
      oid := cidDecode_oid sdCid
      pnm0 := cidDecode_pnm0 sdCid
      pnm1 := hb.b7
      prv := hb.b8
      psn := by rw [cidDecode_psn, serial_eq, h, Nat.zero_or, Nat.zero_mul, Nat.zero_add]
      mdt := cidDecode_mdt sdCid
      cidCrc := toNat_field (b := 0) (h := 7) (l := 1) hb.b15 (by decide) (by decide) rfl rfl }

/-- Fields that are the slices make up the register again. -/
theorem CidSlices.assemble {r : ℕ} {cid : SdCidStruct} (h : CidSlices r cid) (hr : r < 2 ^ 128) :
    cidAssemble cid + bits r 23 20 * 2 ^ 20 + bits r 0 0 = r := by
  have hself : bits r 127 0 = r := bits_eq_self hr
  have h1 : bits r 127 1 * 2 ^ 1 + bits r 0 0 = bits r 127 0 :=
    bits_append rfl (by decide) (by decide) rfl
  have h8 : bits r 127 8 * 2 ^ 7 + bits r 7 1 = bits r 127 1 :=
    bits_append rfl (by decide) (by decide) rfl
  have h20 : bits r 127 20 * 2 ^ 12 + bits r 19 8 = bits r 127 8 :=
    bits_append rfl (by decide) (by decide) rfl
  have h24 : bits r 127 24 * 2 ^ 4 + bits r 23 20 = bits r 127 20 :=
    bits_append rfl (by decide) (by decide) rfl
  have h56 : bits r 127 56 * 2 ^ 32 + bits r 55 24 = bits r 127 24 :=
    bits_append rfl (by decide) (by decide) rfl
  have h64 : bits r 127 64 * 2 ^ 8 + bits r 63 56 = bits r 127 56 :=
    bits_append rfl (by decide) (by decide) rfl
  have h72 : bits r 127 72 * 2 ^ 8 + bits r 71 64 = bits r 127 64 :=
    bits_append rfl (by decide) (by decide) rfl
  have h104 : bits r 127 104 * 2 ^ 32 + bits r 103 72 = bits r 127 72 :=
    bits_append rfl (by decide) (by decide) rfl
  have h120 : bits r 127 120 * 2 ^ 16 + bits r 119 104 = bits r 127 104 :=
    bits_append rfl (by decide) (by decide) rfl
  have hsum : cidAssemble cid + bits r 23 20 * 2 ^ 20 + bits r 0 0 = bits r 127 0 := by
    rw [cidAssemble, h.mid, h.oid, h.pnm0, h.pnm1, h.prv, h.psn, h.mdt, h.cidCrc, ← h1, ← h8,
      ← h20, ← h24, ← h56, ← h64, ← h72, ← h104, ← h120]
    ring
  rw [hsum, hself]

/-- A card that differs in a third byte of the serial number that was 0. -/
theorem bits_add_third {r c : ℕ} (h : bits r 39 32 = 0) (hc : c < 2 ^ 8) :
    bits (r + c * 2 ^ 32) 39 32 = c ∧ bits (r + c * 2 ^ 32) 55 40 = bits r 55 40 ∧
      bits (r + c * 2 ^ 32) 31 24 = bits r 31 24 := by
  unfold bits at *
  omega

end Cid

/-- Decoding the CID loses nothing, exactly if the last two bytes of the serial number are 0. -/
theorem cidDecode_iff (sdCid : Fin 4 → UInt32) :
    CidLossless sdCid ↔ bits (ofWords sdCid) 39 24 = 0 := by
  have hlow : bits (ofWords sdCid) 39 32 * 2 ^ 8 + bits (ofWords sdCid) 31 24 =
      bits (ofWords sdCid) 39 24 := bits_append rfl (by decide) (by decide) rfl
  have hlt := ofWords_lt sdCid
  constructor
  · intro h
    have h11 := (cidSlices_iff sdCid).1 h.slices
    have hc : bits (ofWords sdCid) 31 24 < 2 ^ 8 := bits_lt _ 31 24
    obtain ⟨h11', hhigh, h12'⟩ := bits_add_third h11 hc
    -- another card : what is the fourth byte here is in the third byte as well
    obtain ⟨sdCid', hr'⟩ : ∃ w, ofWords w =
        ofWords sdCid + bits (ofWords sdCid) 31 24 * 2 ^ 32 := by
      refine exists_ofWords_eq ?_
      unfold bits at h11 hc ⊢
      omega
    have heq : (cidDecode sdCid').psn = (cidDecode sdCid).psn := by
      rw [← UInt32.toNat_inj, cidDecode_psn, cidDecode_psn, hr', h11', hhigh, h12', h11,
        Nat.or_self, Nat.zero_or]
    have hserial := h.serial sdCid' heq
    rw [hr', serial_eq, serial_eq, h11', hhigh, h12', h11] at hserial
    omega
  · intro h
    have h11 : bits (ofWords sdCid) 39 32 = 0 := by omega
    have h12 : bits (ofWords sdCid) 31 24 = 0 := by omega
    have hslices := (cidSlices_iff sdCid).2 h11
    refine ⟨hslices, hslices.assemble hlt, fun sdCid' heq => ?_⟩
    have hpsn := congrArg UInt32.toNat heq
    have hlow' : bits (ofWords sdCid') 39 32 ||| bits (ofWords sdCid') 31 24 < 2 ^ 16 :=
      Nat.or_lt_two_pow ((bits_lt _ 39 32).trans (by decide)) ((bits_lt _ 31 24).trans (by decide))
    rw [cidDecode_psn, cidDecode_psn, h11, h12, Nat.or_zero] at hpsn
    have hor : bits (ofWords sdCid') 39 32 ||| bits (ofWords sdCid') 31 24 = 0 := by omega
    obtain ⟨h11', h12'⟩ := Nat.or_eq_zero_iff.1 hor
    have hhigh : bits (ofWords sdCid') 55 40 = bits (ofWords sdCid) 55 40 := by omega
    rw [serial_eq, serial_eq, h11, h12, h11', h12', hhigh]

/-- A card with the serial number `0x00123456`. -/
theorem not_cidLossless_serial :
    ¬ CidLossless ![0x03534453, 0x44313647, 0x80001234, 0x56017A01] := by
  intro h
  exact absurd h.slices.psn (by decide +kernel)

/-! ## The CSD -/

/-- The fields in the bytes 0 to 6. -/
structure CsdHeadSlices (r : ℕ) (csd : SdCsdStruct) : Prop where
  csdStruct : csd.csdStruct.toNat = bits r 127 126
  taac : csd.taac.toNat = bits r 119 112
  nsac : csd.nsac.toNat = bits r 111 104
  tranSpeed : csd.tranSpeed.toNat = bits r 103 96
  ccc : csd.ccc.toNat = bits r 95 84
  readBlLen : csd.readBlLen.toNat = bits r 83 80
  readBlPartial : csd.readBlPartial.toNat = bits r 79 79
  writeBlkMisalign : csd.writeBlkMisalign.toNat = bits r 78 78
  readBlkMisalign : csd.readBlkMisalign.toNat = bits r 77 77
  dspImp : csd.dspImp.toNat = bits r 76 76

/-- The fields that are at the same place in both layouts of the register. -/
structure CsdSlices (r : ℕ) (csd : SdCsdStruct) : Prop extends CsdHeadSlices r csd where
  eraseBlkEn : csd.eraseBlkEn.toNat = bits r 46 46
  sectorSize : csd.sectorSize.toNat = bits r 45 39
  wpGrpSize : csd.wpGrpSize.toNat = bits r 38 32
  wpGrpEnable : csd.wpGrpEnable.toNat = bits r 31 31
  r2wFactor : csd.r2wFactor.toNat = bits r 28 26
  writeBlLen : csd.writeBlLen.toNat = bits r 25 22
  writeBlPartial : csd.writeBlPartial.toNat = bits r 21 21
  fileFormatGrp : csd.fileFormatGrp.toNat = bits r 15 15
  copyFlag : csd.copyFlag.toNat = bits r 14 14
  permWriteProtect : csd.permWriteProtect.toNat = bits r 13 13
  tmpWriteProtect : csd.tmpWriteProtect.toNat = bits r 12 12
  fileFormat : csd.fileFormat.toNat = bits r 11 10
  csdCrc : csd.csdCrc.toNat = bits r 7 1

/-- CSD version 1.0. -/
structure CsdSlicesV1 (r : ℕ) (csd : SdCsdStruct) : Prop extends CsdSlices r csd where
  cSize : csd.cSize.toNat = bits r 73 62
  vddRCurrMin : csd.vddRCurrMin.toNat = bits r 61 59
  vddRCurrMax : csd.vddRCurrMax.toNat = bits r 58 56
  vddWCurrMin : csd.vddWCurrMin.toNat = bits r 55 53
  vddWCurrMax : csd.vddWCurrMax.toNat = bits r 52 50
  cSizeMult : csd.cSizeMult.toNat = bits r 49 47

/-- CSD version 2.0. -/
structure CsdSlicesV2 (r : ℕ) (csd : SdCsdStruct) : Prop extends CsdSlices r csd where
  cSize : csd.cSize.toNat = bits r 69 48

/-- The fields that `sd_card_information_get` stores are the slices that the specification of
the register names, in the version that goes with the type of the card. -/
def CsdDecoded (drv : Driver) (pcardinfo : SdCardInfo) : Prop :=
  ∃ info, sdCardInformationGet drv (some pcardinfo) = (.ok, some info) ∧
    (drv.cardtype = .stdCapacitySdCardV11 ∨ drv.cardtype = .stdCapacitySdCardV20 →
      CsdSlicesV1 (ofWords drv.sdCsd) info.cardCsd) ∧
    (drv.cardtype = .highCapacitySdCard → CsdSlicesV2 (ofWords drv.sdCsd) info.cardCsd)

section Csd

variable (sdCsd : Fin 4 → UInt32)

theorem csdDecodeHead_ccc (csd : SdCsdStruct) :
    (csdDecodeHead sdCsd csd).ccc.toNat = bits (ofWords sdCsd) 95 84 := by
  have h := registerBytes sdCsd
  rw [csdDecodeHead, UInt16.toNat_or, toNat_shiftLeft16 _ _ (j := 4) rfl (by decide),
    UInt16.toNat_shiftRight, UInt8.toNat_toUInt16, UInt8.toNat_and, h.b4, h.b5]
  have hshift : (bits (ofWords sdCsd) 87 80 &&& (0xF0 : UInt8).toNat) >>>
      ((4 : UInt16).toNat % 16) = bits (ofWords sdCsd) 87 84 :=
    bits_and_shiftRight (h := 7) (l := 4) (by decide) rfl
  rw [hshift]
  exact bits_shiftLeft_or rfl (by decide) (by decide) rfl

theorem csdDecodeV1_cSize (csd : SdCsdStruct) :
    (csdDecodeV1 sdCsd csd).cSize.toNat = bits (ofWords sdCsd) 73 62 := by
  have h := registerBytes sdCsd
  rw [csdDecodeV1, UInt32.toNat_or, UInt32.toNat_or,
    toNat_shiftLeft32 _ _ (j := 10) rfl (by decide),
    toNat_shiftLeft32 _ _ (j := 2) rfl (by decide), UInt32.toNat_shiftRight, UInt8.toNat_toUInt32,
    toNat_lowField (b := 72) (h := 1) h.b6 (by decide) rfl, UInt8.toNat_and, h.b7, h.b8]
  have hshift : (bits (ofWords sdCsd) 63 56 &&& (0xC0 : UInt8).toNat) >>>
      ((6 : UInt32).toNat % 32) = bits (ofWords sdCsd) 63 62 :=
    bits_and_shiftRight (h := 7) (l := 6) (by decide) rfl
  rw [hshift, bits_shiftLeft_or_shiftLeft (by decide) (by decide) (by decide) (by decide)]
  exact bits_shiftLeft_or rfl (by decide) (by decide) rfl

theorem csdDecodeV2_cSize (csd : SdCsdStruct) :
    (csdDecodeV2 sdCsd csd).cSize.toNat = bits (ofWords sdCsd) 69 48 := by
  have h := registerBytes sdCsd
  rw [csdDecodeV2, UInt32.toNat_or, UInt32.toNat_or,
    toNat_shiftLeft32 _ _ (j := 16) rfl (by decide),
    toNat_shiftLeft32 _ _ (j := 8) rfl (by decide), UInt8.toNat_toUInt32,
    toNat_lowField (b := 64) (h := 5) h.b7 (by decide) rfl, h.b8, h.b9,
    bits_shiftLeft_or_shiftLeft (by decide) (by decide) (by decide) (by decide)]
  exact bits_shiftLeft_or rfl (by decide) (by decide) rfl

/-- Two fields of a byte side by side. -/
theorem toNat_twoFields {x y : UInt8} {r hi m mid lo : ℕ} (k : UInt8)
    (hx : x.toNat = bits r hi m) (hy : y.toNat = bits r mid lo) (hm : m = mid + 1) (hlo : lo ≤ m)
    (hhi : mid ≤ hi) (hk : k.toNat = m - lo) (hlen : hi + 1 - lo ≤ 8) (hk' : m - lo < 8) :
    (x <<< k ||| y).toNat = bits r hi lo := by
  have hlt : x.toNat < 2 ^ (hi + 1 - m) := hx ▸ bits_lt r hi m
  rw [UInt8.toNat_or, toNat_shiftLeft8 k hlt hk hk' (by omega), hx, hy]
  exact bits_shiftLeft_or hm hlo hhi rfl

theorem csdDecodeV1_cSizeMult (csd : SdCsdStruct) :
    (csdDecodeV1 sdCsd csd).cSizeMult.toNat = bits (ofWords sdCsd) 49 47 := by
  have h := registerBytes sdCsd
  exact toNat_twoFields 1 (toNat_lowField (b := 48) (h := 1) h.b9 (by decide) rfl)
    (toNat_field (b := 40) (h := 7) (l := 7) h.b10 (by decide) (by decide) rfl rfl) rfl (by decide)
    (by decide) rfl (by decide) (by decide)

theorem csdDecodeHead_slices (csd : SdCsdStruct) :
    CsdHeadSlices (ofWords sdCsd) (csdDecodeHead sdCsd csd) := by
  have h := registerBytes sdCsd
  exact {
    csdStruct := toNat_field (b := 120) (h := 7) (l := 6) h.b0 (by decide) (by decide) rfl rfl
    taac := h.b1
    nsac := h.b2
    tranSpeed := h.b3
    ccc := csdDecodeHead_ccc sdCsd csd
    readBlLen := toNat_lowField (b := 80) (h := 3) h.b5 (by decide) rfl
    readBlPartial := toNat_field (b := 72) (h := 7) (l := 7) h.b6 (by decide) (by decide) rfl rfl
    writeBlkMisalign := toNat_field (b := 72) (h := 6) (l := 6) h.b6 (by decide) (by decide) rfl rfl
    readBlkMisalign := toNat_field (b := 72) (h := 5) (l := 5) h.b6 (by decide) (by decide) rfl rfl
    dspImp := toNat_field (b := 72) (h := 4) (l := 4) h.b6 (by decide) (by decide) rfl rfl }

section Tail

variable {sdCsd} {tempbyte : UInt8} {b : ℕ}
  (htemp : tempbyte.toNat = bits (ofWords sdCsd) (b + 7) b)

include htemp

/-- The two fields that are taken from what `tempbyte` holds are right exactly if it holds the
same as byte 10. -/
theorem csdDecodeTail_tempbyte (csd : SdCsdStruct) :
    ((csdDecodeTail sdCsd tempbyte csd).eraseBlkEn.toNat = bits (ofWords sdCsd) 46 46 ∧
      (csdDecodeTail sdCsd tempbyte csd).sectorSize.toNat = bits (ofWords sdCsd) 45 39) ↔
      bits (ofWords sdCsd) (b + 6) b = bits (ofWords sdCsd) 46 40 := by
  have h := registerBytes sdCsd
  have herase : (csdDecodeTail sdCsd tempbyte csd).eraseBlkEn.toNat =
      bits (ofWords sdCsd) (b + 6) (b + 6) :=
    toNat_field (h := 6) (l := 6) htemp (by decide) (by decide) rfl rfl
  have hlow : (tempbyte &&& 0x3F).toNat = bits (ofWords sdCsd) (b + 5) b :=
    toNat_lowField (h := 5) htemp (by decide) rfl
  have hlast : ((byte0 (sdCsd 2) &&& 0x80) >>> 7).toNat = bits (ofWords sdCsd) 39 39 :=
    toNat_field (b := 32) (h := 7) (l := 7) h.b11 (by decide) (by decide) rfl rfl
  have hlt : (tempbyte &&& 0x3F).toNat < 2 ^ 6 := by
    rw [hlow]
    exact (bits_lt _ _ _).trans_eq (by rw [show b + 5 + 1 - b = 6 by omega])
  have hbit : bits (ofWords sdCsd) 39 39 < 2 ^ 1 := bits_lt _ 39 39
  have hsector : (csdDecodeTail sdCsd tempbyte csd).sectorSize.toNat =
      bits (ofWords sdCsd) (b + 5) b * 2 + bits (ofWords sdCsd) 39 39 := by
    rw [csdDecodeTail, UInt8.toNat_or, toNat_shiftLeft8 (j := 1) 1 hlt rfl (by decide) (by decide),
      hlow, hlast, ← Nat.shiftLeft_add_eq_or_of_lt hbit, Nat.shiftLeft_eq, Nat.pow_one]
  have hsplit : bits (ofWords sdCsd) (b + 6) (b + 6) * 2 ^ 6 + bits (ofWords sdCsd) (b + 5) b =
      bits (ofWords sdCsd) (b + 6) b := bits_append rfl (by omega) (by omega) (by omega)
  have hsplit' : bits (ofWords sdCsd) 46 46 * 2 ^ 6 + bits (ofWords sdCsd) 45 40 =
      bits (ofWords sdCsd) 46 40 := bits_append rfl (by decide) (by decide) rfl
  have hspec : bits (ofWords sdCsd) 45 40 * 2 ^ 1 + bits (ofWords sdCsd) 39 39 =
      bits (ofWords sdCsd) 45 39 := bits_append rfl (by decide) (by decide) rfl
  have hlt' : bits (ofWords sdCsd) 45 40 < 2 ^ 6 := bits_lt _ 45 40
  rw [hlow] at hlt
  rw [herase, hsector, ← hsplit, ← hsplit', ← hspec]
  omega

theorem csdDecodeTail_slices_iff {csd : SdCsdStruct} (hhead : CsdHeadSlices (ofWords sdCsd) csd) :
    CsdSlices (ofWords sdCsd) (csdDecodeTail sdCsd tempbyte csd) ↔
      bits (ofWords sdCsd) (b + 6) b = bits (ofWords sdCsd) 46 40 := by
  have h := registerBytes sdCsd
  rw [← csdDecodeTail_tempbyte htemp csd]
  constructor
  · exact fun hs => ⟨hs.eraseBlkEn, hs.sectorSize⟩
  · rintro ⟨herase, hsector⟩
    exact {
      csdStruct := hhead.csdStruct
      taac := hhead.taac
      nsac := hhead.nsac
      tranSpeed := hhead.tranSpeed
      ccc := hhead.ccc
      readBlLen := hhead.readBlLen
      readBlPartial := hhead.readBlPartial
      writeBlkMisalign := hhead.writeBlkMisalign
      readBlkMisalign := hhead.readBlkMisalign
      dspImp := hhead.dspImp
      eraseBlkEn := herase
      sectorSize := hsector
      wpGrpSize := toNat_lowField (b := 32) (h := 6) h.b11 (by decide) rfl
      wpGrpEnable := toNat_field (b := 24) (h := 7) (l := 7) h.b12 (by decide) (by decide) rfl rfl
      r2wFactor := toNat_field (b := 24) (h := 4) (l := 2) h.b12 (by decide) (by decide) rfl rfl
      writeBlLen := toNat_twoFields 2
        (toNat_lowField (b := 24) (h := 1) h.b12 (by decide) rfl)
        (toNat_field (b := 16) (h := 7) (l := 6) h.b13 (by decide) (by decide) rfl rfl) rfl
        (by decide) (by decide) rfl (by decide) (by decide)
      writeBlPartial :=
        toNat_field (b := 16) (h := 5) (l := 5) h.b13 (by decide) (by decide) rfl rfl
      fileFormatGrp := toNat_field (b := 8) (h := 7) (l := 7) h.b14 (by decide) (by decide) rfl rfl
      copyFlag := toNat_field (b := 8) (h := 6) (l := 6) h.b14 (by decide) (by decide) rfl rfl
      permWriteProtect :=
        toNat_field (b := 8) (h := 5) (l := 5) h.b14 (by decide) (by decide) rfl rfl
      tmpWriteProtect :=
        toNat_field (b := 8) (h := 4) (l := 4) h.b14 (by decide) (by decide) rfl rfl
      fileFormat := toNat_field (b := 8) (h := 3) (l := 2) h.b14 (by decide) (by decide) rfl rfl
      csdCrc := toNat_field (b := 0) (h := 7) (l := 1) h.b15 (by decide) (by decide) rfl rfl }

end Tail

/-- The layout of version 1.0 is decoded as it is specified. -/
theorem csdDecodeV1_slices (csd : SdCsdStruct) :
    CsdSlicesV1 (ofWords sdCsd) (csdDecodeTail sdCsd (byte1 (sdCsd 2))
      (csdDecodeV1 sdCsd (csdDecodeHead sdCsd csd))) := by
  have h := registerBytes sdCsd
  have hhead : CsdHeadSlices (ofWords sdCsd) (csdDecodeV1 sdCsd (csdDecodeHead sdCsd csd)) :=
    { csdDecodeHead_slices sdCsd csd with }
  exact {
    (csdDecodeTail_slices_iff (b := 40) h.b10 hhead).2 rfl with
    cSize := csdDecodeV1_cSize sdCsd (csdDecodeHead sdCsd csd)
    vddRCurrMin := toNat_field (b := 56) (h := 5) (l := 3) h.b8 (by decide) (by decide) rfl rfl
    vddRCurrMax := toNat_lowField (b := 56) (h := 2) h.b8 (by decide) rfl
    vddWCurrMin := toNat_field (b := 48) (h := 7) (l := 5) h.b9 (by decide) (by decide) rfl rfl
    vddWCurrMax := toNat_field (b := 48) (h := 4) (l := 2) h.b9 (by decide) (by decide) rfl rfl
    cSizeMult := csdDecodeV1_cSizeMult sdCsd (csdDecodeHead sdCsd csd) }

/-- In the layout of version 2.0 `tempbyte` holds byte 9 where it should hold byte 10. -/
theorem csdDecodeV2_slices_iff (csd : SdCsdStruct) :
    CsdSlicesV2 (ofWords sdCsd) (csdDecodeTail sdCsd (byte2 (sdCsd 2))
        (csdDecodeV2 sdCsd (csdDecodeHead sdCsd csd))) ↔
      bits (ofWords sdCsd) 54 48 = bits (ofWords sdCsd) 46 40 := by
  have h := registerBytes sdCsd
  have hhead : CsdHeadSlices (ofWords sdCsd) (csdDecodeV2 sdCsd (csdDecodeHead sdCsd csd)) :=
    { csdDecodeHead_slices sdCsd csd with }
  have htail := csdDecodeTail_slices_iff (b := 48) h.b9 hhead
  constructor
  · exact fun hs => htail.1 hs.toCsdSlices
  · exact fun heq =>
      { htail.2 heq with cSize := csdDecodeV2_cSize sdCsd (csdDecodeHead sdCsd csd) }

end Csd

/-- What is stored for a standard-capacity card. -/
theorem sdCardInformationGet_standard {drv : Driver} (pcardinfo : SdCardInfo)
    (h : drv.cardtype = .stdCapacitySdCardV11 ∨ drv.cardtype = .stdCapacitySdCardV20) :
    ∃ info, sdCardInformationGet drv (some pcardinfo) = (.ok, some info) ∧
      info.cardCsd = csdDecodeTail drv.sdCsd (byte1 (drv.sdCsd 2))
        (csdDecodeV1 drv.sdCsd (csdDecodeHead drv.sdCsd pcardinfo.cardCsd)) ∧
      info.cardBlocksize = 1 <<< info.cardCsd.readBlLen.toUInt32 ∧
      info.cardCapacity = (info.cardCsd.cSize + 1) *
        ((1 : UInt32) <<< (info.cardCsd.cSizeMult.toUInt32 + 2)) * info.cardBlocksize := by
  simp only [sdCardInformationGet, h, if_true]
  exact ⟨_, rfl, rfl, rfl, rfl⟩

/-- What is stored for a high-capacity card. -/
theorem sdCardInformationGet_highCapacity {drv : Driver} (pcardinfo : SdCardInfo)
    (h : drv.cardtype = .highCapacitySdCard) :
    ∃ info, sdCardInformationGet drv (some pcardinfo) = (.ok, some info) ∧
      info.cardCsd = csdDecodeTail drv.sdCsd (byte2 (drv.sdCsd 2))
        (csdDecodeV2 drv.sdCsd (csdDecodeHead drv.sdCsd pcardinfo.cardCsd)) ∧
      info.cardBlocksize = 512 ∧ info.cardCapacity = (info.cardCsd.cSize + 1) * 512 * 1024 := by
  have hno : ¬ (CardType.highCapacitySdCard = .stdCapacitySdCardV11 ∨
      CardType.highCapacitySdCard = .stdCapacitySdCardV20) := by decide
  simp only [sdCardInformationGet, h, hno, if_true, if_false]
  exact ⟨_, rfl, rfl, rfl, rfl⟩

/-- The call succeeds whatever the type of the card is. -/
theorem sdCardInformationGet_ok (drv : Driver) (pcardinfo : SdCardInfo) :
    ∃ info, sdCardInformationGet drv (some pcardinfo) = (.ok, some info) := by
  unfold sdCardInformationGet
  dsimp only
  split_ifs
  · exact ⟨_, rfl⟩
  · exact ⟨_, rfl⟩
  · exact ⟨_, rfl⟩

/-- The fields of the CSD are right for a standard-capacity card, and for a high-capacity card
exactly if byte 9 of the register holds the same as byte 10 in all bits but the first. -/
theorem csdDecoded_iff (drv : Driver) (pcardinfo : SdCardInfo) :
    CsdDecoded drv pcardinfo ↔ (drv.cardtype = .highCapacitySdCard →
      bits (ofWords drv.sdCsd) 54 48 = bits (ofWords drv.sdCsd) 46 40) := by
  constructor
  · rintro ⟨info, heq, -, hslices⟩ hhigh
    obtain ⟨info', heq', hcsd, -⟩ := sdCardInformationGet_highCapacity pcardinfo hhigh
    obtain rfl : info = info' := Option.some_inj.1 (Prod.ext_iff.1 (heq.symm.trans heq')).2
    rw [← csdDecodeV2_slices_iff drv.sdCsd pcardinfo.cardCsd, ← hcsd]
    exact hslices hhigh
  · intro hhigh
    obtain ⟨info, heq⟩ := sdCardInformationGet_ok drv pcardinfo
    refine ⟨info, heq, fun h => ?_, fun h => ?_⟩
    · obtain ⟨info', heq', hcsd, -⟩ := sdCardInformationGet_standard pcardinfo h
      obtain rfl : info = info' := Option.some_inj.1 (Prod.ext_iff.1 (heq.symm.trans heq')).2
      rw [hcsd]
      exact csdDecodeV1_slices drv.sdCsd pcardinfo.cardCsd
    · obtain ⟨info', heq', hcsd, -⟩ := sdCardInformationGet_highCapacity pcardinfo h
      obtain rfl : info = info' := Option.some_inj.1 (Prod.ext_iff.1 (heq.symm.trans heq')).2
      rw [hcsd, csdDecodeV2_slices_iff]
      exact hhigh h

/-- A card of 8 GB, as one of high capacity answers : `SECTOR_SIZE` is `0x7F`. -/
theorem not_csdDecoded_highCapacity :
    ¬ CsdDecoded { Driver.initial with
        cardtype := .highCapacitySdCard
        sdCsd := ![0x400E0032, 0x5B590000, 0x3B377F80, 0x0A400001] }
      Driver.initial.sdCardinfo := by
  rintro ⟨info, heq, -, hslices⟩
  obtain rfl := Option.some_inj.1 (Prod.ext_iff.1 heq).2
  exact absurd (hslices rfl).sectorSize (by decide +kernel)

end Gd32Firmware
