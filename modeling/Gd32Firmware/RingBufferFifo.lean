import Gd32Firmware.RingBuffer
import Mathlib.Data.Nat.Bitwise

/-!
# The ring buffer as a queue that overwrites its oldest bytes

As long as `mirror` says which index is ahead (`Synced`), a write is exactly the bounded
queue `overwrite` with room for `size - 1` bytes, unless the writer misses that the buffer
is full. It compares `mirror` with bit 15 of the write index, which is set or clear for
reasons of its own : below 32768 cells the test succeeds only while the read index is `0`,
above only while the read index is past 32768. `Fits` is the resulting condition on a
write. A write outside it empties the buffer at its first unseen overflow.
-/

namespace Gd32Firmware

/-- `mirror` is inverted exactly while the write index is a lap ahead. -/
structure Synced (rb : RingBuffer) : Prop extends WellFormed rb where
  mirror : rb.mirror = if rb.writeIndex.toNat < rb.readIndex.toNat then 0xFFFF else 0

/-- A write of `n` bytes does not overflow, or overflows where the writer can see it. -/
def Fits (rb : RingBuffer) (n : ℕ) : Prop :=
  let size := rb.size.toNat
  let read := rb.readIndex.toNat
  rb.available + n ≤ size - 1 ∨
    (size ≤ 32768 ∧ read = 0 ∧ rb.available + n = size) ∨
    (32768 < read ∧ read + (rb.available + n - (size - 1)) ≤ size)

/-- The condition on the operations of a run : every write fits. -/
def WritesFit (rb : RingBuffer) : RingOp → Prop
  | .write data => Fits rb data.length
  | .read _ | .reset => True

/-- The write drops exactly the bytes that are one too many, oldest first. -/
def OverwritesOldest (rb : RingBuffer) (data : List UInt8) : Prop :=
  let after := (ringBufferWrite rb data).1
  (ringBufferAvailableRead after).toNat =
      min (rb.size.toNat - 1) ((ringBufferAvailableRead rb).toNat + data.length) ∧
    after.pending = overwrite (rb.size.toNat - 1) rb.pending data

/-! ## The mirror word -/

theorem synced_init (buffer : ℕ → UInt8) {size : UInt16} (hsize : 2 ≤ size) :
    Synced (ringBufferInit buffer size) := by
  have h2 : 2 ≤ size.toNat := by simpa [UInt16.le_iff_toNat_le] using hsize
  exact ⟨⟨h2, show 0 < size.toNat by omega, show 0 < size.toNat by omega⟩, rfl⟩

/-- Bit 15 of an index. -/
theorem and_bit15 (w : UInt16) :
    w &&& 0x8000 = if w.toNat < 32768 then 0 else 0x8000 := by
  have hlt := w.toNat_lt
  rw [← UInt16.toNat_inj, UInt16.toNat_and,
    show (0x8000 : UInt16).toNat = 2 ^ 15 from rfl, Nat.and_two_pow,
    Nat.testBit_eq_decide_div_mod_eq]
  split_ifs with h
  · rw [show w.toNat / 2 ^ 15 = 0 by omega]
    rfl
  · rw [show w.toNat / 2 ^ 15 = 1 by omega]
    rfl

section Synced

variable {rb : RingBuffer} (hs : Synced rb)
include hs

theorem Synced.advanceRead (hne : rb.available ≠ 0) : Synced rb.advanceRead := by
  refine ⟨hs.toWellFormed.advanceRead, ?_⟩
  rw [hs.available_eq] at hne
  obtain ⟨⟨hN, hw, hr⟩, hm⟩ := hs
  simp only [RingBuffer.advanceRead, nextIndex_eq_zero hr, nextIndex_toNat hr, succ_mod hr, hm]
  split_ifs at hne ⊢ <;> first | rfl | omega

theorem Synced.storeByte (byte : UInt8) (hroom : rb.available + 1 < rb.size.toNat) :
    Synced (rb.storeByte byte) := by
  refine ⟨hs.toWellFormed.storeByte byte, ?_⟩
  rw [hs.available_eq] at hroom
  obtain ⟨⟨hN, hw, hr⟩, hm⟩ := hs
  simp only [RingBuffer.storeByte, nextIndex_eq_zero hw, nextIndex_toNat hw, succ_mod hw, hm]
  split_ifs at hroom ⊢ <;> first | rfl | omega

theorem Synced.afterRead : ∀ n, Synced (ringBufferRead rb n).1 := by
  intro n
  induction n generalizing rb with
  | zero => exact hs
  | succ n ih =>
    rw [ringBufferRead]
    split_ifs with h
    · refine ih (hs.advanceRead fun h0 => h ?_)
      have hwe := hs.write_eq
      rw [h0, Nat.add_zero, Nat.mod_eq_of_lt hs.read] at hwe
      exact UInt16.toNat_inj.1 hwe.symm
    · exact hs

theorem Synced.afterReset : Synced (ringBufferReset rb) := by
  have hN := hs.size
  exact ⟨⟨hN, show 0 < rb.size.toNat by omega, show 0 < rb.size.toNat by omega⟩, rfl⟩

/-- Where a full buffer is seen to be full. -/
theorem Synced.seesFull_iff (hfull : rb.available + 1 = rb.size.toNat) :
    rb.seesFull = true ↔
      (rb.readIndex.toNat = 0 ∧ rb.size.toNat ≤ 32768) ∨ 32768 < rb.readIndex.toNat := by
  have hnext := hs.next_eq_read.2 hfull
  rw [hs.available_eq] at hfull
  obtain ⟨⟨hN, hw, hr⟩, hm⟩ := hs
  rw [RingBuffer.seesFull, decide_eq_true_iff, hm, and_bit15 rb.writeIndex]
  by_cases hahead : rb.writeIndex.toNat < rb.readIndex.toNat
  · -- the write index is just below the read index, a lap ahead
    rw [if_pos hahead] at hfull ⊢
    by_cases hbit : rb.writeIndex.toNat < 32768
    · rw [if_pos hbit]
      exact iff_of_false (fun h => absurd h.2 (by decide)) (by omega)
    · rw [if_neg hbit]
      exact iff_of_true ⟨hnext, by decide⟩ (by omega)
  · -- the indices are the two ends of the array
    rw [if_neg hahead] at hfull ⊢
    by_cases hbit : rb.writeIndex.toNat < 32768
    · rw [if_pos hbit]
      exact iff_of_true ⟨hnext, by decide⟩ (by omega)
    · rw [if_neg hbit]
      exact iff_of_false (fun h => absurd h.2 (by decide)) (by omega)

/-- A byte that is seen to overflow moves the read index on. -/
theorem Synced.writeByte_readIndex (byte : UInt8) (h : rb.seesFull = true) :
    (rb.readIndex.toNat + 1 = rb.size.toNat ∧ (rb.writeByte byte).readIndex.toNat = 0) ∨
      (rb.readIndex.toNat + 1 < rb.size.toNat ∧
        (rb.writeByte byte).readIndex.toNat = rb.readIndex.toNat + 1) := by
  have hread : (rb.writeByte byte).readIndex.toNat =
      if rb.readIndex.toNat + 1 = rb.size.toNat then 0 else rb.readIndex.toNat + 1 := by
    rw [← succ_mod hs.read, ← nextIndex_toNat hs.read, RingBuffer.writeByte, if_pos h]
    rfl
  have hlt := hs.read
  rw [hread]
  split_ifs with hend
  · exact Or.inl ⟨hend, rfl⟩
  · exact Or.inr ⟨by omega, rfl⟩

/-- A byte that is seen to overflow keeps the mirror word right. -/
theorem Synced.writeByte_of_seesFull (byte : UInt8) (h : rb.seesFull = true) :
    Synced (rb.writeByte byte) := by
  have hfull : rb.available + 1 = rb.size.toNat := by
    rw [← hs.next_eq_read]
    exact (of_decide_eq_true h).1
  have hne : rb.available ≠ 0 := by have := hs.size; omega
  rw [RingBuffer.writeByte, if_pos h]
  refine (hs.advanceRead hne).storeByte byte ?_
  rw [hs.advanceRead_available hne]
  exact hs.available_lt

end Synced

/-! ## One write -/

theorem writeByte_size (rb : RingBuffer) (byte : UInt8) : (rb.writeByte byte).size = rb.size := by
  unfold RingBuffer.writeByte RingBuffer.storeByte
  split_ifs <;> rfl

theorem ringBufferWrite_cons (rb : RingBuffer) (byte : UInt8) (data : List UInt8) :
    (ringBufferWrite rb (byte :: data)).1 = (ringBufferWrite (rb.writeByte byte) data).1 :=
  rfl

/-- Without an overflow, the bytes are appended whatever the mirror word is. -/
theorem write_of_room (data : List UInt8) {rb : RingBuffer} (hwf : WellFormed rb)
    (h : rb.available + data.length < rb.size.toNat) :
    WellFormed (ringBufferWrite rb data).1 ∧
      (ringBufferWrite rb data).1.available = rb.available + data.length := by
  induction data generalizing rb with
  | nil => exact ⟨hwf, rfl⟩
  | cons byte data ih =>
    rw [List.length_cons] at h ⊢
    have hroom : rb.available + 1 < rb.size.toNat := by omega
    have hav := hwf.storeByte_available byte hroom
    rw [ringBufferWrite_cons, hwf.writeByte_of_room byte hroom]
    obtain ⟨hwf', heq⟩ := ih (hwf.storeByte byte) (by
      show _ < rb.size.toNat
      omega)
    exact ⟨hwf', by omega⟩

/-- After the first byte, the rest of a write that fits still fits. -/
theorem Fits.tail {rb : RingBuffer} (hs : Synced rb) (byte : UInt8) {n : ℕ}
    (h : Fits rb (n + 1)) :
    Synced (rb.writeByte byte) ∧ Fits (rb.writeByte byte) n ∧
      (rb.writeByte byte).pending = overwrite (rb.size.toNat - 1) rb.pending [byte] := by
  have hlt := hs.available_lt
  have hN := hs.size
  by_cases hroom : rb.available + 1 < rb.size.toNat
  · have hav := hs.storeByte_available byte hroom
    rw [hs.writeByte_of_room byte hroom, hs.storeByte_pending byte hroom,
      overwrite_singleton_of_lt (by rw [RingBuffer.length_pending]; omega)]
    refine ⟨hs.storeByte byte hroom, ?_, rfl⟩
    unfold Fits at h ⊢
    rw [hav]
    simp only [RingBuffer.storeByte] at h ⊢
    omega
  · have hfull : rb.available + 1 = rb.size.toNat := by omega
    have hsees : rb.seesFull = true := by
      rw [hs.seesFull_iff hfull]
      unfold Fits at h
      simp only at h
      omega
    obtain ⟨hav, hpend⟩ := hs.toWellFormed.writeByte_of_seesFull byte hsees
    refine ⟨hs.writeByte_of_seesFull byte hsees, ?_, ?_⟩
    · have hread := hs.writeByte_readIndex byte hsees
      unfold Fits at h ⊢
      rw [hav, writeByte_size]
      simp only at h ⊢
      omega
    · rw [hpend, overwrite_singleton_of_full (by omega)]
      rw [RingBuffer.length_pending]
      omega

/-- A write that fits is the bounded queue's, and keeps the mirror word right. -/
theorem write_of_fits (data : List UInt8) {rb : RingBuffer} (hs : Synced rb)
    (h : Fits rb data.length) :
    Synced (ringBufferWrite rb data).1 ∧
      (ringBufferWrite rb data).1.pending = overwrite (rb.size.toNat - 1) rb.pending data := by
  have hle {rb : RingBuffer} (hs : Synced rb) : rb.pending.length ≤ rb.size.toNat - 1 := by
    rw [RingBuffer.length_pending]
    exact Nat.le_sub_one_of_lt hs.available_lt
  induction data generalizing rb with
  | nil => exact ⟨hs, (overwrite_nil (hle hs)).symm⟩
  | cons byte data ih =>
    obtain ⟨hs', hfits, hpend⟩ := Fits.tail hs byte h
    obtain ⟨hsynced, heq⟩ := ih hs' hfits
    have hN := hs.size
    rw [ringBufferWrite_cons]
    refine ⟨hsynced, ?_⟩
    rw [heq, writeByte_size, hpend, ← overwrite_cons (by omega) (hle hs)]

/-- A write of fewer bytes than the buffer has cells, that does not fit, loses bytes that
it should have kept. -/
theorem write_of_not_fits (data : List UInt8) {rb : RingBuffer} (hs : Synced rb)
    (hlen : data.length < rb.size.toNat) (h : ¬ Fits rb data.length) :
    WellFormed (ringBufferWrite rb data).1 ∧
      (ringBufferWrite rb data).1.available + 1 < rb.size.toNat := by
  induction data generalizing rb with
  | nil =>
    have hlt := hs.available_lt
    exact absurd (Or.inl (by simp only [List.length_nil]; omega)) h
  | cons byte data ih =>
    rw [List.length_cons] at h hlen
    have hlt := hs.available_lt
    have hN := hs.size
    rw [ringBufferWrite_cons]
    by_cases hroom : rb.available + 1 < rb.size.toNat
    · have hav := hs.storeByte_available byte hroom
      rw [hs.writeByte_of_room byte hroom]
      refine ih (hs.storeByte byte hroom) (Nat.lt_of_succ_lt hlen) fun hf => h ?_
      unfold Fits at hf ⊢
      rw [hav] at hf
      simp only [RingBuffer.storeByte] at hf ⊢
      omega
    · have hfull : rb.available + 1 = rb.size.toNat := by omega
      cases hsees : rb.seesFull with
      | true =>
        obtain ⟨hav, -⟩ := hs.toWellFormed.writeByte_of_seesFull byte hsees
        have hread := hs.writeByte_readIndex byte hsees
        have hwhere := (hs.seesFull_iff hfull).1 hsees
        rw [← writeByte_size rb byte]
        refine ih (hs.writeByte_of_seesFull byte hsees) (by rw [writeByte_size]; omega)
          fun hf => h ?_
        unfold Fits at hf ⊢
        rw [hav, writeByte_size] at hf
        simp only at hf ⊢
        omega
      | false =>
        -- the buffer now looks empty, and too few bytes follow to fill it
        have hav := hs.writeByte_of_not_seesFull byte hsees hfull
        obtain ⟨hwf', heq⟩ := write_of_room data (hs.toWellFormed.writeByte byte) (by
          rw [hav, writeByte_size]
          omega)
        exact ⟨hwf', by omega⟩

/-! ## Every run -/

/-- A step whose write fits keeps the mirror word right. -/
theorem synced_step (rb : RingBuffer) (op : RingOp) (hs : Synced rb) (hop : WritesFit rb op) :
    Synced (ringMachine.step rb op).1 := by
  cases op with
  | write data => exact (write_of_fits data hs hop).1
  | read size => exact hs.afterRead _
  | reset => exact hs.afterReset

/-- In a run whose writes fit, a write drops exactly the oldest bytes if it fits, and
only then, when it is shorter than the buffer. -/
theorem ringBufferWrite_overwritesOldest (buffer : ℕ → UInt8) (size : UInt16) (hsize : 2 ≤ size)
    (ops : List RingOp) (hops : ringMachine.Along WritesFit (ringBufferInit buffer size) ops)
    (data : List UInt8) :
    let rb := ringMachine.run (ringBufferInit buffer size) ops
    (Fits rb data.length → OverwritesOldest rb data) ∧
      (data.length < rb.size.toNat → OverwritesOldest rb data → Fits rb data.length) := by
  intro rb
  have hs : Synced rb :=
    ringMachine.run_invariant_of_along synced_step ops (synced_init buffer hsize) hops
  constructor
  · intro h
    obtain ⟨hs', hpend⟩ := write_of_fits data hs h
    refine ⟨?_, hpend⟩
    rw [hs'.availableRead_toNat, hs.availableRead_toNat, ← RingBuffer.length_pending, hpend,
      length_overwrite, RingBuffer.length_pending]
  · rintro hlen ⟨hav, -⟩
    by_contra h
    obtain ⟨hwf', hlt⟩ := write_of_not_fits data hs hlen h
    have hover : ¬ rb.available + data.length ≤ rb.size.toNat - 1 := fun hle => h (Or.inl hle)
    rw [hwf'.availableRead_toNat, hs.availableRead_toNat] at hav
    omega

/-- Three bytes into four cells, one of them read again. -/
theorem ringBufferWrite_overwritesOldest_three :
    let rb := ringMachine.run (ringBufferInit (fun _ => 0) 4) [.write [1, 2, 3], .read 1]
    (Fits rb 1 → OverwritesOldest rb [4]) ∧
      (1 < rb.size.toNat → OverwritesOldest rb [4] → Fits rb 1) :=
  ringBufferWrite_overwritesOldest (fun _ => 0) 4 (by decide) [.write [1, 2, 3], .read 1]
    ⟨by unfold WritesFit Fits; decide, trivial, trivial⟩ [4]

/-- The fifth byte of a buffer of four cells empties it. -/
theorem ringBufferWrite_loses :
    ¬ OverwritesOldest (ringMachine.run (ringBufferInit (fun _ => 0) 4) [.write [1, 2, 3], .read 1])
      [4, 5] := by
  rintro ⟨hav, -⟩
  exact absurd hav (by decide)

end Gd32Firmware
