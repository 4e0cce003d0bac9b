import Gd32Firmware.Machine
import Gd32Firmware.OverwriteQueue
import Mathlib.Data.UInt

/-!
# The ring buffer

`module/ringbuffer/ringbuffer.c` : an array with a write index, a read index and a 16-bit
word `mirror` that is inverted whenever either index comes round to zero. One cell stays
free, so a buffer of `size` cells holds `size - 1` bytes. A write into a full buffer is
meant to drop the oldest byte; whether the writer sees that the buffer is full depends on
bit 15 of `mirror` and of the write index.
-/

namespace Gd32Firmware

/-- A `ring_buffer_t` with the array it points to. -/
structure RingBuffer where
  buffer : ℕ → UInt8
  size : UInt16
  writeIndex : UInt16
  readIndex : UInt16
  mirror : UInt16

/-- `(index + 1) % size`, computed as an `int`. -/
def nextIndex (index size : UInt16) : UInt16 :=
  UInt16.ofNat ((index.toNat + 1) % size.toNat)

def ringBufferInit (buffer : ℕ → UInt8) (size : UInt16) : RingBuffer :=
  { buffer := buffer, size := size, writeIndex := 0, readIndex := 0, mirror := 0 }

/-- Move the read index on, in the reader and in a writer that drops a byte. -/
def RingBuffer.advanceRead (rb : RingBuffer) : RingBuffer :=
  let readIndex := nextIndex rb.readIndex rb.size
  { rb with readIndex := readIndex, mirror := if readIndex = 0 then ~~~rb.mirror else rb.mirror }

/-- Store a byte and move the write index on. -/
def RingBuffer.storeByte (rb : RingBuffer) (byte : UInt8) : RingBuffer :=
  let writeIndex := nextIndex rb.writeIndex rb.size
  { rb with
    buffer := Function.update rb.buffer rb.writeIndex.toNat byte
    writeIndex := writeIndex
    mirror := if writeIndex = 0 then ~~~rb.mirror else rb.mirror }

/-- The writer's test for a full buffer. -/
def RingBuffer.seesFull (rb : RingBuffer) : Bool :=
  nextIndex rb.writeIndex rb.size = rb.readIndex ∧
    rb.mirror &&& 0x8000 = rb.writeIndex &&& 0x8000

/-- The body of the loop of `ring_buffer_write`. -/
def RingBuffer.writeByte (rb : RingBuffer) (byte : UInt8) : RingBuffer :=
  (if rb.seesFull then rb.advanceRead else rb).storeByte byte

/-- `ring_buffer_write` of all the data, with the number of bytes written. -/
def ringBufferWrite (rb : RingBuffer) (data : List UInt8) : RingBuffer × UInt16 :=
  (data.foldl RingBuffer.writeByte rb, UInt16.ofNat data.length)

/-- `ring_buffer_read` of at most `size` bytes : the bytes, oldest first. -/
def ringBufferRead (rb : RingBuffer) : ℕ → RingBuffer × List UInt8
  | 0 => (rb, [])
  | size + 1 =>
    if rb.readIndex ≠ rb.writeIndex then
      let rest := ringBufferRead rb.advanceRead size
      (rest.1, rb.buffer rb.readIndex.toNat :: rest.2)
    else (rb, [])

/-- `ring_buffer_available_read`, in 16-bit arithmetic. -/
def ringBufferAvailableRead (rb : RingBuffer) : UInt16 :=
  let temp := if rb.readIndex > rb.writeIndex then rb.writeIndex + rb.size else rb.writeIndex
  temp - rb.readIndex

def ringBufferReset (rb : RingBuffer) : RingBuffer :=
  { rb with writeIndex := 0, readIndex := 0, mirror := 0 }

/-- What the program can do to a buffer. -/
inductive RingOp where
  | write (data : List UInt8)
  | read (size : UInt16)
  | reset

/-- The buffer as a state machine. A read is answered with the bytes it copies. -/
def ringMachine : Machine RingBuffer RingOp (List UInt8) where
  step rb
    | .write data => ((ringBufferWrite rb data).1, [])
    | .read size => ringBufferRead rb size.toNat
    | .reset => (ringBufferReset rb, [])

/-! ## Well-formed buffers -/

/-- The indices are in the array. -/
structure InBounds (rb : RingBuffer) : Prop where
  write : rb.writeIndex.toNat < rb.size.toNat
  read : rb.readIndex.toNat < rb.size.toNat

/-- The indices are in the array, which has room for a byte. -/
structure WellFormed (rb : RingBuffer) : Prop where
  size : 2 ≤ rb.size.toNat
  write : rb.writeIndex.toNat < rb.size.toNat
  read : rb.readIndex.toNat < rb.size.toNat

/-- How many bytes wait to be read. -/
def RingBuffer.available (rb : RingBuffer) : ℕ :=
  (rb.writeIndex.toNat + rb.size.toNat - rb.readIndex.toNat) % rb.size.toNat

/-- The bytes that wait to be read, oldest first. -/
def RingBuffer.pending (rb : RingBuffer) : List UInt8 :=
  segment rb.buffer rb.size.toNat rb.readIndex.toNat rb.available

@[simp] theorem RingBuffer.length_pending (rb : RingBuffer) : rb.pending.length = rb.available :=
  length_segment ..

theorem nextIndex_toNat {index size : UInt16} (h : index.toNat < size.toNat) :
    (nextIndex index size).toNat = (index.toNat + 1) % size.toNat := by
  have hlt : (index.toNat + 1) % size.toNat < size.toNat := Nat.mod_lt _ (by omega)
  exact UInt16.toNat_ofNat_of_lt' (hlt.trans size.toNat_lt)

/-- Successors in a ring, without the remainder. -/
theorem succ_mod {i n : ℕ} (h : i < n) : (i + 1) % n = if i + 1 = n then 0 else i + 1 := by
  split_ifs with heq
  · rw [heq, Nat.mod_self]
  · exact Nat.mod_eq_of_lt (by omega)

theorem nextIndex_eq_zero {index size : UInt16} (h : index.toNat < size.toNat) :
    nextIndex index size = 0 ↔ index.toNat + 1 = size.toNat := by
  rw [← UInt16.toNat_inj, nextIndex_toNat h, succ_mod h]
  split_ifs with heq <;> simp [heq]

section InBounds

variable {rb : RingBuffer} (hin : InBounds rb)
include hin

theorem InBounds.advanceRead : InBounds rb.advanceRead where
  write := hin.write
  read := by
    show (nextIndex rb.readIndex rb.size).toNat < rb.size.toNat
    rw [nextIndex_toNat hin.read]
    exact Nat.mod_lt _ (by have := hin.read; omega)

theorem InBounds.storeByte (byte : UInt8) : InBounds (rb.storeByte byte) where
  write := by
    show (nextIndex rb.writeIndex rb.size).toNat < rb.size.toNat
    rw [nextIndex_toNat hin.write]
    exact Nat.mod_lt _ (by have := hin.write; omega)
  read := hin.read

theorem InBounds.writeByte (byte : UInt8) : InBounds (rb.writeByte byte) := by
  unfold RingBuffer.writeByte
  split_ifs
  · exact hin.advanceRead.storeByte byte
  · exact hin.storeByte byte

end InBounds

section WellFormed

variable {rb : RingBuffer} (hwf : WellFormed rb)
include hwf

theorem WellFormed.available_eq :
    rb.available = if rb.writeIndex.toNat < rb.readIndex.toNat
      then rb.writeIndex.toNat + rb.size.toNat - rb.readIndex.toNat
      else rb.writeIndex.toNat - rb.readIndex.toNat := by
  obtain ⟨hN, hw, hr⟩ := hwf
  unfold RingBuffer.available
  split_ifs with h
  · exact Nat.mod_eq_of_lt (by omega)
  · rw [show rb.writeIndex.toNat + rb.size.toNat - rb.readIndex.toNat =
      rb.writeIndex.toNat - rb.readIndex.toNat + rb.size.toNat by omega, Nat.add_mod_right]
    exact Nat.mod_eq_of_lt (by omega)

theorem WellFormed.available_lt : rb.available < rb.size.toNat :=
  Nat.mod_lt _ (by have := hwf.size; omega)

/-- The 16-bit computation of `ring_buffer_available_read` is exact. -/
theorem WellFormed.availableRead_toNat : (ringBufferAvailableRead rb).toNat = rb.available := by
  rw [hwf.available_eq]
  obtain ⟨hN, hw, hr⟩ := hwf
  have hsize := rb.size.toNat_lt
  unfold ringBufferAvailableRead
  simp only [gt_iff_lt, UInt16.lt_iff_toNat_lt]
  split_ifs with h
  · rw [UInt16.toNat_sub, UInt16.toNat_add]
    omega
  · rw [UInt16.toNat_sub]
    omega

/-- The write index is where the pending bytes end. -/
theorem WellFormed.write_eq :
    rb.writeIndex.toNat = (rb.readIndex.toNat + rb.available) % rb.size.toNat := by
  rw [hwf.available_eq]
  obtain ⟨hN, hw, hr⟩ := hwf
  split_ifs with h
  · rw [show rb.readIndex.toNat + (rb.writeIndex.toNat + rb.size.toNat - rb.readIndex.toNat) =
      rb.writeIndex.toNat + rb.size.toNat by omega, Nat.add_mod_right, Nat.mod_eq_of_lt hw]
  · rw [show rb.readIndex.toNat + (rb.writeIndex.toNat - rb.readIndex.toNat) =
      rb.writeIndex.toNat by omega, Nat.mod_eq_of_lt hw]

/-- The indices meet exactly if the buffer is one byte short of its size. -/
theorem WellFormed.next_eq_read :
    nextIndex rb.writeIndex rb.size = rb.readIndex ↔ rb.available + 1 = rb.size.toNat := by
  rw [← UInt16.toNat_inj, nextIndex_toNat hwf.write, succ_mod hwf.write, hwf.available_eq]
  obtain ⟨hN, hw, hr⟩ := hwf
  split_ifs <;> omega

theorem WellFormed.inBounds : InBounds rb :=
  ⟨hwf.write, hwf.read⟩

theorem WellFormed.advanceRead : WellFormed rb.advanceRead :=
  ⟨hwf.size, hwf.inBounds.advanceRead.write, hwf.inBounds.advanceRead.read⟩

theorem WellFormed.storeByte (byte : UInt8) : WellFormed (rb.storeByte byte) :=
  ⟨hwf.size, (hwf.inBounds.storeByte byte).write, (hwf.inBounds.storeByte byte).read⟩

theorem WellFormed.writeByte (byte : UInt8) : WellFormed (rb.writeByte byte) := by
  unfold RingBuffer.writeByte
  split_ifs
  · exact hwf.advanceRead.storeByte byte
  · exact hwf.storeByte byte

/-- A byte leaves at the read index. -/
theorem WellFormed.advanceRead_available (h : rb.available ≠ 0) :
    rb.advanceRead.available + 1 = rb.available := by
  rw [hwf.advanceRead.available_eq, hwf.available_eq]
  rw [hwf.available_eq] at h
  simp only [RingBuffer.advanceRead, nextIndex_toNat hwf.read, succ_mod hwf.read]
  obtain ⟨hN, hw, hr⟩ := hwf
  split_ifs at h ⊢ <;> omega

theorem WellFormed.pending_eq_cons (h : rb.available ≠ 0) :
    rb.pending = rb.buffer rb.readIndex.toNat :: rb.advanceRead.pending := by
  rw [RingBuffer.pending, ← hwf.advanceRead_available h, segment_succ', Nat.mod_eq_of_lt hwf.read,
    ← nextIndex_toNat hwf.read]
  rfl

/-- There is room : a stored byte joins the pending ones. -/
theorem WellFormed.storeByte_available (byte : UInt8) (h : rb.available + 1 < rb.size.toNat) :
    (rb.storeByte byte).available = rb.available + 1 := by
  rw [(hwf.storeByte byte).available_eq, hwf.available_eq]
  rw [hwf.available_eq] at h
  simp only [RingBuffer.storeByte, nextIndex_toNat hwf.write, succ_mod hwf.write]
  obtain ⟨hN, hw, hr⟩ := hwf
  split_ifs at h ⊢ <;> omega

theorem WellFormed.storeByte_pending (byte : UInt8) (h : rb.available + 1 < rb.size.toNat) :
    (rb.storeByte byte).pending = rb.pending ++ [byte] := by
  rw [RingBuffer.pending, hwf.storeByte_available byte h]
  simp only [RingBuffer.storeByte, hwf.write_eq]
  rw [segment_succ, Function.update_self, segment_update _ _ _ _ (by omega)]
  rfl

/-- There is none : a stored byte makes the buffer look empty. -/
theorem WellFormed.storeByte_full (byte : UInt8) (h : rb.available + 1 = rb.size.toNat) :
    (rb.storeByte byte).available = 0 := by
  have hnext := hwf.next_eq_read.2 h
  rw [(hwf.storeByte byte).available_eq]
  simp [RingBuffer.storeByte, hnext]

/-- With room, the test for a full buffer fails. -/
theorem WellFormed.writeByte_of_room (byte : UInt8) (h : rb.available + 1 < rb.size.toNat) :
    rb.writeByte byte = rb.storeByte byte := by
  have hnext : ¬ nextIndex rb.writeIndex rb.size = rb.readIndex := fun hn =>
    absurd (hwf.next_eq_read.1 hn) (by omega)
  rw [RingBuffer.writeByte, if_neg (by simp [RingBuffer.seesFull, hnext])]

/-- A writer that sees the full buffer drops the oldest byte. -/
theorem WellFormed.writeByte_of_seesFull (byte : UInt8) (h : rb.seesFull = true) :
    (rb.writeByte byte).available = rb.available ∧
      (rb.writeByte byte).pending = rb.pending.tail ++ [byte] := by
  have hfull : rb.available + 1 = rb.size.toNat := by
    rw [← hwf.next_eq_read]
    exact (of_decide_eq_true h).1
  have hne : rb.available ≠ 0 := by have := hwf.size; omega
  have hroom : rb.advanceRead.available + 1 < rb.advanceRead.size.toNat := by
    rw [hwf.advanceRead_available hne]
    exact hwf.available_lt
  rw [RingBuffer.writeByte, if_pos h, hwf.advanceRead.storeByte_available byte hroom,
    hwf.advanceRead.storeByte_pending byte hroom, hwf.pending_eq_cons hne]
  exact ⟨hwf.advanceRead_available hne, rfl⟩

/-- A writer that does not see the full buffer loses all of it. -/
theorem WellFormed.writeByte_of_not_seesFull (byte : UInt8) (h : rb.seesFull = false)
    (hfull : rb.available + 1 = rb.size.toNat) : (rb.writeByte byte).available = 0 := by
  rw [RingBuffer.writeByte, if_neg (by simp [h])]
  exact hwf.storeByte_full byte hfull

end WellFormed

end Gd32Firmware
