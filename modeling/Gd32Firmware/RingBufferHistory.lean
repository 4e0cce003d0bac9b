import Gd32Firmware.RingBuffer
import Mathlib.Data.List.DropRight
import Mathlib.Data.List.Induction

/-!
# The ring buffer and the history of what was written

Whether or not a writer sees that the buffer is full, it never keeps a stale byte : the
pending bytes are always the last ones written since the last reset
(`TracksHistory`), so what the reads of a run deliver are bytes at strictly increasing
places of the write history (`Delivers`). This holds for a buffer of one cell too, in which
no byte is ever pending.
-/

namespace Gd32Firmware

/-- The bytes that an operation writes. -/
def RingOp.written : RingOp → List UInt8
  | .write data => data
  | .read _ | .reset => []

/-- All bytes written in a run. -/
def writeHistory (ops : List RingOp) : List UInt8 :=
  ops.flatMap RingOp.written

/-- The bytes written since the last reset. -/
def writtenSinceReset (ops : List RingOp) : List UInt8 :=
  ops.foldl (fun written op => if op matches .reset then [] else written ++ op.written) []

/-- The pending bytes are the last ones written since the reset, and are read in order. -/
structure TracksHistory (rb : RingBuffer) (ops : List RingOp) : Prop where
  write : rb.writeIndex < rb.size
  read : rb.readIndex < rb.size
  available : (ringBufferAvailableRead rb).toNat = (ringBufferRead rb 65535).2.length
  length : rb.pending.length = (ringBufferAvailableRead rb).toNat
  pending : rb.pending = (writtenSinceReset ops).rtake (ringBufferAvailableRead rb).toNat
  reads : ∀ n, (ringBufferRead rb n).2 =
    rb.pending.take (min n (ringBufferAvailableRead rb).toNat)

/-- Where the bytes delivered by an operation stand in the write history, of which `total`
bytes are written. -/
def RingOp.places (rb : RingBuffer) (total : ℕ) : RingOp → List ℕ
  | .read size =>
    let available := (ringBufferAvailableRead rb).toNat
    List.range' (total - available) (min size.toNat available)
  | .write _ | .reset => []

/-- The buffer beside the length of its write history, answering with places. -/
def placeMachine : Machine (RingBuffer × ℕ) RingOp (List ℕ) where
  step s op := (((ringMachine.step s.1 op).1, s.2 + op.written.length), op.places s.1 s.2)

/-! ## Buffers of any size -/

section InBounds

variable {rb : RingBuffer} (hin : InBounds rb)
include hin

/-- A buffer has room for a byte, or a single cell at which both indices stay. -/
theorem InBounds.wellFormed_or :
    WellFormed rb ∨ (rb.size.toNat = 1 ∧ rb.writeIndex = 0 ∧ rb.readIndex = 0) := by
  obtain ⟨hw, hr⟩ := hin
  simp only [← UInt16.toNat_inj]
  rcases Nat.lt_or_ge rb.size.toNat 2 with h1 | h2
  · exact Or.inr ⟨by omega, by simp; omega, by simp; omega⟩
  · exact Or.inl ⟨h2, hw, hr⟩

theorem InBounds.availableRead_toNat :
    (ringBufferAvailableRead rb).toNat = rb.available := by
  rcases hin.wellFormed_or with hwf | ⟨hsize, hw, hr⟩
  · exact hwf.availableRead_toNat
  · simp [ringBufferAvailableRead, RingBuffer.available, hsize, hw, hr]

/-- The indices meet exactly if no byte is pending. -/
theorem InBounds.read_eq_write : rb.readIndex = rb.writeIndex ↔ rb.available = 0 := by
  rcases hin.wellFormed_or with hwf | ⟨hsize, hw, hr⟩
  · rw [← UInt16.toNat_inj, hwf.available_eq]
    obtain ⟨hw, hr⟩ := hin
    split_ifs <;> omega
  · simp [RingBuffer.available, hsize, hw, hr]

/-- A pending byte leaves at the read index. -/
theorem InBounds.pending_eq_cons (h : rb.available ≠ 0) :
    rb.pending = rb.buffer rb.readIndex.toNat :: rb.advanceRead.pending := by
  rcases hin.wellFormed_or with hwf | ⟨hsize, hw, hr⟩
  · exact hwf.pending_eq_cons h
  · exact absurd (by rw [RingBuffer.available, hsize, Nat.mod_one]) h

/-- A byte is appended, in the place of the oldest one, or of all of them. -/
theorem InBounds.writeByte_suffix (byte : UInt8) :
    (rb.writeByte byte).pending <:+ rb.pending ++ [byte] := by
  have hnone {rb : RingBuffer} (h : rb.available = 0) : rb.pending = [] := by
    rw [← List.length_eq_zero_iff, RingBuffer.length_pending, h]
  rcases hin.wellFormed_or with hwf | ⟨hsize, -, -⟩
  · rcases Nat.lt_or_eq_of_le (Nat.succ_le_of_lt hwf.available_lt) with hroom | hfull
    · rw [hwf.writeByte_of_room byte hroom, hwf.storeByte_pending byte hroom]
    · cases hsees : rb.seesFull with
      | true =>
        rw [(hwf.writeByte_of_seesFull byte hsees).2]
        exact List.suffix_append_self_iff.2 (List.tail_suffix _)
      | false =>
        rw [hnone (hwf.writeByte_of_not_seesFull byte hsees hfull)]
        exact List.nil_suffix
  · have hsize' : (rb.writeByte byte).size = rb.size := by
      unfold RingBuffer.writeByte RingBuffer.storeByte
      split_ifs <;> rfl
    rw [hnone (by rw [RingBuffer.available, hsize', hsize, Nat.mod_one])]
    exact List.nil_suffix

end InBounds

/-! ## One operation -/

/-- A read takes pending bytes from the front. -/
theorem InBounds.afterRead : ∀ (n : ℕ) {rb : RingBuffer}, InBounds rb →
    InBounds (ringBufferRead rb n).1 ∧ (ringBufferRead rb n).2 = rb.pending.take n ∧
      (ringBufferRead rb n).1.pending = rb.pending.drop n
  | 0, rb, hin => ⟨hin, by simp [ringBufferRead], by simp [ringBufferRead]⟩
  | n + 1, rb, hin => by
    rw [ringBufferRead]
    split_ifs with h
    · obtain ⟨hin', htake, hdrop⟩ := hin.advanceRead.afterRead n
      rw [hin.pending_eq_cons fun h0 => h (hin.read_eq_write.2 h0)]
      exact ⟨hin', by simp [htake], by simp [hdrop]⟩
    · have h0 : rb.pending = [] := by
        rw [← List.length_eq_zero_iff, RingBuffer.length_pending]
        exact hin.read_eq_write.1 (not_not.1 h)
      simp [hin, h0]

/-- After a write the last bytes written are pending. -/
theorem InBounds.afterWrite (data : List UInt8) {rb : RingBuffer} (hin : InBounds rb) :
    InBounds (ringBufferWrite rb data).1 ∧
      (ringBufferWrite rb data).1.pending <:+ rb.pending ++ data := by
  induction data generalizing rb with
  | nil => exact ⟨hin, by simp [ringBufferWrite]⟩
  | cons byte data ih =>
    obtain ⟨hin', hsuffix⟩ := ih (hin.writeByte byte)
    refine ⟨hin', hsuffix.trans ?_⟩
    rw [← List.singleton_append, ← List.append_assoc, List.suffix_append_self_iff]
    exact hin.writeByte_suffix byte

/-! ## Every run -/

/-- The indices are in the array and a suffix of the bytes written is pending. -/
structure Holds (rb : RingBuffer) (written : List UInt8) : Prop extends InBounds rb where
  suffix : rb.pending <:+ written

theorem writtenSinceReset_concat (ops : List RingOp) (op : RingOp) :
    writtenSinceReset (ops ++ [op]) =
      if op matches .reset then [] else writtenSinceReset ops ++ op.written := by
  simp [writtenSinceReset]

theorem writeHistory_concat (ops : List RingOp) (op : RingOp) :
    writeHistory (ops ++ [op]) = writeHistory ops ++ op.written := by
  simp [writeHistory]

theorem writtenSinceReset_suffix (ops : List RingOp) :
    writtenSinceReset ops <:+ writeHistory ops := by
  induction ops using List.reverseRecOn with
  | nil => simp [writtenSinceReset]
  | append_singleton ops op ih =>
    rw [writtenSinceReset_concat, writeHistory_concat]
    split_ifs
    · exact List.nil_suffix
    · exact List.suffix_append_self_iff.2 ih

theorem Holds.step {rb : RingBuffer} {ops : List RingOp} (h : Holds rb (writtenSinceReset ops))
    (op : RingOp) :
    Holds (ringMachine.step rb op).1 (writtenSinceReset (ops ++ [op])) := by
  obtain ⟨hin, hsuffix⟩ := h
  rw [writtenSinceReset_concat]
  cases op with
  | write data =>
    obtain ⟨hin', hwrite⟩ := hin.afterWrite data
    exact ⟨hin', hwrite.trans (List.suffix_append_self_iff.2 hsuffix)⟩
  | read size =>
    obtain ⟨hin', -, hdrop⟩ := hin.afterRead size.toNat
    refine ⟨hin', ?_⟩
    show (ringBufferRead rb size.toNat).1.pending <:+ writtenSinceReset ops ++ []
    rw [hdrop, List.append_nil]
    exact (List.drop_suffix _ _).trans hsuffix
  | reset =>
    have hpos : 0 < rb.size.toNat := Nat.zero_lt_of_lt hin.write
    refine ⟨⟨hpos, hpos⟩, ?_⟩
    have h0 : (ringBufferReset rb).available = 0 := by
      simp [ringBufferReset, RingBuffer.available]
    show segment _ _ _ (ringBufferReset rb).available <:+ []
    rw [h0, segment_zero]

theorem holds_run (buffer : ℕ → UInt8) {size : UInt16} (hsize : size ≠ 0) (ops : List RingOp) :
    Holds (ringMachine.run (ringBufferInit buffer size) ops) (writtenSinceReset ops) := by
  induction ops using List.reverseRecOn with
  | nil =>
    have hpos : 0 < size.toNat := Nat.pos_of_ne_zero fun h => hsize (UInt16.toNat_inj.1 h)
    refine ⟨⟨hpos, hpos⟩, ?_⟩
    have h0 : (ringBufferInit buffer size).available = 0 := by
      simp [ringBufferInit, RingBuffer.available]
    show segment _ _ _ (ringBufferInit buffer size).available <:+ []
    rw [h0, segment_zero]
  | append_singleton ops op ih =>
    rw [Machine.run_concat]
    exact ih.step op

theorem Holds.tracksHistory {rb : RingBuffer} {ops : List RingOp}
    (h : Holds rb (writtenSinceReset ops)) : TracksHistory rb ops := by
  obtain ⟨hin, hsuffix⟩ := h
  have hav := hin.availableRead_toNat
  have hlt : rb.available < 65536 := hav ▸ (ringBufferAvailableRead rb).toNat_lt
  have hread (n : ℕ) := (hin.afterRead n).2.1
  exact
    { write := UInt16.lt_iff_toNat_lt.2 hin.write
      read := UInt16.lt_iff_toNat_lt.2 hin.read
      available := by simp [hread, hav]; omega
      length := by rw [hav, RingBuffer.length_pending]
      pending := by
        rw [hav, List.rtake, ← RingBuffer.length_pending]
        exact List.suffix_iff_eq_drop.1 hsuffix
      reads := fun n => by
        rw [hread, hav, ← RingBuffer.length_pending, ← List.take_eq_take_min] }

/-! ## What a run delivers -/

/-- The bytes that the reads of a run delivered stand at increasing places of the write
history, in front of the pending bytes. -/
structure Delivers (rb : RingBuffer) (history delivered : List UInt8) (places : List ℕ) :
    Prop where
  increasing : places.Pairwise (· < ·)
  below : ∀ p ∈ places, p + rb.available < history.length
  bytes : delivered.map some = places.map fun p => history[p]?

theorem placeMachine_run (rb : RingBuffer) (total : ℕ) (ops : List RingOp) :
    placeMachine.run (rb, total) ops =
      (ringMachine.run rb ops, total + (writeHistory ops).length) := by
  induction ops using List.reverseRecOn with
  | nil => simp [writeHistory]
  | append_singleton ops op ih =>
    rw [Machine.run_concat, Machine.run_concat, ih, writeHistory_concat]
    simp [placeMachine, Nat.add_assoc]

theorem placeMachine_answer (rb : RingBuffer) (total : ℕ) (ops : List RingOp) (op : RingOp) :
    placeMachine.answer (rb, total) ops op =
      op.places (ringMachine.run rb ops) (total + (writeHistory ops).length) := by
  rw [Machine.answer, placeMachine_run]
  rfl

/-- The bytes behind some place are those at the places that follow it. -/
theorem take_drop_map_some {α : Type*} (l : List α) (start k : ℕ) (h : start + k ≤ l.length) :
    ((l.drop start).take k).map some = (List.range' start k).map fun p => l[p]? := by
  apply List.ext_getElem
  · simp
    omega
  · intro j h1 h2
    simp only [List.length_map, List.length_range'] at h2
    simp [List.getElem?_eq_getElem (show start + j < l.length by omega)]

theorem Delivers.step {rb : RingBuffer} {history delivered : List UInt8} {places : List ℕ}
    (op : RingOp) (hin : InBounds rb) (hsuffix : rb.pending <:+ history)
    (h : Delivers rb history delivered places) :
    Delivers (ringMachine.step rb op).1 (history ++ op.written)
      (delivered ++ (ringMachine.step rb op).2) (places ++ op.places rb history.length) := by
  obtain ⟨hinc, hbelow, hbytes⟩ := h
  cases op with
  | write data =>
    have hlen := (hin.afterWrite data).2.length_le
    simp only [RingBuffer.length_pending, List.length_append] at hlen
    refine ⟨by simpa [RingOp.places] using hinc, fun p hp => ?_, ?_⟩
    · have hp := hbelow p (by simpa [RingOp.places] using hp)
      simp only [ringMachine, RingOp.written, List.length_append]
      omega
    · simp only [ringMachine, RingOp.places, RingOp.written, List.append_nil, hbytes]
      refine List.map_congr_left fun p hp => ?_
      have hp := hbelow p hp
      rw [List.getElem?_append_left (by omega)]
  | read size =>
    obtain ⟨-, htake, hdrop⟩ := hin.afterRead size.toNat
    have hlen := hsuffix.length_le
    have hav : (ringBufferRead rb size.toNat).1.available = rb.available - size.toNat := by
      rw [← RingBuffer.length_pending, hdrop, List.length_drop, RingBuffer.length_pending]
    rw [RingBuffer.length_pending] at hlen
    simp only [ringMachine, RingOp.places, RingOp.written, List.append_nil,
      hin.availableRead_toNat]
    refine ⟨?_, fun p hp => ?_, ?_⟩
    · rw [List.pairwise_append]
      refine ⟨hinc, List.pairwise_lt_range', fun p hp q hq => ?_⟩
      have hp := hbelow p hp
      have hq := (List.mem_range'_1.1 hq).1
      omega
    · rw [hav]
      rcases List.mem_append.1 hp with hp | hp
      · have hp := hbelow p hp
        omega
      · have hp := List.mem_range'_1.1 hp
        omega
    · rw [List.map_append, List.map_append, hbytes, htake,
        ← take_drop_map_some _ _ _ (by omega), ← RingBuffer.length_pending,
        ← List.suffix_iff_eq_drop.1 hsuffix, ← List.take_eq_take_min]
  | reset =>
    have hav : (ringBufferReset rb).available = 0 := by
      simp [ringBufferReset, RingBuffer.available]
    refine ⟨by simpa [RingOp.places] using hinc, fun p hp => ?_, ?_⟩
    · have hp := hbelow p (by simpa [RingOp.places] using hp)
      simp only [ringMachine, RingOp.written, List.append_nil, hav]
      omega
    · simpa [ringMachine, RingOp.places, RingOp.written] using hbytes

/-- Along a run the reads deliver the bytes at the places. -/
theorem delivers_run (buffer : ℕ → UInt8) {size : UInt16} (hsize : size ≠ 0) (ops : List RingOp) :
    Delivers (ringMachine.run (ringBufferInit buffer size) ops) (writeHistory ops)
      (ringMachine.answers (ringBufferInit buffer size) ops).flatten
      (placeMachine.answers (ringBufferInit buffer size, 0) ops).flatten := by
  induction ops using List.reverseRecOn with
  | nil => exact ⟨by simp [Machine.answers], by simp [Machine.answers], rfl⟩
  | append_singleton ops op ih =>
    obtain ⟨hin, hsuffix⟩ := holds_run buffer hsize ops
    have hstep := ih.step op hin (hsuffix.trans (writtenSinceReset_suffix ops))
    rw [Machine.run_concat, writeHistory_concat, Machine.answers_concat, Machine.answers_concat,
      placeMachine_answer, Nat.zero_add]
    simpa [Machine.answer] using hstep

/-- In every state that writes, reads and resets can reach, the pending bytes are the last
ones written since the reset, and what the reads delivered on the way is a strictly
increasing selection of the write history. -/
theorem ringBuffer_tracksHistory (buffer : ℕ → UInt8) (size : UInt16) (hsize : size ≠ 0)
    (ops : List RingOp) :
    let start := ringBufferInit buffer size
    let places := (placeMachine.answers (start, 0) ops).flatten
    TracksHistory (ringMachine.run start ops) ops ∧
      places.Pairwise (· < ·) ∧
      (ringMachine.answers start ops).flatten.map some =
        places.map fun p => (writeHistory ops)[p]? := by
  intro start places
  obtain ⟨hinc, -, hbytes⟩ := delivers_run buffer hsize ops
  exact ⟨(holds_run buffer hsize ops).tracksHistory, hinc, hbytes⟩

/-- Four bytes into three cells, after a read and a reset. -/
theorem ringBuffer_tracksHistory_three :
    let ops : List RingOp := [.write [1], .read 1, .reset, .write [2, 3, 4, 5], .read 2]
    let start := ringBufferInit (fun _ => 0) 3
    let places := (placeMachine.answers (start, 0) ops).flatten
    TracksHistory (ringMachine.run start ops) ops ∧
      places.Pairwise (· < ·) ∧
      (ringMachine.answers start ops).flatten.map some =
        places.map fun p => (writeHistory ops)[p]? :=
  ringBuffer_tracksHistory (fun _ => 0) 3 (by decide) _

end Gd32Firmware
