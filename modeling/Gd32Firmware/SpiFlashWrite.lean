import Gd32Firmware.SpiFlash

/-!
# What a write to the serial flash leaves behind

`GD25Q32_write` erases one sector and programs with one command. The chip programs inside one
page, so data that crosses the end of the page comes round to its beginning, and data in a
later sector finds that sector as it was. `gd25q32Write_roundTrips_iff` says exactly which
writes read back : those whose bytes survive both (`WriteSurvives`).
-/

namespace Gd32Firmware

open Program

/-! ## Bits of a byte -/

theorem and_and_eq_left {v x y : UInt8} :
    v &&& (x &&& y) = v ↔ v &&& x = v ∧ v &&& y = v := by
  constructor
  · intro h
    constructor
    · calc v &&& x = v &&& (x &&& y) &&& x := by rw [h]
        _ = v &&& (x &&& y) := by
          rw [UInt8.and_assoc, UInt8.and_assoc, UInt8.and_comm y x, ← UInt8.and_assoc x x y,
            UInt8.and_self]
        _ = v := h
    · calc v &&& y = v &&& (x &&& y) &&& y := by rw [h]
        _ = v &&& (x &&& y) := by rw [UInt8.and_assoc, UInt8.and_assoc, UInt8.and_self]
        _ = v := h
  · rintro ⟨hx, hy⟩
    rw [← UInt8.and_assoc, hx, hy]

/-! ## The page program -/

section Page

variable (a i : ℕ) (mem : ℕ → UInt8) (data : List UInt8) {b : ℕ}

/-- A bit is set after a program if it was set and no byte in its column clears it. -/
theorem and_programPage (v : UInt8) :
    v &&& programPage a i mem data b = v ↔
      v &&& mem b = v ∧ ∀ k (hk : k < data.length), column a (i + k) = b → v &&& data[k] = v := by
  induction data generalizing i mem with
  | nil => simp [programPage]
  | cons dat data ih =>
    have hfirst : v &&& Function.update mem (column a i) (mem (column a i) &&& dat) b = v ↔
        v &&& mem b = v ∧ (column a i = b → v &&& dat = v) := by
      by_cases hb : column a i = b
      · subst hb
        rw [Function.update_self, and_and_eq_left]
        simp
      · rw [Function.update_of_ne (Ne.symm hb)]
        simp [hb]
    rw [programPage, ih, hfirst, and_assoc]
    refine and_congr_right fun _ => ⟨?_, fun h => ⟨?_, fun k hk hb => ?_⟩⟩
    · rintro ⟨h0, hsucc⟩ k hk hb
      cases k with
      | zero => exact h0 hb
      | succ k =>
        exact hsucc k (Nat.lt_of_succ_lt_succ hk) (by rw [← hb, Nat.add_right_comm, Nat.add_assoc])
    · exact h 0 (Nat.succ_pos _)
    · exact h (k + 1) (Nat.succ_lt_succ hk) (by rw [← hb, Nat.add_right_comm, Nat.add_assoc])

theorem column_page : column a i / 256 = a / 256 := by
  unfold column
  omega

/-- Other pages are left alone. -/
theorem programPage_of_ne (hb : b / 256 ≠ a / 256) : programPage a i mem data b = mem b := by
  induction data generalizing i mem with
  | nil => rfl
  | cons dat data ih =>
    rw [programPage, ih, Function.update_of_ne]
    rintro rfl
    exact hb (column_page a i)

end Page

theorem eraseSector_congr {mem : ℕ → UInt8} {a a' : ℕ} (h : a / 4096 = a' / 4096) :
    eraseSector mem a = eraseSector mem a' := by
  unfold eraseSector
  rw [h]

/-! ## Driver and chip -/

/-- The chip in the middle of a command. -/
def Chip.withBytes (c : Chip) (bytes : List UInt8) : Chip :=
  { c with bus := .receiving bytes }

/-- The chip after the operation under way. -/
def Chip.settle (c : Chip) : Chip :=
  { c with busy := 0, wel := c.wel && c.busy == 0, bus := .deselected }

section Driver

variable {c : Chip}

theorem csOn_false (c : Chip) : exec (w25qxxCsOn false) c = (some (), c.withBytes []) :=
  rfl

theorem csOn_true (c : Chip) :
    exec (w25qxxCsOn true) c = (some (), { c.execute with bus := .deselected }) :=
  rfl

theorem tick_withBytes (c : Chip) (bytes : List UInt8) :
    (c.withBytes bytes).tick = c.tick.withBytes bytes := by
  unfold Chip.tick
  split <;> simp_all [Chip.withBytes]

@[simp] theorem logged_busy (c : Chip) (dat : UInt8) : (c.logged dat).busy = c.busy := by
  unfold Chip.logged
  split <;> rfl

@[simp] theorem logged_mem (c : Chip) (dat : UInt8) : (c.logged dat).mem = c.mem := by
  unfold Chip.logged
  split <;> rfl

/-- A chip that takes the command collects its first byte, -/
theorem spiReadWriteByte_first (c : Chip) (dat : UInt8) (h : c.tick.busy = 0 ∨ dat = 0x05) :
    exec (spiReadWriteByte dat) (c.withBytes []) =
      (some (c.tick.withBytes []).output, (c.tick.logged dat).withBytes [dat]) := by
  simp only [exec, spiReadWriteByte, Chip.exchange, tick_withBytes]
  simp only [Chip.withBytes, h, if_true, Chip.logged]
  split <;> rfl

/-- and the others. -/
theorem spiReadWriteByte_next (c : Chip) (b : UInt8) (bytes : List UInt8) (dat : UInt8) :
    exec (spiReadWriteByte dat) (c.withBytes (b :: bytes)) =
      (some (c.tick.withBytes (b :: bytes)).output, c.tick.withBytes (b :: bytes ++ [dat])) := by
  simp only [exec, spiReadWriteByte, Chip.exchange, tick_withBytes]
  rfl

theorem tick_of_idle (hc : c.busy = 0) : c.tick = c := by
  simp [Chip.tick, hc]

/-- No time passes for an idle chip. -/
theorem spiReadWriteByte_idle (hc : c.busy = 0) (b : UInt8) (bytes : List UInt8) (dat : UInt8) :
    exec (spiReadWriteByte dat) (c.withBytes (b :: bytes)) =
      (some (c.withBytes (b :: bytes)).output, c.withBytes (b :: bytes ++ [dat])) := by
  have heq := spiReadWriteByte_next c b bytes dat
  rwa [tick_of_idle hc] at heq

/-- A command with an address, up to the address. -/
theorem command_eq {α : Type} (hc : c.busy = 0) (op a₂ a₁ a₀ : UInt8) (rest : Program Chip α) :
    exec (do
      w25qxxCsOn false
      let _ ← spiReadWriteByte op
      let _ ← spiReadWriteByte a₂
      let _ ← spiReadWriteByte a₁
      let _ ← spiReadWriteByte a₀
      rest) c = exec rest ((c.logged op).withBytes [op, a₂, a₁, a₀]) := by
  have hfirst := spiReadWriteByte_first c op (Or.inl (by rw [tick_of_idle hc, hc]))
  rw [tick_of_idle hc] at hfirst
  have hlogged : (c.logged op).busy = 0 := by rw [logged_busy, hc]
  rw [exec_bind_of_eq (csOn_false c)]
  exact (exec_bind_of_eq hfirst).trans <|
    (exec_bind_of_eq (spiReadWriteByte_idle hlogged op [] a₂)).trans <|
    (exec_bind_of_eq (spiReadWriteByte_idle hlogged op [a₂] a₁)).trans <|
    exec_bind_of_eq (spiReadWriteByte_idle hlogged op [a₂, a₁] a₀)

theorem sendBytes_eq (hc : c.busy = 0) (data : List UInt8) (b : UInt8) (bytes : List UInt8) :
    exec (sendBytes data) (c.withBytes (b :: bytes)) =
      (some (), c.withBytes (b :: bytes ++ data)) := by
  induction data generalizing bytes with
  | nil => rw [List.append_nil]; rfl
  | cons dat data ih =>
    rw [sendBytes, exec_bind_of_eq (spiReadWriteByte_idle hc b bytes dat)]
    refine (ih (bytes ++ [dat])).trans ?_
    simp

/-- Three bytes of an address. -/
theorem address24_eq (addr : UInt32) :
    address24 (addr >>> 16).toUInt8 (addr >>> 8).toUInt8 addr.toUInt8 =
      addr.toNat % flashBytes := by
  have hlt := addr.toNat_lt
  simp only [address24, flashBytes, UInt32.toNat_toUInt8, UInt32.toNat_shiftRight,
    Nat.shiftRight_eq_div_pow, show (16 : UInt32).toNat = 16 from rfl,
    show (8 : UInt32).toNat = 8 from rfl, Nat.reduceMod, Nat.reducePow]
  omega

theorem writeEnable_eq (hc : c.busy = 0) :
    exec gd25q32WriteEnable c = (some (), { c with wel := true, bus := .deselected }) := by
  have hfirst := spiReadWriteByte_first c 0x06 (Or.inl (by rw [tick_of_idle hc, hc]))
  rw [tick_of_idle hc] at hfirst
  rw [gd25q32WriteEnable, exec_bind_of_eq (csOn_false c), exec_bind_of_eq hfirst, csOn_true]
  rfl

theorem tick_busy (c : Chip) : c.tick.busy = c.busy - 1 := by
  unfold Chip.tick
  split <;> simp_all

theorem settle_tick (c : Chip) : c.tick.settle = c.settle := by
  unfold Chip.tick
  split <;> simp_all [Chip.settle]

/-- The status byte says whether the chip is busy. -/
theorem output_status (c : Chip) :
    (c.withBytes [0x05]).output &&& 0x01 = 1 ↔ c.busy ≠ 0 := by
  simp only [Chip.output, Chip.withBytes, if_true]
  by_cases hb : c.busy = 0 <;> by_cases hw : c.wel = true <;>
    simp only [hb, hw, ne_eq, not_true_eq_false] <;> decide

/-- One poll of the status. -/
theorem waitBusyLoop_succ (fuel : ℕ) (c : Chip) :
    exec (waitBusyLoop (fuel + 1)) c =
      exec (if c.tick.tick.busy ≠ 0 then waitBusyLoop fuel else pure ())
        { c.tick.tick with bus := .deselected } := by
  rw [waitBusyLoop, exec_bind_of_eq (csOn_false c),
    exec_bind_of_eq (spiReadWriteByte_first c 0x05 (Or.inr rfl))]
  refine (exec_bind_of_eq (spiReadWriteByte_next c.tick 0x05 [] 0xFF)).trans <|
    (exec_bind_of_eq (csOn_true _)).trans ?_
  simp only [output_status]
  rfl

/-- Waiting ends, and the operation under way is complete. -/
theorem waitBusyLoop_eq (fuel : ℕ) (c : Chip) (h : c.busy < fuel) :
    exec (waitBusyLoop fuel) c = (some (), c.settle) := by
  induction fuel generalizing c with
  | zero => exact absurd h (Nat.not_lt_zero _)
  | succ fuel ih =>
    have hbusy : c.tick.tick.busy = c.busy - 2 := by
      simp only [tick_busy]
      omega
    have hsettle : ({ c.tick.tick with bus := .deselected } : Chip).settle = c.settle := by
      rw [← settle_tick c, ← settle_tick c.tick]
      rfl
    rw [waitBusyLoop_succ]
    by_cases hdone : c.tick.tick.busy = 0
    · rw [if_neg (by simp [hdone]), ← hsettle]
      simp [Chip.settle, hdone]
    · rw [if_pos hdone, ih _ (by show c.tick.tick.busy < fuel; omega), hsettle]

theorem waitBusy_eq (c : Chip) : exec gd25q32WaitBusy c = (some (), c.settle) :=
  waitBusyLoop_eq (c.busy + 1) c (Nat.lt_succ_self _)

theorem settle_of_idle (hc : c.busy = 0) (hbus : c.bus = .deselected) : c.settle = c := by
  obtain ⟨mem, wel, busy, bus, eraseTime, programTime, log⟩ := c
  obtain rfl : busy = 0 := hc
  obtain rfl : bus = .deselected := hbus
  simp [Chip.settle]

/-- Enable writes and wait, on an idle chip. -/
theorem enable_eq {α : Type} (hc : c.busy = 0) (rest : Program Chip α) :
    exec (do
      gd25q32WriteEnable
      gd25q32WaitBusy
      rest) c = exec rest { c with wel := true, bus := .deselected } := by
  rw [exec_bind_of_eq (writeEnable_eq hc), exec_bind_of_eq (waitBusy_eq _), settle_of_idle]
  · exact hc
  · rfl

/-- The sector of the address is erased, if the sector number came from an address. -/
theorem eraseSector_eq (hc : c.busy = 0) (addr : UInt32) :
    exec (gd25q32EraseSector (addr / 4096)) c =
      (some (), { c with
        mem := eraseSector c.mem (addr.toNat % flashBytes)
        wel := false
        bus := .deselected
        log := c.log ++ [⟨0x20, 0, true⟩] }) := by
  have hstart : (addr / 4096 * 4096).toNat = addr.toNat / 4096 * 4096 := by
    have hlt := addr.toNat_lt
    rw [UInt32.toNat_mul, UInt32.toNat_div]
    show addr.toNat / 4096 * 4096 % 2 ^ 32 = _
    omega
  rw [gd25q32EraseSector]
  generalize addr / 4096 * 4096 = start at hstart ⊢
  have hsector : address24 (start >>> 16).toUInt8 (start >>> 8).toUInt8 start.toUInt8 / 4096 =
      addr.toNat % flashBytes / 4096 := by
    rw [address24_eq, hstart]
    unfold flashBytes
    omega
  rw [enable_eq hc, command_eq, exec_bind_of_eq (csOn_true _), waitBusy_eq]
  · simp [Chip.execute, Chip.withBytes, Chip.settle, Chip.logged, eraseSector_congr hsector, hc]
  · exact hc

/-- The chip after a write : the sector is erased, then the bytes are programmed. -/
theorem gd25q32Write_eq (hc : c.busy = 0) (buffer : ℕ → UInt8) (addr : UInt32)
    (numbyte : UInt16) :
    ∃ c', exec (gd25q32Write buffer addr numbyte) c = (some (), c') ∧ c'.busy = 0 ∧
      c'.mem = programPage (addr.toNat % flashBytes) 0
        (eraseSector c.mem (addr.toNat % flashBytes)) (bufferBytes buffer numbyte) := by
  rw [gd25q32Write, exec_bind_of_eq (eraseSector_eq hc addr), enable_eq, command_eq,
    exec_bind_of_eq (sendBytes_eq _ _ _ _), exec_bind_of_eq (csOn_true _), waitBusy_eq]
  any_goals exact hc
  refine ⟨_, rfl, rfl, ?_⟩
  cases hdata : bufferBytes buffer numbyte with
  | nil => simp [Chip.execute, Chip.withBytes, Chip.settle, Chip.logged, programPage]
  | cons dat data => simp [Chip.execute, Chip.withBytes, Chip.settle, Chip.logged, address24_eq]

theorem receiveBytes_eq (hc : c.busy = 0) (a₂ a₁ a₀ : UInt8) (n : ℕ) (bytes : List UInt8) :
    exec (receiveBytes n) (c.withBytes (0x03 :: a₂ :: a₁ :: a₀ :: bytes)) =
      (some ((List.range n).map fun k =>
          c.mem ((address24 a₂ a₁ a₀ + (bytes.length + k)) % flashBytes)),
        c.withBytes (0x03 :: a₂ :: a₁ :: a₀ :: (bytes ++ List.replicate n 0xFF))) := by
  induction n generalizing bytes with
  | zero => simp [receiveBytes]
  | succ n ih =>
    rw [receiveBytes, exec_bind_of_eq (spiReadWriteByte_idle hc _ _ 0xFF)]
    refine (exec_bind_of_eq (ih (bytes ++ [0xFF]))).trans ?_
    simp [List.range_succ_eq_map, Chip.output, Chip.withBytes, Function.comp_def, Nat.add_assoc,
      Nat.add_comm 1, List.replicate_succ]

/-- A read returns consecutive bytes and leaves the array alone. -/
theorem gd25q32Read_eq (hc : c.busy = 0) (readAddr : UInt32) (readLength : UInt16) :
    ∃ c', exec (gd25q32Read readAddr readLength) c =
        (some ((List.range readLength.toNat).map fun k =>
          c.mem ((readAddr.toNat % flashBytes + k) % flashBytes)), c') ∧
      c'.mem = c.mem ∧ c'.busy = 0 := by
  have hlogged : c.logged 0x03 = c := if_neg (by decide)
  rw [gd25q32Read, command_eq hc, hlogged, exec_bind_of_eq (receiveBytes_eq hc _ _ _ _ []),
    exec_bind_of_eq (csOn_true _)]
  simp only [List.length_nil, Nat.zero_add, address24_eq]
  refine ⟨_, rfl, ?_⟩
  simpa [Chip.execute, Chip.withBytes] using hc

end Driver

/-! ## Reading back a write -/

/-- The write returns, the same range reads back as the buffer, and sectors without a byte of
the range hold what they held. -/
def RoundTrips (c : Chip) (buffer : ℕ → UInt8) (addr : UInt32) (n : UInt16) : Prop :=
  ∃ c' c'', exec (gd25q32Write buffer addr n) c = (some (), c') ∧
    exec (gd25q32Read addr n) c' = (some (bufferBytes buffer n), c'') ∧
    ∀ sector, (∀ b, addr.toNat ≤ b → b < addr.toNat + n.toNat → b / 4096 ≠ sector) →
      ∀ b < flashBytes, b / 4096 = sector → c''.mem b = c.mem b

/-- The bytes survive the round trip. A write without bytes erases a sector all the same. A
byte in the page of the first one is programmed together with the bytes that come round to
its column; a byte behind the page stays as the erase left it. -/
def WriteSurvives (mem : ℕ → UInt8) (buffer : ℕ → UInt8) (a n : ℕ) : Prop :=
  (n = 0 → ∀ b < flashBytes, b / 4096 = a / 4096 → mem b = 0xFF) ∧
  ∀ j < n,
    if a % 256 + j < 256 then ∀ i < n, i % 256 = j % 256 → buffer j &&& buffer i = buffer j
    else buffer j = if (a + j) / 4096 = a / 4096 then 0xFF else mem (a + j)

/-- A byte in the page of the first one reads back if no other byte of its column clears a
bit of it. -/
theorem programPage_eq_iff (mem : ℕ → UInt8) (buffer : ℕ → UInt8) (a : ℕ) (n : UInt16) {j : ℕ}
    (hj : j < n.toNat) (hpage : a % 256 + j < 256) (hmem : mem (a + j) = 0xFF) :
    programPage a 0 mem (bufferBytes buffer n) (a + j) = buffer j ↔
      ∀ i < n.toNat, i % 256 = j % 256 → buffer j &&& buffer i = buffer j := by
  have hcolumn (i : ℕ) : column a (0 + i) = a + j ↔ i % 256 = j % 256 := by
    unfold column
    omega
  have hbits (v : UInt8) := and_programPage a 0 mem (bufferBytes buffer n) (b := a + j) v
  have hones (v : UInt8) : v &&& mem (a + j) = v := by rw [hmem]; exact UInt8.and_neg_one
  simp only [hones, true_and, hcolumn, length_bufferBytes, getElem_bufferBytes] at hbits
  constructor
  · intro heq i hi hij
    rw [← heq]
    exact (hbits _).1 UInt8.and_self i hi hij
  · intro h
    -- the stored byte has the bits of `buffer j`, and no others
    have hle := (hbits _).1 UInt8.and_self j hj rfl
    rw [← hle, UInt8.and_comm]
    exact (hbits _).2 h

/-- What a byte of the range reads after the write. -/
theorem write_byte_eq_iff (mem : ℕ → UInt8) (buffer : ℕ → UInt8) (a : ℕ) (n : UInt16) {j : ℕ}
    (hj : j < n.toNat) :
    programPage a 0 (eraseSector mem a) (bufferBytes buffer n) (a + j) = buffer j ↔
      if a % 256 + j < 256 then
        ∀ i < n.toNat, i % 256 = j % 256 → buffer j &&& buffer i = buffer j
      else buffer j = if (a + j) / 4096 = a / 4096 then 0xFF else mem (a + j) := by
  split_ifs with hpage hsector
  · refine programPage_eq_iff _ _ _ _ hj hpage ?_
    rw [eraseSector, if_pos (by omega)]
  · rw [programPage_of_ne _ _ _ _ (by omega), eraseSector, if_pos hsector, eq_comm]
  · rw [programPage_of_ne _ _ _ _ (by omega), eraseSector, if_neg hsector, eq_comm]

/-- Data that stays in the page of its first byte survives. -/
theorem writeSurvives_of_page (mem : ℕ → UInt8) (buffer : ℕ → UInt8) {a n : ℕ} (hn : n ≠ 0)
    (hpage : a % 256 + n ≤ 256) : WriteSurvives mem buffer a n := by
  refine ⟨fun h => absurd h hn, fun j hj => ?_⟩
  rw [if_pos (by omega)]
  intro i hi hij
  rw [show i = j by omega, UInt8.and_self]

/-- A write reads back, and touches no other sector, exactly if its bytes survive. -/
theorem gd25q32Write_roundTrips_iff (c : Chip) (hc : c.busy = 0) (buffer : ℕ → UInt8)
    (addr : UInt32) (n : UInt16) (hrange : addr.toNat + n.toNat ≤ flashBytes) :
    RoundTrips c buffer addr n ↔ WriteSurvives c.mem buffer (addr.toNat % flashBytes) n.toNat := by
  obtain ⟨c', hwrite, hc', hmem⟩ := gd25q32Write_eq hc buffer addr n
  obtain ⟨c'', hread, hmem', -⟩ := gd25q32Read_eq hc' addr n
  have haddr (hn : n.toNat ≠ 0) : addr.toNat % flashBytes = addr.toNat :=
    Nat.mod_eq_of_lt (by omega)
  -- the two halves of the property, over the array after the write
  have hback : (List.range n.toNat).map
      (fun k => c'.mem ((addr.toNat % flashBytes + k) % flashBytes)) = bufferBytes buffer n ↔
      ∀ j < n.toNat, c'.mem (addr.toNat % flashBytes + j) = buffer j := by
    rw [bufferBytes, List.map_inj_left]
    refine forall_congr' fun j => ?_
    rw [List.mem_range]
    refine forall_congr' fun hj => ?_
    rw [haddr (by omega), Nat.mod_eq_of_lt (by omega)]
  have hframe : (∀ sector, (∀ b, addr.toNat ≤ b → b < addr.toNat + n.toNat → b / 4096 ≠ sector) →
      ∀ b < flashBytes, b / 4096 = sector → c''.mem b = c.mem b) ↔
      (n.toNat = 0 → ∀ b < flashBytes, b / 4096 = addr.toNat % flashBytes / 4096 →
        c.mem b = 0xFF) := by
    rw [hmem', hmem]
    constructor
    · intro hsame hn b hb hsector
      have hdata : bufferBytes buffer n = [] := by
        rw [← List.length_eq_zero_iff, length_bufferBytes, hn]
      rw [← hsame _ (fun b hlow hhigh => by omega) b hb rfl, hdata, programPage, eraseSector,
        if_pos hsector]
    · intro hempty sector hout b hb hsector
      by_cases hn : n.toNat = 0
      · have hdata : bufferBytes buffer n = [] := by
          rw [← List.length_eq_zero_iff, length_bufferBytes, hn]
        rw [hdata, programPage, eraseSector]
        split_ifs with hin
        · exact (hempty hn b hb hin).symm
        · rfl
      · have hne := hout addr.toNat (le_refl _) (by omega)
        rw [haddr hn, programPage_of_ne _ _ _ _ (by omega), eraseSector, if_neg (by omega)]
  constructor
  · rintro ⟨d', d'', hwrite', hread', hsame⟩
    obtain ⟨-, rfl⟩ := Prod.mk.inj (hwrite.symm.trans hwrite')
    obtain ⟨hout, rfl⟩ := Prod.mk.inj (hread.symm.trans hread')
    rw [Option.some.injEq] at hout
    refine ⟨hframe.1 hsame, fun j hj => ?_⟩
    rw [← write_byte_eq_iff _ _ _ _ hj, ← hmem]
    exact hback.1 hout j hj
  · rintro ⟨hempty, hbytes⟩
    refine ⟨c', c'', hwrite, ?_, hframe.2 hempty⟩
    rw [hread, hback.2 fun j hj => ?_]
    rw [hmem, write_byte_eq_iff _ _ _ _ hj]
    exact hbytes j hj

/-- An erased chip. -/
def Chip.erased : Chip :=
  { mem := fun _ => 0xFF, wel := false, busy := 0, bus := .deselected, eraseTime := 100,
    programTime := 10, log := [] }

/-- Two bytes at the end of a page of an erased chip. -/
theorem gd25q32Write_roundTrips_iff_two :
    RoundTrips .erased (fun _ => 0) 0xFF 2 ↔
      WriteSurvives Chip.erased.mem (fun _ => 0) ((0xFF : UInt32).toNat % flashBytes)
        (2 : UInt16).toNat :=
  gd25q32Write_roundTrips_iff .erased rfl (fun _ => 0) 0xFF 2 (by decide)

/-- The second of them does not read back : it went to the first column of the page. -/
theorem gd25q32Write_wraps : ¬ RoundTrips .erased (fun _ => 0) 0xFF 2 := by
  rintro ⟨c', c'', hwrite, hread, -⟩
  have hout : (exec (gd25q32Write (fun _ => 0) 0xFF 2 >>= fun _ => gd25q32Read 0xFF 2) .erased).1 =
      some [0, 0xFF] := by decide +kernel
  rw [exec_bind_of_eq hwrite, hread] at hout
  exact absurd (show bufferBytes (fun _ => 0) 2 = [0, 0xFF] from Option.some.inj hout) (by decide)

end Gd32Firmware
