import Gd32Firmware.Machine
import Gd32Firmware.SpiFlashWrite

/-!
# Which commands the serial flash takes

The driver sends write enable (`0x06`) before it waits for the chip, so the one command that
must not meet a busy chip is the one it does not guard. `commandsTaken_iff` : along any calls,
however long the chip takes for each operation, every erase and program command finds the
chip idle with its latch set exactly if the first call that sends one finds no operation
under way, but for its last byte. Every later call follows a wait. The commands are those
that the chip has noted (`Chip.log`), and they are all that the calls have to send.
-/

namespace Gd32Firmware

open Program

/-- What the program can do to the chip, with the time that each operation of the call takes
and with time that passes between calls. -/
inductive FlashOp where
  | erase (addr : UInt32) (eraseTime : ℕ)
  | write (buffer : ℕ → UInt8) (addr : UInt32) (numbyte : UInt16) (eraseTime programTime : ℕ)
  | read (readAddr : UInt32) (readLength : UInt16)
  | pause (time : ℕ)

/-- The call sends erase or program commands. -/
def FlashOp.Sends : FlashOp → Prop
  | .erase .. | .write .. => True
  | .read .. | .pause .. => False

/-- The commands that the call has to send. -/
def FlashOp.commands : FlashOp → List UInt8
  | .erase .. => [0x20]
  | .write .. => [0x20, 0x02]
  | .read .. | .pause .. => []

/-- The calls as a state machine. A call is answered with the erase and program commands that
reached the chip during it. -/
def flashMachine : Machine Chip FlashOp (List ChipCommand) where
  step c op :=
    let c' := match op with
      | .erase addr eraseTime =>
        (exec (gd25q32EraseSector addr) { c with eraseTime := eraseTime, log := [] }).2
      | .write buffer addr numbyte eraseTime programTime =>
        (exec (gd25q32Write buffer addr numbyte)
          { c with eraseTime := eraseTime, programTime := programTime, log := [] }).2
      | .read readAddr readLength =>
        (exec (gd25q32Read readAddr readLength) { c with log := [] }).2
      | .pause time => Chip.tick^[time] { c with log := [] }
    (c', c'.log)

/-- The command finds the chip idle with its latch set. -/
def ChipCommand.Taken (command : ChipCommand) : Prop :=
  command.busy = 0 ∧ command.wel = true

/-- Every erase and program command of the run is taken. -/
def CommandsTaken (c : Chip) (ops : List FlashOp) : Prop :=
  ∀ command ∈ (flashMachine.answers c ops).flatten, command.Taken

/-- Every call sends its commands, in order, and no others. -/
def SendsCommands (c : Chip) (ops : List FlashOp) : Prop :=
  (flashMachine.answers c ops).map (List.map ChipCommand.opcode) = ops.map FlashOp.commands

/-- The first call that sends a command finds at most the last byte of an operation. -/
def FirstFindsIdle (c : Chip) (ops : List FlashOp) : Prop :=
  ∀ pre op post, ops = pre ++ op :: post → op.Sends → (∀ o ∈ pre, ¬ o.Sends) →
    (flashMachine.run c pre).busy ≤ 1

/-! ## The driver on any chip -/

section Driver

variable {α : Type} (c : Chip)

theorem spiReadWriteByte_bind (dat : UInt8) (f : UInt8 → Program Chip α) :
    exec (spiReadWriteByte dat >>= f) c = exec (f (c.exchange dat).1) (c.exchange dat).2 :=
  exec_bind_of_eq rfl

theorem csOn_bind (level : Bool) (f : Unit → Program Chip α) :
    exec (w25qxxCsOn level >>= f) c = exec (f ()) (c.csOn level) :=
  exec_bind_of_eq rfl

/-- The chip after write enable and the wait. -/
def Chip.enabled : Chip :=
  ((((c.csOn false).exchange 0x06).2).csOn true).settle

/-- Write enable and the wait return. -/
theorem enable_returns (rest : Program Chip α) :
    exec (do
      gd25q32WriteEnable
      gd25q32WaitBusy
      rest) c = exec rest c.enabled := by
  have henable : exec gd25q32WriteEnable c =
      (some (), (((c.csOn false).exchange 0x06).2).csOn true) := by
    rw [gd25q32WriteEnable, csOn_bind, spiReadWriteByte_bind]
    rfl
  rw [exec_bind_of_eq henable, exec_bind_of_eq (waitBusy_eq _)]
  rfl

/-- The latch is set if the chip was about to be idle at write enable. -/
theorem enabled_eq : c.enabled =
    { c with busy := 0, wel := decide (c.busy ≤ 1), bus := .deselected } := by
  obtain ⟨mem, wel, busy, bus, eraseTime, programTime, log⟩ := c
  rcases busy with _ | _ | busy <;>
    simp [Chip.enabled, Chip.settle, Chip.csOn, Chip.exchange, Chip.tick, Chip.execute,
      Chip.logged]

@[simp] theorem tick_log : c.tick.log = c.log := by
  unfold Chip.tick
  split <;> rfl

@[simp] theorem csOn_log (level : Bool) : (c.csOn level).log = c.log := by
  unfold Chip.csOn Chip.execute
  repeat' split
  all_goals rfl

/-- No command starts with a byte that is not the first after the select. -/
theorem exchange_log (dat : UInt8) (h : c.bus ≠ .receiving []) :
    (c.exchange dat).2.log = c.log ∧ (c.exchange dat).2.bus ≠ .receiving [] := by
  have hbus : c.tick.bus = c.bus := by
    unfold Chip.tick
    split <;> rfl
  unfold Chip.exchange
  simp only [hbus]
  split
  · exact absurd ‹_› h
  · simp
  · simp [hbus, h]

theorem sendBytes_log (data : List UInt8) (h : c.bus ≠ .receiving []) :
    ∃ c', exec (sendBytes data) c = (some (), c') ∧ c'.log = c.log := by
  induction data generalizing c with
  | nil => exact ⟨c, rfl, rfl⟩
  | cons dat data ih =>
    obtain ⟨hlog, hbus⟩ := exchange_log c dat h
    obtain ⟨c', heq, hlog'⟩ := ih _ hbus
    exact ⟨c', (spiReadWriteByte_bind c dat _).trans heq, hlog'.trans hlog⟩

theorem receiveBytes_log (n : ℕ) (h : c.bus ≠ .receiving []) :
    ∃ bytes c', exec (receiveBytes n) c = (some bytes, c') ∧ c'.log = c.log := by
  induction n generalizing c with
  | zero => exact ⟨[], c, rfl, rfl⟩
  | succ n ih =>
    obtain ⟨hlog, hbus⟩ := exchange_log c 0xFF h
    obtain ⟨bytes, c', heq, hlog'⟩ := ih _ hbus
    exact ⟨_, c', (spiReadWriteByte_bind c 0xFF _).trans (exec_bind_of_eq heq), hlog'.trans hlog⟩

/-- The first byte after the select is noted. -/
theorem exchange_first (dat : UInt8) :
    ((c.csOn false).exchange dat).2.log = (c.tick.logged dat).log ∧
      ((c.csOn false).exchange dat).2.bus ≠ .receiving [] := by
  have htick : (c.csOn false).tick = c.tick.withBytes [] := tick_withBytes c []
  unfold Chip.exchange
  rw [htick]
  simp only [Chip.withBytes, Chip.logged]
  by_cases hop : dat = 0x20 ∨ dat = 0x02 <;> by_cases hidle : c.tick.busy = 0 ∨ dat = 0x05 <;>
    simp [hop, hidle]

/-- A command with an address, up to the address. -/
theorem command_log (op a₂ a₁ a₀ : UInt8) (rest : Program Chip α) :
    ∃ c', exec (do
      w25qxxCsOn false
      let _ ← spiReadWriteByte op
      let _ ← spiReadWriteByte a₂
      let _ ← spiReadWriteByte a₁
      let _ ← spiReadWriteByte a₀
      rest) c = exec rest c' ∧ c'.log = (c.tick.logged op).log ∧ c'.bus ≠ .receiving [] := by
  obtain ⟨hlog, hbus⟩ := exchange_first c op
  obtain ⟨hlog₂, hbus₂⟩ := exchange_log _ a₂ hbus
  obtain ⟨hlog₁, hbus₁⟩ := exchange_log _ a₁ hbus₂
  obtain ⟨hlog₀, hbus₀⟩ := exchange_log _ a₀ hbus₁
  simp only [csOn_bind, spiReadWriteByte_bind]
  exact ⟨_, rfl, hlog₀.trans (hlog₁.trans (hlog₂.trans hlog)), hbus₀⟩

/-- The command as it reaches the chip behind write enable and the wait. -/
theorem enabled_logged {op : UInt8} (hop : op = 0x20 ∨ op = 0x02) :
    (c.enabled.tick.logged op).log = c.log ++ [⟨op, 0, decide (c.busy ≤ 1)⟩] := by
  rw [enabled_eq, tick_of_idle rfl, Chip.logged, if_pos hop]

/-- An erase returns with an idle chip, whether or not the chip took it. -/
theorem eraseSector_log (addr : UInt32) :
    ∃ c', exec (gd25q32EraseSector addr) c = (some (), c') ∧ c'.busy = 0 ∧
      c'.log = c.log ++ [⟨0x20, 0, decide (c.busy ≤ 1)⟩] := by
  rw [gd25q32EraseSector, enable_returns]
  obtain ⟨c₁, heq, hlog, -⟩ := command_log c.enabled 0x20 _ _ _ _
  rw [heq, csOn_bind, waitBusy_eq]
  refine ⟨_, rfl, rfl, ?_⟩
  rw [← enabled_logged c (Or.inl rfl), ← hlog]
  exact csOn_log c₁ true

/-- So does a write. Its second command follows the wait of the first. -/
theorem write_log (buffer : ℕ → UInt8) (addr : UInt32) (numbyte : UInt16) :
    ∃ c', exec (gd25q32Write buffer addr numbyte) c = (some (), c') ∧ c'.busy = 0 ∧
      c'.log = c.log ++ [⟨0x20, 0, decide (c.busy ≤ 1)⟩, ⟨0x02, 0, true⟩] := by
  obtain ⟨c₁, herase, hidle, hlog₁⟩ := eraseSector_log c (addr / 4096)
  rw [gd25q32Write, exec_bind_of_eq herase, enable_returns]
  obtain ⟨c₂, heq, hlog₂, hbus⟩ := command_log c₁.enabled 0x02 _ _ _ _
  obtain ⟨c₃, hsend, hlog₃⟩ := sendBytes_log c₂ (bufferBytes buffer numbyte) hbus
  rw [heq, exec_bind_of_eq hsend, csOn_bind, waitBusy_eq]
  refine ⟨_, rfl, rfl, ?_⟩
  calc (c₃.csOn true).log = c₁.log ++ [⟨0x02, 0, true⟩] := by
        rw [csOn_log, hlog₃, hlog₂, enabled_logged c₁ (Or.inr rfl), hidle]
        rfl
    _ = _ := by rw [hlog₁, List.append_assoc]; rfl

/-- A read sends neither command. -/
theorem read_log (readAddr : UInt32) (readLength : UInt16) :
    (exec (gd25q32Read readAddr readLength) c).2.log = c.log := by
  rw [gd25q32Read]
  obtain ⟨c₁, heq, hlog₁, hbus⟩ := command_log c 0x03 _ _ _ _
  obtain ⟨bytes, c₂, hreceive, hlog₂⟩ := receiveBytes_log c₁ readLength.toNat hbus
  rw [heq, exec_bind_of_eq hreceive, csOn_bind]
  calc (c₂.csOn true).log = (c.tick.logged 0x03).log := by rw [csOn_log, hlog₂, hlog₁]
    _ = c.log := by rw [Chip.logged, if_neg (by decide), tick_log]

end Driver

/-! ## Every run -/

/-- The commands of a call as they reach the chip. Only the first of them depends on the chip
before the call. -/
def FlashOp.reach (idle : Bool) : FlashOp → List ChipCommand
  | .erase .. => [⟨0x20, 0, idle⟩]
  | .write .. => [⟨0x20, 0, idle⟩, ⟨0x02, 0, true⟩]
  | .read .. | .pause .. => []

theorem step_answer (c : Chip) (op : FlashOp) :
    (flashMachine.step c op).2 = op.reach (c.busy ≤ 1) := by
  cases op with
  | erase addr eraseTime =>
    obtain ⟨c', heq, -, hlog⟩ :=
      eraseSector_log { c with eraseTime := eraseTime, log := [] } addr
    simpa [flashMachine, heq, FlashOp.reach] using hlog
  | write buffer addr numbyte eraseTime programTime =>
    obtain ⟨c', heq, -, hlog⟩ :=
      write_log { c with eraseTime := eraseTime, programTime := programTime, log := [] }
        buffer addr numbyte
    simpa [flashMachine, heq, FlashOp.reach] using hlog
  | read readAddr readLength => exact read_log { c with log := [] } readAddr readLength
  | pause time =>
    show (Chip.tick^[time] { c with log := [] }).log = []
    induction time with
    | zero => rfl
    | succ time ih => rw [Function.iterate_succ_apply', tick_log, ih]

/-- A call that sends a command leaves the chip idle. -/
theorem step_of_sends (c : Chip) {op : FlashOp} (hop : op.Sends) :
    (flashMachine.step c op).1.busy = 0 := by
  cases op with
  | erase addr eraseTime =>
    obtain ⟨c', heq, hidle, -⟩ :=
      eraseSector_log { c with eraseTime := eraseTime, log := [] } addr
    simpa [flashMachine, heq] using hidle
  | write buffer addr numbyte eraseTime programTime =>
    obtain ⟨c', heq, hidle, -⟩ :=
      write_log { c with eraseTime := eraseTime, programTime := programTime, log := [] }
        buffer addr numbyte
    simpa [flashMachine, heq] using hidle
  | read readAddr readLength | pause time => exact absurd hop id

/-- So does any call that finds it idle. -/
theorem step_of_idle {c : Chip} (hc : c.busy = 0) (op : FlashOp) :
    (flashMachine.step c op).1.busy = 0 := by
  by_cases hop : op.Sends
  · exact step_of_sends c hop
  · cases op with
    | erase | write => exact absurd True.intro hop
    | read readAddr readLength =>
      obtain ⟨c', heq, -, hidle⟩ :=
        gd25q32Read_eq (c := { c with log := [] }) hc readAddr readLength
      simpa [flashMachine, heq] using hidle
    | pause time =>
      have hfix : Chip.tick { c with log := [] } = { c with log := [] } := tick_of_idle hc
      simpa [flashMachine, Function.iterate_fixed hfix] using hc

/-- The commands of a call are taken if the chip was about to be idle. -/
theorem reach_taken_iff {op : FlashOp} (hop : op.Sends) (idle : Bool) :
    (∀ command ∈ op.reach idle, command.Taken) ↔ idle = true := by
  cases op with
  | erase | write => simp [FlashOp.reach, ChipCommand.Taken]
  | read | pause => exact absurd hop id

theorem reach_of_not_sends {op : FlashOp} (hop : ¬ op.Sends) (idle : Bool) :
    op.reach idle = [] := by
  cases op with
  | erase | write => exact absurd True.intro hop
  | read | pause => rfl

/-- Every call sends its commands. -/
theorem sendsCommands (c : Chip) (ops : List FlashOp) : SendsCommands c ops := by
  induction ops generalizing c with
  | nil => rfl
  | cons op ops ih =>
    have hcall : (flashMachine.step c op).2.map ChipCommand.opcode = op.commands := by
      rw [step_answer]
      cases op <;> rfl
    exact congrArg₂ List.cons hcall (ih _)

theorem commandsTaken_cons (c : Chip) (op : FlashOp) (ops : List FlashOp) :
    CommandsTaken c (op :: ops) ↔
      (∀ command ∈ op.reach (c.busy ≤ 1), command.Taken) ∧
        CommandsTaken (flashMachine.step c op).1 ops := by
  rw [← step_answer]
  simp [CommandsTaken, Machine.answers, or_imp, forall_and]

theorem commandsTaken_of_idle (ops : List FlashOp) {c : Chip} (hc : c.busy = 0) :
    CommandsTaken c ops := by
  induction ops generalizing c with
  | nil => simp [CommandsTaken, Machine.answers]
  | cons op ops ih =>
    refine (commandsTaken_cons c op ops).2 ⟨?_, ih (step_of_idle hc op)⟩
    by_cases hop : op.Sends
    · rw [reach_taken_iff hop]
      exact decide_eq_true (by omega)
    · simp [reach_of_not_sends hop]

/-- The first call that sends a command is the first of all, -/
theorem firstFindsIdle_of_sends (c : Chip) {op : FlashOp} (hop : op.Sends) (ops : List FlashOp) :
    FirstFindsIdle c (op :: ops) ↔ c.busy ≤ 1 := by
  constructor
  · intro h
    exact h [] op ops rfl hop (by simp)
  · intro hc pre op' post hsplit _ hpre
    cases pre with
    | nil => exact hc
    | cons o pre =>
      obtain ⟨rfl, -⟩ := List.cons.inj hsplit
      exact absurd hop (hpre op List.mem_cons_self)

/-- or a later one. -/
theorem firstFindsIdle_of_not_sends (c : Chip) {op : FlashOp} (hop : ¬ op.Sends)
    (ops : List FlashOp) :
    FirstFindsIdle c (op :: ops) ↔ FirstFindsIdle (flashMachine.step c op).1 ops := by
  constructor
  · rintro h pre op' post rfl hop' hpre
    exact h (op :: pre) op' post rfl hop' (List.forall_mem_cons.2 ⟨hop, hpre⟩)
  · intro h pre op' post hsplit hop' hpre
    cases pre with
    | nil =>
      obtain ⟨rfl, -⟩ := List.cons.inj hsplit
      exact absurd hop' hop
    | cons o pre =>
      obtain ⟨rfl, rfl⟩ := List.cons.inj hsplit
      exact h pre op' post rfl hop' (List.forall_mem_cons.1 hpre).2

/-- Along any calls, every call sends its commands, and every erase and program command finds
the chip idle with its latch set exactly if the first of them finds at most the last byte of
an operation under way. -/
theorem commandsTaken_iff (c : Chip) (ops : List FlashOp) :
    SendsCommands c ops ∧ (CommandsTaken c ops ↔ FirstFindsIdle c ops) := by
  refine ⟨sendsCommands c ops, ?_⟩
  induction ops generalizing c with
  | nil => simp [CommandsTaken, Machine.answers, FirstFindsIdle]
  | cons op ops ih =>
    rw [commandsTaken_cons]
    by_cases hop : op.Sends
    · rw [firstFindsIdle_of_sends c hop, reach_taken_iff hop, decide_eq_true_iff,
        and_iff_left (commandsTaken_of_idle ops (step_of_sends c hop))]
    · rw [firstFindsIdle_of_not_sends c hop, ← ih, reach_of_not_sends hop]
      simp

/-- A chip that is busy with an erase from before a reset. -/
def Chip.erasing : Chip :=
  { Chip.erased with busy := 50, wel := true }

/-- It ignores the first command : write enable came too early. -/
theorem commandsTaken_not_erasing : ¬ CommandsTaken .erasing [.erase 0 100] := by
  rw [commandsTaken_cons, reach_taken_iff (show FlashOp.Sends (.erase 0 100) from True.intro)]
  exact fun h => absurd h.1 (by decide)

end Gd32Firmware
