import Gd32Firmware.Program
import Mathlib.Data.UInt
import Mathlib.Data.List.Range
import Mathlib.Logic.Function.Basic

/-!
# The serial flash and its driver

`user/bsp/spi_flash.c` drives a GD25Q32 : 4 MB in sectors of 4 KB and pages of 256 bytes.
The chip is modelled on the bus, byte by byte : it collects the bytes that arrive while it is
selected, answers the commands `0x05` (status) and `0x03` (read) as they go, and executes
`0x06` (write enable), `0x20` (sector erase) and `0x02` (page program) when it is deselected.
While an erase or a program is under way it takes no command but the status one; the time
is counted in bytes exchanged.
-/

namespace Gd32Firmware

/-! ## The chip -/

/-- The size of the array. -/
def flashBytes : ℕ := 2 ^ 22

/-- What the chip select line and the bytes since it went low make of the chip. -/
inductive SpiBus where
  | deselected
  /-- Selected; the bytes of the command so far, oldest first. -/
  | receiving (bytes : List UInt8)
  /-- Selected, with a command that came while the chip was busy. -/
  | ignoring

/-- An erase or program command, with what the chip is doing when its first byte arrives. -/
structure ChipCommand where
  opcode : UInt8
  busy : ℕ
  wel : Bool

/-- The state of the chip. -/
structure Chip where
  mem : ℕ → UInt8
  /-- The write-enable latch. -/
  wel : Bool
  /-- The bytes to exchange until the operation under way is complete, `0` if there is none. -/
  busy : ℕ
  bus : SpiBus
  /-- How long an erase and a program take. -/
  eraseTime : ℕ
  programTime : ℕ
  /-- The erase and program commands that reached the chip, oldest first. -/
  log : List ChipCommand

/-- Time passes. The latch is cleared when an operation completes. -/
def Chip.tick (c : Chip) : Chip :=
  match c.busy with
  | 0 => c
  | 1 => { c with busy := 0, wel := false }
  | n + 2 => { c with busy := n + 1 }

/-- The address in three bytes, in an array that does not decode the top bits. -/
def address24 (a₂ a₁ a₀ : UInt8) : ℕ :=
  (a₂.toNat * 65536 + a₁.toNat * 256 + a₀.toNat) % flashBytes

/-- The byte that the chip shifts out during the next exchange. -/
def Chip.output (c : Chip) : UInt8 :=
  match c.bus with
  | .receiving (op :: rest) =>
    if op = 0x05 then (if c.busy = 0 then 0 else 1) ||| (if c.wel then 2 else 0)
    else
      match rest with
      | a₂ :: a₁ :: a₀ :: rest =>
        if op = 0x03 then c.mem ((address24 a₂ a₁ a₀ + rest.length) % flashBytes) else 0xFF
      | _ => 0xFF
  | _ => 0xFF

/-- The first byte of a command arrives. -/
def Chip.logged (c : Chip) (dat : UInt8) : Chip :=
  if dat = 0x20 ∨ dat = 0x02 then { c with log := c.log ++ [⟨dat, c.busy, c.wel⟩] } else c

/-- One byte goes in while another comes out. -/
def Chip.exchange (c : Chip) (dat : UInt8) : UInt8 × Chip :=
  let c := c.tick
  let c' := match c.bus with
    | .receiving [] =>
      if c.busy = 0 ∨ dat = 0x05 then { c.logged dat with bus := .receiving [dat] }
      else { c.logged dat with bus := .ignoring }
    | .receiving bytes => { c with bus := .receiving (bytes ++ [dat]) }
    | _ => c
  (c.output, c')

/-- Set the 4 KB around an address to `0xFF`. -/
def eraseSector (mem : ℕ → UInt8) (a : ℕ) : ℕ → UInt8 :=
  fun b => if b / 4096 = a / 4096 then 0xFF else mem b

/-- Column `i` from address `a` on, round the page of `a`. -/
def column (a i : ℕ) : ℕ :=
  a / 256 * 256 + (a + i) % 256

/-- Clear the bits that are clear in the data, from column `i` on. -/
def programPage (a : ℕ) : ℕ → (ℕ → UInt8) → List UInt8 → ℕ → UInt8
  | _, mem, [] => mem
  | i, mem, dat :: data =>
    programPage a (i + 1) (Function.update mem (column a i) (mem (column a i) &&& dat)) data

/-- The command that the chip executes when it is deselected. -/
def Chip.execute (c : Chip) : Chip :=
  match c.bus with
  | .receiving [op] => if op = 0x06 then { c with wel := true } else c
  | .receiving (op :: a₂ :: a₁ :: a₀ :: data) =>
    if op = 0x20 ∧ data = [] ∧ c.wel then
      { c with
        mem := eraseSector c.mem (address24 a₂ a₁ a₀)
        busy := c.eraseTime
        wel := c.eraseTime ≠ 0 }
    else if op = 0x02 ∧ data ≠ [] ∧ c.wel then
      { c with
        mem := programPage (address24 a₂ a₁ a₀) 0 c.mem data
        busy := c.programTime
        wel := c.programTime ≠ 0 }
    else c
  | _ => c

/-- The chip select line. -/
def Chip.csOn (c : Chip) (level : Bool) : Chip :=
  if level then { c.execute with bus := .deselected } else { c with bus := .receiving [] }

/-! ## The driver -/

/-- `W25QXX_CS_ON`. -/
def w25qxxCsOn (level : Bool) : Program Chip Unit :=
  modify (·.csOn level)

def spiReadWriteByte (dat : UInt8) : Program Chip UInt8 := fun c =>
  (some (c.exchange dat).1, (c.exchange dat).2)

def gd25q32WriteEnable : Program Chip Unit := do
  w25qxxCsOn false
  let _ ← spiReadWriteByte 0x06
  w25qxxCsOn true

/-- The loop of `GD25Q32_wait_busy`, for so many polls of the status. -/
def waitBusyLoop : ℕ → Program Chip Unit
  | 0 => Program.stuck
  | fuel + 1 => do
    w25qxxCsOn false
    let _ ← spiReadWriteByte 0x05
    let byte ← spiReadWriteByte 0xFF
    w25qxxCsOn true
    if byte &&& 0x01 = 1 then waitBusyLoop fuel else pure ()

/-- `GD25Q32_wait_busy` polls as long as the chip is busy. -/
def gd25q32WaitBusy : Program Chip Unit := do
  waitBusyLoop ((← get).busy + 1)

/-- `GD25Q32_erase_sector` of the sector with a number. -/
def gd25q32EraseSector (addr : UInt32) : Program Chip Unit := do
  let addr := addr * 4096
  gd25q32WriteEnable
  gd25q32WaitBusy
  w25qxxCsOn false
  let _ ← spiReadWriteByte 0x20
  let _ ← spiReadWriteByte (addr >>> 16).toUInt8
  let _ ← spiReadWriteByte (addr >>> 8).toUInt8
  let _ ← spiReadWriteByte addr.toUInt8
  w25qxxCsOn true
  gd25q32WaitBusy

/-- The loop of `GD25Q32_write` over the buffer. -/
def sendBytes : List UInt8 → Program Chip Unit
  | [] => pure ()
  | dat :: data => do
    let _ ← spiReadWriteByte dat
    sendBytes data

/-- The first `n` bytes of a buffer. -/
def bufferBytes (buffer : ℕ → UInt8) (n : UInt16) : List UInt8 :=
  (List.range n.toNat).map buffer

@[simp] theorem length_bufferBytes (buffer : ℕ → UInt8) (n : UInt16) :
    (bufferBytes buffer n).length = n.toNat := by
  simp [bufferBytes]

@[simp] theorem getElem_bufferBytes (buffer : ℕ → UInt8) (n : UInt16) (i : ℕ)
    (hi : i < (bufferBytes buffer n).length) : (bufferBytes buffer n)[i] = buffer i := by
  simp [bufferBytes]

def gd25q32Write (buffer : ℕ → UInt8) (addr : UInt32) (numbyte : UInt16) :
    Program Chip Unit := do
  gd25q32EraseSector (addr / 4096)
  gd25q32WriteEnable
  gd25q32WaitBusy
  w25qxxCsOn false
  let _ ← spiReadWriteByte 0x02
  let _ ← spiReadWriteByte (addr >>> 16).toUInt8
  let _ ← spiReadWriteByte (addr >>> 8).toUInt8
  let _ ← spiReadWriteByte addr.toUInt8
  sendBytes (bufferBytes buffer numbyte)
  w25qxxCsOn true
  gd25q32WaitBusy

/-- The loop of `GD25Q32_read`. -/
def receiveBytes : ℕ → Program Chip (List UInt8)
  | 0 => pure []
  | n + 1 => do
    let byte ← spiReadWriteByte 0xFF
    let rest ← receiveBytes n
    pure (byte :: rest)

def gd25q32Read (readAddr : UInt32) (readLength : UInt16) : Program Chip (List UInt8) := do
  w25qxxCsOn false
  let _ ← spiReadWriteByte 0x03
  let _ ← spiReadWriteByte (readAddr >>> 16).toUInt8
  let _ ← spiReadWriteByte (readAddr >>> 8).toUInt8
  let _ ← spiReadWriteByte readAddr.toUInt8
  let buffer ← receiveBytes readLength.toNat
  w25qxxCsOn true
  pure buffer

end Gd32Firmware
