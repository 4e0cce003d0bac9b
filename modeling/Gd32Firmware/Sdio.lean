import Gd32Firmware.Program
import Gd32Firmware.SdCard

/-!
# The SDIO peripheral and the world of the card driver

The hardware is open : what the card and the peripheral do is a tape of samples, one for every
instant at which the program touches the hardware (`tick`). A sample raises flags of
`SDIO_STAT`, lets a response or words of data arrive, may complete the DMA transfer, and may
make the interrupt pending. A property of every tape is a property of every order in which
these can arrive. A program whose tape runs out is still waiting when it was last seen, so it
does not return.

Every call of the SDIO and DMA libraries happens at one instant, and so does every access to a
variable that the interrupt handler writes. Code that runs in the handler as well as in the
thread takes as its first argument what an instant is there : `masked`, or `access` of the
next module, at which the handler may run.

The log records what happened, newest first. Besides what is seen on the bus it has the
decisions of the driver that the properties speak of, such as a command that was accepted.
-/

namespace Gd32Firmware

open Program

/-! ## Flags -/

/-- The bits of `SDIO_STAT`. -/
inductive Flag where
  | ccrcerr | dtcrcerr | cmdtmout | dttmout | txure | rxore | cmdrecv | cmdsend | dtend | stbite
  | dtblkend | cmdrun | txrun | rxrun | tfh | rfh | tff | rff | tfe | rfe | txdtval | rxdtval
  | sdioint | ataend
  deriving DecidableEq

/-- `SDIO_MASK_INTC_FLAGS` : the flags that stay set until they are cleared. The other flags
follow the state of the peripheral. -/
def sdioMaskIntcFlags : List Flag :=
  [.ccrcerr, .dtcrcerr, .cmdtmout, .dttmout, .txure, .rxore, .cmdrecv, .cmdsend, .dtend,
    .stbite, .dtblkend, .sdioint, .ataend]

/-- A flag of the mask is set. -/
def anySet (mask stat : List Flag) : Prop :=
  ∃ f ∈ mask, f ∈ stat

instance (mask stat : List Flag) : Decidable (anySet mask stat) :=
  inferInstanceAs (Decidable (∃ f ∈ mask, f ∈ stat))

theorem anySet_singleton {flag : Flag} {stat : List Flag} :
    anySet [flag] stat ↔ flag ∈ stat := by
  simp [anySet]

/-! ## The state -/

/-- `SDIO_RESPONSETYPE_NO`, `_SHORT` and `_LONG`. -/
inductive ResponseType where
  | no
  | short
  | long
  deriving DecidableEq

/-- What `SDIO_CMDCTL` and `SDIO_CMDAGMT` hold. -/
structure Command where
  index : UInt8
  argument : UInt32
  response : ResponseType
  deriving DecidableEq

/-- What the hardware does between two instants of the program. -/
structure Sample where
  /-- The flags that are raised, and those of the others that are set. -/
  flags : List Flag := []
  /-- A response : the command index and the response registers. -/
  response : Option (UInt8 × (Fin 4 → UInt32)) := none
  /-- The words that arrive in the receive FIFO. -/
  words : List UInt32 := []
  /-- The DMA channel completes its transfer. -/
  ftf : Bool := false
  /-- The interrupt handler is activated. -/
  irq : Bool := false

structure Sdio where
  stat : List Flag
  rspcmdidx : UInt8
  resp : Fin 4 → UInt32
  command : Command
  fifo : List UInt32
  /-- `SDIO_PWRCTL` is `SDIO_POWER_ON`. -/
  power : Bool
  /-- `DMA_FLAG_FTF` of DMA1 channel 3. -/
  ftf : Bool

/-- The registers that are only written. -/
inductive Setting where
  | clockConfig (division : UInt16)
  | busMode (mode : UInt32)
  | hardwareClockDisable
  | clockEnable
  | waitType
  | dataConfig (timeout length blocksize : UInt32)
  | dataTransferConfig (toSdio : Bool)
  | dsm (enable : Bool)
  | dma (enable : Bool)
  | interruptEnable (flags : List Flag)
  | interruptDisable (flags : List Flag)
  /-- `dma_receive_config`. -/
  | dmaReceive (dstbuf : ℕ) (bufsize : UInt32)
  /-- `dma_transfer_config`. -/
  | dmaTransfer (srcbuf : ℕ) (bufsize : UInt32)

/-- The steps of `sd_io_init`. -/
inductive BringUp where
  | init
  | informationGet
  | select
  | cardstatusGet
  | busModeConfig
  | transferModeConfig
  deriving DecidableEq

/-- What the log records. -/
inductive Event where
  /-- An instant, with what the hardware did before it. -/
  | sample (s : Sample)
  | set (s : Setting)
  /-- The command state machine is started. -/
  | cmd (c : Command)
  /-- `r1_error_check` took the response of a command and cleared the flags. -/
  | taken (cmdindex : UInt8)
  /-- A check of a response returned `SD_OK`. -/
  | accepted (cmdindex : UInt8)
  /-- The operation conditions that a card sent in answer to ACMD41. -/
  | ocr (response : UInt32)
  /-- A word is read from the receive FIFO. -/
  | read (word : UInt32)
  /-- A word is written to the transmit FIFO. -/
  | push (word : UInt32)
  /-- The loop that fills the transmit FIFO finds `TFH` set. -/
  | tfhSeen
  /-- The thread finds `DMA_FLAG_FTF` set. -/
  | ftfSeen
  /-- The thread gives up waiting for `DMA_FLAG_FTF`. -/
  | dmaTimeout
  /-- The handler starts, and finds this in `transerror`. -/
  | irq (pending : SdError)
  /-- The handler finds `DTEND`, and this in `stopcondition`. -/
  | irqEnd (stopcondition : UInt32)
  /-- The handler finds an error flag. -/
  | irqFault (flag : Flag)
  /-- `sd_io_init` starts a step. -/
  | begin (step : BringUp)
  /-- A step of `sd_io_init` returned. -/
  | done (step : BringUp) (status : SdError)
  /-- `sd_io_init` looks at the lock bit of `cardstate`. -/
  | lockCheck (cardstate : UInt32)

/-- The sample, if the event is one. -/
def Event.asSample : Event → Option Sample
  | .sample s => some s
  | _ => none

/-- A condition that says nothing of other events is one on a sample. -/
theorem Event.forall_asSample {P : Event → Prop} (hother : ∀ e : Event, e.asSample = none → P e)
    {e : Event} : (∀ s ∈ e.asSample, P (.sample s)) ↔ P e := by
  cases he : e.asSample with
  | none => simp [hother e he]
  | some s =>
    obtain rfl : e = .sample s := by
      cases e with
      | sample s' => exact congrArg Event.sample (Option.some.inj he)
      | _ => exact absurd he (by simp [Event.asSample])
    simp

/-- The commands that went out, newest first. -/
def commands (log : List Event) : List Command :=
  log.filterMap fun
    | .cmd c => some c
    | _ => none

theorem mem_commands {log : List Event} {c : Command} : c ∈ commands log ↔ .cmd c ∈ log := by
  rw [commands, List.mem_filterMap]
  constructor
  · rintro ⟨e, he, hc⟩
    cases e <;> simp_all
  · exact fun h => ⟨_, h, rfl⟩

structure World where
  /-- The samples to come. -/
  tape : List Sample
  sdio : Sdio
  drv : Driver
  /-- The memory, in words. -/
  ram : ℕ → UInt32
  log : List Event

/-- The peripheral after its reset. -/
def Sdio.initial : Sdio where
  stat := []
  rspcmdidx := 0
  resp := fun _ => 0
  command := ⟨0, 0, .no⟩
  fifo := []
  power := false
  ftf := false

/-- The world in which a function is called with these variables, and these samples to come. -/
def World.start (drv : Driver) (tape : List Sample) : World where
  tape := tape
  sdio := Sdio.initial
  drv := drv
  ram := fun _ => 0
  log := []

/-- So many samples in which nothing happens. -/
def quiet (n : ℕ) : List Sample :=
  List.replicate n {}

/-- A sample in which a card in the transfer state answers a command. -/
def answer (index : UInt8) (response : UInt32) : Sample :=
  { flags := [.cmdrecv], response := some (index, fun _ => response) }

namespace World

variable (w : World)

def note (e : Event) : World :=
  { w with log := e :: w.log }

/-- The hardware goes on by one sample. -/
def observe (s : Sample) (tape : List Sample) : World :=
  { w with
    tape := tape
    sdio := { w.sdio with
      stat := w.sdio.stat.filter (· ∈ sdioMaskIntcFlags) ++ s.flags
      rspcmdidx := (s.response.map Prod.fst).getD w.sdio.rspcmdidx
      resp := (s.response.map Prod.snd).getD w.sdio.resp
      fifo := w.sdio.fifo ++ s.words
      ftf := w.sdio.ftf || s.ftf }
    log := .sample s :: w.log }

/-- A write to `SDIO_INTC`. -/
def clear (mask : List Flag) : World :=
  { w with sdio := { w.sdio with stat := w.sdio.stat.filter (· ∉ mask) } }

def setDrv (f : Driver → Driver) : World :=
  { w with drv := f w.drv }

def setSdio (f : Sdio → Sdio) : World :=
  { w with sdio := f w.sdio }

def store (ptr : ℕ) (word : UInt32) : World :=
  { w with ram := Function.update w.ram ptr word }

section Projections

variable {w} {e : Event} {s : Sample} {tape : List Sample} {mask : List Flag}
  {f : Driver → Driver} {g : Sdio → Sdio} {ptr : ℕ} {word : UInt32}

@[simp] theorem note_log : (w.note e).log = e :: w.log := rfl
@[simp] theorem note_drv : (w.note e).drv = w.drv := rfl
@[simp] theorem note_sdio : (w.note e).sdio = w.sdio := rfl
@[simp] theorem observe_log : (w.observe s tape).log = .sample s :: w.log := rfl
@[simp] theorem observe_drv : (w.observe s tape).drv = w.drv := rfl
@[simp] theorem observe_command : (w.observe s tape).sdio.command = w.sdio.command := rfl
@[simp] theorem clear_log : (w.clear mask).log = w.log := rfl
@[simp] theorem clear_drv : (w.clear mask).drv = w.drv := rfl
@[simp] theorem clear_command : (w.clear mask).sdio.command = w.sdio.command := rfl
@[simp] theorem setDrv_log : (w.setDrv f).log = w.log := rfl
@[simp] theorem setDrv_drv : (w.setDrv f).drv = f w.drv := rfl
@[simp] theorem setDrv_sdio : (w.setDrv f).sdio = w.sdio := rfl
@[simp] theorem setSdio_log : (w.setSdio g).log = w.log := rfl
@[simp] theorem setSdio_drv : (w.setSdio g).drv = w.drv := rfl
@[simp] theorem setSdio_sdio : (w.setSdio g).sdio = g w.sdio := rfl
@[simp] theorem store_log : (w.store ptr word).log = w.log := rfl
@[simp] theorem store_drv : (w.store ptr word).drv = w.drv := rfl
@[simp] theorem store_sdio : (w.store ptr word).sdio = w.sdio := rfl

@[simp] theorem mem_stat_clear {flag : Flag} :
    flag ∈ (w.clear mask).sdio.stat ↔ flag ∈ w.sdio.stat ∧ flag ∉ mask := by
  simp [clear]

@[simp] theorem mem_stat_observe {flag : Flag} :
    flag ∈ (w.observe s tape).sdio.stat ↔
      flag ∈ w.sdio.stat ∧ flag ∈ sdioMaskIntcFlags ∨ flag ∈ s.flags := by
  simp [observe]

end Projections

end World

/-! ## Instants -/

/-- The next sample. The result says whether it activates the handler. -/
def tick : Program World Bool := fun w =>
  match w.tape with
  | [] => (none, w)
  | s :: tape => (some s.irq, w.observe s tape)

/-- An instant at which the handler cannot run. -/
def masked : Program World Unit := do
  let _ ← tick
  pure ()

def note (e : Event) : Program World Unit :=
  modify (·.note e)

/-- Read the variables of the driver. -/
def getDrv : Program World Driver := do
  pure (← get).drv

def setDrv (f : Driver → Driver) : Program World Unit :=
  modify (·.setDrv f)

/-- A loop of the driver. Every round takes a sample, so that it runs as long as the tape. -/
def sdLoop {β γ : Type} (body : β → Program World (β ⊕ γ)) (b : β) : Program World γ := do
  iterate body ((← get).tape.length + 1) b

/-! ## The library -/

section Library

variable (acc : Program World Unit)

/-- A write to a register that the driver does not read. -/
def configure (s : Setting) : Program World Unit := do
  acc
  note (.set s)

/-- `SDIO_STAT`. -/
def sdioStat : Program World (List Flag) := do
  acc
  pure (← get).sdio.stat

/-- `sdio_flag_get` and `sdio_interrupt_flag_get`, which both read `SDIO_STAT`. -/
def sdioFlagGet (mask : List Flag) : Program World Bool := do
  pure (decide (anySet mask (← sdioStat acc)))

/-- `sdio_flag_clear` and `sdio_interrupt_flag_clear`, which both write `SDIO_INTC`. -/
def sdioFlagClear (mask : List Flag) : Program World Unit := do
  acc
  modify (·.clear mask)

def sdioCommandIndexGet : Program World UInt8 := do
  acc
  pure (← get).sdio.rspcmdidx

def sdioResponseGet (i : Fin 4) : Program World UInt32 := do
  acc
  pure ((← get).sdio.resp i)

def sdioCommandResponseConfig (index : UInt8) (argument : UInt32) (response : ResponseType) :
    Program World Unit := do
  acc
  modify (·.setSdio fun sdio => { sdio with command := ⟨index, argument, response⟩ })

/-- The command in the registers goes out. -/
def sdioCsmEnable : Program World Unit := do
  acc
  modify fun w => w.note (.cmd w.sdio.command)

/-- The three calls that send a command. -/
def sendCommand (index : UInt8) (argument : UInt32) (response : ResponseType) :
    Program World Unit := do
  sdioCommandResponseConfig acc index argument response
  configure acc .waitType
  sdioCsmEnable acc

/-- Take a word from the receive FIFO, `0` if there is none. -/
def sdioDataRead : Program World UInt32 := do
  acc
  let word := (← get).sdio.fifo.headD 0
  modify (·.setSdio fun sdio => { sdio with fifo := sdio.fifo.tail })
  note (.read word)
  pure word

def sdioDataWrite (data : UInt32) : Program World Unit := do
  acc
  note (.push data)

def sdioPowerStateSet (on : Bool) : Program World Unit := do
  acc
  modify (·.setSdio fun sdio => { sdio with power := on })

def sdioPowerStateGet : Program World Bool := do
  acc
  pure (← get).sdio.power

/-- The reset of the peripheral by the RCU. -/
def sdioDeinit : Program World Unit := do
  acc
  modify (·.setSdio fun sdio =>
    { Sdio.initial with ftf := sdio.ftf })

/-- `dma_flag_get` for `DMA_FLAG_FTF`. -/
def dmaFlagGet : Program World Bool := do
  acc
  pure (← get).sdio.ftf

/-- `dma_receive_config` and `dma_transfer_config`, which clear the flag first. -/
def dmaConfig (s : Setting) : Program World Unit := do
  acc
  modify (·.setSdio fun sdio => { sdio with ftf := false })
  note (.set s)

end Library

/-! ## Rules -/

namespace Program

variable {α β γ : Type} {P E I : World → Prop}

/-- A sample is taken from the tape. -/
theorem Triple.tick_of_eq {Q : Bool → World → Prop}
    (hQ : ∀ s tape w, w.tape = s :: tape → P w → Q s.irq (w.observe s tape))
    (hE : ∀ w, P w → E w) : Triple P tick Q E := by
  intro w hw
  show Outcome Q E (Gd32Firmware.tick w)
  unfold Gd32Firmware.tick
  cases htape : w.tape with
  | nil => exact hE w hw
  | cons s tape => exact hQ s tape w htape hw

theorem Triple.tick {Q : Bool → World → Prop}
    (hQ : ∀ s tape w, P w → Q s.irq (w.observe s tape)) (hE : ∀ w, P w → E w) :
    Triple P tick Q E :=
  Triple.tick_of_eq (fun s tape w _ => hQ s tape w) hE

/-- An instant makes the tape shorter. -/
theorem Triple.masked_tape {I J : World → Prop} (h : ∀ s tape w, I w → J (w.observe s tape))
    (n : ℕ) :
    Triple (fun w => I w ∧ w.tape.length ≤ n) masked (fun _ w => J w ∧ w.tape.length < n)
      fun w => I w ∧ w.tape.length ≤ n := by
  refine Triple.bind (Q := fun _ w => J w ∧ w.tape.length < n) (Triple.tick_of_eq ?_
    fun _ hw => hw) fun _ => Triple.pure () fun _ hw => hw
  intro s tape w htape hw
  rw [htape, List.length_cons] at hw
  exact ⟨h s tape w hw.1, hw.2⟩

theorem Keeps.masked (h : ∀ s tape w, I w → I (w.observe s tape)) : Keeps I masked :=
  Triple.bind (Triple.tick (Q := fun _ => I) h fun _ hw => hw) fun _ => Keeps.pure ()

theorem Triple.note {Q : Unit → World → Prop} {e : Event} (h : ∀ w, P w → Q () (w.note e)) :
    Triple P (note e) Q E :=
  Triple.modify _ h

theorem Keeps.note {e : Event} (h : ∀ w, I w → I (w.note e)) : Keeps I (note e) :=
  Triple.note h

theorem Triple.getDrv {Q : Driver → World → Prop} (h : ∀ w, P w → Q w.drv w) :
    Triple P getDrv Q E :=
  Triple.bind (Triple.get (Q := fun w w' => w = w' ∧ P w) fun _ hw => ⟨rfl, hw⟩) fun _ =>
    Triple.pure _ fun w hw => by
      obtain ⟨rfl, hw⟩ := hw
      exact h _ hw

theorem Triple.setDrv {Q : Unit → World → Prop} {f : Driver → Driver}
    (h : ∀ w, P w → Q () (w.setDrv f)) : Triple P (setDrv f) Q E :=
  Triple.modify _ h

theorem Keeps.setDrv {f : Driver → Driver} (h : ∀ w, I w → I (w.setDrv f)) :
    Keeps I (setDrv f) :=
  Triple.setDrv h

/-- The rule for the loops of the driver. -/
theorem Triple.sdLoop {J : β → World → Prop} {R : γ → World → Prop}
    {body : β → Program World (β ⊕ γ)} (hbody : ∀ b, Triple (J b) (body b) (Sum.elim J R) E)
    (hE : ∀ b w, J b w → E w) (b : β) : Triple (J b) (sdLoop body b) R E :=
  Triple.bind (Triple.get (Q := fun _ => J b) fun _ hw => hw) fun _ =>
    Triple.iterate hbody hE _ b

/-- The rule for a loop whose rounds take samples. -/
theorem Triple.sdLoop_of_lt {J : β → World → Prop} {R : γ → World → Prop}
    {body : β → Program World (β ⊕ γ)}
    (hbody : ∀ b n, Triple (fun w => J b w ∧ w.tape.length ≤ n) (body b)
      (Sum.elim (fun b w => J b w ∧ w.tape.length < n) R) E) (b : β) :
    Triple (J b) (Gd32Firmware.sdLoop body b) R E :=
  Triple.bind (Triple.get (Q := fun w' w => J b w ∧ w.tape.length ≤ w'.tape.length)
    fun _ hw => ⟨hw, le_rfl⟩) fun _ =>
    Triple.iterate_of_lt hbody _ _ b (Nat.lt_succ_self _)

theorem Keeps.sdLoop {body : β → Program World (β ⊕ γ)} (hbody : ∀ b, Keeps I (body b))
    (b : β) : Keeps I (sdLoop body b) :=
  Triple.bind (Triple.get (Q := fun _ => I) fun _ hw => hw) fun _ =>
    Keeps.iterate hbody _ b

end Program

end Gd32Firmware
