import Gd32Firmware.DoWhile
import Gd32Firmware.LwipInit
import Gd32Firmware.Pbuf

/-!
# The receive descriptors of the Ethernet controller

The receive path of the firmware : `ENET_IRQHandler` of `app/gd32f4xx_it.c`, the descriptor
functions of the vendor's `gd32f4xx_enet.c` and `low_level_input` and `ethernetif_input` of
lwIP's `arch/ethernetif.c`. A descriptor belongs to the DMA as long as its bit `DAV` is set.

lwIP is a parameter (`Lwip`) : what it does with the frame does not touch the descriptors.
Next to the variables of the source, an `Enet` records which descriptors were handled and
which were dropped.
-/

namespace Gd32Firmware

/-! ## Descriptors -/

/-- An `enet_descriptors_struct`. -/
structure EnetDescriptor where
  status : UInt32
  controlBufferSize : UInt32
  buffer1Addr : UInt32
  buffer2NextDescAddr : UInt32
  deriving DecidableEq

def enetRdes0Pcerr : UInt32 := 0x1

def enetRdes0Frmt : UInt32 := 0x20

def enetRdes0Ldes : UInt32 := 0x100

def enetRdes0Fdes : UInt32 := 0x200

def enetRdes0Errs : UInt32 := 0x8000

def enetRdes0Dav : UInt32 := 0x80000000

def enetRdes1Rchm : UInt32 := 0x4000

def enetRdes1Rerm : UInt32 := 0x8000

def enetMacCfgTfcd : UInt32 := 0x2000000

def enetDmaStatRs : UInt32 := 0x40

def enetDmaStatRbu : UInt32 := 0x80

def enetDmaStatNi : UInt32 := 0x10000

def ethDmarxdescSize : UInt32 := 0x10

/-- `GET_RDES0_FRML`. -/
def getRdes0Frml (regval : UInt32) : UInt32 :=
  (regval &&& 0x3FFF0000) >>> 16

/-- `GET_DMA_BCTL_DPSL`. -/
def getDmaBctlDpsl (regval : UInt32) : UInt32 :=
  (regval &&& 0x7C) >>> 2

/-- What becomes of the frame in a descriptor. -/
inductive RxEvent where
  | handled (addr : UInt32) (desc : EnetDescriptor)
  | dropped (addr : UInt32)

/-- The driver, the registers of the controller that it reads, and the memory. -/
structure Enet where
  /-- The descriptors, under their addresses. -/
  desc : UInt32 → EnetDescriptor
  dmaCurrentRxdesc : UInt32
  dmaCurrentPtpRxdesc : UInt32
  enetUnknowErr : UInt32
  macCfg : UInt32
  dmaStat : UInt32
  dmaRdtaddr : UInt32
  dmaBctl : UInt32
  /-- How often the reception was resumed. -/
  dmaRpen : ℕ
  memory : UInt32 → UInt8
  rx : List RxEvent

/-- The driver and the controller at power-up. -/
def enetPowerUp : Enet where
  desc := fun _ => ⟨0, 0, 0, 0⟩
  dmaCurrentRxdesc := 0
  dmaCurrentPtpRxdesc := 0
  enetUnknowErr := 0
  macCfg := 0
  dmaStat := 0
  dmaRdtaddr := 0
  dmaBctl := 0
  dmaRpen := 0
  memory := fun _ => 0
  rx := []

/-- `ENET_RXBUF_NUM`. -/
def enetRxbufNum : ℕ := 5

/-- `ENET_RXBUF_SIZE`. -/
def enetRxbufSize : UInt32 := 1524

/-- What `enet_descriptors_chain_init` writes to the receive descriptor number `num`. -/
def chainedRxdesc (rxdescTab rxBuff : UInt32) (num : ℕ) : EnetDescriptor where
  status := enetRdes0Dav
  controlBufferSize := enetRdes1Rchm ||| enetRxbufSize
  buffer1Addr := rxBuff + UInt32.ofNat num * enetRxbufSize
  buffer2NextDescAddr :=
    if num < enetRxbufNum - 1 then rxdescTab + UInt32.ofNat (num + 1) * ethDmarxdescSize
    else rxdescTab

/-- `enet_descriptors_chain_init` for `ENET_DMA_RX`, with the addresses of the descriptors and of
their buffers. -/
def enetDescriptorsChainInit (rxdescTab rxBuff : UInt32) (e : Enet) : Enet :=
  { e with
    dmaRdtaddr := rxdescTab
    dmaCurrentRxdesc := rxdescTab
    dmaCurrentPtpRxdesc := 0
    desc := (List.range enetRxbufNum).foldl (fun desc num =>
      Function.update desc (rxdescTab + UInt32.ofNat num * ethDmarxdescSize)
        (chainedRxdesc rxdescTab rxBuff num)) e.desc }

namespace Enet

variable (e : Enet)

/-- The current descriptor. -/
def current : EnetDescriptor :=
  e.desc e.dmaCurrentRxdesc

/-- The current descriptor goes to the DMA. -/
def giveBack : Enet :=
  { e with
    desc := Function.update e.desc e.dmaCurrentRxdesc { e.current with status := enetRdes0Dav } }

/-- A bit of the status register is cleared by writing it. -/
def clearStat (bit : UInt32) : Enet :=
  { e with dmaStat := e.dmaStat &&& ~~~bit }

/-- The descriptor after the current one, in chained mode and in ring mode. -/
def nextRxdesc : UInt32 :=
  if e.current.controlBufferSize &&& enetRdes1Rchm ≠ 0 then e.current.buffer2NextDescAddr
  else if e.current.controlBufferSize &&& enetRdes1Rerm ≠ 0 then e.dmaRdtaddr
  else e.dmaCurrentRxdesc + ethDmarxdescSize + getDmaBctlDpsl e.dmaBctl

end Enet

/-- `enet_rxframe_drop`. -/
def enetRxframeDrop (e : Enet) : Enet :=
  let e : Enet := { e.giveBack with rx := e.rx ++ [.dropped e.dmaCurrentRxdesc] }
  let ptp := e.desc e.dmaCurrentPtpRxdesc
  if e.current.controlBufferSize &&& enetRdes1Rchm ≠ 0 then
    if e.dmaCurrentPtpRxdesc ≠ 0 then
      { e with
        dmaCurrentRxdesc := ptp.buffer2NextDescAddr
        dmaCurrentPtpRxdesc :=
          if ptp.status ≠ 0 then ptp.status else e.dmaCurrentPtpRxdesc + ethDmarxdescSize }
    else { e with dmaCurrentRxdesc := e.current.buffer2NextDescAddr }
  else if e.current.controlBufferSize &&& enetRdes1Rerm ≠ 0 then
    { e with
      dmaCurrentRxdesc := e.dmaRdtaddr
      dmaCurrentPtpRxdesc :=
        if e.dmaCurrentPtpRxdesc ≠ 0 then ptp.status else e.dmaCurrentPtpRxdesc }
  else
    { e with
      dmaCurrentRxdesc := e.dmaCurrentRxdesc + ethDmarxdescSize + getDmaBctlDpsl e.dmaBctl
      dmaCurrentPtpRxdesc :=
        if e.dmaCurrentPtpRxdesc ≠ 0 then e.dmaCurrentPtpRxdesc + ethDmarxdescSize
        else e.dmaCurrentPtpRxdesc }

/-- A type frame whose checksum the controller has left out. -/
def crcDropped (macCfg status : UInt32) : Prop :=
  macCfg &&& enetMacCfgTfcd ≠ 0 ∧ status &&& enetRdes0Frmt ≠ 0

instance (macCfg status : UInt32) : Decidable (crcDropped macCfg status) :=
  inferInstanceAs (Decidable (_ ∧ _))

/-- The frame length less the checksum. -/
def frameSize (macCfg status : UInt32) : UInt32 :=
  let size := getRdes0Frml status - 4
  if crcDropped macCfg status then size + 4 else size

/-- An error, or a frame in two or more descriptors. -/
def Faulty (status : UInt32) : Prop :=
  status &&& enetRdes0Errs ≠ 0 ∨ status &&& enetRdes0Ldes = 0 ∨ status &&& enetRdes0Fdes = 0

instance (status : UInt32) : Decidable (Faulty status) :=
  inferInstanceAs (Decidable (_ ∨ _))

/-- `enet_rxframe_size_get`. -/
def enetRxframeSizeGet (e : Enet) : UInt32 × Enet :=
  let status := e.current.status
  if status &&& enetRdes0Dav ≠ 0 then (0, e)
  else if Faulty status then (1, enetRxframeDrop e)
  else if status &&& enetRdes0Frmt ≠ 0 ∧ status &&& enetRdes0Pcerr ≠ 0 then
    (1, enetRxframeDrop e)
  else if status &&& enetRdes0Dav = 0 ∧ ¬ Faulty status then (frameSize e.macCfg status, e)
  else (1, enetRxframeDrop { e with enetUnknowErr := e.enetUnknowErr + 1 })

/-- `ErrStatus`. -/
inductive ErrStatus where
  | error
  | success
  deriving DecidableEq, Repr

/-- The copy loop of `enet_frame_receive`, from `offset` on. -/
def copyFrame (source buffer : UInt32) : ℕ → UInt32 → (UInt32 → UInt8) → UInt32 → UInt8
  | 0, _, memory => memory
  | left + 1, offset, memory =>
    copyFrame source buffer left (offset + 1)
      (Function.update memory (buffer + offset) (memory (source + offset)))

/-- The DMA is woken up if it had run out of descriptors. -/
def Enet.resume (e : Enet) : Enet :=
  if e.dmaStat &&& enetDmaStatRbu ≠ 0 then
    { e.clearStat enetDmaStatRbu with dmaRpen := e.dmaRpen + 1 }
  else e

/-- `enet_frame_receive`, without a buffer if the frame was copied before. -/
def enetFrameReceive (e : Enet) (buffer : Option UInt32) (bufsize : UInt32) : ErrStatus × Enet :=
  let status := e.current.status
  if status &&& enetRdes0Dav ≠ 0 then (.error, e)
  else
    match buffer with
    | none => (.success, next e)
    | some buffer =>
      if Faulty status then (.error, e)
      else
        let size := frameSize e.macCfg status
        if size > bufsize then (.error, e)
        else
          let memory := copyFrame e.current.buffer1Addr buffer size.toNat 0 e.memory
          (.success, next { e with memory := memory })
where
  /-- The descriptor goes back to the DMA. -/
  next (e : Enet) : Enet :=
    let e := e.giveBack.resume
    { e with dmaCurrentRxdesc := e.nextRxdesc }

/-- `enet_desc_information_get` for `RXDESC_FRAME_LENGTH`. -/
def rxdescFrameLength (e : Enet) (desc : EnetDescriptor) : UInt32 :=
  let reval := getRdes0Frml desc.status
  if reval > 4 then
    let reval := reval - 4
    if crcDropped e.macCfg desc.status then reval + 4 else reval
  else 0

/-! ## The network interface -/

/-- What the driver calls of lwIP, over a state of its own. -/
structure Lwip (σ : Type*) where
  /-- `pbuf_alloc` : how much each buffer of the chain holds, if there is one. -/
  pbufAlloc : UInt16 → σ → Option (List UInt16) × σ
  /-- The function `input` of the interface. -/
  input : List Payload → σ → ErrT × σ
  /-- `pbuf_free`. -/
  pbufFree : List Payload → σ → σ

/-- The frame is copied into the buffers of a chain, one after the other. -/
def fillChain (memory : UInt32 → UInt8) : UInt32 → List UInt16 → List Payload
  | _, [] => []
  | addr, len :: lens =>
    { bytes := (List.range len.toNat).map fun i => memory (addr + UInt32.ofNat i)
      fits := by simpa using len.toNat_lt } :: fillChain memory (addr + len.toUInt32) lens

section Interface

variable {σ : Type*} (lwip : Lwip σ)

/-- `low_level_input`. -/
def lowLevelInput (e : Enet) (s : σ) : Option (List Payload) × Enet × σ :=
  let len := (rxdescFrameLength e e.current).toUInt16
  let buffer := e.current.buffer1Addr
  let (lens, s) := lwip.pbufAlloc len s
  (lens.map (fillChain e.memory buffer), (enetFrameReceive e none 0).2, s)

/-- `ethernetif_input`. -/
def ethernetifInput (e : Enet) (s : σ) : ErrT × Enet × σ :=
  match lowLevelInput lwip e s with
  | (none, e, s) => (.mem, e, s)
  | (some p, e, s) =>
    let (err, s) := lwip.input p s
    if err ≠ .ok then (err, e, lwip.pbufFree p s) else (err, e, s)

/-- `lwip_pkt_handle`. -/
def lwipPktHandle (e : Enet) (s : σ) : Enet × σ :=
  (ethernetifInput lwip { e with rx := e.rx ++ [.handled e.dmaCurrentRxdesc e.current] } s).2

/-- One pass of the loop of `ENET_IRQHandler`. -/
def enetIRQPass : Enet × σ → Bool × Enet × σ
  | (e, s) =>
    let (reval, e) := enetRxframeSizeGet e
    (reval ≠ 0, if reval > 1 then lwipPktHandle lwip e s else (e, s))

/-- `ENET_IRQHandler`. -/
def enetIRQHandler (fuel : ℕ) (e : Enet) (s : σ) : Option (Enet × σ) :=
  doWhile (enetIRQPass lwip) fuel ((e.clearStat enetDmaStatRs).clearStat enetDmaStatNi, s)

end Interface

/-! ## The ring -/

/-- The addresses of the descriptors from the current one on, as the links have them. -/
def Enet.rxdesc (e : Enet) : ℕ → UInt32
  | 0 => e.dmaCurrentRxdesc
  | i + 1 => Enet.nextRxdesc { e with dmaCurrentRxdesc := e.rxdesc i }

/-- The links lead through `n` descriptors and back to the first. -/
structure RxRing (e : Enet) (n : ℕ) : Prop where
  pos : 0 < n
  closed : e.rxdesc n = e.rxdesc 0
  distinct : ∀ i < n, ∀ j < n, e.rxdesc i = e.rxdesc j → i = j
  noPtp : e.dmaCurrentPtpRxdesc = 0

/-- The status word of the descriptor number `i`. -/
def Enet.rxStatus (e : Enet) (i : ℕ) : UInt32 :=
  (e.desc (e.rxdesc i)).status

/-- The first `k` of `n` descriptors belong to the CPU, and no more up to the next one that
belongs to the DMA. -/
structure CpuOwns (e : Enet) (n k : ℕ) : Prop where
  le : k ≤ n
  cpu : ∀ i < k, e.rxStatus i &&& enetRdes0Dav = 0
  dma : k < n → e.rxStatus k &&& enetRdes0Dav ≠ 0

/-! ## The ring that the firmware sets up -/

theorem rxdesc_ne (rxdescTab : UInt32) {i j : ℕ} (hi : i < enetRxbufNum) (hj : j < enetRxbufNum)
    (hne : i ≠ j) : rxdescTab + UInt32.ofNat i * ethDmarxdescSize ≠
      rxdescTab + UInt32.ofNat j * ethDmarxdescSize := by
  have hoffset : ∀ i < enetRxbufNum, ∀ j < enetRxbufNum,
      UInt32.ofNat i * ethDmarxdescSize = UInt32.ofNat j * ethDmarxdescSize → i = j := by decide
  intro heq
  exact hne (hoffset i hi j hj ((UInt32.add_right_inj _).1 heq))

section ChainInit

variable (rxdescTab rxBuff : UInt32) (e : Enet)

theorem enetDescriptorsChainInit_desc {i : ℕ} (hi : i < enetRxbufNum) :
    (enetDescriptorsChainInit rxdescTab rxBuff e).desc
      (rxdescTab + UInt32.ofNat i * ethDmarxdescSize) = chainedRxdesc rxdescTab rxBuff i := by
  have hwritten : ∀ n ≤ enetRxbufNum, i < n →
      (List.range n).foldl (fun desc num =>
        Function.update desc (rxdescTab + UInt32.ofNat num * ethDmarxdescSize)
          (chainedRxdesc rxdescTab rxBuff num)) e.desc
        (rxdescTab + UInt32.ofNat i * ethDmarxdescSize) = chainedRxdesc rxdescTab rxBuff i := by
    intro n hn hin
    induction n with
    | zero => omega
    | succ n ih =>
      rw [List.range_succ, List.foldl_concat]
      by_cases heq : i = n
      · rw [heq, Function.update_self]
      · rw [Function.update_of_ne (rxdesc_ne rxdescTab hi (by omega) heq)]
        exact ih (by omega) (by omega)
  exact hwritten enetRxbufNum le_rfl hi

/-- Each descriptor is linked to the next one, and the last to the first. -/
theorem enetDescriptorsChainInit_next {i : ℕ} (hi : i < enetRxbufNum) :
    Enet.nextRxdesc { enetDescriptorsChainInit rxdescTab rxBuff e with
      dmaCurrentRxdesc := rxdescTab + UInt32.ofNat i * ethDmarxdescSize } =
      (chainedRxdesc rxdescTab rxBuff i).buffer2NextDescAddr := by
  have hcurrent := enetDescriptorsChainInit_desc rxdescTab rxBuff e hi
  have hchained : (chainedRxdesc rxdescTab rxBuff i).controlBufferSize &&& enetRdes1Rchm ≠ 0 :=
    (by decide : (enetRdes1Rchm ||| enetRxbufSize) &&& enetRdes1Rchm ≠ 0)
  rw [Enet.nextRxdesc, Enet.current]
  dsimp only
  rw [hcurrent, if_pos hchained]

theorem enetDescriptorsChainInit_rxdesc {i : ℕ} (hi : i < enetRxbufNum) :
    (enetDescriptorsChainInit rxdescTab rxBuff e).rxdesc i =
      rxdescTab + UInt32.ofNat i * ethDmarxdescSize := by
  induction i with
  | zero => exact (by simp : rxdescTab = rxdescTab + UInt32.ofNat 0 * ethDmarxdescSize)
  | succ i ih =>
    rw [Enet.rxdesc, ih (by omega), enetDescriptorsChainInit_next _ _ _ (by omega), chainedRxdesc]
    exact if_pos (by omega)

/-- The descriptors form a ring, as the receive interrupt takes for granted. -/
theorem enetDescriptorsChainInit_rxRing :
    RxRing (enetDescriptorsChainInit rxdescTab rxBuff e) enetRxbufNum where
  pos := by decide
  closed := by
    have hlast : enetRxbufNum - 1 < enetRxbufNum := by decide
    have hnext := enetDescriptorsChainInit_next rxdescTab rxBuff e hlast
    rw [← enetDescriptorsChainInit_rxdesc _ _ _ hlast] at hnext
    exact hnext
  distinct i hi j hj heq := by
    rw [enetDescriptorsChainInit_rxdesc _ _ _ hi, enetDescriptorsChainInit_rxdesc _ _ _ hj] at heq
    by_contra hne
    exact rxdesc_ne rxdescTab hi hj hne heq
  noPtp := rfl

end ChainInit

/-- What the DMA writes is not part of the links. -/
theorem RxRing.of_links {e e' : Enet} {n : ℕ} (hring : RxRing e n)
    (hdesc : ∀ addr, (e'.desc addr).controlBufferSize = (e.desc addr).controlBufferSize ∧
      (e'.desc addr).buffer2NextDescAddr = (e.desc addr).buffer2NextDescAddr)
    (hcurrent : e'.dmaCurrentRxdesc = e.dmaCurrentRxdesc)
    (hregs : e'.dmaRdtaddr = e.dmaRdtaddr ∧ e'.dmaBctl = e.dmaBctl)
    (hptp : e'.dmaCurrentPtpRxdesc = e.dmaCurrentPtpRxdesc) : RxRing e' n := by
  have hrxdesc (i) : e'.rxdesc i = e.rxdesc i := by
    induction i with
    | zero => exact hcurrent
    | succ i ih =>
      simp only [Enet.rxdesc, ih, Enet.nextRxdesc, Enet.current, (hdesc _).1, (hdesc _).2, hregs]
      rfl
  refine ⟨hring.pos, ?_, fun i hi j hj heq => ?_, hptp.trans hring.noPtp⟩
  · rw [hrxdesc, hrxdesc, hring.closed]
  · rw [hrxdesc, hrxdesc] at heq
    exact hring.distinct i hi j hj heq

end Gd32Firmware
