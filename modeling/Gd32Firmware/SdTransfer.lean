import Gd32Firmware.SdCommand

/-!
# Reading and writing blocks

`sd_block_read`, `sd_multiblocks_read`, `sd_block_write` and `sd_multiblocks_write` of
`user/sys/sdcard.c`. The four start alike (`transferSetup`), send their data command, and move
the data by polling the FIFO or by DMA. What they have in common is one definition with the
flags and values of each as arguments.
-/

namespace Gd32Firmware

open Program

/-! ## Parts -/

/-- Read a variable that the handler writes. -/
def readShared {α : Type} (f : Driver → α) : Program World α := do
  access
  pure (f (← getDrv))

/-- Write a variable that the handler reads or writes. -/
def writeShared (f : Driver → Driver) : Program World Unit := do
  access
  setDrv f

/-- The loop of `sd_datablocksize_get`; a number of 16 bits is `1` after 15 rounds. -/
def blocksizeExponent : ℕ → UInt16 → UInt32
  | 0, _ => 0
  | fuel + 1, bytesnumber =>
    if bytesnumber = 1 then 0 else blocksizeExponent fuel (bytesnumber >>> 1) + 1

def sdDatablocksizeGet (bytesnumber : UInt16) : UInt32 :=
  blocksizeExponent 16 bytesnumber <<< 4

/-- The argument of a command that addresses the card. -/
def rcaArgument (drv : Driver) : UInt32 :=
  drv.sdRca.toUInt32 <<< 16

/-- What the four functions do first : they reset the variables and the data state machine,
check the lock, fix the block size of a high-capacity card and set the block length. -/
def transferSetup (pbuffer : Option ℕ) (addr : UInt32) (blocksize : UInt16)
    (rest : ℕ → UInt32 → UInt16 → Program World SdError) : Program World SdError :=
  match pbuffer with
  | none => pure .parameterInvalid
  | some pbuffer => do
    writeShared fun drv => { drv with transerror := .ok }
    writeShared fun drv => { drv with transend := 0 }
    setDrv fun drv => { drv with totalnumberBytes := 0 }
    configure access (.dataConfig 0 0 0)
    configure access (.dataTransferConfig false)
    configure access (.dsm false)
    configure access (.dma false)
    if (← sdioResponseGet access 0) &&& 0x02000000 ≠ 0 then pure .lockUnlockFailed
    else do
      let highCapacity := decide ((← getDrv).cardtype = .highCapacitySdCard)
      let blocksize := if highCapacity then 512 else blocksize
      let addr := if highCapacity then addr / 512 else addr
      if 0 < blocksize ∧ blocksize ≤ 2048 ∧ blocksize &&& (blocksize - 1) = 0 then
        ifOk (commandR1 access 16 blocksize.toUInt32) (rest pbuffer addr blocksize)
      else pure .parameterInvalid

/-- The configuration of the data state machine for a transfer. -/
def startData (blocksize : UInt16) (toSdio : Bool) : Program World Unit := do
  configure access
    (.dataConfig 0xFFFFFFFF (← getDrv).totalnumberBytes (sdDatablocksizeGet blocksize))
  configure access (.dataTransferConfig toSdio)
  configure access (.dsm true)

/-- The flags that end the polling loops : the error flags of the direction and the one that
says that the data is over. -/
def pollFlags (overrun ended : Flag) : List Flag :=
  [.dtcrcerr, .dttmout, overrun, ended, .stbite]

/-- The error flags that are checked after the polling loops, in this order. -/
def dataFaults (overrun : Flag) (fault : SdError) : List (Flag × SdError) :=
  [(.dtcrcerr, .dataCrcError), (.dttmout, .dataTimeout), (overrun, fault),
    (.stbite, .startBitError)]

/-- The chain that returns the error of the first flag that is set. -/
def checkFaults (acc : Program World Unit) : List (Flag × SdError) → Program World SdError
  | [] => pure .ok
  | (flag, fault) :: faults => do
    if ← sdioFlagGet acc [flag] then do
      sdioFlagClear acc [flag]
      pure fault
    else checkFaults acc faults

/-- Read so many words from the FIFO. -/
def readWords : ℕ → ℕ → Program World Unit
  | 0, _ => pure ()
  | n + 1, ptempbuff => do
    let word ← sdioDataRead access
    modify (·.store ptempbuff word)
    readWords n (ptempbuff + 1)

/-- The polling loop of a read. -/
def pollReceive (ended : Flag) (ptempbuff : ℕ) : Program World ℕ :=
  sdLoop (fun ptempbuff => do
    if ← sdioFlagGet access (pollFlags .rxore ended) then pure (.inr ptempbuff)
    else if ← sdioFlagGet access [.rfh] then do
      readWords 8 ptempbuff
      pure (.inl (ptempbuff + 8))
    else pure (.inl ptempbuff)) ptempbuff

/-- The loop that takes the words left in the FIFO. -/
def drainFifo (ptempbuff : ℕ) : Program World Unit :=
  sdLoop (fun ptempbuff => do
    if ← sdioFlagGet access [.rxdtval] then do
      readWords 1 ptempbuff
      pure (.inl (ptempbuff + 1))
    else pure (.inr ())) ptempbuff

/-- Write so many words to the FIFO. -/
def writeWords : ℕ → ℕ → Program World Unit
  | 0, _ => pure ()
  | n + 1, ptempbuff => do
    sdioDataWrite access ((← get).ram ptempbuff)
    writeWords n (ptempbuff + 1)

/-- A round of the polling loop of a write that finds `TFH`. -/
def sendBurst (ptempbuff : ℕ) (transbytes : UInt32) :
    Program World ((ℕ × UInt32) ⊕ Unit) := do
  note .tfhSeen
  let rest := (← getDrv).totalnumberBytes - transbytes
  if rest < 32 then do
    let restwords := rest / 4 + if rest % 4 = 0 then 0 else 1
    writeWords restwords.toNat ptempbuff
    pure (.inl (ptempbuff + restwords.toNat, transbytes + 4 * restwords))
  else do
    writeWords 8 ptempbuff
    pure (.inl (ptempbuff + 8, transbytes + 32))

/-- A round of the polling loop of a write. -/
def sendRound (ended : Flag) : ℕ × UInt32 → Program World ((ℕ × UInt32) ⊕ Unit) :=
  fun (ptempbuff, transbytes) => do
    if ← sdioFlagGet access (pollFlags .txure ended) then pure (.inr ())
    else if ← sdioFlagGet access [.tfh] then sendBurst ptempbuff transbytes
    else pure (.inl (ptempbuff, transbytes))

/-- The polling loop of a write. -/
def pollSend (ended : Flag) (pwritebuffer : ℕ) : Program World Unit :=
  sdLoop (sendRound ended) (pwritebuffer, 0)

/-- `CMD12` of the polling paths, sent if `DTEND` is set. -/
def stopPolled : Program World SdError := do
  if ← sdioFlagGet access [.dtend] then
    if (← getDrv).cardtype.IsSdMemory then sdTransferStop access else pure .ok
  else pure .ok

/-- The loop that waits for the DMA channel. The result says whether it completed. -/
def waitFtf (timeout : ℕ) : Program World Bool :=
  sdLoop (fun timeout : ℕ => do
    if ← dmaFlagGet access then do
      note .ftfSeen
      pure (.inr true)
    else if timeout - 1 = 0 then do
      note .dmaTimeout
      pure (.inr false)
    else pure (.inl (timeout - 1))) timeout

/-- The loop that waits for the handler, and the check after it. -/
def waitTransend (rest : Program World SdError) : Program World SdError := do
  sdLoop (fun _ => do
    if (← readShared (·.transend)) = 0 then
      if (← readShared (·.transerror)) = .ok then pure (.inl ()) else pure (.inr ())
    else pure (.inr ())) ()
  if (← readShared (·.transerror)) ≠ .ok then readShared (·.transerror) else rest

/-- The end of a DMA transfer that the handler reports. -/
def awaitDma (timeout : ℕ) (rest : Program World SdError) : Program World SdError := do
  if ← waitFtf timeout then waitTransend rest else pure .error

/-- `sd_card_state_get`, with what `pcardstate` points to before and after. -/
def sdCardStateGet (pcardstate : UInt8) : Program World (SdError × UInt8) := do
  sendCommand access 13 (rcaArgument (← getDrv)) .short
  let regStatus ← waitResponse access
  if .ccrcerr ∈ regStatus then do
    sdioFlagClear access [.ccrcerr]
    pure (.cmdCrcError, pcardstate)
  else if .cmdtmout ∈ regStatus then do
    sdioFlagClear access [.cmdtmout]
    pure (.cmdRespTimeout, pcardstate)
  else if (← sdioCommandIndexGet access) ≠ 13 then pure (.illegalCommand, pcardstate)
  else do
    sdioFlagClear access sdioMaskIntcFlags
    let response ← sdioResponseGet access 0
    let cardstate := ((response >>> 9) &&& 0xF).toUInt8
    if response &&& sdR1ErrorBits = 0 then pure (.ok, cardstate)
    else pure (r1ErrorTypeCheck response, cardstate)

/-- The end of the writing functions : wait until the card neither programs nor receives. -/
def finishWrite : Program World SdError := do
  sdioFlagClear access sdioMaskIntcFlags
  sdLoop (fun (status, cardstate) => do
    if status = .ok ∧ (cardstate = 7 ∨ cardstate = 6) then
      pure (.inl (← sdCardStateGet cardstate))
    else pure (.inr status)) (← sdCardStateGet 0)

/-! ## The four functions -/

/-- `sd_block_read` after its data command. -/
def blockReadData (preadbuffer : ℕ) (blocksize : UInt16) : Program World SdError := do
  let transmode := (← getDrv).transmode
  if transmode = sdPollingMode then do
    let ptempbuff ← pollReceive .dtblkend preadbuffer
    ifOk (checkFaults access (dataFaults .rxore .rxOverrunError)) do
      drainFifo ptempbuff
      sdioFlagClear access sdioMaskIntcFlags
      pure .ok
  else if transmode = sdDmaMode then do
    configure access (.interruptEnable [.ccrcerr, .dttmout, .rxore, .dtend, .stbite])
    configure access (.dma true)
    dmaConfig access (.dmaReceive preadbuffer blocksize.toUInt32)
    if ← waitFtf 100000 then pure .ok else pure .error
  else pure .parameterInvalid

def sdBlockRead (preadbuffer : Option ℕ) (readaddr : UInt32) (blocksize : UInt16) :
    Program World SdError :=
  transferSetup preadbuffer readaddr blocksize fun preadbuffer readaddr blocksize => do
    writeShared fun drv => { drv with stopcondition := 0 }
    setDrv fun drv => { drv with totalnumberBytes := blocksize.toUInt32 }
    startData blocksize true
    ifOk (commandR1 access 17 readaddr) (blockReadData preadbuffer blocksize)

/-- `SD_MAX_DATA_LENGTH`. -/
def sdMaxDataLength : UInt32 := 0x01FFFFFF

/-- `sd_multiblocks_read` after its data command. -/
def multiblocksReadData (preadbuffer : ℕ) : Program World SdError := do
  let transmode := (← getDrv).transmode
  if transmode = sdPollingMode then do
    let ptempbuff ← pollReceive .dtend preadbuffer
    ifOk (checkFaults access (dataFaults .rxore .rxOverrunError)) do
      drainFifo ptempbuff
      ifOk stopPolled do
        sdioFlagClear access sdioMaskIntcFlags
        pure .ok
  else if transmode = sdDmaMode then do
    configure access (.interruptEnable [.dtcrcerr, .dttmout, .rxore, .dtend, .stbite])
    configure access (.dma true)
    dmaConfig access (.dmaReceive preadbuffer (← getDrv).totalnumberBytes)
    awaitDma 100000 (pure .ok)
  else pure .parameterInvalid

def sdMultiblocksRead (preadbuffer : Option ℕ) (readaddr : UInt32) (blocksize : UInt16)
    (blocksnumber : UInt32) : Program World SdError :=
  transferSetup preadbuffer readaddr blocksize fun preadbuffer readaddr blocksize =>
    if 1 < blocksnumber then
      if sdMaxDataLength < blocksnumber * blocksize.toUInt32 then pure .parameterInvalid
      else do
        writeShared fun drv => { drv with stopcondition := 1 }
        setDrv fun drv => { drv with totalnumberBytes := blocksnumber * blocksize.toUInt32 }
        startData blocksize true
        ifOk (commandR1 access 18 readaddr) (multiblocksReadData preadbuffer)
    else pure .ok

/-- The loop of `sd_block_write` that waits until the card is ready for data. -/
def waitReady : Program World SdError := do
  let response ← sdioResponseGet access 0
  sdLoop (fun (response, timeout) => do
    if response &&& 0x100 = 0 ∧ 0 < timeout then do
      let status ← commandR1 access 13 (rcaArgument (← getDrv))
      if status ≠ .ok then pure (.inr status)
      else do
        let response ← sdioResponseGet access 0
        pure (.inl (response, timeout - 1))
    else if timeout = 0 then pure (.inr .error)
    else pure (.inr .ok)) (response, (100000 : ℕ))

/-- `sd_block_write` after its data command. -/
def blockWriteData (pwritebuffer : ℕ) (blocksize : UInt16) : Program World SdError := do
  let transmode := (← getDrv).transmode
  if transmode = sdPollingMode then do
    pollSend .dtblkend pwritebuffer
    ifOk (checkFaults access (dataFaults .txure .txUnderrunError)) finishWrite
  else if transmode = sdDmaMode then do
    configure access (.interruptEnable [.dtcrcerr, .dttmout, .txure, .dtend, .stbite])
    dmaConfig access (.dmaTransfer pwritebuffer blocksize.toUInt32)
    configure access (.dma true)
    awaitDma 100000 finishWrite
  else pure .parameterInvalid

def sdBlockWrite (pwritebuffer : Option ℕ) (writeaddr : UInt32) (blocksize : UInt16) :
    Program World SdError :=
  transferSetup pwritebuffer writeaddr blocksize fun pwritebuffer writeaddr blocksize => do
    ifOk (commandR1 access 13 (rcaArgument (← getDrv))) <|
      ifOk waitReady <|
        ifOk (commandR1 access 24 writeaddr) do
          writeShared fun drv => { drv with stopcondition := 0 }
          setDrv fun drv => { drv with totalnumberBytes := blocksize.toUInt32 }
          startData blocksize false
          blockWriteData pwritebuffer blocksize

/-- `sd_multiblocks_write` after its data command. -/
def multiblocksWriteData (pwritebuffer : ℕ) : Program World SdError := do
  let transmode := (← getDrv).transmode
  if transmode = sdPollingMode then do
    pollSend .dtend pwritebuffer
    ifOk (checkFaults access (dataFaults .txure .txUnderrunError)) <|
      ifOk stopPolled do
        sdioFlagClear access sdioMaskIntcFlags
        finishWrite
  else if transmode = sdDmaMode then do
    configure access (.interruptEnable [.dtcrcerr, .dttmout, .txure, .dtend, .stbite])
    configure access (.dma true)
    dmaConfig access (.dmaTransfer pwritebuffer (← getDrv).totalnumberBytes)
    awaitDma 200000 finishWrite
  else pure .parameterInvalid

/-- `CMD55` and `ACMD23`, which announce the number of blocks to an SD memory card. -/
def announceBlocks (blocksnumber : UInt32) : Program World SdError := do
  let drv ← getDrv
  if drv.cardtype.IsSdMemory then
    ifOk (commandR1 access 55 (rcaArgument drv)) (commandR1 access 23 blocksnumber)
  else pure .ok

def sdMultiblocksWrite (pwritebuffer : Option ℕ) (writeaddr : UInt32) (blocksize : UInt16)
    (blocksnumber : UInt32) : Program World SdError :=
  transferSetup pwritebuffer writeaddr blocksize fun pwritebuffer writeaddr blocksize => do
    ifOk (commandR1 access 13 (rcaArgument (← getDrv))) <|
      if 1 < blocksnumber then
        if sdMaxDataLength < blocksnumber * blocksize.toUInt32 then pure .parameterInvalid
        else
          ifOk (announceBlocks blocksnumber) <|
            ifOk (commandR1 access 25 writeaddr) do
              writeShared fun drv => { drv with stopcondition := 1 }
              setDrv fun drv =>
                { drv with totalnumberBytes := blocksnumber * blocksize.toUInt32 }
              startData blocksize false
              multiblocksWriteData pwritebuffer
      else finishWrite

/-! ## The four as a family -/

/-- A function that moves data. -/
inductive Transfer where
  | blockRead
  | multiblocksRead
  | blockWrite
  | multiblocksWrite
  deriving DecidableEq

namespace Transfer

/-- The function; those for a single block take no number of blocks. -/
def run (t : Transfer) (pbuffer : Option ℕ) (addr : UInt32) (blocksize : UInt16)
    (blocksnumber : UInt32) : Program World SdError :=
  match t with
  | blockRead => sdBlockRead pbuffer addr blocksize
  | multiblocksRead => sdMultiblocksRead pbuffer addr blocksize blocksnumber
  | blockWrite => sdBlockWrite pbuffer addr blocksize
  | multiblocksWrite => sdMultiblocksWrite pbuffer addr blocksize blocksnumber

/-- The index of its data command. -/
def dataCommand : Transfer → UInt8
  | blockRead => 17
  | multiblocksRead => 18
  | blockWrite => 24
  | multiblocksWrite => 25

/-- Whether the data goes to the host. -/
def isRead : Transfer → Bool
  | blockRead | multiblocksRead => true
  | blockWrite | multiblocksWrite => false

/-- The value of `stopcondition`. -/
def stop : Transfer → UInt32
  | blockRead | blockWrite => 0
  | multiblocksRead | multiblocksWrite => 1

/-- The part that moves the data. -/
def data (t : Transfer) (pbuffer : ℕ) (blocksize : UInt16) : Program World SdError :=
  match t with
  | blockRead => blockReadData pbuffer blocksize
  | multiblocksRead => multiblocksReadData pbuffer
  | blockWrite => blockWriteData pbuffer blocksize
  | multiblocksWrite => multiblocksWriteData pbuffer

/-- The flag of a FIFO that was not served in time. -/
def overrun : Transfer → Flag
  | blockRead | multiblocksRead => .rxore
  | blockWrite | multiblocksWrite => .txure

/-- The error flags of the data phase. -/
def errors (t : Transfer) : List Flag :=
  [.dtcrcerr, .dttmout, t.overrun, .stbite]

end Transfer

end Gd32Firmware
