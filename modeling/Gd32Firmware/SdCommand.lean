import Gd32Firmware.Sdio

/-!
# Commands, responses and the interrupt handler

The checks of the responses in `user/sys/sdcard.c`, `sd_transfer_stop` and
`sd_interrupts_process`. The handler sends a command of its own, `CMD12`, and checks its
response, so these functions run in both contexts. `access` is an instant of the thread : the
handler runs if the sample activates it. It is not activated again while it runs.
-/

namespace Gd32Firmware

open Program

/-! ## Responses -/

/-- `SD_R1_ERROR_BITS`. -/
def sdR1ErrorBits : UInt32 := 0xFDF9E008

/-- The bits of an R1 response that `r1_error_type_check` looks at, in its order. -/
def r1Errors : List (UInt32 × SdError) :=
  [(0x80000000, .outOfRange), (0x40000000, .addressError), (0x20000000, .blockLenError),
    (0x10000000, .eraseSeqError), (0x08000000, .eraseParam), (0x04000000, .wpViolation),
    (0x01000000, .lockUnlockFailed), (0x00800000, .comCrcError), (0x00400000, .illegalCommand),
    (0x00200000, .cardEccFailed), (0x00100000, .ccError), (0x00080000, .generalUnknownError),
    (0x00010000, .csdOverwrite), (0x00008000, .wpEraseSkip), (0x00004000, .cardEccDisabled),
    (0x00002000, .eraseReset), (0x00000008, .akeSeqError)]

def r1ErrorTypeCheck (resp : UInt32) : SdError :=
  ((r1Errors.find? fun e => resp &&& e.1 ≠ 0).map Prod.snd).getD .error

theorem r1ErrorTypeCheck_ne_ok (resp : UInt32) : r1ErrorTypeCheck resp ≠ .ok := by
  unfold r1ErrorTypeCheck
  cases hfind : r1Errors.find? fun e => resp &&& e.1 ≠ 0 with
  | none => simp
  | some e =>
    have hmem : e ∈ r1Errors := List.mem_of_find?_eq_some hfind
    have hok : ∀ e ∈ r1Errors, e.2 ≠ .ok := by decide
    simpa using hok e hmem

/-- `status = f(); if(SD_OK != status) return status;` and what follows. -/
def ifOk (f rest : Program World SdError) : Program World SdError := do
  let status ← f
  if status = .ok then rest else pure status

section Checks

variable (acc : Program World Unit)

/-- The loop that waits until a response has arrived or failed. The result is the status
register it saw last. -/
def waitResponse : Program World (List Flag) :=
  sdLoop (fun _ => do
    let regStatus ← sdioStat acc
    if anySet [.ccrcerr, .cmdtmout, .cmdrecv] regStatus then pure (.inr regStatus)
    else pure (.inl ())) ()

/-- The branches that return for a response with a wrong checksum and for none. -/
def responseError (regStatus : List Flag) (rest : Program World SdError) :
    Program World SdError :=
  if .ccrcerr ∈ regStatus then do
    sdioFlagClear acc [.ccrcerr]
    pure .cmdCrcError
  else if .cmdtmout ∈ regStatus then do
    sdioFlagClear acc [.cmdtmout]
    pure .cmdRespTimeout
  else rest

def cmdsentErrorCheck : Program World SdError := do
  let timeout ← sdLoop (fun timeout : ℕ => do
    if ← sdioFlagGet acc [.cmdsend] then pure (.inr timeout)
    else if 0 < timeout then pure (.inl (timeout - 1))
    else pure (.inr timeout)) 100000
  if timeout = 0 then pure .cmdRespTimeout
  else do
    sdioFlagClear acc sdioMaskIntcFlags
    pure .ok

/-- The clearing of all flags in `r1_error_check`. -/
def takeResponse (cmdindex : UInt8) : Program World Unit := do
  sdioFlagClear acc sdioMaskIntcFlags
  note (.taken cmdindex)

def r1ErrorCheck (cmdindex : UInt8) : Program World SdError := do
  let regStatus ← waitResponse acc
  responseError acc regStatus do
    if (← sdioCommandIndexGet acc) ≠ cmdindex then pure .illegalCommand
    else do
      takeResponse acc cmdindex
      let respR1 ← sdioResponseGet acc 0
      if respR1 &&& sdR1ErrorBits = 0 then do
        note (.accepted cmdindex)
        pure .ok
      else pure (r1ErrorTypeCheck respR1)

def r2ErrorCheck : Program World SdError := do
  let regStatus ← waitResponse acc
  responseError acc regStatus do
    sdioFlagClear acc sdioMaskIntcFlags
    pure .ok

/-- `r3_error_check` does not look at `CCRCERR` : the response has no checksum. -/
def r3ErrorCheck : Program World SdError := do
  let regStatus ← waitResponse acc
  if .cmdtmout ∈ regStatus then do
    sdioFlagClear acc [.cmdtmout]
    pure .cmdRespTimeout
  else do
    sdioFlagClear acc sdioMaskIntcFlags
    pure .ok

/-- `r6_error_check`, with what `prca` points to before and after. -/
def r6ErrorCheck (cmdindex : UInt8) (prca : UInt16) : Program World (SdError × UInt16) := do
  let regStatus ← waitResponse acc
  if .ccrcerr ∈ regStatus then do
    sdioFlagClear acc [.ccrcerr]
    pure (.cmdCrcError, prca)
  else if .cmdtmout ∈ regStatus then do
    sdioFlagClear acc [.cmdtmout]
    pure (.cmdRespTimeout, prca)
  else if (← sdioCommandIndexGet acc) ≠ cmdindex then pure (.illegalCommand, prca)
  else do
    sdioFlagClear acc sdioMaskIntcFlags
    let response ← sdioResponseGet acc 0
    if response &&& (0x8000 ||| 0x4000 ||| 0x2000) = 0 then
      pure (.ok, (response >>> 16).toUInt16)
    else if response &&& 0x8000 ≠ 0 then pure (.comCrcError, prca)
    else if response &&& 0x4000 ≠ 0 then pure (.illegalCommand, prca)
    else pure (.generalUnknownError, prca)

/-- `r7_error_check` waits a bounded time, and clears only the flag that it found. -/
def r7ErrorCheck : Program World SdError := do
  let regStatus ← sdioStat acc
  let (regStatus, timeout) ← sdLoop (fun (regStatus, timeout) => do
    if ¬ anySet [.ccrcerr, .cmdtmout, .cmdrecv] regStatus ∧ 0 < timeout then do
      let regStatus ← sdioStat acc
      pure (.inl (regStatus, timeout - 1))
    else pure (.inr (regStatus, timeout))) (regStatus, (100000 : ℕ))
  if .cmdtmout ∈ regStatus ∨ timeout = 0 then do
    sdioFlagClear acc [.cmdtmout]
    pure .cmdRespTimeout
  else if .cmdrecv ∈ regStatus then do
    sdioFlagClear acc [.cmdrecv]
    note (.accepted 8)
    pure .ok
  else pure .error

/-- A command with an R1 response, and its check. -/
def commandR1 (cmdindex : UInt8) (argument : UInt32) : Program World SdError := do
  sendCommand acc cmdindex argument .short
  r1ErrorCheck acc cmdindex

/-- `sd_transfer_stop`. -/
def sdTransferStop : Program World SdError :=
  commandR1 acc 12 0

end Checks

/-! ## The interrupt handler -/

/-- The interrupts that the handler disables. -/
def handledInterrupts : List Flag :=
  [.dtcrcerr, .dttmout, .dtend, .stbite, .tfh, .rfh, .txure, .rxore]

/-- The error branches of the handler, in its order. -/
def handlerFaults : List (Flag × SdError) :=
  [(.dtcrcerr, .dataCrcError), (.dttmout, .dataTimeout), (.stbite, .startBitError),
    (.txure, .txUnderrunError), (.rxore, .rxOverrunError)]

/-- What every error branch of the handler does. -/
def handlerFault (flag : Flag) (fault : SdError) : Program World SdError := do
  note (.irqFault flag)
  sdioFlagClear masked [flag]
  configure masked (.interruptDisable handledInterrupts)
  setDrv fun drv => { drv with numberBytes := 0, transerror := fault }
  pure fault

/-- The error branches one after the other. -/
def handleFaults : List (Flag × SdError) → Program World SdError
  | [] => do pure (← getDrv).transerror
  | (flag, fault) :: faults => do
    if ← sdioFlagGet masked [flag] then handlerFault flag fault else handleFaults faults

/-- The stop command of the handler, which ends a transfer of several blocks. -/
def handlerStop (stopcondition : UInt32) : Program World SdError :=
  if stopcondition = 1 then sdTransferStop masked else pure .ok

/-- The branch of the handler for the end of the data. -/
def handleEnd : Program World SdError := do
  let stopcondition := (← getDrv).stopcondition
  note (.irqEnd stopcondition)
  let transerror ← handlerStop stopcondition
  setDrv fun drv => { drv with transerror := transerror }
  sdioFlagClear masked [.dtend]
  configure masked (.interruptDisable handledInterrupts)
  setDrv fun drv => { drv with transend := 1, numberBytes := 0 }
  pure transerror

def sdInterruptsProcess : Program World SdError := do
  note (.irq (← getDrv).transerror)
  setDrv fun drv => { drv with transerror := .ok }
  if ← sdioFlagGet masked [.dtend] then handleEnd else handleFaults handlerFaults

/-- An instant of the thread. -/
def access : Program World Unit := do
  if ← tick then
    let _ ← sdInterruptsProcess
    pure ()
  else pure ()

end Gd32Firmware
