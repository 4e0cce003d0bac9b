import Gd32Firmware.SdTransferRules

/-!
# What the interrupt handler leaves of an error

`sd_interrupts_process` resets `transerror` when it starts, looks for `DTEND` before it looks for
the error flags, and takes the first branch that applies. So what `transerror` says after an
activation depends on that activation alone (`exec_sdInterruptsProcess`) : an error is left if
`DTEND` is not set and an error flag is found (`FoundIn`), or if `DTEND` is set and the stop
command fails.

A transfer is a sequence of activations, and nothing else writes `transerror` in between
(`Activations`). An error that one of them has found stays exactly as long as every later one
leaves an error itself (`dmaErrors_sticky_iff`), and the wait of the thread can only end well in a
state without one.
-/

namespace Gd32Firmware

open Program

/-! ## The flags that an activation finds -/

/-- `SDIO_STAT` after a sample. -/
def seen (stat : List Flag) (s : Sample) : List Flag :=
  stat.filter (· ∈ sdioMaskIntcFlags) ++ s.flags

/-- The error flags of the handler, in the order of its tests. -/
def errorFlags : List Flag :=
  handlerFaults.map Prod.fst

/-- One of the flags is set when it is tested. The tests take the samples one after the other, and
the first flag that is found ends them. -/
def FoundIn : List Flag → List Flag → List Sample → Prop
  | [], _, _ => False
  | _ :: _, _, [] => False
  | flag :: flags, stat, s :: tape => flag ∈ seen stat s ∨ FoundIn flags (seen stat s) tape

instance decidableFoundIn : (flags stat : List Flag) → (tape : List Sample) →
    Decidable (FoundIn flags stat tape)
  | [], _, _ => isFalse id
  | _ :: _, _, [] => isFalse id
  | flag :: flags, stat, s :: tape =>
    have : Decidable (FoundIn flags (seen stat s) tape) :=
      decidableFoundIn flags (seen stat s) tape
    inferInstanceAs (Decidable (flag ∈ seen stat s ∨ FoundIn flags (seen stat s) tape))

/-- An activation that starts here finds `DTEND`. -/
def FindsEnd (w : World) : Prop :=
  ∃ s ∈ w.tape.head?, .dtend ∈ seen w.sdio.stat s

/-- An activation that starts here finds an error flag : when it looks for `DTEND`, or when it
tests the flag. -/
def Finds (w : World) : Prop :=
  ∃ s ∈ w.tape.head?, (∃ flag ∈ errorFlags, flag ∈ seen w.sdio.stat s) ∨
    .dtend ∉ seen w.sdio.stat s ∧ FoundIn errorFlags (seen w.sdio.stat s) w.tape.tail

/-- The registers that a response changes. -/
structure ResponseRegs where
  stat : List Flag
  rspcmdidx : UInt8
  resp : Fin 4 → UInt32

def World.regs (w : World) : ResponseRegs :=
  ⟨w.sdio.stat, w.sdio.rspcmdidx, w.sdio.resp⟩

/-- A sample. -/
def ResponseRegs.observe (r : ResponseRegs) (s : Sample) : ResponseRegs where
  stat := seen r.stat s
  rspcmdidx := (s.response.map Prod.fst).getD r.rspcmdidx
  resp := (s.response.map Prod.snd).getD r.resp

/-- The response to a command is good : when a flag of the response is set, it is none for an
error; then the index is the one of the command, and after the flags are cleared no error bit is
set. -/
def GoodResponse (index : UInt8) : ResponseRegs → List Sample → Prop
  | _, [] => False
  | r, s :: tape =>
    if anySet [.ccrcerr, .cmdtmout, .cmdrecv] (seen r.stat s) then
      .ccrcerr ∉ seen r.stat s ∧ .cmdtmout ∉ seen r.stat s ∧
        ∃ s₁ s₂ s₃ tape', tape = s₁ :: s₂ :: s₃ :: tape' ∧
          ((r.observe s).observe s₁).rspcmdidx = index ∧
          ((((r.observe s).observe s₁).observe s₂).observe s₃).resp 0 &&& sdR1ErrorBits = 0
    else GoodResponse index (r.observe s) tape

/-- The card accepts the stop command of an activation that starts here. The look at `DTEND` and
the sending of the command take four samples. -/
def StopAccepted (w : World) : Prop :=
  GoodResponse 12 ((w.tape.take 4).foldl ResponseRegs.observe w.regs) (w.tape.drop 4)

/-- An activation that starts here leaves an error. -/
def LeavesError (w : World) : Prop :=
  (¬ FindsEnd w ∧ Finds w) ∨ (FindsEnd w ∧ w.drv.stopcondition = 1 ∧ ¬ StopAccepted w)

instance (w : World) : Decidable (FindsEnd w) :=
  inferInstanceAs (Decidable (∃ s ∈ w.tape.head?, _))

instance (w : World) : Decidable (Finds w) :=
  inferInstanceAs (Decidable (∃ s ∈ w.tape.head?, _))

/-! ## One activation -/

/-- What the handler does first, before its branches. -/
def handlerEntry : Program World Bool := do
  note (.irq (← getDrv).transerror)
  setDrv fun drv => { drv with transerror := .ok }
  sdioFlagGet masked [.dtend]

theorem sdInterruptsProcess_eq :
    sdInterruptsProcess = (do
      if ← handlerEntry then handleEnd else handleFaults handlerFaults) := by
  simp only [sdInterruptsProcess, handlerEntry, bind_assoc]

section Exec

variable {w w' : World} {s : Sample} {tape : List Sample} {status : SdError}

theorem exec_reads_nil {α : Type} {f : World → α} (h : w.tape = []) :
    exec (do masked; Pure.pure (f (← get))) w = (none, w) := by
  obtain ⟨_, sdio, drv, ram, log⟩ := w
  obtain rfl : _ = [] := h
  rfl

/-- An instant of the handler, and what is read after it. -/
theorem exec_reads_cons {α : Type} (h : w.tape = s :: tape) (f : World → α) :
    exec (do masked; Pure.pure (f (← get))) w =
      (some (f (w.observe s tape)), w.observe s tape) := by
  obtain ⟨_, sdio, drv, ram, log⟩ := w
  obtain rfl : _ = s :: tape := h
  rfl

theorem exec_masked_nil (h : w.tape = []) : exec masked w = (none, w) := by
  obtain ⟨_, sdio, drv, ram, log⟩ := w
  obtain rfl : _ = [] := h
  rfl

theorem exec_masked_cons (h : w.tape = s :: tape) :
    exec masked w = (some (), w.observe s tape) := by
  obtain ⟨_, sdio, drv, ram, log⟩ := w
  obtain rfl : _ = s :: tape := h
  rfl

theorem exec_flagGet_nil (h : w.tape = []) (mask : List Flag) :
    exec (sdioFlagGet masked mask) w = (none, w) := by
  rw [sdioFlagGet, sdioStat, exec_bind, exec_reads_nil h]

theorem exec_flagGet_cons (h : w.tape = s :: tape) (mask : List Flag) :
    exec (sdioFlagGet masked mask) w =
      (some (decide (anySet mask (seen w.sdio.stat s))), w.observe s tape) := by
  rw [sdioFlagGet, sdioStat, exec_bind_of_eq (exec_reads_cons h _)]
  rfl

/-- The state after the entry. -/
def World.entered (w : World) (s : Sample) (tape : List Sample) : World :=
  ((w.note (.irq w.drv.transerror)).setDrv fun drv => { drv with transerror := .ok }).observe s tape

theorem exec_handlerEntry (h : w.tape = s :: tape) :
    exec handlerEntry w = (some (decide (.dtend ∈ seen w.sdio.stat s)), w.entered s tape) := by
  have hflag := exec_flagGet_cons (w := (w.note (.irq w.drv.transerror)).setDrv
    fun drv => { drv with transerror := .ok }) h [.dtend]
  rw [show exec handlerEntry w = _ from hflag]
  simp only [anySet_singleton]
  rfl

theorem findsEnd_cons (h : w.tape = s :: tape) :
    FindsEnd w ↔ .dtend ∈ seen w.sdio.stat s := by
  simp [FindsEnd, h]

theorem finds_cons (h : w.tape = s :: tape) :
    Finds w ↔ (∃ flag ∈ errorFlags, flag ∈ seen w.sdio.stat s) ∨
      .dtend ∉ seen w.sdio.stat s ∧ FoundIn errorFlags (seen w.sdio.stat s) tape := by
  simp [Finds, h]

/-! ### The stop command -/

/-- A program that returns no `SD_OK`. -/
theorem exec_ne_ok {m : Program World SdError} {P E : World → Prop}
    (h : Triple P m (fun status _ => status ≠ .ok) E) (hw : P w) : (exec m w).1 ≠ some .ok := by
  intro hok
  exact h.of_eq_some hw (exec_of_fst hok) rfl

/-- After the index is the one of the command. -/
theorem exec_takeResponse (index : UInt8) :
    (exec (do
        takeResponse masked index
        let respR1 ← sdioResponseGet masked 0
        if respR1 &&& sdR1ErrorBits = 0 then do
          note (.accepted index)
          pure .ok
        else pure (r1ErrorTypeCheck respR1)) w).1 = some .ok ↔
      ∃ s₂ s₃ tape', w.tape = s₂ :: s₃ :: tape' ∧
        ((w.regs.observe s₂).observe s₃).resp 0 &&& sdR1ErrorBits = 0 := by
  cases h₂ : w.tape with
  | nil =>
    have hnone : exec (takeResponse masked index) w = (none, w) := by
      rw [takeResponse, sdioFlagClear, exec_bind, exec_bind, exec_masked_nil h₂]
    rw [exec_bind, hnone]
    simp
  | cons s₂ tape =>
    have htake : exec (takeResponse masked index) w =
        (some (), ((w.observe s₂ tape).clear sdioMaskIntcFlags).note (.taken index)) := by
      rw [takeResponse, sdioFlagClear, exec_bind, exec_bind_of_eq (exec_masked_cons h₂)]
      rfl
    rw [exec_bind_of_eq htake, sdioResponseGet]
    cases h₃ : tape with
    | nil =>
      have hnil : (((w.observe s₂ tape).clear sdioMaskIntcFlags).note (.taken index)).tape = [] :=
        h₃
      rw [exec_bind, ← h₃, exec_reads_nil hnil]
      simp [h₃]
    | cons s₃ tape' =>
      have hcons : (((w.observe s₂ tape).clear sdioMaskIntcFlags).note (.taken index)).tape =
          s₃ :: tape' := h₃
      rw [← h₃, exec_bind_of_eq (exec_reads_cons hcons _)]
      show (exec (if ((w.regs.observe s₂).observe s₃).resp 0 &&& sdR1ErrorBits = 0 then _ else _)
        _).1 = some SdError.ok ↔ _
      by_cases hbits : ((w.regs.observe s₂).observe s₃).resp 0 &&& sdR1ErrorBits = 0
      · rw [if_pos hbits]
        exact iff_of_true rfl ⟨s₂, s₃, tape', by rw [h₃], hbits⟩
      · rw [if_neg hbits]
        refine iff_of_false (fun h => r1ErrorTypeCheck_ne_ok _ (Option.some_inj.mp h)) ?_
        rintro ⟨s₂', s₃', _, heq, hzero⟩
        rw [h₃] at heq
        obtain ⟨rfl, rfl, -⟩ : s₂ = s₂' ∧ s₃ = s₃' ∧ _ := by simpa using heq
        exact hbits hzero

/-- After a flag of the response is set. -/
theorem exec_responseError (index : UInt8) (regStatus : List Flag) :
    (exec (responseError masked regStatus do
        if (← sdioCommandIndexGet masked) ≠ index then pure .illegalCommand
        else do
          takeResponse masked index
          let respR1 ← sdioResponseGet masked 0
          if respR1 &&& sdR1ErrorBits = 0 then do
            note (.accepted index)
            pure .ok
          else pure (r1ErrorTypeCheck respR1)) w).1 = some .ok ↔
      .ccrcerr ∉ regStatus ∧ .cmdtmout ∉ regStatus ∧
        ∃ s₁ s₂ s₃ tape', w.tape = s₁ :: s₂ :: s₃ :: tape' ∧
          (w.regs.observe s₁).rspcmdidx = index ∧
          (((w.regs.observe s₁).observe s₂).observe s₃).resp 0 &&& sdR1ErrorBits = 0 := by
  have hfails : ∀ flag fault, fault ≠ SdError.ok → (exec (do
      sdioFlagClear masked [flag]
      pure fault) w).1 ≠ some .ok := fun flag fault hfault => exec_ne_ok (P := fun _ => True)
    (Triple.bind (Q := fun _ _ => True) Triple.trivial fun _ => Triple.pure _ fun _ _ => hfault)
    trivial
  unfold responseError
  by_cases hcrc : .ccrcerr ∈ regStatus
  · rw [if_pos hcrc]
    exact iff_of_false (hfails _ _ (by decide)) fun h => h.1 hcrc
  by_cases htmout : .cmdtmout ∈ regStatus
  · rw [if_neg hcrc, if_pos htmout]
    exact iff_of_false (hfails _ _ (by decide)) fun h => h.2.1 htmout
  rw [if_neg hcrc, if_neg htmout]
  simp only [hcrc, htmout, not_false_eq_true, true_and]
  cases h₁ : w.tape with
  | nil =>
    rw [sdioCommandIndexGet, exec_bind, exec_reads_nil h₁]
    simp
  | cons s₁ tape =>
    rw [sdioCommandIndexGet, exec_bind_of_eq (exec_reads_cons h₁ _)]
    by_cases hindex : (w.observe s₁ tape).sdio.rspcmdidx = index
    · rw [if_neg (not_not.mpr hindex), exec_takeResponse]
      constructor
      · rintro ⟨s₂, s₃, tape', heq, hbits⟩
        have heq : tape = s₂ :: s₃ :: tape' := heq
        exact ⟨s₁, s₂, s₃, tape', by rw [heq], hindex, hbits⟩
      · rintro ⟨_, s₂, s₃, tape', heq, -, hbits⟩
        obtain ⟨rfl, rfl⟩ := List.cons.inj heq
        exact ⟨s₂, s₃, tape', rfl, hbits⟩
    · rw [if_pos hindex]
      refine iff_of_false (by simp) ?_
      rintro ⟨s₁', s₂, s₃, tape', heq, hidx, -⟩
      obtain ⟨rfl, -⟩ := List.cons.inj heq
      exact hindex hidx

/-- The check of an R1 response succeeds exactly if the response is good. -/
theorem exec_r1ErrorCheck (index : UInt8) :
    (exec (r1ErrorCheck masked index) w).1 = some .ok ↔ GoodResponse index w.regs w.tape := by
  rw [r1ErrorCheck, waitResponse, sdLoop, exec_bind, exec_bind_of_eq (exec_get _), ← exec_bind]
  -- the loop goes through the samples
  induction htape : w.tape generalizing w with
  | nil =>
    rw [iterate, exec_bind, exec_bind, exec_bind, sdioStat, exec_reads_nil htape]
    exact iff_of_false nofun id
  | cons s tape ih =>
    rw [List.length_cons, iterate, exec_bind, exec_bind, sdioStat,
      exec_bind_of_eq (exec_reads_cons htape _), GoodResponse]
    by_cases hset : anySet [.ccrcerr, .cmdtmout, .cmdrecv] (w.observe s tape).sdio.stat
    · rw [if_pos hset, exec_pure]
      exact (exec_responseError (w := w.observe s tape) index _).trans (if_pos hset).symm.to_iff
    · rw [if_neg hset, exec_pure]
      have hrest := ih (w := w.observe s tape) rfl
      rw [exec_bind] at hrest
      exact hrest.trans (if_neg hset).symm.to_iff

/-- The sending of the command takes three samples. -/
theorem exec_sdTransferStop :
    (exec (sdTransferStop masked) w).1 = some .ok ↔
      GoodResponse 12 ((w.tape.take 3).foldl ResponseRegs.observe w.regs) (w.tape.drop 3) := by
  have hshort : w.tape.length < 3 → (exec (sendCommand masked 12 0 .short) w).1 = none := by
    obtain ⟨_ | ⟨s₀, _ | ⟨s₁, _ | ⟨s₂, tape⟩⟩⟩, sdio, drv, ram, log⟩ := w
    · exact fun _ => rfl
    · exact fun _ => rfl
    · exact fun _ => rfl
    · exact fun h => absurd h (by simp)
  rw [sdTransferStop, commandR1]
  rcases htape : w.tape with _ | ⟨s₀, _ | ⟨s₁, _ | ⟨s₂, tape⟩⟩⟩
  case cons.cons.cons =>
    have hsend : ∃ w', exec (sendCommand masked 12 0 .short) w = (some (), w') ∧
        w'.tape = tape ∧ w'.regs = [s₀, s₁, s₂].foldl ResponseRegs.observe w.regs := by
      obtain ⟨_, sdio, drv, ram, log⟩ := w
      obtain rfl : _ = s₀ :: s₁ :: s₂ :: tape := htape
      exact ⟨_, rfl, rfl, rfl⟩
    obtain ⟨w', hrun, rfl, hregs⟩ := hsend
    rw [exec_bind_of_eq hrun, exec_r1ErrorCheck, hregs]
    rfl
  all_goals exact iff_of_false (by rw [exec_bind_none (hshort (by simp [htape]))]; nofun) id

/-- The error branches, from a state without an error : one is left if a flag is found. -/
theorem exec_handleFaults : ∀ {faults : List (Flag × SdError)} {w : World},
    (∀ e ∈ faults, e.2 ≠ .ok) → w.drv.transerror = .ok →
    exec (handleFaults faults) w = (some status, w') →
    (w'.drv.transerror ≠ .ok ↔ FoundIn (faults.map Prod.fst) w.sdio.stat w.tape)
  | [], w, _, hok, hrun => by
    obtain ⟨drv, w₁, hdrv, hrun⟩ := exec_bind_eq_some.mp hrun
    obtain ⟨-, rfl⟩ := Prod.mk.inj hrun
    obtain ⟨-, rfl⟩ := Prod.mk.inj hdrv
    exact iff_of_false (not_not.mpr hok) id
  | (flag, fault) :: faults, w, hfaults, hok, hrun => by
    rw [handleFaults] at hrun
    cases htape : w.tape with
    | nil =>
      rw [exec_bind, exec_flagGet_nil htape] at hrun
      exact nomatch hrun
    | cons s tape =>
      rw [exec_bind_of_eq (exec_flagGet_cons htape _)] at hrun
      simp only [decide_eq_true_eq, anySet_singleton] at hrun
      rw [List.map_cons, FoundIn]
      by_cases hset : flag ∈ seen w.sdio.stat s
      · rw [if_pos hset] at hrun
        refine iff_of_true ?_ (Or.inl hset)
        have hleft : Triple (fun _ => True) (handlerFault flag fault)
            (fun _ w => w.drv.transerror = fault) fun _ => True := by
          refine Triple.bind (Q := fun _ _ => True) Triple.trivial fun _ => ?_
          refine Triple.bind (Q := fun _ _ => True) Triple.trivial fun _ => ?_
          refine Triple.bind (Q := fun _ _ => True) Triple.trivial fun _ => ?_
          exact Triple.bind (Q := fun _ w => w.drv.transerror = fault)
            (Triple.setDrv fun _ _ => rfl) fun _ => Triple.pure _ fun _ h => h
        rw [hleft.of_eq_some trivial hrun]
        exact hfaults _ List.mem_cons_self
      · rw [if_neg hset] at hrun
        rw [exec_handleFaults (fun e he => hfaults e (List.mem_cons_of_mem _ he))
          (by exact hok) hrun, or_iff_right hset]
        rfl

/-- A flag of the mask stays set until it is tested. -/
theorem foundIn_of_mem : ∀ {faults : List (Flag × SdError)} {w : World} {flag : Flag},
    flag ∈ faults.map Prod.fst → flag ∈ sdioMaskIntcFlags → flag ∈ w.sdio.stat →
    exec (handleFaults faults) w = (some status, w') →
    FoundIn (faults.map Prod.fst) w.sdio.stat w.tape
  | [], w, flag, hmem, _, _, _ => nomatch hmem
  | (flag', fault) :: faults, w, flag, hmem, hmask, hset, hrun => by
    rw [handleFaults] at hrun
    cases htape : w.tape with
    | nil =>
      rw [exec_bind, exec_flagGet_nil htape] at hrun
      exact nomatch hrun
    | cons s tape =>
      rw [exec_bind_of_eq (exec_flagGet_cons htape _)] at hrun
      simp only [decide_eq_true_eq, anySet_singleton] at hrun
      have hseen : flag ∈ seen w.sdio.stat s := by simp [seen, hset, hmask]
      rw [List.map_cons, FoundIn]
      by_cases hfirst : flag' ∈ seen w.sdio.stat s
      · exact Or.inl hfirst
      · rw [if_neg hfirst] at hrun
        refine Or.inr (foundIn_of_mem (w := w.observe s tape) ?_ hmask hseen hrun)
        refine (List.mem_cons.mp hmem).resolve_left ?_
        rintro rfl
        exact hfirst hseen

/-- What the branch for the end of the data does after its stop command. -/
theorem keeps_transerror_end (r : SdError) :
    Triple (fun w => w.drv.transerror = r) (do
      sdioFlagClear masked [.dtend]
      configure masked (.interruptDisable handledInterrupts)
      setDrv fun drv => { drv with transend := 1, numberBytes := 0 }
      pure r) (fun _ w => w.drv.transerror = r) fun w => w.drv.transerror = r := by
  have hmasked : Keeps (fun w => w.drv.transerror = r) masked := Keeps.masked fun _ _ _ h => h
  refine Keeps.bind (Keeps.sdioFlagClear hmasked fun _ h => h) fun _ => ?_
  refine Keeps.bind (Keeps.configure hmasked fun _ h => h) fun _ => ?_
  exact Keeps.bind (Keeps.setDrv fun _ h => h) fun _ => Keeps.pure _

/-- The branch for the end of the data leaves what the stop command returns. -/
theorem exec_handleEnd (hrun : exec handleEnd w = (some status, w')) :
    (exec (handlerStop w.drv.stopcondition) (w.note (.irqEnd w.drv.stopcondition))).1 =
      some w'.drv.transerror := by
  obtain ⟨drv, w₁, hdrv, hrun⟩ := exec_bind_eq_some.mp hrun
  obtain ⟨hsome, rfl⟩ := Prod.mk.inj hdrv
  obtain rfl := Option.some_inj.mp hsome
  obtain ⟨_, w₂, hnote, hrun⟩ := exec_bind_eq_some.mp hrun
  obtain ⟨-, rfl⟩ := Prod.mk.inj hnote
  obtain ⟨r, w₃, hstop, hrun⟩ := exec_bind_eq_some.mp hrun
  obtain ⟨_, w₄, hset, hrun⟩ := exec_bind_eq_some.mp hrun
  obtain ⟨-, rfl⟩ := Prod.mk.inj hset
  have hleft : w'.drv.transerror = r := (keeps_transerror_end r).of_eq_some rfl hrun
  rw [hleft]
  exact congrArg Prod.fst hstop

/-- An activation leaves an error in `transerror` exactly if its flags and its stop command say
so, whatever was there before. -/
theorem exec_sdInterruptsProcess (hrun : exec sdInterruptsProcess w = (some status, w')) :
    w'.drv.transerror ≠ .ok ↔ LeavesError w := by
  rw [sdInterruptsProcess_eq] at hrun
  cases htape : w.tape with
  | nil =>
    have hnone : exec handlerEntry w = (none, _) :=
      exec_flagGet_nil (w := (w.note (.irq w.drv.transerror)).setDrv
        fun drv => { drv with transerror := .ok }) htape [.dtend]
    rw [exec_bind, hnone] at hrun
    exact nomatch hrun
  | cons s tape =>
    have hentry := exec_handlerEntry htape
    rw [exec_bind_of_eq hentry] at hrun
    simp only [decide_eq_true_eq] at hrun
    rw [LeavesError, findsEnd_cons htape, finds_cons htape]
    by_cases hend : .dtend ∈ seen w.sdio.stat s
    · rw [if_pos hend] at hrun
      have hstop := exec_handleEnd hrun
      rw [show (w.entered s tape).drv.stopcondition = w.drv.stopcondition from rfl,
        handlerStop] at hstop
      by_cases hone : w.drv.stopcondition = 1
      · rw [if_pos hone, hone] at hstop
        have haccepted : StopAccepted w ↔ w'.drv.transerror = .ok := by
          have hcard := exec_sdTransferStop (w := (w.entered s tape).note (.irqEnd 1))
          rw [hstop] at hcard
          rw [StopAccepted, htape]
          refine hcard.symm.trans ?_
          exact Option.some_inj
        simp [hend, hone, haccepted]
      · rw [if_neg hone] at hstop
        have hok : w'.drv.transerror = .ok := (Option.some_inj.mp hstop).symm
        simp [hend, hone, hok]
    · rw [if_neg hend] at hrun
      have hne : ∀ e ∈ handlerFaults, e.2 ≠ .ok := by decide
      have hmask : ∀ flag ∈ errorFlags, flag ∈ sdioMaskIntcFlags := by decide
      rw [exec_handleFaults hne rfl hrun]
      have hset : (∃ flag ∈ errorFlags, flag ∈ seen w.sdio.stat s) →
          FoundIn errorFlags (seen w.sdio.stat s) tape := by
        rintro ⟨flag, hflag, hset⟩
        exact foundIn_of_mem (w := w.entered s tape) hflag (hmask flag hflag) hset hrun
      show FoundIn errorFlags (seen w.sdio.stat s) tape ↔ _
      simp only [hend, not_false_eq_true, true_and, false_and, or_false]
      exact ⟨Or.inr, fun h => h.elim hset id⟩

end Exec

/-! ## The activations of a transfer -/

/-- The states in which the handler was activated since the transfer has reset `transerror`,
newest first, and the state that they have led to. Between two activations the thread and the
hardware may do anything, but `transerror` is not written. -/
inductive Activations : List World → World → Prop
  | start {w : World} : w.drv.transerror = .ok → Activations [] w
  | thread {acts : List World} {w w' : World} : Activations acts w →
      w'.drv.transerror = w.drv.transerror → Activations acts w'
  | handler {acts : List World} {w w' : World} {status : SdError} : Activations acts w →
      exec sdInterruptsProcess w = (some status, w') → Activations (w :: acts) w'

/-- When an activation has found an error, one is in `transerror`. -/
def Sticky (acts : List World) (w : World) : Prop :=
  (∃ a ∈ acts, Finds a) → w.drv.transerror ≠ .ok

/-- When an activation has found an error, the last one leaves an error. -/
def LastLeavesError (acts : List World) : Prop :=
  (∃ a ∈ acts, Finds a) → ∃ a ∈ acts.head?, LeavesError a

/-- What is in `transerror` comes from the last activation. -/
theorem Activations.transerror {acts : List World} {w : World} (h : Activations acts w) :
    w.drv.transerror ≠ .ok ↔ ∃ a ∈ acts.head?, LeavesError a := by
  induction h with
  | start hok => simp [hok]
  | thread _ hsame ih => rw [hsame, ih]
  | handler _ hrun _ => simp [exec_sdInterruptsProcess hrun]

/-! ### The thread -/

/-- These activations were followed by others. -/
def Later (acts : List World) (w : World) : Prop :=
  ∃ acts', Activations (acts' ++ acts) w

/-- A success has seen a state without an error. -/
def Succeeds (acts : List World) (status : SdError) : Prop :=
  status = .ok → ∃ acts' w, Activations (acts' ++ acts) w ∧ w.drv.transerror = .ok

section Thread

variable {acts : List World} {w w' : World}

theorem Later.thread (h : Later acts w) (hsame : w'.drv.transerror = w.drv.transerror) :
    Later acts w' :=
  h.imp fun _ h => h.thread hsame

theorem Later.succeeds (h : Later acts w) (hok : w.drv.transerror = .ok) (status : SdError) :
    Succeeds acts status :=
  fun _ => h.imp fun _ h => ⟨w, h, hok⟩

/-- At an instant of the thread nothing happens, or an activation. -/
theorem later_access : Triple (Later acts) access (fun _ => Later acts) fun _ => True := by
  refine Triple.bind (Triple.tick (Q := fun _ => Later acts) (fun s tape w h => h.thread rfl)
    fun _ _ => trivial) fun irq => ?_
  refine Triple.ite (fun _ => ?_) fun _ => Triple.pure _ fun _ h => h
  refine Triple.bind (Q := fun _ => Later acts) ?_ fun _ => Triple.pure _ fun _ h => h
  rintro w ⟨acts', h⟩
  rcases heq : exec sdInterruptsProcess w with ⟨_ | status, w'⟩
  · trivial
  · exact ⟨w :: acts', h.handler heq⟩

theorem later_configure (s : Setting) :
    Triple (Later acts) (configure access s) (fun _ => Later acts) fun _ => True :=
  Triple.bind later_access fun _ => Triple.note fun _ h => h.thread rfl

theorem later_dmaConfig (s : Setting) :
    Triple (Later acts) (dmaConfig access s) (fun _ => Later acts) fun _ => True :=
  Triple.bind later_access fun _ => Triple.bind (Q := fun _ => Later acts)
    (Triple.modify _ fun _ h => h.thread rfl) fun _ => Triple.note fun _ h => h.thread rfl

/-- The wait for the handler succeeds when it has read `transerror` without an error. -/
theorem succeeds_awaitDma (timeout : ℕ) (rest : Program World SdError) :
    Triple (Later acts) (awaitDma timeout rest) (fun status _ => Succeeds acts status)
      fun _ => True := by
  refine Triple.bind (Triple.waitFtf (Q := fun _ => Later acts) later_access
    (fun _ h => h.thread rfl) (fun _ h => h.thread rfl) (fun _ _ => trivial) timeout) fun b => ?_
  refine Triple.ite (fun _ => ?_) fun _ => Triple.pure _ fun _ _ hok => absurd hok (by decide)
  refine Triple.waitTransend later_access later_access (fun _ h _ => h)
    (fun _ h hok => h.succeeds hok .ok rfl) ?_ fun _ _ => trivial
  rintro w ⟨h, hok⟩
  rcases exec rest w with ⟨_ | status, w'⟩
  · trivial
  · exact h.succeeds hok status

/-- The part of a transfer that moves the data by DMA. -/
theorem succeeds_data {t : Transfer} (ht : t ≠ .blockRead) (pbuffer : ℕ) (blocksize : UInt16) :
    Triple (fun w => Later acts w ∧ w.drv.transmode = sdDmaMode) (t.data pbuffer blocksize)
      (fun status _ => Succeeds acts status) fun _ => True := by
  cases t with
  | blockRead => exact absurd rfl ht
  | multiblocksRead =>
    refine Triple.byDma (fun _ h => h.2) (Triple.strengthen ?_ fun _ h => h.1)
    refine Triple.bind (later_configure _) fun _ => Triple.bind (later_configure _) fun _ => ?_
    refine Triple.bind (Q := fun _ => Later acts) (Triple.getDrv fun _ h => h) fun _ => ?_
    exact Triple.bind (later_dmaConfig _) fun _ => succeeds_awaitDma _ _
  | blockWrite =>
    refine Triple.byDma (fun _ h => h.2) (Triple.strengthen ?_ fun _ h => h.1)
    refine Triple.bind (later_configure _) fun _ => Triple.bind (later_dmaConfig _) fun _ => ?_
    exact Triple.bind (later_configure _) fun _ => succeeds_awaitDma _ _
  | multiblocksWrite =>
    refine Triple.byDma (fun _ h => h.2) (Triple.strengthen ?_ fun _ h => h.1)
    refine Triple.bind (later_configure _) fun _ => Triple.bind (later_configure _) fun _ => ?_
    refine Triple.bind (Q := fun _ => Later acts) (Triple.getDrv fun _ h => h) fun _ => ?_
    exact Triple.bind (later_dmaConfig _) fun _ => succeeds_awaitDma _ _

end Thread

/-- The state of an activation in which these flags are set. -/
def flaggedWorld (stat : List Flag) : World :=
  let w := World.start Driver.initial (quiet 8)
  { w with sdio := { w.sdio with stat := stat } }

/-- The samples of a block that is written by DMA. The handler is activated once, when `DTEND` and
`DTCRCERR` are set. -/
def crcAtEnd : List Sample :=
  quiet 10 ++ [answer 16 0x900] ++ quiet 6 ++ [answer 13 0x900] ++ quiet 7 ++ [answer 24 0x900] ++
    quiet 10 ++ [{ ftf := true }, { flags := [.dtend, .dtcrcerr], irq := true }] ++ quiet 8 ++
    [answer 13 0x900] ++ quiet 3

end Gd32Firmware
