import Gd32Firmware.SdTransferRules

/-!
# The data phase of a transfer

A monitor follows the log. The data phase of a transfer starts with the response of the data
command (`dataPhase`). It is over when a flag says so, and is faulty from the moment on at which
an error flag is raised before that (`Phase`). A transfer that returns `SD_OK` should find the
phase over.

Between the response and the data `r1_error_check` clears the flags, those of the data phase
with them. What the driver can know is the phase since then (`phase`), and the two agree if no
error flag is raised before. In polling mode the driver then finds the end of the phase as long
as the handler clears none of the flags of a faulty one. In DMA mode it rests on the handler,
which looks at `DTEND` first, and resets `transerror` whenever it starts; and the read of a
single block looks at neither. `StepsOk` says of a log that none of this happened.
-/

namespace Gd32Firmware

open Program

/-! ## The monitor -/

/-- How far the data phase of a transfer has come. -/
inductive Phase where
  | before
  | running
  /-- An error flag was raised before the end. -/
  | faulty
  | done
  deriving DecidableEq

/-- The flags that say that the data is over. That of a single block is over at the end of the
block. -/
def Transfer.ends : Transfer → List Flag
  | .blockRead | .blockWrite => [.dtblkend, .dtend]
  | .multiblocksRead | .multiblocksWrite => [.dtend]

def Phase.next (t : Transfer) (p : Phase) (e : Event) : Phase :=
  match p, e with
  | .before, .taken cmdindex => if cmdindex = t.dataCommand then .running else .before
  | .running, .sample s =>
    if anySet t.errors s.flags then .faulty
    else if anySet t.ends s.flags then .done
    else .running
  | p, _ => p

/-- The phase after a log, for a driver that starts afresh when it has taken the response. -/
def phase (t : Transfer) : List Event → Phase
  | [] => .before
  | e :: log => (phase t log).next t e

/-- The sample brings the response of the data command. -/
def Responds (t : Transfer) (log : List Event) : Event → Prop
  | .sample s => .cmdrecv ∈ s.flags ∧ ∃ c ∈ commands log, c.index = t.dataCommand
  | _ => False

instance (t : Transfer) (log : List Event) (e : Event) : Decidable (Responds t log e) := by
  delta Responds
  split <;> infer_instance

/-- The data phase after a log. It runs from the response of the data command on. -/
def dataPhase (t : Transfer) : List Event → Phase
  | [] => .before
  | e :: log =>
    match dataPhase t log with
    | .before => if Responds t log e then Phase.running.next t e else Phase.before.next t e
    | p => p.next t e

/-- The handler acts on a flag. -/
def Event.handlesFlag : Event → Bool
  | .irqEnd _ | .irqFault _ => true
  | _ => false

/-- The handler starts and drops an error that it had reported. -/
def Event.dropsError : Event → Bool
  | .irq pending => pending ≠ .ok
  | _ => false

/-- The thread finds that the DMA channel has completed. -/
def Event.seesFtf : Event → Bool
  | .ftfSeen => true
  | _ => false

/-- What must not go wrong at an event, in a phase. -/
def StepOk (t : Transfer) (transmode : UInt32) (p : Phase) (e : Event) : Prop :=
  if transmode = sdPollingMode then e.handlesFlag → p ≠ .faulty
  else if t = .blockRead then e.seesFtf → p = .done
  else (e.handlesEnd → p = .done) ∧ (e.dropsError → p = .before ∨ p = .done)

instance (t : Transfer) (transmode : UInt32) (p : Phase) (e : Event) :
    Decidable (StepOk t transmode p e) := by
  delta StepOk
  infer_instance

/-- `r1_error_check` clears the flags after the response of the data command. -/
def Event.takesData (t : Transfer) : Event → Bool
  | .taken cmdindex => cmdindex = t.dataCommand
  | _ => false

/-- Nothing went wrong at any event of a log : neither at what the driver did in the data phase
nor at the clearing of the flags. -/
def StepsOk (t : Transfer) (transmode : UInt32) : List Event → Prop :=
  AllOk fun log e =>
    StepOk t transmode (dataPhase t log) e ∧ (e.takesData t → dataPhase t log ≠ .faulty)

instance (t : Transfer) (transmode : UInt32) (log : List Event) :
    Decidable (StepsOk t transmode log) :=
  inferInstanceAs (Decidable (AllOk _ log))

/-- Nothing went wrong in the phase as the driver knows it. -/
def KnownStepsOk (t : Transfer) (transmode : UInt32) : List Event → Prop :=
  AllOk fun log e => StepOk t transmode (phase t log) e

/-- The data command of a transfer, or its response. -/
def Event.Starts (t : Transfer) : Event → Prop
  | .cmd c => c.index = t.dataCommand
  | .taken cmdindex => cmdindex = t.dataCommand
  | _ => False

section Phase

variable {t : Transfer} {p : Phase} {e : Event} {log : List Event}

theorem Event.takesData_iff : e.takesData t ↔ e = .taken t.dataCommand := by
  cases e <;> simp [Event.takesData]

@[simp] theorem phase_cons : phase t (e :: log) = (phase t log).next t e := rfl

@[simp] theorem Phase.next_faulty : Phase.faulty.next t e = .faulty := by
  cases e <;> rfl

@[simp] theorem Phase.next_done : Phase.done.next t e = .done := by
  cases e <;> rfl

theorem Phase.next_before (he : ¬ e.Starts t) : Phase.before.next t e = .before := by
  cases e with
  | taken cmdindex => exact if_neg he
  | _ => rfl

/-- Only a sample and the response of the data command change the phase. -/
theorem Phase.next_eq (he : ¬ e.Starts t) (hs : ∀ s, e ≠ .sample s) : p.next t e = p := by
  cases p with
  | before => exact Phase.next_before he
  | running =>
    cases e with
    | sample s => exact absurd rfl (hs s)
    | _ => rfl
  | faulty => exact Phase.next_faulty
  | done => exact Phase.next_done

end Phase

namespace Transfer

variable (t : Transfer)

theorem ends_subset : ∀ f ∈ t.ends, f ∈ sdioMaskIntcFlags := by
  cases t <;> decide

theorem dtend_mem_ends : .dtend ∈ t.ends := by
  cases t <;> decide

end Transfer

/-- The driver is in a mode, and `X` holds if nothing went wrong. -/
abbrev Stage (t : Transfer) (m : UInt32) (X : World → Prop) : World → Prop :=
  Guarded (fun log e => StepOk t m (phase t log) e) (fun transmode _ => transmode = m) X

theorem Event.Starts.ofDataCommand {t : Transfer} {e : Event} (h : e.Starts t) :
    e.OfDataCommand t := by
  cases e with
  | cmd c => exact h
  | taken cmdindex => exact h
  | _ => exact h.elim

/-- No data command has gone out. -/
def NotIssued (t : Transfer) (log : List Event) : Prop :=
  phase t log = .before ∧ ∀ c, .cmd c ∈ log → c.index ≠ t.dataCommand

theorem phase_before_cons {t : Transfer} {e : Event} {log : List Event}
    (he : ¬ e.OfDataCommand t) (h : phase t log = .before) : phase t (e :: log) = .before := by
  rw [phase_cons, h, Phase.next_before fun hstarts => he hstarts.ofDataCommand]

theorem NotIssued.cons {t : Transfer} {e : Event} {log : List Event}
    (he : ¬ e.OfDataCommand t) (h : NotIssued t log) : NotIssued t (e :: log) := by
  refine ⟨phase_before_cons he h.1, fun c hc => ?_⟩
  rcases List.mem_cons.mp hc with rfl | hc
  · exact he
  · exact h.2 c hc

theorem phase_done_cons {t : Transfer} {e : Event} {log : List Event} (h : phase t log = .done) :
    phase t (e :: log) = .done := by
  rw [phase_cons, h, Phase.next_done]

/-- The data command has gone out, or its response has been taken. -/
def Issued (t : Transfer) (log : List Event) : Prop :=
  (∃ c, .cmd c ∈ log ∧ c.index = t.dataCommand) ∨ phase t log ≠ .before

/-- What a status says : a transfer that issued its data command and returns `SD_OK`
finds the data phase over, without an error, if nothing went wrong. -/
def Reports (t : Transfer) (m : UInt32) (status : SdError) (w : World) : Prop :=
  status = .ok → KnownStepsOk t m w.log → Issued t w.log → phase t w.log = .done

/-! ## Polling mode -/

/-- While a transfer is polled, the flags say which phase it is in. -/
def PollState (t : Transfer) (w : World) : Prop :=
  phase t w.log = .running ∧ ¬ anySet (t.errors ++ t.ends) w.sdio.stat ∨
    phase t w.log = .faulty ∧ anySet t.errors w.sdio.stat ∨ phase t w.log = .done

theorem PollState.observe {t : Transfer} {w : World} (h : PollState t w) (s : Sample)
    (tape : List Sample) : PollState t (w.observe s tape) := by
  rcases h with ⟨hp, hs⟩ | ⟨hp, f, hf, hstat⟩ | hp
  · by_cases herr : anySet t.errors s.flags
    · refine Or.inr (Or.inl ⟨?_, ?_⟩)
      · rw [World.observe_log, phase_cons, hp]
        exact if_pos herr
      · obtain ⟨f, hf, hfs⟩ := herr
        exact ⟨f, hf, by simp [hfs]⟩
    by_cases hend : anySet t.ends s.flags
    · refine Or.inr (Or.inr ?_)
      rw [World.observe_log, phase_cons, hp]
      exact (if_neg herr).trans (if_pos hend)
    · refine Or.inl ⟨?_, ?_⟩
      · rw [World.observe_log, phase_cons, hp]
        exact (if_neg herr).trans (if_neg hend)
      · rintro ⟨f, hf, hstat⟩
        rcases World.mem_stat_observe.mp hstat with ⟨hstat, -⟩ | hfs
        · exact hs ⟨f, hf, hstat⟩
        · rcases List.mem_append.mp hf with hf | hf
          · exact herr ⟨f, hf, hfs⟩
          · exact hend ⟨f, hf, hfs⟩
  · refine Or.inr (Or.inl ⟨?_, f, hf, ?_⟩)
    · rw [World.observe_log, phase_cons, hp, Phase.next_faulty]
    · exact World.mem_stat_observe.mpr (Or.inl ⟨hstat, t.errors_subset f hf⟩)
  · exact Or.inr (Or.inr (phase_done_cons hp))

/-- An event that is neither a sample nor the data command leaves the state as it is. -/
theorem PollState.note {t : Transfer} {w : World} {e : Event} (h : PollState t w)
    (he : ¬ e.Starts t) (hs : ∀ s, e ≠ .sample s) : PollState t (w.note e) := by
  unfold PollState
  rw [World.note_log, phase_cons, Phase.next_eq he hs]
  exact h

/-- A transfer that has gone wrong, so that nothing is said of it. -/
theorem stage_false {t : Transfer} {m : UInt32} :
    HandlerKeeps (Stage t m fun _ => False) :=
  handlerKeeps_log (t := t) (L := fun _ => False) fun _ _ _ h => h

theorem stage_done {t : Transfer} {m : UInt32} :
    HandlerKeeps (Stage t m fun w => phase t w.log = .done) :=
  handlerKeeps_log (t := t) (L := fun log => phase t log = .done) fun _ _ _ => phase_done_cons

section Polling

variable {t : Transfer}

theorem StepOk.of_polling {p : Phase} {e : Event} (h : StepOk t sdPollingMode p e)
    (he : e.handlesFlag) : p ≠ .faulty :=
  h he

/-- While a polled transfer is in `PollState`, the handler does it no harm. -/
theorem keeps_pollState_access : Keeps (Stage t sdPollingMode (PollState t)) access := by
  have hmasked : Keeps (Stage t sdPollingMode (PollState t)) masked :=
    Keeps.masked fun s tape w hw => hw.observe fun _ h => h.observe s tape
  refine Keeps.access (fun s tape w hw => hw.observe fun _ h => h.observe s tape) ?_
  refine Triple.sdInterruptsProcess (fun w hw => ?_) hmasked ?_ (fun flag fault hflag => ?_)
    (fun _ hw => hw) fun _ hw => hw
  · exact (hw.note fun _ h => h.note id (by rintro s ⟨⟩)).update rfl rfl rfl id
  · -- `DTEND` is set, so the phase is not running, and the handler may act, so it is not faulty
    refine (stage_done.handleEnd (N := fun _ => Stage t sdPollingMode fun w =>
      phase t w.log = .done) ?_ stage_done.handlerStop fun _ hw => hw).weaken ?_ ?_
    · rintro w ⟨hw, hend⟩
      refine hw.note fun hok h => ?_
      rcases h with ⟨-, hs⟩ | ⟨hp, -⟩ | hp
      · exact absurd ⟨_, List.mem_append_right _ t.dtend_mem_ends, hend⟩ hs
      · exact absurd hp (hok.of_polling rfl)
      · exact phase_done_cons hp
    · exact fun _ w hw => hw.imp fun h => Or.inr (Or.inr h)
    · exact fun w hw => hw.imp fun h => Or.inr (Or.inr h)
  · -- the flag is none of the transfer's error flags, unless the phase is over
    let F : World → Prop := fun w =>
      phase t w.log = .done ∨ PollState t w ∧ flag ∉ t.errors
    refine Triple.handlerFault (F := Stage t sdPollingMode F) ?_ ?_ ?_ hmasked ?_ ?_ ?_
      fun _ hw => hw
    · rintro w ⟨hw, hflag⟩
      refine hw.note fun hok h => ?_
      rcases h with ⟨hp, hs⟩ | ⟨hp, -⟩ | hp
      · refine Or.inr ⟨PollState.note (Or.inl ⟨hp, hs⟩) id (by rintro s ⟨⟩), fun hf => ?_⟩
        exact hs ⟨flag, List.mem_append_left _ hf, hflag⟩
      · exact absurd hp (hok.of_polling rfl)
      · exact Or.inl (phase_done_cons hp)
    · exact Keeps.masked fun s tape w hw => hw.observe fun _ h =>
        h.imp phase_done_cons fun h => ⟨h.1.observe s tape, h.2⟩
    · refine fun w hw => hw.update rfl rfl rfl ?_
      rintro (hp | ⟨⟨hp, hs⟩ | ⟨hp, f, hf, hstat⟩ | hp, hflag⟩)
      · exact Or.inr (Or.inr hp)
      · refine Or.inl ⟨hp, ?_⟩
        rintro ⟨f, hf, hstat⟩
        exact hs ⟨f, hf, (World.mem_stat_clear.mp hstat).1⟩
      · refine Or.inr (Or.inl ⟨hp, f, hf, World.mem_stat_clear.mpr ⟨hstat, ?_⟩⟩)
        rw [List.mem_singleton]
        rintro rfl
        exact hflag hf
      · exact Or.inr (Or.inr hp)
    · exact fun s w _ hw => hw.note fun _ h => h.note id (by rintro s ⟨⟩)
    · exact fun w hw => hw.update rfl rfl rfl id
    · exact fun w hw => hw.imp fun h => h.elim (fun hp => Or.inr (Or.inr hp)) And.left

/-- The phase is faulty, and this flag shows it. -/
def FaultyWith (t : Transfer) (flag : Flag) (w : World) : Prop :=
  phase t w.log = .faulty ∧ flag ∈ w.sdio.stat

theorem FaultyWith.note {flag : Flag} {w : World} {e : Event} (h : FaultyWith t flag w) :
    FaultyWith t flag (w.note e) :=
  ⟨by rw [World.note_log, phase_cons, h.1, Phase.next_faulty], h.2⟩

/-- A flag of a faulty phase stays set. -/
theorem keeps_faultyWith_access {flag : Flag} (hflag : flag ∈ t.errors) :
    Keeps (Stage t sdPollingMode (FaultyWith t flag)) access := by
  have hobserve : ∀ s tape w, Stage t sdPollingMode (FaultyWith t flag) w →
      Stage t sdPollingMode (FaultyWith t flag) (w.observe s tape) := by
    refine fun s tape w hw => hw.observe fun _ h => ⟨?_, ?_⟩
    · rw [World.observe_log, phase_cons, h.1, Phase.next_faulty]
    · exact World.mem_stat_observe.mpr (Or.inl ⟨h.2, t.errors_subset flag hflag⟩)
  refine Keeps.access hobserve (Triple.sdInterruptsProcess (fun w hw => ?_)
    (Keeps.masked hobserve) ?_ (fun _ fault _ => ?_) (fun _ hw => hw) fun _ hw => hw)
  · exact (hw.note (Y := FaultyWith t flag) fun _ h => h.note).update rfl rfl rfl id
  · -- the handler must not act
    refine (stage_false.handleEnd (N := fun _ => Stage t sdPollingMode fun _ => False) ?_
      stage_false.handlerStop fun _ hw => hw).weaken (fun _ w hw => hw.imp False.elim)
      fun w hw => hw.imp False.elim
    exact fun w hw => hw.1.note fun hok h => hok.of_polling rfl h.1
  · refine (stage_false.handlerFault fault fun w hw => ?_).weaken
      (fun _ w hw => hw.imp False.elim) fun w hw => hw.imp False.elim
    exact hw.1.note fun hok h => hok.of_polling rfl h.1

theorem keeping_pollState : Keeping (Stage t sdPollingMode (PollState t)) where
  access := keeps_pollState_access
  data e w he h := h.note fun _ h => h.note
    (fun hstarts => t.not_ofDataCommand_of_ofData he hstarts.ofDataCommand)
    (by rintro s rfl; exact he)
  sdio g w hg h := h.update rfl rfl rfl fun h => by
    unfold PollState
    rw [World.setSdio_sdio, hg]
    exact h
  store _ _ _ h := h.update rfl rfl rfl id
  setUp _ _ h := h.note fun _ h => h.note id (by rintro s ⟨⟩)
  total _ _ h := h.update rfl rfl rfl id

/-- What holds of a polled transfer whose phase is over. -/
theorem keepingCommands_done {m : UInt32} :
    KeepingCommands (fun index _ => index ≠ t.dataCommand)
      (Stage t m fun w => phase t w.log = .done) :=
  keepingCommands_log (L := fun log => phase t log = .done) fun _ _ _ => phase_done_cons

/-- In a faulty phase the chain of checks finds an error. -/
theorem checkFaults_faultyWith {flag : Flag} (hflag : flag ∈ t.errors) :
    ∀ faults : List (Flag × SdError), (∀ e ∈ faults, e.2 ≠ .ok) → flag ∈ faults.map Prod.fst →
      Triple (Stage t sdPollingMode (FaultyWith t flag)) (checkFaults access faults)
        (fun status w => status = .ok → Stage t sdPollingMode (fun _ => False) w) fun _ => True
  | [], _, hmem => absurd hmem List.not_mem_nil
  | (f, fault) :: faults, hne, hmem => by
    have hfalse : KeepingCommands (fun index _ => index ≠ t.dataCommand)
        (Stage t sdPollingMode fun _ => False) :=
      keepingCommands_log (L := fun _ => False) fun _ _ _ h => h
    refine Triple.bind (Triple.sdioFlagGet (keeps_faultyWith_access hflag)).forget fun b =>
      Triple.ite (fun _ => ?_) fun hb => ?_
    · exact Triple.bind Triple.trivial fun _ =>
        Triple.pure _ fun _ _ hok => absurd hok (hne _ List.mem_cons_self)
    by_cases hf : f = flag
    · -- the flag was not set, so something went wrong
      subst hf
      refine (hfalse.checkFaults faults).conseq (fun w hw => hw.1.imp fun h => ?_)
        (fun _ _ h _ => h) fun _ _ => trivial
      exact hb (hw.2.mpr ⟨f, by simp, h.2⟩)
    · refine (checkFaults_faultyWith hflag faults (fun e he => hne e (List.mem_cons_of_mem _ he))
        ?_).strengthen fun w hw => hw.1
      simpa [Ne.symm hf] using hmem

/-- After the polling loop the chain of checks lets a transfer pass only if its phase is
over. -/
theorem checkFaults_pollState {mask : List Flag} {faults : List (Flag × SdError)}
    (hmask : ∀ f ∈ mask, f ∈ t.errors ++ t.ends) (hne : ∀ e ∈ faults, e.2 ≠ .ok)
    (hfaults : ∀ f ∈ t.errors, f ∈ faults.map Prod.fst) :
    Triple (fun w => Stage t sdPollingMode (PollState t) w ∧ anySet mask w.sdio.stat)
      (checkFaults access faults)
      (fun status w => status = .ok → Stage t sdPollingMode (fun w => phase t w.log = .done) w)
      fun _ => True := by
  rintro w ⟨hw, hset⟩
  by_cases hfaulty : ∃ f ∈ t.errors, Stage t sdPollingMode (FaultyWith t f) w
  · obtain ⟨f, hf, hw⟩ := hfaulty
    exact (checkFaults_faultyWith hf faults hne (hfaults f hf)).weaken
      (fun _ _ h hok => (h hok).imp False.elim) (fun _ h => h) w hw
  · have hdone : Stage t sdPollingMode (fun w => phase t w.log = .done) w := by
      refine ⟨hw.fixed, fun hs => ?_⟩
      rcases hw.holds hs with ⟨-, hnone⟩ | ⟨hp, f, hf, hstat⟩ | hp
      · obtain ⟨f, hf, hstat⟩ := hset
        exact absurd ⟨f, hmask f hf, hstat⟩ hnone
      · exact absurd ⟨f, hf, hw.fixed, fun _ => ⟨hp, hstat⟩⟩ hfaulty
      · exact hp
    exact (keepingCommands_done.checkFaults faults w hdone).imp (fun _ _ h _ => h)
      fun _ _ => trivial

theorem Stage.reports {m : UInt32} {w : World}
    (h : Stage t m (fun w => phase t w.log = .done) w) (status : SdError) :
    Reports t m status w :=
  fun _ hs _ => h.holds hs

/-- What follows the polling loop. -/
theorem afterPoll {mask : List Flag} {faults : List (Flag × SdError)}
    {rest : Program World SdError} (hmask : ∀ f ∈ mask, f ∈ t.errors ++ t.ends)
    (hne : ∀ e ∈ faults, e.2 ≠ .ok) (hfaults : ∀ f ∈ t.errors, f ∈ faults.map Prod.fst)
    (hrest : Keeps (Stage t sdPollingMode fun w => phase t w.log = .done) rest) :
    Triple (fun w => Stage t sdPollingMode (PollState t) w ∧ anySet mask w.sdio.stat)
      (ifOk (checkFaults access faults) rest) (Reports t sdPollingMode) fun _ => True := by
  refine Triple.ifOk (checkFaults_pollState hmask hne hfaults) ?_
    fun status w hnok _ hok => absurd hok hnok
  exact hrest.triple.conseq (fun w hw => hw rfl) (fun status w hw => hw.reports status)
    fun _ h => h

/-- The part of a transfer that moves the data by polling. -/
theorem pollData (t : Transfer) (pbuffer : ℕ) (blocksize : UInt16) :
    Triple (Stage t sdPollingMode (PollState t)) (t.data pbuffer blocksize)
      (Reports t sdPollingMode) fun _ => True := by
  have hdone := keepingCommands_done (t := t) (m := sdPollingMode)
  cases t with
  | blockRead =>
    refine Triple.polled (fun _ hw => hw.fixed) ?_
    refine Triple.bind (keeping_pollState.pollReceive .dtblkend pbuffer).forget fun ptempbuff => ?_
    refine afterPoll (by decide) (by decide) (by decide) ?_
    exact (hdone.drainFifo _).bind fun _ => (hdone.flagClear _).bind fun _ => Keeps.pure _
  | multiblocksRead =>
    refine Triple.polled (fun _ hw => hw.fixed) ?_
    refine Triple.bind (keeping_pollState.pollReceive .dtend pbuffer).forget fun ptempbuff => ?_
    refine afterPoll (by decide) (by decide) (by decide) ?_
    exact (hdone.drainFifo _).bind fun _ =>
      Keeps.ifOk hdone.stopPolled ((hdone.flagClear _).bind fun _ => Keeps.pure _)
  | blockWrite =>
    refine Triple.polled (fun _ hw => hw.fixed) ?_
    refine Triple.bind (keeping_pollState.pollSend .dtblkend pbuffer).forget fun _ => ?_
    exact afterPoll (by decide) (by decide) (by decide) hdone.finishWrite
  | multiblocksWrite =>
    refine Triple.polled (fun _ hw => hw.fixed) ?_
    refine Triple.bind (keeping_pollState.pollSend .dtend pbuffer).forget fun _ => ?_
    refine afterPoll (by decide) (by decide) (by decide) ?_
    exact Keeps.ifOk hdone.stopPolled ((hdone.flagClear _).bind fun _ => hdone.finishWrite)

/-- The data command starts the phase with none of its flags set. -/
theorem pollState_taken {w : World} (h : phase t w.log = .before) :
    PollState t ((w.clear sdioMaskIntcFlags).note (.taken t.dataCommand)) := by
  refine Or.inl ⟨?_, ?_⟩
  · rw [World.note_log, phase_cons, World.clear_log, h]
    exact if_pos rfl
  · rintro ⟨f, hf, hstat⟩
    refine (World.mem_stat_clear.mp hstat).2 ?_
    exact (List.mem_append.mp hf).elim (t.errors_subset f) (t.ends_subset f)

end Polling

section Stages

variable {t : Transfer} {m : UInt32}

theorem NotIssued.reports {w : World} (h : Stage t m (fun w => NotIssued t w.log) w)
    (status : SdError) : Reports t m status w := by
  rintro _ hs (⟨c, hc, hindex⟩ | hp)
  · exact absurd hindex ((h.holds hs).2 c hc)
  · exact absurd (h.holds hs).1 hp

/-- What holds of a transfer until its data command. -/
theorem keepingCommands_notIssued :
    KeepingCommands (fun index _ => index ≠ t.dataCommand)
      (Stage t m fun w => NotIssued t w.log) :=
  keepingCommands_log (L := NotIssued t) fun _ _ => NotIssued.cons

/-- What holds while the data command waits for its response. -/
theorem keepingCommands_before :
    KeepingCommands (fun index _ => index ≠ t.dataCommand)
      (Stage t m fun w => phase t w.log = .before) :=
  keepingCommands_log (L := fun log => phase t log = .before) fun _ _ => phase_before_cons

/-- The stages of a transfer : `Y` once `transend` is reset, and `X` while the data is moved.
Both leave `stopcondition` open. -/
theorem transferStages_of {Y X : World → Prop} (hY : ∀ w, Y w → NotIssued t w.log)
    (hreset : ∀ w : World, NotIssued t w.log →
      Y (w.setDrv fun drv => { drv with transend := 0 }))
    (hstopY : ∀ w, Y w → Y (w.setDrv fun drv => { drv with stopcondition := t.stop }))
    (hstopX : ∀ w, X w → X (w.setDrv fun drv => { drv with stopcondition := t.stop }))
    (hbefore : KeepingCommands (fun index _ => index ≠ t.dataCommand) (Stage t m Y))
    (hafter : Keeping (Stage t m X))
    (hcommand : ∀ argument, Triple (Stage t m Y) (commandR1 access t.dataCommand argument)
      (fun status w => status = .ok → Stage t m X w) fun _ => True)
    (hdata : ∀ pbuffer blocksize, Triple (Stage t m X) (t.data pbuffer blocksize)
      (Reports t m) fun _ => True) :
    TransferStages t (Stage t m fun w => NotIssued t w.log) (Stage t m fun w => NotIssued t w.log)
      (Stage t m Y) (Stage t m Y) (Stage t m X) (Stage t m X) (Reports t m) where
  start := keepingCommands_notIssued.access
  transerror _ h := h.update rfl rfl rfl id
  reset := keepingCommands_notIssued.access
  transend w h := h.update rfl rfl rfl (hreset w)
  setup := hbefore
  null _ h := NotIssued.reports h _
  skipped status w h := NotIssued.reports (h.imp (hY w)) status
  stopBefore _ w h := h.update rfl rfl rfl (hstopY w)
  noStopBefore _ _ h := h
  before := hbefore.toKeeping
  command argument := (hcommand argument).imp fun _ _ h =>
    ⟨h, fun hne hok => absurd hok hne⟩
  accepted := hafter.access
  noStopAfter _ _ h := h
  stopAfter _ w h := h.update rfl rfl rfl (hstopX w)
  after := hafter
  data := hdata

theorem transferStages_polling (t : Transfer) :
    TransferStages t (Stage t sdPollingMode fun w => NotIssued t w.log)
      (Stage t sdPollingMode fun w => NotIssued t w.log)
      (Stage t sdPollingMode fun w => NotIssued t w.log)
      (Stage t sdPollingMode fun w => NotIssued t w.log)
      (Stage t sdPollingMode (PollState t)) (Stage t sdPollingMode (PollState t))
      (Reports t sdPollingMode) := by
  refine transferStages_of (fun _ h => h) (fun _ h => h) (fun _ h => h) (fun _ h => h)
    keepingCommands_notIssued keeping_pollState (fun argument => ?_) (pollData t)
  refine (keepingCommands_before.dataCommand (T := Stage t sdPollingMode (PollState t))
    (A := Stage t sdPollingMode (PollState t)) ?_ keeps_pollState_access ?_ ?_ argument).conseq
    (fun w h => h.imp And.left) (fun status w h => h.1) fun _ _ => trivial
  · exact fun c w h => h.note fun _ h => by simpa [phase_cons, Phase.next] using h
  · exact fun w h => ⟨h.fixed, fun hs => pollState_taken (h.holds hs.2)⟩
  · exact fun w h => h.note fun _ h => h.note id (by rintro s ⟨⟩)

/-! ## DMA mode -/

theorem keepingCommands_true :
    KeepingCommands (fun index _ => index ≠ t.dataCommand) (Stage t m fun _ => True) :=
  keepingCommands_log (L := fun _ => True) fun _ _ _ h => h

/-- The read of a single block rests on `DMA_FLAG_FTF` alone. -/
theorem ftfData (pbuffer : ℕ) (blocksize : UInt16) :
    Triple (Stage .blockRead sdDmaMode fun _ => True)
      (Transfer.data .blockRead pbuffer blocksize) (Reports .blockRead sdDmaMode)
      fun _ => True := by
  have hkeep := keepingCommands_true (t := .blockRead) (m := sdDmaMode)
  refine Triple.byDma (fun _ hw => hw.fixed) ?_
  refine Triple.bind (hkeep.configure _).triple fun _ => ?_
  refine Triple.bind (hkeep.configure _).triple fun _ => ?_
  refine Triple.bind (hkeep.dmaConfig _).triple fun _ => ?_
  refine Triple.bind (Q := fun b w => b = true →
    Stage .blockRead sdDmaMode (fun w => phase .blockRead w.log = .done) w) ?_ fun b => ?_
  · refine (hkeep.toKeeping.waitFtf (fun w hw _ => ?_) (fun w hw h => absurd h (by decide))
      100000).forget
    exact hw.note fun hok _ => phase_done_cons (hok rfl)
  · exact Triple.ite (fun hb => Triple.pure _ fun w hw => (hw hb).reports _) fun _ =>
      Triple.pure _ fun w _ hok => absurd hok (by decide)

/-- The data command, when nothing is to be said of what follows. -/
theorem dataCommand_true (argument : UInt32) :
    Triple (Stage t m fun w => NotIssued t w.log) (commandR1 access t.dataCommand argument)
      (fun status w => status = .ok → Stage t m (fun _ => True) w) fun _ => True := by
  have hkeep := keepingCommands_true (t := t) (m := m)
  refine (hkeep.dataCommand (T := Stage t m fun _ => True) (A := Stage t m fun _ => True) ?_
    hkeep.access ?_ ?_ argument).conseq (fun w h => h.imp fun _ => trivial)
    (fun status w h => h.1) fun _ _ => trivial
  · exact fun c w h => h.note fun _ h => h
  · exact fun w h => ⟨h.fixed, fun _ => trivial⟩
  · exact fun w h => h.note fun _ h => h

theorem transferStages_ftf :
    TransferStages .blockRead (Stage .blockRead sdDmaMode fun w => NotIssued .blockRead w.log)
      (Stage .blockRead sdDmaMode fun w => NotIssued .blockRead w.log)
      (Stage .blockRead sdDmaMode fun w => NotIssued .blockRead w.log)
      (Stage .blockRead sdDmaMode fun w => NotIssued .blockRead w.log)
      (Stage .blockRead sdDmaMode fun _ => True) (Stage .blockRead sdDmaMode fun _ => True)
      (Reports .blockRead sdDmaMode) := by
  have hkeep := keepingCommands_true (t := .blockRead) (m := sdDmaMode)
  exact transferStages_of (fun _ h => h) (fun _ h => h) (fun _ h => h) (fun _ h => h)
    keepingCommands_notIssued hkeep.toKeeping dataCommand_true ftfData

theorem StepOk.of_dma {p : Phase} {e : Event} (ht : t ≠ .blockRead)
    (h : StepOk t sdDmaMode p e) :
    (e.handlesEnd → p = .done) ∧ (e.dropsError → p = .before ∨ p = .done) := by
  simpa [StepOk, ht, show sdDmaMode ≠ sdPollingMode by decide] using h

/-- An assertion about `transend` and the log survives every instant, if it allows the handler
to end the transfer in a phase that is over. -/
theorem keeps_dma_access (ht : t ≠ .blockRead) {X Y : World → Prop}
    (hobserve : ∀ s tape w, X w → X (w.observe s tape))
    (hevent : ∀ e w, e.OfHandler → X w → X (w.note e))
    (hclear : ∀ mask w, X w → X (w.clear mask))
    (hdrv : ∀ f w, (∀ drv : Driver, (f drv).transend = drv.transend) → X w → X (w.setDrv f))
    (hend : ∀ w, X w → phase t w.log = .done → Y w)
    (hY : HandlerKeeps (Stage t sdDmaMode Y)) (hYX : ∀ w, Y w → X w) :
    Keeps (Stage t sdDmaMode X) access := by
  have hmasked : Keeps (Stage t sdDmaMode X) masked :=
    Keeps.masked fun s tape w hw => hw.observe fun _ => hobserve s tape w
  refine Keeps.access (fun s tape w hw => hw.observe fun _ => hobserve s tape w) ?_
  refine Triple.sdInterruptsProcess (fun w hw => ?_) hmasked ?_ (fun flag fault _ => ?_)
    (fun _ hw => hw) fun _ hw => hw
  · exact (hw.note fun _ => hevent (.irq _) w trivial).update rfl rfl rfl
      (hdrv _ _ fun _ => rfl)
  · refine (hY.handleEnd (N := fun _ => Stage t sdDmaMode Y) (fun w hw => ?_)
      hY.handlerStop fun _ hw => hw).weaken (fun _ w hw => hw.imp (hYX w))
      fun w hw => hw.imp (hYX w)
    -- the handler ends the transfer, so its phase is over
    refine ⟨hw.1.fixed, fun hs => ?_⟩
    have hp := (hs.1.of_dma ht).1 rfl
    exact hend _ (hevent (.irqEnd _) w trivial (hw.1.holds hs.2)) (phase_done_cons hp)
  · refine Triple.handlerFault (F := Stage t sdDmaMode X) (fun w hw => ?_) hmasked
      (fun w hw => hw.update rfl rfl rfl (hclear _ w)) hmasked
      (fun s w hs hw => hw.note fun _ => hevent (.set s) w hs)
      (fun w hw => hw.update rfl rfl rfl (hdrv _ w fun _ => rfl)) (fun _ hw => hw) fun _ hw => hw
    exact hw.1.note fun _ => hevent (.irqFault flag) w trivial

/-- Before the data command the handler has not ended a transfer. -/
def BeforeDma (t : Transfer) (L : List Event → Prop) (w : World) : Prop :=
  (phase t w.log = .before ∧ L w.log) ∧ w.drv.transend = 0

theorem BeforeDma.event {L : List Event → Prop} {w : World} {e : Event}
    (hL : ∀ e log, ¬ e.OfDataCommand t → L log → L (e :: log)) (h : BeforeDma t L w)
    (he : ¬ e.OfDataCommand t) : BeforeDma t L (w.note e) :=
  ⟨⟨phase_before_cons he h.1.1, hL e w.log he h.1.2⟩, h.2⟩

theorem keepingCommands_beforeDma (ht : t ≠ .blockRead) {L : List Event → Prop}
    (hL : ∀ e log, ¬ e.OfDataCommand t → L log → L (e :: log)) :
    KeepingCommands (fun index _ => index ≠ t.dataCommand)
      (Stage t sdDmaMode (BeforeDma t L)) where
  access := by
    refine keeps_dma_access ht (Y := fun _ => False) ?_ ?_ ?_ ?_ ?_ stage_false
      fun _ => False.elim
    · refine fun s tape w h => ⟨⟨?_, hL (.sample s) w.log id h.1.2⟩, h.2⟩
      exact phase_before_cons (e := .sample s) id h.1.1
    · exact fun e w he h => h.event hL (t.not_ofDataCommand_of_ofHandler he)
    · exact fun mask w h => h
    · exact fun f w hf h => ⟨h.1, (hf w.drv).trans h.2⟩
    · exact fun w h hp => absurd (h.1.1.symm.trans hp) (by decide)
  data _ _ he h := h.note fun _ h => h.event hL (t.not_ofDataCommand_of_ofData he)
  sdio _ _ _ h := h.update rfl rfl rfl id
  store _ _ _ h := h.update rfl rfl rfl id
  setUp _ _ h := h.note fun _ h => h.event hL id
  total _ _ h := h.update rfl rfl rfl id
  clear _ _ h := h.update rfl rfl rfl id
  plain index _ := t.plain_ne_dataCommand index
  cmd _ _ hc h := h.note fun _ h => h.event hL hc
  taken _ _ _ hc h := h.note fun _ h => h.event hL hc
  accepted _ _ _ hc h := h.note fun _ h => h.event hL hc

/-- During the transfer `transend` says that the phase is over. -/
def DmaState (t : Transfer) (w : World) : Prop :=
  phase t w.log ≠ .before ∧ (w.drv.transend ≠ 0 → phase t w.log = .done)

theorem phase_ne_before_cons {e : Event} {log : List Event} (h : phase t log ≠ .before) :
    phase t (e :: log) ≠ .before := by
  rw [phase_cons]
  cases hp : phase t log with
  | before => exact absurd hp h
  | running =>
    cases e with
    | sample s =>
      show (if _ then Phase.faulty else if _ then Phase.done else Phase.running) ≠ .before
      split_ifs <;> decide
    | _ => exact Phase.noConfusion
  | faulty => rw [Phase.next_faulty]; decide
  | done => rw [Phase.next_done]; decide

theorem DmaState.note {w : World} (h : DmaState t w) (e : Event) : DmaState t (w.note e) :=
  ⟨phase_ne_before_cons h.1, fun hend => phase_done_cons (h.2 hend)⟩

theorem DmaState.of_done {w : World} (h : phase t w.log = .done) : DmaState t w :=
  ⟨by rw [h]; decide, fun _ => h⟩

theorem keeping_dmaState (ht : t ≠ .blockRead) : Keeping (Stage t sdDmaMode (DmaState t)) where
  access := by
    refine keeps_dma_access ht (Y := fun w => phase t w.log = .done) ?_ ?_ ?_ ?_ ?_ stage_done
      fun w => DmaState.of_done
    · exact fun s tape w h => ⟨phase_ne_before_cons h.1, fun hend => phase_done_cons (h.2 hend)⟩
    · exact fun e w _ h => h.note e
    · exact fun mask w h => h
    · exact fun f w hf h => ⟨h.1, fun hend => h.2 (hf w.drv ▸ hend)⟩
    · exact fun w _ hp => hp
  data e _ _ h := h.note fun _ h => h.note e
  sdio _ _ _ h := h.update rfl rfl rfl id
  store _ _ _ h := h.update rfl rfl rfl id
  setUp _ _ h := h.note fun _ h => h.note _
  total _ _ h := h.update rfl rfl rfl id

/-- The handler has ended the transfer, or has reported an error. -/
def Reported (t : Transfer) (w : World) : Prop :=
  phase t w.log = .done ∨ phase t w.log ≠ .before ∧ w.drv.transerror ≠ .ok

theorem Reported.cons {w : World} {w' : World} {e : Event} (h : Reported t w)
    (hlog : w'.log = e :: w.log) (hdrv : w'.drv = w.drv) : Reported t w' := by
  unfold Reported
  rw [hlog, hdrv]
  exact h.imp phase_done_cons (And.imp_left phase_ne_before_cons)

/-- A reported error is not dropped, since the handler starts again only in a phase that is
over. -/
theorem keeps_reported_access (ht : t ≠ .blockRead) :
    Keeps (Stage t sdDmaMode (Reported t)) access := by
  refine Keeps.access (fun s tape w hw => hw.observe fun _ h => h.cons rfl rfl) ?_
  refine (stage_done.sdInterruptsProcess fun w hw => ?_).weaken
    (fun _ w hw => hw.imp Or.inl) fun w hw => hw.imp Or.inl
  refine ⟨hw.fixed, fun hs => phase_done_cons ?_⟩
  rcases hw.holds hs.2 with hp | ⟨hp, herr⟩
  · exact hp
  · exact ((hs.1.of_dma ht).2 (decide_eq_true herr)).resolve_left hp

/-- What follows the start of the DMA transfer. -/
theorem afterDma (ht : t ≠ .blockRead) (timeout : ℕ) {rest : Program World SdError}
    (hrest : Keeps (Stage t sdDmaMode fun w => phase t w.log = .done) rest) :
    Triple (Stage t sdDmaMode (DmaState t)) (awaitDma timeout rest) (Reports t sdDmaMode)
      fun _ => True := by
  have hstate := keeping_dmaState (t := t) ht
  refine Triple.bind ((hstate.waitFtf (Q := fun _ => Stage t sdDmaMode (DmaState t))
    (fun w hw => hw.note fun _ h => h.note _) (fun w hw => hw.note fun _ h => h.note _)
    timeout).forget) fun b => ?_
  refine Triple.ite (fun _ => ?_) fun _ => Triple.pure _ fun w _ hok => absurd hok (by decide)
  refine Triple.waitTransend hstate.access.triple (keeps_reported_access ht).triple
    (fun w hw h => ?_) (fun w hw hok hs _ => ?_) ?_ fun _ _ => trivial
  · refine hw.imp fun hstate => ?_
    rcases h with hend | herr
    · exact Or.inl (hstate.2 hend)
    · exact Or.inr ⟨hstate.1, herr⟩
  · exact (hw.holds hs).resolve_right fun h => h.2 hok
  · refine hrest.triple.conseq (fun w hw => ?_) (fun status w hw => hw.reports status)
      fun _ h => h
    exact hw.1.imp fun h => h.resolve_right fun h => h.2 hw.2

/-- The part of a transfer that moves the data by DMA. -/
theorem dmaData (ht : t ≠ .blockRead) (pbuffer : ℕ) (blocksize : UInt16) :
    Triple (Stage t sdDmaMode (DmaState t)) (t.data pbuffer blocksize) (Reports t sdDmaMode)
      fun _ => True := by
  have hdone := keepingCommands_done (t := t) (m := sdDmaMode)
  have hstate := keeping_dmaState (t := t) ht
  cases t with
  | blockRead => exact absurd rfl ht
  | multiblocksRead =>
    refine Triple.byDma (fun _ hw => hw.fixed) ?_
    refine Triple.bind (hstate.configure _).triple fun _ => ?_
    refine Triple.bind (hstate.configure _).triple fun _ => ?_
    refine Triple.bind Keeps.getDrv.triple fun _ => ?_
    exact Triple.bind (hstate.dmaConfig _).triple fun _ => afterDma ht _ (Keeps.pure _)
  | blockWrite =>
    refine Triple.byDma (fun _ hw => hw.fixed) ?_
    refine Triple.bind (hstate.configure _).triple fun _ => ?_
    refine Triple.bind (hstate.dmaConfig _).triple fun _ => ?_
    exact Triple.bind (hstate.configure _).triple fun _ => afterDma ht _ hdone.finishWrite
  | multiblocksWrite =>
    refine Triple.byDma (fun _ hw => hw.fixed) ?_
    refine Triple.bind (hstate.configure _).triple fun _ => ?_
    refine Triple.bind (hstate.configure _).triple fun _ => ?_
    refine Triple.bind Keeps.getDrv.triple fun _ => ?_
    exact Triple.bind (hstate.dmaConfig _).triple fun _ => afterDma ht _ hdone.finishWrite

theorem transferStages_dma (ht : t ≠ .blockRead) :
    TransferStages t (Stage t sdDmaMode fun w => NotIssued t w.log)
      (Stage t sdDmaMode fun w => NotIssued t w.log)
      (Stage t sdDmaMode (BeforeDma t (NotIssued t)))
      (Stage t sdDmaMode (BeforeDma t (NotIssued t)))
      (Stage t sdDmaMode (DmaState t)) (Stage t sdDmaMode (DmaState t))
      (Reports t sdDmaMode) := by
  refine transferStages_of (fun _ h => h.1.2) (fun _ h => ⟨⟨h.1, h⟩, rfl⟩) (fun _ h => h)
    (fun _ h => h) (keepingCommands_beforeDma ht fun _ _ => NotIssued.cons)
    (keeping_dmaState ht) (fun argument => ?_) (dmaData ht)
  have hkeep := keepingCommands_beforeDma (t := t) ht (L := fun _ => True) fun _ _ _ h => h
  refine (hkeep.dataCommand (T := Stage t sdDmaMode (DmaState t))
    (A := Stage t sdDmaMode (DmaState t)) ?_ (keeping_dmaState ht).access ?_ ?_
    argument).conseq (fun w h => h.imp fun h => ⟨⟨h.1.1, trivial⟩, h.2⟩)
    (fun status w h => h.1) fun _ _ => trivial
  · refine fun c w h => h.note fun _ h => ⟨⟨?_, trivial⟩, h.2⟩
    rw [World.note_log, phase_cons, h.1.1]
    rfl
  · refine fun w h => ⟨h.fixed, fun hs => ?_⟩
    have hp : phase t (.taken t.dataCommand :: w.log) = .running := by
      rw [phase_cons, (h.holds hs.2).1.1]
      exact if_pos rfl
    refine ⟨fun hbefore => absurd (hp.symm.trans hbefore) (by decide), fun hend => ?_⟩
    exact absurd (h.holds hs.2).2 hend
  · exact fun w h => h.note fun _ h => h.note _

/-! ## Other modes -/

/-- In any other mode no transfer returns `SD_OK` after its data command. -/
theorem transferStages_other (hpolling : m ≠ sdPollingMode) (hdma : m ≠ sdDmaMode) :
    TransferStages t (Stage t m fun w => NotIssued t w.log) (Stage t m fun w => NotIssued t w.log)
      (Stage t m fun w => NotIssued t w.log) (Stage t m fun w => NotIssued t w.log)
      (Stage t m fun _ => True) (Stage t m fun _ => True) (Reports t m) := by
  have hkeep := keepingCommands_true (t := t) (m := m)
  refine transferStages_of (fun _ h => h) (fun _ h => h) (fun _ h => h) (fun _ h => h)
    keepingCommands_notIssued hkeep.toKeeping dataCommand_true fun pbuffer blocksize => ?_
  have hinvalid : ∀ w, Stage t m (fun _ => True) w → Reports t m .parameterInvalid w :=
    fun _ _ hok => absurd hok (by decide)
  cases t <;> exact Triple.byMode (fun _ hw => hw.fixed) (fun hm => absurd hm hpolling)
    (fun hm => absurd hm hdma) fun _ _ => hinvalid

/-- What a transfer that returned says, in any mode. -/
theorem run_reports (t : Transfer) {w w' : World} (hlog : w.log = []) {pbuffer : Option ℕ}
    {addr : UInt32} {blocksize : UInt16} {blocksnumber : UInt32} {status : SdError}
    (hrun : exec (t.run pbuffer addr blocksize blocksnumber) w = (some status, w')) :
    Reports t w.drv.transmode status w' := by
  have hstart : Stage t w.drv.transmode (fun w => NotIssued t w.log) w := by
    refine ⟨rfl, fun _ => ?_⟩
    rw [hlog]
    exact ⟨rfl, fun c hc => absurd hc List.not_mem_nil⟩
  have hreports : ∀ {I₁ P P₁ A₀ A : World → Prop}, TransferStages t
      (Stage t w.drv.transmode fun w => NotIssued t w.log) I₁ P P₁ A₀ A
      (Reports t w.drv.transmode) → Reports t w.drv.transmode status w' :=
    fun h => (h.run pbuffer addr blocksize blocksnumber).of_eq_some hstart hrun
  by_cases hpolling : w.drv.transmode = sdPollingMode
  · rw [hpolling] at hreports ⊢
    exact hreports (transferStages_polling t)
  by_cases hdma : w.drv.transmode = sdDmaMode
  · rw [hdma] at hreports ⊢
    by_cases ht : t = .blockRead
    · subst ht
      exact hreports transferStages_ftf
    · exact hreports (transferStages_dma ht)
  · exact hreports (transferStages_other hpolling hdma)

end Stages

/-! ## The two phases -/

section DataPhase

variable {t : Transfer} {m : UInt32}

theorem dataPhase_cons_of_not_responds {e : Event} {log : List Event} (h : ¬ Responds t log e) :
    dataPhase t (e :: log) = (dataPhase t log).next t e := by
  rw [dataPhase]
  cases dataPhase t log with
  | before => exact if_neg h
  | running | faulty | done => rfl

theorem dataPhase_cons_of_ne_before {e : Event} {log : List Event}
    (h : dataPhase t log ≠ .before) : dataPhase t (e :: log) = (dataPhase t log).next t e := by
  rw [dataPhase]
  cases hp : dataPhase t log with
  | before => exact absurd hp h
  | running | faulty | done => rfl

theorem dataPhase_ne_done_of_cons {e : Event} {log : List Event}
    (h : dataPhase t (e :: log) ≠ .done) : dataPhase t log ≠ .done := by
  intro hd
  rw [dataPhase_cons_of_ne_before (by rw [hd]; decide), hd, Phase.next_done] at h
  exact h rfl

/-- What goes right in the data phase goes right in the phase that the driver knows, before that
starts and as long as the two agree. -/
theorem StepOk.known {d p : Phase} {e : Event} (h : StepOk t m d e) (hd : d ≠ .done)
    (hp : p = .before ∨ d = p) : StepOk t m p e := by
  obtain rfl | rfl := hp
  · unfold StepOk at h ⊢
    split_ifs at h ⊢
    · exact fun _ => Phase.noConfusion
    · exact fun he => absurd (h he) hd
    · exact ⟨fun he => absurd (h.1 he) hd, fun _ => Or.inl rfl⟩
  · exact h

/-- As long as the data phase is not over, the driver knows it from the clearing of the flags
on. -/
theorem StepsOk.known : ∀ {log : List Event}, StepsOk t m log → dataPhase t log ≠ .done →
    KnownStepsOk t m log ∧ (phase t log = .before ∨ dataPhase t log = phase t log)
  | [], _, _ => ⟨trivial, Or.inl rfl⟩
  | e :: log, hsteps, hdone => by
    have hd := dataPhase_ne_done_of_cons hdone
    obtain ⟨hknown, hagree⟩ := StepsOk.known hsteps.2 hd
    refine ⟨⟨hsteps.1.1.known hd hagree, hknown⟩, ?_⟩
    by_cases hp : phase t log = .before
    · by_cases he : e.takesData t
      · -- the flags are cleared, and both phases run
        refine Or.inr ?_
        have hfaulty := hsteps.1.2 he
        obtain rfl := Event.takesData_iff.mp he
        rw [dataPhase_cons_of_not_responds id, phase_cons, hp]
        cases hdp : dataPhase t log with
        | before => rfl
        | running => exact (if_pos rfl).symm
        | faulty => exact absurd hdp hfaulty
        | done => exact absurd hdp hd
      · refine Or.inl ?_
        rw [phase_cons, hp]
        cases e with
        | taken cmdindex =>
          exact if_neg fun h => he (Event.takesData_iff.mpr (congrArg Event.taken h))
        | _ => rfl
    · have heq := hagree.resolve_left hp
      exact Or.inr (by rw [dataPhase_cons_of_ne_before (heq ▸ hp), phase_cons, heq])

/-- A driver that finds the end of the phase that it knows has found the end of the data
phase. -/
theorem Reports.dataPhase_done {status : SdError} {w : World} (h : Reports t m status w)
    (hok : status = .ok) (hsteps : StepsOk t m w.log) (hissued : Issued t w.log) :
    dataPhase t w.log = .done := by
  by_contra hdone
  obtain ⟨hknown, hagree⟩ := hsteps.known hdone
  have hp : phase t w.log = .done := h hok hknown hissued
  exact hdone ((hagree.resolve_left (by rw [hp]; decide)).trans hp)

end DataPhase

/-- A transfer that issued its data command and returned `SD_OK` has seen the end of its data
phase, with no error flag raised between the response of the command and that end, in every run
in which nothing went wrong. -/
theorem transfer_ok_phase_done (t : Transfer) (w w' : World) (hlog : w.log = [])
    (pbuffer : Option ℕ) (addr : UInt32) (blocksize : UInt16) (blocksnumber : UInt32)
    (hrun : exec (t.run pbuffer addr blocksize blocksnumber) w = (some .ok, w'))
    (hissued : ∃ c, .cmd c ∈ w'.log ∧ c.index = t.dataCommand)
    (hsteps : StepsOk t w.drv.transmode w'.log) : dataPhase t w'.log = .done :=
  (run_reports t hlog hrun).dataPhase_done rfl hsteps (Or.inl hissued)

/-- The samples of a single read up to the response of its data command. -/
def upToReadResponse : List Sample :=
  quiet 10 ++ [answer 16 0x900] ++ quiet 10 ++ [answer 17 0x900] ++ quiet 3

/-- A block that arrives without an error. -/
theorem transfer_ok_phase_done_read :
    (exec (Transfer.run .blockRead (some 0) 0 512 1) (World.start Driver.initial
        (upToReadResponse ++ [{ flags := [.dtblkend, .dtend] }] ++ quiet 6))).1 = some .ok ∧
      dataPhase .blockRead (exec (Transfer.run .blockRead (some 0) 0 512 1)
        (World.start Driver.initial
          (upToReadResponse ++ [{ flags := [.dtblkend, .dtend] }] ++ quiet 6))).2.log = .done := by
  have hok : (exec (Transfer.run .blockRead (some 0) 0 512 1) (World.start Driver.initial
      (upToReadResponse ++ [{ flags := [.dtblkend, .dtend] }] ++ quiet 6))).1 = some .ok := by
    decide
  refine ⟨hok, transfer_ok_phase_done .blockRead _ _ rfl (some 0) 0 512 1
    (exec_of_fst hok) ⟨⟨17, 0, .short⟩, mem_commands.mp (by decide), rfl⟩ (by decide)⟩

/-- The variables in DMA mode. -/
def dmaDriver : Driver :=
  { Driver.initial with transmode := sdDmaMode }

/-- The samples of a single read whose checksum fails before `r1_error_check` clears the
flags. -/
def errorBeforeClear : List Sample :=
  quiet 10 ++ [answer 16 0x900] ++ quiet 10 ++ [answer 17 0x900] ++ [{ flags := [.dtcrcerr] }] ++
    quiet 4 ++ [{ flags := [.dtblkend, .dtend] }] ++ quiet 8

/-- A block with a wrong checksum is reported as good : in DMA mode `sd_block_read` waits for the
DMA channel only, and in polling mode it does not see a flag that `r1_error_check` clears. -/
theorem blockRead_reports_bad_block :
    ((exec (sdBlockRead (some 0) 0 512) (World.start dmaDriver
        (upToReadResponse ++ [{ flags := [.dtcrcerr] }] ++ quiet 2 ++ [{ ftf := true }]))).1 =
          some .ok ∧
      ⟨17, 0, .short⟩ ∈ commands (exec (sdBlockRead (some 0) 0 512) (World.start dmaDriver
        (upToReadResponse ++ [{ flags := [.dtcrcerr] }] ++ quiet 2 ++ [{ ftf := true }]))).2.log ∧
      dataPhase .blockRead (exec (sdBlockRead (some 0) 0 512) (World.start dmaDriver
        (upToReadResponse ++ [{ flags := [.dtcrcerr] }] ++ quiet 2 ++
          [{ ftf := true }]))).2.log = .faulty) ∧
    (exec (sdBlockRead (some 0) 0 512) (World.start Driver.initial errorBeforeClear)).1 =
        some .ok ∧
      ⟨17, 0, .short⟩ ∈ commands (exec (sdBlockRead (some 0) 0 512)
        (World.start Driver.initial errorBeforeClear)).2.log ∧
      dataPhase .blockRead (exec (sdBlockRead (some 0) 0 512)
        (World.start Driver.initial errorBeforeClear)).2.log = .faulty := by
  decide

end Gd32Firmware
