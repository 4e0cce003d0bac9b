import Gd32Firmware.SdTransferRules

/-!
# The end of a transfer of several blocks

A card that has accepted `CMD18` or `CMD25` goes on sending or receiving until it gets `CMD12`.
A monitor (`Stream`) says whether a log leaves it so. In polling mode the driver sends the
command only after all error flags have been checked, so that every error leaves the card
open. In DMA mode the handler sends it, and only when it finds `DTEND` and reads
`stopcondition` as `1`; an error flag or the timeout of the DMA channel leaves the card open.
`StreamsOk` says of a log that none of this happened.
-/

namespace Gd32Firmware

open Program

/-! ## The monitor -/

/-- Where a transfer of several blocks is. -/
inductive Stream where
  | idle
  /-- The response of the data command has been taken. -/
  | taken
  /-- The data command has been accepted. -/
  | opened
  /-- `CMD12` has been sent. -/
  | stopped
  deriving DecidableEq

def Stream.next (t : Transfer) (st : Stream) : Event → Stream
  | .taken cmdindex => if cmdindex = t.dataCommand ∧ st ≠ .opened then .taken else st
  | .accepted cmdindex => if cmdindex = t.dataCommand then .opened else st
  | .cmd c => if c.index = 12 ∧ st = .opened then .stopped else st
  | _ => st

/-- Where the transfer is after a log. -/
def stream (t : Transfer) : List Event → Stream
  | [] => .idle
  | e :: log => (stream t log).next t e

/-- A flag of the mask is raised. -/
def Event.raises (mask : List Flag) : Event → Bool
  | .sample s => anySet mask s.flags
  | _ => false

/-- The transfer is given up. -/
def Event.givesUp : Event → Bool
  | .irqFault _ | .dmaTimeout => true
  | _ => false

/-- The handler ends the transfer, and sends the stop command. -/
def Event.sendsStop : Event → Bool
  | .irqEnd stopcondition => stopcondition = 1
  | _ => false

/-- What must not go wrong at an event. -/
def StreamOk (t : Transfer) (transmode : UInt32) (st : Stream) (e : Event) : Prop :=
  if transmode = sdPollingMode then e.raises t.errors → st ≠ .taken ∧ st ≠ .opened
  else (e.givesUp → st = .stopped) ∧
    (e.handlesEnd → st = .stopped ∨ st = .opened ∧ e.sendsStop)

instance (t : Transfer) (transmode : UInt32) (st : Stream) (e : Event) :
    Decidable (StreamOk t transmode st e) := by
  delta StreamOk
  infer_instance

/-- Nothing went wrong at any event of a log. -/
def StreamsOk (t : Transfer) (transmode : UInt32) : List Event → Prop :=
  AllOk fun log e => StreamOk t transmode (stream t log) e

instance (t : Transfer) (transmode : UInt32) (log : List Event) :
    Decidable (StreamsOk t transmode log) :=
  inferInstanceAs (Decidable (AllOk _ log))

/-- Every acceptance of the data command is followed by `CMD12`. -/
def StoppedAfter (t : Transfer) (log : List Event) : Prop :=
  ∀ newer older, log = newer ++ .accepted t.dataCommand :: older →
    ∃ c, .cmd c ∈ newer ∧ c.index = 12

section Stream

variable {t : Transfer} {e : Event} {log : List Event}

@[simp] theorem stream_cons : stream t (e :: log) = (stream t log).next t e := rfl

/-- Apart from the data command, only `CMD12` changes the state of the monitor. -/
theorem stream_cons_eq (log : List Event) (he : ¬ e.OfDataCommand t) :
    stream t (e :: log) = stream t log ∨
    stream t log = .opened ∧ stream t (e :: log) = .stopped := by
  cases e with
  | taken cmdindex => exact Or.inl (if_neg fun h => he h.1)
  | accepted cmdindex => exact Or.inl (if_neg he)
  | cmd c =>
    by_cases hopen : stream t log = .opened
    · by_cases hc : c.index = 12
      · exact Or.inr ⟨hopen, if_pos ⟨hc, hopen⟩⟩
      · exact Or.inl (if_neg fun h => hc h.1)
    · exact Or.inl (if_neg fun h => hopen h.2)
  | _ => exact Or.inl rfl

theorem stream_cons_of_ne (he : ¬ e.OfDataCommand t) {st : Stream} (hst : st ≠ .opened)
    (h : stream t log = st) : stream t (e :: log) = st := by
  rcases stream_cons_eq log he with hsame | ⟨hopen, -⟩
  · exact hsame.trans h
  · exact absurd (h.symm.trans hopen) hst

/-- An accepted data command leaves the monitor in `opened` until `CMD12`. -/
theorem stream_append_accepted (newer older : List Event) :
    stream t (newer ++ .accepted t.dataCommand :: older) = .opened ∨
      ∃ c, .cmd c ∈ newer ∧ c.index = 12 := by
  induction newer with
  | nil => exact Or.inl (if_pos rfl)
  | cons e newer ih =>
    rcases ih with hopen | ⟨c, hc, hindex⟩
    · rw [List.cons_append, stream_cons, hopen]
      cases e with
      | taken cmdindex => exact Or.inl (if_neg fun h => h.2 rfl)
      | accepted cmdindex => exact Or.inl (ite_self _)
      | cmd c =>
        by_cases hc : c.index = 12
        · exact Or.inr ⟨c, List.mem_cons_self, hc⟩
        · exact Or.inl (if_neg fun h => hc h.1)
      | _ => exact Or.inl rfl
    · exact Or.inr ⟨c, List.mem_cons_of_mem _ hc, hindex⟩

/-- The monitor is in `opened` only if an accepted data command has not been stopped. -/
theorem exists_accepted_of_stream (h : stream t log = .opened) :
    ∃ newer older, log = newer ++ .accepted t.dataCommand :: older ∧
      ∀ c, .cmd c ∈ newer → c.index ≠ 12 := by
  induction log with
  | nil => cases h
  | cons e log ih =>
    have hcons : (∀ c, e = .cmd c → c.index ≠ 12) → stream t log = .opened →
        ∃ newer older, e :: log = newer ++ .accepted t.dataCommand :: older ∧
          ∀ c, .cmd c ∈ newer → c.index ≠ 12 := by
      intro he hopen
      obtain ⟨newer, older, rfl, hnewer⟩ := ih hopen
      refine ⟨e :: newer, older, rfl, fun c hc => ?_⟩
      exact (List.mem_cons.mp hc).elim (fun h => he c h.symm) (hnewer c)
    rw [stream_cons] at h
    cases e with
    | taken cmdindex =>
      refine hcons (by rintro c ⟨⟩) ?_
      by_contra hopen
      by_cases hindex : cmdindex = t.dataCommand
      · exact absurd ((if_pos ⟨hindex, hopen⟩).symm.trans h) (by decide)
      · exact hopen ((if_neg fun h => hindex h.1).symm.trans h)
    | accepted cmdindex =>
      by_cases hindex : cmdindex = t.dataCommand
      · exact ⟨[], log, by rw [hindex]; rfl, fun c hc => absurd hc List.not_mem_nil⟩
      · exact hcons (by rintro c ⟨⟩) ((if_neg hindex).symm.trans h)
    | cmd c =>
      by_cases hstop : c.index = 12 ∧ stream t log = .opened
      · exact absurd ((if_pos hstop).symm.trans h) (by decide)
      · have hopen : stream t log = .opened := (if_neg hstop).symm.trans h
        refine hcons ?_ hopen
        rintro _ ⟨⟩ hindex
        exact hstop ⟨hindex, hopen⟩
    | _ => exact hcons (by rintro c ⟨⟩) h

/-- The monitor says whether every accepted data command has been followed by `CMD12`. -/
theorem stoppedAfter_iff : StoppedAfter t log ↔ stream t log ≠ .opened := by
  constructor
  · intro hstopped hopen
    obtain ⟨newer, older, hlog, hnewer⟩ := exists_accepted_of_stream hopen
    obtain ⟨c, hc, hindex⟩ := hstopped newer older hlog
    exact hnewer c hc hindex
  · rintro h newer older rfl
    exact (stream_append_accepted newer older).resolve_left h

instance : Decidable (StoppedAfter t log) :=
  decidable_of_iff _ stoppedAfter_iff.symm

end Stream

/-! ## Assertions -/

/-- The driver is in a mode, with a memory card, and `X` holds if nothing went wrong. -/
abbrev Streamed (t : Transfer) (m : UInt32) (X : World → Prop) : World → Prop :=
  Guarded (fun log e => StreamOk t m (stream t log) e)
    (fun transmode cardtype => transmode = m ∧ cardtype.IsSdMemory) X

/-- The transfer is at `st`, `C` holds of the hardware and of what the handler reports, and
`stopcondition` is set if `stop` says so. -/
def At (t : Transfer) (st : Stream) (C : List Flag → Driver → Prop) (stop : Bool) (w : World) :
    Prop :=
  stream t w.log = st ∧ C w.sdio.stat w.drv ∧ (stop → w.drv.stopcondition = 1)

/-- No error flag of the transfer is set. -/
def NoError (t : Transfer) (stat : List Flag) (_ : Driver) : Prop :=
  ¬ anySet t.errors stat

/-- The handler has reported nothing. -/
def Unreported (_ : List Flag) (drv : Driver) : Prop :=
  drv.transerror = .ok ∧ drv.transend = 0

section Assertions

variable {t : Transfer} {m : UInt32}

theorem keepingCommands_stream {st : Stream} (hst : st ≠ .opened) :
    KeepingCommands (fun index _ => index ≠ t.dataCommand)
      (Streamed t m fun w => stream t w.log = st) :=
  keepingCommands_log (L := fun log => stream t log = st) fun _ _ he =>
    stream_cons_of_ne he hst

/-- The transfer was to be at `st` when it had been opened, and has been stopped since. -/
abbrev Over (t : Transfer) (st : Stream) (w : World) : Prop :=
  st = .opened ∧ stream t w.log = .stopped

theorem keepingCommands_stopped (t : Transfer) (m : UInt32) :
    KeepingCommands (fun index _ => index ≠ t.dataCommand)
      (Streamed t m fun w => stream t w.log = .stopped) :=
  keepingCommands_stream (by decide)

theorem handlerKeeps_over (t : Transfer) (m : UInt32) (st : Stream) :
    HandlerKeeps (Streamed t m (Over t st)) :=
  handlerKeeps_log (t := t) (L := fun log => st = .opened ∧ stream t log = .stopped)
    fun _ _ he h => ⟨h.1, stream_cons_of_ne he (by decide) h.2⟩

/-- The transfer is at `st`, or has been opened and stopped. -/
def Within (t : Transfer) (st : Stream) (C : List Flag → Driver → Prop) (stop : Bool)
    (w : World) : Prop :=
  Over t st w ∨ At t st C stop w

variable {st : Stream} {C : List Flag → Driver → Prop} {stop : Bool} {w : World} {e : Event}

theorem Within.note (h : Within t st C stop w) (he : ¬ e.OfDataCommand t) :
    Within t st C stop (w.note e) := by
  rcases h with ⟨hst, hstop⟩ | ⟨hst, hC⟩
  · exact Or.inl ⟨hst, stream_cons_of_ne he (by decide) hstop⟩
  · rcases stream_cons_eq w.log he with hsame | ⟨hopen, hstop⟩
    · exact Or.inr ⟨hsame.trans hst, hC⟩
    · exact Or.inl ⟨hst.symm.trans hopen, hstop⟩

theorem Within.observe {s : Sample} {tape : List Sample} (h : Within t st C stop w)
    (hC : At t st C stop w → C (w.observe s tape).sdio.stat w.drv) :
    Within t st C stop (w.observe s tape) := by
  rcases h with ⟨hst, hstop⟩ | h
  · exact Or.inl ⟨hst, hstop⟩
  · exact Or.inr ⟨h.1, hC h, h.2.2⟩

/-- A change that leaves the log and `stopcondition` alone. -/
theorem Within.update {w' : World} (h : Within t st C stop w) (hlog : w'.log = w.log)
    (hstop : w'.drv.stopcondition = w.drv.stopcondition)
    (hC : C w.sdio.stat w.drv → C w'.sdio.stat w'.drv) : Within t st C stop w' := by
  unfold Within Over At
  rw [hlog, hstop]
  exact h.imp id fun h => ⟨h.1, hC h.2.1, h.2.2⟩

theorem keeping_within (hacc : Keeps (Streamed t m (Within t st C stop)) access)
    (htotal : ∀ n stat drv, C stat drv → C stat { drv with totalnumberBytes := n }) :
    Keeping (Streamed t m (Within t st C stop)) where
  access := hacc
  data _ _ he h := h.note fun _ h => h.note (t.not_ofDataCommand_of_ofData he)
  sdio g w hg h := h.update rfl rfl rfl fun h => h.update rfl rfl fun hC => by
    rw [World.setSdio_sdio, hg]
    exact hC
  store _ _ _ h := h.update rfl rfl rfl id
  setUp _ _ h := h.note fun _ h => h.note id
  total n _ h := h.update rfl rfl rfl fun h => h.update rfl rfl (htotal n _ _)

theorem keepingCommands_within (hacc : Keeps (Streamed t m (Within t st C stop)) access)
    (htotal : ∀ n stat drv, C stat drv → C stat { drv with totalnumberBytes := n })
    (hclear : ∀ (mask : List Flag) stat drv, C stat drv → C (stat.filter (· ∉ mask)) drv) :
    KeepingCommands (fun index _ => index ≠ t.dataCommand)
      (Streamed t m (Within t st C stop)) where
  __ := keeping_within hacc htotal
  clear mask _ h := h.update rfl rfl rfl fun h => h.update rfl rfl (hclear mask _ _)
  plain index _ := t.plain_ne_dataCommand index
  cmd _ _ hc h := h.note fun _ h => h.note hc
  taken _ _ _ hc h := h.note fun _ h => h.note hc
  accepted _ _ _ hc h := h.note fun _ h => h.note hc

/-- The stop command ends an open transfer. -/
theorem sdTransferStop_stops {acc : Program World Unit}
    (hacc : Keeps (Streamed t m (Within t .opened C stop)) acc)
    (hcommand : Keeps (fun w => w.sdio.command = stopCommand) acc)
    (hover : Keeps (Streamed t m (Over t .opened)) acc) :
    Triple (Streamed t m (Within t .opened C stop)) (sdTransferStop acc)
      (fun _ => Streamed t m (Over t .opened)) (Streamed t m (Within t .opened C stop)) := by
  refine Triple.bind (Q := fun _ => Streamed t m (Over t .opened)) ?_ fun _ => ?_
  · refine Triple.sendCommand (C := (· = stopCommand)) hacc (hacc.and hcommand) rfl
      (fun w hw => hw.update rfl rfl rfl fun h => h.update rfl rfl id)
      (fun w hw => hw.note fun _ h => h.note id) ?_
    rintro c w rfl hw
    refine hw.note fun _ h => ⟨rfl, ?_⟩
    rcases h with ⟨-, hstop⟩ | ⟨hopen, -⟩
    · exact stream_cons_of_ne (e := .cmd stopCommand)
        (t.not_ofDataCommand_of_ofHandler rfl) (by decide) hstop
    · exact if_pos ⟨rfl, hopen⟩
  · have hkeep := handlerKeeps_over t m .opened
    exact (Keeps.r1ErrorCheck hover hkeep.clear (fun w => hkeep.event (.taken 12) w rfl)
      fun w => hkeep.event (.accepted 12) w rfl).weaken (fun _ _ h => h)
      fun w hw => hw.imp Or.inl

/-- The stop command of the handler, if `stopcondition` asks for it. -/
theorem handlerStop_stops (hmasked : Keeps (Streamed t m (Within t st C stop)) masked)
    (stopcondition : UInt32) :
    Triple (Streamed t m fun w =>
        Over t st w ∨ (st = .opened ∧ stopcondition = 1) ∧ Within t st C stop w)
      (handlerStop stopcondition) (fun _ => Streamed t m (Over t st))
      (Streamed t m (Within t st C stop)) := by
  by_cases hst : st = .opened
  · subst hst
    refine Triple.ite (fun _ => ?_) fun hne => Triple.pure _ fun w hw => hw.imp fun h => ?_
    · exact (sdTransferStop_stops hmasked (Keeps.command_masked (C := (· = stopCommand)))
        (handlerKeeps_over _ _ _).masked).strengthen fun w hw =>
          hw.imp fun h => h.elim Or.inl And.right
    · exact h.resolve_right fun h => hne h.1.2
  · exact ((handlerKeeps_over _ _ _).handlerStop stopcondition).conseq
      (fun w hw => hw.imp fun h => h.resolve_right fun h => hst h.1.1) (fun _ _ h => h)
      fun w hw => hw.imp Or.inl

/-- An instant, if the handler ends the transfer only when it is open and `stopcondition` is
set, and clears only flags that `C` can spare. -/
theorem keeps_within_access
    (hobserve : ∀ s tape w, StreamOk t m (stream t w.log) (.sample s) → At t st C stop w →
      C (w.observe s tape).sdio.stat w.drv)
    (hreset : ∀ stat drv, C stat drv → C stat { drv with transerror := .ok })
    (hend : ∀ w, StreamOk t m st (.irqEnd w.drv.stopcondition) → At t st C stop w →
      st = .opened ∧ w.drv.stopcondition = 1)
    (hfault : ∀ flag fault, (flag, fault) ∈ handlerFaults → StreamOk t m st (.irqFault flag) →
      (∀ stat drv, C stat drv → C (stat.filter (· ∉ [flag])) drv) ∧
        ∀ stat drv, C stat drv → C stat { drv with numberBytes := 0, transerror := fault }) :
    Keeps (Streamed t m (Within t st C stop)) access := by
  have hsample : ∀ s tape w, Streamed t m (Within t st C stop) w →
      Streamed t m (Within t st C stop) (w.observe s tape) :=
    fun s tape w hw => hw.observe fun hok h => h.observe (hobserve s tape w hok)
  have hmasked := Keeps.masked hsample
  have hover := handlerKeeps_over t m st
  have hE : ∀ w, Streamed t m (Over t st) w → Streamed t m (Within t st C stop) w :=
    fun w hw => hw.imp Or.inl
  refine Keeps.access hsample (Triple.sdInterruptsProcess (fun w hw => ?_) hmasked ?_
    (fun flag fault hflag => ?_) (fun _ hw => hw) fun _ hw => hw)
  · exact (hw.note fun _ h => h.note id).update rfl rfl rfl fun h =>
      h.update rfl rfl (hreset _ _)
  · refine (hover.handleEnd (fun w hw => ?_) (handlerStop_stops hmasked) hE).imp
      fun _ => hE
    refine hw.1.note fun hok h => ?_
    rcases h with hover | hat
    · exact Or.inl ⟨hover.1, stream_cons_of_ne (e := .irqEnd _) id (by decide) hover.2⟩
    · exact Or.inr ⟨hend w (hat.1 ▸ hok) hat, Within.note (Or.inr hat) id⟩
  by_cases hok : StreamOk t m st (.irqFault flag)
  · obtain ⟨hclear, hdrv⟩ := hfault flag fault hflag hok
    exact Triple.handlerFault (fun w hw => hw.1.note fun _ h => h.note id) hmasked
      (fun w hw => hw.update rfl rfl rfl fun h => h.update rfl rfl (hclear _ _)) hmasked
      (fun s w _ hw => hw.note fun _ h => h.note id)
      (fun w hw => hw.update rfl rfl rfl fun h => h.update rfl rfl (hdrv _ _))
      (fun _ hw => hw) fun _ hw => hw
  · -- the handler must not act on the flag, unless the transfer is over
    refine (hover.handlerFault fault fun w hw => ?_).weaken (fun _ => hE) hE
    refine hw.1.note fun hok' h => ?_
    rcases h with hover | hat
    · exact ⟨hover.1, stream_cons_of_ne (e := .irqFault flag) id (by decide) hover.2⟩
    · exact absurd (hat.1 ▸ hok') hok

/-- What a transfer leaves behind, whatever it returns. -/
def Ends (t : Transfer) (m : UInt32) (_ : SdError) (w : World) : Prop :=
  Streamed t m (fun w => stream t w.log ≠ .opened) w

theorem Guarded.ends {X : World → Prop} (h : Streamed t m X w)
    (hX : X w → stream t w.log ≠ .opened) (status : SdError) : Ends t m status w :=
  h.imp hX

/-- Nothing has been asked of the card. -/
abbrev Idle (t : Transfer) (m : UInt32) : World → Prop :=
  Streamed t m fun w => stream t w.log = .idle

theorem Idle.ends (h : Idle t m w) (status : SdError) :
    Ends t m status w :=
  Guarded.ends h (fun h => by rw [h]; decide) status

/-- `stopcondition` is set before the data command of a read. -/
theorem Idle.before {w' : World} (h : Idle t m w) (hlog : w'.log = w.log)
    (hmode : w'.drv.transmode = w.drv.transmode) (hcard : w'.drv.cardtype = w.drv.cardtype)
    (hC : C w'.sdio.stat w'.drv) (hstop : stop → w'.drv.stopcondition = 1) :
    Streamed t m (Within t .idle C stop) w' :=
  h.update hlog hmode hcard fun h => Or.inr ⟨by rw [hlog]; exact h, hC, hstop⟩

theorem keepingCommands_idle :
    KeepingCommands (fun index _ => index ≠ t.dataCommand) (Idle t m) :=
  keepingCommands_stream (by decide)

/-- The data command opens the transfer when its response is accepted. -/
theorem dataCommand_opens {C₀ : List Flag → Driver → Prop}
    (hidle : KeepingCommands (fun index _ => index ≠ t.dataCommand)
      (Streamed t m (Within t .idle C₀ stop)))
    (htaken : Keeps (Streamed t m (Within t .taken C stop)) access)
    (htake : ∀ stat drv, C₀ stat drv → C (stat.filter (· ∉ sdioMaskIntcFlags)) drv)
    (argument : UInt32) :
    Triple (Streamed t m (Within t .idle C₀ stop)) (commandR1 access t.dataCommand argument)
      (fun status w => (status = .ok → Streamed t m (Within t .opened C stop) w) ∧
        (status ≠ .ok → Ends t m status w)) fun _ => True := by
  have hat : ∀ {st C w}, st ≠ .opened → Within t st C stop w → At t st C stop w :=
    fun hst h => h.resolve_left fun hover => hst hover.1
  refine (hidle.dataCommand (T := Streamed t m (Within t .taken C stop))
    (A := Streamed t m (Within t .opened C stop)) (fun c w hw => hw.note fun _ h => ?_) htaken
    (fun w hw => ?_) (fun w hw => hw.note fun _ h => ?_) argument).weaken
    (fun status w hw => ⟨hw.1, fun hne => (hw.2 hne).elim ?_ ?_⟩) fun _ _ => trivial
  · have h := hat (by decide) h
    exact Or.inr ⟨(if_neg fun hc => absurd (h.1.symm.trans hc.2) (by decide)).trans h.1, h.2⟩
  · refine ⟨hw.fixed, fun hs => ?_⟩
    have h := hat (by decide) (hw.holds hs.2)
    refine Or.inr ⟨if_pos ⟨rfl, ?_⟩, htake _ _ h.2.1, h.2.2⟩
    exact fun hopen => absurd (h.1.symm.trans hopen) (by decide)
  · exact Or.inr ⟨if_pos rfl, (hat (by decide) h).2⟩
  · exact fun hw => hw.ends (fun h => by rw [(hat (by decide) h).1]; decide) status
  · exact fun hw => hw.ends (fun h => by rw [(hat (by decide) h).1]; decide) status

end Assertions

/-! ## Polling mode -/

section Polling

variable {t : Transfer} {st : Stream} {stop : Bool}

/-- The handler leaves an assertion about the flags alone, if the samples do. -/
theorem handlerKeeps_within {m : UInt32} {C : List Flag → Driver → Prop}
    (hobserve : ∀ s tape w, StreamOk t m (stream t w.log) (.sample s) → At t st C stop w →
      C (w.observe s tape).sdio.stat w.drv)
    (hclear : ∀ (mask : List Flag) stat drv, C stat drv → C (stat.filter (· ∉ mask)) drv)
    (hdrv : ∀ stat drv drv', C stat drv → C stat drv') :
    HandlerKeeps (Streamed t m (Within t st C stop)) where
  observe s tape w h := h.observe fun hok h => h.observe (hobserve s tape w hok)
  clear mask _ h := h.update rfl rfl rfl fun h => h.update rfl rfl (hclear mask _ _)
  stop _ h := h.update rfl rfl rfl fun h => h.update rfl rfl id
  event _ _ he h := h.note fun _ h => h.note (t.not_ofDataCommand_of_ofHandler he)
  drv f w hf h := by
    refine h.update rfl (hf w.drv).transmode (hf w.drv).cardtype fun h => ?_
    refine h.update rfl ?_ (hdrv _ _ _)
    rw [World.setDrv_drv, hf w.drv]

theorem handlerKeeps_noError (hst : st = .taken ∨ st = .opened) :
    HandlerKeeps (Streamed t sdPollingMode (Within t st (NoError t) stop)) := by
  refine handlerKeeps_within (fun s tape w hok h => ?_) (fun mask stat drv h => ?_)
    fun _ _ _ h => h
  · rintro ⟨f, hf, hstat⟩
    rcases World.mem_stat_observe.mp hstat with ⟨hstat, -⟩ | hflag
    · exact h.2.1 ⟨f, hf, hstat⟩
    · have hraise := hok (decide_eq_true ⟨f, hf, hflag⟩)
      rw [h.1] at hraise
      exact hst.elim hraise.1 hraise.2
  · rintro ⟨f, hf, hstat⟩
    exact h ⟨f, hf, List.mem_of_mem_filter hstat⟩

/-- The polling loop has seen `DTEND`, and it is still set unless the handler has acted on
it. -/
def EndSeen (t : Transfer) (stat : List Flag) (_ : Driver) : Prop :=
  ¬ anySet t.errors stat ∧ .dtend ∈ stat

theorem keeps_endSeen_access :
    Keeps (Streamed t sdPollingMode (Within t .opened (EndSeen t) true)) access := by
  refine keeps_within_access (fun s tape w hok h => ⟨?_, ?_⟩) (fun _ _ h => h)
    (fun w _ h => ⟨rfl, h.2.2 rfl⟩) fun flag fault hflag _ => ⟨fun stat drv h => ⟨?_, ?_⟩,
      fun _ _ h => h⟩
  · rintro ⟨f, hf, hstat⟩
    rcases World.mem_stat_observe.mp hstat with ⟨hstat, -⟩ | hraised
    · exact h.2.1.1 ⟨f, hf, hstat⟩
    · exact (hok (decide_eq_true ⟨f, hf, hraised⟩)).2 h.1
  · exact World.mem_stat_observe.mpr (Or.inl ⟨h.2.1.2, by decide⟩)
  · rintro ⟨f, hf, hstat⟩
    exact h.1 ⟨f, hf, List.mem_of_mem_filter hstat⟩
  · have hne : .dtend ≠ flag := by
      rintro rfl
      simp [handlerFaults] at hflag
    simp [h.2, hne]

theorem keeping_endSeen :
    Keeping (Streamed t sdPollingMode (Within t .opened (EndSeen t) true)) :=
  keeping_within keeps_endSeen_access fun _ _ _ h => h

/-- The polling loop ends with an error flag or with `DTEND`. -/
theorem endSeen_of_polled {w : World}
    (hw : Streamed t sdPollingMode (Within t .opened (NoError t) true) w)
    (hset : anySet (pollFlags t.overrun .dtend) w.sdio.stat) :
    Streamed t sdPollingMode (Within t .opened (EndSeen t) true) w := by
  refine hw.imp (Or.imp id fun h => ⟨h.1, ⟨h.2.1, ?_⟩, h.2.2⟩)
  obtain ⟨f, hf, hstat⟩ := hset
  by_cases hend : f = .dtend
  · exact hend ▸ hstat
  · refine absurd ⟨f, ?_, hstat⟩ h.2.1
    simpa [pollFlags, Transfer.errors, hend] using hf

/-- The chain of checks finds no error while the transfer is open. -/
theorem checkFaults_endSeen : ∀ faults : List (Flag × SdError), (∀ e ∈ faults, e.1 ∈ t.errors) →
    Triple (Streamed t sdPollingMode (Within t .opened (EndSeen t) true))
      (checkFaults access faults)
      (fun status w => Streamed t sdPollingMode (Within t .opened (EndSeen t) true) w ∧
        (status ≠ .ok → Ends t sdPollingMode status w)) fun _ => True
  | [], _ => Triple.pure _ fun _ hw => ⟨hw, fun h => absurd rfl h⟩
  | (flag, fault) :: faults, hmem => by
    have hover := handlerKeeps_over t sdPollingMode .opened
    refine Triple.bind (Triple.sdioFlagGet keeps_endSeen_access).forget fun b =>
      Triple.ite (fun hb => ?_) fun _ => ?_
    · refine Triple.bind (Q := fun _ => Streamed t sdPollingMode (Over t .opened))
        ((Keeps.sdioFlagClear hover.access (hover.clear [flag])).triple.strengthen fun w hw =>
          hw.1.imp fun h => h.resolve_right fun hat => ?_) fun _ => Triple.pure _ fun w hw =>
        ⟨hw.imp Or.inl, fun _ => hw.ends (fun h => by rw [h.2]; decide) fault⟩
      obtain ⟨f, hf, hstat⟩ := hw.2.mp hb
      obtain rfl := List.mem_singleton.mp hf
      exact hat.2.1.1 ⟨f, hmem _ List.mem_cons_self, hstat⟩
    · exact (checkFaults_endSeen faults fun e he => hmem e (List.mem_cons_of_mem _ he)).strengthen
        fun _ hw => hw.1

theorem stopPolled_stops :
    Triple (Streamed t sdPollingMode (Within t .opened (EndSeen t) true)) stopPolled
      (fun _ => Streamed t sdPollingMode fun w => stream t w.log = .stopped) fun _ => True := by
  refine Triple.bind (Triple.sdioFlagGet keeps_endSeen_access).forget fun b =>
    Triple.ite (fun _ => ?_) fun hb => Triple.pure _ fun w hw => ?_
  · refine Triple.bind (Q := fun drv w => Streamed t sdPollingMode
      (Within t .opened (EndSeen t) true) w ∧ drv.cardtype.IsSdMemory)
      (Triple.getDrv fun w hw => ⟨hw.1, hw.1.fixed.2⟩) fun drv => Triple.of_fact fun hcard =>
        Triple.ite (fun _ => ?_) fun h => absurd hcard h
    refine (sdTransferStop_stops keeps_endSeen_access ?_ (handlerKeeps_over _ _ _).access).weaken
      (fun _ _ hw => hw.imp And.right) fun _ _ => trivial
    simpa using (handlerKeeps_command stopCommand).access
  · refine hw.1.imp fun h => ?_
    rcases h with hover | hat
    · exact hover.2
    · exact absurd (hw.2.mpr ⟨.dtend, List.mem_singleton.mpr rfl, hat.2.1.2⟩) hb

/-- What follows the polling loop and the checks. -/
theorem afterChecks {rest : Program World SdError}
    (hrest : Keeps (Streamed t sdPollingMode fun w => stream t w.log = .stopped) rest) :
    Triple (Streamed t sdPollingMode (Within t .opened (EndSeen t) true)) (ifOk stopPolled rest)
      (Ends t sdPollingMode) fun _ => True := by
  have hends : ∀ status w, Streamed t sdPollingMode (fun w => stream t w.log = .stopped) w →
      Ends t sdPollingMode status w :=
    fun status w hw => hw.ends (fun h => by rw [h]; decide) status
  refine Triple.ifOk stopPolled_stops ?_ fun status w _ => hends status w
  exact hrest.triple.imp fun status w => hends status w

/-- The part of a transfer of several blocks that moves the data by polling. -/
theorem pollStops (ht : t = .multiblocksRead ∨ t = .multiblocksWrite) (pbuffer : ℕ)
    (blocksize : UInt16) :
    Triple (Streamed t sdPollingMode (Within t .opened (NoError t) true))
      (t.data pbuffer blocksize) (Ends t sdPollingMode) fun _ => True := by
  have hstopped := keepingCommands_stopped t sdPollingMode
  have hnoError : Keeping (Streamed t sdPollingMode (Within t .opened (NoError t) true)) :=
    keeping_within (handlerKeeps_noError (Or.inr rfl)).access fun _ _ _ h => h
  rcases ht with rfl | rfl
  · refine Triple.polled (fun _ hw => hw.fixed.1) ?_
    refine Triple.bind ((hnoError.pollReceive .dtend pbuffer).weaken
      (fun _ w hw => endSeen_of_polled hw.1 hw.2) fun _ _ => trivial) fun ptempbuff => ?_
    refine Triple.ifOk (checkFaults_endSeen _ (by decide)) ?_ fun status w hne hw => hw.2 hne
    refine Triple.bind ((keeping_endSeen.drainFifo _).triple.strengthen fun w hw => hw.1)
      fun _ => ?_
    exact afterChecks ((hstopped.flagClear _).bind fun _ => Keeps.pure _)
  · refine Triple.polled (fun _ hw => hw.fixed.1) ?_
    refine Triple.bind ((hnoError.pollSend .dtend pbuffer).weaken
      (fun _ w hw => endSeen_of_polled hw.1 hw.2) fun _ _ => trivial) fun _ => ?_
    refine Triple.ifOk (checkFaults_endSeen _ (by decide)) ?_ fun status w hne hw => hw.2 hne
    exact (afterChecks ((hstopped.flagClear _).bind fun _ => hstopped.finishWrite)).strengthen
      fun w hw => hw.1

theorem transferStages_pollStops (ht : t = .multiblocksRead ∨ t = .multiblocksWrite) :
    TransferStages t (Idle t sdPollingMode) (Idle t sdPollingMode) (Idle t sdPollingMode)
      (Streamed t sdPollingMode (Within t .idle (fun _ _ => True) t.isRead))
      (Streamed t sdPollingMode (Within t .opened (NoError t) t.isRead))
      (Streamed t sdPollingMode (Within t .opened (NoError t) true))
      (Ends t sdPollingMode) := by
  have hstop : t.stop = 1 := by
    rcases ht with rfl | rfl <;> rfl
  have hidle : KeepingCommands (fun index _ => index ≠ t.dataCommand)
      (Streamed t sdPollingMode (Within t .idle (fun _ _ => True) t.isRead)) :=
    keepingCommands_within (handlerKeeps_within (fun _ _ _ _ _ => trivial)
      (fun _ _ _ _ => trivial) fun _ _ _ _ => trivial).access (fun _ _ _ _ => trivial)
      fun _ _ _ _ => trivial
  exact {
    start := keepingCommands_idle.access
    transerror := fun _ h => h.update rfl rfl rfl id
    reset := keepingCommands_idle.access
    transend := fun _ h => h.update rfl rfl rfl id
    setup := keepingCommands_idle
    null := fun _ h => h.ends _
    skipped := fun status _ h => h.ends status
    stopBefore := fun _ _ h => h.before rfl rfl rfl trivial fun _ => hstop
    noStopBefore := fun hwrite _ h =>
      h.before rfl rfl rfl trivial fun hread => absurd (hwrite.symm.trans hread) (by decide)
    before := hidle.toKeeping
    command := dataCommand_opens hidle (handlerKeeps_noError (Or.inl rfl)).access
      fun stat _ _ => by
        rintro ⟨f, hf, hstat⟩
        simpa [t.errors_subset f hf] using (List.mem_filter.mp hstat).2
    accepted := (handlerKeeps_noError (Or.inr rfl)).access
    noStopAfter := fun hread _ h => by rwa [hread] at h
    stopAfter := fun _ _ h => h.update rfl rfl rfl fun h =>
      h.imp id fun h => ⟨h.1, h.2.1, fun _ => hstop⟩
    after := keeping_within (handlerKeeps_noError (Or.inr rfl)).access fun _ _ _ h => h
    data := pollStops ht }

end Polling

/-! ## DMA mode -/

section Dma

variable {t : Transfer} {st : Stream}

theorem keeps_unreported_access {C : List Flag → Driver → Prop} (hst : st ≠ .stopped)
    (hstat : ∀ stat stat' drv, C stat drv → C stat' drv)
    (hreset : ∀ stat drv, C stat drv → C stat { drv with transerror := .ok }) :
    Keeps (Streamed t sdDmaMode (Within t st C false)) access := by
  refine keeps_within_access (fun s tape w _ h => hstat _ _ _ h.2.1) hreset
    (fun w hok _ => ?_) fun flag fault _ hok => absurd (hok.1 rfl) hst
  obtain ⟨hopen, hstop⟩ := (hok.2 rfl).resolve_left hst
  exact ⟨hopen, of_decide_eq_true hstop⟩

theorem keepingCommands_unreported (t : Transfer) (st : Stream) (hst : st ≠ .stopped) :
    KeepingCommands (fun index _ => index ≠ t.dataCommand)
      (Streamed t sdDmaMode (Within t st Unreported false)) :=
  keepingCommands_within
    (keeps_unreported_access hst (fun _ _ _ h => h) fun _ _ h => ⟨rfl, h.2⟩)
    (fun _ _ _ h => h) fun _ _ _ h => h

/-- What follows the start of the DMA transfer. -/
theorem awaitDma_stops (timeout : ℕ) {rest : Program World SdError}
    (hrest : Keeps (Streamed t sdDmaMode fun w => stream t w.log = .stopped) rest) :
    Triple (Streamed t sdDmaMode (Within t .opened Unreported false)) (awaitDma timeout rest)
      (Ends t sdDmaMode) fun _ => True := by
  have hkeep := keepingCommands_unreported t .opened (by decide)
  have hstopped := keepingCommands_stopped t sdDmaMode
  have hends : ∀ status w, Streamed t sdDmaMode (fun w => stream t w.log = .stopped) w →
      Ends t sdDmaMode status w :=
    fun status w hw => hw.ends (fun h => by rw [h]; decide) status
  refine Triple.bind (Q := fun b => Streamed t sdDmaMode fun w =>
    Within t .opened Unreported false w ∧ (b = false → stream t w.log = .stopped)) ?_ fun b => ?_
  · refine (hkeep.toKeeping.waitFtf (fun w hw => ?_) (fun w hw => ?_) timeout).forget
    · exact hw.note fun _ h => ⟨h.note id, fun h => absurd h (by decide)⟩
    · refine hw.note fun hok h => ⟨h.note id, fun _ => ?_⟩
      exact stream_cons_of_ne (e := .dmaTimeout) id (by decide) (hok.1 rfl)
  refine Triple.ite (fun _ => ?_) fun hb => Triple.pure _ fun w hw =>
    hends _ w (hw.imp fun h => h.2 (Bool.not_eq_true _ ▸ hb))
  refine (Triple.waitTransend (X := Streamed t sdDmaMode fun w => stream t w.log = .stopped)
    hkeep.access.triple hstopped.access.triple (fun w hw h => hw.imp fun hwithin => ?_)
    (fun w => hends _ w) ?_ fun _ _ => trivial).strengthen fun w hw => hw.imp And.left
  · rcases hwithin with hover | ⟨-, ⟨herr, hend⟩, -⟩
    · exact hover.2
    · exact h.elim (absurd hend) (absurd herr)
  · exact hrest.triple.conseq (fun w hw => hw.1) (fun status w => hends status w) fun _ h => h

/-- The part of a transfer of several blocks that moves the data by DMA. -/
theorem dmaStops (ht : t = .multiblocksRead ∨ t = .multiblocksWrite) (pbuffer : ℕ)
    (blocksize : UInt16) :
    Triple (Streamed t sdDmaMode (Within t .opened Unreported false))
      (t.data pbuffer blocksize) (Ends t sdDmaMode) fun _ => True := by
  have hkeep := keepingCommands_unreported t .opened (by decide)
  have hstopped := keepingCommands_stopped t sdDmaMode
  rcases ht with rfl | rfl
  · refine Triple.byDma (fun _ hw => hw.fixed.1) ?_
    refine Triple.bind (hkeep.configure _).triple fun _ => ?_
    refine Triple.bind (hkeep.configure _).triple fun _ => ?_
    refine Triple.bind Keeps.getDrv.triple fun _ => ?_
    exact Triple.bind (hkeep.dmaConfig _).triple fun _ => awaitDma_stops _ (Keeps.pure _)
  · refine Triple.byDma (fun _ hw => hw.fixed.1) ?_
    refine Triple.bind (hkeep.configure _).triple fun _ => ?_
    refine Triple.bind (hkeep.configure _).triple fun _ => ?_
    refine Triple.bind Keeps.getDrv.triple fun _ => ?_
    exact Triple.bind (hkeep.dmaConfig _).triple fun _ => awaitDma_stops _ hstopped.finishWrite

theorem transferStages_dmaStops (ht : t = .multiblocksRead ∨ t = .multiblocksWrite) :
    TransferStages t (Idle t sdDmaMode)
      (Streamed t sdDmaMode (Within t .idle (fun _ drv => drv.transerror = .ok) false))
      (Streamed t sdDmaMode (Within t .idle Unreported false))
      (Streamed t sdDmaMode (Within t .idle Unreported false))
      (Streamed t sdDmaMode (Within t .opened Unreported false))
      (Streamed t sdDmaMode (Within t .opened Unreported false)) (Ends t sdDmaMode) where
  start := keepingCommands_idle.access
  transerror _ h := h.before rfl rfl rfl rfl fun h => absurd h (by decide)
  reset := keeps_unreported_access (by decide) (fun _ _ _ h => h) fun _ _ _ => rfl
  transend _ h := h.update rfl rfl rfl fun h => h.imp id fun h => ⟨h.1, ⟨h.2.1, rfl⟩, h.2.2⟩
  setup := keepingCommands_unreported t _ (by decide)
  null _ h := h.ends _
  skipped status _ h := h.ends (fun h => h.elim (fun h => absurd h.1 (by decide))
    fun h => by rw [h.1]; decide) status
  stopBefore _ _ h := h.update rfl rfl rfl fun h =>
    h.imp id fun h => ⟨h.1, h.2.1, fun h => absurd h (by decide)⟩
  noStopBefore _ _ h := h
  before := (keepingCommands_unreported t _ (by decide)).toKeeping
  command := dataCommand_opens (keepingCommands_unreported t _ (by decide))
    (keepingCommands_unreported t _ (by decide)).access fun _ _ h => h
  accepted := (keepingCommands_unreported t _ (by decide)).access
  noStopAfter _ _ h := h
  stopAfter _ _ h := h.update rfl rfl rfl fun h =>
    h.imp id fun h => ⟨h.1, h.2.1, fun h => absurd h (by decide)⟩
  after := (keepingCommands_unreported t _ (by decide)).toKeeping
  data := dmaStops ht

end Dma

/-- The samples of a read of two blocks up to the response of its data command. -/
def upToBlocksResponse : List Sample :=
  quiet 10 ++ [answer 16 0x900] ++ quiet 10 ++ [answer 18 0x900] ++ quiet 3

end Gd32Firmware
