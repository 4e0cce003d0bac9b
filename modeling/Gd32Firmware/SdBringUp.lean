import Gd32Firmware.SdHistory
import Gd32Firmware.SdTransferRules
import Mathlib.Tactic.MkIffOfInductiveProp

/-!
# The status in `sd_io_init`

`sd_io_init` passes one status through its steps, and each step but one is taken only if the
status so far is `SD_OK`. `sd_cardstatus_get` is called whatever the status is, and its result
replaces it, so that the failure of an earlier step is lost when the card answers and is not
locked (`Overwritten`). In every other run the steps are chained (`Chained`).
-/

namespace Gd32Firmware

open Program

/-! ## What the log says about the steps -/

/-- The steps before the state of the card is asked for. -/
def BringUp.early : BringUp → Bool
  | .init | .informationGet | .select => true
  | _ => false

/-- The steps that configure the bus and the transfer. -/
def BringUp.configures : BringUp → Bool
  | .busModeConfig | .transferModeConfig => true
  | _ => false

namespace Event

def begins (p : BringUp → Bool) : Event → Bool
  | .begin step => p step
  | _ => false

def succeeds (step : BringUp) : Event → Bool
  | .done step' status => step' = step ∧ status = .ok
  | _ => false

def fails (p : BringUp → Bool) : Event → Bool
  | .done step status => p step ∧ status ≠ .ok
  | _ => false

/-- The card is not locked. -/
def unlocked : Event → Bool
  | .lockCheck cardstate => cardstate &&& 0x02000000 = 0
  | _ => false

end Event

/-- A step that configures is taken only if no step has failed. -/
def ConfigOk (log : List Event) (e : Event) : Prop :=
  e.begins BringUp.configures → ¬ log.any (Event.fails fun _ => true)

/-- The steps are chained : the result is `SD_OK` only if every step returned `SD_OK`, and
nothing is configured after a failure. -/
@[mk_iff]
structure Chained (result : Option SdError) (log : List Event) : Prop where
  ok : result = some .ok → ∀ step, log.any (Event.succeeds step)
  config : AllOk ConfigOk log

/-- An early step failed, and the card answered that it is not locked. -/
@[mk_iff]
structure Overwritten (log : List Event) : Prop where
  failed : log.any (Event.fails BringUp.early)
  answered : log.any (Event.succeeds .cardstatusGet)
  unlocked : log.any Event.unlocked

/-- The steps of a run are chained exactly if no failure was lost. -/
def Settled (result : Option SdError) (log : List Event) : Prop :=
  Chained result log ↔ ¬ Overwritten log

section Steps

variable {log : List Event} {e : Event} {result : Option SdError}

theorem any_fails_of_early (h : log.any (Event.fails BringUp.early)) :
    log.any (Event.fails fun _ => true) := by
  obtain ⟨e, he, hfails⟩ := List.any_eq_true.mp h
  refine List.any_eq_true.mpr ⟨e, he, ?_⟩
  cases e with
  | done step status => simp_all [Event.fails]
  | _ => exact hfails

theorem Overwritten.cons (h : Overwritten log) : Overwritten (e :: log) where
  failed := List.any_cons.trans (by rw [h.failed, Bool.or_true])
  answered := List.any_cons.trans (by rw [h.answered, Bool.or_true])
  unlocked := List.any_cons.trans (by rw [h.unlocked, Bool.or_true])

theorem settled_of_chained (hok : result = some .ok → ∀ step, log.any (Event.succeeds step))
    (hconfig : AllOk ConfigOk log) (hnot : ¬ Overwritten log) : Settled result log :=
  iff_of_true ⟨hok, hconfig⟩ hnot

theorem settled_of_overwritten (h : Overwritten log) (hconfig : ¬ AllOk ConfigOk log) :
    Settled result log :=
  iff_of_false (fun hchained => hconfig hchained.config) (not_not_intro h)

theorem allOk_of_not_begins (h : ¬ log.any (Event.begins BringUp.configures)) :
    AllOk ConfigOk log := by
  induction log with
  | nil => exact trivial
  | cons e log ih =>
    rw [List.any_cons, Bool.or_eq_true, not_or] at h
    exact ⟨fun he => absurd he h.1, ih h.2⟩

end Steps

/-! ## Assertions -/

/-- What `sd_io_init` itself records. -/
def Event.ofBringUp : Event → Bool
  | .begin _ | .done _ _ | .lockCheck _ => true
  | _ => false

/-- The part of the log that `sd_io_init` itself records. -/
def steps (log : List Event) : List Event :=
  log.filter Event.ofBringUp

/-- An assertion about the steps. -/
abbrev Stepped (D : List Event → Prop) (w : World) : Prop :=
  D (steps w.log)

theorem keepingInit_stepped (D : List Event → Prop) : KeepingInit (Stepped D) where
  observe _ _ _ h := h
  clear _ _ h := h
  bus _ _ _ h := h
  sdio _ _ h := h
  event e w he h := by
    have hsteps : steps (e :: w.log) = steps w.log := by
      cases e <;> first | rfl | exact he.elim
    unfold Stepped
    rw [World.note_log, hsteps]
    exact h
  drv _ _ h := h
  ifCond _ h := h
  ocr _ _ h := h

theorem any_steps {p : Event → Bool} (hp : ∀ e, p e → e.ofBringUp) (log : List Event) :
    (steps log).any p = log.any p := by
  rw [steps, List.any_filter]
  refine List.any_congr rfl fun e => ?_
  cases hpe : p e with
  | false => exact Bool.and_false _
  | true => rw [hp e hpe]; rfl

theorem ofBringUp_of_begins {p : BringUp → Bool} : ∀ e : Event, e.begins p → e.ofBringUp := by
  rintro (_ | _) <;> first | exact fun _ => rfl | exact fun h => nomatch h

theorem ofBringUp_of_succeeds {step : BringUp} :
    ∀ e : Event, e.succeeds step → e.ofBringUp := by
  rintro (_ | _) <;> first | exact fun _ => rfl | exact fun h => nomatch h

theorem ofBringUp_of_fails {p : BringUp → Bool} : ∀ e : Event, e.fails p → e.ofBringUp := by
  rintro (_ | _) <;> first | exact fun _ => rfl | exact fun h => nomatch h

theorem ofBringUp_of_unlocked : ∀ e : Event, e.unlocked → e.ofBringUp := by
  rintro (_ | _) <;> first | exact fun _ => rfl | exact fun h => nomatch h

theorem allOk_steps (log : List Event) : AllOk ConfigOk (steps log) ↔ AllOk ConfigOk log := by
  induction log with
  | nil => exact Iff.rfl
  | cons e log ih =>
    have hconfig : ConfigOk (steps log) e ↔ ConfigOk log e := by
      rw [ConfigOk, ConfigOk, any_steps ofBringUp_of_fails]
    cases he : e.ofBringUp with
    | true =>
      rw [steps, List.filter_cons_of_pos he]
      exact and_congr hconfig ih
    | false =>
      rw [steps, List.filter_cons_of_neg (by rw [he]; decide)]
      refine ih.trans (iff_and_self.mpr fun _ hbegins => ?_)
      exact absurd (ofBringUp_of_begins e hbegins) (by rw [he]; decide)

/-- A log is settled exactly if the steps in it are. -/
theorem settled_steps {result : Option SdError} {log : List Event} :
    Settled result (steps log) ↔ Settled result log := by
  have hchained : Chained result (steps log) ↔ Chained result log := by
    simp only [chained_iff, any_steps ofBringUp_of_succeeds, allOk_steps]
  have hover : Overwritten (steps log) ↔ Overwritten log := by
    simp only [overwritten_iff, any_steps ofBringUp_of_succeeds, any_steps ofBringUp_of_fails,
      any_steps ofBringUp_of_unlocked]
  rw [Settled, Settled, hchained, hover]

/-! ## One step -/

/-- A step, from what it does to the steps recorded so far. -/
theorem bringUpStep_stepped {D E : List Event → Prop} {R : SdError → List Event → Prop}
    {f : Program World SdError} (step : BringUp) (hf : ∀ D, Keeps (Stepped D) f)
    (hbegin : ∀ T, D T → E (.begin step :: T))
    (hdone : ∀ T status, D T → R status (.done step status :: .begin step :: T)) :
    Triple (Stepped D) (bringUpStep step f) (fun status => Stepped (R status)) (Stepped E) := by
  let B : List Event → Prop := fun T => ∃ T₀, D T₀ ∧ T = .begin step :: T₀
  refine Triple.bind (Q := fun _ => Stepped B) (Triple.note fun w hw => ⟨_, hw, rfl⟩) fun _ => ?_
  refine Triple.bind (Q := fun _ => Stepped B) ((hf B).weaken (fun _ _ h => h) ?_)
    fun status => ?_
  · rintro w ⟨T, hT, heq⟩
    exact (congrArg E heq).mpr (hbegin T hT)
  refine Triple.bind (Q := fun _ => Stepped (R status)) (Triple.note ?_) fun _ =>
    Triple.pure _ fun _ h => h
  rintro w ⟨T, hT, heq⟩
  show R status (.done step status :: steps w.log)
  rw [heq]
  exact hdone T status hT

/-- These steps have succeeded, and none has failed. -/
structure Sound (done : List BringUp) (T : List Event) : Prop where
  succeeded : ∀ step ∈ done, T.any (Event.succeeds step)
  noFailure : ¬ T.any (Event.fails fun _ => true)
  config : AllOk ConfigOk T

theorem Sound.not_overwritten {done : List BringUp} {T : List Event} (h : Sound done T) :
    ¬ Overwritten T :=
  fun hover => h.noFailure (any_fails_of_early hover.failed)

theorem Sound.begin {done : List BringUp} {T : List Event} (h : Sound done T) (step : BringUp) :
    Sound done (.begin step :: T) where
  succeeded step' hmem := List.any_cons.trans (by rw [h.succeeded step' hmem, Bool.or_true])
  noFailure := h.noFailure
  config := ⟨fun _ => h.noFailure, h.config⟩

theorem Sound.done {done : List BringUp} {T : List Event} (h : Sound done T) (step : BringUp) :
    Sound (step :: done) (.done step .ok :: .begin step :: T) where
  succeeded step' hmem := by
    rcases List.mem_cons.mp hmem with rfl | hmem
    · simp [Event.succeeds]
    · exact List.any_cons.trans (by rw [(h.begin step).succeeded step' hmem, Bool.or_true])
  noFailure := by simpa [Event.fails] using h.noFailure
  config := ⟨(nomatch ·), (h.begin step).config⟩

/-! ## The early steps -/

/-- Nothing has been asked of the card or configured. -/
structure Early (T : List Event) : Prop where
  notAsked : ¬ T.any (Event.succeeds .cardstatusGet)
  notChecked : ¬ T.any Event.unlocked
  notBegun : ¬ T.any (Event.begins BringUp.configures)

/-- The steps so far have succeeded, or one of them failed. -/
def EarlyStage (done : List BringUp) (status : SdError) (T : List Event) : Prop :=
  Early T ∧ (if status = .ok then Sound done T else T.any (Event.fails BringUp.early))

theorem Early.cons {T : List Event} {e : Event} (h : Early T)
    (hasked : e.succeeds .cardstatusGet = false) (hchecked : e.unlocked = false)
    (hbegun : e.begins BringUp.configures = false) : Early (e :: T) where
  notAsked := by rw [List.any_cons, hasked, Bool.false_or]; exact h.notAsked
  notChecked := by rw [List.any_cons, hchecked, Bool.false_or]; exact h.notChecked
  notBegun := by rw [List.any_cons, hbegun, Bool.false_or]; exact h.notBegun

theorem Early.settled {T : List Event} (h : Early T) : Settled none T :=
  settled_of_chained nofun (allOk_of_not_begins h.notBegun) fun hover => h.notAsked hover.answered

theorem earlyStep {done : List BringUp} {status : SdError} {f : Program World SdError}
    {step : BringUp} (hearly : step.early) (hf : ∀ D, Keeps (Stepped D) f) :
    Triple (Stepped (EarlyStage done status)) (nextIfOk status (bringUpStep step f))
      (fun status => Stepped (EarlyStage (step :: done) status)) (Stepped (Settled none)) := by
  have hne : step ≠ .cardstatusGet := by
    rintro rfl
    exact nomatch hearly
  have hnot : step.configures = false := by
    cases step <;> first | rfl | exact nomatch hearly
  refine Triple.ite (fun hok => ?_) fun hne => Triple.pure _ fun w hw => ?_
  · subst hok
    have hbegin : ∀ T, Early T → Early (.begin step :: T) := fun T h => h.cons rfl rfl hnot
    refine bringUpStep_stepped step hf (fun T hT => (hbegin T hT.1).settled) fun T status hT => ?_
    refine ⟨(hbegin T hT.1).cons (by simp [Event.succeeds, hne]) rfl rfl, ?_⟩
    split_ifs with hstatus
    · subst hstatus
      exact Sound.done hT.2 step
    · simp [Event.fails, hearly, hstatus]
  · exact ⟨hw.1, by simpa [hne] using hw.2⟩

/-! ## The steps that configure -/

/-- Before the next step : all have succeeded, or the status stops the rest, or the failure of
an early step has been lost. -/
def ConfigStage (done : List BringUp) (status : SdError) (T : List Event) : Prop :=
  status = .ok ∧ Sound done T ∨ status ≠ .ok ∧ AllOk ConfigOk T ∧ ¬ Overwritten T ∨
    Overwritten T ∧ (status = .ok ∨ ¬ AllOk ConfigOk T)

/-- After a step that configures, the loss has had an effect. -/
def Configured (done : List BringUp) (status : SdError) (T : List Event) : Prop :=
  status = .ok ∧ Sound done T ∨ status ≠ .ok ∧ AllOk ConfigOk T ∧ ¬ Overwritten T ∨
    Overwritten T ∧ ¬ AllOk ConfigOk T

theorem Configured.stage {done : List BringUp} {status : SdError} {T : List Event}
    (h : Configured done status T) : ConfigStage done status T :=
  h.imp id (Or.imp id (And.imp_right Or.inr))

theorem Configured.settled {done : List BringUp} {status : SdError} {T : List Event}
    (h : Configured done status T) (hall : ∀ step, step ∈ done) : Settled (some status) T := by
  rcases h with ⟨-, hsound⟩ | ⟨hne, hconfig, hnot⟩ | ⟨hover, hconfig⟩
  · exact settled_of_chained (fun _ step => hsound.succeeded step (hall step)) hsound.config
      hsound.not_overwritten
  · exact settled_of_chained (fun h => absurd (Option.some_inj.mp h) hne) hconfig hnot
  · exact settled_of_overwritten hover hconfig

/-- A step that is begun after the failure of an early step breaks the chain. -/
theorem not_allOk_begin {step : BringUp} {T : List Event} (hconf : step.configures)
    (hover : Overwritten T) : ¬ AllOk ConfigOk (.begin step :: T) :=
  fun h => h.1 hconf (any_fails_of_early hover.failed)

theorem configStep {done : List BringUp} {status : SdError} {f : Program World SdError}
    {step : BringUp} (hconf : step.configures) (hf : ∀ D, Keeps (Stepped D) f) :
    Triple (Stepped (ConfigStage done status)) (nextIfOk status (bringUpStep step f))
      (fun status => Stepped (Configured (step :: done) status)) (Stepped (Settled none)) := by
  have hearly : step.early = false := by
    cases step <;> first | rfl | exact nomatch hconf
  refine Triple.ite (fun hok => ?_) fun hne => Triple.pure _ fun w hw => ?_
  · subst hok
    have hcases : ∀ T, ConfigStage done .ok T → Sound done T ∨ Overwritten T := by
      rintro T (⟨-, hsound⟩ | ⟨hne, -⟩ | ⟨hover, -⟩)
      · exact Or.inl hsound
      · exact absurd rfl hne
      · exact Or.inr hover
    refine bringUpStep_stepped step hf (fun T hT => ?_) fun T status hT => ?_
    · rcases hcases T hT with hsound | hover
      · exact settled_of_chained nofun (hsound.begin step).config
          (hsound.begin step).not_overwritten
      · exact settled_of_overwritten hover.cons (not_allOk_begin hconf hover)
    rcases hcases T hT with hsound | hover
    · by_cases hstatus : status = .ok
      · subst hstatus
        exact Or.inl ⟨rfl, hsound.done step⟩
      · refine Or.inr (Or.inl ⟨hstatus, ⟨(nomatch ·), (hsound.begin step).config⟩, fun hover => ?_⟩)
        refine hsound.noFailure (any_fails_of_early ?_)
        simpa [Event.fails, hearly] using hover.failed
    · exact Or.inr (Or.inr ⟨hover.cons.cons, fun h => not_allOk_begin hconf hover h.2⟩)
  · rcases hw with ⟨hok, -⟩ | hstopped | ⟨hover, hok | hconfig⟩
    · exact absurd hok hne
    · exact Or.inr (Or.inl hstopped)
    · exact absurd hok hne
    · exact Or.inr (Or.inr ⟨hover, hconfig⟩)

/-! ## The state of the card -/

/-- All early steps have succeeded, or one of them failed, whatever the status is. -/
def Asking (T : List Event) : Prop :=
  Early T ∧ (Sound [.select, .informationGet, .init] T ∨ T.any (Event.fails BringUp.early))

theorem EarlyStage.asking {status : SdError} {T : List Event}
    (h : EarlyStage [.select, .informationGet, .init] status T) : Asking T := by
  refine ⟨h.1, ?_⟩
  by_cases hok : status = .ok
  · exact Or.inl (by simpa [hok] using h.2)
  · exact Or.inr (by simpa [hok] using h.2)

/-- The steps after the state of the card has been asked for. -/
def asked (status : SdError) (cardstate : UInt32) (T : List Event) : List Event :=
  .lockCheck cardstate :: .done .cardstatusGet status :: .begin .cardstatusGet :: T

theorem Asking.not_begins {T : List Event} (h : Asking T) (status : SdError)
    (cardstate : UInt32) :
    ¬ (asked status cardstate T).any (Event.begins BringUp.configures) := by
  simpa [asked, Event.begins, BringUp.configures] using h.1.notBegun

/-- A locked card ends the bring-up. -/
theorem Asking.settled_locked {T : List Event} (h : Asking T) {status : SdError}
    {cardstate : UInt32} (hlocked : cardstate &&& 0x02000000 ≠ 0) :
    Settled none (asked status cardstate T) := by
  refine settled_of_chained nofun (allOk_of_not_begins (h.not_begins status cardstate)) ?_
  refine fun hover => h.1.notChecked ?_
  simpa [asked, Event.unlocked, hlocked] using hover.unlocked

/-- If the card is not locked, its answer replaces the status. -/
theorem Asking.configStage {T : List Event} (h : Asking T) {status : SdError}
    {cardstate : UInt32} (hunlocked : cardstate &&& 0x02000000 = 0) :
    ConfigStage [.cardstatusGet, .select, .informationGet, .init] status
      (asked status cardstate T) := by
  by_cases hok : status = .ok
  · subst hok
    rcases h.2 with hsound | hfailed
    · have hdone := hsound.done .cardstatusGet
      refine Or.inl ⟨rfl, fun step hmem => ?_, hdone.noFailure, (nomatch ·), hdone.config⟩
      exact List.any_cons.trans (by rw [hdone.succeeded step hmem, Bool.or_true])
    · refine Or.inr (Or.inr ⟨⟨?_, ?_, ?_⟩, Or.inl rfl⟩)
      · simp [asked, Event.fails, hfailed]
      · simp [asked, Event.succeeds]
      · simp [asked, Event.unlocked, hunlocked]
  · refine Or.inr (Or.inl ⟨hok, allOk_of_not_begins (h.not_begins status cardstate), ?_⟩)
    refine fun hover => h.1.notAsked ?_
    simpa [asked, Event.succeeds, hok] using hover.answered

/-- The bring-up as a whole. -/
theorem sdIoInit_settled :
    Triple (Stepped (· = [])) sdIoInit (fun status => Stepped (Settled (some status)))
      (Stepped (Settled none)) := by
  have hstart : EarlyStage [] .ok [] := by
    refine ⟨⟨by decide, by decide, by decide⟩, ?_⟩
    rw [if_pos rfl]
    exact ⟨fun step hmem => absurd hmem List.not_mem_nil, by decide, trivial⟩
  refine Triple.bind (Q := fun status => Stepped (EarlyStage [.init] status)) ?_ fun status => ?_
  · exact (earlyStep rfl fun D => (keepingInit_stepped D).sdInit).strengthen
      fun w hw => (congrArg (EarlyStage [] .ok) hw).mpr hstart
  refine Triple.bind (earlyStep rfl fun D =>
    (keepingInit_stepped D).cardInformationGet) fun status => ?_
  refine Triple.bind (earlyStep rfl fun D =>
    Keeps.getDrv.bind fun _ => (keepingInit_stepped D).sdCardSelectDeselect _) fun status => ?_
  -- the status so far is dropped
  let B : List Event → Prop := fun T => ∃ T₀, Asking T₀ ∧ T = .begin .cardstatusGet :: T₀
  have hB : ∀ w, Stepped B w → Stepped (Settled none) w := by
    rintro w ⟨T₀, hT₀, heq⟩
    exact (congrArg (Settled none) heq).mpr (hT₀.1.cons rfl rfl rfl).settled
  refine Triple.bind (Q := fun _ => Stepped B) (Triple.note fun w hw => ⟨_, hw.asking, rfl⟩)
    fun _ => ?_
  refine Triple.bind (((keepingInit_stepped B).sdCardstatusGet 0).weaken (fun _ _ h => h) hB) ?_
  rintro ⟨status, cardstate⟩
  refine Triple.bind (Q := fun _ => Stepped fun T => ∃ T₀, Asking T₀ ∧
    T = .done .cardstatusGet status :: .begin .cardstatusGet :: T₀) (Triple.note ?_) fun _ => ?_
  · rintro w ⟨T₀, hT₀, heq⟩
    exact ⟨T₀, hT₀, congrArg (_ :: ·) heq⟩
  refine Triple.bind (Q := fun _ => Stepped fun T => ∃ T₀, Asking T₀ ∧
    T = asked status cardstate T₀) (Triple.note ?_) fun _ => ?_
  · rintro w ⟨T₀, hT₀, heq⟩
    exact ⟨T₀, hT₀, congrArg (_ :: ·) heq⟩
  refine Triple.ite (fun hlocked => Triple.stuck ?_) fun hunlocked => ?_
  · rintro w ⟨T₀, hT₀, heq⟩
    exact (congrArg (Settled none) heq).mpr (hT₀.settled_locked hlocked)
  refine Triple.bind (Q := fun status => Stepped
    (Configured [.busModeConfig, .cardstatusGet, .select, .informationGet, .init] status))
    (Triple.strengthen (configStep rfl fun D => (keepingInit_stepped D).sdBusModeConfig _) ?_)
    fun status => ?_
  · rintro w ⟨T₀, hT₀, heq⟩
    exact (congrArg (ConfigStage _ _) heq).mpr (hT₀.configStage (not_not.mp hunlocked))
  refine (configStep rfl fun D =>
    (keepingInit_stepped D).sdTransferModeConfig _).conseq (fun w hw => hw.stage)
    (fun status w hw => hw.settled fun step => ?_) fun _ h => h
  cases step <;> decide

/-- `sd_io_init` passes the status on through its steps exactly if the failure of an early step
is not lost. -/
theorem sdIoInit_chained_iff (w : World) (hlog : w.log = []) :
    Chained (exec sdIoInit w).1 (exec sdIoInit w).2.log ↔
      ¬ Overwritten (exec sdIoInit w).2.log := by
  have h := sdIoInit_settled w (by rw [Stepped, hlog]; rfl)
  rcases heq : exec sdIoInit w with ⟨_ | status, w'⟩
  · rw [heq] at h
    exact settled_steps.mp h
  · rw [heq] at h
    exact settled_steps.mp h

instance (log : List Event) : Decidable (Overwritten log) :=
  decidable_of_iff _ (overwritten_iff log).symm

/-- The samples of `sd_init` up to the response to `CMD2`, which is this one. -/
def upToCid (response : Sample) : List Sample :=
  quiet 1 ++ identification { flags := [.cmdrecv] } 0xC0FF8000 ++ quiet 4 ++ [response]

/-- The samples from `CMD13` on, with a card that allows four data lines. -/
def configuration : List Sample :=
  [answer 13 0x900] ++ quiet 8 ++ [answer 16 0x900] ++ quiet 6 ++ [answer 55 0x120] ++ quiet 9 ++
    [answer 51 0x900] ++ quiet 4 ++ [{ flags := [.rxdtval], words := [0x400] }] ++ quiet 1 ++
    [{ flags := [.dtblkend] }] ++ quiet 8 ++ [answer 55 0x120] ++ quiet 6 ++ [answer 6 0x900] ++
    quiet 6

/-- The samples of a bring-up in which every step succeeds. -/
def goodBringUp : List Sample :=
  upToCid { flags := [.cmdrecv] } ++ quiet 8 ++ [answer 3 0x10500] ++ quiet 6 ++
    [{ flags := [.cmdrecv] }] ++ quiet 11 ++ [answer 7 0x900] ++ quiet 6 ++ configuration

/-- The samples of a bring-up in which the card does not answer `CMD2`. -/
def noCidBringUp : List Sample :=
  upToCid { flags := [.cmdtmout] } ++ quiet 4 ++ configuration

/-- A bring-up in which every step succeeds. -/
theorem sdIoInit_chained_iff_good :
    (exec sdIoInit (World.start Driver.initial goodBringUp)).1 = some .ok ∧
      Chained (exec sdIoInit (World.start Driver.initial goodBringUp)).1
        (exec sdIoInit (World.start Driver.initial goodBringUp)).2.log :=
  ⟨by decide +kernel, (sdIoInit_chained_iff (World.start Driver.initial goodBringUp) rfl).mpr
    (by decide +kernel)⟩

/-- `sd_io_init` succeeds although `sd_init` has failed. -/
theorem sdIoInit_loses_failure :
    (exec sdIoInit (World.start Driver.initial noCidBringUp)).1 = some .ok ∧
      ¬ Chained (exec sdIoInit (World.start Driver.initial noCidBringUp)).1
        (exec sdIoInit (World.start Driver.initial noCidBringUp)).2.log := by
  have hok : (exec sdIoInit (World.start Driver.initial noCidBringUp)).1 = some .ok := by
    decide +kernel
  exact ⟨hok, fun h => absurd (h.ok hok .init) (by decide +kernel)⟩

end Gd32Firmware
