import Gd32Firmware.SdHistory

/-!
# The outcome of `sd_power_on`

What the driver says to the card and hears from it is a `Conversation`, which is followed along
the log. A card that accepts `CMD55` and is powered up in time is brought up, if no command but
`CMD8` has failed (`Conversation.Succeeded`). `sd_power_on` should return `SD_OK` for such a card
and for no other. It does, unless the first `CMD55` is refused, which it passes over, or the
power-up bit comes with the last response that it waits for, which it takes for none. As long as
it has not returned, no response had the power-up bit.
-/

namespace Gd32Firmware

open Program

/-! ## The conversation -/

/-- The power-up bit of the operation conditions. -/
def PoweredUp (ocr : UInt32) : Prop :=
  (ocr >>> 31) &&& 1 = 1

instance (ocr : UInt32) : Decidable (PoweredUp ocr) :=
  inferInstanceAs (Decidable (_ = _))

/-- What the driver has sent to the card and taken from it. -/
structure Conversation where
  /-- The command that went out last, until its response is accepted. -/
  pending : Option UInt8 := none
  /-- The commands whose response was not accepted before the next one went out. -/
  unanswered : List UInt8 := []
  /-- `CMD55` has been accepted. -/
  appCmd : Bool := false
  /-- The responses to ACMD41, newest first. -/
  ocrs : List UInt32 := []

namespace Conversation

/-- `CMD0` has no response : it was sent if another command follows it. -/
def next (c : Conversation) : Event → Conversation
  | .cmd command =>
    { c with
      pending := some command.index
      unanswered := (c.pending.filter (· ≠ 0)).toList ++ c.unanswered }
  | .accepted cmdindex =>
    { c with
      pending := none
      appCmd := c.appCmd || cmdindex = 55 }
  | .ocr response =>
    { c with
      pending := none
      ocrs := response :: c.ocrs }
  | _ => c

/-- The commands that failed. -/
def failed (c : Conversation) : List UInt8 :=
  c.pending.toList ++ c.unanswered

/-- No command failed but `CMD8`, the card accepted `CMD55`, and it was powered up. -/
structure Succeeded (c : Conversation) : Prop where
  failed : ∀ index ∈ c.failed, index = 8
  appCmd : c.appCmd = true
  poweredUp : ∃ ocr ∈ c.ocrs, PoweredUp ocr

/-- The status says whether the card was brought up, within `SD_MAX_VOLT_VALIDATION`
attempts. -/
def ReportedBy (c : Conversation) (status : SdError) : Prop :=
  (status = .ok ↔ c.Succeeded) ∧ c.ocrs.length ≤ 65535

/-- The first `CMD55` failed. -/
def RefusesAppCmd (c : Conversation) : Prop :=
  55 ∈ c.failed ∧ c.appCmd = false

/-- The last response that the driver waits for has the power-up bit. -/
def PoweredUpLast (c : Conversation) : Prop :=
  c.ocrs.length = 65535 ∧ ∃ ocr ∈ c.ocrs.head?, PoweredUp ocr

end Conversation

/-- The conversation that a log records. -/
def conversation : List Event → Conversation
  | [] => {}
  | e :: log => (conversation log).next e

/-- No response has the power-up bit. -/
def Conversation.Unpowered (c : Conversation) : Prop :=
  ∀ ocr ∈ c.ocrs, ¬ PoweredUp ocr

/-- A call that is still waiting has not seen the power-up bit. -/
abbrev Waiting (w : World) : Prop :=
  (conversation w.log).Unpowered

/-- The conversation so far, and how many samples are left at most. -/
abbrev Heard (c : Conversation) (n : ℕ) (w : World) : Prop :=
  conversation w.log = c ∧ w.tape.length ≤ n

/-! ## Commands -/

section Commands

variable {c : Conversation} {n : ℕ}

theorem Heard.waiting {w : World} (h : Heard c n w) (hc : c.Unpowered) : Waiting w := by
  rwa [Waiting, h.1]

theorem heard_masked : Keeps (Heard c n) masked :=
  (Triple.masked_tape (I := fun w => conversation w.log = c)
    (J := fun w => conversation w.log = c) (fun _ _ _ hw => hw) n).imp fun _ _ hw =>
      ⟨hw.1, hw.2.le⟩

theorem heard_configure (s : Setting) : Keeps (Heard c n) (configure masked s) :=
  Keeps.configure heard_masked fun _ hw => hw

theorem heard_powerStateSet (on : Bool) : Keeps (Heard c n) (sdioPowerStateSet masked on) :=
  heard_masked.bind fun _ => Keeps.modify _ fun _ hw => hw

theorem heard_sendCommand (index : UInt8) (argument : UInt32) (response : ResponseType) :
    Triple (Heard c n) (sendCommand masked index argument response)
      (fun _ => Heard (c.next (.cmd ⟨index, argument, response⟩)) n) (Heard c n) := by
  refine Triple.sendCommand (C := (· = ⟨index, argument, response⟩)) heard_masked
    (heard_masked.and (Keeps.command_masked (C := (· = ⟨index, argument, response⟩)))) rfl
    (fun _ hw => hw) (fun _ hw => hw) ?_
  rintro _ w rfl ⟨hw, hlength⟩
  refine ⟨?_, hlength⟩
  show (conversation w.log).next _ = _
  rw [hw]

/-- A command with an R1 response : it is accepted, or nothing is heard. -/
theorem heard_commandR1 (hc : c.Unpowered) (index : UInt8) (argument : UInt32) :
    Triple (Heard c n) (commandR1 masked index argument)
      (fun status => Heard (if status = .ok then
        (c.next (.cmd ⟨index, argument, .short⟩)).next (.accepted index)
        else c.next (.cmd ⟨index, argument, .short⟩)) n) Waiting := by
  refine Triple.bind ((heard_sendCommand index argument .short).weaken (fun _ _ h => h)
    fun _ h => h.waiting hc) fun _ => ?_
  refine (Triple.r1ErrorCheck (A := Heard ((c.next (.cmd ⟨index, argument, .short⟩)).next
    (.accepted index)) n) heard_masked (fun _ _ hw => hw) heard_masked (fun _ hw => hw)
    fun w hw => ⟨?_, hw.2⟩).weaken (fun status w hw => ?_) fun w hw => ?_
  · show (conversation w.log).next _ = _
    rw [hw.1]
  · split_ifs with hok
    · exact hw.1 hok
    · exact (hw.2 hok).elim id id
  · exact (hw.elim id id : Heard _ n w).waiting hc

/-- Up to `CMD0`. -/
theorem heard_powerUp (hc : c.Unpowered) :
    Triple (Heard c n) powerUp (fun _ => Heard (c.next (.cmd ⟨0, 0, .no⟩)) n) Waiting := by
  have hkeeps : ∀ {α : Type} {m : Program World α}, Keeps (Heard c n) m →
      Triple (Heard c n) m (fun _ => Heard c n) Waiting :=
    fun hm => hm.weaken (fun _ _ h => h) fun _ h => h.waiting hc
  refine Triple.bind (hkeeps (heard_configure _)) fun _ => ?_
  refine Triple.bind (hkeeps (heard_configure _)) fun _ => ?_
  refine Triple.bind (hkeeps (heard_configure _)) fun _ => ?_
  refine Triple.bind (hkeeps (heard_powerStateSet true)) fun _ => ?_
  refine Triple.bind (hkeeps (heard_configure _)) fun _ => ?_
  refine Triple.bind ((heard_sendCommand 0 0 .no).weaken (fun _ _ h => h)
    fun _ h => h.waiting hc) fun _ => ?_
  exact (Keeps.cmdsentErrorCheck heard_masked fun _ _ hw => hw).weaken (fun _ _ h => h)
    fun _ h => h.waiting hc

/-- `CMD8`, which may stay without an answer. -/
theorem heard_sendIfCond (hc : c.Unpowered) :
    Triple (Heard c n) sendIfCond
      (fun _ w => ∃ ifCond : Bool, Heard (if ifCond then
        (c.next (.cmd ⟨8, 0x1AA, .short⟩)).next (.accepted 8)
        else c.next (.cmd ⟨8, 0x1AA, .short⟩)) n w) Waiting := by
  refine Triple.bind ((heard_sendCommand 8 0x1AA .short).weaken (fun _ _ h => h)
    fun _ h => h.waiting hc) fun _ => ?_
  refine Triple.bind ((Triple.r7ErrorCheck (A := Heard ((c.next (.cmd ⟨8, 0x1AA, .short⟩)).next
    (.accepted 8)) n) heard_masked (fun _ _ hw => hw) fun w hw => ⟨?_, hw.2⟩).weaken
    (fun _ _ h => h) fun _ h => h.waiting hc) fun status => ?_
  · show (conversation w.log).next _ = _
    rw [hw.1]
  refine Triple.ite (fun hok => ?_) fun hne => Triple.pure _ fun w hw => ⟨false, hw.2 hne⟩
  refine Triple.bind (Q := fun _ => Heard _ n) (Triple.setDrv fun w hw => hw.1 hok) fun _ => ?_
  exact Triple.pure _ fun w hw => ⟨true, hw⟩

end Commands

/-! ## The loop -/

namespace Conversation

/-- While the card is asked for its operation conditions : it accepts the commands, and was
powered up in the last response at most. -/
structure Asking (c : Conversation) (busyflag : Bool) (count : ℕ) : Prop where
  pending : c.pending = none
  unanswered : ∀ index ∈ c.unanswered, index = 8
  appCmd : c.appCmd = true
  length : c.ocrs.length = count
  le : count ≤ 65535
  poweredUp : (∃ ocr ∈ c.ocrs, PoweredUp ocr) ↔ busyflag = true
  last : (∃ ocr ∈ c.ocrs.head?, PoweredUp ocr) ↔ busyflag = true

/-- A command failed while the card was asked. -/
structure Broken (c : Conversation) : Prop where
  pending : ∃ index, c.pending = some index ∧ index ≠ 8
  appCmd : c.appCmd = true
  length : c.ocrs.length < 65535

variable {c : Conversation}

/-- The first `CMD55` is accepted. -/
theorem asking_start (ifCond : Bool) :
    let c := (({} : Conversation).next (.cmd ⟨0, 0, .no⟩)).next (.cmd ⟨8, 0x1AA, .short⟩)
    (((if ifCond then c.next (.accepted 8) else c).next (.cmd ⟨55, 0, .short⟩)).next
      (.accepted 55)).Asking false 0 where
  pending := by cases ifCond <;> rfl
  unanswered := by
    cases ifCond
    · exact List.forall_mem_singleton.mpr rfl
    · exact List.forall_mem_nil _
  appCmd := by cases ifCond <;> rfl
  length := by cases ifCond <;> rfl
  le := by decide
  poweredUp := by cases ifCond <;> simp [next]
  last := by cases ifCond <;> simp [next]

/-- One round : `CMD55` is accepted, and the response to ACMD41 is taken. -/
theorem Asking.round {count : ℕ} (h : c.Asking false count) (hlt : count < 65535)
    (argument response : UInt32) :
    ((((c.next (.cmd ⟨55, 0, .short⟩)).next (.accepted 55)).next
      (.cmd ⟨41, argument, .short⟩)).next (.ocr response)).Asking
        (decide ((response >>> 31) &&& 1 = 1)) (count + 1) where
  pending := rfl
  unanswered := by simpa [next, h.pending] using h.unanswered
  appCmd := by simp [next]
  length := by simp [next, h.length]
  le := hlt
  poweredUp := by
    have hnone : ¬ ∃ ocr ∈ c.ocrs, PoweredUp ocr := fun hex => absurd (h.poweredUp.mp hex) (by simp)
    simp only [next, List.mem_cons, exists_eq_or_imp, hnone, or_false, decide_eq_true_eq]
    rfl
  last := by
    simp only [next, List.head?_cons, Option.mem_def, Option.some_inj, exists_eq_left',
      decide_eq_true_eq]
    rfl

/-- `CMD55` fails. -/
theorem Asking.broken_appCmd {busyflag : Bool} {count : ℕ} (h : c.Asking busyflag count)
    (hlt : count < 65535) : (c.next (.cmd ⟨55, 0, .short⟩)).Broken where
  pending := ⟨55, rfl, by decide⟩
  appCmd := h.appCmd
  length := h.length.trans_lt hlt

/-- ACMD41 fails. -/
theorem Asking.broken_opCond {busyflag : Bool} {count : ℕ} (h : c.Asking busyflag count)
    (hlt : count < 65535) (argument : UInt32) :
    (((c.next (.cmd ⟨55, 0, .short⟩)).next (.accepted 55)).next
      (.cmd ⟨41, argument, .short⟩)).Broken where
  pending := ⟨41, rfl, by decide⟩
  appCmd := by simp [next]
  length := h.length.trans_lt hlt

end Conversation

theorem Conversation.Asking.unpowered {c : Conversation} {count : ℕ} (h : c.Asking false count) :
    c.Unpowered :=
  fun ocr hocr hup => absurd (h.poweredUp.mp ⟨ocr, hocr, hup⟩) (by decide)

/-- What the loop has heard when it is over. Every round takes samples, so that it is over when
the power-up bit has been seen. -/
theorem heard_voltageLoop (sdcardtype : UInt32) :
    Triple (fun w => (conversation w.log).Asking false 0) (voltageLoop sdcardtype)
      (fun r w => (r.1 ≠ .ok → (conversation w.log).Broken) ∧
        (r.1 = .ok → ∃ busyflag, (conversation w.log).Asking busyflag r.2.2 ∧
          (busyflag = true ∨ r.2.2 = 65535))) Waiting := by
  refine Triple.strengthen (Triple.sdLoop_of_lt
    (J := fun b w => (conversation w.log).Asking b.1 b.2.2) ?_ _) fun w hw => hw
  rintro ⟨busyflag, response, count⟩ n
  refine Triple.ite (fun hgo => ?_) fun hexit => Triple.pure _ fun w hw => ?_
  · obtain ⟨hbusy, hlt⟩ := hgo
    obtain rfl : busyflag = false := by simpa using hbusy
    -- the conversation at the start of the round
    refine Triple.strengthen (P := fun w => ∃ c : Conversation, c.Asking false count ∧ Heard c n w)
      (Triple.forall fun c => ?_) fun w hw => ⟨_, hw.1, rfl, hw.2⟩
    refine Triple.strengthen (P := fun w => Heard c n w ∧ c.Asking false count)
      (Triple.of_fact fun h => ?_) fun w hw => ⟨hw.2, hw.1⟩
    have hc := h.unpowered
    refine Triple.bind (heard_commandR1 hc 55 0) fun status =>
      Triple.ite (fun hne => ?_) fun hok => ?_
    · refine Triple.pure _ fun w hw => ⟨fun _ => ?_, fun hok => absurd hok hne⟩
      rw [if_neg hne] at hw
      rw [hw.1]
      exact h.broken_appCmd hlt
    rw [if_pos (not_not.mp hok)]
    refine Triple.bind ((heard_sendCommand 41 _ .short).weaken (fun _ _ h => h)
      fun _ h => h.waiting hc) fun _ => ?_
    refine Triple.bind ((Keeps.r3ErrorCheck heard_masked fun _ _ hw => hw).weaken
      (fun _ _ h => h) fun _ h => h.waiting hc) fun status => ?_
    refine Triple.ite (fun hne => ?_) fun _ => ?_
    · refine Triple.pure _ fun w hw => ⟨fun _ => ?_, fun hok => absurd hok hne⟩
      rw [hw.1]
      exact h.broken_opCond hlt _
    refine Triple.bind ((Triple.reads (Triple.masked_tape (I := fun w => conversation w.log = _)
      (J := fun w => conversation w.log = _) (fun _ _ _ hw => hw) n)).weaken
      (fun _ _ h => h.1) fun _ h => Heard.waiting h hc) fun response => ?_
    refine Triple.bind (Q := fun _ (w : World) => (conversation w.log).Asking
      (decide ((response >>> 31) &&& 1 = 1)) (count + 1) ∧ w.tape.length < n)
      (Triple.note fun w hw => ⟨?_, hw.2⟩) fun _ => Triple.pure _ fun w hw => hw
    show ((conversation w.log).next (.ocr response)).Asking _ _
    rw [hw.1]
    exact h.round hlt _ response
  · refine ⟨fun h => absurd rfl h, fun _ => ⟨busyflag, hw.1, ?_⟩⟩
    by_contra hnot
    obtain ⟨hbusy, hcount⟩ := not_or.mp hnot
    exact hexit ⟨hbusy, lt_of_le_of_ne hw.1.le hcount⟩

/-! ## The outcome -/

namespace Conversation

/-- The status says whether the card was brought up, except in these two cases. -/
def Verdict (c : Conversation) (status : SdError) : Prop :=
  c.ReportedBy status ↔ ¬ c.RefusesAppCmd ∧ ¬ c.PoweredUpLast

variable {c : Conversation} {status : SdError}

/-- A status that says it, when neither is the case. -/
theorem verdict_of_reportedBy (h : c.ReportedBy status) (happ : c.appCmd = true ∨ 55 ∉ c.failed)
    (hlength : c.ocrs.length < 65535) : c.Verdict status := by
  refine iff_of_true h ⟨fun hrefuses => ?_, fun hlast => absurd hlast.1 hlength.ne⟩
  rcases happ with happ | happ
  · exact absurd (happ.symm.trans hrefuses.2) (by decide)
  · exact happ hrefuses.1

/-- Another status than `SD_OK`, after a command that failed. -/
theorem verdict_of_failed {index : UInt8} (hpending : c.pending = some index) (hne : index ≠ 8)
    (hstatus : status ≠ .ok) (happ : c.appCmd = true ∨ 55 ∉ c.failed)
    (hlength : c.ocrs.length < 65535) : c.Verdict status := by
  refine verdict_of_reportedBy ⟨iff_of_false hstatus fun h => hne ?_, hlength.le⟩ happ hlength
  exact h.failed index (by simp [failed, hpending])

/-- The first `CMD55` is refused, and `sd_power_on` returns `SD_OK`. -/
theorem verdict_of_refused (hpending : c.pending = some 55) (happ : c.appCmd = false) :
    c.Verdict .ok := by
  have hmem : 55 ∈ c.failed := by simp [failed, hpending]
  refine iff_of_false (fun h => ?_) fun h => h.1 ⟨hmem, happ⟩
  exact absurd ((h.1.mp rfl).failed 55 hmem) (by decide)

theorem Asking.succeeded {count : ℕ} {busyflag : Bool} (h : c.Asking busyflag count) :
    c.Succeeded ↔ busyflag = true := by
  refine ⟨fun hs => h.poweredUp.mp hs.poweredUp, fun hbusy => ⟨?_, h.appCmd, h.poweredUp.mpr hbusy⟩⟩
  simpa [failed, h.pending] using h.unanswered

/-- The loop ended in time with a card that is powered up. -/
theorem Asking.verdict_ok {count : ℕ} (h : c.Asking true count) (hlt : count < 65535) :
    c.Verdict .ok := by
  have hlength := h.length.trans_lt hlt
  exact verdict_of_reportedBy ⟨iff_of_true rfl (h.succeeded.mpr rfl), hlength.le⟩
    (Or.inl h.appCmd) hlength

/-- The loop ended after the last attempt. -/
theorem Asking.verdict_last {busyflag : Bool} (h : c.Asking busyflag 65535)
    (hstatus : status ≠ .ok) : c.Verdict status := by
  have hreported : c.ReportedBy status ↔ busyflag = false := by
    rw [ReportedBy, h.succeeded, and_iff_left (h.length.le)]
    simp [hstatus]
  have hrefuses : ¬ c.RefusesAppCmd := fun hr => absurd (h.appCmd.symm.trans hr.2) (by decide)
  have hlast : c.PoweredUpLast ↔ busyflag = true := by
    rw [PoweredUpLast, h.last, and_iff_right h.length]
  rw [Verdict, hreported, hlast, and_iff_right hrefuses]
  simp

end Conversation

/-- The branch for an SD memory card. -/
theorem voltageValidation_verdict (sdcardtype : UInt32) :
    Triple (fun w => (conversation w.log).Asking false 0) (voltageValidation sdcardtype)
      (fun status w => (conversation w.log).Verdict status) Waiting := by
  refine Triple.bind (heard_voltageLoop sdcardtype) ?_
  rintro ⟨status, response, count⟩
  refine Triple.ite (fun hne => Triple.pure _ fun w hw => ?_) fun hok => ?_
  · obtain ⟨⟨index, hpending, hindex⟩, happ, hlength⟩ := hw.1 hne
    exact Conversation.verdict_of_failed hpending hindex hne (Or.inl happ) hlength
  refine Triple.ite (fun hle => Triple.pure _ fun w hw => ?_) fun hlt => ?_
  · obtain ⟨busyflag, h, -⟩ := hw.2 (not_not.mp hok)
    obtain rfl : count = 65535 := le_antisymm h.le hle
    exact h.verdict_last (by decide)
  have hverdict : ∀ w : World, ((status ≠ .ok → (conversation w.log).Broken) ∧
      (status = .ok → ∃ busyflag, (conversation w.log).Asking busyflag count ∧
        (busyflag = true ∨ count = 65535))) → (conversation w.log).Verdict .ok := by
    intro w hw
    obtain ⟨busyflag, h, rfl | rfl⟩ := hw.2 (not_not.mp hok)
    · exact h.verdict_ok (not_le.mp hlt)
    · exact absurd le_rfl hlt
  refine Triple.ite (fun _ => ?_) fun _ => Triple.pure _ hverdict
  exact Triple.bind (Q := fun _ w => (conversation w.log).Verdict .ok) (Triple.setDrv hverdict)
    fun _ => Triple.pure _ fun _ hw => hw

theorem sdPowerOn_verdict (n : ℕ) :
    Triple (Heard {} n) sdPowerOn (fun status w => (conversation w.log).Verdict status)
      Waiting := by
  have hc : ({} : Conversation).Unpowered := fun _ h => absurd h List.not_mem_nil
  refine Triple.ifOk (heard_powerUp hc) ?_ fun status w hne hw => ?_
  · refine Triple.bind (heard_sendIfCond (fun _ h => absurd h List.not_mem_nil))
      fun sdcardtype => Triple.forall fun ifCond => ?_
    refine Triple.bind (heard_commandR1 ?_ 55 0) fun status =>
      Triple.ite (fun hok => ?_) fun hne => ?_
    · cases ifCond <;> exact fun _ h => absurd h List.not_mem_nil
    · refine (voltageValidation_verdict sdcardtype).strengthen fun w hw => ?_
      rw [if_pos hok] at hw
      rw [hw.1]
      exact Conversation.asking_start ifCond
    · refine Triple.pure _ fun w hw => ?_
      rw [if_neg hne] at hw
      rw [hw.1]
      exact Conversation.verdict_of_refused rfl (by cases ifCond <;> simp [Conversation.next])
  · rw [hw.1]
    exact Conversation.verdict_of_failed rfl (by decide) hne (Or.inr (by decide)) (by decide)

/-- `sd_power_on` returns `SD_OK` for the cards that were brought up and for no other, exactly if
the first `CMD55` is not refused and the power-up bit does not come with the last response. As
long as it has not returned, no card was brought up. -/
theorem sdPowerOn_reports_iff (w : World) (hlog : w.log = []) :
    (∀ status w', exec sdPowerOn w = (some status, w') →
      ((conversation w'.log).ReportedBy status ↔
        ¬ (conversation w'.log).RefusesAppCmd ∧ ¬ (conversation w'.log).PoweredUpLast)) ∧
    ((exec sdPowerOn w).1 = none → ¬ (conversation (exec sdPowerOn w).2.log).Succeeded) := by
  have hstart : Heard {} w.tape.length w := ⟨by rw [hlog]; rfl, le_rfl⟩
  have hverdict := sdPowerOn_verdict w.tape.length
  refine ⟨fun status w' hrun => hverdict.of_eq_some hstart hrun, fun hnone hsucceeded => ?_⟩
  have hwaiting := hverdict w hstart
  rw [show exec sdPowerOn w = (none, (exec sdPowerOn w).2) from Prod.ext hnone rfl] at hwaiting
  obtain ⟨ocr, hocr, hup⟩ := hsucceeded.poweredUp
  exact hwaiting ocr hocr hup

/-- A card that is powered up at once. -/
theorem sdPowerOn_reports_iff_v20 :
    (conversation (exec sdPowerOn (World.start Driver.initial
      (identification { flags := [.cmdrecv] } 0x80FF8000))).2.log).ReportedBy .ok := by
  have hok : (exec sdPowerOn (World.start Driver.initial
      (identification { flags := [.cmdrecv] } 0x80FF8000))).1 = some .ok := by
    decide
  refine ((sdPowerOn_reports_iff _ rfl).1 .ok _ (exec_of_fst hok)).mpr ⟨fun hrefuses => ?_, ?_⟩
  · exact absurd hrefuses.2 (by decide)
  · exact fun hlast => absurd hlast.1 (by decide)

/-- The samples of `sd_power_on` with a slot in which nothing answers. -/
def noAnswer : List Sample :=
  quiet 8 ++ [{ flags := [.cmdsend] }] ++ quiet 4 ++ [{ flags := [.cmdtmout] }] ++ quiet 4 ++
    [{ flags := [.cmdtmout] }] ++ quiet 1

/-- `SD_OK` without a card. -/
theorem not_reportedBy_noAnswer :
    (exec sdPowerOn (World.start Driver.initial noAnswer)).1 = some .ok ∧
      ¬ (conversation (exec sdPowerOn (World.start Driver.initial noAnswer)).2.log).ReportedBy
        .ok := by
  refine ⟨by decide, fun hreported => ?_⟩
  exact absurd (hreported.1.mp rfl).appCmd (by decide)

end Gd32Firmware
