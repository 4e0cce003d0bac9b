import Gd32Firmware.SdTransferRules

/-!
# What a card can make the driver do

The rules for triples say what holds after every tape. `Program.Can` says that there is a tape :
the hardware can take its samples in such a way that a program returns, in a postcondition. The
rules compose the samples of the parts, so that none has to be counted.

`Facing` describes the peripheral of a card that answers every command at once, so that the parts
of the driver go through without an error.
-/

namespace Gd32Firmware

open Program

/-- The world with these samples to come. -/
def World.withTape (w : World) (tape : List Sample) : World :=
  { w with tape := tape }

namespace Program

variable {α β γ : Type}

/-- From every state in `P` there are samples with which the program returns in `Q`, whatever
comes after them. -/
def Can (P : World → Prop) (m : Program World α) (Q : α → World → Prop) : Prop :=
  ∀ w, P w → ∃ samples a w', Q a w' ∧
    ∀ tape, exec m (w.withTape (samples ++ tape)) = (some a, w'.withTape tape)

section Rules

variable {P P' : World → Prop} {Q Q' : α → World → Prop} {R : β → World → Prop}
  {m : Program World α}

theorem Can.conseq (h : Can P m Q) (hP : ∀ w, P' w → P w) (hQ : ∀ a w, Q a w → Q' a w) :
    Can P' m Q' := by
  intro w hw
  obtain ⟨samples, a, w', ha, hrun⟩ := h w (hP w hw)
  exact ⟨samples, a, w', hQ a w' ha, hrun⟩

theorem Can.strengthen (h : Can P m Q) (hP : ∀ w, P' w → P w) : Can P' m Q :=
  h.conseq hP fun _ _ hw => hw

theorem Can.imp (h : Can P m Q) (hQ : ∀ a w, Q a w → Q' a w) : Can P m Q' :=
  h.conseq (fun _ hw => hw) hQ

theorem Can.pure (a : α) (h : ∀ w, P w → Q a w) : Can P (pure a) Q :=
  fun w hw => ⟨[], a, w, h w hw, fun _ => rfl⟩

theorem Can.bind {f : α → Program World β} (hm : Can P m Q) (hf : ∀ a, Can (Q a) (f a) R) :
    Can P (m >>= f) R := by
  intro w hw
  obtain ⟨samples, a, w', ha, hrun⟩ := hm w hw
  obtain ⟨samples', b, w'', hb, hrun'⟩ := hf a w' ha
  refine ⟨samples ++ samples', b, w'', hb, fun tape => ?_⟩
  rw [List.append_assoc, exec_bind_of_eq (hrun _), hrun']

/-- The state is changed, apart from the tape. -/
theorem Can.modify {Q : Unit → World → Prop} {f : World → World}
    (hf : ∀ w tape, f (w.withTape tape) = (f w).withTape tape) (h : ∀ w, P w → Q () (f w)) :
    Can P (modify f : Program World Unit) Q :=
  fun w hw => ⟨[], (), f w, h w hw, fun tape => by
    rw [List.nil_append, exec_modify, hf]⟩

/-- The state is read, apart from the tape. -/
theorem Can.read {f : World → α} (hf : ∀ w tape, f (w.withTape tape) = f w)
    (h : ∀ w, P w → Q (f w) w) : Can P (do Pure.pure (f (← MonadState.get))) Q :=
  fun w hw => ⟨[], f w, w, h w hw, fun tape => by
    rw [List.nil_append, exec_bind_of_eq (exec_get _), exec_pure, hf]⟩

/-- What is read of the state does not matter. -/
theorem Can.get {f : World → Program World β} (hf : ∀ w tape, f (w.withTape tape) = f w)
    (h : ∀ w, Can P (f w) R) : Can P (MonadState.get >>= f) R := by
  intro w hw
  obtain ⟨samples, b, w', hb, hrun⟩ := h w w hw
  refine ⟨samples, b, w', hb, fun tape => ?_⟩
  rw [exec_bind_of_eq (exec_get _), hf]
  exact hrun tape

theorem Can.getDrv {Q : Driver → World → Prop} (h : ∀ w, P w → Q w.drv w) :
    Can P getDrv Q :=
  Can.read (fun _ _ => rfl) h

theorem Can.setDrv {Q : Unit → World → Prop} {f : Driver → Driver}
    (h : ∀ w, P w → Q () (w.setDrv f)) : Can P (setDrv f) Q :=
  Can.modify (fun _ _ => rfl) h

theorem Can.note {Q : Unit → World → Prop} {e : Event} (h : ∀ w, P w → Q () (w.note e)) :
    Can P (note e) Q :=
  Can.modify (fun _ _ => rfl) h

/-- A loop that is over after its first round. -/
theorem Can.sdLoop {body : β → Program World (β ⊕ γ)} {b : β} {Q : γ → World → Prop}
    (h : Can P (body b) fun r w => ∃ c, r = .inr c ∧ Q c w) : Can P (sdLoop body b) Q := by
  intro w hw
  obtain ⟨samples, _, w', ⟨c, rfl, hc⟩, hrun⟩ := h w hw
  refine ⟨samples, c, w', hc, fun tape => ?_⟩
  rw [Gd32Firmware.sdLoop, exec_bind_of_eq (exec_get _), iterate, exec_bind_of_eq (hrun tape)]
  rfl

/-- What the program keeps, it keeps for these samples too. -/
theorem Can.keeps {I : World → Prop} (h : Can P m Q) (hI : Keeps I m)
    (htape : ∀ w tape, I (w.withTape tape) ↔ I w) :
    Can (fun w => P w ∧ I w) m fun a w => Q a w ∧ I w := by
  rintro w ⟨hw, hwI⟩
  obtain ⟨samples, a, w', ha, hrun⟩ := h w hw
  refine ⟨samples, a, w', ⟨ha, ?_⟩, hrun⟩
  exact (htape w' []).mp (Triple.of_eq_some hI ((htape w _).mpr hwI) (hrun []))

theorem Can.ifOk {f rest : Program World SdError} {I : World → Prop}
    {Q : SdError → World → Prop} (hf : Can P f fun status w => status = .ok ∧ I w)
    (hrest : Can I rest Q) : Can P (ifOk f rest) Q := by
  refine Can.bind hf fun status => ?_
  by_cases hok : status = .ok
  · rw [if_pos hok]
    exact hrest.strengthen fun w hw => hw.2
  · intro w hw
    exact absurd hw.1 hok

end Rules

/-- The program does not return without a sample. -/
def NeedsSample (m : Program World α) : Prop :=
  ∀ w : World, w.tape = [] → (exec m w).1 = none

theorem NeedsSample.bind {m : Program World α} (h : NeedsSample m) (f : α → Program World β) :
    NeedsSample (m >>= f) :=
  fun w hw => exec_bind_none (h w hw)

theorem needsSample_access : NeedsSample access := by
  refine NeedsSample.bind (m := tick) (fun w hw => ?_) _
  show (Gd32Firmware.tick w).1 = none
  rw [tick, hw]

theorem needsSample_sdioFlagGet (mask : List Flag) :
    NeedsSample (sdioFlagGet access mask) :=
  NeedsSample.bind (NeedsSample.bind needsSample_access _) _

/-- The rounds of a loop, of which `n` are left after this one. -/
theorem Can.sdLoop_rounds {body : β → Program World (β ⊕ γ)} {J : ℕ → β → World → Prop}
    {Q : γ → World → Prop} (hneeds : ∀ b, NeedsSample (body b))
    (hround : ∀ n b, Can (J (n + 1) b) (body b) fun r w => ∃ b', r = .inl b' ∧ J n b' w)
    (hlast : ∀ b, Can (J 0 b) (body b) fun r w => ∃ c, r = .inr c ∧ Q c w) (n : ℕ) (b : β) :
    Can (J n b) (Gd32Firmware.sdLoop body b) Q := by
  -- every round takes a sample, so that the loop is not cut off
  have hrounds : ∀ n b w, J n b w → ∃ samples c w', n ≤ samples.length ∧ Q c w' ∧
      ∀ fuel tape, n < fuel → exec (iterate body fuel b) (w.withTape (samples ++ tape)) =
        (some c, w'.withTape tape) := by
    intro n
    induction n with
    | zero =>
      intro b w hw
      obtain ⟨samples, _, w', ⟨c, rfl, hc⟩, hrun⟩ := hlast b w hw
      refine ⟨samples, c, w', Nat.zero_le _, hc, fun fuel tape hfuel => ?_⟩
      obtain ⟨fuel, rfl⟩ := Nat.exists_eq_succ_of_ne_zero hfuel.ne'
      rw [iterate, exec_bind_of_eq (hrun tape)]
      rfl
    | succ n ih =>
      intro b w hw
      obtain ⟨samples, _, w₁, ⟨b', rfl, hb'⟩, hrun⟩ := hround n b w hw
      obtain ⟨samples', c, w', hlen, hc, hrest⟩ := ih b' w₁ hb'
      have hne : samples ≠ [] := by
        rintro rfl
        have hnone := hneeds b (w.withTape []) rfl
        rw [show exec (body b) (w.withTape []) = _ from hrun []] at hnone
        exact nomatch hnone
      refine ⟨samples ++ samples', c, w', ?_, hc, fun fuel tape hfuel => ?_⟩
      · have hpos := List.length_pos_of_ne_nil hne
        rw [List.length_append]
        omega
      · obtain ⟨fuel, rfl⟩ := Nat.exists_eq_succ_of_ne_zero (Nat.ne_zero_of_lt hfuel)
        rw [iterate, List.append_assoc, exec_bind_of_eq (hrun _)]
        exact hrest fuel tape (Nat.lt_of_succ_lt_succ hfuel)
  intro w hw
  obtain ⟨samples, c, w', hlen, hc, hrun⟩ := hrounds n b w hw
  refine ⟨samples, c, w', hc, fun tape => ?_⟩
  rw [Gd32Firmware.sdLoop, exec_bind_of_eq (exec_get _)]
  refine hrun _ tape ?_
  show n < (samples ++ tape).length + 1
  rw [List.length_append]
  omega

/-- The program takes one sample, if this does not activate the handler. -/
def Instant (acc : Program World Unit) : Prop :=
  ∀ (s : Sample) (w : World) tape, s.irq = false →
    exec acc (w.withTape (s :: tape)) = (some (), (w.observe s []).withTape tape)

theorem instant_access : Instant access := by
  intro s w tape hs
  have htick : exec tick (w.withTape (s :: tape)) =
      (some s.irq, (w.observe s []).withTape tape) := rfl
  rw [access, exec_bind_of_eq htick, hs]
  rfl

/-- The hardware chooses the sample of an instant. -/
theorem Can.instant {acc : Program World Unit} {P : World → Prop} {Q : Unit → World → Prop}
    (hacc : Instant acc) {s : Sample} (hs : s.irq = false)
    (h : ∀ w, P w → Q () (w.observe s [])) : Can P acc Q :=
  fun w hw => ⟨[s], (), w.observe s [], h w hw, fun tape => hacc s w tape hs⟩

/-- A flag is read after a sample. -/
theorem Can.flagGet {acc : Program World Unit} {P Q : World → Prop} {mask : List Flag}
    {b : Bool} (hacc : Instant acc) {s : Sample} (hs : s.irq = false)
    (h : ∀ w, P w → b = decide (anySet mask (w.observe s []).sdio.stat) ∧
      Q (w.observe s [])) : Can P (sdioFlagGet acc mask) fun b' w => b' = b ∧ Q w := by
  refine Can.bind (Q := fun stat w => b = decide (anySet mask stat) ∧ Q w)
    (Can.bind (Q := fun _ w => b = decide (anySet mask w.sdio.stat) ∧ Q w)
      (Can.instant hacc hs h) fun _ => Can.read (fun _ _ => rfl) fun _ h => h) fun stat => ?_
  exact Can.pure _ fun _ h => ⟨h.1.symm, h.2⟩

end Program

/-! ## A card that answers -/

/-- Exactly these flags are set, `D` holds of the variables, and `R` of the response
registers. -/
structure Facing (flags : List Flag) (D : Driver → Prop) (R : UInt8 → (Fin 4 → UInt32) → Prop)
    (w : World) : Prop where
  stat : ∀ f, f ∈ w.sdio.stat ↔ f ∈ flags
  subset : flags ⊆ sdioMaskIntcFlags
  drv : D w.drv
  response : R w.sdio.rspcmdidx w.sdio.resp

/-- Nothing is known about the response registers. -/
abbrev AnyResponse : UInt8 → (Fin 4 → UInt32) → Prop :=
  fun _ _ => True

namespace Facing

variable {acc : Program World Unit} {flags : List Flag} {D E : Driver → Prop}
  {R : UInt8 → (Fin 4 → UInt32) → Prop} {w : World}

theorem forget (h : Facing flags D R w) : Facing flags D AnyResponse w :=
  ⟨h.stat, h.subset, h.drv, trivial⟩

/-- A sample that raises flags of the mask. -/
theorem observe (h : Facing flags D R w) (raised : List Flag)
    (hraised : raised ⊆ sdioMaskIntcFlags) :
    Facing (raised ++ flags) D R (w.observe { flags := raised } []) where
  stat f := by
    rw [World.mem_stat_observe, h.stat, List.mem_append, or_comm]
    exact or_congr_right (and_iff_left_of_imp fun hf => h.subset hf)
  subset := List.append_subset.mpr ⟨hraised, h.subset⟩
  drv := h.drv
  response := h.response

/-- Nothing happens. -/
theorem quiet (h : Facing flags D R w) : Facing flags D R (w.observe {} []) :=
  h.observe [] (List.nil_subset _)

/-- The response to a command arrives. -/
theorem answer (h : Facing flags D R w) (index : UInt8) (response : UInt32) :
    Facing (.cmdrecv :: flags) D (fun i resp => i = index ∧ resp 0 = response)
      (w.observe (Gd32Firmware.answer index response) []) :=
  { h.observe [.cmdrecv] (by decide) with response := ⟨rfl, rfl⟩ }

theorem clear (h : Facing flags D R w) (mask : List Flag) :
    Facing (flags.filter (· ∉ mask)) D R (w.clear mask) where
  stat f := by simp [World.mem_stat_clear, h.stat]
  subset := fun _ hf => h.subset (List.mem_of_mem_filter hf)
  drv := h.drv
  response := h.response

theorem clear_all (h : Facing flags D R w) : Facing [] D R (w.clear sdioMaskIntcFlags) := by
  have hnil : flags.filter (· ∉ sdioMaskIntcFlags) = [] :=
    List.filter_eq_nil_iff.mpr fun f hf => by simpa using h.subset hf
  exact hnil ▸ h.clear sdioMaskIntcFlags

/-! ### The library -/

theorem instant (hacc : Instant acc) : Can (Facing flags D R) acc fun _ => Facing flags D R :=
  Can.instant hacc (s := {}) rfl fun _ h => h.quiet

theorem configure (hacc : Instant acc) (s : Setting) :
    Can (Facing flags D R) (configure acc s) fun _ => Facing flags D R :=
  Can.bind (instant hacc) fun _ => Can.note fun _ h => { h with }

theorem setDrv {f : Driver → Driver} (hf : ∀ drv, D drv → E (f drv)) :
    Can (Facing flags D R) (setDrv f) fun _ => Facing flags E R :=
  Can.setDrv fun w h => { h with drv := hf w.drv h.drv }

theorem writeShared {f : Driver → Driver} (hf : ∀ drv, D drv → E (f drv)) :
    Can (Facing flags D R) (writeShared f) fun _ => Facing flags E R :=
  Can.bind (instant instant_access) fun _ => setDrv hf

/-- A flag is read, and other flags of the mask may be raised before. -/
theorem flagGet (hacc : Instant acc) (mask raised : List Flag)
    (hraised : raised ⊆ sdioMaskIntcFlags) :
    Can (Facing flags D R) (sdioFlagGet acc mask) fun b w =>
      b = decide (anySet mask (raised ++ flags)) ∧ Facing (raised ++ flags) D R w :=
  Can.flagGet hacc (s := { flags := raised }) rfl fun _ h => by
    have h := h.observe raised hraised
    exact ⟨decide_eq_decide.mpr (exists_congr fun f => and_congr_right fun _ => (h.stat f).symm), h⟩

/-- A flag is read, and nothing happens. -/
theorem flagGet_quiet (hacc : Instant acc) (mask : List Flag) :
    Can (Facing flags D R) (sdioFlagGet acc mask) fun b w =>
      b = decide (anySet mask flags) ∧ Facing flags D R w :=
  flagGet hacc mask [] (List.nil_subset _)

theorem flagClear_all (hacc : Instant acc) :
    Can (Facing flags D R) (sdioFlagClear acc sdioMaskIntcFlags) fun _ => Facing [] D R :=
  Can.bind (instant hacc) fun _ => Can.modify (fun _ _ => rfl) fun _ h => h.clear_all

theorem responseGet (hacc : Instant acc) (i : Fin 4) :
    Can (Facing flags D R) (sdioResponseGet acc i) fun word w =>
      word = w.sdio.resp i ∧ Facing flags D R w :=
  Can.bind (instant hacc) fun _ => Can.read (fun _ _ => rfl) fun _ h => ⟨rfl, h⟩

theorem commandIndexGet (hacc : Instant acc) :
    Can (Facing flags D R) (sdioCommandIndexGet acc) fun index w =>
      index = w.sdio.rspcmdidx ∧ Facing flags D R w :=
  Can.bind (instant hacc) fun _ => Can.read (fun _ _ => rfl) fun _ h => ⟨rfl, h⟩

theorem sendCommand (hacc : Instant acc) (index : UInt8) (argument : UInt32)
    (response : ResponseType) :
    Can (Facing flags D R) (sendCommand acc index argument response) fun _ =>
      Facing flags D R := by
  refine Can.bind (Q := fun _ => Facing flags D R) (Can.bind (instant hacc) fun _ =>
    Can.modify (fun _ _ => rfl) fun _ h => { h with }) fun _ => ?_
  refine Can.bind (configure hacc _) fun _ => Can.bind (instant hacc) fun _ => ?_
  exact Can.modify (fun _ _ => rfl) fun _ h => { h with }

/-! ### Commands -/

/-- A response that arrives at once. -/
theorem waitResponse (hacc : Instant acc) (index : UInt8) (response : UInt32) :
    Can (Facing flags D R) (waitResponse acc) fun regStatus w =>
      (∀ f, f ∈ regStatus ↔ f ∈ .cmdrecv :: flags) ∧
        Facing (.cmdrecv :: flags) D (fun i resp => i = index ∧ resp 0 = response) w := by
  refine Can.sdLoop (Can.bind (Q := fun stat w => stat = w.sdio.stat ∧
    Facing (.cmdrecv :: flags) D (fun i resp => i = index ∧ resp 0 = response) w) ?_
    fun stat => ?_)
  · exact Can.bind (Can.instant hacc (s := Gd32Firmware.answer index response) rfl
      fun _ h => h.answer index response) fun _ => Can.read (fun _ _ => rfl) fun w h => ⟨rfl, h⟩
  · intro w h
    have hset : anySet [.ccrcerr, .cmdtmout, .cmdrecv] stat :=
      ⟨.cmdrecv, by decide, h.1 ▸ (h.2.stat _).mpr List.mem_cons_self⟩
    rw [if_pos hset]
    exact Can.pure (P := fun w => stat = w.sdio.stat ∧ _) _
      (fun w h => ⟨stat, rfl, fun f => h.1 ▸ h.2.stat f, h.2⟩) w h

/-- A command with an R1 response is accepted, by a card that is ready for data. -/
theorem commandR1_ready (hacc : Instant acc) (index : UInt8) (argument : UInt32)
    (hcrc : .ccrcerr ∉ flags) (htmout : .cmdtmout ∉ flags) :
    Can (Facing flags D R) (Gd32Firmware.commandR1 acc index argument) fun status w =>
      status = .ok ∧ Facing [] D (fun _ resp => resp 0 = 0x900) w := by
  refine Can.bind (sendCommand hacc index argument .short) fun _ => ?_
  refine Can.bind (waitResponse hacc index 0x900) fun regStatus w h => ?_
  have hcrc : .ccrcerr ∉ regStatus := by rw [h.1]; simpa using hcrc
  have htmout : .cmdtmout ∉ regStatus := by rw [h.1]; simpa using htmout
  rw [responseError, if_neg hcrc, if_neg htmout]
  refine Can.bind (Q := fun i w => i = index ∧ Facing (.cmdrecv :: flags) D
    (fun i resp => i = index ∧ resp 0 = 0x900) w) ?_ (fun i => ?_) w h.2
  · exact (commandIndexGet hacc).imp fun i w h => ⟨h.1.trans h.2.response.1, h.2⟩
  intro w h
  rw [if_neg (not_not.mpr h.1)]
  refine Can.bind (Q := fun _ => Facing [] D (fun _ resp => resp 0 = 0x900)) (Can.bind
    (flagClear_all hacc) fun _ => Can.note fun _ h => { h with response := h.response.2 })
    (fun _ => ?_) w h.2
  refine Can.bind (Q := fun resp w => resp = 0x900 ∧ Facing [] D (fun _ resp => resp 0 = 0x900) w)
    ((responseGet hacc 0).imp fun resp w h => ⟨h.1.trans h.2.response, h.2⟩) fun resp w h => ?_
  obtain ⟨rfl, h⟩ := h
  rw [if_pos (by decide)]
  exact Can.bind (Q := fun _ => Facing [] D (fun _ resp => resp 0 = 0x900))
    (Can.note fun _ h => { h with }) (fun _ => Can.pure _ fun _ h => ⟨rfl, h⟩) w h

/-- A command is accepted when no flag is set before. -/
theorem commandR1 (index : UInt8) (argument : UInt32) :
    Can (Facing [] D R) (Gd32Firmware.commandR1 access index argument) fun status w =>
      status = .ok ∧ Facing [] D AnyResponse w :=
  (commandR1_ready instant_access index argument List.not_mem_nil List.not_mem_nil).imp
    fun _ _ h => ⟨h.1, h.2.forget⟩

/-- The card is ready for data. -/
theorem waitReady :
    Can (Facing [] D fun _ resp => resp 0 = 0x900) waitReady fun status w =>
      status = .ok ∧ Facing [] D AnyResponse w := by
  refine Can.bind (Q := fun resp w => resp = 0x900 ∧ Facing [] D AnyResponse w)
    ((responseGet instant_access 0).imp fun resp w h => ⟨h.1.trans h.2.response, h.2.forget⟩)
    fun resp w h => ?_
  obtain ⟨rfl, h⟩ := h
  refine Can.sdLoop ?_ w h
  show Can _ (if _ then _ else _) _
  rw [if_neg (by decide), if_neg (by decide)]
  exact Can.pure _ fun w h => ⟨_, rfl, rfl, h⟩

/-- `CMD13`, answered by a card in the transfer state. -/
theorem sdCardStateGet (pcardstate : UInt8) :
    Can (Facing [] D R) (sdCardStateGet pcardstate) fun result w =>
      result = (.ok, 4) ∧ Facing [] D AnyResponse w := by
  refine Can.bind (Q := fun _ => Facing [] D R) (Can.getDrv fun _ h => h) fun drv => ?_
  refine Can.bind (sendCommand instant_access 13 _ .short) fun _ => ?_
  refine Can.bind (waitResponse instant_access 13 0x900) fun regStatus w h => ?_
  have hcrc : .ccrcerr ∉ regStatus := by rw [h.1]; decide
  have htmout : .cmdtmout ∉ regStatus := by rw [h.1]; decide
  rw [if_neg hcrc, if_neg htmout]
  refine Can.bind (Q := fun i w => i = 13 ∧ Facing [.cmdrecv] D
    (fun i resp => i = 13 ∧ resp 0 = 0x900) w) ?_ (fun i => ?_) w h.2
  · exact (commandIndexGet instant_access).imp fun i w h => ⟨h.1.trans h.2.response.1, h.2⟩
  intro w h
  rw [if_neg (not_not.mpr h.1)]
  refine Can.bind (flagClear_all instant_access) (fun _ => ?_) w h.2
  refine Can.bind (Q := fun resp w => resp = 0x900 ∧ Facing [] D AnyResponse w)
    ((responseGet instant_access 0).imp fun resp w h => ⟨h.1.trans h.2.response.2, h.2.forget⟩)
    fun resp w h => ?_
  obtain ⟨rfl, h⟩ := h
  rw [if_pos (by decide)]
  exact Can.pure (P := Facing [] D AnyResponse) _ (fun _ h => ⟨rfl, h⟩) w h

theorem finishWrite :
    Can (Facing flags D R) finishWrite fun status w =>
      status = .ok ∧ Facing [] D AnyResponse w := by
  refine Can.bind (flagClear_all instant_access) fun _ => ?_
  refine Can.bind (sdCardStateGet 0) fun result w h => ?_
  obtain ⟨rfl, h⟩ := h
  refine Can.sdLoop ?_ w h
  -- the card neither programs nor receives
  show Can _ (if _ then _ else _) _
  rw [if_neg (by decide)]
  exact Can.pure _ fun w h => ⟨_, rfl, rfl, h⟩

/-! ### Transfers -/

theorem checkFaults (hacc : Instant acc) : ∀ {faults : List (Flag × SdError)},
    (∀ e ∈ faults, e.1 ∉ flags) →
    Can (Facing flags D R) (checkFaults acc faults) fun status w =>
      status = .ok ∧ Facing flags D R w
  | [], _ => Can.pure _ fun _ h => ⟨rfl, h⟩
  | (flag, fault) :: faults, hnot => by
    refine Can.bind (flagGet_quiet hacc [flag]) fun b w h => ?_
    have hb : b = false := by
      rw [h.1, decide_eq_false_iff_not]
      rintro ⟨f, hf, hset⟩
      obtain rfl := List.mem_singleton.mp hf
      exact hnot _ List.mem_cons_self hset
    subst hb
    exact checkFaults hacc (fun e he => hnot e (List.mem_cons_of_mem _ he)) w h.2

/-- The data is over when the polling starts. -/
theorem pollReceive {ended : Flag} (hended : ended ∈ sdioMaskIntcFlags) (ptempbuff : ℕ) :
    Can (Facing [] D R) (pollReceive ended ptempbuff) fun _ => Facing [ended] D R := by
  refine Can.sdLoop (Can.bind (flagGet instant_access _ [ended] (by simpa using hended))
    fun b w h => ?_)
  have hb : b = true := by
    rw [h.1, decide_eq_true_eq]
    exact ⟨ended, by simp [pollFlags], by simp⟩
  rw [if_pos hb]
  exact Can.pure (P := Facing [ended] D R) _ (fun w h => ⟨ptempbuff, rfl, h⟩) w h.2

theorem pollSend {ended : Flag} (hended : ended ∈ sdioMaskIntcFlags) (pwritebuffer : ℕ) :
    Can (Facing [] D R) (pollSend ended pwritebuffer) fun _ => Facing [ended] D R := by
  refine Can.sdLoop (Can.bind (flagGet instant_access _ [ended] (by simpa using hended))
    fun b w h => ?_)
  have hb : b = true := by
    rw [h.1, decide_eq_true_eq]
    exact ⟨ended, by simp [pollFlags], by simp⟩
  rw [if_pos hb]
  exact Can.pure (P := Facing [ended] D R) _ (fun w h => ⟨(), rfl, h⟩) w h.2

/-- The FIFO is empty. -/
theorem drainFifo (hnot : .rxdtval ∉ flags) (ptempbuff : ℕ) :
    Can (Facing flags D R) (drainFifo ptempbuff) fun _ => Facing flags D R := by
  refine Can.sdLoop (Can.bind (flagGet_quiet instant_access [.rxdtval]) fun b w h => ?_)
  have hb : b = false := by
    rw [h.1, decide_eq_false_iff_not]
    rintro ⟨f, hf, hset⟩
    obtain rfl := List.mem_singleton.mp hf
    exact hnot hset
  subst hb
  exact Can.pure (P := Facing flags D R) _ (fun w h => ⟨(), rfl, h⟩) w h.2

/-- The stop command of the polling paths is accepted, where one is sent. -/
theorem stopPolled :
    Can (Facing [.dtend] D R) stopPolled fun status w =>
      status = .ok ∧ ∃ flags, Facing flags D AnyResponse w := by
  refine Can.bind (flagGet_quiet instant_access [.dtend]) fun b w h => ?_
  have hb : b = true := by rw [h.1]; decide
  rw [if_pos hb]
  refine Can.bind (Q := fun _ => Facing [.dtend] D R) (Can.getDrv fun _ h => h) (fun drv => ?_)
    w h.2
  split_ifs
  · exact (commandR1_ready instant_access 12 0 (by decide) (by decide)).imp
      fun _ _ h => ⟨h.1, _, h.2.forget⟩
  · exact Can.pure _ fun w h => ⟨rfl, _, h.forget⟩

theorem startData (blocksize : UInt16) (toSdio : Bool) :
    Can (Facing flags D R) (startData blocksize toSdio) fun _ => Facing flags D R := by
  refine Can.bind (Q := fun _ => Facing flags D R) (Can.getDrv fun _ h => h) fun drv => ?_
  exact Can.bind (configure instant_access _) fun _ =>
    Can.bind (configure instant_access _) fun _ => configure instant_access _

theorem announceBlocks (blocksnumber : UInt32) :
    Can (Facing [] D R) (announceBlocks blocksnumber) fun status w =>
      status = .ok ∧ Facing [] D AnyResponse w := by
  refine Can.bind (Q := fun _ => Facing [] D R) (Can.getDrv fun _ h => h) fun drv => ?_
  by_cases hcard : drv.cardtype.IsSdMemory
  · rw [if_pos hcard]
    exact Can.ifOk (commandR1 55 _) (commandR1 23 _)
  · rw [if_neg hcard]
    exact Can.pure _ fun w h => ⟨rfl, h.forget⟩

/-- The setup, for a block size that is accepted. -/
theorem transferSetup {cardtype : CardType} {b : ℕ} {addr : UInt32} {blocksize : UInt16}
    {rest : ℕ → UInt32 → UInt16 → Program World SdError} {Q : SdError → World → Prop}
    (hcard : ∀ drv, E drv → drv.cardtype = cardtype)
    (hdrv : ∀ drv, D drv → E
      { drv with
        transerror := .ok
        transend := 0
        totalnumberBytes := 0 })
    (hvalid : ValidBlocksize (effectiveBlocksize cardtype blocksize))
    (hrest : Can (Facing [] E AnyResponse)
      (rest b (if cardtype = .highCapacitySdCard then addr / 512 else addr)
        (effectiveBlocksize cardtype blocksize)) Q) :
    Can (Facing [] D fun _ resp => resp 0 = 0) (transferSetup (some b) addr blocksize rest) Q := by
  refine Can.bind (writeShared (E := fun drv => ∃ drv', D drv' ∧
    drv = { drv' with transerror := .ok }) fun drv h => ⟨drv, h, rfl⟩) fun _ => ?_
  refine Can.bind (writeShared (E := fun drv => ∃ drv', D drv' ∧
    drv = { drv' with transerror := .ok, transend := 0 }) ?_) fun _ => ?_
  · rintro _ ⟨drv, h, rfl⟩
    exact ⟨drv, h, rfl⟩
  refine Can.bind (setDrv (E := E) ?_) fun _ => ?_
  · rintro _ ⟨drv, h, rfl⟩
    exact hdrv drv h
  refine Can.bind (configure instant_access _) fun _ => ?_
  refine Can.bind (configure instant_access _) fun _ => ?_
  refine Can.bind (configure instant_access _) fun _ => ?_
  refine Can.bind (configure instant_access _) fun _ => ?_
  refine Can.bind (Q := fun resp w => resp = 0 ∧ Facing [] E AnyResponse w)
    ((responseGet instant_access 0).imp fun resp w h => ⟨h.1.trans h.2.response, h.2.forget⟩)
    fun resp w h => ?_
  obtain ⟨rfl, h⟩ := h
  rw [if_neg (by decide)]
  refine Can.bind (Q := fun drv w => drv.cardtype = cardtype ∧ Facing [] E AnyResponse w)
    (Can.getDrv fun w h => ⟨hcard _ h.drv, h⟩) (fun drv w h => ?_) w h
  obtain ⟨rfl, h⟩ := h
  simp only [decide_eq_true_eq]
  have hsize := hvalid
  rw [effectiveBlocksize, ValidBlocksize] at hsize
  rw [if_pos hsize]
  exact Can.ifOk (commandR1 16 _) hrest w h

/-- The data of a read, polled. -/
theorem multiblocksReadData (hmode : ∀ drv, D drv → drv.transmode = sdPollingMode) (b : ℕ) :
    Can (Facing [] D R) (multiblocksReadData b) fun status _ => status = .ok := by
  refine Can.bind (Q := fun drv w => drv.transmode = sdPollingMode ∧ Facing [] D R w)
    (Can.getDrv fun w h => ⟨hmode _ h.drv, h⟩) fun drv w h => ?_
  rw [if_pos h.1]
  refine Can.bind (pollReceive (by decide) b) (fun ptempbuff => ?_) w h.2
  refine Can.ifOk (checkFaults instant_access (by decide)) ?_
  refine Can.bind (drainFifo (by decide) ptempbuff) fun _ => Can.ifOk stopPolled ?_
  rintro w ⟨flags, h⟩
  exact Can.bind (flagClear_all instant_access) (fun _ => Can.pure _ fun _ _ => rfl) w h

/-- What follows the polling of one block that is written. -/
theorem sentBlock :
    Can (Facing [.dtblkend] D R)
      (ifOk (Gd32Firmware.checkFaults access (dataFaults .txure .txUnderrunError))
        Gd32Firmware.finishWrite) fun status _ => status = .ok :=
  (Can.ifOk (checkFaults instant_access (by decide)) finishWrite).imp fun _ _ h => h.1

/-- What follows the polling of several. -/
theorem sentMultiblocks :
    Can (Facing [.dtend] D R)
      (ifOk (Gd32Firmware.checkFaults access (dataFaults .txure .txUnderrunError)) <|
        ifOk Gd32Firmware.stopPolled do
          sdioFlagClear access sdioMaskIntcFlags
          Gd32Firmware.finishWrite) fun status _ => status = .ok := by
  refine Can.ifOk (checkFaults instant_access (by decide)) (Can.ifOk stopPolled ?_)
  rintro w ⟨flags, h⟩
  exact Can.bind (flagClear_all instant_access) (fun _ => finishWrite.imp fun _ _ h => h.1) w h

/-- The data of a write, polled. -/
theorem multiblocksWriteData (hmode : ∀ drv, D drv → drv.transmode = sdPollingMode) (b : ℕ) :
    Can (Facing [] D R) (multiblocksWriteData b) fun status _ => status = .ok := by
  refine Can.bind (Q := fun drv w => drv.transmode = sdPollingMode ∧ Facing [] D R w)
    (Can.getDrv fun w h => ⟨hmode _ h.drv, h⟩) fun drv w h => ?_
  rw [if_pos h.1]
  exact Can.bind (pollSend (by decide) b) (fun _ => sentMultiblocks) w h.2

/-! ### Calls -/

/-- The variables of a driver that polls. -/
abbrev Polling (cardtype : CardType) (drv : Driver) : Prop :=
  drv.cardtype = cardtype ∧ drv.transmode = sdPollingMode

/-- A write of several blocks comes to its data. -/
theorem sdMultiblocksWrite {cardtype : CardType} {b : ℕ} {addr : UInt32} {blocksize : UInt16}
    {blocksnumber : UInt32} {Q : SdError → World → Prop}
    (hvalid : ValidBlocksize (effectiveBlocksize cardtype blocksize)) (hlt : 1 < blocksnumber)
    (hle : ¬ sdMaxDataLength < blocksnumber * (effectiveBlocksize cardtype blocksize).toUInt32)
    (hdata : Can (Facing [] (fun drv => drv.transmode = sdPollingMode ∧ drv.totalnumberBytes =
        blocksnumber * (effectiveBlocksize cardtype blocksize).toUInt32) AnyResponse)
      (Gd32Firmware.multiblocksWriteData b) Q) :
    Can (Facing [] (Polling cardtype) fun _ resp => resp 0 = 0)
      (sdMultiblocksWrite (some b) addr blocksize blocksnumber) Q := by
  refine transferSetup (E := Polling cardtype) (fun _ h => h.1) (fun _ h => h) hvalid ?_
  refine Can.bind (Q := fun _ => Facing [] (Polling cardtype) AnyResponse)
    (Can.getDrv fun _ h => h) fun drv => ?_
  refine Can.ifOk (commandR1 13 _) ?_
  rw [if_pos hlt, if_neg hle]
  refine Can.ifOk (announceBlocks blocksnumber) ?_
  refine Can.ifOk (commandR1 25 _) ?_
  refine Can.bind (writeShared (E := fun drv => drv.transmode = sdPollingMode)
    fun _ h => h.2) fun _ => ?_
  refine Can.bind (setDrv (E := fun drv => drv.transmode = sdPollingMode ∧ drv.totalnumberBytes =
    blocksnumber * (effectiveBlocksize cardtype blocksize).toUInt32) fun _ h => ⟨h, rfl⟩)
    fun _ => ?_
  exact Can.bind (startData _ _) fun _ => hdata

/-- A write of one block comes to its data. -/
theorem sdBlockWrite {cardtype : CardType} {b : ℕ} {addr : UInt32} {blocksize : UInt16}
    {Q : SdError → World → Prop}
    (hvalid : ValidBlocksize (effectiveBlocksize cardtype blocksize))
    (hdata : Can (Facing [] (fun drv => drv.transmode = sdPollingMode ∧ drv.totalnumberBytes =
        (effectiveBlocksize cardtype blocksize).toUInt32) AnyResponse)
      (blockWriteData b (effectiveBlocksize cardtype blocksize)) Q) :
    Can (Facing [] (Polling cardtype) fun _ resp => resp 0 = 0)
      (sdBlockWrite (some b) addr blocksize) Q := by
  refine transferSetup (E := Polling cardtype) (fun _ h => h.1) (fun _ h => h) hvalid ?_
  refine Can.bind (Q := fun _ => Facing [] (Polling cardtype) AnyResponse)
    (Can.getDrv fun _ h => h) fun drv => ?_
  refine Can.ifOk (commandR1_ready instant_access 13 _ List.not_mem_nil List.not_mem_nil) ?_
  refine Can.ifOk waitReady (Can.ifOk (commandR1 24 _) ?_)
  refine Can.bind (writeShared (E := fun drv => drv.transmode = sdPollingMode)
    fun _ h => h.2) fun _ => ?_
  refine Can.bind (setDrv (E := fun drv => drv.transmode = sdPollingMode ∧ drv.totalnumberBytes =
    (effectiveBlocksize cardtype blocksize).toUInt32) fun _ h => ⟨h, rfl⟩) fun _ => ?_
  exact Can.bind (startData _ _) fun _ => hdata

end Facing

end Gd32Firmware
