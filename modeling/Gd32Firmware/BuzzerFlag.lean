import Gd32Firmware.BuzzerAlarm

/-!
# The flag of the buzzer

`is_buzzer_beeping` of `module/buzzer/buzzer.c` answers with a flag that `buzzer_poll` keeps
beside the output. Queueing and the alarm keep the two together. A rest, a slot of frequency or
volume 0, does not : the poll that starts it from silence sets the flag and leaves the output
silent.

`flagTells_iff` says that this is the only step that does, over every run.
-/

namespace Gd32Firmware

/-- The module with the tone that the output is programmed to. -/
structure BuzzerOutput extends BuzzerModule where
  output : UInt16 × UInt8

/-- The output after these calls of `buzzer_beep_set`. -/
def programmedTo (output : UInt16 × UInt8) (sets : List (UInt16 × UInt8)) : UInt16 × UInt8 :=
  sets.getLastD output

/-- `beep_init` silences the output, and a call programs it to the last tone that it sets. -/
def buzzerOutput : Machine BuzzerOutput BuzzerCall Unit where
  step s c :=
    let next := (buzzerModule.step s.toBuzzerModule c).1
    let output :=
      match c with
      | .init => (0, 0)
      | _ => programmedTo s.output (next.buzzer.sets.drop s.buzzer.sets.length)
    ({ next with output := output }, ())

/-- The module and the output at power-up, at any tick. -/
def buzzerOutputStart (tick : UInt32) : BuzzerOutput where
  buzzer := buzzerPowerUp
  tick := tick
  output := (0, 0)

/-- Neither the frequency nor the volume is 0. -/
def Hearable (tone : UInt16 × UInt8) : Prop :=
  tone.1 ≠ 0 ∧ tone.2 ≠ 0

instance (tone : UInt16 × UInt8) : Decidable (Hearable tone) :=
  inferInstanceAs (Decidable (_ ∧ _))

/-- `is_buzzer_beeping`. -/
def isBuzzerBeeping (b : Buzzer) : UInt8 :=
  if b.isBeeping then 1 else 0

/-- The answer is 1 exactly if the output can be heard. -/
def FlagTells (s : BuzzerOutput) : Prop :=
  isBuzzerBeeping s.buzzer = 1 ↔ Hearable s.output

instance (s : BuzzerOutput) : Decidable (FlagTells s) :=
  inferInstanceAs (Decidable (_ ↔ _))

/-- The end of the tone of the slot that the reader is at. -/
def Buzzer.toneEnd (b : Buzzer) (t : UInt32) : UInt32 :=
  if b.interBeeping then b.beepOnTime else (b.data b.readPos).onTime + t

/-- A poll at the tick `t` finds no alarm, or one that is over, the output not in use, and a
slot whose tone is due and cannot be heard. -/
structure StartsRest (b : Buzzer) (t : UInt32) : Prop where
  noAlarm : b.immediateEndTime < t
  quiet : b.isBeeping = false ∨ b.immediateEndTime ≠ 0
  queued : b.writePos ≠ 0
  due : t < b.toneEnd t
  rest : ¬ Hearable (b.data b.readPos).tone

/-- No poll starts a rest. -/
def StartsNoRest (s : BuzzerOutput) : BuzzerCall → Prop
  | .poll => ¬ StartsRest s.buzzer s.tick
  | _ => True

/-! ## The flag and the output -/

/-- The flag agrees with the output. -/
def Agrees (b : Buzzer) (output : UInt16 × UInt8) : Prop :=
  b.isBeeping = true ↔ Hearable output

theorem flagTells_eq (s : BuzzerOutput) : FlagTells s ↔ Agrees s.buzzer s.output := by
  unfold FlagTells Agrees isBuzzerBeeping
  cases s.buzzer.isBeeping <;> simp

@[simp] theorem programmedTo_nil (output : UInt16 × UInt8) : programmedTo output [] = output :=
  rfl

@[simp] theorem programmedTo_singleton (output tone : UInt16 × UInt8) :
    programmedTo output [tone] = tone :=
  rfl

theorem programmedTo_append (output : UInt16 × UInt8) (sets sets' : List (UInt16 × UInt8)) :
    programmedTo output (sets ++ sets') = programmedTo (programmedTo output sets) sets' := by
  simp [programmedTo, List.getLastD_eq_getLast?, Option.getD_or]

section Poll

variable {b : Buzzer} {t : UInt32} {output : UInt16 × UInt8}

/-- The alarm keeps the flag and the output together. -/
theorem Agrees.immediate (h : Agrees b output) :
    ∃ sets, (b.immediate t).sets = b.sets ++ sets ∧
      Agrees (b.immediate t) (programmedTo output sets) := by
  unfold Buzzer.immediate
  split_ifs with hend hle hbeep
  · exact ⟨[], by simp, h⟩
  · exact ⟨[alarmTone], rfl, iff_of_true rfl (by decide : Hearable alarmTone)⟩
  · exact ⟨[(0, 0)], rfl, iff_of_false (by simp) (by decide : ¬ Hearable (0, 0))⟩
  · exact ⟨[], by simp, h⟩

/-- Sounding a slot does, unless it starts a rest. -/
theorem Agrees.sound (h : Agrees b output) :
    ∃ sets, (b.sound t).sets = b.sets ++ sets ∧
      (Agrees (b.sound t) (programmedTo output sets) ↔
        ¬ (b.isBeeping = false ∧ t < b.beepOnTime ∧ ¬ Hearable (b.data b.readPos).tone)) := by
  unfold Buzzer.sound
  split_ifs with hdue hbeep
  · refine ⟨[], by simp, iff_of_true ?_ (by simp [hbeep])⟩
    exact iff_of_true rfl (h.1 hbeep)
  · refine ⟨[(b.data b.readPos).tone], rfl, ?_⟩
    have hquiet : b.isBeeping = false := by simpa using hbeep
    simp [Agrees, programmedTo, hquiet, hdue]
  · refine ⟨[(0, 0)], rfl, iff_of_true ?_ (by simp [hdue])⟩
    exact iff_of_false (by simp) (by decide : ¬ Hearable (0, 0))

/-- The slot is as the alarm leaves it. -/
theorem Buzzer.immediate_frame (b : Buzzer) (t : UInt32) :
    ∃ isBeeping immediateEndTime sets, b.immediate t =
      { b with isBeeping := isBeeping, immediateEndTime := immediateEndTime, sets := sets } := by
  unfold immediate
  split_ifs
  · exact ⟨_, _, _, rfl⟩
  · exact ⟨_, _, _, rfl⟩
  · exact ⟨_, _, _, rfl⟩
  · exact ⟨_, _, _, rfl⟩

/-- The queue goes on where there is no alarm, or one that is over. -/
theorem Buzzer.immediate_lt_iff :
    (b.immediate t).immediateEndTime < t ↔ b.immediateEndTime < t := by
  unfold immediate
  split_ifs with hend hle hbeep
  · rfl
  · rfl
  · have hlt : b.immediateEndTime < t := UInt32.not_le.1 hle
    have hne : t ≠ 0 := fun h0 => UInt32.not_lt_zero (h0 ▸ hlt)
    exact iff_of_true (UInt32.pos_iff_ne_zero.2 hne) hlt
  · rfl

/-- It finds the output silent if it was, or if an alarm has just ended. -/
theorem Buzzer.immediate_isBeeping (hlt : b.immediateEndTime < t) :
    (b.immediate t).isBeeping = false ↔ b.isBeeping = false ∨ b.immediateEndTime ≠ 0 := by
  unfold immediate
  rw [if_neg (show ¬ b.immediateEndTime ≥ t from UInt32.not_le.2 hlt)]
  split_ifs with hend
  · exact iff_of_true rfl (.inr hend)
  · simp [hend]

theorem Buzzer.takeUp_beepOnTime (b : Buzzer) (t : UInt32) :
    (b.takeUp t).beepOnTime = b.toneEnd t := by
  unfold takeUp toneEnd
  split_ifs <;> rfl

/-- A step that starts a rest. -/
theorem startsRest_iff (hlt : b.immediateEndTime < t) (hqueued : b.writePos ≠ 0) :
    let b' := (b.immediate t).takeUp t
    b'.isBeeping = false ∧ t < b'.beepOnTime ∧ ¬ Hearable (b'.data b'.readPos).tone ↔
      StartsRest b t := by
  have hquiet := b.immediate_isBeeping hlt
  obtain ⟨isBeeping, immediateEndTime, sets, hframe⟩ := b.immediate_frame t
  have hdue : ((b.immediate t).takeUp t).beepOnTime = b.toneEnd t := by
    rw [Buzzer.takeUp_beepOnTime, hframe]
    rfl
  have htone : (((b.immediate t).takeUp t).data ((b.immediate t).takeUp t).readPos).tone =
      (b.data b.readPos).tone := by
    rw [Buzzer.takeUp_data, Buzzer.takeUp_readPos, hframe]
  dsimp only
  rw [Buzzer.takeUp_isBeeping, hquiet, hdue, htone]
  constructor
  · rintro ⟨hquiet, hdue, hrest⟩
    exact ⟨hlt, hquiet, hqueued, hdue, hrest⟩
  · intro h
    exact ⟨h.quiet, h.due, h.rest⟩

/-- The flag and the output after a poll. -/
theorem Agrees.poll (h : Agrees b output) :
    ∃ sets, (buzzerPoll b t).sets = b.sets ++ sets ∧
      (Agrees (buzzerPoll b t) (programmedTo output sets) ↔ ¬ StartsRest b t) := by
  obtain ⟨sets, hsets, hagrees⟩ := h.immediate (t := t)
  have hwrite : (b.immediate t).writePos = b.writePos := by
    obtain ⟨_, _, _, hframe⟩ := b.immediate_frame t
    rw [hframe]
  unfold buzzerPoll
  dsimp only
  by_cases hlt : b.immediateEndTime < t
  · rw [if_pos ((b.immediate_lt_iff).2 hlt), hwrite]
    by_cases hqueued : b.writePos = 0
    · rw [if_pos hqueued]
      exact ⟨sets, hsets, iff_of_true hagrees fun hrest => hrest.queued hqueued⟩
    · rw [if_neg hqueued]
      have htaken : Agrees ((b.immediate t).takeUp t) (programmedTo output sets) := by
        rw [Agrees, Buzzer.takeUp_isBeeping]
        exact hagrees
      have htakenSets : ((b.immediate t).takeUp t).sets = (b.immediate t).sets := by
        rw [Buzzer.takeUp_frame]
      obtain ⟨sets', hsets', hsound⟩ := htaken.sound (t := t)
      have hstarts := startsRest_iff hlt hqueued
      dsimp only at hstarts
      rw [hstarts, ← programmedTo_append] at hsound
      rw [htakenSets, hsets, List.append_assoc] at hsets'
      split_ifs
      · exact ⟨sets ++ sets', hsets', hsound⟩
      · refine ⟨sets ++ sets', ?_, ?_⟩
        · rw [Buzzer.advance_eq]
          exact hsets'
        · rw [Buzzer.advance_eq]
          exact hsound
  · rw [if_neg fun h => hlt ((b.immediate_lt_iff).1 h)]
    exact ⟨sets, hsets, iff_of_true hagrees fun hrest => hlt hrest.noAlarm⟩

end Poll

/-! ## Runs -/

/-- A call that does not poll leaves the two together. -/
theorem FlagTells.step {s : BuzzerOutput} (h : FlagTells s) (c : BuzzerCall) :
    FlagTells (buzzerOutput.step s c).1 ↔ StartsNoRest s c := by
  rw [flagTells_eq] at h ⊢
  cases c with
  | init =>
    refine iff_of_true (iff_of_false ?_ (by decide : ¬ Hearable (0, 0))) trivial
    simp [buzzerOutput, buzzerModule, buzzerInit]
  | tone d =>
    refine iff_of_true ?_ trivial
    obtain ⟨data, writePos, hframe, -⟩ := s.buzzer.beepTone_frame d
    simpa [Agrees, buzzerOutput, buzzerModule, hframe] using h
  | immediate onTime =>
    refine iff_of_true ?_ trivial
    simpa [Agrees, buzzerOutput, buzzerModule, buzzerBeepImmediate] using h
  | poll =>
    obtain ⟨sets, hsets, hagrees⟩ := h.poll (t := s.tick)
    simpa [buzzerOutput, buzzerModule, hsets, StartsNoRest] using hagrees
  | tick =>
    refine iff_of_true ?_ trivial
    simpa [Agrees, buzzerOutput, buzzerModule] using h

/-- The flag tells what the output does after every call of a run, exactly if no poll of the run
starts a rest. -/
theorem flagTells_iff (tick : UInt32) (calls : List BuzzerCall) :
    (∀ pre, pre <+: calls → FlagTells (buzzerOutput.run (buzzerOutputStart tick) pre)) ↔
      buzzerOutput.Along StartsNoRest (buzzerOutputStart tick) calls := by
  have hstart : FlagTells (buzzerOutputStart tick) :=
    iff_of_false (by decide : ¬ isBuzzerBeeping buzzerPowerUp = 1) (by decide : ¬ Hearable (0, 0))
  exact buzzerOutput.forall_prefix_iff_along (fun _ c h => h.step c) calls hstart

/-- A rest is queued and polled : the flag is set, and the output silent. -/
theorem not_flagTells_rest :
    ¬ FlagTells (buzzerOutput.run (buzzerOutputStart 1) [.init, .tone ⟨0, 50, 10, 0⟩, .poll]) := by
  decide

end Gd32Firmware
