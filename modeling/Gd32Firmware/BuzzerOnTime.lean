import Gd32Firmware.BuzzerFlag
import Mathlib.Data.List.GetD

/-!
# How long a tone sounds

`buzzer_poll` compares the tick counter with absolute times, so what it plays depends on where
the counter stands. A tone sounds for its time if its end comes before the counter wraps and
so does the tick after its pause; a pause of `2 ^ 32 - 1` ticks is no longer than none
(`ToneFits`). Otherwise the tone falls silent at once, its slot is left while it sounds, or the
slot lasts beyond the wrap and the tone comes on again. An alarm rings for its time if the tick
after its end comes before the counter wraps; the end time 0 is taken for no alarm at all.

`buzzer_onTime` is about every start tick and every run that polls once a tick.
-/

namespace Gd32Firmware

/-! ## Statements -/

/-- Calls of a module that is polled once in every tick, and was or was not in the first. -/
def PolledOnce : Bool → List BuzzerCall → Prop
  | _, [] => True
  | polled, .tone _ :: calls => PolledOnce polled calls
  | polled, .poll :: calls => polled = false ∧ PolledOnce true calls
  | polled, .tick :: calls => polled = true ∧ PolledOnce false calls
  | _, .init :: _ => False
  | _, .immediate _ :: _ => False

/-- The tones and alarms in question. -/
def OnTimeRange (onTime : UInt32) : Prop :=
  0 < onTime.toNat ∧ onTime.toNat < 2 ^ 31

/-- The output was last programmed to something that cannot be heard, or never. -/
def SilentOutput (b : Buzzer) : Prop :=
  ∀ tone, b.programmed = some tone → ¬ Hearable tone

/-- The next poll takes up a queued slot with `d`, at the tick `t`. At the tick 0 no poll does. -/
structure TakesUp (s : BuzzerModule) (t : UInt32) (d : BuzzerData) : Prop where
  tick : s.tick = t
  tick_ne_zero : t ≠ 0
  waits : s.buzzer.interBeeping = false
  queued : s.buzzer.readPos < s.buzzer.writePos
  slot : s.buzzer.data s.buzzer.readPos = d

/-- Each of these calls finds the reader in a slot. -/
def StaysInSlot (s : BuzzerModule) (calls : List BuzzerCall) : Prop :=
  buzzerModule.Along (fun s' _ => s'.buzzer.interBeeping = true) s calls

/-- From that poll on, `d` is programmed for as many ticks as it says and not one more, and every
later poll of the slot is silent. -/
structure PlaysOut (s : BuzzerModule) (d : BuzzerData) (rest : List BuzzerCall) : Prop where
  before : SilentOutput s.buzzer
  sounds : ∀ pre post, .poll :: rest = pre ++ .poll :: post → buzzerTicks pre < d.onTime.toNat →
    (buzzerModule.run s (pre ++ [.poll])).buzzer.programmed = some d.tone
  stops : ∀ pre post, .poll :: rest = pre ++ .poll :: post → buzzerTicks pre = d.onTime.toNat →
    SilentOutput (buzzerModule.run s (pre ++ [.poll])).buzzer
  rests : ∀ pre post, rest = pre ++ .poll :: post → d.onTime.toNat ≤ buzzerTicks pre →
    StaysInSlot (buzzerModule.run s [.poll]) (pre ++ [.poll]) →
    SilentOutput (buzzerModule.run s (.poll :: pre ++ [.poll])).buzzer

/-- The end of the tone does not wrap. Neither does the tick after the pause, or the pause ends
with the tick before the end of the tone. -/
structure ToneFits (t : UInt32) (d : BuzzerData) : Prop where
  tone : t.toNat + d.onTime.toNat < 2 ^ 32
  pause : t.toNat + d.onTime.toNat + d.offTime.toNat + 1 < 2 ^ 32 ∨
    d.offTime.toNat = 2 ^ 32 - 1

/-- Every slot that a poll takes up fits. -/
def SlotFits (s : BuzzerModule) : BuzzerCall → Prop
  | .poll => s.buzzer.interBeeping = false → s.buzzer.writePos ≠ 0 → s.tick ≠ 0 →
    ToneFits s.tick (s.buzzer.data s.buzzer.readPos)
  | _ => True

/-- In every run from power-up, at any tick, that polls once a tick and has taken up only slots
that fit : where it takes up `d` at the tick `t`, it plays it out. -/
def TonesPlayOut (t : UInt32) (d : BuzzerData) : Prop :=
  ∀ tick pre rest, PolledOnce false (pre ++ .poll :: rest) →
    buzzerModule.Along SlotFits ⟨buzzerPowerUp, tick⟩ pre →
    TakesUp (buzzerModule.run ⟨buzzerPowerUp, tick⟩ pre) t d →
    PlaysOut (buzzerModule.run ⟨buzzerPowerUp, tick⟩ pre) d rest

/-- From silence, with the flag at this value, an alarm set at the tick `t` rings out. -/
def AlarmsRing (t onTime : UInt32) (isBeeping : Bool) : Prop :=
  ∀ b, SilentOutput b → b.isBeeping = isBeeping →
    ∀ polled calls, PolledOnce polled calls → AlarmRings ⟨b, t⟩ onTime calls

/-! ## Between two slots -/

/-- A run without an alarm, whose slots fit. -/
structure OnTimeInv (b : Buzzer) : Prop where
  noAlarm : b.immediateEndTime = 0
  quiet : b.interBeeping = false → b.isBeeping = false
  ordered : b.interBeeping = true → b.beepOnTime.toNat ≤ b.beepOffTime.toNat + 1
  silent : b.isBeeping = false → SilentOutput b

/-- The end of a tone that is taken up, if it does not wrap. -/
theorem Buzzer.toNat_takeUp_beepOnTime {b : Buzzer} {t : UInt32} (hwaits : b.interBeeping = false)
    (htone : t.toNat + (b.data b.readPos).onTime.toNat < 2 ^ 32) :
    (b.takeUp t).beepOnTime.toNat = t.toNat + (b.data b.readPos).onTime.toNat := by
  rw [takeUp_eq t hwaits]
  simp only [UInt32.toNat_add]
  omega

theorem ToneFits.takeUp {b : Buzzer} {t : UInt32} (hwaits : b.interBeeping = false)
    (hfits : ToneFits t (b.data b.readPos)) :
    (b.takeUp t).beepOnTime.toNat ≤ (b.takeUp t).beepOffTime.toNat + 1 := by
  obtain ⟨htone, hpause⟩ := hfits
  rw [Buzzer.toNat_takeUp_beepOnTime hwaits htone, Buzzer.takeUp_eq t hwaits]
  simp only [UInt32.toNat_add]
  omega

theorem silentOutput_of_programmed {b : Buzzer} {tone : UInt16 × UInt8}
    (h : b.programmed = some tone) (htone : ¬ Hearable tone) : SilentOutput b := by
  intro tone' h'
  rw [h] at h'
  exact Option.some.inj h' ▸ htone

/-- What sounding a slot programs. -/
theorem Buzzer.sound_programmed (b : Buzzer) (t : UInt32) :
    (b.sound t).programmed =
      if t < b.beepOnTime then
        if b.isBeeping then b.programmed else some (b.data b.readPos).tone
      else some (0, 0) := by
  unfold sound programmed
  split_ifs <;> simp [buzzerBeepPort, BuzzerData.tone]

theorem Buzzer.sound_silent {b : Buzzer} {t : UInt32} (h : ¬ t < b.beepOnTime) :
    SilentOutput (b.sound t) := by
  have hset : (b.sound t).programmed = some (0, 0) := by rw [sound_programmed, if_neg h]
  exact silentOutput_of_programmed hset (by decide)

/-- Leaving a slot changes no output. -/
theorem Buzzer.advance_frame (b : Buzzer) :
    b.advance.programmed = b.programmed ∧ b.advance.isBeeping = b.isBeeping ∧
      b.advance.immediateEndTime = b.immediateEndTime ∧ b.advance.interBeeping = false := by
  rw [advance_eq]
  exact ⟨rfl, rfl, rfl, rfl⟩

theorem OnTimeInv.poll {b : Buzzer} {t : UInt32} (h : OnTimeInv b)
    (hfits : SlotFits ⟨b, t⟩ .poll) : OnTimeInv (buzzerPoll b t) := by
  by_cases hidle : t = 0 ∨ b.writePos = 0
  · rw [buzzerPoll_idle h.noAlarm hidle]
    exact h
  · rw [not_or] at hidle
    have hordered : (b.takeUp t).beepOnTime.toNat ≤ (b.takeUp t).beepOffTime.toNat + 1 := by
      cases hinter : b.interBeeping with
      | true => simpa [Buzzer.takeUp, hinter] using h.ordered hinter
      | false => exact (hfits hinter hidle.2 hidle.1).takeUp hinter
    have hsilent : ((b.takeUp t).sound t).isBeeping = false →
        SilentOutput ((b.takeUp t).sound t) := fun hquiet =>
      Buzzer.sound_silent (by simpa using hquiet)
    rw [buzzerPoll_eq h.noAlarm hidle.1 hidle.2]
    dsimp only
    split_ifs with hstays
    · refine ⟨by simpa using h.noAlarm, fun hinter => ?_, fun _ => ?_, hsilent⟩
      · simp at hinter
      · simpa using hordered
    · obtain ⟨hprogrammed, hbeeping, himmediate, hinter⟩ := ((b.takeUp t).sound t).advance_frame
      -- the tick is past the pause, and with it past the tone
      have hquiet : ((b.takeUp t).sound t).isBeeping = false := by
        rw [Buzzer.sound_beepOffTime, UInt32.le_iff_toNat_le] at hstays
        rw [Buzzer.sound_isBeeping, decide_eq_false_iff_not, UInt32.lt_iff_toNat_lt]
        omega
      refine ⟨?_, fun _ => hbeeping.trans hquiet, fun h => ?_, fun _ => ?_⟩
      · rw [himmediate]
        simpa using h.noAlarm
      · rw [hinter] at h
        simp at h
      · unfold SilentOutput
        rw [hprogrammed]
        exact hsilent hquiet

theorem OnTimeInv.tone {b : Buzzer} (h : OnTimeInv b) (d : BuzzerData) :
    OnTimeInv (buzzerBeepTone b d) := by
  obtain ⟨data, writePos, heq, -⟩ := b.beepTone_frame d
  rw [heq]
  exact ⟨h.noAlarm, h.quiet, h.ordered, h.silent⟩

theorem polledOnce_append {polled : Bool} {pre post : List BuzzerCall}
    (h : PolledOnce polled (pre ++ post)) :
    PolledOnce polled pre ∧ ∃ polled', PolledOnce polled' post := by
  induction pre generalizing polled with
  | nil => exact ⟨by simp [PolledOnce], polled, h⟩
  | cons c pre ih =>
    cases c with
    | init => exact absurd h (by simp [PolledOnce])
    | immediate onTime => exact absurd h (by simp [PolledOnce])
    | tone d => simpa [PolledOnce] using ih (by simpa [PolledOnce] using h)
    | poll =>
      obtain ⟨hpolled, h⟩ : polled = false ∧ PolledOnce true (pre ++ post) := by
        simpa [PolledOnce] using h
      simpa [PolledOnce, hpolled] using ih h
    | tick =>
      obtain ⟨hpolled, h⟩ : polled = true ∧ PolledOnce false (pre ++ post) := by
        simpa [PolledOnce] using h
      simpa [PolledOnce, hpolled] using ih h

/-- No call of such a run sets off an alarm or starts the module again. -/
theorem plain_of_polledOnce {polled : Bool} {calls : List BuzzerCall}
    (h : PolledOnce polled calls) : ∀ c ∈ calls, c.Plain := by
  intro c hc
  obtain ⟨pre, post, rfl⟩ := List.append_of_mem hc
  obtain ⟨-, polled', hpost⟩ := polledOnce_append h
  constructor
  · rintro rfl
    simp [PolledOnce] at hpost
  · rintro onTime rfl
    simp [PolledOnce] at hpost

theorem onTimeInv_run {s : BuzzerModule} {calls : List BuzzerCall} (hs : OnTimeInv s.buzzer)
    (hplain : ∀ c ∈ calls, c.Plain) (hfits : buzzerModule.Along SlotFits s calls) :
    OnTimeInv (buzzerModule.run s calls).buzzer := by
  induction calls generalizing s with
  | nil => exact hs
  | cons c calls ih =>
    have hc := hplain c (by simp)
    refine ih ?_ (fun c hc => hplain c (by simp [hc])) hfits.2
    cases c with
    | init => exact absurd rfl hc.1
    | immediate onTime => exact absurd rfl (hc.2 onTime)
    | tone d => exact hs.tone d
    | poll => exact hs.poll hfits.1
    | tick => exact hs

theorem buzzerPowerUp_onTimeInv : OnTimeInv buzzerPowerUp := by
  constructor <;> simp [buzzerPowerUp, SilentOutput, Buzzer.programmed]

/-! ## Within a slot -/

/-- The end of the pause of a slot that is taken up at the tick `t`. -/
def BuzzerData.pauseEnd (d : BuzzerData) (t : UInt32) : UInt32 :=
  d.offTime + (d.onTime + t)

/-- The reader is in the slot taken up at the tick `t`, `n` ticks later. -/
structure SlotTimes (t : UInt32) (d : BuzzerData) (n : ℕ) (s : BuzzerModule) : Prop where
  tick : s.tick.toNat = t.toNat + n
  tick_ne_zero : s.tick ≠ 0
  noAlarm : s.buzzer.immediateEndTime = 0
  queued : s.buzzer.writePos ≠ 0
  inter : s.buzzer.interBeeping = true
  onTime : s.buzzer.beepOnTime.toNat = t.toNat + d.onTime.toNat
  offTime : s.buzzer.beepOffTime = d.pauseEnd t

/-- The tone of the slot sounds. -/
structure InSlot (t : UInt32) (d : BuzzerData) (n : ℕ) (s : BuzzerModule) : Prop
    extends SlotTimes t d n s where
  beeping : s.buzzer.isBeeping = true
  programmed : s.buzzer.programmed = some d.tone

section InSlot

variable {s : BuzzerModule} {t : UInt32} {d : BuzzerData} {n : ℕ}

theorem SlotTimes.tone (h : SlotTimes t d n s) (d' : BuzzerData) :
    SlotTimes t d n { s with buzzer := buzzerBeepTone s.buzzer d' } := by
  obtain ⟨data, writePos, heq, hle⟩ := s.buzzer.beepTone_frame d'
  have hqueued := h.queued
  rw [heq]
  exact { h with queued := by dsimp only; omega }

theorem SlotTimes.succ (h : SlotTimes t d n s) (hlt : t.toNat + n + 1 < 2 ^ 32) :
    SlotTimes t d (n + 1) { s with tick := s.tick + 1 } := by
  have htick := h.tick
  have hsucc : (s.tick + 1).toNat = t.toNat + (n + 1) := by
    rw [tick_succ (by omega)]
    omega
  exact { h with tick := hsucc, tick_ne_zero := tick_succ_ne_zero (by omega) }

theorem InSlot.tone (h : InSlot t d n s) (d' : BuzzerData) :
    InSlot t d n { s with buzzer := buzzerBeepTone s.buzzer d' } := by
  have htimes := h.toSlotTimes.tone d'
  obtain ⟨data, writePos, heq, -⟩ := s.buzzer.beepTone_frame d'
  rw [heq] at htimes ⊢
  exact ⟨htimes, h.beeping, h.programmed⟩

theorem InSlot.succ (h : InSlot t d n s) (hlt : t.toNat + n + 1 < 2 ^ 32) :
    InSlot t d (n + 1) { s with tick := s.tick + 1 } :=
  ⟨h.toSlotTimes.succ hlt, h.beeping, h.programmed⟩

/-- A poll sounds the slot, and leaves it if the pause is over. -/
theorem SlotTimes.poll_eq (h : SlotTimes t d n s) :
    buzzerPoll s.buzzer s.tick =
      if t.toNat + n ≤ (d.pauseEnd t).toNat then s.buzzer.sound s.tick
      else (s.buzzer.sound s.tick).advance := by
  have htake : s.buzzer.takeUp s.tick = s.buzzer := by simp [Buzzer.takeUp, h.inter]
  have hle : s.tick ≤ s.buzzer.beepOffTime ↔ t.toNat + n ≤ (d.pauseEnd t).toNat := by
    rw [UInt32.le_iff_toNat_le, h.tick, h.offTime]
  rw [buzzerPoll_eq h.noAlarm h.tick_ne_zero h.queued, htake]
  simp only [Buzzer.sound_beepOffTime, hle]

theorem SlotTimes.poll (h : SlotTimes t d n s) (hle : t.toNat + n ≤ (d.pauseEnd t).toNat) :
    SlotTimes t d n { s with buzzer := buzzerPoll s.buzzer s.tick } := by
  rw [h.poll_eq, if_pos hle]
  exact ⟨h.tick, h.tick_ne_zero, by simpa using h.noAlarm, by simpa using h.queued,
    by simpa using h.inter, by simpa using h.onTime, by simpa using h.offTime⟩

theorem SlotTimes.tick_lt_iff (h : SlotTimes t d n s) :
    s.tick < s.buzzer.beepOnTime ↔ n < d.onTime.toNat := by
  rw [UInt32.lt_iff_toNat_lt, h.tick, h.onTime]
  omega

/-- From the end of the tone on a poll silences the output. -/
theorem SlotTimes.poll_rest (h : SlotTimes t d n s) (hn : d.onTime.toNat ≤ n) :
    SilentOutput (buzzerPoll s.buzzer s.tick) := by
  have hsilent : SilentOutput (s.buzzer.sound s.tick) :=
    Buzzer.sound_silent (by rw [h.tick_lt_iff]; omega)
  rw [h.poll_eq]
  split_ifs
  · exact hsilent
  · unfold SilentOutput
    rw [(s.buzzer.sound s.tick).advance_frame.1]
    exact hsilent

/-- A poll before the end of the tone sounds it on, and leaves the slot if the pause is over. -/
theorem InSlot.poll_eq (h : InSlot t d n s) (hn : n < d.onTime.toNat) :
    buzzerPoll s.buzzer s.tick =
      if t.toNat + n ≤ (d.pauseEnd t).toNat then s.buzzer else s.buzzer.advance := by
  have hsound : s.buzzer.sound s.tick = s.buzzer := by
    rw [Buzzer.sound, if_pos (h.tick_lt_iff.2 hn), if_pos h.beeping, ← h.beeping]
  rw [h.toSlotTimes.poll_eq, hsound]

theorem InSlot.poll (h : InSlot t d n s) (hn : n < d.onTime.toNat)
    (hle : t.toNat + n ≤ (d.pauseEnd t).toNat) :
    InSlot t d n { s with buzzer := buzzerPoll s.buzzer s.tick } := by
  rw [h.poll_eq hn, if_pos hle]
  exact h

/-- The slot that a poll takes up, with its tone on. -/
theorem TakesUp.inSlot (h : TakesUp s t d) (hs : OnTimeInv s.buzzer) (hon : 0 < d.onTime.toNat)
    (htone : t.toNat + d.onTime.toNat < 2 ^ 32) :
    InSlot t d 0 { s with buzzer := (s.buzzer.takeUp s.tick).sound s.tick } := by
  obtain ⟨rfl, ht, hwaits, hqueued, rfl⟩ := h
  have honTime := Buzzer.toNat_takeUp_beepOnTime hwaits htone
  have hlt : s.tick < (s.buzzer.takeUp s.tick).beepOnTime := by
    rw [UInt32.lt_iff_toNat_lt]
    omega
  refine ⟨⟨rfl, ht, ?_, ?_, ?_, ?_, ?_⟩, ?_, ?_⟩
  · simpa using hs.noAlarm
  · simp only [Buzzer.sound_writePos, Buzzer.takeUp_writePos]
    omega
  · simp
  · simpa using honTime
  · rw [Buzzer.sound_beepOffTime, Buzzer.takeUp_eq s.tick hwaits]
    rfl
  · simpa using hlt
  · dsimp only
    rw [Buzzer.sound_programmed, if_pos hlt, Buzzer.takeUp_isBeeping, hs.quiet hwaits]
    simp

/-- The poll that takes up a slot leaves it at once if its pause is over. -/
theorem TakesUp.poll_eq (h : TakesUp s t d) (hs : OnTimeInv s.buzzer) :
    buzzerPoll s.buzzer s.tick =
      if t ≤ d.pauseEnd t then (s.buzzer.takeUp s.tick).sound s.tick
      else ((s.buzzer.takeUp s.tick).sound s.tick).advance := by
  obtain ⟨rfl, ht, hwaits, hqueued, rfl⟩ := h
  have hoff : ((s.buzzer.takeUp s.tick).sound s.tick).beepOffTime =
      (s.buzzer.data s.buzzer.readPos).pauseEnd s.tick := by
    rw [Buzzer.sound_beepOffTime, Buzzer.takeUp_eq s.tick hwaits]
    rfl
  rw [buzzerPoll_eq hs.noAlarm ht (by omega), ← hoff]

/-- The pause of a slot that fits ends no sooner than the tick before the end of the tone. -/
theorem ToneFits.le_pauseEnd (h : ToneFits t d) :
    t.toNat + d.onTime.toNat ≤ (d.pauseEnd t).toNat + 1 := by
  obtain ⟨htone, hpause⟩ := h
  simp only [BuzzerData.pauseEnd, UInt32.toNat_add]
  omega

/-- The tick after it comes before the wrap. -/
theorem ToneFits.pauseEnd_lt (h : ToneFits t d) (hon : 0 < d.onTime.toNat) :
    (d.pauseEnd t).toNat + 1 < 2 ^ 32 := by
  obtain ⟨htone, hpause⟩ := h
  simp only [BuzzerData.pauseEnd, UInt32.toNat_add]
  omega

/-- The next poll comes in a later tick. -/
theorem one_le_ticks {pre post : List BuzzerCall} (h : PolledOnce true (pre ++ .poll :: post)) :
    1 ≤ buzzerTicks pre := by
  induction pre with
  | nil => simp [PolledOnce] at h
  | cons c pre ih =>
    cases c with
    | init => exact absurd h (by simp [PolledOnce])
    | immediate onTime => exact absurd h (by simp [PolledOnce])
    | tone d => simpa using ih (by simpa [PolledOnce] using h)
    | poll => simp [PolledOnce] at h
    | tick => simp

/-- The polls after the one that starts the tone. -/
theorem InSlot.plays {polled : Bool} {calls : List BuzzerCall} (h : InSlot t d n s)
    (hfits : ToneFits t d) (hn : n ≤ d.onTime.toNat)
    (hpolled : polled = true → n < d.onTime.toNat) (hcalls : PolledOnce polled calls)
    {pre post : List BuzzerCall} (heq : calls = pre ++ .poll :: post) :
    (n + buzzerTicks pre < d.onTime.toNat →
      (buzzerModule.run s (pre ++ [.poll])).buzzer.programmed = some d.tone) ∧
    (n + buzzerTicks pre = d.onTime.toNat →
      SilentOutput (buzzerModule.run s (pre ++ [.poll])).buzzer) := by
  have hpause := hfits.le_pauseEnd
  have htone := hfits.tone
  induction pre generalizing s n polled calls with
  | nil =>
    refine ⟨fun hlt => ?_, fun hend => ?_⟩
    · have hlt : n < d.onTime.toNat := by simpa using hlt
      exact (h.poll hlt (by omega)).programmed
    · exact h.poll_rest (by simpa using hend.ge)
  | cons c pre ih =>
    subst heq
    cases c with
    | init => exact absurd hcalls (by simp [PolledOnce])
    | immediate onTime => exact absurd hcalls (by simp [PolledOnce])
    | tone d' =>
      have hrest : PolledOnce polled (pre ++ .poll :: post) := by simpa [PolledOnce] using hcalls
      rw [buzzerTicks_tone]
      exact ih (h.tone d') hn hpolled hrest rfl
    | tick =>
      obtain ⟨hp, hrest⟩ : polled = true ∧ PolledOnce false (pre ++ .poll :: post) := by
        simpa [PolledOnce] using hcalls
      have hlt := hpolled hp
      have hnext := ih (h.succ (by omega)) hlt (by simp) hrest rfl
      rwa [buzzerTicks_tick, ← Nat.add_assoc, Nat.add_right_comm]
    | poll =>
      obtain ⟨-, hrest⟩ : polled = false ∧ PolledOnce true (pre ++ .poll :: post) := by
        simpa [PolledOnce] using hcalls
      rw [buzzerTicks_poll]
      by_cases hlt : n < d.onTime.toNat
      · exact ih (h.poll hlt (by omega)) hn (fun _ => hlt) hrest rfl
      · have hlate := one_le_ticks hrest
        exact ⟨fun h => by omega, fun h => by omega⟩

theorem StaysInSlot.first {calls : List BuzzerCall} {c : BuzzerCall}
    (h : StaysInSlot s (calls ++ [c])) : s.buzzer.interBeeping = true := by
  cases calls with
  | nil => exact h.1
  | cons c' calls => exact h.1

/-- The polls between the end of the tone and the end of the slot. -/
theorem SlotTimes.rests {polled : Bool} {pre post : List BuzzerCall} (h : SlotTimes t d n s)
    (hlast : (d.pauseEnd t).toNat + 1 < 2 ^ 32)
    (hpolled : polled = true → t.toNat + n ≤ (d.pauseEnd t).toNat)
    (hcalls : PolledOnce polled (pre ++ .poll :: post)) (hstays : StaysInSlot s (pre ++ [.poll]))
    (hend : d.onTime.toNat ≤ n + buzzerTicks pre) :
    SilentOutput (buzzerModule.run s (pre ++ [.poll])).buzzer := by
  induction pre generalizing s n polled with
  | nil => exact h.poll_rest (by simpa using hend)
  | cons c pre ih =>
    cases c with
    | init => exact absurd hcalls (by simp [PolledOnce])
    | immediate onTime => exact absurd hcalls (by simp [PolledOnce])
    | tone d' => exact ih (h.tone d') hpolled (by simpa [PolledOnce] using hcalls) hstays.2 hend
    | tick =>
      obtain ⟨hp, hrest⟩ : polled = true ∧ PolledOnce false (pre ++ .poll :: post) := by
        simpa [PolledOnce] using hcalls
      have hle := hpolled hp
      rw [buzzerTicks_tick] at hend
      exact ih (h.succ (by omega)) (by simp) hrest hstays.2 (by omega)
    | poll =>
      obtain ⟨-, hrest⟩ : polled = false ∧ PolledOnce true (pre ++ .poll :: post) := by
        simpa [PolledOnce] using hcalls
      rw [buzzerTicks_poll] at hend
      by_cases hle : t.toNat + n ≤ (d.pauseEnd t).toNat
      · exact ih (h.poll hle) (fun _ => hle) hrest hstays.2 hend
      · -- this poll leaves the slot
        have hleaves : (buzzerPoll s.buzzer s.tick).interBeeping = false := by
          rw [h.poll_eq, if_neg hle]
          exact (s.buzzer.sound s.tick).advance_frame.2.2.2
        have hin : StaysInSlot ⟨buzzerPoll s.buzzer s.tick, s.tick⟩ (pre ++ [.poll]) := hstays.2
        exact absurd (hin.first.symm.trans hleaves) (by simp)

end InSlot

/-- A tone that fits is played out. -/
theorem tonesPlayOut_of_fits {t : UInt32} {d : BuzzerData} (hon : 0 < d.onTime.toNat)
    (hfits : t ≠ 0 → ToneFits t d) : TonesPlayOut t d := by
  intro tick pre rest hcalls halong htakes
  have hplain := plain_of_polledOnce hcalls
  have hinv := onTimeInv_run buzzerPowerUp_onTimeInv (fun c hc => hplain c (by simp [hc])) halong
  obtain ⟨-, polled, hrest⟩ := polledOnce_append hcalls
  have ht := htakes.tick_ne_zero
  have hslot := htakes.inSlot hinv hon (hfits ht).tone
  have hpause := (hfits ht).le_pauseEnd
  have hstays : t ≤ d.pauseEnd t := by
    rw [UInt32.le_iff_toNat_le]
    omega
  have hpoll := htakes.poll_eq hinv
  rw [if_pos hstays] at hpoll
  rw [← hpoll] at hslot
  have hplays {pre' post' : List BuzzerCall} (heq : rest = pre' ++ .poll :: post') :=
    hslot.plays (hfits ht) (Nat.zero_le _) (fun _ => hon) hrest.2 heq
  refine ⟨hinv.silent (hinv.quiet htakes.waits), fun pre' post' heq hlt => ?_,
    fun pre' post' heq hend => ?_, fun pre' post' heq hend hin => ?_⟩
  · cases pre' with
    | nil => exact hslot.programmed
    | cons c pre' =>
      obtain ⟨rfl, hafter⟩ := List.cons.inj heq
      exact (hplays hafter).1 (by simpa using hlt)
  · cases pre' with
    | nil => simp at hend; omega
    | cons c pre' =>
      obtain ⟨rfl, hafter⟩ := List.cons.inj heq
      exact (hplays hafter).2 (by simpa using hend)
  · have hrest' : PolledOnce true (pre' ++ .poll :: post') := heq ▸ hrest.2
    exact hslot.toSlotTimes.rests ((hfits ht).pauseEnd_lt hon) (fun _ => by omega) hrest' hin
      (by omega)

/-! ## Slots that do not fit -/

/-- Ticks with a poll in each, after a poll. -/
def eachTick : ℕ → List BuzzerCall
  | 0 => []
  | n + 1 => eachTick n ++ [.tick, .poll]

theorem polledOnce_eachTick (n : ℕ) (rest : List BuzzerCall) :
    PolledOnce true (eachTick n ++ rest) ↔ PolledOnce true rest := by
  induction n generalizing rest with
  | zero => rfl
  | succ n ih => simp [eachTick, ih, PolledOnce]

@[simp] theorem buzzerTicks_eachTick (n : ℕ) : buzzerTicks (eachTick n) = n := by
  induction n with
  | zero => rfl
  | succ n ih =>
    rw [eachTick, buzzerTicks_append, ih]
    rfl

/-- The reader has just left a slot of `s`, with the tone of it still on, `n` ticks after it was
taken up. -/
structure LeftSounding (s : BuzzerModule) (t : UInt32) (d : BuzzerData) (n : ℕ)
    (s' : BuzzerModule) : Prop where
  tick : s'.tick.toNat = t.toNat + n
  noAlarm : s'.buzzer.immediateEndTime = 0
  waits : s'.buzzer.interBeeping = false
  beeping : s'.buzzer.isBeeping = true
  programmed : s'.buzzer.programmed = some d.tone
  data : s'.buzzer.data = s.buzzer.data
  next : (h : s.buzzer.readPos + 1 < maxBuzzerDataSize) →
    s'.buzzer.readPos = ⟨s.buzzer.readPos + 1, h⟩ ∧ s'.buzzer.writePos ≠ 0
  last : s.buzzer.readPos + 1 = maxBuzzerDataSize → s'.buzzer.writePos = 0

section LeftSounding

variable {s : BuzzerModule} {t : UInt32} {d : BuzzerData}

/-- When the reader leaves a slot whose pause wraps. -/
def earlyTicks (t : UInt32) (d : BuzzerData) : ℕ :=
  (d.pauseEnd t).toNat + 1 - t.toNat

theorem InSlot.advance {n : ℕ} {b : Buzzer} {tick : UInt32} (h : InSlot t d n ⟨b, tick⟩)
    (hframe : b.data = s.buzzer.data ∧ b.readPos = s.buzzer.readPos) :
    LeftSounding s t d n ⟨b.advance, tick⟩ := by
  obtain ⟨hprogrammed, hbeeping, himmediate, hinter⟩ := b.advance_frame
  refine ⟨h.tick, himmediate.trans h.noAlarm, hinter, hbeeping.trans h.beeping,
    hprogrammed.trans h.programmed, ?_, fun hnext => ?_, fun hlast => ?_⟩
  · rw [b.advance_eq]
    exact hframe.1
  · have hnext' : b.readPos + 1 < maxBuzzerDataSize := by rwa [hframe.2]
    have hqueued := h.queued
    simp only [Buzzer.advance, hnext', dif_pos]
    exact ⟨by simp [hframe.2], hqueued⟩
  · have hlast' : ¬ b.readPos + 1 < maxBuzzerDataSize := by
      rw [hframe.2]
      omega
    simp only [Buzzer.advance, hlast', dif_neg, not_false_eq_true]

/-- As long as the pause lasts, polls change nothing. -/
theorem InSlot.eachTick (h : InSlot t d 0 s) (htone : t.toNat + d.onTime.toNat < 2 ^ 32) {n : ℕ}
    (hn : n < d.onTime.toNat) (hle : t.toNat + n ≤ (d.pauseEnd t).toNat) :
    InSlot t d n (buzzerModule.run s (eachTick n)) ∧
      (buzzerModule.run s (eachTick n)).buzzer = s.buzzer := by
  induction n with
  | zero => exact ⟨h, rfl⟩
  | succ n ih =>
    obtain ⟨hat, hsame⟩ := ih (by omega) (by omega)
    have hsucc := hat.succ (by omega)
    have hpoll := hsucc.poll_eq hn
    rw [if_pos hle] at hpoll
    rw [Gd32Firmware.eachTick, Machine.run_append]
    refine ⟨hsucc.poll hn hle, ?_⟩
    exact hpoll.trans hsame

/-- A slot whose pause ends more than a tick before its tone is left while the tone is on. -/
theorem TakesUp.leftSounding (h : TakesUp s t d) (hs : OnTimeInv s.buzzer)
    (hon : 0 < d.onTime.toNat) (htone : t.toNat + d.onTime.toNat < 2 ^ 32)
    (hearly : (d.pauseEnd t).toNat + 1 < t.toNat + d.onTime.toNat) :
    LeftSounding s t d (earlyTicks t d)
      (buzzerModule.run s (.poll :: eachTick (earlyTicks t d))) := by
  have hslot := h.inSlot hs hon htone
  have hpoll := h.poll_eq hs
  set b := (s.buzzer.takeUp s.tick).sound s.tick
  have hframe : b.data = s.buzzer.data ∧ b.readPos = s.buzzer.readPos := by
    refine ⟨by simp [b], ?_⟩
    simp only [b]
    rw [Buzzer.sound_eq, Buzzer.takeUp_readPos]
  by_cases hle : t ≤ d.pauseEnd t
  · rw [if_pos hle] at hpoll
    rw [UInt32.le_iff_toNat_le] at hle
    obtain ⟨n, hn⟩ : ∃ n, earlyTicks t d = n + 1 :=
      ⟨(d.pauseEnd t).toNat - t.toNat, by unfold earlyTicks; omega⟩
    have hlast : t.toNat + n = (d.pauseEnd t).toNat := by
      unfold earlyTicks at hn
      omega
    obtain ⟨hat, hsame⟩ := hslot.eachTick htone (n := n) (by omega) hlast.le
    have hsucc := hat.succ (by omega)
    have hnext := hsucc.poll_eq (by omega)
    rw [if_neg (by omega)] at hnext
    dsimp only at hnext
    have hrun : buzzerModule.run s (.poll :: eachTick (n + 1)) =
        ⟨(buzzerModule.run { s with buzzer := b } (eachTick n)).buzzer.advance,
          (buzzerModule.run { s with buzzer := b } (eachTick n)).tick + 1⟩ := by
      rw [eachTick, Machine.run_cons, Machine.run_append, ← hnext, ← hpoll]
      rfl
    rw [hn, hrun]
    exact hsucc.advance (by rw [hsame]; exact hframe)
  · have hzero : earlyTicks t d = 0 := by
      rw [UInt32.le_iff_toNat_le] at hle
      unfold earlyTicks
      omega
    rw [if_neg hle] at hpoll
    have hrun : buzzerModule.run s (.poll :: eachTick 0) = ⟨b.advance, s.tick⟩ := by
      rw [← hpoll]
      rfl
    rw [hzero, hrun]
    exact hslot.advance hframe

/-- What a poll programs. -/
theorem buzzerPoll_programmed {b : Buzzer} (himm : b.immediateEndTime = 0) (ht : t ≠ 0)
    (hwrite : b.writePos ≠ 0) :
    (buzzerPoll b t).programmed =
      if t < (b.takeUp t).beepOnTime then
        if b.isBeeping then b.programmed else some (b.data b.readPos).tone
      else some (0, 0) := by
  have htake : (b.takeUp t).programmed = b.programmed := by
    rw [Buzzer.takeUp_frame]
    rfl
  have hsound := (b.takeUp t).sound_programmed t
  rw [Buzzer.takeUp_isBeeping, Buzzer.takeUp_data, Buzzer.takeUp_readPos, htake] at hsound
  rw [buzzerPoll_eq himm ht hwrite, ← hsound]
  dsimp only
  split_ifs
  · rfl
  · exact ((b.takeUp t).sound t).advance_frame.1

variable {n : ℕ} {s' : BuzzerModule} (h : LeftSounding s t d n s')
include h

theorem LeftSounding.succ (hlt : t.toNat + n + 1 < 2 ^ 32) :
    (s'.tick + 1).toNat = t.toNat + n + 1 ∧ s'.tick + 1 ≠ 0 := by
  have hlt' : s'.tick.toNat + 1 < 2 ^ 32 := by rwa [h.tick]
  exact ⟨by rw [tick_succ hlt', h.tick], tick_succ_ne_zero hlt'⟩

/-- After the last slot nothing is played, and the tone stays on. -/
theorem LeftSounding.poll_last (hlast : s.buzzer.readPos + 1 = maxBuzzerDataSize) :
    (buzzerModule.run s' [.tick, .poll]).buzzer.programmed = some d.tone := by
  have hidle : buzzerPoll s'.buzzer (s'.tick + 1) = s'.buzzer :=
    buzzerPoll_idle h.noAlarm (.inr (h.last hlast))
  exact (congrArg Buzzer.programmed hidle).trans h.programmed

/-- A slot without a tone cuts it short, and one with a tone lengthens it. -/
theorem LeftSounding.poll_next (hlt : t.toNat + n + 1 < 2 ^ 32)
    (hnext : s.buzzer.readPos + 1 < maxBuzzerDataSize) :
    (buzzerModule.run s' [.tick, .poll]).buzzer.programmed =
      if s'.tick + 1 < (s.buzzer.data ⟨s.buzzer.readPos + 1, hnext⟩).onTime + (s'.tick + 1) then
        some d.tone
      else some (0, 0) := by
  obtain ⟨hread, hwrite⟩ := h.next hnext
  have hpoll := buzzerPoll_programmed h.noAlarm (h.succ hlt).2 hwrite
  rw [Buzzer.takeUp_eq _ h.waits, hread, h.data, if_pos h.beeping, h.programmed] at hpoll
  exact hpoll

end LeftSounding

/-- As long as the pause lasts, the reader stays in the slot. -/
theorem SlotTimes.stays {s : BuzzerModule} {t : UInt32} {d : BuzzerData} {n : ℕ}
    (h : SlotTimes t d 0 s) (hle : t.toNat + n ≤ (d.pauseEnd t).toNat) :
    let s' := buzzerModule.run s (eachTick n)
    StaysInSlot s (eachTick n) ∧ SlotTimes t d n s' ∧
      s'.buzzer.data = s.buzzer.data ∧ s'.buzzer.readPos = s.buzzer.readPos ∧
      (0 < n → s'.buzzer.isBeeping = decide (n < d.onTime.toNat)) := by
  induction n with
  | zero => exact ⟨trivial, h, rfl, rfl, fun hpos => absurd hpos (Nat.lt_irrefl 0)⟩
  | succ n ih =>
    obtain ⟨hstays, hat, hdata, hread, -⟩ := ih (by omega)
    have hsucc := hat.succ ((Nat.add_assoc _ _ _ ▸ hle).trans_lt (d.pauseEnd t).toNat_lt)
    have hpoll := hsucc.poll_eq
    rw [if_pos hle] at hpoll
    refine ⟨?_, ?_, ?_, ?_, fun _ => ?_⟩
    · rw [StaysInSlot, eachTick, Machine.along_append]
      exact ⟨hstays, hat.inter, hat.inter, trivial⟩
    all_goals rw [eachTick, Machine.run_append]
    · exact hsucc.poll hle
    · exact ((congrArg Buzzer.data hpoll).trans (Buzzer.sound_data _ _)).trans hdata
    · refine ((congrArg Buzzer.readPos hpoll).trans ?_).trans hread
      rw [Buzzer.sound_eq]
    · refine (congrArg Buzzer.isBeeping hpoll).trans ?_
      rw [Buzzer.sound_isBeeping]
      exact decide_eq_decide.2 hsucc.tick_lt_iff

section Wrap

variable {s : BuzzerModule} {t : UInt32} {d : BuzzerData} {n : ℕ} (h : SlotTimes t d n s)
  (hn : t.toNat + n = 2 ^ 32 - 1)
include h hn

/-- The poll in the tick 0 does nothing. -/
theorem SlotTimes.poll_zero : s.tick + 1 = 0 ∧ buzzerPoll s.buzzer (s.tick + 1) = s.buzzer := by
  have hzero : s.tick + 1 = 0 := by
    rw [← UInt32.toNat_inj, UInt32.toNat_add, h.tick, hn]
    rfl
  rw [hzero]
  exact ⟨rfl, buzzerPoll_idle h.noAlarm (.inl rfl)⟩

theorem SlotTimes.stays_wrap : StaysInSlot s [.tick, .poll, .tick, .poll] := by
  have hsame : (buzzerPoll s.buzzer (s.tick + 1)).interBeeping = true := by
    rw [(h.poll_zero hn).2]
    exact h.inter
  exact ⟨h.inter, h.inter, hsame, hsame, trivial⟩

/-- The next one finds the end of the tone before it, and programs it again. -/
theorem SlotTimes.poll_wrap (hlate : 1 < t.toNat + d.onTime.toNat)
    (hquiet : s.buzzer.isBeeping = false) :
    (buzzerModule.run s [.tick, .poll, .tick, .poll]).buzzer.programmed =
      some (s.buzzer.data s.buzzer.readPos).tone := by
  obtain ⟨hzero, hidle⟩ := h.poll_zero hn
  have htake : s.buzzer.takeUp 1 = s.buzzer := by simp [Buzzer.takeUp, h.inter]
  have hlt : 1 < s.buzzer.beepOnTime := by
    rw [UInt32.lt_iff_toNat_lt, h.onTime]
    exact hlate
  have hpoll := buzzerPoll_programmed h.noAlarm (by decide : (1 : UInt32) ≠ 0) h.queued
  rw [htake, if_pos hlt, hquiet, if_neg Bool.false_ne_true] at hpoll
  change (buzzerPoll (buzzerPoll s.buzzer (s.tick + 1)) (s.tick + 1 + 1)).programmed = _
  rw [hidle, hzero]
  exact hpoll

end Wrap

/-- A slot whose pause ends with the last tick before the wrap is not left then, and its tone
comes on again. -/
theorem SlotTimes.wraps {s : BuzzerModule} {t : UInt32} {d : BuzzerData} (h : SlotTimes t d 0 s)
    (ht : t ≠ 0) (hslot : s.buzzer.data s.buzzer.readPos = d) (hon : 0 < d.onTime.toNat)
    (htone : t.toNat + d.onTime.toNat < 2 ^ 32) (hlast : (d.pauseEnd t).toNat + 1 = 2 ^ 32) :
    ∃ n, d.onTime.toNat ≤ n ∧ StaysInSlot s ((eachTick n ++ [.tick]) ++ [.poll]) ∧
      (buzzerModule.run s ((eachTick n ++ [.tick]) ++ [.poll])).buzzer.programmed =
        some d.tone := by
  have hpos : 0 < t.toNat := UInt32.lt_iff_toNat_lt.1 (UInt32.pos_iff_ne_zero.2 ht)
  obtain ⟨n, hn⟩ : ∃ n, t.toNat + n = 2 ^ 32 - 1 := ⟨2 ^ 32 - 1 - t.toNat, by omega⟩
  obtain ⟨hstays, hat, hdata, hread, hbeeping⟩ := h.stays (n := n) (by omega)
  have hquiet := hbeeping (by omega)
  rw [decide_eq_false (by omega)] at hquiet
  have hsplit : (eachTick (n + 1) ++ [.tick]) ++ [.poll] =
      eachTick n ++ [.tick, .poll, .tick, .poll] := by simp [eachTick]
  refine ⟨n + 1, by omega, ?_, ?_⟩
  · rw [hsplit, StaysInSlot, Machine.along_append]
    exact ⟨hstays, hat.stays_wrap hn⟩
  · rw [hsplit, Machine.run_append]
    refine (hat.poll_wrap hn (by omega) hquiet).trans ?_
    rw [hread, hdata, hslot]

/-- What playing the tone out means for the poll after the reader has left the slot. -/
theorem PlaysOut.next {s : BuzzerModule} {d : BuzzerData} {n : ℕ}
    (h : PlaysOut s d (eachTick (n + 1))) :
    (n + 1 < d.onTime.toNat →
      (buzzerModule.run (buzzerModule.run s (.poll :: eachTick n))
        [.tick, .poll]).buzzer.programmed = some d.tone) ∧
    (n + 1 = d.onTime.toNat →
      SilentOutput
        (buzzerModule.run (buzzerModule.run s (.poll :: eachTick n)) [.tick, .poll]).buzzer) := by
  have hsplit : .poll :: eachTick (n + 1) = (.poll :: eachTick n ++ [.tick]) ++ .poll :: [] := by
    simp [eachTick]
  have hticks : buzzerTicks (.poll :: eachTick n ++ [.tick]) = n + 1 := by simp
  have hrun : buzzerModule.run (buzzerModule.run s (.poll :: eachTick n)) [.tick, .poll] =
      buzzerModule.run s ((.poll :: eachTick n ++ [.tick]) ++ [.poll]) := by
    rw [← Machine.run_append]
    simp
  rw [hrun]
  exact ⟨fun hlt => h.sounds _ _ hsplit (hticks.trans_lt hlt),
    fun hend => h.stops _ _ hsplit (hticks.trans hend)⟩

/-! ## Runs that reach such a slot -/

/-- Tones queued at power-up. -/
theorem run_tones (tick : UInt32) (ds : List BuzzerData) (hlen : ds.length ≤ maxBuzzerDataSize) :
    ∃ data, buzzerModule.run ⟨buzzerPowerUp, tick⟩ (ds.map .tone) =
        ⟨{ buzzerPowerUp with data := data, writePos := ds.length }, tick⟩ ∧
      ∀ i : Fin maxBuzzerDataSize, data i = ds.getD i ⟨0, 0, 0, 0⟩ := by
  induction ds using List.reverseRecOn with
  | nil => exact ⟨buzzerPowerUp.data, rfl, fun i => rfl⟩
  | append_singleton ds d ih =>
    rw [List.length_append, List.length_singleton] at hlen
    obtain ⟨data, hrun, hdata⟩ := ih (by omega)
    have hroom : ds.length < maxBuzzerDataSize := by omega
    refine ⟨Function.update data ⟨ds.length, hroom⟩ d, ?_, fun i => ?_⟩
    · rw [List.map_append, List.map_singleton, Machine.run_concat, hrun]
      simp [buzzerModule, buzzerBeepTone, hroom]
    · rw [Function.update_apply, hdata]
      rcases lt_trichotomy (i : ℕ) ds.length with hlt | heq | hgt
      · rw [if_neg fun h => hlt.ne (congrArg Fin.val h), List.getD_append _ _ _ _ hlt]
      · rw [if_pos (Fin.ext heq), List.getD_append_right _ _ _ _ heq.ge, heq]
        simp
      · rw [if_neg fun h => hgt.ne' (congrArg Fin.val h), List.getD_eq_default _ _ hgt.le,
          List.getD_eq_default _ _ (by rw [List.length_append, List.length_singleton]; omega)]

theorem along_tones (s : BuzzerModule) (ds : List BuzzerData) :
    buzzerModule.Along SlotFits s (ds.map .tone) := by
  induction ds generalizing s with
  | nil => trivial
  | cons d ds ih => exact ⟨trivial, ih _⟩

theorem polledOnce_tones (ds : List BuzzerData) (polled : Bool) (rest : List BuzzerCall) :
    PolledOnce polled (ds.map .tone ++ rest) ↔ PolledOnce polled rest := by
  induction ds with
  | nil => rfl
  | cons d ds ih => simpa [PolledOnce] using ih

/-- A slot that is left in the tick in which it is taken up. -/
def emptySlot : BuzzerData :=
  ⟨0, 0, 0, 0xFFFFFFFF⟩

theorem toneFits_emptySlot (t : UInt32) : ToneFits t emptySlot := by
  have ht := t.toNat_lt
  exact ⟨by simpa [emptySlot] using ht, .inr (by decide)⟩

/-- Polls that end a tick each. -/
def pollTicks : ℕ → List BuzzerCall
  | 0 => []
  | n + 1 => .poll :: .tick :: pollTicks n

theorem polledOnce_pollTicks (n : ℕ) (rest : List BuzzerCall) :
    PolledOnce false (pollTicks n ++ rest) ↔ PolledOnce false rest := by
  induction n with
  | zero => rfl
  | succ n ih => simpa [pollTicks, PolledOnce] using ih

/-- The reader goes on to the next slot. -/
theorem buzzerPoll_emptySlot {b : Buzzer} {t : UInt32} (himm : b.immediateEndTime = 0)
    (ht : t ≠ 0) (hwrite : b.writePos ≠ 0) (hwaits : b.interBeeping = false)
    (hslot : b.data b.readPos = emptySlot) (hnext : b.readPos + 1 < maxBuzzerDataSize) :
    ∃ sets onTime offTime, buzzerPoll b t =
      { b with
        readPos := ⟨b.readPos + 1, hnext⟩
        isBeeping := false
        beepOnTime := onTime
        beepOffTime := offTime
        interBeeping := false
        sets := sets } := by
  have hon : ¬ t < (b.takeUp t).beepOnTime := by
    rw [Buzzer.takeUp_eq t hwaits, hslot, UInt32.lt_iff_toNat_lt]
    simp [emptySlot]
  have hoff : ¬ t ≤ ((b.takeUp t).sound t).beepOffTime := by
    have hpos := UInt32.lt_iff_toNat_lt.1 (UInt32.pos_iff_ne_zero.2 ht)
    have hbound := t.toNat_lt
    rw [Buzzer.sound_beepOffTime, Buzzer.takeUp_eq t hwaits, hslot, UInt32.le_iff_toNat_le]
    simp only [emptySlot, UInt32.toNat_add, UInt32.reduceToNat] at hpos ⊢
    omega
  rw [buzzerPoll_eq himm ht hwrite]
  dsimp only
  rw [if_neg hoff, Buzzer.sound_eq, decide_eq_false hon, Buzzer.takeUp_eq t hwaits,
    Buzzer.advance, dif_pos hnext]
  exact ⟨_, _, _, rfl⟩

/-- The reader before a slot that it has not taken up, `n` slots and as many ticks after `s`. -/
structure SkipsTo (s : BuzzerModule) (n : ℕ) (s' : BuzzerModule) : Prop where
  tick : s'.tick.toNat = s.tick.toNat + n
  noAlarm : s'.buzzer.immediateEndTime = 0
  waits : s'.buzzer.interBeeping = false
  readPos : s'.buzzer.readPos = s.buzzer.readPos + n
  writePos : s'.buzzer.writePos = s.buzzer.writePos
  data : s'.buzzer.data = s.buzzer.data

theorem skipsTo_run {s : BuzzerModule} {n : ℕ} (himm : s.buzzer.immediateEndTime = 0)
    (hwrite : s.buzzer.writePos ≠ 0) (hwaits : s.buzzer.interBeeping = false)
    (htick : s.tick ≠ 0) (hlt : s.tick.toNat + n < 2 ^ 32)
    (hroom : s.buzzer.readPos + n < maxBuzzerDataSize)
    (hslots : ∀ i : Fin maxBuzzerDataSize, i < s.buzzer.readPos + n →
      s.buzzer.data i = emptySlot) :
    buzzerModule.Along SlotFits s (pollTicks n) ∧
      SkipsTo s n (buzzerModule.run s (pollTicks n)) := by
  induction n generalizing s with
  | zero => exact ⟨trivial, ⟨rfl, himm, hwaits, rfl, rfl, rfl⟩⟩
  | succ n ih =>
    have hslot := hslots s.buzzer.readPos (by omega)
    obtain ⟨sets, onTime, offTime, hpoll⟩ := buzzerPoll_emptySlot himm htick hwrite hwaits hslot
      (by omega)
    have hsucc : (s.tick + 1).toNat = s.tick.toNat + 1 := tick_succ (by omega)
    have hne : s.tick + 1 ≠ 0 := tick_succ_ne_zero (by omega)
    have hread : ((buzzerPoll s.buzzer s.tick).readPos : ℕ) = s.buzzer.readPos + 1 := by rw [hpoll]
    have hdata : (buzzerPoll s.buzzer s.tick).data = s.buzzer.data := by rw [hpoll]
    have hwrite' : (buzzerPoll s.buzzer s.tick).writePos = s.buzzer.writePos := by rw [hpoll]
    obtain ⟨halong, hskips⟩ := ih (s := ⟨buzzerPoll s.buzzer s.tick, s.tick + 1⟩)
      (by rw [hpoll]; exact himm) (hwrite' ▸ hwrite) (by rw [hpoll]) hne (by dsimp only; omega)
      (by dsimp only; omega) (fun i hi => by
        dsimp only at hi ⊢
        rw [hdata]
        exact hslots i (by omega))
    have htick' := hskips.tick
    have hread' := hskips.readPos
    dsimp only at htick' hread'
    refine ⟨⟨fun _ _ _ => hslot ▸ toneFits_emptySlot s.tick, trivial, halong⟩, ?_⟩
    exact ⟨htick'.trans (by omega), hskips.noAlarm, hskips.waits, hread'.trans (by omega),
      hskips.writePos.trans hwrite', hskips.data.trans hdata⟩

/-- In some run the poll that takes up this tone at this tick finds the following slot as wanted. -/
theorem exists_takesUp {t : UInt32} (d d' : BuzzerData) (ht : t ≠ 0) :
    ∃ pre, (∀ rest, PolledOnce false (pre ++ rest) ↔ PolledOnce false rest) ∧
      buzzerModule.Along SlotFits ⟨buzzerPowerUp, t⟩ pre ∧
      let s := buzzerModule.run ⟨buzzerPowerUp, t⟩ pre
      TakesUp s t d ∧ ∃ hnext : s.buzzer.readPos + 1 < maxBuzzerDataSize,
        s.buzzer.data ⟨s.buzzer.readPos + 1, hnext⟩ = d' := by
  have hlen : [d, d'].length ≤ maxBuzzerDataSize := (by decide : 2 ≤ maxBuzzerDataSize)
  obtain ⟨data, hrun, hdata⟩ := run_tones t [d, d'] hlen
  refine ⟨[d, d'].map .tone, polledOnce_tones [d, d'] false, along_tones _ _, ?_⟩
  rw [hrun]
  exact ⟨⟨rfl, ht, rfl, by simp [buzzerPowerUp], hdata _⟩, (by decide : 0 + 1 < maxBuzzerDataSize),
    hdata _⟩

/-- So many ticks earlier. -/
theorem exists_tick_add {t : UInt32} {n : ℕ} (hn : n ≤ t.toNat) :
    ∃ tick : UInt32, tick.toNat + n = t.toNat := by
  refine ⟨UInt32.ofNat (t.toNat - n), ?_⟩
  rw [UInt32.toNat_ofNat_of_lt' ((Nat.sub_le _ _).trans_lt t.toNat_lt)]
  omega

/-- In some run it finds it in the last slot, late enough. -/
theorem exists_takesUp_last {t : UInt32} (d : BuzzerData) (ht : maxBuzzerDataSize ≤ t.toNat) :
    ∃ tick pre, (∀ rest, PolledOnce false (pre ++ rest) ↔ PolledOnce false rest) ∧
      buzzerModule.Along SlotFits ⟨buzzerPowerUp, tick⟩ pre ∧
      let s := buzzerModule.run ⟨buzzerPowerUp, tick⟩ pre
      TakesUp s t d ∧ s.buzzer.readPos + 1 = maxBuzzerDataSize := by
  set last := maxBuzzerDataSize - 1 with hlast
  have hmax : maxBuzzerDataSize = 20 := rfl
  set ds := List.replicate last emptySlot ++ [d]
  have hlen : ds.length = maxBuzzerDataSize := by simp [ds, hlast, hmax]
  obtain ⟨tick, htick⟩ := exists_tick_add (t := t) (n := last) (by omega)
  obtain ⟨data, hrun, hdata⟩ := run_tones tick ds hlen.le
  have hslots : ∀ i : Fin maxBuzzerDataSize, (i : ℕ) < last → data i = emptySlot := by
    intro i hi
    rw [hdata, List.getD_append _ _ _ _ (by simpa using hi), List.getD_replicate _ hi]
  have hslot : ∀ i : Fin maxBuzzerDataSize, (i : ℕ) = last → data i = d := by
    intro i hi
    rw [hdata, List.getD_append_right _ _ _ _ (by simp [hi]), hi]
    simp
  set s : BuzzerModule := ⟨{ buzzerPowerUp with data := data, writePos := ds.length }, tick⟩
  have hread : (s.buzzer.readPos : ℕ) = 0 := rfl
  have hwrite : s.buzzer.writePos = maxBuzzerDataSize := hlen
  have hne : s.tick ≠ 0 := by
    intro h0
    rw [show tick = 0 from h0, UInt32.toNat_zero] at htick
    omega
  have hlt : s.tick.toNat + last < 2 ^ 32 := by
    have hbound := t.toNat_lt
    change tick.toNat + last < 2 ^ 32
    omega
  obtain ⟨halong, hskips⟩ := skipsTo_run (n := last) (s := s) rfl (by omega) rfl hne hlt
    (by omega) (fun i hi => hslots i (by omega))
  have hend := hskips.readPos
  refine ⟨tick, ds.map .tone ++ pollTicks last, fun rest => ?_, ?_, ?_⟩
  · rw [List.append_assoc, polledOnce_tones, polledOnce_pollTicks]
  · rw [Machine.along_append, hrun]
    exact ⟨along_tones _ _, halong⟩
  · rw [Machine.run_append, hrun]
    refine ⟨⟨?_, ?_, hskips.waits, ?_, ?_⟩, by omega⟩
    · rw [← UInt32.toNat_inj, hskips.tick]
      change tick.toNat + last = t.toNat
      omega
    · rintro rfl
      simp [hmax] at ht
    · rw [hskips.writePos]
      omega
    · rw [hskips.data]
      exact hslot _ (by omega)

/-- What playing out in every run says about one of them. -/
theorem TonesPlayOut.playsOut {t tick : UInt32} {d : BuzzerData} {pre : List BuzzerCall}
    (h : TonesPlayOut t d)
    (hpolled : ∀ rest, PolledOnce false (pre ++ rest) ↔ PolledOnce false rest)
    (halong : buzzerModule.Along SlotFits ⟨buzzerPowerUp, tick⟩ pre)
    (htakes : TakesUp (buzzerModule.run ⟨buzzerPowerUp, tick⟩ pre) t d) (n : ℕ) :
    OnTimeInv (buzzerModule.run ⟨buzzerPowerUp, tick⟩ pre).buzzer ∧
      PlaysOut (buzzerModule.run ⟨buzzerPowerUp, tick⟩ pre) d (eachTick n) := by
  have hcalls : PolledOnce false (pre ++ .poll :: eachTick n) := by
    have heach := (polledOnce_eachTick n []).2 trivial
    rw [List.append_nil] at heach
    exact (hpolled _).2 ⟨rfl, heach⟩
  have hplain := plain_of_polledOnce hcalls
  exact ⟨onTimeInv_run buzzerPowerUp_onTimeInv (fun c hc => hplain c (by simp [hc])) halong,
    h tick pre _ hcalls halong htakes⟩

theorem lt_one_add {x : UInt32} (h : x.toNat + 1 < 2 ^ 32) : x < 1 + x := by
  rw [UInt32.lt_iff_toNat_lt, UInt32.add_comm, tick_succ h]
  exact Nat.lt_succ_self _

/-- A tone whose end wraps is silent at once. -/
theorem TonesPlayOut.tone_fits {t : UInt32} {d : BuzzerData} (h : TonesPlayOut t d) (ht : t ≠ 0)
    (hzero : d.tone ≠ (0, 0)) (hpos : 0 < d.onTime.toNat) :
    t.toNat + d.onTime.toNat < 2 ^ 32 := by
  by_contra hwraps
  obtain ⟨pre, hpolled, halong, htakes, -⟩ := exists_takesUp d emptySlot ht
  obtain ⟨hinv, hplays⟩ := h.playsOut hpolled halong htakes 0
  have hsounds := hplays.sounds [] [] rfl hpos
  generalize buzzerModule.run ⟨buzzerPowerUp, t⟩ pre = s at htakes hinv hsounds
  obtain ⟨rfl, -, hwaits, hqueued, rfl⟩ := htakes
  have hpoll := buzzerPoll_programmed hinv.noAlarm ht (by omega)
  have hnot : ¬ s.tick < (s.buzzer.takeUp s.tick).beepOnTime := by
    have hon := (s.buzzer.data s.buzzer.readPos).onTime.toNat_lt
    rw [Buzzer.takeUp_eq s.tick hwaits, UInt32.lt_iff_toNat_lt]
    simp only [UInt32.toNat_add]
    omega
  rw [if_neg hnot] at hpoll
  have hsilent : some (0, 0) = some (s.buzzer.data s.buzzer.readPos).tone :=
    hpoll.symm.trans hsounds
  exact hzero (Option.some.inj hsilent).symm

/-- A tone whose slot lasts beyond the wrap sounds again. -/
theorem TonesPlayOut.pauseEnd_ne {t : UInt32} {d : BuzzerData} (h : TonesPlayOut t d) (ht : t ≠ 0)
    (hd : Hearable d.tone) (hpos : 0 < d.onTime.toNat)
    (htone : t.toNat + d.onTime.toNat < 2 ^ 32) : (d.pauseEnd t).toNat + 1 ≠ 2 ^ 32 := by
  intro hlast
  obtain ⟨pre, hpolled, halong, htakes, -⟩ := exists_takesUp d emptySlot ht
  have hinv := (h.playsOut hpolled halong htakes 0).1
  have hplays (n : ℕ) := (h.playsOut hpolled halong htakes n).2
  generalize buzzerModule.run ⟨buzzerPowerUp, t⟩ pre = s at htakes hinv hplays
  have hslot := htakes.inSlot hinv hpos htone
  have hpoll := htakes.poll_eq hinv
  rw [if_pos (by rw [UInt32.le_iff_toNat_le]; omega)] at hpoll
  have hdata : (buzzerPoll s.buzzer s.tick).data (buzzerPoll s.buzzer s.tick).readPos = d := by
    rw [hpoll, Buzzer.sound_data, Buzzer.sound_eq, Buzzer.takeUp_data, Buzzer.takeUp_readPos]
    exact htakes.slot
  rw [← hpoll] at hslot
  obtain ⟨n, hn, hstays, hsounds⟩ := hslot.toSlotTimes.wraps ht hdata hpos htone hlast
  have hcalls : eachTick (n + 1) = (eachTick n ++ [.tick]) ++ .poll :: [] := by simp [eachTick]
  have hsilent := (hplays (n + 1)).rests _ _ hcalls (by simp; omega) hstays
  exact hsilent _ hsounds hd

/-- A tone that does not fit is not played out in every run. -/
theorem fits_of_tonesPlayOut {t : UInt32} {d : BuzzerData} (hd : Hearable d.tone)
    (hon : OnTimeRange d.onTime) (h : TonesPlayOut t d) (ht : t ≠ 0) : ToneFits t d := by
  obtain ⟨hpos, hrange⟩ := hon
  have hzero : d.tone ≠ (0, 0) := by
    intro h0
    rw [h0] at hd
    exact absurd hd (by decide)
  have htone := h.tone_fits ht hzero hpos
  have hwraps := h.pauseEnd_ne ht hd hpos htone
  by_contra hfits
  have hearly : (d.pauseEnd t).toNat + 1 < t.toNat + d.onTime.toNat := by
    have hpause : ¬ (t.toNat + d.onTime.toNat + d.offTime.toNat + 1 < 2 ^ 32 ∨
        d.offTime.toNat = 2 ^ 32 - 1) := fun hpause => hfits ⟨htone, hpause⟩
    have hoff := d.offTime.toNat_lt
    simp only [BuzzerData.pauseEnd, UInt32.toNat_add] at hwraps ⊢
    omega
  have hn : earlyTicks t d + 1 ≤ d.onTime.toNat := by
    unfold earlyTicks
    omega
  obtain hlt | heq : earlyTicks t d + 1 < d.onTime.toNat ∨ earlyTicks t d + 1 = d.onTime.toNat := by
    omega
  · -- an empty slot cuts the tone short
    obtain ⟨pre, hpolled, halong, htakes, hnext, hslot⟩ := exists_takesUp d emptySlot ht
    obtain ⟨hinv, hplays⟩ := h.playsOut hpolled halong htakes (earlyTicks t d + 1)
    have hleft := htakes.leftSounding hinv hpos htone hearly
    have hpoll := hleft.poll_next (by omega) hnext
    rw [hslot, if_neg (by simp [emptySlot])] at hpoll
    exact hzero (Option.some.inj ((hplays.next.1 hlt).symm.trans hpoll))
  · have hheard {b : Buzzer} (hsilent : SilentOutput b) : b.programmed ≠ some d.tone :=
      fun hprogrammed => hsilent _ hprogrammed hd
    by_cases hwraps : t.toNat + d.onTime.toNat + 1 < 2 ^ 32
    · -- a slot with a tone lengthens it
      obtain ⟨pre, hpolled, halong, htakes, hnext, hslot⟩ := exists_takesUp d ⟨0, 0, 1, 0⟩ ht
      obtain ⟨hinv, hplays⟩ := h.playsOut hpolled halong htakes (earlyTicks t d + 1)
      have hleft := htakes.leftSounding hinv hpos htone hearly
      have hpoll := hleft.poll_next (by omega) hnext
      have hsucc := (hleft.succ (by omega)).1
      have hone := congrArg BuzzerData.onTime hslot
      dsimp only at hone
      rw [hone, if_pos (lt_one_add (by omega))] at hpoll
      exact hheard (hplays.next.2 heq) hpoll
    · -- after the last slot nothing ends it
      have hmax : maxBuzzerDataSize = 20 := rfl
      obtain ⟨tick, pre, hpolled, halong, htakes, hlast⟩ :=
        exists_takesUp_last d (t := t) (by omega)
      obtain ⟨hinv, hplays⟩ := h.playsOut hpolled halong htakes (earlyTicks t d + 1)
      have hleft := htakes.leftSounding hinv hpos htone hearly
      exact hheard (hplays.next.2 heq) (hleft.poll_last hlast)

/-! ## Alarms -/

/-- A run that is polled once in every tick takes no more ticks than up to the one after its last
poll. -/
theorem ticks_le_of_polledOnce {polled : Bool} {calls : List BuzzerCall} {n last : ℕ}
    (hcalls : PolledOnce polled calls) (hn : n ≤ last + 1) (hpolled : polled = true → n ≤ last)
    (hup : ∀ pre post, calls = pre ++ .poll :: post → n + buzzerTicks pre ≤ last) :
    n + buzzerTicks calls ≤ last + 1 := by
  induction calls generalizing n polled with
  | nil => exact hn
  | cons c calls ih =>
    cases c with
    | init => exact absurd hcalls (by simp [PolledOnce])
    | immediate onTime => exact absurd hcalls (by simp [PolledOnce])
    | tone d =>
      rw [buzzerTicks_tone]
      refine ih (by simpa [PolledOnce] using hcalls) hn hpolled fun pre post heq => ?_
      rw [← buzzerTicks_tone d]
      exact hup (.tone d :: pre) post (by rw [heq]; rfl)
    | poll =>
      have hnow : n ≤ last := hup [] calls rfl
      rw [buzzerTicks_poll]
      refine ih hcalls.2 hn (fun _ => hnow) fun pre post heq => ?_
      rw [← buzzerTicks_poll]
      exact hup (.poll :: pre) post (by rw [heq]; rfl)
    | tick =>
      have hcount (calls) : n + buzzerTicks (.tick :: calls) = n + 1 + buzzerTicks calls := by
        rw [buzzerTicks_tick]
        omega
      have hnow := hpolled hcalls.1
      rw [hcount]
      refine ih hcalls.2 (by omega) (by simp) fun pre post heq => ?_
      rw [← hcount]
      exact hup (.tick :: pre) post (by rw [heq]; rfl)

/-- An alarm whose end comes at least a tick before the wrap rings out. -/
theorem alarmsRing_of_fits {t onTime : UInt32} (hpos : 0 < onTime.toNat)
    (hfits : t.toNat + onTime.toNat + 1 < 2 ^ 32) : AlarmsRing t onTime false := by
  intro b hsilent hbeeping polled calls hcalls
  have hplain := plain_of_polledOnce hcalls
  have hend : t.toNat + onTime.toNat < 2 ^ 32 := by omega
  have hbefore {pre post : List BuzzerCall} (heq : calls = pre ++ .poll :: post) :
      ∀ c ∈ pre, c.Plain := fun c hc => hplain c (by simp [heq, hc])
  refine ⟨fun pre post heq hle => ?_, fun pre post heq hup hlate => ?_⟩
  · rw [programmed_alarm (s := ⟨b, t⟩) hend hpos (hbefore heq) hle]
    exact if_neg (by simp [hbeeping])
  · have hinv := alarmInv_run (s := ⟨b, t⟩) hend hpos (hbefore heq) hup
    rw [heq] at hcalls
    have hticks : 0 + buzzerTicks pre ≤ onTime.toNat + 1 :=
      ticks_le_of_polledOnce (polledOnce_append hcalls).1 (by omega) (fun _ => by omega)
        fun pre' post' heq' => by simpa using hup pre' post' heq'
    refine hinv.ends hend hpos ?_
    rw [← UInt32.not_le, hinv.tick_le_iff hend]
    dsimp only
    omega

/-- A poll that finds the flag set does not program the alarm. -/
theorem buzzerPoll_ne_alarm {b : Buzzer} {t : UInt32} (hbeeping : b.isBeeping = true)
    (hprogrammed : b.programmed ≠ some alarmTone)
    (hslot : (b.data b.readPos).tone ≠ alarmTone) :
    (buzzerPoll b t).programmed ≠ some alarmTone := by
  have hzero : ((0, 0) : UInt16 × UInt8) ≠ alarmTone := by decide
  by_cases hend : b.immediateEndTime = 0
  · by_cases hidle : t = 0 ∨ b.writePos = 0
    · rwa [buzzerPoll_idle hend hidle]
    · rw [not_or] at hidle
      rw [buzzerPoll_programmed hend hidle.1 hidle.2, if_pos hbeeping]
      split_ifs
      · exact hprogrammed
      · exact fun h => hzero (Option.some.inj h)
  · by_cases hle : t ≤ b.immediateEndTime
    · rwa [buzzerPoll_alarm hend hle, if_pos hbeeping]
    · have hlt := UInt32.not_le.1 hle
      have ht : t ≠ 0 := fun h0 => UInt32.not_lt_zero (h0 ▸ hlt)
      rw [buzzerPoll_alarmOver hend hlt, programmed_alarmOver ht, Buzzer.queueTone]
      split_ifs
      · exact fun h => hslot (Option.some.inj h)
      · exact fun h => hzero (Option.some.inj h)

/-- The module while a rest is due. -/
def restingBuzzer : Buzzer :=
  (buzzerModule.run ⟨buzzerPowerUp, 1⟩ [.tone ⟨0, 50, 10, 0⟩, .poll]).buzzer

/-- An alarm set off during a rest does not ring. -/
theorem not_alarmsRing_true (t onTime : UInt32) : ¬ AlarmsRing t onTime true := by
  intro h
  have hset : restingBuzzer.programmed = some (0, 50) := by decide +kernel
  have hsilent : SilentOutput restingBuzzer := silentOutput_of_programmed hset (by decide)
  have hrings := h restingBuzzer hsilent (by decide +kernel) false [.poll] ⟨rfl, trivial⟩
  refine buzzerPoll_ne_alarm (b := buzzerBeepImmediate restingBuzzer onTime t) (t := t) ?_ ?_ ?_
    (hrings.sounds [] [] rfl (Nat.zero_le _))
  · exact (by decide +kernel : restingBuzzer.isBeeping = true)
  · exact (by decide +kernel : restingBuzzer.programmed ≠ some alarmTone)
  · exact (by decide +kernel :
      (restingBuzzer.data restingBuzzer.readPos).tone ≠ alarmTone)

/-- An alarm whose end wraps does not ring, or is over at once. -/
theorem not_alarmsRing_of_wraps {t onTime : UInt32} (hwraps : 2 ^ 32 ≤ t.toNat + onTime.toNat) :
    ¬ AlarmsRing t onTime false := by
  intro h
  have hrings := h buzzerPowerUp (buzzerPowerUp_onTimeInv.silent rfl) rfl false [.poll]
    ⟨rfl, trivial⟩
  have hsounds : (buzzerPoll (buzzerBeepImmediate buzzerPowerUp onTime t) t).programmed =
      some alarmTone := hrings.sounds [] [] rfl (Nat.zero_le _)
  by_cases hend : onTime + t = 0
  · rw [buzzerPoll_idle hend (.inr rfl)] at hsounds
    exact absurd hsounds (by simp [buzzerBeepImmediate, Buzzer.programmed, buzzerPowerUp])
  · have hlt : onTime + t < t := by
      have hon := onTime.toNat_lt
      have ht := t.toNat_lt
      rw [UInt32.lt_iff_toNat_lt, UInt32.toNat_add]
      omega
    have ht : t ≠ 0 := fun h0 => UInt32.not_lt_zero (h0 ▸ hlt)
    rw [buzzerPoll_alarmOver hend hlt, programmed_alarmOver ht, Buzzer.queueTone,
      if_neg fun hqueued => hqueued.1 rfl] at hsounds
    exact absurd hsounds (by decide)

theorem upToEnd_tick {onTime : UInt32} {calls : List BuzzerCall} (h : UpToEnd onTime calls) :
    UpToEnd onTime (calls ++ [.tick]) := by
  intro pre post heq
  rcases List.eq_nil_or_concat post with rfl | ⟨post', c, rfl⟩
  · obtain ⟨-, hlast⟩ := List.append_inj' heq rfl
    simp at hlast
  · have heq' : calls ++ [.tick] = (pre ++ .poll :: post') ++ [c] := by simpa using heq
    exact h pre post' (List.append_inj' heq' rfl).1

/-- The last poll of such a run is the first one after the end tick. -/
theorem eachTick_upToEnd (onTime : UInt32) :
    let pre := .poll :: eachTick onTime.toNat ++ [.tick]
    buzzerTicks pre = onTime.toNat + 1 ∧ UpToEnd onTime pre := by
  have hticks : buzzerTicks (.poll :: eachTick onTime.toNat) = onTime.toNat := by simp
  refine ⟨?_, upToEnd_tick (upToEnd_of_le hticks.le)⟩
  rw [buzzerTicks_append, hticks]
  rfl

/-- An alarm that ends with the last tick before the wrap rings on after it. -/
theorem not_alarmsRing_of_last {t onTime : UInt32} (hpos : 0 < onTime.toNat)
    (hlast : t.toNat + onTime.toNat + 1 = 2 ^ 32) : ¬ AlarmsRing t onTime false := by
  intro h
  have hfits : t.toNat + onTime.toNat < 2 ^ 32 := by omega
  obtain ⟨hticks, hup⟩ := eachTick_upToEnd onTime
  have hcalls : PolledOnce false ((.poll :: eachTick onTime.toNat ++ [.tick]) ++ .poll :: []) := by
    have heach := (polledOnce_eachTick onTime.toNat [.tick, .poll]).2 (by simp [PolledOnce])
    simpa [PolledOnce] using heach
  have hrings := h buzzerPowerUp (buzzerPowerUp_onTimeInv.silent rfl) rfl false _ hcalls
  generalize .poll :: eachTick onTime.toNat ++ [.tick] = pre at hticks hup hcalls hrings
  have hplain := plain_of_polledOnce (polledOnce_append hcalls).1
  have hinv := alarmInv_run (s := ⟨buzzerPowerUp, t⟩) hfits hpos hplain hup
  have hle := (hinv.tick_le_iff hfits).2 (by
    rw [hticks]
    dsimp only
    omega)
  exact hinv.goesOn hfits hpos hle (hrings.ends pre [] rfl hup (by omega)).1

/-! ## The two together -/

/-- A tone that can be heard is played for its time in every run, exactly if its times fit the
counter; an alarm set off in silence rings for its time in every run, exactly if the flag says so
too and its end comes at least a tick before the wrap. -/
theorem buzzer_onTime (t : UInt32) :
    (∀ d : BuzzerData, Hearable d.tone → OnTimeRange d.onTime →
      (TonesPlayOut t d ↔ (t ≠ 0 → ToneFits t d))) ∧
    ∀ onTime isBeeping, OnTimeRange onTime →
      (AlarmsRing t onTime isBeeping ↔
        isBeeping = false ∧ t.toNat + onTime.toNat + 1 < 2 ^ 32) := by
  refine ⟨fun d hd hon => ?_, fun onTime isBeeping hon => ⟨fun h => ?_, ?_⟩⟩
  · exact ⟨fun h ht => fits_of_tonesPlayOut hd hon h ht, tonesPlayOut_of_fits hon.1⟩
  · cases isBeeping with
    | true => exact absurd h (not_alarmsRing_true t onTime)
    | false =>
      refine ⟨rfl, ?_⟩
      by_contra hwraps
      by_cases hlast : t.toNat + onTime.toNat + 1 = 2 ^ 32
      · exact not_alarmsRing_of_last hon.1 hlast h
      · exact not_alarmsRing_of_wraps (by omega) h
  · rintro ⟨rfl, hfits⟩
    exact alarmsRing_of_fits hon.1 hfits

/-- At the tick 1, for a tone and an alarm of ten ticks. -/
theorem buzzer_onTime_one :
    (TonesPlayOut 1 ⟨2000, 50, 10, 0⟩ ↔ ((1 : UInt32) ≠ 0 → ToneFits 1 ⟨2000, 50, 10, 0⟩)) ∧
      (AlarmsRing 1 10 false ↔
        false = false ∧ (1 : UInt32).toNat + (10 : UInt32).toNat + 1 < 2 ^ 32) :=
  ⟨(buzzer_onTime 1).1 ⟨2000, 50, 10, 0⟩ (by decide) ⟨by decide, by decide⟩,
    (buzzer_onTime 1).2 10 false ⟨by decide, by decide⟩⟩

/-- A tone of ten ticks that is taken up five ticks before the wrap is silent at once. -/
theorem not_playsOut_wrap :
    let s := buzzerModule.run ⟨buzzerPowerUp, 0xFFFFFFFB⟩ [.tone ⟨2000, 50, 10, 0⟩]
    TakesUp s 0xFFFFFFFB ⟨2000, 50, 10, 0⟩ ∧ ¬ PlaysOut s ⟨2000, 50, 10, 0⟩ [] := by
  refine ⟨⟨rfl, by decide, rfl, by decide, rfl⟩, fun h => ?_⟩
  exact absurd (h.sounds [] [] rfl (by decide)) (by decide +kernel)

end Gd32Firmware
