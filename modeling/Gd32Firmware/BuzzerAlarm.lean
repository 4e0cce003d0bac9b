import Gd32Firmware.Buzzer

/-!
# The immediate beep

`buzzer_beep_immediate` of `module/buzzer/buzzer.c` sets the tick at which an alarm ends.
`buzzer_poll` programs the output for it only if nothing beeps, and the flag that says so is
the one of the queue : an alarm that falls into a tone leaves the output as the tone has
programmed it, audible or not.

`buzzerBeepImmediate_iff` is about every state of the module and every run of polls, ticks and
queued tones after the call.
-/

namespace Gd32Firmware

def buzzerInit (b : Buzzer) : Buzzer :=
  { b with isBeeping := false, immediateEndTime := 0 }

def buzzerBeepImmediate (b : Buzzer) (onTime currentTick : UInt32) : Buzzer :=
  { b with immediateEndTime := onTime + currentTick }

/-- A call of the module, or a tick. -/
inductive BuzzerCall where
  | init
  | tone (d : BuzzerData)
  | immediate (onTime : UInt32)
  | poll
  | tick
  deriving DecidableEq

/-- The module with the tick counter. -/
structure BuzzerModule where
  buzzer : Buzzer
  tick : UInt32

def buzzerModule : Machine BuzzerModule BuzzerCall Unit where
  step s
    | .init => ({ s with buzzer := buzzerInit s.buzzer }, ())
    | .tone d => ({ s with buzzer := buzzerBeepTone s.buzzer d }, ())
    | .immediate onTime => ({ s with buzzer := buzzerBeepImmediate s.buzzer onTime s.tick }, ())
    | .poll => ({ s with buzzer := buzzerPoll s.buzzer s.tick }, ())
    | .tick => ({ s with tick := s.tick + 1 }, ())

/-- What the output was last programmed to. -/
def Buzzer.programmed (b : Buzzer) : Option (UInt16 × UInt8) :=
  b.sets.getLast?

/-- The frequency and the volume of the alarm. -/
def alarmTone : UInt16 × UInt8 :=
  (4000, 50)

/-- The ticks that a run takes. -/
def buzzerTicks (calls : List BuzzerCall) : ℕ :=
  calls.count .tick

@[simp] theorem buzzerTicks_nil : buzzerTicks [] = 0 :=
  rfl

@[simp] theorem buzzerTicks_tone (d : BuzzerData) (calls : List BuzzerCall) :
    buzzerTicks (.tone d :: calls) = buzzerTicks calls := by
  simp [buzzerTicks]

@[simp] theorem buzzerTicks_poll (calls : List BuzzerCall) :
    buzzerTicks (.poll :: calls) = buzzerTicks calls := by
  simp [buzzerTicks]

@[simp] theorem buzzerTicks_tick (calls : List BuzzerCall) :
    buzzerTicks (.tick :: calls) = buzzerTicks calls + 1 := by
  simp [buzzerTicks]

@[simp] theorem buzzerTicks_append (pre post : List BuzzerCall) :
    buzzerTicks (pre ++ post) = buzzerTicks pre + buzzerTicks post :=
  List.count_append

/-- The alarm is over, and the output silent. -/
def Buzzer.alarmOver (b : Buzzer) : Buzzer :=
  { buzzerBeepPort b 0 0 with immediateEndTime := 0, isBeeping := false }

/-- What the queue asks the output for at a tick. -/
def Buzzer.queueTone (b : Buzzer) (t : UInt32) : UInt16 × UInt8 :=
  if b.writePos ≠ 0 ∧ t < (b.takeUp t).beepOnTime then (b.data b.readPos).tone else (0, 0)

/-- No poll of the run comes after the end tick. -/
def UpToEnd (onTime : UInt32) (calls : List BuzzerCall) : Prop :=
  ∀ pre post, calls = pre ++ .poll :: post → buzzerTicks pre ≤ onTime.toNat

/-- After `buzzer_beep_immediate` in the state `s`, every poll up to the end tick leaves the
output programmed to the alarm, and the first one after it ends the alarm and goes on with the
queue : it does what a poll does that finds no alarm and a silent output, and programs what the
queue asks for. -/
structure AlarmRings (s : BuzzerModule) (onTime : UInt32) (calls : List BuzzerCall) : Prop where
  sounds : ∀ pre post, calls = pre ++ .poll :: post → buzzerTicks pre ≤ onTime.toNat →
    (buzzerModule.run s (.immediate onTime :: pre ++ [.poll])).buzzer.programmed = some alarmTone
  ends : ∀ pre post, calls = pre ++ .poll :: post → UpToEnd onTime pre →
    onTime.toNat < buzzerTicks pre →
    let t := buzzerModule.run s (.immediate onTime :: pre)
    (buzzerPoll t.buzzer t.tick).immediateEndTime = 0 ∧
      buzzerPoll t.buzzer t.tick = buzzerPoll t.buzzer.alarmOver t.tick ∧
      (buzzerPoll t.buzzer t.tick).programmed = some (t.buzzer.queueTone t.tick)

/-- When it does : if the alarm is polled at all before it ends, it finds the output silent or
at the alarm already; and the first poll after the end tick comes at a value of the counter
above it. -/
structure AlarmFree (s : BuzzerModule) (onTime : UInt32) (calls : List BuzzerCall) : Prop where
  silent : ∀ pre post, calls = pre ++ .poll :: post → buzzerTicks pre ≤ onTime.toNat →
    s.buzzer.isBeeping = false ∨ s.buzzer.programmed = some alarmTone
  unwrapped : ∀ pre post, calls = pre ++ .poll :: post → UpToEnd onTime pre →
    onTime.toNat < buzzerTicks pre →
    s.tick.toNat + onTime.toNat < (s.tick.toNat + buzzerTicks pre) % 2 ^ 32

/-! ## Polls -/

/-- A poll up to the end tick. -/
theorem buzzerPoll_alarm {b : Buzzer} {t : UInt32} (hend : b.immediateEndTime ≠ 0)
    (hle : t ≤ b.immediateEndTime) :
    buzzerPoll b t =
      if b.isBeeping then b else { buzzerBeepPort b 4000 50 with isBeeping := true } := by
  have himmediate : b.immediate t =
      if b.isBeeping then b else { buzzerBeepPort b 4000 50 with isBeeping := true } := by
    rw [Buzzer.immediate, if_pos hend, if_pos hle]
  have hsame : (b.immediate t).immediateEndTime = b.immediateEndTime := by
    rw [himmediate]
    split_ifs <;> rfl
  rw [buzzerPoll]
  dsimp only
  rw [hsame, if_neg (UInt32.not_lt.2 hle), himmediate]

theorem Buzzer.immediate_of_eq_zero {b : Buzzer} (t : UInt32) (h : b.immediateEndTime = 0) :
    b.immediate t = b := by
  rw [immediate, if_neg (not_not.2 h)]

/-- A poll after the end tick. -/
theorem buzzerPoll_alarmOver {b : Buzzer} {t : UInt32} (hend : b.immediateEndTime ≠ 0)
    (hlt : b.immediateEndTime < t) : buzzerPoll b t = buzzerPoll b.alarmOver t := by
  have himmediate : b.immediate t = b.alarmOver := by
    rw [Buzzer.immediate, if_pos hend, if_neg (UInt32.not_le.2 hlt)]
    rfl
  rw [buzzerPoll, himmediate, buzzerPoll, Buzzer.immediate_of_eq_zero t rfl]

/-- The queue does not set the end of an alarm. -/
theorem buzzerPoll_immediateEndTime {b : Buzzer} (t : UInt32) (h : b.immediateEndTime = 0) :
    (buzzerPoll b t).immediateEndTime = 0 := by
  have hsound : ((b.takeUp t).sound t).immediateEndTime = 0 := by simpa using h
  rw [buzzerPoll, Buzzer.immediate_of_eq_zero t h]
  dsimp only
  split_ifs
  · exact h
  · exact hsound
  · rw [Buzzer.advance_eq]
    exact hsound
  · exact h

/-- The queue finds a silent output. -/
theorem programmed_alarmOver {b : Buzzer} {t : UInt32} (ht : t ≠ 0) :
    (buzzerPoll b.alarmOver t).programmed = some (b.queueTone t) := by
  by_cases hwrite : b.writePos = 0
  · have hidle : buzzerPoll b.alarmOver t = b.alarmOver := buzzerPoll_idle rfl (.inr hwrite)
    rw [hidle, Buzzer.queueTone, if_neg fun h => h.1 hwrite]
    simp [Buzzer.programmed, Buzzer.alarmOver, buzzerBeepPort]
  · have htake : (b.alarmOver.takeUp t).beepOnTime = (b.takeUp t).beepOnTime := by
      cases hinter : b.interBeeping with
      | true => simp [Buzzer.takeUp, Buzzer.alarmOver, buzzerBeepPort, hinter]
      | false => simp [Buzzer.takeUp, Buzzer.alarmOver, buzzerBeepPort, hinter]
    have hsets : ((b.alarmOver.takeUp t).sound t).programmed = some (b.queueTone t) := by
      by_cases hon : t < (b.takeUp t).beepOnTime
      · rw [Buzzer.queueTone, if_pos ⟨hwrite, hon⟩, Buzzer.programmed, Buzzer.sound, htake,
          if_pos hon]
        simp [buzzerBeepPort, Buzzer.alarmOver, BuzzerData.tone]
      · rw [Buzzer.queueTone, if_neg fun h => hon h.2, Buzzer.programmed, Buzzer.sound, htake,
          if_neg hon]
        simp [buzzerBeepPort]
    have hpoll := buzzerPoll_eq (b := b.alarmOver) rfl ht hwrite
    rw [hpoll]
    dsimp only
    split_ifs
    · exact hsets
    · rw [Buzzer.advance_eq]
      exact hsets

/-! ## Runs up to the end tick -/

/-- The output is programmed as at the call, or as the first poll leaves it. -/
def Waits (s b : Buzzer) : Prop :=
  b.isBeeping = s.isBeeping ∧ b.sets = s.sets

/-- What a poll up to the end tick leaves. -/
def Rings (s b : Buzzer) : Prop :=
  b.isBeeping = true ∧ b.sets = if s.isBeeping then s.sets else s.sets ++ [alarmTone]

/-- A call that is neither the start of the module nor of an alarm. -/
def BuzzerCall.Plain (c : BuzzerCall) : Prop :=
  c ≠ .init ∧ ∀ onTime, c ≠ .immediate onTime

theorem buzzerTicks_le {pre post : List BuzzerCall} :
    buzzerTicks pre ≤ buzzerTicks (pre ++ .poll :: post) := by
  rw [buzzerTicks_append]
  exact Nat.le_add_right _ _

theorem upToEnd_of_le {onTime : UInt32} {calls : List BuzzerCall}
    (h : buzzerTicks calls ≤ onTime.toNat) : UpToEnd onTime calls := by
  rintro pre post rfl
  exact buzzerTicks_le.trans h

theorem UpToEnd.of_append {onTime : UInt32} {pre post : List BuzzerCall}
    (h : UpToEnd onTime (pre ++ post)) : UpToEnd onTime pre := by
  rintro a b rfl
  exact h a (b ++ post) (by simp)

theorem Rings.programmed {s b : Buzzer} (h : Rings s b) :
    b.programmed = if s.isBeeping then s.programmed else some alarmTone := by
  rw [Buzzer.programmed, h.2]
  split_ifs <;> simp [Buzzer.programmed]

/-- A poll up to the end tick sets off the alarm, or leaves it on. -/
theorem rings_of_poll {s b : Buzzer} {t : UInt32} (h : Waits s b ∨ Rings s b)
    (hend : b.immediateEndTime ≠ 0) (hle : t ≤ b.immediateEndTime) : Rings s (buzzerPoll b t) := by
  rw [buzzerPoll_alarm hend hle]
  obtain ⟨hbeep, hsets⟩ | ⟨hbeep, hsets⟩ := h
  · by_cases hs : s.isBeeping
    · rw [if_pos (hbeep.trans hs)]
      exact ⟨hbeep.trans hs, by rw [if_pos hs, hsets]⟩
    · rw [if_neg (hbeep ▸ hs)]
      exact ⟨rfl, by rw [if_neg hs, ← hsets]; rfl⟩
  · rw [if_pos hbeep]
    exact ⟨hbeep, hsets⟩

/-- Between the call and the end tick. -/
structure AlarmInv (s : BuzzerModule) (onTime : UInt32) (calls : List BuzzerCall)
    (t : BuzzerModule) : Prop where
  endTime : t.buzzer.immediateEndTime = onTime + s.tick
  tick : t.tick = s.tick + UInt32.ofNat (buzzerTicks calls)
  output : Waits s.buzzer t.buzzer ∨ Rings s.buzzer t.buzzer

section Alarm

variable {s t : BuzzerModule} {onTime : UInt32} {calls : List BuzzerCall}

theorem AlarmInv.tone (h : AlarmInv s onTime calls t) (d : BuzzerData) :
    AlarmInv s onTime (calls ++ [.tone d]) { t with buzzer := buzzerBeepTone t.buzzer d } := by
  obtain ⟨data, writePos, hframe, -⟩ := t.buzzer.beepTone_frame d
  rw [hframe]
  exact ⟨h.endTime, by simpa using h.tick, h.output⟩

theorem AlarmInv.succ (h : AlarmInv s onTime calls t) :
    AlarmInv s onTime (calls ++ [.tick]) { t with tick := t.tick + 1 } := by
  have hcount : buzzerTicks (calls ++ [.tick]) = buzzerTicks calls + 1 := by simp
  refine ⟨h.endTime, ?_, h.output⟩
  dsimp only
  rw [h.tick, hcount, UInt32.ofNat_add, ← UInt32.add_assoc]
  rfl

variable (hfits : s.tick.toNat + onTime.toNat < 2 ^ 32)
include hfits

theorem endTime_toNat : (onTime + s.tick).toNat = s.tick.toNat + onTime.toNat := by
  rw [UInt32.toNat_add, Nat.mod_eq_of_lt (by omega), Nat.add_comm]

/-- The tick of a poll against the end tick. -/
theorem AlarmInv.tick_le_iff (h : AlarmInv s onTime calls t) :
    t.tick ≤ t.buzzer.immediateEndTime ↔
      (s.tick.toNat + buzzerTicks calls) % 2 ^ 32 ≤ s.tick.toNat + onTime.toNat := by
  rw [h.tick, h.endTime, UInt32.le_iff_toNat_le, endTime_toNat hfits, UInt32.toNat_add,
    UInt32.toNat_ofNat', Nat.add_mod_mod]

/-- Up to the end tick the counter does not wrap. -/
theorem AlarmInv.tick_le (h : AlarmInv s onTime calls t) (hle : buzzerTicks calls ≤ onTime.toNat) :
    t.tick ≤ t.buzzer.immediateEndTime := by
  rw [h.tick_le_iff hfits, Nat.mod_eq_of_lt (by omega)]
  omega

variable (hpos : 0 < onTime.toNat)
include hpos

theorem AlarmInv.endTime_ne_zero (h : AlarmInv s onTime calls t) :
    t.buzzer.immediateEndTime ≠ 0 := by
  intro h0
  have heq := endTime_toNat hfits
  rw [← h.endTime, h0, UInt32.toNat_zero] at heq
  omega

theorem AlarmInv.rings (h : AlarmInv s onTime calls t) (hle : buzzerTicks calls ≤ onTime.toNat) :
    Rings s.buzzer (buzzerPoll t.buzzer t.tick) :=
  rings_of_poll h.output (h.endTime_ne_zero hfits hpos) (h.tick_le hfits hle)

theorem AlarmInv.poll (h : AlarmInv s onTime calls t) (hle : buzzerTicks calls ≤ onTime.toNat) :
    AlarmInv s onTime (calls ++ [.poll]) { t with buzzer := buzzerPoll t.buzzer t.tick } := by
  refine ⟨?_, by simpa using h.tick, .inr (h.rings hfits hpos hle)⟩
  dsimp only
  rw [buzzerPoll_alarm (h.endTime_ne_zero hfits hpos) (h.tick_le hfits hle), ← h.endTime]
  split_ifs <;> rfl

theorem alarmInv_run (hcalls : ∀ c ∈ calls, c.Plain) (hup : UpToEnd onTime calls) :
    AlarmInv s onTime calls (buzzerModule.run s (.immediate onTime :: calls)) := by
  induction calls using List.reverseRecOn with
  | nil => exact ⟨rfl, by simp [buzzerModule], .inl ⟨rfl, rfl⟩⟩
  | append_singleton pre c ih =>
    have h := ih (fun c hc => hcalls c (by simp [hc])) hup.of_append
    have hplain := hcalls c (by simp)
    rw [← List.cons_append, Machine.run_concat]
    cases c with
    | init => exact absurd rfl hplain.1
    | immediate onTime' => exact absurd rfl (hplain.2 onTime')
    | tone d => exact h.tone d
    | poll => exact h.poll hfits hpos (hup pre [] rfl)
    | tick => exact h.succ

/-- A poll up to the end tick programs the alarm, unless something beeps. -/
theorem programmed_alarm (hcalls : ∀ c ∈ calls, c.Plain) (hle : buzzerTicks calls ≤ onTime.toNat) :
    (buzzerModule.run s (.immediate onTime :: calls ++ [.poll])).buzzer.programmed =
      if s.buzzer.isBeeping then s.buzzer.programmed else some alarmTone := by
  have hinv := alarmInv_run hfits hpos hcalls (upToEnd_of_le hle)
  rw [Machine.run_concat]
  exact (hinv.rings hfits hpos hle).programmed

/-- A poll up to the end time leaves it set. -/
theorem AlarmInv.goesOn (h : AlarmInv s onTime calls t)
    (hle : t.tick ≤ t.buzzer.immediateEndTime) :
    (buzzerPoll t.buzzer t.tick).immediateEndTime ≠ 0 := by
  have hend := h.endTime_ne_zero hfits hpos
  rw [buzzerPoll_alarm hend hle]
  split_ifs <;> exact hend

/-- A poll after the end time ends the alarm, and goes on with the queue. -/
theorem AlarmInv.ends (h : AlarmInv s onTime calls t)
    (hlt : t.buzzer.immediateEndTime < t.tick) :
    (buzzerPoll t.buzzer t.tick).immediateEndTime = 0 ∧
      buzzerPoll t.buzzer t.tick = buzzerPoll t.buzzer.alarmOver t.tick ∧
      (buzzerPoll t.buzzer t.tick).programmed = some (t.buzzer.queueTone t.tick) := by
  have hover := buzzerPoll_alarmOver (h.endTime_ne_zero hfits hpos) hlt
  have hne : t.tick ≠ 0 := fun h0 => UInt32.not_lt_zero (h0 ▸ hlt)
  refine ⟨?_, hover, ?_⟩
  · rw [hover]
    exact buzzerPoll_immediateEndTime _ rfl
  · rw [hover]
    exact programmed_alarmOver hne

end Alarm

/-- An alarm rings until its end and then gives way to the queue, exactly if it finds the output
silent or at the alarm already, and the counter does not wrap before the poll that ends it. -/
theorem buzzerBeepImmediate_iff (s : BuzzerModule) (onTime : UInt32) (calls : List BuzzerCall)
    (hpos : 0 < onTime.toNat) (hfits : s.tick.toNat + onTime.toNat < 2 ^ 32)
    (hcalls : ∀ c ∈ calls, c.Plain) :
    AlarmRings s onTime calls ↔ AlarmFree s onTime calls := by
  have hbefore {pre post : List BuzzerCall} (heq : calls = pre ++ .poll :: post) :
      ∀ c ∈ pre, c.Plain := fun c hc => hcalls c (by simp [heq, hc])
  constructor
  · intro h
    refine ⟨fun pre post heq hle => ?_, fun pre post heq hup hlate => ?_⟩
    · have hsounds := h.sounds pre post heq hle
      rw [programmed_alarm hfits hpos (hbefore heq) hle] at hsounds
      by_cases hbeep : s.buzzer.isBeeping
      · exact .inr (by rwa [if_pos hbeep] at hsounds)
      · exact .inl (by simpa using hbeep)
    · have hinv := alarmInv_run hfits hpos (hbefore heq) hup
      by_contra hwrapped
      have htick := (hinv.tick_le_iff hfits).2 (Nat.le_of_not_lt hwrapped)
      exact hinv.goesOn hfits hpos htick (h.ends pre post heq hup hlate).1
  · intro h
    refine ⟨fun pre post heq hle => ?_, fun pre post heq hup hlate => ?_⟩
    · rw [programmed_alarm hfits hpos (hbefore heq) hle]
      obtain hsilent | halarm := h.silent pre post heq hle
      · rw [if_neg (by simp [hsilent])]
      · rw [halarm, ite_self]
    · have hinv := alarmInv_run hfits hpos (hbefore heq) hup
      have hlt : (buzzerModule.run s (.immediate onTime :: pre)).buzzer.immediateEndTime <
          (buzzerModule.run s (.immediate onTime :: pre)).tick := by
        rw [← UInt32.not_le, hinv.tick_le_iff hfits]
        exact Nat.not_le.2 (h.unwrapped pre post heq hup hlate)
      exact hinv.ends hfits hpos hlt

/-- A tone of 2000 Hz is sounding. -/
def midTone : BuzzerModule :=
  buzzerModule.run ⟨buzzerPowerUp, 1⟩ [.tone ⟨2000, 50, 10, 0⟩, .poll]

/-- An alarm of one tick, from silence and in the middle of a tone, where it does not ring. -/
theorem buzzerBeepImmediate_iff_one :
    (AlarmRings ⟨buzzerPowerUp, 5⟩ 1 [.poll, .tick, .tick, .poll] ↔
      AlarmFree ⟨buzzerPowerUp, 5⟩ 1 [.poll, .tick, .tick, .poll]) ∧
    ¬ AlarmRings midTone 1 [.poll, .tick, .tick, .poll] := by
  constructor
  · exact buzzerBeepImmediate_iff ⟨buzzerPowerUp, 5⟩ 1 [.poll, .tick, .tick, .poll] (by decide)
      (by decide) (by simp [BuzzerCall.Plain])
  · have hiff := buzzerBeepImmediate_iff midTone 1 [.poll, .tick, .tick, .poll] (by decide +kernel)
      (by decide +kernel) (by simp [BuzzerCall.Plain])
    rw [hiff]
    intro hfree
    have hsounds : ¬ (midTone.buzzer.isBeeping = false ∨
        midTone.buzzer.programmed = some alarmTone) := by decide +kernel
    exact hsounds (hfree.silent [] [.tick, .tick, .poll] rfl (by decide +kernel))

/-- A tone of 2000 Hz is sounding when the alarm comes. -/
theorem not_alarmRings_tone : ¬ AlarmRings
    (buzzerModule.run ⟨buzzerPowerUp, 1⟩ [.tone ⟨2000, 50, 10, 0⟩, .poll]) 5 [.poll] := by
  intro h
  exact absurd (h.sounds [] [] rfl (by decide)) (by decide +kernel)

end Gd32Firmware
