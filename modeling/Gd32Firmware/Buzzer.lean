import Gd32Firmware.Machine
import Mathlib.Data.Fin.Basic
import Mathlib.Data.List.OfFn
import Mathlib.Data.UInt

/-!
# The tone queue of the buzzer

`module/buzzer/buzzer.c` : an array of 20 slots that `buzzer_beep_tone` fills and
`buzzer_poll` plays, one slot after the other. The reader does not stop at the writer. It
runs on to the last slot and only there both positions go back to 0, so a tone queued behind
the reader is not played in its turn, and a slot of an earlier round is played again if no
tone has replaced it by the time the reader takes it up.

`InTime` is the condition on each step under which neither happens. In a run that meets it
the tones are started in the order in which they were accepted, each once
(`buzzerPoll_inOrder`).
-/

namespace Gd32Firmware

/-- `MAX_BUZZER_DATA_SIZE`, the number of slots. -/
def maxBuzzerDataSize : ℕ := 20

/-- A `buzzer_data_t`. -/
structure BuzzerData where
  toneFreq : UInt16
  volume : UInt8
  onTime : UInt32
  offTime : UInt32
  deriving DecidableEq, Repr

/-- The static variables of the driver, and the calls of `buzzer_beep_set` so far. -/
structure Buzzer where
  data : Fin maxBuzzerDataSize → BuzzerData
  writePos : ℕ
  readPos : Fin maxBuzzerDataSize
  isBeeping : Bool
  immediateEndTime : UInt32
  beepOnTime : UInt32
  beepOffTime : UInt32
  interBeeping : Bool
  sets : List (UInt16 × UInt8)

/-- The driver at power-up : static storage is zero. -/
def buzzerPowerUp : Buzzer where
  data := fun _ => ⟨0, 0, 0, 0⟩
  writePos := 0
  readPos := ⟨0, by decide⟩
  isBeeping := false
  immediateEndTime := 0
  beepOnTime := 0
  beepOffTime := 0
  interBeeping := false
  sets := []

/-- `buzzer_beep_port`, whose branches do the same. -/
def buzzerBeepPort (b : Buzzer) (toneFreq : UInt16) (volume : UInt8) : Buzzer :=
  { b with sets := b.sets ++ [(toneFreq, volume)] }

/-! The parts of `buzzer_poll`, in their order. -/

/-- An immediate beep starts or ends. -/
def Buzzer.immediate (b : Buzzer) (currentTick : UInt32) : Buzzer :=
  if b.immediateEndTime ≠ 0 then
    if b.immediateEndTime ≥ currentTick then
      if b.isBeeping then b else { buzzerBeepPort b 4000 50 with isBeeping := true }
    else { buzzerBeepPort b 0 0 with immediateEndTime := 0, isBeeping := false }
  else b

/-- The times of a slot are fixed when the reader takes it up. -/
def Buzzer.takeUp (b : Buzzer) (currentTick : UInt32) : Buzzer :=
  if b.interBeeping then b
  else
    let onTime := (b.data b.readPos).onTime + currentTick
    { b with
      beepOnTime := onTime
      beepOffTime := (b.data b.readPos).offTime + onTime
      interBeeping := true }

/-- The tone of the slot starts or ends. -/
def Buzzer.sound (b : Buzzer) (currentTick : UInt32) : Buzzer :=
  if currentTick < b.beepOnTime then
    let b :=
      if b.isBeeping then b
      else buzzerBeepPort b (b.data b.readPos).toneFreq (b.data b.readPos).volume
    { b with isBeeping := true }
  else { buzzerBeepPort b 0 0 with isBeeping := false }

/-- The next slot, or a new round. -/
def Buzzer.advance (b : Buzzer) : Buzzer :=
  if h : b.readPos + 1 < maxBuzzerDataSize then
    { b with interBeeping := false, readPos := ⟨b.readPos + 1, h⟩ }
  else { b with interBeeping := false, readPos := ⟨0, by decide⟩, writePos := 0 }

/-- `buzzer_poll` at the tick `currentTick`. -/
def buzzerPoll (b : Buzzer) (currentTick : UInt32) : Buzzer :=
  let b := b.immediate currentTick
  if b.immediateEndTime < currentTick then
    if b.writePos = 0 then b
    else
      let b := (b.takeUp currentTick).sound currentTick
      if currentTick ≤ b.beepOffTime then b else b.advance
  else b

/-- `buzzer_beep_tone`. -/
def buzzerBeepTone (b : Buzzer) (tone : BuzzerData) : Buzzer :=
  if h : b.writePos < maxBuzzerDataSize then
    { b with
      data := Function.update b.data ⟨b.writePos, h⟩ tone
      writePos := b.writePos + 1 }
  else b

/-! ## Runs -/

/-- A tone that can be heard. -/
structure Tone extends BuzzerData where
  toneFreq_pos : 0 < toneFreq
  volume_pos : 0 < volume
  onTime_pos : 0 < onTime
  deriving DecidableEq, Repr

/-- A tone is queued, or the driver is polled and the tick goes on. -/
inductive BuzzerOp where
  | tone (t : Tone)
  | poll
  deriving DecidableEq, Repr

/-- The driver with the tick counter, and what was accepted. -/
structure BuzzerRun where
  buzzer : Buzzer
  tick : UInt32
  accepted : List (UInt16 × UInt8)

/-- Frequency and volume. -/
def BuzzerData.tone (d : BuzzerData) : UInt16 × UInt8 :=
  (d.toneFreq, d.volume)

def buzzerMachine : Machine BuzzerRun BuzzerOp Unit where
  step s
    | .tone t =>
      ({ s with
        buzzer := buzzerBeepTone s.buzzer t.toBuzzerData
        accepted := if s.buzzer.writePos < maxBuzzerDataSize then s.accepted ++ [t.tone]
          else s.accepted }, ())
    | .poll => ({ s with buzzer := buzzerPoll s.buzzer s.tick, tick := s.tick + 1 }, ())

/-- Power-up, at any tick. -/
def buzzerStart (tick : UInt32) : BuzzerRun where
  buzzer := buzzerPowerUp
  tick := tick
  accepted := []

/-- The first slot that the reader has not taken up. -/
def Buzzer.first (b : Buzzer) : ℕ :=
  b.readPos + if b.interBeeping then 1 else 0

/-- The slots that wait for the reader. -/
def Buzzer.waiting (b : Buzzer) : List BuzzerData :=
  ((List.ofFn b.data).take b.writePos).drop b.first

/-- The tones started on the output. -/
def Buzzer.started (b : Buzzer) : List (UInt16 × UInt8) :=
  b.sets.filter fun (toneFreq, volume) => toneFreq ≠ 0 ∧ volume ≠ 0

/-- The accepted tones were started in their order, or wait. -/
def InOrder (s : BuzzerRun) : Prop :=
  s.buzzer.started ++ s.buzzer.waiting.map BuzzerData.tone = s.accepted

/-- How many polls play a slot. -/
def BuzzerData.duration (d : BuzzerData) : ℕ :=
  d.onTime.toNat + d.offTime.toNat + 2

/-- How many polls play all that waits. -/
def BuzzerRun.playTime (s : BuzzerRun) : ℕ :=
  (if s.tick = 0 then 1 else 0) +
    (if s.buzzer.interBeeping then s.buzzer.beepOffTime.toNat + 2 - s.tick.toNat else 0) +
    (s.buzzer.waiting.map BuzzerData.duration).sum

/-- The writer stays ahead of the reader : a tone is accepted for a slot that the reader has
not taken up, and the reader takes up a queued slot or a silent one. The tick does not wrap,
and neither do the times of a queued slot. -/
def InTime (s : BuzzerRun) : BuzzerOp → Prop
  | .tone _ => s.buzzer.writePos < maxBuzzerDataSize → s.buzzer.first ≤ s.buzzer.writePos
  | .poll =>
    s.tick.toNat + 1 < 2 ^ 32 ∧
      (s.buzzer.interBeeping = false → s.buzzer.writePos ≠ 0 →
        let d := s.buzzer.data s.buzzer.readPos
        if s.buzzer.readPos < s.buzzer.writePos then
          s.tick.toNat + d.onTime.toNat + d.offTime.toNat < 2 ^ 32
        else d.onTime = 0)

instance (s : BuzzerRun) : ∀ op, Decidable (InTime s op)
  | .tone _ => inferInstanceAs (Decidable (_ → _))
  | .poll => inferInstanceAs (Decidable (_ ∧ _))

/-! ## One poll -/

namespace Buzzer

variable (b : Buzzer) (t : UInt32)

/-- Sounding a slot changes the flag, and what was set. -/
theorem sound_eq :
    b.sound t =
      { b with isBeeping := decide (t < b.beepOnTime), sets := (b.sound t).sets } := by
  unfold sound
  split_ifs with h <;> simp [h, buzzerBeepPort]

@[simp] theorem sound_immediateEndTime : (b.sound t).immediateEndTime = b.immediateEndTime := by
  rw [sound_eq]

@[simp] theorem sound_data : (b.sound t).data = b.data := by
  rw [sound_eq]

@[simp] theorem sound_writePos : (b.sound t).writePos = b.writePos := by
  rw [sound_eq]

@[simp] theorem sound_interBeeping : (b.sound t).interBeeping = b.interBeeping := by
  rw [sound_eq]

@[simp] theorem sound_beepOnTime : (b.sound t).beepOnTime = b.beepOnTime := by
  rw [sound_eq]

@[simp] theorem sound_beepOffTime : (b.sound t).beepOffTime = b.beepOffTime := by
  rw [sound_eq]

@[simp] theorem sound_isBeeping : (b.sound t).isBeeping = decide (t < b.beepOnTime) := by
  rw [sound_eq]

@[simp] theorem sound_waiting : (b.sound t).waiting = b.waiting := by
  rw [sound_eq]
  rfl

/-- Taking up a slot changes its times and the flag. -/
theorem takeUp_frame :
    b.takeUp t = { b with
      beepOnTime := (b.takeUp t).beepOnTime
      beepOffTime := (b.takeUp t).beepOffTime
      interBeeping := true } := by
  unfold takeUp
  split_ifs with h
  · rw [← h]
  · rfl

@[simp] theorem takeUp_immediateEndTime : (b.takeUp t).immediateEndTime = b.immediateEndTime := by
  rw [takeUp_frame]

@[simp] theorem takeUp_data : (b.takeUp t).data = b.data := by
  rw [takeUp_frame]

@[simp] theorem takeUp_writePos : (b.takeUp t).writePos = b.writePos := by
  rw [takeUp_frame]

@[simp] theorem takeUp_readPos : (b.takeUp t).readPos = b.readPos := by
  rw [takeUp_frame]

@[simp] theorem takeUp_isBeeping : (b.takeUp t).isBeeping = b.isBeeping := by
  rw [takeUp_frame]

@[simp] theorem takeUp_interBeeping : (b.takeUp t).interBeeping = true := by
  rw [takeUp_frame]

@[simp] theorem takeUp_started : (b.takeUp t).started = b.started := by
  rw [takeUp_frame]
  rfl

end Buzzer

/-- The reader leaves a slot that it had taken up. -/
theorem Buzzer.advance_waiting {b : Buzzer} (hinter : b.interBeeping = true) :
    b.advance.waiting = b.waiting := by
  unfold advance
  split_ifs with h
  · simp [waiting, first, hinter]
  · have hlast : maxBuzzerDataSize ≤ b.first := by
      simp only [first, hinter, if_true]
      omega
    have hnone : b.waiting = [] := by
      refine List.drop_eq_nil_of_le ?_
      rw [List.length_take, List.length_ofFn]
      exact (Nat.min_le_right ..).trans hlast
    rw [hnone]
    simp [waiting]

theorem Buzzer.takeUp_eq {b : Buzzer} (t : UInt32) (hinter : b.interBeeping = false) :
    b.takeUp t =
      { b with
        beepOnTime := (b.data b.readPos).onTime + t
        beepOffTime := (b.data b.readPos).offTime + ((b.data b.readPos).onTime + t)
        interBeeping := true } := by
  simp [takeUp, hinter]

theorem Buzzer.takeUp_times {b : Buzzer} {t : UInt32} (hinter : b.interBeeping = false)
    (hfits : t.toNat + (b.data b.readPos).onTime.toNat + (b.data b.readPos).offTime.toNat <
      2 ^ 32) :
    (b.takeUp t).beepOnTime.toNat = (b.data b.readPos).onTime.toNat + t.toNat ∧
      (b.takeUp t).beepOffTime.toNat = (b.data b.readPos).offTime.toNat +
        ((b.data b.readPos).onTime.toNat + t.toNat) := by
  rw [takeUp_eq t hinter]
  simp only [UInt32.toNat_add]
  rw [Nat.mod_eq_of_lt (a := _ + t.toNat) (by omega), Nat.mod_eq_of_lt (by omega)]
  exact ⟨rfl, rfl⟩

/-- A queued slot is the first that waits. -/
theorem Buzzer.takeUp_waiting {b : Buzzer} (t : UInt32) (hinter : b.interBeeping = false)
    (hqueued : b.readPos < b.writePos) :
    b.waiting = b.data b.readPos :: (b.takeUp t).waiting := by
  have hlen : (b.readPos : ℕ) < ((List.ofFn b.data).take b.writePos).length := by
    simp [hqueued]
  simp only [waiting, first, takeUp, hinter, if_true, if_false, Bool.false_eq_true, Nat.add_zero]
  rw [List.drop_eq_getElem_cons hlen]
  simp

/-- Nothing waits behind the writer. -/
theorem Buzzer.waiting_eq_nil {b : Buzzer} (hpast : b.writePos ≤ b.first) : b.waiting = [] :=
  List.drop_eq_nil_of_le ((List.length_take_le ..).trans hpast)

/-- The tone is appended to what waits. -/
theorem buzzerBeepTone_waiting {b : Buzzer} (d : BuzzerData)
    (hroom : b.writePos < maxBuzzerDataSize) (hfirst : b.first ≤ b.writePos) :
    (buzzerBeepTone b d).waiting = b.waiting ++ [d] := by
  have htake : (List.ofFn (Function.update b.data ⟨b.writePos, hroom⟩ d)).take (b.writePos + 1) =
      (List.ofFn b.data).take b.writePos ++ [d] := by
    apply List.ext_getElem
    · simp only [List.length_take, List.length_ofFn, List.length_append, List.length_singleton]
      omega
    · intro i hi _
      have hi' : i < b.writePos + 1 := (List.length_take ▸ hi).trans_le (Nat.min_le_left ..)
      rw [List.getElem_append]
      split_ifs with h
      · have hne : i ≠ b.writePos := by
          rw [List.length_take] at h
          omega
        simp [hne]
      · have heq : i = b.writePos := by
          rw [List.length_take, List.length_ofFn] at h
          omega
        simp [heq]
  have hlen : b.first ≤ ((List.ofFn b.data).take b.writePos).length := by
    rw [List.length_take, List.length_ofFn]
    omega
  simp only [buzzerBeepTone, hroom, dif_pos, Buzzer.waiting]
  rw [← List.drop_append_of_le_length hlen, htake]
  rfl

/-- A slot holds a tone that can be heard. -/
def Audible (d : BuzzerData) : Prop :=
  0 < d.toneFreq ∧ 0 < d.volume ∧ 0 < d.onTime

/-- Between two steps, before the tick `t`. -/
structure BuzzerInv (b : Buzzer) (t : UInt32) (accepted : List (UInt16 × UInt8)) : Prop where
  immediate : b.immediateEndTime = 0
  audible : ∀ i : Fin maxBuzzerDataSize, i < b.writePos → Audible (b.data i)
  idle : b.writePos = 0 → b.interBeeping = false
  quiet : b.interBeeping = false → b.isBeeping = false
  beeping : b.isBeeping = true → b.beepOnTime ≤ b.beepOffTime
  silent : b.interBeeping = true → b.isBeeping = false → b.beepOnTime ≤ t
  ahead : b.interBeeping = true → t.toNat ≤ b.beepOffTime.toNat + 1
  order : b.started ++ b.waiting.map BuzzerData.tone = accepted

/-- Within a poll at the tick `t`, once the slot has sounded. -/
structure Playing (b : Buzzer) (t : UInt32) (accepted : List (UInt16 × UInt8)) : Prop where
  immediate : b.immediateEndTime = 0
  audible : ∀ i : Fin maxBuzzerDataSize, i < b.writePos → Audible (b.data i)
  queued : b.writePos ≠ 0
  inter : b.interBeeping = true
  beeping : b.isBeeping = true → t < b.beepOnTime ∧ b.beepOnTime ≤ b.beepOffTime
  silent : b.isBeeping = false → b.beepOnTime ≤ t
  order : b.started ++ b.waiting.map BuzzerData.tone = accepted

/-- A poll that does nothing. -/
theorem buzzerPoll_idle {b : Buzzer} {t : UInt32} (himm : b.immediateEndTime = 0)
    (hidle : t = 0 ∨ b.writePos = 0) : buzzerPoll b t = b := by
  obtain rfl | hwrite := hidle
  · simp [buzzerPoll, Buzzer.immediate, himm]
  · simp [buzzerPoll, Buzzer.immediate, himm, hwrite]

theorem buzzerPoll_eq {b : Buzzer} {t : UInt32} (himm : b.immediateEndTime = 0) (ht : t ≠ 0)
    (hwrite : b.writePos ≠ 0) :
    buzzerPoll b t =
      let b' := (b.takeUp t).sound t
      if t ≤ b'.beepOffTime then b' else b'.advance := by
  have hlt : (0 : UInt32) < t := UInt32.pos_iff_ne_zero.2 ht
  simp [buzzerPoll, Buzzer.immediate, himm, hlt, hwrite]

/-- A slot that may be heard starts. -/
theorem Buzzer.sound_started {b : Buzzer} {t : UInt32} (hon : t < b.beepOnTime)
    (hquiet : b.isBeeping = false) (haudible : Audible (b.data b.readPos)) :
    (b.sound t).started = b.started ++ [(b.data b.readPos).tone] := by
  have hfreq := UInt16.pos_iff_ne_zero.1 haudible.1
  have hvolume := UInt8.pos_iff_ne_zero.1 haudible.2.1
  simp [started, sound, hon, hquiet, buzzerBeepPort, hfreq, hvolume, BuzzerData.tone]

/-- No slot starts twice. -/
theorem Buzzer.sound_started_of_isBeeping {b : Buzzer} {t : UInt32}
    (hon : t < b.beepOnTime → b.isBeeping = true) : (b.sound t).started = b.started := by
  by_cases h : t < b.beepOnTime
  · simp [started, sound, h, hon h]
  · simp [started, sound, h, buzzerBeepPort]

theorem Playing.of_sound {b : Buzzer} {t : UInt32} {accepted : List (UInt16 × UInt8)}
    (himm : b.immediateEndTime = 0)
    (haudible : ∀ i : Fin maxBuzzerDataSize, i < b.writePos → Audible (b.data i))
    (hqueued : b.writePos ≠ 0) (hinter : b.interBeeping = true)
    (hle : t < b.beepOnTime → b.beepOnTime ≤ b.beepOffTime)
    (horder : (b.sound t).started ++ b.waiting.map BuzzerData.tone = accepted) :
    Playing (b.sound t) t accepted where
  immediate := by simpa using himm
  audible := by simpa using haudible
  queued := by simpa using hqueued
  inter := by simpa using hinter
  beeping h := by
    have hon : t < b.beepOnTime := by simpa using h
    simpa using And.intro hon (hle hon)
  silent h := by simpa using h
  order := by simpa using horder

/-- A slot that was taken up at this tick or before sounds. -/
theorem BuzzerInv.playing {s : BuzzerRun} (hs : BuzzerInv s.buzzer s.tick s.accepted)
    (hkeeps : InTime s .poll) (hwrite : s.buzzer.writePos ≠ 0) :
    Playing ((s.buzzer.takeUp s.tick).sound s.tick) s.tick s.accepted := by
  obtain ⟨b, t, accepted⟩ := s
  cases hinter : b.interBeeping with
  | true =>
    have htake : b.takeUp t = b := by simp [Buzzer.takeUp, hinter]
    have hon : t < b.beepOnTime → b.isBeeping = true := by
      intro hlt
      by_contra hquiet
      have hle := hs.silent hinter (by simpa using hquiet)
      rw [UInt32.le_iff_toNat_le] at hle
      rw [UInt32.lt_iff_toNat_lt] at hlt
      dsimp only at hle
      omega
    rw [htake]
    refine .of_sound hs.immediate hs.audible hwrite hinter (fun hlt => hs.beeping (hon hlt)) ?_
    rw [Buzzer.sound_started_of_isBeeping hon]
    exact hs.order
  | false =>
    have hquiet : b.isBeeping = false := hs.quiet hinter
    have horder : b.started ++ b.waiting.map BuzzerData.tone = accepted := hs.order
    have hslot := hkeeps.2 hinter hwrite
    dsimp only at hslot
    have hsound (hle : t < (b.takeUp t).beepOnTime →
          (b.takeUp t).beepOnTime ≤ (b.takeUp t).beepOffTime)
        (hstarted : ((b.takeUp t).sound t).started ++
          (b.takeUp t).waiting.map BuzzerData.tone = accepted) :
        Playing ((b.takeUp t).sound t) t accepted :=
      .of_sound (by simpa using hs.immediate) (by simpa using hs.audible) (by simpa using hwrite)
        (b.takeUp_interBeeping t) hle hstarted
    by_cases hqueued : b.readPos < b.writePos
    · rw [if_pos hqueued] at hslot
      have haudible : Audible (b.data b.readPos) := hs.audible b.readPos hqueued
      obtain ⟨hon, hoff⟩ := Buzzer.takeUp_times hinter hslot
      have hpos : 0 < (b.data b.readPos).onTime.toNat := UInt32.lt_iff_toNat_lt.1 haudible.2.2
      have hlt : t < (b.takeUp t).beepOnTime := by
        rw [UInt32.lt_iff_toNat_lt, hon]
        omega
      refine hsound (fun _ => ?_) ?_
      · rw [UInt32.le_iff_toNat_le, hon, hoff]
        omega
      · rw [Buzzer.sound_started hlt (by simpa using hquiet) (by simpa using haudible),
          ← horder, Buzzer.takeUp_waiting t hinter hqueued]
        simp
    · rw [if_neg hqueued] at hslot
      have hnot : ¬ t < (b.takeUp t).beepOnTime := by
        rw [Buzzer.takeUp_eq t hinter, hslot]
        simp
      have hpast : b.waiting = [] := Buzzer.waiting_eq_nil (by simp [Buzzer.first]; omega)
      have hpast' : (b.takeUp t).waiting = [] :=
        Buzzer.waiting_eq_nil (by simp [Buzzer.first]; omega)
      refine hsound (fun hlt => absurd hlt hnot) ?_
      rw [Buzzer.sound_started_of_isBeeping fun hlt => absurd hlt hnot, Buzzer.takeUp_started,
        hpast', ← horder, hpast]

/-- A tone changes nothing but the queue. -/
theorem Buzzer.beepTone_frame (b : Buzzer) (d : BuzzerData) :
    ∃ data writePos, buzzerBeepTone b d = { b with data := data, writePos := writePos } ∧
      b.writePos ≤ writePos := by
  unfold buzzerBeepTone
  split_ifs
  · exact ⟨_, _, rfl, Nat.le_succ _⟩
  · exact ⟨b.data, b.writePos, rfl, le_rfl⟩

theorem tick_succ {t : UInt32} (ht : t.toNat + 1 < 2 ^ 32) : (t + 1).toNat = t.toNat + 1 := by
  rw [UInt32.toNat_add]
  exact Nat.mod_eq_of_lt ht

theorem tick_succ_ne_zero {t : UInt32} (ht : t.toNat + 1 < 2 ^ 32) : t + 1 ≠ 0 := by
  intro h0
  have hsucc := tick_succ ht
  rw [h0, UInt32.toNat_zero] at hsucc
  omega

theorem Buzzer.advance_eq (b : Buzzer) :
    b.advance = { b with
      interBeeping := false
      readPos := b.advance.readPos
      writePos := b.advance.writePos } := by
  unfold advance
  split_ifs <;> rfl

theorem Buzzer.advance_writePos_le (b : Buzzer) : b.advance.writePos ≤ b.writePos := by
  unfold advance
  split_ifs <;> simp

/-- The poll ends with the slot still taken up, or with the next one. -/
theorem Playing.inv {b : Buzzer} {t : UInt32} {accepted : List (UInt16 × UInt8)}
    (hb : Playing b t accepted) (ht : t.toNat + 1 < 2 ^ 32) :
    BuzzerInv (if t ≤ b.beepOffTime then b else b.advance) (t + 1) accepted := by
  have ht' := tick_succ ht
  split_ifs with hoff
  · rw [UInt32.le_iff_toNat_le] at hoff
    refine ⟨hb.immediate, hb.audible, fun h => absurd h hb.queued, fun h => by simp [hb.inter] at h,
      fun h => (hb.beeping h).2, fun _ h => ?_, fun _ => by omega, hb.order⟩
    have := hb.silent h
    rw [UInt32.le_iff_toNat_le] at this ⊢
    omega
  · have hquiet : b.isBeeping = false := by
      by_contra hbeep
      obtain ⟨hon, hle⟩ := hb.beeping (by simpa using hbeep)
      rw [UInt32.le_iff_toNat_le] at hoff hle
      rw [UInt32.lt_iff_toNat_lt] at hon
      omega
    have hinter : b.advance.interBeeping = false := by rw [b.advance_eq]
    have hsets : b.advance.started = b.started := by rw [b.advance_eq]; rfl
    refine ⟨?_, fun i hi => ?_, fun _ => hinter, fun _ => ?_, fun h => ?_, fun h => ?_,
      fun h => ?_, ?_⟩
    · rw [b.advance_eq]
      exact hb.immediate
    · rw [b.advance_eq]
      exact hb.audible i (hi.trans_le b.advance_writePos_le)
    · rw [b.advance_eq]
      exact hquiet
    · rw [b.advance_eq] at h
      simp [hquiet] at h
    · simp [hinter] at h
    · simp [hinter] at h
    · rw [Buzzer.advance_waiting hb.inter, hsets, hb.order]

theorem BuzzerInv.poll {s : BuzzerRun} (hs : BuzzerInv s.buzzer s.tick s.accepted)
    (hkeeps : InTime s .poll) :
    BuzzerInv (buzzerPoll s.buzzer s.tick) (s.tick + 1) s.accepted := by
  have htick := tick_succ hkeeps.1
  by_cases hidle : s.tick = 0 ∨ s.buzzer.writePos = 0
  · rw [buzzerPoll_idle hs.immediate hidle]
    refine { hs with
      silent := fun hinter hquiet => ?_
      ahead := fun hinter => ?_ }
    · have hle := hs.silent hinter hquiet
      rw [UInt32.le_iff_toNat_le] at hle ⊢
      omega
    · obtain h0 | h0 := hidle
      · simp [h0]
      · simp [hs.idle h0] at hinter
  · rw [not_or] at hidle
    rw [buzzerPoll_eq hs.immediate hidle.1 hidle.2]
    exact (hs.playing hkeeps hidle.2).inv hkeeps.1

theorem BuzzerInv.tone {s : BuzzerRun} (hs : BuzzerInv s.buzzer s.tick s.accepted) (d : Tone)
    (hkeeps : InTime s (.tone d)) :
    BuzzerInv (buzzerMachine.step s (.tone d)).1.buzzer s.tick
      (buzzerMachine.step s (.tone d)).1.accepted := by
  by_cases hroom : s.buzzer.writePos < maxBuzzerDataSize
  · have hwaiting := buzzerBeepTone_waiting d.toBuzzerData hroom (hkeeps hroom)
    have htone : buzzerBeepTone s.buzzer d.toBuzzerData =
        { s.buzzer with
          data := Function.update s.buzzer.data ⟨s.buzzer.writePos, hroom⟩ d.toBuzzerData
          writePos := s.buzzer.writePos + 1 } := by
      simp [buzzerBeepTone, hroom]
    have horder : (buzzerBeepTone s.buzzer d.toBuzzerData).started ++
        (buzzerBeepTone s.buzzer d.toBuzzerData).waiting.map BuzzerData.tone =
        s.accepted ++ [d.tone] := by
      rw [hwaiting, htone, List.map_append, ← List.append_assoc, ← hs.order]
      rfl
    simp only [buzzerMachine, hroom, if_true]
    rw [htone] at horder ⊢
    refine { hs with audible := fun i hi => ?_, idle := by simp, order := horder }
    dsimp only at hi ⊢
    rw [Function.update_apply]
    split_ifs with heq
    · exact ⟨d.toneFreq_pos, d.volume_pos, d.onTime_pos⟩
    · have hne : (i : ℕ) ≠ s.buzzer.writePos := fun h => heq (Fin.ext h)
      exact hs.audible i (by omega)
  · simpa [buzzerMachine, buzzerBeepTone, hroom] using hs

theorem buzzerStart_inv (tick : UInt32) :
    BuzzerInv (buzzerStart tick).buzzer (buzzerStart tick).tick (buzzerStart tick).accepted := by
  constructor <;> simp [buzzerStart, buzzerPowerUp, Buzzer.started, Buzzer.waiting]

theorem buzzerRun_inv {tick : UInt32} {ops : List BuzzerOp}
    (hkeeps : buzzerMachine.Along InTime (buzzerStart tick) ops) :
    let s := buzzerMachine.run (buzzerStart tick) ops
    BuzzerInv s.buzzer s.tick s.accepted := by
  refine buzzerMachine.run_invariant_of_along (C := InTime)
    (I := fun s => BuzzerInv s.buzzer s.tick s.accepted) ?_ ops (buzzerStart_inv tick) hkeeps
  intro s op hs hkeeps
  cases op with
  | tone d => exact hs.tone d hkeeps
  | poll => exact hs.poll hkeeps

/-! ## What waits is played -/

/-- What is left to play after a poll, in terms of the slot that it found or took up. -/
theorem playTime_step {s : BuzzerRun} (himm : s.buzzer.immediateEndTime = 0)
    (ht : s.tick.toNat + 1 < 2 ^ 32) (htick : s.tick ≠ 0) (hwrite : s.buzzer.writePos ≠ 0)
    {b : Buzzer} (htake : s.buzzer.takeUp s.tick = b) (hinter : b.interBeeping = true) :
    (buzzerMachine.step s .poll).1.playTime =
      b.beepOffTime.toNat + 1 - s.tick.toNat + (b.waiting.map BuzzerData.duration).sum := by
  have hsucc := tick_succ ht
  have hne : s.tick + 1 ≠ 0 := by
    intro h0
    simp [h0] at hsucc
  have hinter' : (b.sound s.tick).interBeeping = true := by simpa using hinter
  simp only [buzzerMachine, buzzerPoll_eq himm htick hwrite, htake, b.sound_beepOffTime]
  split_ifs with hoff
  · simp only [BuzzerRun.playTime, hne, hinter', hsucc, b.sound_beepOffTime, b.sound_waiting,
      if_true, if_false, Nat.zero_add]
    omega
  · have hnext : (b.sound s.tick).advance.interBeeping = false := by rw [Buzzer.advance_eq]
    rw [UInt32.le_iff_toNat_le] at hoff
    simp only [BuzzerRun.playTime, hne, hnext, Buzzer.advance_waiting hinter', b.sound_waiting,
      if_false, Bool.false_eq_true]
    omega

/-- What is left to play when a queued slot is about to be taken up. -/
theorem playTime_of_queued {s : BuzzerRun} (hinter : s.buzzer.interBeeping = false)
    (hqueued : s.buzzer.readPos < s.buzzer.writePos) :
    s.playTime = (if s.tick = 0 then 1 else 0) +
      ((s.buzzer.data s.buzzer.readPos).duration +
        ((s.buzzer.takeUp s.tick).waiting.map BuzzerData.duration).sum) := by
  simp [BuzzerRun.playTime, hinter, Buzzer.takeUp_waiting s.tick hinter hqueued]

/-- As long as a tone waits and the tick lasts, the writer is ahead. -/
theorem inTime_poll {s : BuzzerRun} (hwaits : s.buzzer.waiting ≠ [])
    (hlast : s.tick.toNat + s.playTime < 2 ^ 32) :
    s.buzzer.first < s.buzzer.writePos ∧ InTime s .poll := by
  have hahead : s.buzzer.first < s.buzzer.writePos := by
    by_contra hpast
    exact hwaits (Buzzer.waiting_eq_nil (by omega))
  have hpos : 2 ≤ (s.buzzer.waiting.map BuzzerData.duration).sum := by
    cases hw : s.buzzer.waiting with
    | nil => exact absurd hw hwaits
    | cons d ds =>
      rw [List.map_cons, List.sum_cons, BuzzerData.duration]
      omega
  refine ⟨hahead, by unfold BuzzerRun.playTime at hlast; omega, fun hinter _ => ?_⟩
  have hqueued : s.buzzer.readPos < s.buzzer.writePos := by
    simpa [Buzzer.first, hinter] using hahead
  rw [playTime_of_queued hinter hqueued, BuzzerData.duration] at hlast
  dsimp only
  rw [if_pos hqueued]
  omega

/-- A poll brings the last tone nearer. -/
theorem playTime_poll {s : BuzzerRun} (hs : BuzzerInv s.buzzer s.tick s.accepted)
    (hahead : s.buzzer.first < s.buzzer.writePos) (hkeeps : InTime s .poll) :
    (buzzerMachine.step s .poll).1.playTime < s.playTime := by
  have hwrite : s.buzzer.writePos ≠ 0 := by omega
  by_cases htick : s.tick = 0
  · -- the counter at zero is taken for an immediate beep
    have hidle : buzzerPoll s.buzzer s.tick = s.buzzer := buzzerPoll_idle hs.immediate (.inl htick)
    have hstep : (buzzerMachine.step s .poll).1 = { s with tick := 1 } := by
      simp only [buzzerMachine, hidle]
      rw [htick]
      rfl
    have hone : (1 : UInt32) ≠ 0 := by decide
    have htoNat : (0 : UInt32).toNat = 0 ∧ (1 : UInt32).toNat = 1 := ⟨rfl, rfl⟩
    rw [hstep]
    simp only [BuzzerRun.playTime, htick, hone, htoNat, if_true, if_false]
    split_ifs <;> omega
  cases hinter : s.buzzer.interBeeping with
  | true =>
    have htake : s.buzzer.takeUp s.tick = s.buzzer := by simp [Buzzer.takeUp, hinter]
    have hle := hs.ahead hinter
    rw [playTime_step hs.immediate hkeeps.1 htick hwrite htake hinter]
    simp only [BuzzerRun.playTime, htick, hinter, if_true, if_false]
    omega
  | false =>
    have hqueued : s.buzzer.readPos < s.buzzer.writePos := by
      simpa [Buzzer.first, hinter] using hahead
    have hfits := hkeeps.2 hinter hwrite
    dsimp only at hfits
    rw [if_pos hqueued] at hfits
    rw [playTime_step hs.immediate hkeeps.1 htick hwrite rfl (Buzzer.takeUp_interBeeping _ _),
      playTime_of_queued hinter hqueued, (Buzzer.takeUp_times hinter hfits).2,
      BuzzerData.duration, if_neg htick]
    omega

/-- Polls alone start all that waits. -/
theorem exists_started_eq {s : BuzzerRun} (hs : BuzzerInv s.buzzer s.tick s.accepted)
    (hlast : s.tick.toNat + s.playTime < 2 ^ 32) :
    ∃ n, (buzzerMachine.run s (List.replicate n .poll)).buzzer.started = s.accepted := by
  induction htime : s.playTime using Nat.strong_induction_on generalizing s with
  | _ time ih =>
    by_cases hwaits : s.buzzer.waiting = []
    · exact ⟨0, by simpa [hwaits] using hs.order⟩
    · obtain ⟨hahead, hkeeps⟩ := inTime_poll hwaits hlast
      have hless := playTime_poll hs hahead hkeeps
      have htick : (buzzerMachine.step s .poll).1.tick.toNat = s.tick.toNat + 1 :=
        tick_succ hkeeps.1
      obtain ⟨n, hn⟩ := ih _ (htime ▸ hless) (hs.poll hkeeps) (by omega) rfl
      exact ⟨n + 1, hn⟩

/-- The accepted tones are started in their order, each once, and those that still wait will
be by polls alone. -/
theorem buzzerPoll_inOrder (tick : UInt32) (ops : List BuzzerOp)
    (hkeeps : buzzerMachine.Along InTime (buzzerStart tick) ops) :
    let s := buzzerMachine.run (buzzerStart tick) ops
    InOrder s ∧ (s.tick.toNat + s.playTime < 2 ^ 32 →
      ∃ n, (buzzerMachine.run s (List.replicate n .poll)).buzzer.started = s.accepted) :=
  ⟨(buzzerRun_inv hkeeps).order, exists_started_eq (buzzerRun_inv hkeeps)⟩

/-- A short tone. -/
def shortTone (toneFreq : UInt16) (h : 0 < toneFreq) : Tone :=
  { toneFreq := toneFreq, volume := 50, onTime := 1, offTime := 0, toneFreq_pos := h,
    volume_pos := by decide, onTime_pos := by decide }

theorem buzzerPoll_inOrder_two :
    let s := buzzerMachine.run (buzzerStart 1) [.tone (shortTone 4000 (by decide)),
      .tone (shortTone 2000 (by decide)), .poll, .poll]
    InOrder s ∧ (s.tick.toNat + s.playTime < 2 ^ 32 →
      ∃ n, (buzzerMachine.run s (List.replicate n .poll)).buzzer.started = s.accepted) :=
  buzzerPoll_inOrder 1 _ (by decide +kernel)

/-- The reader has passed the second slot when its tone is queued. -/
theorem inOrder_not_late :
    ¬ InOrder (buzzerMachine.run (buzzerStart 1) ([.tone (shortTone 4000 (by decide))] ++
      List.replicate 6 .poll ++ [.tone (shortTone 2000 (by decide))] ++
      List.replicate 40 .poll)) := by
  unfold InOrder
  decide +kernel

end Gd32Firmware
