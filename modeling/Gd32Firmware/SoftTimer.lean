import Gd32Firmware.Machine
import Mathlib.Data.Fin.Basic
import Mathlib.Data.List.FinRange

/-!
# The software timers

`module/soft_timer/soft_timer.c` : an array of `SOFT_TIMER_MAX` timers, counted by the
SysTick interrupt (`softTimerTick`) and polled by the main loop (`softTimerIsTimeout`).
A timer has a counter, the timeout it counts to, a flag that the tick raises and the poll
clears, and a bit that says whether the counter restarts at the timeout.

The initialisers, `softTimerStop` and `softTimerReset` run with interrupts disabled, so
each is one step of `timerMachine`. An index at or above `SOFT_TIMER_MAX` is ignored.
-/

namespace Gd32Firmware

/-- `SOFT_TIMER_MAX`, the number of timers. -/
def softTimerMax : Nat := 10

/-- One `software_timer`. -/
structure SoftwareTimer where
  counter : UInt32
  timeout : UInt32
  isTimeout : UInt8
  isRepeat : UInt8
  deriving DecidableEq, Repr

/-- The static array `timers`. -/
abbrev Timers := Fin softTimerMax → SoftwareTimer

/-- The array at power-up : static storage is zero. -/
def timersPowerUp : Timers :=
  fun _ => ⟨0, 0, 0, 0⟩

/-- Change one timer, if the index is one. -/
def Timers.modify (timers : Timers) (timer : Nat) (f : SoftwareTimer → SoftwareTimer) : Timers :=
  if h : timer < softTimerMax then Function.update timers ⟨timer, h⟩ (f (timers ⟨timer, h⟩))
  else timers

def softTimerSingleInit (timers : Timers) (timer : Nat) (timeout : UInt32) : Timers :=
  timers.modify timer fun _ => { counter := 0, timeout := timeout, isTimeout := 0, isRepeat := 0 }

def softTimerRepeatInit (timers : Timers) (timer : Nat) (timeout : UInt32) : Timers :=
  timers.modify timer fun _ => { counter := 0, timeout := timeout, isTimeout := 0, isRepeat := 1 }

/-- `soft_timer_stop` leaves `timeout` as it is. -/
def softTimerStop (timers : Timers) (timer : Nat) : Timers :=
  timers.modify timer fun t => { t with isTimeout := 0, counter := 0, isRepeat := 0 }

/-- `soft_timer_reset` leaves `timeout` and `is_repeat` as they are. -/
def softTimerReset (timers : Timers) (timer : Nat) : Timers :=
  timers.modify timer fun t => { t with counter := 0, isTimeout := 0 }

/-- `soft_timer_is_timeout` : the flag, which is cleared if it was set. -/
def softTimerIsTimeout (timers : Timers) (timer : Nat) : Timers × UInt8 :=
  if h : timer < softTimerMax then
    let ret := (timers ⟨timer, h⟩).isTimeout
    if ret ≠ 0 then (timers.modify timer fun t => { t with isTimeout := 0 }, ret)
    else (timers, ret)
  else (timers, 0)

/-- The body of the tick's loop. -/
def SoftwareTimer.tick (t : SoftwareTimer) : SoftwareTimer :=
  let counter := t.counter + 1
  if counter ≥ t.timeout then
    { t with counter := if t.isRepeat ≠ 0 then 0 else counter, isTimeout := 1 }
  else { t with counter := counter }

/-- `soft_timer_tick` visits every slot of the array, started or not. -/
def softTimerTick (timers : Timers) : Timers :=
  (List.finRange softTimerMax).foldl (fun ts i => Function.update ts i (ts i).tick) timers

/-- What the program can do to the timers. -/
inductive TimerOp where
  | singleInit (timer : Nat) (timeout : UInt32)
  | repeatInit (timer : Nat) (timeout : UInt32)
  | stop (timer : Nat)
  | reset (timer : Nat)
  | isTimeout (timer : Nat)
  | tick
  deriving DecidableEq, Repr

/-- The timers as a state machine. A poll is answered with its return value. -/
def timerMachine : Machine Timers TimerOp (Option UInt8) where
  step timers
    | .singleInit timer timeout => (softTimerSingleInit timers timer timeout, none)
    | .repeatInit timer timeout => (softTimerRepeatInit timers timer timeout, none)
    | .stop timer => (softTimerStop timers timer, none)
    | .reset timer => (softTimerReset timers timer, none)
    | .isTimeout timer =>
      ((softTimerIsTimeout timers timer).1, some (softTimerIsTimeout timers timer).2)
    | .tick => (softTimerTick timers, none)

/-! ## What an operation does to one timer -/

section Slots

variable (timers : Timers) (i : Fin softTimerMax)

@[simp] theorem Timers.modify_apply (timer : Nat) (f : SoftwareTimer → SoftwareTimer) :
    timers.modify timer f i = if timer = i then f (timers i) else timers i := by
  unfold Timers.modify
  split_ifs with h hi hi
  · obtain rfl : i = ⟨timer, h⟩ := Fin.ext hi.symm
    simp
  · rw [Function.update_of_ne]
    rintro rfl
    exact hi rfl
  · exact absurd (hi ▸ i.isLt) h
  · rfl

/-- Updating the listed slots one after the other ticks each of them once. -/
theorem foldl_tick_apply (l : List (Fin softTimerMax)) (hl : l.Nodup) :
    l.foldl (fun ts j => Function.update ts j (ts j).tick) timers i =
      if i ∈ l then (timers i).tick else timers i := by
  induction l generalizing timers with
  | nil => simp
  | cons j l ih =>
    rw [List.nodup_cons] at hl
    rw [List.foldl_cons, ih _ hl.2]
    by_cases hij : i = j
    · subst hij
      simp [hl.1]
    · simp [hij]

@[simp] theorem softTimerTick_apply : softTimerTick timers i = (timers i).tick := by
  rw [softTimerTick, foldl_tick_apply _ _ _ (List.nodup_finRange _), if_pos (List.mem_finRange i)]

@[simp] theorem softTimerIsTimeout_apply (timer : Nat) :
    (softTimerIsTimeout timers timer).1 i =
      if timer = i then { timers i with isTimeout := 0 } else timers i := by
  unfold softTimerIsTimeout
  split_ifs with h hi hi
  · obtain rfl : i = ⟨timer, h⟩ := Fin.ext hi.symm
    by_cases hf : (timers ⟨timer, h⟩).isTimeout = 0 <;> simp [hf]
    rw [← hf]
  · by_cases hf : (timers ⟨timer, h⟩).isTimeout = 0 <;> simp [hf, hi]
  · exact absurd (hi ▸ i.isLt) h
  · rfl

/-- The value a poll returns is the flag it finds. -/
theorem softTimerIsTimeout_ret : (softTimerIsTimeout timers i).2 = (timers i).isTimeout := by
  unfold softTimerIsTimeout
  rw [dif_pos i.isLt]
  by_cases hf : (timers i).isTimeout = 0 <;> simp [hf]

end Slots

end Gd32Firmware
