import Gd32Firmware.SoftTimerExpiry

/-!
# What a poll of a repeating timer returns

A timer initialised by `soft_timer_repeat_init`, and from then on only polled and reset,
counts its ticks from the last reset. A poll returns `1` exactly if a multiple of the
timeout was reached since the last poll (`softTimerIsTimeout_repeat`), whatever is done to
the other timers.
-/

namespace Gd32Firmware

/-- The call neither initialises nor stops timer `i`. -/
def TimerOp.LeavesRunning (i : ℕ) : TimerOp → Prop
  | .singleInit j _ | .repeatInit j _ | .stop j => j ≠ i
  | .reset _ | .isTimeout _ | .tick => True

/-- The call is a tick or a call on timer `i`. -/
def TimerOp.concerns (i : ℕ) : TimerOp → Bool
  | .singleInit j _ | .repeatInit j _ | .stop j | .reset j | .isTimeout j => j = i
  | .tick => true

/-- Since the last poll and the last restart of timer `i` there was a tick whose number,
counted from that restart, is a multiple of `T`. -/
def Due (i : ℕ) (T : UInt32) (pre : List TimerOp) : Prop :=
  ∃ a b, pre = a ++ .tick :: b ∧ T.toNat ∣ ticksSinceRestart i a + 1 ∧
    ∀ op ∈ b, op.KeepsPending i

/-- A call that does not concern a timer leaves its history alone. -/
theorem step_of_not_concerns {i : ℕ} {op : TimerOp} (hop : op.concerns i = false)
    (h : TimerHistory) : h.step i op = h := by
  cases op <;> simp_all [TimerOp.concerns, TimerHistory.step]

/-- The history of a timer is made by the calls that concern it. -/
theorem run_filter_concerns (i : ℕ) (h : TimerHistory) (pre : List TimerOp) :
    (historyMachine i).run h (pre.filter (TimerOp.concerns i)) = (historyMachine i).run h pre := by
  induction pre generalizing h with
  | nil => rfl
  | cons op pre ih =>
    cases hop : op.concerns i with
    | true => rw [List.filter_cons_of_pos hop, Machine.run_cons, Machine.run_cons, ih]
    | false =>
      rw [List.filter_cons_of_neg (by simp [hop]), Machine.run_cons, historyMachine_step,
        step_of_not_concerns hop, ih]

/-- The history of a repeating timer counts the ticks since the last reset. -/
theorem run_repeat (i : ℕ) (T : UInt32) (pre : List TimerOp)
    (hpre : ∀ op ∈ pre, op.LeavesRunning i) :
    ∃ pending, (historyMachine i).run ⟨T, true, 0, false⟩ pre =
      ⟨T, true, ticksSinceRestart i pre, pending⟩ := by
  induction pre using List.reverseRecOn with
  | nil => exact ⟨false, rfl⟩
  | append_singleton pre op ih =>
    simp only [List.mem_append, or_imp, forall_and, List.mem_singleton, forall_eq] at hpre
    obtain ⟨pending, hrun⟩ := ih hpre.1
    rw [Machine.run_concat, hrun, historyMachine_step, ticksSinceRestart_concat]
    cases op with
    | tick => exact ⟨_, rfl⟩
    | isTimeout j | reset j =>
      by_cases hj : j = i <;> simp [TimerHistory.step, TimerOp.Restarts, hj]
    | _ j =>
      have hj : ¬ j = i := hpre.2
      simp [TimerHistory.step, TimerOp.Restarts, hj]

theorem represents_repeatInit (i : Fin softTimerMax) (T : UInt32) (timers : Timers) :
    Represents (softTimerRepeatInit timers i T i) ⟨T, true, 0, false⟩ := by
  rw [softTimerRepeatInit, Timers.modify_apply, if_pos rfl]
  exact ⟨rfl, rfl, rfl, by simp⟩

/-- An expiry of a repeating timer is pending exactly if it is due. -/
theorem pending_repeat (i : ℕ) (T : UInt32) (hT : 1 ≤ T) (pre : List TimerOp)
    (hpre : ∀ op ∈ pre, op.LeavesRunning i) :
    ((historyMachine i).run ⟨T, true, 0, false⟩ pre).pending = true ↔ Due i T pre := by
  have hpos : 1 ≤ T.toNat := by simpa [UInt32.le_iff_toNat_le] using hT
  rw [pending_iff i rfl]
  refine exists_congr fun a => exists_congr fun b => and_congr_right fun hab =>
    and_congr_left fun _ => ?_
  subst hab
  simp only [List.mem_append, or_imp, forall_and] at hpre
  obtain ⟨pending, hrun⟩ := run_repeat i T a hpre.1
  simp [hrun, expires, max_eq_right hpos, Nat.dvd_iff_mod_eq_zero]

/-- A poll of a repeating timer returns `1` if an expiry is due and `0` otherwise, and
calls on other timers have no influence on it. -/
theorem softTimerIsTimeout_repeat (i : Fin softTimerMax) (T : UInt32) (hT : 1 ≤ T)
    (timers : Timers) (pre : List TimerOp) (hpre : ∀ op ∈ pre, op.LeavesRunning i) :
    let start := softTimerRepeatInit timers i T
    (timerMachine.answer start pre (.isTimeout i) = some 1 ↔ Due i T pre) ∧
      (timerMachine.answer start pre (.isTimeout i) = some 0 ↔ ¬ Due i T pre) ∧
      timerMachine.answer start (pre.filter (TimerOp.concerns i)) (.isTimeout i) =
        timerMachine.answer start pre (.isTimeout i) := by
  intro start
  have hans (pre : List TimerOp) := answer_isTimeout i pre (represents_repeatInit i T timers)
  rw [hans, hans, run_filter_concerns, ← pending_repeat i T hT pre hpre]
  cases ((historyMachine i).run ⟨T, true, 0, false⟩ pre).pending <;> simp

/-- A period of two ticks, restarted after the first one and reported before the second. -/
theorem softTimerIsTimeout_repeat_two :
    let start := softTimerRepeatInit timersPowerUp 3 2
    let pre : List TimerOp := [.tick, .reset 3, .tick, .stop 4, .tick]
    (timerMachine.answer start pre (.isTimeout 3) = some 1 ↔ Due 3 2 pre) ∧
      (timerMachine.answer start pre (.isTimeout 3) = some 0 ↔ ¬ Due 3 2 pre) ∧
      timerMachine.answer start (pre.filter (TimerOp.concerns 3)) (.isTimeout 3) =
        timerMachine.answer start pre (.isTimeout 3) :=
  softTimerIsTimeout_repeat ⟨3, by decide⟩ 2 (by decide) timersPowerUp _
    (by simp [TimerOp.LeavesRunning])

end Gd32Firmware
