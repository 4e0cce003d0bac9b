import Gd32Firmware.SoftTimer
import Mathlib.Algebra.Group.Nat.Defs
import Mathlib.Data.Nat.Basic
import Mathlib.Data.List.Count
import Mathlib.Data.List.Induction

/-!
# What a timer reports, from the calls made to it

`TimerHistory` is the purpose of one timer, in unbounded numbers : the timeout and the
kind it was last initialised with, how many ticks have elapsed since it was last
restarted, and whether one of them expired since the last poll. `historyMachine` computes
it from the calls. `timers_represent` is the refinement : in every run the 32-bit counter,
the flag and the repeat bit of the array represent the history.

A tick of a repeating timer expires at every multiple of the timeout. A tick of any other
timer expires whenever the counter, which is never stopped and wraps at 2^32, is not below
the timeout. A poll reports whether an expiry is pending (`answer_isTimeout`), and
`pending_iff` says which tick makes it so.
-/

namespace Gd32Firmware

/-! ## The history of one timer -/

/-- What the calls so far say about one timer. -/
structure TimerHistory where
  /-- The timeout of the last initialiser, `0` before the first. -/
  timeout : UInt32
  /-- Whether the timer repeats. -/
  repeats : Bool
  /-- Ticks since the last initialiser, stop or reset. -/
  elapsed : ℕ
  /-- Whether a tick expired since then and since the last poll. -/
  pending : Bool
  deriving DecidableEq, Repr

/-- The `n`-th tick since the restart expires. -/
def expires (timeout : ℕ) (repeats : Bool) (n : ℕ) : Bool :=
  if repeats then n % max 1 timeout = 0 else timeout ≤ n % 2 ^ 32

/-- One call, seen from timer `i`. -/
def TimerHistory.step (i : ℕ) (h : TimerHistory) : TimerOp → TimerHistory
  | .singleInit j timeout => if j = i then ⟨timeout, false, 0, false⟩ else h
  | .repeatInit j timeout => if j = i then ⟨timeout, true, 0, false⟩ else h
  | .stop j => if j = i then { h with repeats := false, elapsed := 0, pending := false } else h
  | .reset j => if j = i then { h with elapsed := 0, pending := false } else h
  | .isTimeout j => if j = i then { h with pending := false } else h
  | .tick => { h with
      elapsed := h.elapsed + 1
      pending := h.pending || expires h.timeout.toNat h.repeats (h.elapsed + 1) }

/-- The histories of timer `i` as a state machine. -/
def historyMachine (i : ℕ) : Machine TimerHistory TimerOp Unit where
  step h op := (h.step i op, ())

@[simp] theorem historyMachine_step (i : ℕ) (h : TimerHistory) (op : TimerOp) :
    ((historyMachine i).step h op).1 = h.step i op :=
  rfl

/-- The history of a timer at power-up. -/
def TimerHistory.powerUp : TimerHistory :=
  ⟨0, false, 0, false⟩

/-- The slot of the array holds what the history says. -/
structure Represents (t : SoftwareTimer) (h : TimerHistory) : Prop where
  timeout : t.timeout = h.timeout
  isRepeat : t.isRepeat = if h.repeats then 1 else 0
  isTimeout : t.isTimeout = if h.pending then 1 else 0
  counter : t.counter.toNat =
    if h.repeats then h.elapsed % max 1 h.timeout.toNat else h.elapsed % 2 ^ 32

theorem represents_powerUp (i : Fin softTimerMax) :
    Represents (timersPowerUp i) .powerUp :=
  ⟨rfl, rfl, rfl, rfl⟩

/-- A repeating counter below its timeout restarts exactly at the next multiple. -/
theorem mod_max_succ (T n : ℕ) :
    (if n % max 1 T + 1 ≥ T then 0 else n % max 1 T + 1) = (n + 1) % max 1 T ∧
      (n % max 1 T + 1 ≥ T ↔ (n + 1) % max 1 T = 0) := by
  rcases Nat.eq_zero_or_pos T with rfl | hT
  · simp [Nat.mod_one]
  · rw [max_eq_right hT]
    have hlt := Nat.mod_lt n hT
    have hmod : (n + 1) % T = (n % T + 1) % T := by rw [Nat.mod_add_mod]
    by_cases h : n % T + 1 = T
    · rw [hmod, h]
      simp
    · rw [hmod, Nat.mod_eq_of_lt (by omega : n % T + 1 < T), if_neg (by omega)]
      omega

theorem represents_tick {t : SoftwareTimer} {h : TimerHistory} (ht : Represents t h) (i : ℕ) :
    Represents t.tick (h.step i .tick) := by
  obtain ⟨hT, hrep, hflag, hc⟩ := ht
  have hsucc : (t.counter + 1).toNat = (t.counter.toNat + 1) % 2 ^ 32 := UInt32.toNat_add _ _
  have hTlt : h.timeout.toNat < 2 ^ 32 := h.timeout.toNat_lt
  have hge : h.timeout ≤ t.counter + 1 ↔ h.timeout.toNat ≤ (t.counter.toNat + 1) % 2 ^ 32 := by
    rw [UInt32.le_iff_toNat_le, hsucc]
  cases hr : h.repeats with
  | false =>
    -- the counter follows the tick count modulo 2^32, whether or not it is past the timeout
    have hrep0 : t.isRepeat = 0 := by simpa [hr] using hrep
    have hcount : (t.counter.toNat + 1) % 2 ^ 32 = (h.elapsed + 1) % 2 ^ 32 := by
      rw [hc, hr, if_neg (by simp), Nat.mod_add_mod]
    rw [hcount] at hge hsucc
    by_cases hexp : h.timeout.toNat ≤ (h.elapsed + 1) % 2 ^ 32
    · have hg := hge.2 hexp
      simp only [Nat.reducePow] at hexp hsucc
      constructor <;>
        simp [SoftwareTimer.tick, TimerHistory.step, hg, hrep0, hT, hr, expires, hexp, hsucc]
    · have hg : ¬ h.timeout ≤ t.counter + 1 := fun hg => hexp (hge.1 hg)
      simp only [Nat.reducePow] at hexp hsucc
      constructor <;>
        simp [SoftwareTimer.tick, TimerHistory.step, hg, hrep0, hT, hr, expires, hexp, hsucc, hflag]
  | true =>
    -- a repeating counter stays below the timeout, so it cannot wrap
    have hrep1 : t.isRepeat = 1 := by simpa [hr] using hrep
    have hc' : t.counter.toNat = h.elapsed % max 1 h.timeout.toNat := by simpa [hr] using hc
    have hlt : h.elapsed % max 1 h.timeout.toNat < max 1 h.timeout.toNat :=
      Nat.mod_lt _ (by omega)
    obtain ⟨hnext, hexp⟩ := mod_max_succ h.timeout.toNat h.elapsed
    rw [hc', Nat.mod_eq_of_lt (by omega)] at hsucc hge
    by_cases hg : h.elapsed % max 1 h.timeout.toNat + 1 ≥ h.timeout.toNat
    · have hg' := hge.2 hg
      have h0 := hexp.1 hg
      constructor <;>
        simp [SoftwareTimer.tick, TimerHistory.step, hg', hrep1, hT, hr, expires, h0]
    · have hg' : ¬ h.timeout ≤ t.counter + 1 := fun h => hg (hge.1 h)
      have h0 : ¬ (h.elapsed + 1) % max 1 h.timeout.toNat = 0 := fun h => hg (hexp.2 h)
      rw [if_neg hg] at hnext
      constructor <;>
        simp [SoftwareTimer.tick, TimerHistory.step, hg', hrep1, hT, hr, expires, h0, hflag, hsucc,
          hnext]

/-- One call keeps the representation of every slot. -/
theorem represents_step (i : Fin softTimerMax) (timers : Timers) (h : TimerHistory) (op : TimerOp)
    (ht : Represents (timers i) h) :
    Represents ((timerMachine.step timers op).1 i) ((historyMachine i).step h op).1 := by
  cases op with
  | tick =>
    show Represents (softTimerTick timers i) _
    rw [softTimerTick_apply]
    exact represents_tick ht i
  | singleInit j timeout | repeatInit j timeout =>
    simp only [timerMachine, historyMachine, TimerHistory.step, softTimerSingleInit,
      softTimerRepeatInit, Timers.modify_apply]
    split_ifs
    · exact ⟨rfl, rfl, rfl, by simp⟩
    · exact ht
  | stop j =>
    simp only [timerMachine, historyMachine, TimerHistory.step, softTimerStop, Timers.modify_apply]
    split_ifs
    · exact ⟨ht.timeout, rfl, rfl, by simp⟩
    · exact ht
  | reset j =>
    simp only [timerMachine, historyMachine, TimerHistory.step, softTimerReset, Timers.modify_apply]
    split_ifs
    · exact ⟨ht.timeout, ht.isRepeat, rfl, by simp⟩
    · exact ht
  | isTimeout j =>
    simp only [timerMachine, historyMachine, TimerHistory.step, softTimerIsTimeout_apply]
    split_ifs
    · exact ⟨ht.timeout, ht.isRepeat, rfl, ht.counter⟩
    · exact ht

/-- In every run the array represents the history of each timer. -/
theorem timers_represent (i : Fin softTimerMax) (ops : List TimerOp) {timers : Timers}
    {h : TimerHistory} (ht : Represents (timers i) h) :
    Represents (timerMachine.run timers ops i) ((historyMachine i).run h ops) :=
  timerMachine.run_simulates (historyMachine i) (R := fun ts h => Represents (ts i) h)
    (fun ts h op => represents_step i ts h op) ops ht

/-- A poll reports a pending expiry of the history, and nothing else. -/
theorem answer_isTimeout (i : Fin softTimerMax) (pre : List TimerOp) {timers : Timers}
    {h : TimerHistory} (ht : Represents (timers i) h) :
    timerMachine.answer timers pre (.isTimeout i) =
      some (if ((historyMachine i).run h pre).pending then 1 else 0) := by
  have hrep := timers_represent i pre ht
  simp only [Machine.answer, timerMachine, softTimerIsTimeout_ret, Option.some.injEq]
  exact hrep.isTimeout

/-! ## Which tick is pending -/

/-- The call restarts timer `i` : an initialiser, a stop or a reset of it. -/
def TimerOp.Restarts (i : ℕ) : TimerOp → Prop
  | .singleInit j _ | .repeatInit j _ | .stop j | .reset j => j = i
  | .isTimeout _ | .tick => False

instance (i : ℕ) : DecidablePred (TimerOp.Restarts i) := fun op => by
  cases op <;> unfold TimerOp.Restarts <;> infer_instance

/-- The call neither polls nor restarts timer `i`, so it leaves a pending expiry pending. -/
def TimerOp.KeepsPending (i : ℕ) (op : TimerOp) : Prop :=
  op ≠ .isTimeout i ∧ ¬ op.Restarts i

/-- A marked call of a run that grew by one call is the new call or one of the old ones. -/
theorem exists_split_concat {P : List TimerOp → List TimerOp → Prop} (pre : List TimerOp)
    (op x : TimerOp) :
    (∃ a b, pre ++ [op] = a ++ x :: b ∧ P a b) ↔
      (op = x ∧ P pre []) ∨ ∃ a b, pre = a ++ x :: b ∧ P a (b ++ [op]) := by
  constructor
  · rintro ⟨a, b, hab, hP⟩
    induction b using List.reverseRecOn with
    | nil =>
      obtain ⟨rfl, hx⟩ := List.append_inj' hab rfl
      exact Or.inl ⟨List.singleton_inj.1 hx, hP⟩
    | append_singleton b y =>
      rw [← List.cons_append, ← List.append_assoc] at hab
      obtain ⟨rfl, hy⟩ := List.append_inj' hab rfl
      rw [List.singleton_inj] at hy
      exact Or.inr ⟨a, b, rfl, hy ▸ hP⟩
  · rintro (⟨rfl, hP⟩ | ⟨a, b, rfl, hP⟩)
    · exact ⟨pre, [], rfl, hP⟩
    · exact ⟨a, b ++ [op], by simp, hP⟩

/-- A call that is not a tick keeps the pending expiry, or clears it. -/
theorem step_pending (i : ℕ) (h : TimerHistory) {op : TimerOp} (hop : op ≠ .tick) :
    (h.step i op).pending = true ↔ op.KeepsPending i ∧ h.pending = true := by
  cases op with
  | tick => exact absurd rfl hop
  | _ =>
    simp only [TimerHistory.step, TimerOp.KeepsPending, TimerOp.Restarts]
    split_ifs with hj <;> simp [hj]

theorem step_tick_pending (i : ℕ) (h : TimerHistory) :
    (h.step i .tick).pending = true ↔
      h.pending = true ∨ expires h.timeout.toNat h.repeats (h.elapsed + 1) = true := by
  simp [TimerHistory.step]

/-- An expiry is pending exactly if some tick expired and was neither polled nor
followed by a restart. -/
theorem pending_iff (i : ℕ) {h : TimerHistory} (h0 : h.pending = false) (pre : List TimerOp) :
    ((historyMachine i).run h pre).pending = true ↔
      ∃ a b, pre = a ++ .tick :: b ∧
        expires ((historyMachine i).run h a).timeout.toNat ((historyMachine i).run h a).repeats
          (((historyMachine i).run h a).elapsed + 1) = true ∧
        ∀ op ∈ b, op.KeepsPending i := by
  induction pre using List.reverseRecOn with
  | nil => simp [h0]
  | append_singleton pre op ih =>
    rw [Machine.run_concat, exists_split_concat]
    by_cases htick : op = .tick
    · subst htick
      have hkeep : TimerOp.KeepsPending i .tick := ⟨by simp, id⟩
      rw [historyMachine_step, step_tick_pending, ih, or_comm]
      simp [or_imp, forall_and, hkeep]
    · rw [historyMachine_step, step_pending i _ htick, ih]
      simp only [htick, false_and, false_or, List.mem_append, List.mem_singleton, or_imp,
        forall_and, forall_eq]
      constructor
      · rintro ⟨hop, a, b, hpre, hexpires, hb⟩
        exact ⟨a, b, hpre, hexpires, hb, hop⟩
      · rintro ⟨a, b, hpre, hexpires, hb, hop⟩
        exact ⟨hop, a, b, hpre, hexpires, hb⟩

end Gd32Firmware
