import Gd32Firmware.SoftTimerHistory

/-!
# When a timer expires once, and when it stays silent

A single-shot timer is expected to report once, and a timer that was never started or was
stopped is expected to report nothing. Nothing in `software_timer` remembers that a shot was
fired or that a timer was stopped : the tick counts every slot of the array, and raises the
flag whenever the counter is not below the timeout. The two exact conditions follow from the
history of the timer (`answer_isTimeout`, `pending_iff`) :

* `singleShot_iff` : a single-shot timer reports once unless a tick after the first report
  finds the counter at or above the timeout again (`TickFiresAgain`);
* `neverReports_iff` : an inactive timer stays silent unless a tick takes its counter to the
  timeout that the last initialiser left behind (`InactiveExpiry`).
-/

namespace Gd32Firmware

/-- How many ticks are among the calls. -/
def ticks (ops : List TimerOp) : ℕ :=
  ops.count .tick

@[simp] theorem ticks_nil : ticks [] = 0 :=
  rfl

@[simp] theorem ticks_append (a b : List TimerOp) : ticks (a ++ b) = ticks a + ticks b :=
  List.count_append

@[simp] theorem ticks_cons_tick (ops : List TimerOp) : ticks (.tick :: ops) = ticks ops + 1 :=
  List.count_cons_self

@[simp] theorem ticks_cons_of_ne {op : TimerOp} (hop : op ≠ .tick) (ops : List TimerOp) :
    ticks (op :: ops) = ticks ops :=
  List.count_cons_of_ne hop

/-- A list with more than `n` ticks has an `n + 1`-st one. -/
theorem exists_tick {n : ℕ} : ∀ {ops : List TimerOp}, n < ticks ops →
    ∃ a b, ops = a ++ .tick :: b ∧ ticks a = n
  | [], h => by simp at h
  | op :: ops, h => by
    by_cases hop : op = .tick
    · subst hop
      cases n with
      | zero => exact ⟨[], ops, rfl, rfl⟩
      | succ n =>
        rw [ticks_cons_tick] at h
        obtain ⟨a, b, rfl, hn⟩ := exists_tick (Nat.lt_of_succ_lt_succ h)
        exact ⟨.tick :: a, b, rfl, by rw [ticks_cons_tick, hn]⟩
    · rw [ticks_cons_of_ne hop] at h
      obtain ⟨a, b, rfl, hn⟩ := exists_tick h
      exact ⟨op :: a, b, rfl, by rw [ticks_cons_of_ne hop, hn]⟩

/-! ## A single shot -/

/-- The poll of timer `i` after the calls `pre` is the first one after the `T`-th tick. -/
def FirstPollAfter (i : ℕ) (T : UInt32) (pre : List TimerOp) : Prop :=
  ∃ a b, pre = a ++ .tick :: b ∧ ticks a + 1 = T.toNat ∧ .isTimeout i ∉ b

/-- The timer expires once : in the run `ops` the first poll after the `T`-th tick returns
`1`, and every other poll returns `0`. -/
def SingleShot (i : ℕ) (T : UInt32) (timers : Timers) (ops : List TimerOp) : Prop :=
  ∀ pre post, ops = pre ++ .isTimeout i :: post →
    (FirstPollAfter i T pre → timerMachine.answer timers pre (.isTimeout i) = some 1) ∧
    (¬ FirstPollAfter i T pre → timerMachine.answer timers pre (.isTimeout i) = some 0)

/-- After a poll that already follows the `T`-th tick, another tick finds the counter, taken
modulo 2^32, at or above the timeout, and the timer is polled again. -/
def TickFiresAgain (i : ℕ) (T : UInt32) (ops : List TimerOp) : Prop :=
  ∃ a b c d, ops = a ++ .isTimeout i :: (b ++ .tick :: (c ++ .isTimeout i :: d)) ∧
    T.toNat ≤ ticks a ∧ T.toNat ≤ (ticks a + ticks b + 1) % 2 ^ 32 ∧ .isTimeout i ∉ c

/-- Without a restart the history of a single-shot timer counts the ticks. -/
theorem run_singleShot (i : ℕ) (T : UInt32) (pre : List TimerOp)
    (hpre : ∀ op ∈ pre, ¬ op.Restarts i) :
    ∃ pending, (historyMachine i).run ⟨T, false, 0, false⟩ pre =
      ⟨T, false, ticks pre, pending⟩ := by
  induction pre using List.reverseRecOn with
  | nil => exact ⟨false, rfl⟩
  | append_singleton pre op ih =>
    simp only [List.mem_append, or_imp, forall_and, List.mem_singleton, forall_eq] at hpre
    obtain ⟨pending, hrun⟩ := ih hpre.1
    rw [Machine.run_concat, hrun, historyMachine_step]
    cases op with
    | tick => exact ⟨_, by rw [ticks_append]; rfl⟩
    | isTimeout j => by_cases hj : j = i <;> simp [TimerHistory.step, hj]
    | _ j =>
      have hj : ¬ j = i := hpre.2
      simp [TimerHistory.step, hj]

/-- A poll returns `1` exactly if some tick since the last poll found the counter at or
above the timeout. -/
theorem answer_singleShot (i : Fin softTimerMax) (T : UInt32) (timers : Timers)
    (pre : List TimerOp) (hpre : ∀ op ∈ pre, ¬ op.Restarts i) :
    ∃ flag : Bool, timerMachine.answer (softTimerSingleInit timers i T) pre (.isTimeout i) =
        some (if flag then 1 else 0) ∧
      (flag = true ↔ ∃ a b, pre = a ++ .tick :: b ∧ T.toNat ≤ (ticks a + 1) % 2 ^ 32 ∧
        .isTimeout i ∉ b) := by
  have hinit : Represents (softTimerSingleInit timers i T i) ⟨T, false, 0, false⟩ := by
    rw [softTimerSingleInit, Timers.modify_apply, if_pos rfl]
    exact ⟨rfl, rfl, rfl, by simp⟩
  refine ⟨_, answer_isTimeout i pre hinit, ?_⟩
  rw [pending_iff i rfl]
  refine exists_congr fun a => exists_congr fun b => and_congr_right fun hab => ?_
  subst hab
  simp only [List.mem_append, List.mem_cons, or_imp, forall_and] at hpre
  obtain ⟨pending, hrun⟩ := run_singleShot i T a hpre.1
  rw [hrun]
  refine and_congr (by simp [expires]) ⟨fun hb hmem => (hb _ hmem).1 rfl, fun hb op hop => ?_⟩
  exact ⟨fun h => hb (h ▸ hop), hpre.2.2 op hop⟩

/-- A poll before the last counted tick ends the hope of being the first one. -/
theorem not_firstPollAfter {i : ℕ} {T : UInt32} {a b : List TimerOp} (ha : T.toNat ≤ ticks a) :
    ¬ FirstPollAfter i T (a ++ .isTimeout i :: b) := by
  rintro ⟨a', b', hsplit, hT, hpoll⟩
  rcases List.append_eq_append_iff.1 hsplit with ⟨x, rfl, hx⟩ | ⟨x, rfl, hx⟩
  · -- the `T`-th tick would come after the poll, but `a` already has `T` ticks
    rw [ticks_append] at hT
    omega
  · cases x with
    | nil => simp at hx
    | cons y x =>
      rw [List.cons_append, List.cons.injEq] at hx
      exact hpoll (hx.2 ▸ by simp)

/-- A single-shot timer expires once, in every run without a restart of it, unless a tick
fires it again. -/
theorem singleShot_iff (i : Fin softTimerMax) (T : UInt32) (hT : 1 ≤ T) (timers : Timers)
    (ops : List TimerOp) (hops : ∀ op ∈ ops, ¬ op.Restarts i) :
    SingleShot i T (softTimerSingleInit timers i T) ops ↔ ¬ TickFiresAgain i T ops := by
  have hpos : 1 ≤ T.toNat := by simpa [UInt32.le_iff_toNat_le] using hT
  constructor
  · rintro honce ⟨a, b, c, d, hsplit, ha, hexp, hc⟩
    -- the last poll of the pattern is answered, and is not the first one
    have hpre : ops = (a ++ .isTimeout i :: (b ++ .tick :: c)) ++ .isTimeout i :: d := by
      simp [hsplit]
    obtain ⟨flag, hans, hflag⟩ := answer_singleShot i T timers
      (a ++ .isTimeout i :: (b ++ .tick :: c)) fun op hop =>
        hops op (hpre ▸ List.mem_append_left _ hop)
    have hone : flag = true := hflag.2 ⟨a ++ .isTimeout i :: b, c, by simp, by
      simpa using hexp, hc⟩
    have hzero := (honce _ d hpre).2 (not_firstPollAfter ha)
    rw [hans, hone] at hzero
    simp at hzero
  · rintro hnot pre post rfl
    obtain ⟨flag, hans, hflag⟩ := answer_singleShot i T timers pre fun op hop =>
      hops op (by simp [hop])
    rw [hans]
    constructor
    · rintro ⟨a, b, rfl, ha, hb⟩
      rw [if_pos (hflag.2 ⟨a, b, rfl, ?_, hb⟩)]
      rw [ha, Nat.mod_eq_of_lt T.toNat_lt]
    · intro hfirst
      cases flag with
      | false => rfl
      | true =>
        obtain ⟨a, b, rfl, hexp, hb⟩ := hflag.1 rfl
        have hle : T.toNat ≤ ticks a + 1 := hexp.trans (Nat.mod_le _ _)
        rcases Nat.lt_or_ge (ticks a) T.toNat with hlt | hge
        · exact absurd ⟨a, b, rfl, by omega, hb⟩ hfirst
        · -- the `T`-th tick is in `a`; a poll follows it, or this poll were the first
          obtain ⟨a₁, a₂, rfl, hn⟩ := exists_tick (show T.toNat - 1 < ticks a by omega)
          have hT' : ticks a₁ + 1 = T.toNat := by
            rw [hn, Nat.sub_add_cancel hpos]
          have hpoll : .isTimeout i.1 ∈ a₂ := by
            by_contra hno
            exact hfirst ⟨a₁, a₂ ++ .tick :: b, by simp, hT', by simp [hno, hb]⟩
          obtain ⟨x, y, rfl⟩ := List.append_of_mem hpoll
          refine absurd ⟨a₁ ++ .tick :: x, y, b, post, by simp, ?_, ?_, hb⟩ hnot
          · simp only [ticks_append, ticks_cons_tick]
            omega
          · have hcount : ticks (a₁ ++ .tick :: x) + ticks y =
                ticks (a₁ ++ .tick :: (x ++ .isTimeout i.1 :: y)) := by
              simp
              omega
            rwa [hcount]

/-- A shot of two ticks, polled once. -/
theorem singleShot_iff_two :
    SingleShot 3 2 (softTimerSingleInit timersPowerUp 3 2) [.tick, .tick, .isTimeout 3] ↔
      ¬ TickFiresAgain 3 2 [.tick, .tick, .isTimeout 3] :=
  singleShot_iff ⟨3, by decide⟩ 2 (by decide) timersPowerUp _ (by decide)

/-- A shot of one tick is reported again after the next tick. -/
theorem singleShot_fires_twice :
    (∀ op ∈ [TimerOp.tick, .isTimeout 3, .tick, .isTimeout 3], ¬ op.Restarts 3) ∧
      ¬ SingleShot 3 1 (softTimerSingleInit timersPowerUp 3 1)
        [.tick, .isTimeout 3, .tick, .isTimeout 3] := by
  refine ⟨by decide, fun honce => ?_⟩
  have hnot : ¬ FirstPollAfter 3 1 [.tick, .isTimeout 3, .tick] := by
    rintro ⟨a, b, hab, hT, hb⟩
    rcases a with _ | ⟨x, a⟩
    · rw [List.nil_append, List.cons.injEq] at hab
      exact hb (hab.2 ▸ by simp)
    · -- a first tick inside `a` is one too many
      rw [List.cons_append, List.cons.injEq] at hab
      rw [← hab.1, ticks_cons_tick] at hT
      simp at hT
  have hzero := (honce [.tick, .isTimeout 3, .tick] [] rfl).2 hnot
  have hone : timerMachine.answer (softTimerSingleInit timersPowerUp 3 1)
      [.tick, .isTimeout 3, .tick] (.isTimeout 3) = some 1 := by decide
  rw [hone] at hzero
  exact absurd hzero (by decide)

/-! ## An inactive timer -/

/-- The call initialises timer `i`. -/
def TimerOp.Inits (i : ℕ) : TimerOp → Prop
  | .singleInit j _ | .repeatInit j _ => j = i
  | .stop _ | .reset _ | .isTimeout _ | .tick => False

theorem TimerOp.Inits.restarts {i : ℕ} : ∀ {op : TimerOp}, op.Inits i → op.Restarts i
  | .singleInit _ _, h | .repeatInit _ _, h => h

/-- After the calls `pre` timer `i` is not started : every initialiser of it was followed by
a stop. -/
def Inactive (i : ℕ) (pre : List TimerOp) : Prop :=
  ∀ a op b, pre = a ++ op :: b → op.Inits i → .stop i ∈ b

/-- The timeout that the last initialiser of timer `i` left, `0` before the first. -/
def lastTimeout (i : ℕ) (pre : List TimerOp) : UInt32 :=
  pre.foldl (fun timeout op => match op with
    | .singleInit j t | .repeatInit j t => if j = i then t else timeout
    | _ => timeout) 0

/-- The ticks since timer `i` was last initialised, stopped or reset. -/
def ticksSinceRestart (i : ℕ) (pre : List TimerOp) : ℕ :=
  pre.foldl (fun n op => if op.Restarts i then 0 else if op = .tick then n + 1 else n) 0

theorem ticksSinceRestart_concat (i : ℕ) (pre : List TimerOp) (op : TimerOp) :
    ticksSinceRestart i (pre ++ [op]) =
      if op.Restarts i then 0
      else if op = .tick then ticksSinceRestart i pre + 1 else ticksSinceRestart i pre := by
  simp [ticksSinceRestart]

/-- Every poll of timer `i` that finds it inactive returns `0`, in the run `ops` from
power-up. -/
def NeverReports (i : ℕ) (ops : List TimerOp) : Prop :=
  ∀ pre post, ops = pre ++ .isTimeout i :: post → Inactive i pre →
    timerMachine.answer timersPowerUp pre (.isTimeout i) = some 0

/-- Timer `i` is polled while it is inactive, after a tick that took its counter, modulo
2^32, to the timeout left in its slot, with neither a poll nor a restart between. -/
def InactiveExpiry (i : ℕ) (ops : List TimerOp) : Prop :=
  ∃ a b c, ops = a ++ .tick :: (b ++ .isTimeout i :: c) ∧ Inactive i a ∧
    (lastTimeout i a).toNat ≤ (ticksSinceRestart i a + 1) % 2 ^ 32 ∧
    ∀ op ∈ b, op.KeepsPending i

/-- The last call of a run that leaves the timer inactive. -/
theorem inactive_concat {i : ℕ} {pre : List TimerOp} {op : TimerOp} (h : Inactive i (pre ++ [op])) :
    op = .stop i ∨ (¬ op.Inits i ∧ Inactive i pre) := by
  by_cases hstop : op = .stop i
  · exact Or.inl hstop
  · refine Or.inr ⟨fun hop => ?_, fun a x b hab hx => ?_⟩
    · simpa using h pre op [] rfl hop
    · have hmem := h a x (b ++ [op]) (by simp [hab]) hx
      simpa [Ne.symm hstop] using hmem

/-- Calls that neither poll nor restart the timer leave it as inactive as it was. -/
theorem inactive_append {i : ℕ} {a b : List TimerOp} (hb : ∀ op ∈ b, ¬ op.Restarts i) :
    Inactive i (a ++ b) ↔ Inactive i a := by
  induction b using List.reverseRecOn with
  | nil => simp
  | append_singleton b op ih =>
    simp only [List.mem_append, or_imp, forall_and, List.mem_singleton, forall_eq] at hb
    rw [← ih hb.1, ← List.append_assoc]
    constructor
    · intro h
      rcases inactive_concat h with rfl | ⟨-, h⟩
      · exact absurd rfl hb.2
      · exact h
    · intro h x y z hxyz hy
      induction z using List.reverseRecOn with
      | nil =>
        obtain ⟨-, hop⟩ := List.append_inj' hxyz rfl
        rw [List.singleton_inj] at hop
        subst hop
        exact absurd hy.restarts hb.2
      | append_singleton z w =>
        rw [← List.cons_append, ← List.append_assoc] at hxyz
        exact List.mem_append_left _ (h x y z (List.append_inj' hxyz rfl).1 hy)

/-- The history of a timer from power-up, read off the calls. -/
theorem run_powerUp (i : ℕ) (pre : List TimerOp) :
    ((historyMachine i).run .powerUp pre).timeout = lastTimeout i pre ∧
      ((historyMachine i).run .powerUp pre).elapsed = ticksSinceRestart i pre ∧
      (Inactive i pre → ((historyMachine i).run .powerUp pre).repeats = false) := by
  induction pre using List.reverseRecOn with
  | nil => exact ⟨rfl, rfl, fun _ => rfl⟩
  | append_singleton pre op ih =>
    obtain ⟨hT, hn, hr⟩ := ih
    rw [Machine.run_concat, historyMachine_step]
    refine ⟨?_, ?_, fun hin => ?_⟩
    · rw [lastTimeout, List.foldl_concat, ← lastTimeout]
      cases op with
      | tick | isTimeout j => simpa [TimerHistory.step, apply_ite TimerHistory.timeout] using hT
      | _ j => simp [TimerHistory.step, apply_ite TimerHistory.timeout, hT]
    · rw [ticksSinceRestart_concat]
      cases op <;>
        simp [TimerHistory.step, TimerOp.Restarts, apply_ite TimerHistory.elapsed, hn]
    · rcases inactive_concat hin with rfl | ⟨hop, hin⟩
      · simp [TimerHistory.step]
      · have hr := hr hin
        cases op <;>
          simp_all [TimerHistory.step, TimerOp.Inits, apply_ite TimerHistory.repeats]

/-- An inactive timer stays silent in every run from power-up, unless a tick takes its
counter to the timeout in its slot. -/
theorem neverReports_iff (i : Fin softTimerMax) (ops : List TimerOp) :
    NeverReports i ops ↔ ¬ InactiveExpiry i ops := by
  have hpoll (pre : List TimerOp) := answer_isTimeout i pre (represents_powerUp i)
  have hpend (pre : List TimerOp) := pending_iff i (h := .powerUp) rfl pre
  constructor
  · rintro hsilent ⟨a, b, c, rfl, hin, hexp, hb⟩
    have hin' : Inactive i (a ++ .tick :: b) := by
      rw [inactive_append fun op hop => ?_]
      · exact hin
      · rcases List.mem_cons.1 hop with rfl | hop
        · exact id
        · exact (hb op hop).2
    have hans := hsilent (a ++ .tick :: b) c (by simp) hin'
    obtain ⟨hT, hn, hr⟩ := run_powerUp i a
    rw [hpoll, if_pos ((hpend _).2 ⟨a, b, rfl, ?_, hb⟩)] at hans
    · simp at hans
    · rw [hT, hn, hr hin]
      simpa [expires] using hexp
  · rintro hnot pre post rfl hin
    rw [hpoll, if_neg]
    intro hp
    obtain ⟨a, b, rfl, hexp, hb⟩ := (hpend _).1 hp
    have hin' : Inactive i a := by
      rwa [inactive_append fun op hop => ?_] at hin
      rcases List.mem_cons.1 hop with rfl | hop
      · exact id
      · exact (hb op hop).2
    obtain ⟨hT, hn, hr⟩ := run_powerUp i a
    rw [hT, hn, hr hin'] at hexp
    exact hnot ⟨a, b, post, by simp, hin', by simpa [expires] using hexp, hb⟩

/-- A timer that was never started reports the first tick. -/
theorem neverReports_not_powerUp : ¬ NeverReports 3 [.tick, .isTimeout 3] := by
  intro hsilent
  have hin : Inactive 3 [.tick] := by
    rintro a op b hab hop
    cases a with
    | nil =>
      rw [List.nil_append, List.cons.injEq] at hab
      rw [← hab.1] at hop
      exact absurd hop id
    | cons x a => simp at hab
  exact absurd (hsilent [.tick] [] rfl hin) (by decide)

end Gd32Firmware
