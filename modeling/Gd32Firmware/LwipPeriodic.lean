import Gd32Firmware.Machine
import Mathlib.Data.UInt
import Mathlib.Data.List.Induction

/-!
# The time base of the network stack

`systick_config` of `app/gd32f4xx_it.c` programs the SysTick interrupt, `SysTick_Handler`
counts it, and the main loop hands the count to `lwip_periodic_handle` of
`user/bsp/bsp_enet.c`, which compares it with intervals that lwIP states in milliseconds.

In ticks the port is exact : in every run whose main loop keeps up with the interrupt, each
handler has been called once in every interval of so many ticks, through every wrap of the
counter (`calls_eq`). A tick is ten milliseconds, though, so the handlers and `sys_now` keep
the time only until the first tick (`keepsTime_iff`).
-/

namespace Gd32Firmware

/-! ## The interrupt -/

/-- `systick_config` : the clocks from one interrupt to the next. `SysTick_Config` refuses a
count that does not fit into its reload register, and then the firmware hangs. -/
def systickConfig (systemCoreClock : UInt32) : Option UInt32 :=
  let ticks := systemCoreClock / 100
  if ticks - 1 > 0xFFFFFF then none else some ticks

/-- The milliseconds that have gone by after `n` interrupts. -/
def elapsedMs (systemCoreClock clocks : UInt32) (n : ℕ) : ℕ :=
  n * clocks.toNat * 1000 / systemCoreClock.toNat

/-! ## The periodic calls -/

/-- The functions that `lwip_periodic_handle` calls. -/
inductive LwipTimer where
  | tcpTmr
  | etharpTmr
  | dhcpFineTmr
  | dhcpCoarseTmr
  deriving DecidableEq, Repr

/-- `TCP_TMR_INTERVAL`, `ARP_TMR_INTERVAL`, `DHCP_FINE_TIMER_MSECS` and
`DHCP_COARSE_TIMER_MSECS`. -/
def LwipTimer.interval : LwipTimer → UInt32
  | .tcpTmr => 250
  | .etharpTmr => 1000
  | .dhcpFineTmr => 500
  | .dhcpCoarseTmr => 60 * 1000

/-- The static variables of `bsp_enet.c`. -/
structure LwipTimers where
  tcpTimer : UInt32
  arpTimer : UInt32
  dhcpFineTimer : UInt32
  dhcpCoarseTimer : UInt32

/-- The variable that holds the time of the last call. -/
def LwipTimers.last (t : LwipTimers) : LwipTimer → UInt32
  | .tcpTmr => t.tcpTimer
  | .etharpTmr => t.arpTimer
  | .dhcpFineTmr => t.dhcpFineTimer
  | .dhcpCoarseTmr => t.dhcpCoarseTimer

/-- `lwip_periodic_handle`, with the calls it makes, in order. -/
def lwipPeriodicHandle (localtime : UInt32) (t : LwipTimers) : LwipTimers × List LwipTimer :=
  let tcp := localtime - t.tcpTimer ≥ LwipTimer.tcpTmr.interval
  let arp := localtime - t.arpTimer ≥ LwipTimer.etharpTmr.interval
  let fine := localtime - t.dhcpFineTimer ≥ LwipTimer.dhcpFineTmr.interval
  let coarse := localtime - t.dhcpCoarseTimer ≥ LwipTimer.dhcpCoarseTmr.interval
  ({ tcpTimer := if tcp then localtime else t.tcpTimer
     arpTimer := if arp then localtime else t.arpTimer
     dhcpFineTimer := if fine then localtime else t.dhcpFineTimer
     dhcpCoarseTimer := if coarse then localtime else t.dhcpCoarseTimer },
   (if tcp then [.tcpTmr] else []) ++ (if arp then [.etharpTmr] else []) ++
     (if fine then [.dhcpFineTmr] else []) ++ (if coarse then [.dhcpCoarseTmr] else []))

/-- What the time base consists of. -/
structure TimeBase where
  gSystemTick : UInt32
  timers : LwipTimers

/-- `SysTick_Handler`, or a pass of the main loop. -/
inductive TimeOp where
  | tick
  | pass
  deriving DecidableEq, Repr

/-- `sys_now` returns `get_system_tick`. -/
def TimeBase.sysNow (s : TimeBase) : UInt32 :=
  s.gSystemTick

/-- The interrupt and the main loop. A pass is answered with the calls it makes. -/
def timeMachine : Machine TimeBase TimeOp (List LwipTimer) where
  step s
    | .tick => ({ s with gSystemTick := s.gSystemTick + 1 }, [])
    | .pass =>
      let handled := lwipPeriodicHandle s.gSystemTick s.timers
      ({ s with timers := handled.1 }, handled.2)

/-- Static storage is zero. -/
def TimeBase.powerUp : TimeBase :=
  ⟨0, ⟨0, 0, 0, 0⟩⟩

/-- The main loop passes at least once after every interrupt, before the next one. -/
def KeepsUp (ops : List TimeOp) : Prop :=
  ∀ a b, ops = a ++ .tick :: b → ∃ c d, b = c ++ .pass :: d ∧ .tick ∉ c

/-- How often a function was called. -/
def calls (ops : List TimeOp) (k : LwipTimer) : ℕ :=
  (timeMachine.answers .powerUp ops).flatten.count k

/-- After every pass each function has been called once for every interval of real time, and
`sys_now` is the real time in milliseconds. -/
def KeepsTime (systemCoreClock clocks : UInt32) (ops : List TimeOp) : Prop :=
  ∀ pre post, ops = pre ++ .pass :: post →
    let elapsed := elapsedMs systemCoreClock clocks (pre.count .tick)
    (∀ k, calls (pre ++ [.pass]) k = elapsed / k.interval.toNat) ∧
      (timeMachine.run .powerUp (pre ++ [.pass])).sysNow = UInt32.ofNat elapsed

/-! ## One pass -/

/-- A function is called if its interval is over, and then the time of the call is noted. -/
theorem lwipPeriodicHandle_eq (localtime : UInt32) (t : LwipTimers) (k : LwipTimer) :
    (lwipPeriodicHandle localtime t).1.last k =
        (if localtime - t.last k ≥ k.interval then localtime else t.last k) ∧
      (lwipPeriodicHandle localtime t).2.count k =
        if localtime - t.last k ≥ k.interval then 1 else 0 := by
  have hcount (p : Prop) [Decidable p] (j k : LwipTimer) :
      (if p then [j] else []).count k = if p ∧ j = k then 1 else 0 := by
    by_cases hp : p <;> by_cases hj : j = k <;> simp [hp, hj]
  cases k <;> simp [lwipPeriodicHandle, LwipTimers.last, hcount]

theorem LwipTimer.interval_bounds (k : LwipTimer) :
    0 < k.interval.toNat ∧ k.interval.toNat ≤ 60000 := by
  cases k <;> decide

/-- After `n` ticks and `c` calls the variable holds the time of the last call, which was due
`c` intervals from the start, and the next one is not overdue. -/
structure OnTime (s : TimeBase) (k : LwipTimer) (n c : ℕ) : Prop where
  tick : s.gSystemTick.toNat = n % 2 ^ 32
  last : (s.timers.last k).toNat = (k.interval.toNat * c) % 2 ^ 32
  called : k.interval.toNat * c ≤ n
  next : n ≤ k.interval.toNat * c + k.interval.toNat

/-- A tick comes after a pass, so the next call was not due yet. -/
theorem OnTime.step_tick {s : TimeBase} {k : LwipTimer} {n c : ℕ} (h : OnTime s k n c)
    (hnext : n < k.interval.toNat * c + k.interval.toNat) :
    OnTime (timeMachine.step s .tick).1 k (n + 1) c := by
  obtain ⟨htick, hlast, hcalled, -⟩ := h
  refine ⟨?_, hlast, by omega, hnext⟩
  show (s.gSystemTick + 1).toNat = _
  rw [UInt32.toNat_add, htick, show (1 : UInt32).toNat = 1 from rfl, Nat.mod_add_mod]

/-- A pass makes the call if it is due, and then the next one is not. -/
theorem OnTime.step_pass {s : TimeBase} {k : LwipTimer} {n c : ℕ} (h : OnTime s k n c) :
    let c' := c + (timeMachine.step s .pass).2.count k
    OnTime (timeMachine.step s .pass).1 k n c' ∧
      n < k.interval.toNat * c' + k.interval.toNat := by
  obtain ⟨htick, hlast, hcalled, hnext⟩ := h
  obtain ⟨hpos, hle⟩ := k.interval_bounds
  obtain ⟨hset, hcount⟩ := lwipPeriodicHandle_eq s.gSystemTick s.timers k
  -- the difference of the two wrapped times is the difference of the times
  have hdiff : (s.gSystemTick - s.timers.last k).toNat = n - k.interval.toNat * c := by
    rw [UInt32.toNat_sub, htick, hlast]
    omega
  have hdue : s.gSystemTick - s.timers.last k ≥ k.interval ↔
      n = k.interval.toNat * c + k.interval.toNat := by
    rw [ge_iff_le, UInt32.le_iff_toNat_le, hdiff]
    omega
  intro c'
  by_cases hn : n = k.interval.toNat * c + k.interval.toNat
  · rw [if_pos (hdue.2 hn)] at hset hcount
    have hc : k.interval.toNat * c' = n := by
      rw [show c' = c + 1 from congrArg (c + ·) hcount, Nat.mul_succ, hn]
    refine ⟨⟨htick, ?_, hc.le, by omega⟩, by omega⟩
    rw [hc, ← htick]
    exact congrArg UInt32.toNat hset
  · rw [if_neg (mt hdue.1 hn)] at hset hcount
    have hc : c' = c := congrArg (c + ·) hcount
    rw [hc]
    refine ⟨⟨htick, ?_, hcalled, hnext⟩, by omega⟩
    rw [← hlast]
    exact congrArg UInt32.toNat hset

/-! ## Every run -/

/-- Between any two ticks there is a pass. -/
def Separated (ops : List TimeOp) : Prop :=
  ∀ a b c, ops = a ++ .tick :: (b ++ .tick :: c) → .pass ∈ b

/-- After every tick there is a pass. -/
def Fresh (ops : List TimeOp) : Prop :=
  ∀ a b, ops = a ++ .tick :: b → .pass ∈ b

theorem Separated.of_append {a b : List TimeOp} (h : Separated (a ++ b)) : Separated a := by
  rintro x y z rfl
  exact h x y (z ++ b) (by simp)

theorem Separated.fresh {ops : List TimeOp} (h : Separated (ops ++ [.tick])) : Fresh ops := by
  rintro a b rfl
  exact h a b [] (by simp)

theorem KeepsUp.separated {ops : List TimeOp} (h : KeepsUp ops) : Separated ops := by
  intro a b c hops
  obtain ⟨x, y, hxy, hx⟩ := h a (b ++ .tick :: c) hops
  rcases List.append_eq_append_iff.1 hxy with ⟨e, rfl, he⟩ | ⟨e, rfl, he⟩
  · -- the pass would follow the second tick
    cases e with
    | nil => simp at he
    | cons op e =>
      obtain ⟨rfl, -⟩ := List.cons.inj he
      simp at hx
  · cases e with
    | nil => simp at he
    | cons op e =>
      obtain ⟨rfl, -⟩ := List.cons.inj he
      simp

theorem calls_concat (ops : List TimeOp) (op : TimeOp) (k : LwipTimer) :
    calls (ops ++ [op]) k =
      calls ops k + (timeMachine.step (timeMachine.run .powerUp ops) op).2.count k := by
  simp [calls, Machine.answers_concat, Machine.answer]

/-- Along a run with a pass between any two ticks, each function is called when it is due. -/
theorem onTime_run (k : LwipTimer) (ops : List TimeOp) (hops : Separated ops) :
    OnTime (timeMachine.run .powerUp ops) k (ops.count .tick) (calls ops k) ∧
      (Fresh ops → ops.count .tick <
        k.interval.toNat * calls ops k + k.interval.toNat) := by
  obtain ⟨hpos, -⟩ := k.interval_bounds
  induction ops using List.reverseRecOn with
  | nil =>
    refine ⟨⟨rfl, ?_, by simp [calls, Machine.answers], by simp⟩, fun _ => ?_⟩
    · cases k <;> rfl
    · exact Nat.lt_add_left _ hpos
  | append_singleton ops op ih =>
    obtain ⟨hon, hfresh⟩ := ih hops.of_append
    rw [Machine.run_concat, calls_concat, List.count_append]
    cases op with
    | tick =>
      refine ⟨hon.step_tick (hfresh hops.fresh), fun h => ?_⟩
      exact absurd (h ops [] rfl) (by simp)
    | pass =>
      obtain ⟨hon', hlt⟩ := hon.step_pass
      exact ⟨hon', fun _ => hlt⟩

/-- Each function has been called once for every interval of ticks. -/
theorem calls_eq (k : LwipTimer) {pre : List TimeOp} (hpre : Separated (pre ++ [.pass])) :
    calls (pre ++ [.pass]) k = pre.count .tick / k.interval.toNat := by
  have hfresh : Fresh (pre ++ [.pass]) := by
    intro a b hab
    rcases List.eq_nil_or_concat b with rfl | ⟨b, x, rfl⟩
    · simp at hab
    · rw [List.concat_eq_append, ← List.cons_append, ← List.append_assoc] at hab
      obtain ⟨-, hx⟩ := List.append_inj' hab rfl
      simp [← List.singleton_inj.1 hx]
  obtain ⟨hon, hlt⟩ := onTime_run k _ hpre
  have hlt := hlt hfresh
  have hcalled := hon.called
  rw [List.count_append, List.count_singleton, if_neg (by decide), Nat.add_zero] at hlt hcalled
  symm
  refine Nat.div_eq_of_lt_le ?_ ?_
  · rwa [Nat.mul_comm]
  · rw [Nat.succ_mul, Nat.mul_comm]
    exact hlt

/-- `sys_now` is the number of ticks. -/
theorem sysNow_eq {pre : List TimeOp} (hpre : Separated (pre ++ [.pass])) :
    (timeMachine.run .powerUp (pre ++ [.pass])).sysNow = UInt32.ofNat (pre.count .tick) := by
  have htick := (onTime_run .tcpTmr _ hpre).1.tick
  rw [List.count_append, List.count_singleton, if_neg (by decide), Nat.add_zero] at htick
  rw [TimeBase.sysNow, ← UInt32.toNat_inj, htick, UInt32.toNat_ofNat']

/-! ## Real time -/

/-- With a tick every millisecond the port would keep the time, however long it runs. -/
theorem keepsTime_of_millisecond {systemCoreClock clocks : UInt32} (hpos : 0 < clocks)
    (hms : clocks.toNat * 1000 = systemCoreClock.toNat) {ops : List TimeOp} (hops : KeepsUp ops) :
    KeepsTime systemCoreClock clocks ops := by
  have hpos' : 0 < clocks.toNat := UInt32.lt_iff_toNat_lt.1 hpos
  have helapsed (n : ℕ) : elapsedMs systemCoreClock clocks n = n := by
    rw [elapsedMs, ← hms, Nat.mul_assoc]
    exact Nat.mul_div_cancel _ (by omega)
  rintro pre post rfl
  have hpre : Separated (pre ++ [.pass]) :=
    Separated.of_append (b := post) (by simpa using hops.separated)
  rw [helapsed]
  exact ⟨fun k => calls_eq k hpre, sysNow_eq hpre⟩

/-- The first tick is more than two milliseconds, and no more than ten. -/
theorem elapsedMs_one {systemCoreClock clocks : UInt32}
    (h : systickConfig systemCoreClock = some clocks) :
    2 ≤ elapsedMs systemCoreClock clocks 1 ∧ elapsedMs systemCoreClock clocks 1 ≤ 10 := by
  simp only [systickConfig] at h
  split_ifs at h with hreload
  obtain rfl := Option.some.inj h
  have hq : (systemCoreClock / 100).toNat = systemCoreClock.toNat / 100 := UInt32.toNat_div _ _
  have hne : (systemCoreClock / 100).toNat ≠ 0 := by
    intro h0
    rw [show systemCoreClock / 100 = 0 from UInt32.toNat_inj.1 h0] at hreload
    exact hreload (by decide)
  rw [elapsedMs, hq, Nat.one_mul]
  rw [hq] at hne
  constructor
  · rw [Nat.le_div_iff_mul_le (by omega)]
    omega
  · rw [Nat.div_le_iff_le_mul_add_pred (by omega)]
    omega

/-- The port keeps the time exactly until the first tick. -/
theorem keepsTime_iff (systemCoreClock clocks : UInt32)
    (hclock : systickConfig systemCoreClock = some clocks) (ops : List TimeOp)
    (hops : KeepsUp ops) :
    KeepsTime systemCoreClock clocks ops ↔ .tick ∉ ops := by
  constructor
  · intro htime htick
    obtain ⟨a, b, rfl, ha⟩ := List.eq_append_cons_of_mem htick
    -- look at the first pass after the first tick
    obtain ⟨c, d, rfl, hc⟩ := hops a b rfl
    have hsep : Separated (a ++ .tick :: c ++ [.pass]) :=
      Separated.of_append (b := d) (by simpa using hops.separated)
    have hone : (a ++ .tick :: c).count .tick = 1 := by
      simp [List.count_eq_zero_of_not_mem ha, List.count_eq_zero_of_not_mem hc]
    have hnow := (htime (a ++ .tick :: c) d (by simp)).2
    rw [sysNow_eq hsep, hone, ← UInt32.toNat_inj, UInt32.toNat_ofNat', UInt32.toNat_ofNat'] at hnow
    have helapsed := elapsedMs_one hclock
    omega
  · rintro htick pre post rfl
    have hpre : Separated (pre ++ [.pass]) :=
      Separated.of_append (b := post) (by simpa using hops.separated)
    have hzero : pre.count .tick = 0 :=
      List.count_eq_zero_of_not_mem fun h => htick (List.mem_append_left _ h)
    have h0 : elapsedMs systemCoreClock clocks 0 = 0 := by simp [elapsedMs]
    simp only [hzero, h0]
    rw [sysNow_eq hpre, hzero]
    exact ⟨fun k => by rw [calls_eq k hpre, hzero], rfl⟩

/-- The board's clock, before the first tick and after it. -/
theorem keepsTime_iff_start :
    (KeepsTime 200000000 2000000 [.pass, .pass] ↔ .tick ∉ [TimeOp.pass, .pass]) ∧
    (KeepsTime 200000000 2000000 [.tick, .pass] ↔ .tick ∉ [TimeOp.tick, .pass]) := by
  constructor
  · refine keepsTime_iff 200000000 2000000 (by decide) [.pass, .pass] fun a b hab => ?_
    have hmem : TimeOp.tick ∈ [TimeOp.pass, .pass] := by rw [hab]; simp
    exact absurd hmem (by decide)
  · refine keepsTime_iff 200000000 2000000 (by decide) [.tick, .pass] fun a b hab => ?_
    obtain ⟨rfl, htail⟩ | ⟨a', rfl, htail⟩ := List.cons_eq_append_iff.1 hab
    · exact ⟨[], [], (List.cons.inj htail).2, by simp⟩
    · have hmem : TimeOp.tick ∈ [TimeOp.pass] := by rw [htail]; simp
      exact absurd hmem (by decide)

/-- The first tick takes ten milliseconds, and `sys_now` counts one. -/
theorem keepsTime_not_tick : ¬ KeepsTime 200000000 2000000 [.tick, .pass] := by
  intro h
  exact absurd (h [.tick] [] rfl).2 (by decide)

end Gd32Firmware
