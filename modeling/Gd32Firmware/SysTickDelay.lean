import Mathlib.Algebra.BigOperators.Intervals
import Mathlib.Data.UInt
import Mathlib.Order.Bounds.Basic

/-!
# Delays by polling SysTick

`delay_us` and `delay_ms` of `app/gd32f4xx_it.c` read `SysTick->VAL` over and over and add up
the clocks between the reads. The counter counts down to 0 and then reloads, which takes a
clock of its own. The code does not count this clock, so each reload makes a delay longer by
one clock (`tcnt_eq`). It also computes in 32 bits.

`delay_iff` says when the loop is nevertheless left at the first read that may end it.
-/

namespace Gd32Firmware

/-! ## The counter -/

/-- One clock of the counter. -/
def sysTickDown (load val : UInt32) : UInt32 :=
  if val = 0 then load else val - 1

/-- The reads of `SysTick->VAL`, less than one period of the counter apart. -/
structure SysTickReads where
  load : UInt32
  load_lt : load.toNat < 2 ^ 24
  /-- What the first read finds. -/
  start : UInt32
  start_le : start ≤ load
  /-- The clocks from one read to the next. -/
  gap : ℕ → ℕ
  gap_lt : ∀ n, gap n < load.toNat + 1

namespace SysTickReads

variable (s : SysTickReads)

/-- The clocks from the first read to read `n`. -/
def elapsed (n : ℕ) : ℕ :=
  ∑ i ∈ Finset.range n, s.gap i

/-- What read `n` finds. -/
def val (n : ℕ) : UInt32 :=
  (sysTickDown s.load)^[s.elapsed n] s.start

/-- How often the counter has reloaded by read `n`. -/
def reloads (n : ℕ) : ℕ :=
  ∑ i ∈ Finset.range n, if s.val i < s.val (i + 1) then 1 else 0

/-- Read `n` finds another value than the one before it. -/
def Changed (n : ℕ) : Prop :=
  0 < n ∧ s.val n ≠ s.val (n - 1)

/-- Read `n` may end a delay of so many clocks. -/
def Reached (target n : ℕ) : Prop :=
  s.Changed n ∧ target ≤ s.elapsed n

end SysTickReads

/-! ## The code -/

/-- The loop of `delay_us` from read `n` on. The result is the read at which it is left. -/
def delayLoop (s : SysTickReads) (ticks : UInt32) :
    (fuel n : ℕ) → (told tcnt : UInt32) → Option ℕ
  | 0, _, _, _ => none
  | fuel + 1, n, told, tcnt =>
    let tnow := s.val n
    if tnow ≠ told then
      let tcnt := tcnt + if tnow < told then told - tnow else s.load - tnow + told
      if tcnt ≥ ticks then some n else delayLoop s ticks fuel (n + 1) tnow tcnt
    else delayLoop s ticks fuel (n + 1) told tcnt

def delayUs (s : SysTickReads) (systemCoreClock us : UInt32) (fuel : ℕ) : Option ℕ :=
  let ticks := us * (systemCoreClock / 1000000)
  let told := s.val 0
  delayLoop s ticks fuel 1 told 0

def delayMs (s : SysTickReads) (systemCoreClock ms : UInt32) (fuel : ℕ) : Option ℕ :=
  delayUs s systemCoreClock (ms * 1000) fuel

/-- A call of one of the two functions. -/
inductive Delay where
  | us (n : UInt32)
  | ms (n : UInt32)

namespace Delay

/-- The read at which the call leaves the loop, if it does within `fuel` reads. -/
def run (s : SysTickReads) (systemCoreClock : UInt32) : Delay → (fuel : ℕ) → Option ℕ
  | us n => delayUs s systemCoreClock n
  | ms n => delayMs s systemCoreClock n

/-- The number of clocks that are asked for. -/
def target (systemCoreClock : UInt32) : Delay → ℕ
  | us n => n.toNat * (systemCoreClock.toNat / 1000000)
  | ms n => n.toNat * 1000 * (systemCoreClock.toNat / 1000000)

end Delay

/-- The loop is left at the first read that may end the delay, and at no other. -/
def LeavesOnTime (s : SysTickReads) (systemCoreClock : UInt32) (d : Delay) : Prop :=
  ∀ n, (∃ fuel, d.run s systemCoreClock fuel = some n) ↔
    IsLeast {k | s.Reached (d.target systemCoreClock) k} n

/-- When this is so. A target that fits in 32 bits is exceeded, at the first read that may end
the delay, by one clock for each reload at least, and so is not by more than 32 bits hold. A
larger target is compared modulo `2 ^ 32`, with the same result at each read up to that one. -/
def ReloadsCovered (s : SysTickReads) (target : ℕ) : Prop :=
  (target < 2 ^ 32 → ∀ n, IsLeast {k | s.Reached target k} n →
      target + s.reloads n ≤ s.elapsed n ∧ s.elapsed n - s.reloads n < 2 ^ 32) ∧
    (2 ^ 32 ≤ target → ∀ n, s.Changed n → (∀ k < n, ¬ s.Reached target k) →
      (target % 2 ^ 32 ≤ (s.elapsed n - s.reloads n) % 2 ^ 32 ↔ target ≤ s.elapsed n))

/-! ## What a read finds -/

/-- Less than a period later. -/
theorem sysTickDown_iterate {load v : UInt32} (hv : v ≤ load) :
    ∀ g ≤ load.toNat, ((sysTickDown load)^[g] v).toNat =
      if g ≤ v.toNat then v.toNat - g else v.toNat + load.toNat + 1 - g := by
  intro g hg
  rw [UInt32.le_iff_toNat_le] at hv
  induction g with
  | zero => simp
  | succ g ih =>
    have ih := ih (by omega)
    rw [Function.iterate_succ_apply', sysTickDown]
    by_cases hzero : (sysTickDown load)^[g] v = 0
    · rw [hzero, UInt32.toNat_zero] at ih
      rw [if_pos hzero]
      split_ifs at ih ⊢ <;> omega
    · have hpos : 1 ≤ (sysTickDown load)^[g] v :=
        UInt32.le_iff_toNat_le.2 (Nat.one_le_iff_ne_zero.2 fun h0 => hzero (UInt32.toNat_inj.1 h0))
      rw [if_neg hzero, UInt32.toNat_sub_of_le _ _ hpos, ih, UInt32.toNat_one]
      rw [UInt32.le_iff_toNat_le, ih, UInt32.toNat_one] at hpos
      split_ifs at hpos ⊢ <;> omega

namespace SysTickReads

variable (s : SysTickReads)

theorem elapsed_succ (n : ℕ) : s.elapsed (n + 1) = s.elapsed n + s.gap n :=
  Finset.sum_range_succ ..

theorem reloads_succ (n : ℕ) :
    s.reloads (n + 1) = s.reloads n + if s.val n < s.val (n + 1) then 1 else 0 :=
  Finset.sum_range_succ ..

theorem val_succ (n : ℕ) : s.val (n + 1) = (sysTickDown s.load)^[s.gap n] (s.val n) := by
  rw [val, elapsed_succ, Nat.add_comm, Function.iterate_add_apply]
  rfl

theorem val_le (n : ℕ) : s.val n ≤ s.load := by
  induction n with
  | zero => exact s.start_le
  | succ n ih =>
    have hgap := s.gap_lt n
    rw [val_succ, UInt32.le_iff_toNat_le, sysTickDown_iterate ih _ (by omega)]
    rw [UInt32.le_iff_toNat_le] at ih
    split_ifs <;> omega

/-- What the code adds at read `n + 1`. -/
def counted (n : ℕ) : UInt32 :=
  if s.val (n + 1) = s.val n then 0
  else if s.val (n + 1) < s.val n then s.val n - s.val (n + 1)
  else s.load - s.val (n + 1) + s.val n

/-- The code counts all clocks except the one in which the counter reloads. -/
theorem counted_toNat (n : ℕ) :
    (s.counted n).toNat + (if s.val n < s.val (n + 1) then 1 else 0) = s.gap n := by
  have hgap := s.gap_lt n
  have hload := s.load_lt
  have hle := s.val_le n
  have hle' := s.val_le (n + 1)
  have hnext := sysTickDown_iterate hle (s.gap n) (by omega)
  rw [← val_succ] at hnext
  rw [UInt32.le_iff_toNat_le] at hle
  unfold counted
  by_cases hreload : s.gap n ≤ (s.val n).toNat
  · rw [if_pos hreload] at hnext
    have hnot : ¬ s.val n < s.val (n + 1) := by
      rw [UInt32.lt_iff_toNat_lt]
      omega
    rw [if_neg hnot]
    by_cases hsame : s.val (n + 1) = s.val n
    · rw [if_pos hsame, UInt32.toNat_zero]
      rw [hsame] at hnext
      omega
    · have hdown : s.val (n + 1) < s.val n :=
        UInt32.lt_of_le_of_ne (UInt32.not_lt.1 hnot) hsame
      rw [if_neg hsame, if_pos hdown, UInt32.toNat_sub_of_le _ _ (UInt32.le_of_lt hdown)]
      omega
  · rw [if_neg hreload] at hnext
    have hup : s.val n < s.val (n + 1) := by
      rw [UInt32.lt_iff_toNat_lt]
      omega
    rw [if_pos hup, if_neg (UInt32.ne_of_lt hup).symm, if_neg (UInt32.lt_asymm hup),
      UInt32.toNat_add, UInt32.toNat_sub_of_le _ _ hle', Nat.mod_eq_of_lt] <;>
      omega

/-- The value of `tcnt` after read `n`, in a loop that has not been left. -/
def tcnt : ℕ → UInt32
  | 0 => 0
  | n + 1 => tcnt n + s.counted n

theorem reloads_le (n : ℕ) : s.reloads n ≤ s.elapsed n := by
  induction n with
  | zero => rfl
  | succ n ih =>
    rw [reloads_succ, elapsed_succ, ← s.counted_toNat n]
    omega

/-- The code has counted the clocks that have elapsed, less one for each reload, modulo
`2 ^ 32`. -/
theorem tcnt_toNat (n : ℕ) : (s.tcnt n).toNat = (s.elapsed n - s.reloads n) % 2 ^ 32 := by
  induction n with
  | zero => rfl
  | succ n ih =>
    have hle := s.reloads_le n
    rw [tcnt, UInt32.toNat_add, ih, Nat.mod_add_mod, elapsed_succ, reloads_succ,
      ← s.counted_toNat n]
    congr 1
    omega

/-- The test at read `n` ends the loop. -/
def Ends (ticks : UInt32) (n : ℕ) : Prop :=
  s.Changed n ∧ ticks ≤ s.tcnt n

/-- A read that finds the same value is at the same instant. -/
theorem changed_succ {n : ℕ} : s.Changed (n + 1) ↔ s.val (n + 1) ≠ s.val n := by
  simp [Changed]

end SysTickReads

/-! ## The loop -/

section Loop

variable {s : SysTickReads} {ticks : UInt32}

/-- A round that does not end the loop goes on with the count so far. -/
theorem delayLoop_succ (fuel n : ℕ) :
    delayLoop s ticks (fuel + 1) (n + 1) (s.val n) (s.tcnt n) =
      if s.val (n + 1) ≠ s.val n ∧ ticks ≤ s.tcnt (n + 1) then some (n + 1)
      else delayLoop s ticks fuel (n + 2) (s.val (n + 1)) (s.tcnt (n + 1)) := by
  rw [delayLoop, SysTickReads.tcnt, SysTickReads.counted]
  by_cases hsame : s.val (n + 1) = s.val n
  · simp [hsame]
  · simp [hsame]

/-- From read `n` on the loop is left at the first read that ends it. -/
theorem delayLoop_eq_some {m : ℕ} :
    ∀ fuel n, delayLoop s ticks fuel (n + 1) (s.val n) (s.tcnt n) = some m ↔
      n < m ∧ m ≤ n + fuel ∧ s.Ends ticks m ∧ ∀ k, n < k → k < m → ¬ s.Ends ticks k := by
  intro fuel
  induction fuel with
  | zero =>
    intro n
    rw [delayLoop]
    exact ⟨nofun, fun ⟨hlt, hle, _⟩ => absurd hlt (by omega)⟩
  | succ fuel ih =>
    intro n
    have hends : s.Ends ticks (n + 1) ↔ s.val (n + 1) ≠ s.val n ∧ ticks ≤ s.tcnt (n + 1) := by
      rw [SysTickReads.Ends, SysTickReads.changed_succ]
    rw [delayLoop_succ]
    by_cases h : s.Ends ticks (n + 1)
    · rw [if_pos (hends.1 h), Option.some_inj]
      constructor
      · rintro rfl
        exact ⟨by omega, by omega, h, fun k _ _ => by omega⟩
      · rintro ⟨hlt, -, -, hnone⟩
        by_contra hne
        exact hnone (n + 1) (by omega) (by omega) h
    · rw [if_neg (mt hends.2 h), ih (n + 1)]
      constructor
      · rintro ⟨hlt, hle, hm, hnone⟩
        refine ⟨by omega, by omega, hm, fun k hk hkm => ?_⟩
        obtain rfl | hlater := Nat.eq_or_lt_of_le (Nat.succ_le_of_lt hk)
        · exact h
        · exact hnone k hlater hkm
      · rintro ⟨hlt, hle, hm, hnone⟩
        have hne : m ≠ n + 1 := fun heq => h (heq ▸ hm)
        exact ⟨by omega, by omega, hm, fun k hk => hnone k (by omega)⟩

end Loop

/-- The number that the code compares `tcnt` with. -/
def Delay.ticks (systemCoreClock : UInt32) : Delay → UInt32
  | us n => n * (systemCoreClock / 1000000)
  | ms n => n * 1000 * (systemCoreClock / 1000000)

theorem Delay.ticks_toNat (systemCoreClock : UInt32) (d : Delay) :
    (d.ticks systemCoreClock).toNat = d.target systemCoreClock % 2 ^ 32 := by
  cases d with
  | us n =>
    rw [ticks, UInt32.toNat_mul, UInt32.toNat_div]
    rfl
  | ms n =>
    rw [ticks, UInt32.toNat_mul, UInt32.toNat_mul, UInt32.toNat_div, Nat.mod_mul_mod]
    rfl

theorem Delay.run_eq_some (s : SysTickReads) (systemCoreClock : UInt32) (d : Delay) {n : ℕ} :
    (∃ fuel, d.run s systemCoreClock fuel = some n) ↔
      IsLeast {k | s.Ends (d.ticks systemCoreClock) k} n := by
  have hrun (fuel : ℕ) : d.run s systemCoreClock fuel =
      delayLoop s (d.ticks systemCoreClock) fuel (0 + 1) (s.val 0) (s.tcnt 0) := by
    cases d <;> rfl
  simp only [hrun, delayLoop_eq_some]
  constructor
  · rintro ⟨fuel, -, -, hends, hnone⟩
    refine ⟨hends, fun k hk => ?_⟩
    by_contra hlt
    exact hnone k hk.1.1 (by omega) hk
  · rintro ⟨hends, hleast⟩
    exact ⟨n, hends.1.1, by omega, hends, fun k _ hkn hk => absurd (hleast hk) (by omega)⟩

/-! ## When the delay is right -/

/-- Two sets have the same least element, if any, exactly if they agree up to the first element
of one of them. -/
theorem isLeast_iff_isLeast {A B : Set ℕ} :
    (∀ n, IsLeast A n ↔ IsLeast B n) ↔ ∀ n, (∀ k < n, k ∉ B) → (n ∈ A ↔ n ∈ B) := by
  classical
  constructor
  · intro h n hnone
    constructor
    · intro hn
      have hfirst : IsLeast A (Nat.find ⟨n, hn⟩) :=
        ⟨Nat.find_spec (p := (· ∈ A)) ⟨n, hn⟩, fun k hk => Nat.find_min' (p := (· ∈ A)) _ hk⟩
      have hmem := ((h _).1 hfirst).1
      have hle := hfirst.2 hn
      obtain heq | hlt := hle.eq_or_lt
      · exact heq ▸ hmem
      · exact absurd hmem (hnone _ hlt)
    · intro hn
      have hleast : IsLeast B n := ⟨hn, fun k hk => not_lt.1 fun hlt => hnone k hlt hk⟩
      exact ((h n).2 hleast).1
  · intro h n
    have hbelow (hnone : ∀ k < n, k ∉ B) : ∀ k < n, k ∉ A := fun k hk hA =>
      hnone k hk ((h k fun j hj => hnone j (hj.trans hk)).1 hA)
    constructor
    · rintro ⟨hn, hleast⟩
      have hnone : ∀ k < n, k ∉ B := by
        intro k
        induction k using Nat.strong_induction_on with
        | _ k ih =>
          intro hk hB
          have hA := (h k fun j hj => ih j hj (hj.trans hk)).2 hB
          exact absurd (hleast hA) (not_le.2 hk)
      exact ⟨(h n hnone).1 hn, fun k hk => not_lt.1 fun hlt => hnone k hlt hk⟩
    · rintro ⟨hn, hleast⟩
      have hnone : ∀ k < n, k ∉ B := fun k hk hB => absurd (hleast hB) (not_le.2 hk)
      exact ⟨(h n hnone).2 hn, fun k hk => not_lt.1 fun hlt => hbelow hnone k hlt hk⟩

section Right

variable {s : SysTickReads} {target : ℕ}

/-- A read before which no read may end the delay comes less than a period too late. -/
theorem elapsed_le_of_not_reached {n : ℕ} (hnone : ∀ k < n, ¬ s.Reached target k) :
    s.elapsed n ≤ target + s.load.toNat := by
  have hbefore : ∀ k < n, s.elapsed k ≤ target := by
    intro k
    induction k with
    | zero => exact fun _ => Nat.zero_le _
    | succ k ih =>
      intro hk
      by_cases hchanged : s.Changed (k + 1)
      · exact (not_le.1 fun hle => hnone _ hk ⟨hchanged, hle⟩).le
      · rw [SysTickReads.changed_succ, not_not] at hchanged
        have hgap := s.counted_toNat k
        rw [SysTickReads.counted, if_pos hchanged, hchanged, if_neg (UInt32.lt_irrefl _)] at hgap
        rw [SysTickReads.elapsed_succ, ← hgap]
        exact ih (by omega)
  cases n with
  | zero => exact Nat.zero_le _
  | succ n =>
    have hgap := s.gap_lt n
    have hle := hbefore n (by omega)
    rw [SysTickReads.elapsed_succ]
    omega

/-- For a target that fits in 32 bits the first read decides. -/
theorem ends_iff_reached_of_lt (hfits : target < 2 ^ 32) {ticks : UInt32}
    (hticks : ticks.toNat = target) :
    (∀ n, (∀ k < n, ¬ s.Reached target k) → (s.Ends ticks n ↔ s.Reached target n)) ↔
      ∀ n, IsLeast {k | s.Reached target k} n →
        target + s.reloads n ≤ s.elapsed n ∧ s.elapsed n - s.reloads n < 2 ^ 32 := by
  have hload := s.load_lt
  have hends (n : ℕ) : s.Ends ticks n ↔
      s.Changed n ∧ target ≤ (s.elapsed n - s.reloads n) % 2 ^ 32 := by
    rw [SysTickReads.Ends, UInt32.le_iff_toNat_le, s.tcnt_toNat, hticks]
  constructor
  · rintro h n ⟨hn, hleast⟩
    have hnone : ∀ k < n, ¬ s.Reached target k := fun k hk hr => absurd (hleast hr) (not_le.2 hk)
    have hle := elapsed_le_of_not_reached hnone
    obtain ⟨-, hcount⟩ := (hends n).1 ((h n hnone).2 hn)
    have hmod := Nat.mod_le (s.elapsed n - s.reloads n) (2 ^ 32)
    have hreloads := s.reloads_le n
    refine ⟨by omega, ?_⟩
    by_contra hwrapped
    rw [Nat.mod_eq_sub_mod (not_lt.1 hwrapped)] at hcount
    have hmod' := Nat.mod_le (s.elapsed n - s.reloads n - 2 ^ 32) (2 ^ 32)
    omega
  · intro h n hnone
    rw [hends n]
    constructor
    · rintro ⟨hchanged, hcount⟩
      have hmod := Nat.mod_le (s.elapsed n - s.reloads n) (2 ^ 32)
      exact ⟨hchanged, by omega⟩
    · intro hn
      obtain ⟨hover, hcount⟩ := h n ⟨hn, fun k hk => not_lt.1 fun hlt => hnone k hlt hk⟩
      exact ⟨hn.1, by rw [Nat.mod_eq_of_lt hcount]; omega⟩

end Right

/-- A delay ends at the first read that may end it, exactly if the reloads are covered. -/
theorem delay_iff (s : SysTickReads) (systemCoreClock : UInt32) (d : Delay) :
    LeavesOnTime s systemCoreClock d ↔ ReloadsCovered s (d.target systemCoreClock) := by
  have hticks := d.ticks_toNat systemCoreClock
  have hagree : LeavesOnTime s systemCoreClock d ↔
      ∀ n, (∀ k < n, ¬ s.Reached (d.target systemCoreClock) k) →
        (s.Ends (d.ticks systemCoreClock) n ↔ s.Reached (d.target systemCoreClock) n) := by
    unfold LeavesOnTime
    simp only [Delay.run_eq_some]
    exact isLeast_iff_isLeast
  rw [hagree, ReloadsCovered]
  by_cases hfits : d.target systemCoreClock < 2 ^ 32
  · rw [ends_iff_reached_of_lt hfits (by rw [hticks, Nat.mod_eq_of_lt hfits])]
    exact ⟨fun h => ⟨fun _ => h, fun hlarge => absurd hfits (not_lt.2 hlarge)⟩,
      fun h => h.1 hfits⟩
  · have hlarge := not_lt.1 hfits
    simp only [hfits, hlarge, false_implies, true_and, true_implies]
    refine forall_congr' fun n => ?_
    simp only [SysTickReads.Ends, SysTickReads.Reached, UInt32.le_iff_toNat_le, s.tcnt_toNat,
      hticks]
    constructor
    · intro h hchanged hnone
      simpa [hchanged] using h hnone
    · intro h hnone
      exact and_congr_right fun hchanged => h hchanged hnone

/-- Reads 200 clocks apart from the moment at which the counter, set for 10 ms at 200 MHz, is
at 0. -/
def readsFromZero : SysTickReads where
  load := 1999999
  load_lt := by decide
  start := 0
  start_le := by decide
  gap := fun _ => 200
  gap_lt := fun _ => by decide

/-- The second read comes after a microsecond, but the loop is not left. -/
theorem not_leavesOnTime_reload : ¬ LeavesOnTime readsFromZero 200000000 (.us 1) := by
  intro h
  have hval : readsFromZero.val 1 = 1999800 := by decide +kernel
  have hreached : IsLeast {k | readsFromZero.Reached 200 k} 1 := by
    refine ⟨⟨⟨by decide, ?_⟩, by decide⟩, fun k hk => hk.1.1⟩
    rw [hval]
    decide
  have hends := ((Delay.run_eq_some ..).1 ((h 1).2 hreached)).1
  have hcount : readsFromZero.tcnt 1 = 199 := by decide +kernel
  have hle : (200 : UInt32) ≤ readsFromZero.tcnt 1 := hends.2
  rw [hcount] at hle
  exact absurd hle (by decide)

end Gd32Firmware
