import Gd32Firmware.SoftTimerRepeat

/-!
# A poll that the tick preempts

`soft_timer_is_timeout` is the one mutator of `soft_timer.c` that runs with interrupts
enabled. It reads the flag and, if the flag was set, clears it by a second access, and the
SysTick interrupt may come between the two. `preemptedMachine` runs polls of one timer in
these steps; `softTimerIsTimeout_eq` says that without a tick between them they are
`softTimerIsTimeout`.

An expiry between the two steps of a poll is cleared with the flag that the poll has read.
The next poll misses it, unless the timer expires once more before (`Swallows`), and no
other expiry is missed (`reportsExpiries_iff`).
-/

namespace Gd32Firmware

/-- The first step of `soft_timer_is_timeout` : `ret = timers[timer].is_timeout`. -/
def softTimerReadFlag (timers : Timers) (timer : Nat) : UInt8 :=
  if h : timer < softTimerMax then (timers ⟨timer, h⟩).isTimeout else 0

/-- The second step, taken if `ret` is not zero. -/
def softTimerClearFlag (timers : Timers) (timer : Nat) : Timers :=
  timers.modify timer fun t => { t with isTimeout := 0 }

/-- The two steps in a row are the function. -/
theorem softTimerIsTimeout_eq (timers : Timers) (timer : Nat) :
    softTimerIsTimeout timers timer =
      let ret := softTimerReadFlag timers timer
      (if ret ≠ 0 then softTimerClearFlag timers timer else timers, ret) := by
  unfold softTimerIsTimeout softTimerReadFlag softTimerClearFlag
  by_cases h : timer < softTimerMax
  · by_cases hflag : (timers ⟨timer, h⟩).isTimeout = 0 <;> simp [h, hflag]
  · simp [h]

/-- The timers, and what the poll under way has read : `ret` is zero between polls. -/
structure Preempted where
  timers : Timers
  ret : UInt8

/-- The interrupt, or the next step of the main loop, which polls one timer for ever. -/
inductive PreemptedOp where
  | tick
  | poll
  deriving DecidableEq, Repr

/-- Polls of `timer`, step by step. A step that reads the flag is answered with its value,
which the poll is going to return. -/
def preemptedMachine (timer : Nat) : Machine Preempted PreemptedOp (Option UInt8) where
  step s
    | .tick => ({ s with timers := softTimerTick s.timers }, none)
    | .poll =>
      if s.ret ≠ 0 then ({ timers := softTimerClearFlag s.timers timer, ret := 0 }, none)
      else
        let ret := softTimerReadFlag s.timers timer
        ({ s with ret := ret }, some ret)

/-- A timer that was just initialised, polled for the first time. -/
def preemptedStart (timers : Timers) (timer : Nat) (T : UInt32) : Preempted :=
  { timers := softTimerRepeatInit timers timer T, ret := 0 }

/-- The state after the steps. -/
def preemptedRun (timer : Nat) (T : UInt32) (timers : Timers) (ops : List PreemptedOp) :
    Preempted :=
  (preemptedMachine timer).run (preemptedStart timers timer T) ops

/-- The flag that a read would find after the steps. -/
def preemptedFlag (timer : Nat) (T : UInt32) (timers : Timers) (ops : List PreemptedOp) : UInt8 :=
  softTimerReadFlag (preemptedRun timer T timers ops).timers timer

/-- The tick that follows the steps `a` is an expiry of a timer of period `T`. -/
def ExpiresAfter (T : UInt32) (a : List PreemptedOp) : Prop :=
  T.toNat ∣ a.count .tick + 1

/-- One of the steps `b`, taken after the steps `a`, is an expiry. -/
def HasExpiry (T : UInt32) (a b : List PreemptedOp) : Prop :=
  ∃ b₁ b₂, b = b₁ ++ .tick :: b₂ ∧ ExpiresAfter T (a ++ b₁)

/-- Every expiry that is followed by a read, with no other expiry before it, is reported :
that read or one before it finds the flag set. -/
def ReportsExpiries (i : Nat) (T : UInt32) (timers : Timers) (ops : List PreemptedOp) : Prop :=
  ∀ a b c, ops = a ++ .tick :: (b ++ .poll :: c) → ExpiresAfter T a →
    ¬ HasExpiry T (a ++ [.tick]) b → (preemptedRun i T timers (a ++ .tick :: b)).ret = 0 →
    ∃ b₁ b₂, b ++ [.poll] = b₁ ++ .poll :: b₂ ∧
      (preemptedMachine i).answer (preemptedStart timers i T) (a ++ .tick :: b₁) .poll = some 1

/-- A poll reads the flag set, the timer expires before the poll clears it, and does not
expire again before the next poll reads it. -/
def Swallows (i : Nat) (T : UInt32) (timers : Timers) (ops : List PreemptedOp) : Prop :=
  ∃ a b c d, ops = a ++ .poll :: (b ++ .poll :: (c ++ .poll :: d)) ∧
    (preemptedRun i T timers a).ret = 0 ∧ preemptedFlag i T timers a = 1 ∧
    .poll ∉ b ∧ HasExpiry T (a ++ [.poll]) b ∧
    .poll ∉ c ∧ ¬ HasExpiry T (a ++ [.poll] ++ b ++ [.poll]) c

/-! ## Expiries among steps -/

theorem not_hasExpiry_nil (T : UInt32) (a : List PreemptedOp) : ¬ HasExpiry T a [] := by
  rintro ⟨b₁, b₂, hb, -⟩
  simp at hb

theorem hasExpiry_cons (T : UInt32) (a b : List PreemptedOp) (op : PreemptedOp) :
    HasExpiry T a (op :: b) ↔ (op = .tick ∧ ExpiresAfter T a) ∨ HasExpiry T (a ++ [op]) b := by
  constructor
  · rintro ⟨b₁, b₂, hb, hexp⟩
    cases b₁ with
    | nil =>
      obtain ⟨rfl, rfl⟩ := List.cons.inj hb
      exact Or.inl ⟨rfl, by simpa using hexp⟩
    | cons x b₁ =>
      obtain ⟨rfl, rfl⟩ := List.cons.inj hb
      exact Or.inr ⟨b₁, b₂, rfl, by simpa using hexp⟩
  · rintro (⟨rfl, hexp⟩ | ⟨b₁, b₂, rfl, hexp⟩)
    · exact ⟨[], b, rfl, by simpa using hexp⟩
    · exact ⟨op :: b₁, b₂, rfl, by simpa using hexp⟩

theorem hasExpiry_append (T : UInt32) (a b c : List PreemptedOp) :
    HasExpiry T a (b ++ c) ↔ HasExpiry T a b ∨ HasExpiry T (a ++ b) c := by
  induction b generalizing a with
  | nil => simp [not_hasExpiry_nil]
  | cons op b ih => simp [hasExpiry_cons, ih, or_assoc]

/-- Among steps with an expiry there is a last one. -/
theorem HasExpiry.last {T : UInt32} {a b : List PreemptedOp} (h : HasExpiry T a b) :
    ∃ b₁ b₂, b = b₁ ++ .tick :: b₂ ∧ ExpiresAfter T (a ++ b₁) ∧
      ¬ HasExpiry T (a ++ b₁ ++ [.tick]) b₂ := by
  induction b generalizing a with
  | nil => exact absurd h (not_hasExpiry_nil T a)
  | cons op b ih =>
    by_cases hlater : HasExpiry T (a ++ [op]) b
    · obtain ⟨b₁, b₂, rfl, hexp, hlast⟩ := ih hlater
      exact ⟨op :: b₁, b₂, rfl, by simpa using hexp, by simpa using hlast⟩
    · obtain ⟨rfl, hexp⟩ := ((hasExpiry_cons T a b op).1 h).resolve_right hlater
      exact ⟨[], b, rfl, by simpa using hexp, by simpa using hlater⟩

/-- The first of two ways to split a list at `x` is the shorter one, if it is at the first `x`. -/
theorem split_at_first {α : Type*} {x : α} {a b c d : List α} (ha : x ∉ a)
    (h : a ++ x :: b = c ++ x :: d) :
    (c = a ∧ d = b) ∨ ∃ e, c = a ++ x :: e ∧ b = e ++ x :: d := by
  rcases List.append_eq_append_iff.1 h with ⟨e, rfl, he⟩ | ⟨e, rfl, he⟩
  · cases e with
    | nil => exact Or.inl ⟨by simp, (List.cons.inj he).2.symm⟩
    | cons y e =>
      obtain ⟨rfl, rfl⟩ := List.cons.inj he
      exact Or.inr ⟨e, rfl, rfl⟩
  · cases e with
    | nil => exact Or.inl ⟨by simp, (List.cons.inj he).2⟩
    | cons y e =>
      obtain ⟨rfl, -⟩ := List.cons.inj he
      simp at ha

/-! ## The flag -/

theorem softTimerReadFlag_eq (timers : Timers) (i : Fin softTimerMax) :
    softTimerReadFlag timers i = (timers i).isTimeout :=
  dif_pos i.isLt

section Run

variable (i : Fin softTimerMax) (T : UInt32) (timers : Timers)

theorem preemptedRun_tick (ops : List PreemptedOp) :
    preemptedRun i T timers (ops ++ [.tick]) =
      { timers := softTimerTick (preemptedRun i T timers ops).timers
        ret := (preemptedRun i T timers ops).ret } := by
  rw [preemptedRun, Machine.run_concat]
  rfl

variable {i T timers}

/-- A poll starts with a read. -/
theorem preemptedRun_read {ops : List PreemptedOp} (h : (preemptedRun i T timers ops).ret = 0) :
    preemptedRun i T timers (ops ++ [.poll]) =
        { preemptedRun i T timers ops with
          ret := softTimerReadFlag (preemptedRun i T timers ops).timers i } ∧
      (preemptedMachine i).answer (preemptedStart timers i T) ops .poll =
        some (softTimerReadFlag (preemptedRun i T timers ops).timers i) := by
  rw [preemptedRun, Machine.run_concat, Machine.answer, ← preemptedRun]
  simp [preemptedMachine, h]

/-- A poll that has read the flag set goes on to clear it. -/
theorem preemptedRun_clear {ops : List PreemptedOp} (h : (preemptedRun i T timers ops).ret ≠ 0) :
    preemptedRun i T timers (ops ++ [.poll]) =
        { timers := softTimerClearFlag (preemptedRun i T timers ops).timers i, ret := 0 } ∧
      (preemptedMachine i).answer (preemptedStart timers i T) ops .poll = none := by
  rw [preemptedRun, Machine.run_concat, Machine.answer, ← preemptedRun]
  simp [preemptedMachine, h]

variable (i T timers)

/-- The timer counts its ticks, whatever the polls do to the flag. -/
theorem preemptedRun_represents (ops : List PreemptedOp) :
    ∃ pending, Represents ((preemptedRun i T timers ops).timers i)
      ⟨T, true, ops.count .tick, pending⟩ := by
  induction ops using List.reverseRecOn with
  | nil => exact ⟨false, represents_repeatInit i T timers⟩
  | append_singleton ops op ih =>
    obtain ⟨pending, hrep⟩ := ih
    cases op with
    | tick =>
      simp only [preemptedRun_tick, softTimerTick_apply, List.count_append,
        List.count_singleton_self]
      exact ⟨_, represents_tick hrep i⟩
    | poll =>
      rw [List.count_append, List.count_singleton, if_neg (by decide), Nat.add_zero]
      by_cases hret : (preemptedRun i T timers ops).ret = 0
      · rw [(preemptedRun_read hret).1]
        exact ⟨pending, hrep⟩
      · simp only [(preemptedRun_clear hret).1, softTimerClearFlag, Timers.modify_apply, if_pos]
        exact ⟨false, hrep.timeout, hrep.isRepeat, rfl, hrep.counter⟩

theorem preemptedFlag_zero_or_one (ops : List PreemptedOp) :
    preemptedFlag i T timers ops = 0 ∨ preemptedFlag i T timers ops = 1 := by
  obtain ⟨pending, hrep⟩ := preemptedRun_represents i T timers ops
  rw [preemptedFlag, softTimerReadFlag_eq, hrep.isTimeout]
  cases pending <;> simp

/-- A tick raises the flag if it is an expiry. -/
theorem preemptedFlag_tick (hT : 1 ≤ T) (ops : List PreemptedOp) :
    preemptedFlag i T timers (ops ++ [.tick]) = 1 ↔
      preemptedFlag i T timers ops = 1 ∨ ExpiresAfter T ops := by
  have hpos : 1 ≤ T.toNat := by simpa [UInt32.le_iff_toNat_le] using hT
  obtain ⟨pending, hrep⟩ := preemptedRun_represents i T timers ops
  have hrep' := represents_tick hrep i
  simp only [preemptedFlag, softTimerReadFlag_eq, preemptedRun_tick, softTimerTick_apply,
    hrep.isTimeout, hrep'.isTimeout, TimerHistory.step, expires, ExpiresAfter,
    max_eq_right hpos, Nat.dvd_iff_mod_eq_zero]
  cases pending <;> simp

/-- Without a step of a poll, the flag gathers the expiries and the poll stays where it is. -/
theorem preemptedRun_quiet (hT : 1 ≤ T) (a b : List PreemptedOp) (hb : .poll ∉ b) :
    (preemptedRun i T timers (a ++ b)).ret = (preemptedRun i T timers a).ret ∧
      (preemptedFlag i T timers (a ++ b) = 1 ↔
        preemptedFlag i T timers a = 1 ∨ HasExpiry T a b) := by
  induction b using List.reverseRecOn with
  | nil => simp [HasExpiry]
  | append_singleton b op ih =>
    obtain ⟨hb', hop⟩ := not_or.1 (mt List.mem_append.2 hb)
    cases op with
    | poll => simp at hop
    | tick =>
      obtain ⟨hret, hflag⟩ := ih hb'
      rw [← List.append_assoc, preemptedRun_tick, preemptedFlag_tick i T timers hT, hflag,
        hasExpiry_append, hasExpiry_cons, or_assoc]
      exact ⟨hret, by simp [not_hasExpiry_nil]⟩

variable {i T timers}

/-- A poll under way has read the flag set, and no step of it came since. -/
theorem exists_read_of_ret {ops : List PreemptedOp} (h : (preemptedRun i T timers ops).ret ≠ 0) :
    ∃ a b, ops = a ++ .poll :: b ∧ (preemptedRun i T timers a).ret = 0 ∧
      preemptedFlag i T timers a = 1 ∧ .poll ∉ b := by
  induction ops using List.reverseRecOn with
  | nil => exact absurd rfl h
  | append_singleton ops op ih =>
    cases op with
    | tick =>
      rw [preemptedRun_tick] at h
      obtain ⟨a, b, rfl, hret, hflag, hb⟩ := ih h
      exact ⟨a, b ++ [.tick], by simp, hret, hflag, by simpa using hb⟩
    | poll =>
      by_cases hret : (preemptedRun i T timers ops).ret = 0
      · rw [(preemptedRun_read hret).1] at h
        exact ⟨ops, [], rfl, hret, (preemptedFlag_zero_or_one i T timers ops).resolve_left h,
          by simp⟩
      · rw [(preemptedRun_clear hret).1] at h
        exact absurd rfl h

/-- After the clear the flag stays clear until the next expiry. -/
theorem preemptedFlag_after_clear (hT : 1 ≤ T) {a b : List PreemptedOp}
    (h : (preemptedRun i T timers a).ret ≠ 0) (hb : .poll ∉ b)
    (hexp : ¬ HasExpiry T (a ++ [.poll]) b) :
    (preemptedRun i T timers (a ++ [.poll] ++ b)).ret = 0 ∧
      preemptedFlag i T timers (a ++ [.poll] ++ b) = 0 := by
  obtain ⟨hret, hflag⟩ := preemptedRun_quiet i T timers hT (a ++ [.poll]) b hb
  have hcleared : preemptedFlag i T timers (a ++ [.poll]) = 0 := by
    rw [preemptedFlag, (preemptedRun_clear h).1, softTimerReadFlag_eq]
    simp [softTimerClearFlag]
  refine ⟨by rw [hret, (preemptedRun_clear h).1], ?_⟩
  refine (preemptedFlag_zero_or_one i T timers _).resolve_right fun h1 => ?_
  rcases hflag.1 h1 with h1 | h1
  · rw [hcleared] at h1
    exact absurd h1 (by decide)
  · exact hexp h1

/-- Every expiry is reported unless one is swallowed. -/
theorem reportsExpiries_of_not_swallows (hT : 1 ≤ T) {ops : List PreemptedOp}
    (h : ¬ Swallows i T timers ops) : ReportsExpiries i T timers ops := by
  rintro a b c rfl hexp hno hret
  have hset : preemptedFlag i T timers (a ++ [.tick]) = 1 :=
    (preemptedFlag_tick i T timers hT a).2 (Or.inr hexp)
  -- as long as no step of a poll comes, the flag stays set
  have hquiet (b₁ : List PreemptedOp) (hb₁ : .poll ∉ b₁) :=
    preemptedRun_quiet i T timers hT (a ++ [.tick]) b₁ hb₁
  simp only [List.append_assoc, List.singleton_append, hset, true_or, iff_true] at hquiet
  by_cases hpoll : .poll ∈ b
  · obtain ⟨b₁, b₂, rfl, hb₁⟩ := List.eq_append_cons_of_mem hpoll
    obtain ⟨hret₁, hflag₁⟩ := hquiet b₁ hb₁
    by_cases hread : (preemptedRun i T timers (a ++ .tick :: b₁)).ret = 0
    · refine ⟨b₁, b₂ ++ [.poll], by simp, ?_⟩
      rw [(preemptedRun_read hread).2]
      exact congrArg some hflag₁
    · -- the poll under way has read before the expiry, and clears the flag
      rw [hret₁, preemptedRun_tick] at hread
      obtain ⟨a₁, a₂, rfl, hret₀, hflag₀, ha₂⟩ := exists_read_of_ret hread
      have hnext : ∃ e f d, b₂ = e ++ f ∧ b₂ ++ .poll :: c = e ++ .poll :: d ∧ .poll ∉ e := by
        by_cases hpoll₂ : .poll ∈ b₂
        · obtain ⟨e, f, rfl, he⟩ := List.eq_append_cons_of_mem hpoll₂
          exact ⟨e, .poll :: f, f ++ .poll :: c, rfl, by simp, he⟩
        · exact ⟨b₂, [], c, by simp, rfl, hpoll₂⟩
      obtain ⟨e, f, d, hef, hsplit, he⟩ := hnext
      refine absurd ⟨a₁, a₂ ++ .tick :: b₁, e, d, ?_, hret₀, hflag₀, by simp [ha₂, hb₁],
        ⟨a₂, b₁, rfl, by simpa using hexp⟩, he, fun hexp₂ => hno ?_⟩ h
      · simp [hsplit]
      · rw [hasExpiry_append, hasExpiry_cons, hef, hasExpiry_append]
        exact Or.inr (Or.inr (Or.inl (by simpa using hexp₂)))
  · refine ⟨b, [], rfl, ?_⟩
    rw [(preemptedRun_read hret).2]
    exact congrArg some (hquiet b hpoll).2

/-- A swallowed expiry is not reported. -/
theorem not_reportsExpiries_of_swallows (hT : 1 ≤ T) {ops : List PreemptedOp}
    (h : Swallows i T timers ops) : ¬ ReportsExpiries i T timers ops := by
  obtain ⟨a, b, c, d, rfl, hret, hflag, hb, hexp, hc, hno⟩ := h
  intro hreports
  have hunder {b : List PreemptedOp} (hb : .poll ∉ b) :
      (preemptedRun i T timers (a ++ [.poll] ++ b)).ret ≠ 0 := by
    rw [(preemptedRun_quiet i T timers hT _ b hb).1, (preemptedRun_read hret).1]
    exact fun h0 => absurd (h0.symm.trans hflag) (by decide)
  obtain ⟨hret', hflag'⟩ := preemptedFlag_after_clear hT (hunder hb) hc hno
  -- the last expiry before the clear is the one that is lost
  obtain ⟨b₁, b₂, rfl, hexp₁, hlast⟩ := hexp.last
  have hmem : .poll ∉ b₁ ++ .tick :: b₂ := hb
  simp only [List.mem_append, List.mem_cons, reduceCtorEq, false_or, not_or] at hb
  obtain ⟨e₁, e₂, hsplit, hans⟩ := hreports (a ++ [.poll] ++ b₁) (b₂ ++ .poll :: c) d (by simp)
    hexp₁ (by
      rw [hasExpiry_append, hasExpiry_cons]
      simp only [reduceCtorEq, false_and, false_or, not_or]
      exact ⟨hlast, by simpa using hno⟩)
    (by simpa using hret')
  rw [List.append_assoc, List.cons_append] at hsplit
  rcases split_at_first hb.2 hsplit with ⟨rfl, -⟩ | ⟨e, rfl, hrest⟩
  · -- that step of the poll only clears the flag
    have hclear := hunder hmem
    rw [← List.append_assoc] at hclear
    rw [(preemptedRun_clear hclear).2] at hans
    simp at hans
  · rcases split_at_first hc hrest with ⟨rfl, -⟩ | ⟨e', rfl, hnil⟩
    · simp only [List.append_assoc, List.cons_append, List.nil_append] at hret' hflag' hans
      rw [(preemptedRun_read hret').2] at hans
      rw [preemptedFlag] at hflag'
      rw [hflag'] at hans
      simp at hans
    · simp at hnil

end Run

/-- A poll that the tick may preempt reports every expiry, unless one falls between its two
steps and no other one follows before the next poll reads the flag. -/
theorem reportsExpiries_iff (i : Fin softTimerMax) (T : UInt32) (hT : 1 ≤ T) (timers : Timers)
    (ops : List PreemptedOp) : ReportsExpiries i T timers ops ↔ ¬ Swallows i T timers ops :=
  ⟨fun h hs => not_reportsExpiries_of_swallows hT hs h, reportsExpiries_of_not_swallows hT⟩

/-- A poll that reads a set flag, and a tick after its clear. -/
theorem reportsExpiries_iff_quiet :
    ReportsExpiries 3 1 timersPowerUp [.tick, .poll, .poll, .tick, .poll] ↔
      ¬ Swallows 3 1 timersPowerUp [.tick, .poll, .poll, .tick, .poll] :=
  reportsExpiries_iff ⟨3, by decide⟩ 1 (by decide) timersPowerUp _

/-- The same tick before the clear is lost. -/
theorem reportsExpiries_not_preempted :
    ¬ ReportsExpiries 3 1 timersPowerUp [.tick, .poll, .tick, .poll, .poll] := by
  intro h
  obtain ⟨b₁, b₂, hb, hans⟩ := h [.tick, .poll] [.poll] [] rfl (Nat.one_dvd _)
    (by simp [hasExpiry_cons, not_hasExpiry_nil]) (by decide)
  rcases b₁ with _ | ⟨x, _ | ⟨y, b₁⟩⟩
  · exact absurd hans (by decide)
  · obtain ⟨rfl, -⟩ := List.cons.inj hb
    exact absurd hans (by decide)
  · simp at hb

end Gd32Firmware
