import Mathlib.Logic.Function.Iterate
import Mathlib.Tactic.SplitIfs

/-!
# Loops that a value of their body ends

`doWhile body fuel s` runs `body` until it answers `false`, and is `none` if that takes more
than `fuel` passes. Whether it ends, and in what, is a matter of the iterates of the body : a
loop ends with its first pass that answers `false` (`doWhile_of_endsAt`, `endsAt_of_doWhile`).
-/

namespace Gd32Firmware

variable {σ : Type*}

/-- `do s = body(s) while (…)`. -/
def doWhile (body : σ → Bool × σ) : ℕ → σ → Option σ
  | 0, _ => none
  | fuel + 1, s => if (body s).1 then doWhile body fuel (body s).2 else some (body s).2

/-- The state that pass number `i` finds. -/
def passState (body : σ → Bool × σ) (i : ℕ) (s : σ) : σ :=
  (fun s => (body s).2)^[i] s

variable {body : σ → Bool × σ} {s s' : σ} {i j : ℕ}

@[simp] theorem passState_zero : passState body 0 s = s :=
  rfl

theorem passState_succ : passState body (i + 1) s = (body (passState body i s)).2 :=
  Function.iterate_succ_apply' ..

theorem passState_succ' : passState body (i + 1) s = passState body i (body s).2 :=
  rfl

/-- Pass number `i` is the first that answers `false`. -/
structure EndsAt (body : σ → Bool × σ) (s : σ) (i : ℕ) : Prop where
  goesOn : ∀ j < i, (body (passState body j s)).1 = true
  ends : (body (passState body i s)).1 = false

/-- The last pass comes after every stretch of passes that go on. -/
theorem EndsAt.le (h : EndsAt body s i) (hgoes : ∀ k < j, (body (passState body k s)).1 = true) :
    j ≤ i := by
  by_contra hlt
  have hgo := hgoes i (by omega)
  rw [h.ends] at hgo
  simp at hgo

theorem EndsAt.eq (h : EndsAt body s i) (h' : EndsAt body s j) : i = j :=
  Nat.le_antisymm (h'.le h.goesOn) (h.le h'.goesOn)

theorem endsAt_succ (hgo : (body s).1 = true) :
    EndsAt body s (i + 1) ↔ EndsAt body (body s).2 i := by
  constructor
  · intro h
    exact ⟨fun j hj => h.goesOn (j + 1) (by omega), h.ends⟩
  · intro h
    refine ⟨fun j hj => ?_, h.ends⟩
    cases j with
    | zero => exact hgo
    | succ j => exact h.goesOn j (by omega)

/-- One pass more than the number of the last is enough. -/
theorem doWhile_of_endsAt (h : EndsAt body s i) :
    doWhile body (i + 1) s = some (passState body (i + 1) s) := by
  induction i generalizing s with
  | zero =>
    have hend : (body s).1 = false := h.ends
    simp [doWhile, hend, passState]
  | succ i ih =>
    have hgo : (body s).1 = true := h.goesOn 0 (by omega)
    rw [doWhile, if_pos hgo, ih ((endsAt_succ hgo).1 h), ← passState_succ']

/-- A loop that ended has had a pass that answered `false`. -/
theorem endsAt_of_doWhile {fuel : ℕ} (h : doWhile body fuel s = some s') :
    ∃ i, EndsAt body s i ∧ s' = passState body (i + 1) s := by
  induction fuel generalizing s with
  | zero => simp [doWhile] at h
  | succ fuel ih =>
    rw [doWhile] at h
    split_ifs at h with hgo
    · obtain ⟨i, hi, rfl⟩ := ih h
      exact ⟨i + 1, (endsAt_succ hgo).2 hi, passState_succ'.symm⟩
    · refine ⟨0, ⟨fun j hj => by omega, by simpa using hgo⟩, ?_⟩
      exact (Option.some.inj h).symm

/-- A pass that goes on and changes nothing is followed by itself for ever. -/
theorem not_endsAt_of_fixed (hgoes : ∀ k < j, (body (passState body k s)).1 = true)
    (hfixed : body (passState body j s) = (true, passState body j s)) : ¬ EndsAt body s i := by
  intro h
  have hstays : ∀ k, passState body (j + k) s = passState body j s := by
    intro k
    induction k with
    | zero => rfl
    | succ k ih => rw [← Nat.add_assoc, passState_succ, ih, hfixed]
  obtain ⟨k, rfl⟩ := Nat.exists_eq_add_of_le (h.le hgoes)
  have hends := h.ends
  rw [hstays k, hfixed] at hends
  simp at hends

end Gd32Firmware
