import Mathlib.Data.List.Basic

/-!
# Runs of a state machine

A `Machine` answers one operation at a time. `run` is the state after a list of
operations, `answer` what the machine says to an operation that follows a list, `answers`
all it says along a list.

Four rules carry a fact about one step to a fact about every run :
`run_invariant` for an invariant, `run_invariant_of_along` for an invariant that a step
keeps under a condition on the state before it (`Along`), `forall_prefix_iff_along` for one
that it keeps exactly then, and `run_simulates` for a relation to a second machine that takes
the same operations.
-/

namespace Gd32Firmware

/-- One step takes a state and an operation to the next state and an answer. -/
structure Machine (σ ι ο : Type*) where
  /-- The next state and the answer. -/
  step : σ → ι → σ × ο

namespace Machine

variable {σ τ ι ο ο' : Type*} (m : Machine σ ι ο)

/-- The state after the operations, oldest first. -/
def run (s : σ) (ops : List ι) : σ :=
  ops.foldl (fun s i => (m.step s i).1) s

/-- The answer to `i` after the operations `pre`. -/
def answer (s : σ) (pre : List ι) (i : ι) : ο :=
  (m.step (m.run s pre) i).2

@[simp] theorem run_nil (s : σ) : m.run s [] = s :=
  rfl

@[simp] theorem run_cons (s : σ) (i : ι) (ops : List ι) :
    m.run s (i :: ops) = m.run (m.step s i).1 ops :=
  rfl

theorem run_append (s : σ) (pre post : List ι) :
    m.run s (pre ++ post) = m.run (m.run s pre) post :=
  List.foldl_append

theorem run_concat (s : σ) (pre : List ι) (i : ι) :
    m.run s (pre ++ [i]) = (m.step (m.run s pre) i).1 := by
  rw [run_append, run_cons, run_nil]

/-- The answers to all operations of a run. -/
def answers (s : σ) : List ι → List ο
  | [] => []
  | i :: ops => (m.step s i).2 :: answers (m.step s i).1 ops

theorem answers_concat (s : σ) (pre : List ι) (i : ι) :
    m.answers s (pre ++ [i]) = m.answers s pre ++ [m.answer s pre i] := by
  induction pre generalizing s with
  | nil => rfl
  | cons j pre ih => simp [answers, ih, answer]

/-- An invariant of every step is an invariant of every run. -/
theorem run_invariant {I : σ → Prop} (hstep : ∀ s i, I s → I (m.step s i).1) :
    ∀ (ops : List ι) {s : σ}, I s → I (m.run s ops)
  | [], _, hs => hs
  | i :: ops, s, hs => run_invariant hstep ops (hstep s i hs)

/-- Every operation of the run meets `C` in the state it finds. -/
def Along (C : σ → ι → Prop) : σ → List ι → Prop
  | _, [] => True
  | s, i :: ops => C s i ∧ Along C (m.step s i).1 ops

instance {C : σ → ι → Prop} [∀ s i, Decidable (C s i)] :
    ∀ (s : σ) (ops : List ι), Decidable (m.Along C s ops)
  | _, [] => inferInstanceAs (Decidable True)
  | s, i :: ops =>
    have : Decidable (m.Along C (m.step s i).1 ops) := instDecidableAlong _ ops
    inferInstanceAs (Decidable (C s i ∧ m.Along C (m.step s i).1 ops))

theorem along_append (C : σ → ι → Prop) :
    ∀ (pre post : List ι) (s : σ),
      m.Along C s (pre ++ post) ↔ m.Along C s pre ∧ m.Along C (m.run s pre) post
  | [], _, _ => by simp [Along]
  | i :: pre, post, s => by
    simp only [List.cons_append, Along, run_cons, along_append C pre post, and_assoc]

/-- An invariant that a step keeps under `C` holds after a run that meets `C`. -/
theorem run_invariant_of_along {C : σ → ι → Prop} {I : σ → Prop}
    (hstep : ∀ s i, I s → C s i → I (m.step s i).1) :
    ∀ (ops : List ι) {s : σ}, I s → m.Along C s ops → I (m.run s ops)
  | [], _, hs, _ => hs
  | i :: ops, s, hs, h => run_invariant_of_along hstep ops (hstep s i hs h.1) h.2

/-- A property that a step keeps exactly if it meets `C` holds in every state of a run exactly if
every step meets `C`. -/
theorem forall_prefix_iff_along {C : σ → ι → Prop} {I : σ → Prop}
    (hstep : ∀ s i, I s → (I (m.step s i).1 ↔ C s i)) (ops : List ι) {s : σ} (hs : I s) :
    (∀ pre, pre <+: ops → I (m.run s pre)) ↔ m.Along C s ops := by
  induction ops generalizing s with
  | nil =>
    refine ⟨fun _ => trivial, fun _ pre hpre => ?_⟩
    rw [List.prefix_nil.1 hpre]
    exact hs
  | cons i ops ih =>
    constructor
    · intro h
      have hnext : I (m.step s i).1 := h [i] (by simp)
      exact ⟨(hstep s i hs).1 hnext,
        (ih hnext).1 fun pre hpre => h (i :: pre) (List.cons_prefix_cons.2 ⟨rfl, hpre⟩)⟩
    · rintro ⟨hC, halong⟩ pre hpre
      rcases List.prefix_cons_iff.1 hpre with rfl | ⟨rest, rfl, hrest⟩
      · exact hs
      · exact (ih ((hstep s i hs).2 hC)).2 halong rest hrest

/-- What a condition on the steps and an invariant give of each step holds along the run. -/
theorem along_of_invariant {C D : σ → ι → Prop} {I : σ → Prop}
    (hstep : ∀ s i, I s → I (m.step s i).1) (hD : ∀ s i, I s → C s i → D s i) :
    ∀ (ops : List ι) {s : σ}, I s → m.Along C s ops → m.Along D s ops
  | [], _, _, _ => trivial
  | i :: ops, s, hs, h =>
    ⟨hD s i hs h.1, along_of_invariant hstep hD ops (hstep s i hs) h.2⟩

/-- A relation kept by every pair of steps on one operation is kept by every run. -/
theorem run_simulates (n : Machine τ ι ο') {R : σ → τ → Prop}
    (hstep : ∀ s t i, R s t → R (m.step s i).1 (n.step t i).1) :
    ∀ (ops : List ι) {s : σ} {t : τ}, R s t → R (m.run s ops) (n.run t ops)
  | [], _, _, h => h
  | i :: ops, s, t, h => run_simulates n hstep ops (hstep s t i h)

end Machine

end Gd32Firmware
