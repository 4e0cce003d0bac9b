import Gd32Firmware.Program

/-!
# Programs that return

`Returns m s Q` is total correctness from one state : the program returns, and `Q` holds of the
value and of the state it leaves. As the state is fixed, `Q` may speak about it, so a
specification can relate the state before to the one after.

The equations for `pure`, `>>=`, `if` and the steps are simp lemmas, so a program without
loops is run by `simp`. `Returns.iterate` is the rule for loops : a measure of the local
variables and the state goes down with every round.
-/

namespace Gd32Firmware.Program

variable {σ α β γ : Type} {m : Program σ α} {f : α → Program σ β} {s s' : σ} {a : α}
  {Q Q' : α → σ → Prop}

/-- A step that always returns. -/
def act (f : σ → α × σ) : Program σ α := fun s => (some (f s).1, (f s).2)

@[simp] theorem exec_act (f : σ → α × σ) (s : σ) :
    exec (act f) s = (some (f s).1, (f s).2) :=
  rfl

/-- From `s` the program returns, and `Q` holds of what it returns and the state it leaves. -/
def Returns (m : Program σ α) (s : σ) (Q : α → σ → Prop) : Prop :=
  Outcome Q (fun _ => False) (exec m s)

theorem returns_iff : Returns m s Q ↔ ∃ a s', exec m s = (some a, s') ∧ Q a s' := by
  unfold Returns
  rcases exec m s with ⟨_ | a, s'⟩ <;> simp [Outcome]

theorem Returns.of_exec (h : exec m s = (some a, s')) (hQ : Q a s') : Returns m s Q :=
  returns_iff.2 ⟨a, s', h, hQ⟩

/-- What is known of the outcome of a program that returned. -/
theorem Returns.of_eq (h : Returns m s Q) (heq : exec m s = (some a, s')) : Q a s' := by
  rwa [Returns, heq] at h

@[simp] theorem returns_pure (a : α) : Returns (pure a) s Q ↔ Q a s :=
  Iff.rfl

@[simp] theorem returns_get {Q : σ → σ → Prop} : Returns (get : Program σ σ) s Q ↔ Q s s :=
  Iff.rfl

@[simp] theorem returns_modify {Q : Unit → σ → Prop} (f : σ → σ) :
    Returns (modify f : Program σ Unit) s Q ↔ Q () (f s) :=
  Iff.rfl

@[simp] theorem returns_act (f : σ → α × σ) : Returns (act f) s Q ↔ Q (f s).1 (f s).2 :=
  Iff.rfl

@[simp] theorem not_returns_stuck : ¬ Returns (stuck : Program σ α) s Q :=
  fun h => h

@[simp] theorem returns_bind {Q : β → σ → Prop} :
    Returns (m >>= f) s Q ↔ Returns m s fun a s' => Returns (f a) s' Q := by
  unfold Returns
  rw [exec_bind]
  rcases exec m s with ⟨_ | a, s'⟩ <;> rfl

theorem Returns.ite {c : Prop} [Decidable c] {m' : Program σ α} (hm : c → Returns m s Q)
    (hm' : ¬ c → Returns m' s Q) : Returns (if c then m else m') s Q := by
  split_ifs with hc
  · exact hm hc
  · exact hm' hc

theorem Returns.imp (h : Returns m s Q) (hQ : ∀ a s', Q a s' → Q' a s') : Returns m s Q' :=
  Outcome.imp h hQ fun _ h => h

theorem Returns.and (h : Returns m s Q) (h' : Returns m s Q') :
    Returns m s fun a s' => Q a s' ∧ Q' a s' := by
  obtain ⟨a, s', heq, hQ⟩ := returns_iff.1 h
  exact .of_exec heq ⟨hQ, h'.of_eq heq⟩

theorem Returns.bind {Q' : β → σ → Prop} (h : Returns m s Q)
    (hf : ∀ a s', Q a s' → Returns (f a) s' Q') : Returns (m >>= f) s Q' :=
  returns_bind.2 (h.imp hf)

/-- A program over a part of the state. -/
def zoom {τ : Type} (part : τ → σ) (put : σ → τ → τ) (m : Program σ α) : Program τ α := fun t =>
  ((exec m (part t)).1, put (exec m (part t)).2 t)

@[simp] theorem returns_zoom {τ : Type} {part : τ → σ} {put : σ → τ → τ} {t : τ}
    {Q : α → τ → Prop} :
    Returns (zoom part put m) t Q ↔ Returns m (part t) fun a s' => Q a (put s' t) := by
  show Outcome Q (fun _ => False) ((exec m (part t)).1, put (exec m (part t)).2 t) ↔ _
  unfold Returns
  rcases exec m (part t) with ⟨_ | a, s'⟩ <;> rfl

/-- The rule for loops that end : an invariant, and a measure that every round lowers. -/
theorem Returns.iterate {J : β → σ → Prop} {R : γ → σ → Prop} {body : β → Program σ (β ⊕ γ)}
    (μ : β → σ → ℕ)
    (hbody : ∀ b s, J b s →
      Returns (body b) s fun r s' => Sum.elim (fun b' => J b' s' ∧ μ b' s' < μ b s) (R · s') r) :
    ∀ fuel b s, J b s → μ b s < fuel → Returns (iterate body fuel b) s R
  | 0, b, s, _, hlt => absurd hlt (Nat.not_lt_zero _)
  | fuel + 1, b, s, hJ, hlt => by
    refine (hbody b s hJ).bind fun r s' hr => ?_
    cases r with
    | inl b' => exact Returns.iterate μ hbody fuel b' s' hr.1 (by have := hr.2; omega)
    | inr c => exact hr

end Gd32Firmware.Program
