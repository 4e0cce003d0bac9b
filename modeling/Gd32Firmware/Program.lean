import Mathlib.Tactic.Common

/-!
# Programs over a state that may not return

A `Program` changes a state and returns a value, or never returns. A program that does not
return still leaves the state in which it was last seen (`Program.exec`), so that facts about
what has happened so far can be stated of every run.

`Program.Triple` is partial correctness with two postconditions, one for a program that
returned and one for a program that did not; `Program.Keeps` is the case of an invariant. The
rules follow the ways programs are built : `pure`, `bind`, `ite`, reading and changing the
state, and `iterate`, the loop.
-/

namespace Gd32Firmware

/-- A program over the state `σ` with a result in `α`. -/
abbrev Program (σ α : Type) : Type := OptionT (StateM σ) α

namespace Program

variable {σ α β γ : Type}

/-- The result, if the program returns, and the state it leaves. -/
def exec (m : Program σ α) (s : σ) : Option α × σ :=
  m s

/-- A program that does not return. -/
def stuck : Program σ α := fun s => (none, s)

/-- A loop : the body turns its local variables into new ones or ends the loop. The loop does
not return when it is not over after `fuel` rounds. -/
def iterate (body : β → Program σ (β ⊕ γ)) : ℕ → β → Program σ γ
  | 0, _ => stuck
  | fuel + 1, b => do
    match ← body b with
    | .inl b => iterate body fuel b
    | .inr c => pure c

/-! ## Running -/

section Exec

variable {m : Program σ α} {f : α → Program σ β} {s s' : σ} {a : α}

@[simp] theorem exec_pure (a : α) (s : σ) : exec (pure a : Program σ α) s = (some a, s) :=
  rfl

@[simp] theorem exec_stuck (s : σ) : exec (stuck : Program σ α) s = (none, s) :=
  rfl

@[simp] theorem exec_get (s : σ) : exec (get : Program σ σ) s = (some s, s) :=
  rfl

@[simp] theorem exec_modify (f : σ → σ) (s : σ) :
    exec (modify f : Program σ Unit) s = (some (), f s) :=
  rfl

theorem exec_bind (m : Program σ α) (f : α → Program σ β) (s : σ) :
    exec (m >>= f) s = match exec m s with
      | (some a, s') => exec (f a) s'
      | (none, s') => (none, s') := by
  show (OptionT.bind m f) s = _
  unfold OptionT.bind OptionT.mk exec
  show (match m s with
    | (o, s') => (match o with
      | some a => f a
      | none => Pure.pure none : StateM σ (Option β)) s') = _
  rcases m s with ⟨_ | a, s'⟩ <;> rfl

/-- After a program that returns, the next one goes on. -/
theorem exec_bind_of_eq (h : exec m s = (some a, s')) : exec (m >>= f) s = exec (f a) s' := by
  rw [exec_bind, h]

/-- After a program that does not return, nothing goes on. -/
theorem exec_bind_none (h : (exec m s).1 = none) : (exec (m >>= f) s).1 = none := by
  rw [exec_bind]
  rcases heq : exec m s with ⟨_ | a, s'⟩
  · rfl
  · rw [heq] at h
    exact nomatch h

theorem exec_of_fst (h : (exec m s).1 = some a) : exec m s = (some a, (exec m s).2) :=
  Prod.ext h rfl

/-- A sequence that returns is two programs that return. -/
theorem exec_bind_eq_some {b : β} {s'' : σ} :
    exec (m >>= f) s = (some b, s'') ↔
      ∃ a s', exec m s = (some a, s') ∧ exec (f a) s' = (some b, s'') := by
  rw [exec_bind]
  rcases exec m s with ⟨_ | a, s'⟩ <;> simp

end Exec

/-! ## Triples -/

/-- What holds of an outcome : `Q` if the program returned, `E` if not. -/
def Outcome (Q : α → σ → Prop) (E : σ → Prop) : Option α × σ → Prop
  | (some a, s) => Q a s
  | (none, s) => E s

/-- From a state in `P` the program returns in `Q`, or does not return and is in `E`. -/
def Triple (P : σ → Prop) (m : Program σ α) (Q : α → σ → Prop) (E : σ → Prop) : Prop :=
  ∀ s, P s → Outcome Q E (exec m s)

/-- The program keeps an invariant, whether it returns or not. -/
def Keeps (I : σ → Prop) (m : Program σ α) : Prop :=
  Triple I m (fun _ => I) I

section Rules

variable {P P' I E E' : σ → Prop} {Q Q' : α → σ → Prop} {R : β → σ → Prop} {m : Program σ α}
  {f : α → Program σ β}

theorem Outcome.imp {o : Option α × σ} (h : Outcome Q E o) (hQ : ∀ a s, Q a s → Q' a s)
    (hE : ∀ s, E s → E' s) : Outcome Q' E' o := by
  rcases o with ⟨_ | a, s⟩
  · exact hE s h
  · exact hQ a s h

/-- A program that returned is in its postcondition. -/
theorem Triple.of_eq_some (h : Triple P m Q E) {s s' : σ} {a : α} (hs : P s)
    (heq : exec m s = (some a, s')) : Q a s' := by
  have ho := h s hs
  rwa [heq] at ho

/-- What holds of the run, whether it returned or not. -/
theorem Triple.run {C : Option α → σ → Prop} (h : Triple P m (fun a => C (some a)) (C none))
    {s : σ} (hs : P s) : C (Program.exec m s).1 (Program.exec m s).2 := by
  have ho := h s hs
  rcases heq : Program.exec m s with ⟨_ | a, s'⟩ <;> rwa [heq] at ho

theorem Triple.conseq (h : Triple P m Q E) (hP : ∀ s, P' s → P s) (hQ : ∀ a s, Q a s → Q' a s)
    (hE : ∀ s, E s → E' s) : Triple P' m Q' E' :=
  fun s hs => (h s (hP s hs)).imp hQ hE

theorem Triple.weaken (h : Triple P m Q E) (hQ : ∀ a s, Q a s → Q' a s)
    (hE : ∀ s, E s → E' s) : Triple P m Q' E' :=
  h.conseq (fun _ hs => hs) hQ hE

/-- Only what is returned is weakened. -/
theorem Triple.imp (h : Triple P m Q E) (hQ : ∀ a s, Q a s → Q' a s) : Triple P m Q' E :=
  h.weaken hQ fun _ h => h

/-- What holds where the program stops is forgotten. -/
theorem Triple.forget (h : Triple P m Q E) : Triple P m Q fun _ => True :=
  h.weaken (fun _ _ h => h) fun _ _ => True.intro

theorem Triple.strengthen (h : Triple P m Q E) (hP : ∀ s, P' s → P s) : Triple P' m Q E :=
  h.conseq hP (fun _ _ h => h) (fun _ h => h)

theorem Outcome.and {o : Option α × σ} (h : Outcome Q E o) (h' : Outcome Q' E' o) :
    Outcome (fun a s => Q a s ∧ Q' a s) (fun s => E s ∧ E' s) o := by
  rcases o with ⟨_ | a, s⟩
  · exact And.intro h h'
  · exact And.intro h h'

theorem Triple.and (h : Triple P m Q E) (h' : Triple P' m Q' E') :
    Triple (fun s => P s ∧ P' s) m (fun a s => Q a s ∧ Q' a s) fun s => E s ∧ E' s :=
  fun s hs => (h s hs.1).and (h' s hs.2)

/-- Nothing is asserted. -/
theorem Triple.trivial : Triple P m (fun _ _ => True) fun _ => True := by
  intro s _
  rcases exec m s with ⟨_ | a, s'⟩
  · exact True.intro
  · exact True.intro

/-- A fact of the precondition that is not about the state. -/
theorem Triple.of_fact {p : Prop} (h : p → Triple P m Q E) : Triple (fun s => P s ∧ p) m Q E :=
  fun s hs => h hs.2 s hs.1

theorem Triple.pure (a : α) (h : ∀ s, P s → Q a s) : Triple P (pure a) Q E :=
  fun s hs => h s hs

theorem Triple.stuck (h : ∀ s, P s → E s) : Triple P (stuck : Program σ α) Q E :=
  fun s hs => h s hs

theorem Triple.get {Q : σ → σ → Prop} (h : ∀ s, P s → Q s s) :
    Triple P (get : Program σ σ) Q E :=
  fun s hs => h s hs

theorem Triple.modify {Q : Unit → σ → Prop} (f : σ → σ) (h : ∀ s, P s → Q () (f s)) :
    Triple P (modify f : Program σ Unit) Q E :=
  fun s hs => h s hs

theorem Triple.bind (hm : Triple P m Q E) (hf : ∀ a, Triple (Q a) (f a) R E) :
    Triple P (m >>= f) R E := by
  intro s hs
  have ho := hm s hs
  rw [exec_bind]
  rcases heq : exec m s with ⟨_ | a, s'⟩
  · rwa [heq] at ho
  · rw [heq] at ho
    exact hf a s' ho

theorem Triple.ite {c : Prop} [Decidable c] {m' : Program σ α}
    (hm : c → Triple P m Q E) (hm' : ¬ c → Triple P m' Q E) :
    Triple P (if c then m else m') Q E := by
  split_ifs with hc
  · exact hm hc
  · exact hm' hc

/-- The rule for loops : an invariant of the local variables and the state. -/
theorem Triple.iterate {J : β → σ → Prop} {R : γ → σ → Prop} {body : β → Program σ (β ⊕ γ)}
    (hbody : ∀ b, Triple (J b) (body b) (Sum.elim J R) E) (hE : ∀ b s, J b s → E s) :
    ∀ fuel b, Triple (J b) (iterate body fuel b) R E
  | 0, b => Triple.stuck (hE b)
  | fuel + 1, b => by
    refine Triple.bind (hbody b) fun r => ?_
    cases r with
    | inl b' => exact Triple.iterate hbody hE fuel b'
    | inr c => exact Triple.pure c fun _ h => h

/-- The rule for loops whose rounds make a measure smaller, so that they are over before they are
cut off. -/
theorem Triple.iterate_of_lt {J : β → σ → Prop} {R : γ → σ → Prop}
    {body : β → Program σ (β ⊕ γ)} {μ : σ → ℕ}
    (hbody : ∀ b n, Triple (fun s => J b s ∧ μ s ≤ n) (body b)
      (Sum.elim (fun b s => J b s ∧ μ s < n) R) E) :
    ∀ fuel n b, n < fuel → Triple (fun s => J b s ∧ μ s ≤ n) (Program.iterate body fuel b) R E
  | 0, _, _, h => absurd h (Nat.not_lt_zero _)
  | fuel + 1, n, b, h => by
    refine Triple.bind (hbody b n) fun r => ?_
    cases r with
    | inl b' =>
      cases n with
      | zero => exact fun s hs => absurd hs.2 (Nat.not_lt_zero _)
      | succ n =>
        exact (Triple.iterate_of_lt hbody fuel n b' (Nat.lt_of_succ_lt_succ h)).strengthen
          fun s hs => ⟨hs.1, Nat.le_of_lt_succ hs.2⟩
    | inr c => exact Triple.pure c fun _ h => h

/-- What a program does to a part of the state that the precondition fixes. -/
theorem Triple.forall {ι : Type} {P : ι → σ → Prop} (h : ∀ i, Triple (P i) m Q E) :
    Triple (fun s => ∃ i, P i s) m Q E :=
  fun s ⟨i, hs⟩ => h i s hs

theorem Keeps.and {I' : σ → Prop} (h : Keeps I m) (h' : Keeps I' m) :
    Keeps (fun s => I s ∧ I' s) m :=
  Triple.and h h'

theorem Keeps.or {I' : σ → Prop} (h : Keeps I m) (h' : Keeps I' m) :
    Keeps (fun s => I s ∨ I' s) m :=
  fun s hs => hs.elim (h.weaken (fun _ _ => Or.inl) (fun _ => Or.inl) s)
    (h'.weaken (fun _ _ => Or.inr) (fun _ => Or.inr) s)

/-- What a program keeps, when nothing is asked of one that does not return. -/
theorem Keeps.triple (h : Keeps I m) : Triple I m (fun _ => I) fun _ => True :=
  h.forget

/-- Whether the program returned or not, the invariant holds of the state it left. -/
theorem Keeps.exec {s : σ} (h : Keeps I m) (hs : I s) : I (exec m s).2 :=
  Triple.run (C := fun _ => I) h hs

theorem Keeps.pure (a : α) : Keeps I (pure a : Program σ α) :=
  Triple.pure a fun _ h => h

theorem Keeps.get : Keeps I (get : Program σ σ) :=
  Triple.get fun _ h => h

theorem Keeps.modify (f : σ → σ) (h : ∀ s, I s → I (f s)) :
    Keeps I (modify f : Program σ Unit) :=
  Triple.modify f h

theorem Keeps.bind (hm : Keeps I m) (hf : ∀ a, Keeps I (f a)) : Keeps I (m >>= f) :=
  Triple.bind hm hf

theorem Keeps.ite {c : Prop} [Decidable c] {m' : Program σ α} (hm : Keeps I m)
    (hm' : Keeps I m') : Keeps I (if c then m else m') :=
  Triple.ite (fun _ => hm) (fun _ => hm')

theorem Keeps.iterate {body : β → Program σ (β ⊕ γ)} (hbody : ∀ b, Keeps I (body b)) (fuel : ℕ)
    (b : β) : Keeps I (iterate body fuel b) :=
  Triple.iterate (J := fun _ => I)
    (fun b => (hbody b).weaken (fun r _ h => by cases r <;> exact h) fun _ h => h)
    (fun _ _ h => h) fuel b

end Rules

/-! ## Two runs -/

/-- From states in the relation, two programs return the same value or both do not return, and
leave states in the relation. -/
def Couples (r : σ → σ → Prop) (m m' : Program σ α) : Prop :=
  ∀ s s', r s s' → (exec m s).1 = (exec m' s').1 ∧ r (exec m s).2 (exec m' s').2

section Couples

variable {r : σ → σ → Prop} {m m' : Program σ α}

theorem Couples.pure (a : α) : Couples r (pure a) (pure a : Program σ α) :=
  fun _ _ hs => ⟨rfl, hs⟩

theorem Couples.stuck : Couples r stuck (stuck : Program σ α) :=
  fun _ _ hs => ⟨rfl, hs⟩

theorem Couples.modify {f f' : σ → σ} (h : ∀ s s', r s s' → r (f s) (f' s')) :
    Couples r (modify f) (modify f' : Program σ Unit) :=
  fun s s' hs => ⟨rfl, h s s' hs⟩

theorem Couples.bind {f f' : α → Program σ β} (hm : Couples r m m')
    (hf : ∀ a, Couples r (f a) (f' a)) : Couples r (m >>= f) (m' >>= f') := by
  intro s s' hs
  have h := hm s s' hs
  rw [exec_bind, exec_bind]
  rcases heq : exec m s with ⟨_ | a, s₁⟩ <;> rcases heq' : exec m' s' with ⟨_ | a', s₁'⟩ <;>
    rw [heq, heq'] at h
  · exact ⟨rfl, h.2⟩
  · exact nomatch h.1
  · exact nomatch h.1
  · obtain rfl : a = a' := Option.some_inj.mp h.1
    exact hf a s₁ s₁' h.2

/-- What the programs read of the state may differ, if they go on alike. -/
theorem Couples.get {f f' : σ → Program σ β}
    (hf : ∀ s s', r s s' → Couples r (f s) (f' s')) :
    Couples r (MonadState.get >>= f) (MonadState.get >>= f') := by
  intro s s' hs
  rw [exec_bind, exec_bind]
  exact hf s s' hs s s' hs

theorem Couples.ite {c : Prop} [Decidable c] {n n' : Program σ α} (hm : Couples r m m')
    (hn : Couples r n n') : Couples r (if c then m else n) (if c then m' else n') := by
  split_ifs
  · exact hm
  · exact hn

theorem Couples.iterate {body body' : β → Program σ (β ⊕ γ)}
    (hbody : ∀ b, Couples r (body b) (body' b)) :
    ∀ fuel b, Couples r (iterate body fuel b) (iterate body' fuel b)
  | 0, _ => Couples.stuck
  | fuel + 1, b => by
    refine Couples.bind (hbody b) fun result => ?_
    cases result with
    | inl b => exact Couples.iterate hbody fuel b
    | inr c => exact Couples.pure c

end Couples

end Program

end Gd32Firmware
