import Mathlib.Data.List.Basic
import Mathlib.Data.List.Nodup
import Mathlib.Data.Set.Basic

/-!
# Chains in a table of links

A table gives each cell a `Link` : the cell is free, it is the last one of a chain, or another
cell follows it. `Leads f l` says that the list `l` is a chain of the table. The chain of a cell
is determined by the cell (`Leads.unique`), so that a chain never returns to a cell
(`Leads.nodup`).

`Becomes f f' l l'` says what it means to change one chain : from the table `f` to `f'` the chain
`l` has become `l'`, with cells that were free, and its other cells are free again. Making a
chain, adding a cell at its end, cutting it off behind a cell and giving all of it back are such
changes, and so is one after the other (`Becomes.trans`).

`Holds S f chain` says that the cells `S` hold a chain for each index, no cell being in two of
them, and `Complete S f chain` that they have no cell besides these chains that is not free. A
change of one chain keeps both (`Becomes.holds`, `Becomes.complete`).
-/

namespace Gd32Firmware

/-- What a cell says : nothing, the end of its chain, or the next cell of it. -/
inductive Link (α : Type*) where
  | free
  | last
  | next (a : α)

namespace Link

variable {α ι : Type*} {f f' : α → Link α} {a b : α} {l l' r : List α}

/-- The cells of the list are linked in its order, and the last one ends the chain. -/
def Leads (f : α → Link α) : List α → Prop
  | [] => True
  | [a] => f a = .last
  | a :: b :: l => f a = .next b ∧ Leads f (b :: l)

@[simp] theorem leads_nil : Leads f [] :=
  trivial

@[simp] theorem leads_singleton : Leads f [a] ↔ f a = .last :=
  Iff.rfl

@[simp] theorem leads_cons_cons : Leads f (a :: b :: l) ↔ f a = .next b ∧ Leads f (b :: l) :=
  Iff.rfl

theorem Leads.tail (h : Leads f (a :: l)) : Leads f l := by
  cases l with
  | nil => trivial
  | cons b l => exact h.2

/-- The rest of a chain is a chain. -/
theorem Leads.of_append (h : Leads f (l ++ r)) : Leads f r := by
  induction l with
  | nil => exact h
  | cons a l ih => exact ih h.tail

theorem Leads.ne_free (h : Leads f l) (ha : a ∈ l) : f a ≠ .free := by
  obtain ⟨l₁, l₂, rfl⟩ := List.append_of_mem ha
  have hrest := h.of_append
  intro hfree
  cases l₂ with
  | nil => simp [hfree] at hrest
  | cons b l₂ => simp [hfree] at hrest

/-- Cells outside the list do not matter. -/
theorem Leads.congr (h : Leads f l) (heq : ∀ a ∈ l, f' a = f a) : Leads f' l := by
  induction l with
  | nil => trivial
  | cons a l ih =>
    cases l with
    | nil => exact (heq a (by simp)).trans h
    | cons b l =>
      exact ⟨(heq a (by simp)).trans h.1, ih h.2 fun c hc => heq c (List.mem_cons_of_mem a hc)⟩

/-- The first cell determines the chain. -/
theorem Leads.unique (h : Leads f (a :: l)) (h' : Leads f (a :: l')) : l = l' := by
  induction l generalizing a l' with
  | nil =>
    cases l' with
    | nil => rfl
    | cons b l' => exact absurd (h.symm.trans h'.1) (by simp)
  | cons b l ih =>
    cases l' with
    | nil => exact absurd (h'.symm.trans h.1) (by simp)
    | cons b' l' =>
      obtain rfl : b = b' := by simpa using h.1.symm.trans h'.1
      rw [ih h.2 h'.2]

/-- A chain does not return to a cell. -/
theorem Leads.nodup (h : Leads f l) : l.Nodup := by
  induction l with
  | nil => exact List.nodup_nil
  | cons a l ih =>
    refine List.nodup_cons.2 ⟨fun ha => ?_, ih h.tail⟩
    obtain ⟨l₁, l₂, rfl⟩ := List.append_of_mem ha
    have hlen := congrArg List.length (h.unique (h.tail.of_append))
    simp at hlen
    omega

/-- A chain up to its last cell, and that cell with what follows it. -/
theorem leads_append_singleton : Leads f (l ++ [a]) → ∀ b, a ≠ b → b ∉ l →
    (∀ c ∈ l, f' c = f c) → f' a = .next b → f' b = .last → Leads f' (l ++ [a, b]) := by
  intro h b hab hbl heq ha hb
  induction l with
  | nil => exact ⟨ha, hb⟩
  | cons c l ih =>
    have hrest := ih h.tail (fun hmem => hbl (List.mem_cons_of_mem c hmem))
      fun c' hc' => heq c' (List.mem_cons_of_mem c hc')
    cases l with
    | nil => exact ⟨(heq c (by simp)).trans h.1, hrest⟩
    | cons c' l => exact ⟨(heq c (by simp)).trans h.1, hrest⟩

/-- The chain ends where a cell is made the last one. -/
theorem Leads.take (h : Leads f (l ++ a :: r)) (heq : ∀ c ∈ l, f' c = f c) (ha : f' a = .last) :
    Leads f' (l ++ [a]) := by
  induction l with
  | nil => exact ha
  | cons c l ih =>
    have hrest := ih h.tail fun c' hc' => heq c' (List.mem_cons_of_mem c hc')
    cases l with
    | nil => exact ⟨(heq c (by simp)).trans h.1, hrest⟩
    | cons c' l => exact ⟨(heq c (by simp)).trans h.1, hrest⟩

/-! ## Changing a chain -/

/-- The chain `l` of the table `f` has become the chain `l'` of `f'`, and nothing else has
changed. -/
structure Becomes (f f' : α → Link α) (l l' : List α) : Prop where
  leads : Leads f' l'
  keeps : ∀ a, a ∉ l → a ∉ l' → f' a = f a
  frees : ∀ a ∈ l, a ∉ l' → f' a = .free
  fresh : ∀ a ∈ l', a ∉ l → f a = .free

theorem Becomes.refl (h : Leads f l) : Becomes f f l l :=
  ⟨h, fun _ _ _ => rfl, fun _ ha ha' => absurd ha ha', fun _ ha ha' => absurd ha ha'⟩

theorem Becomes.trans {f'' : α → Link α} {l'' : List α} (h : Becomes f f' l l')
    (h' : Becomes f' f'' l' l'') : Becomes f f'' l l'' := by
  -- outside `l` the table in between is free exactly where `f` is, or has the new cells of `l'`
  have hmid : ∀ a, a ∉ l → f' a = .free → f a = .free := by
    intro a ha hfree
    by_cases ha' : a ∈ l'
    · exact h.fresh a ha' ha
    · rw [← h.keeps a ha ha', hfree]
  refine ⟨h'.leads, fun a ha ha'' => ?_, fun a ha ha'' => ?_, fun a ha'' ha => ?_⟩
  · by_cases ha' : a ∈ l'
    · rw [h'.frees a ha' ha'', h.fresh a ha' ha]
    · rw [h'.keeps a ha' ha'', h.keeps a ha ha']
  · by_cases ha' : a ∈ l'
    · exact h'.frees a ha' ha''
    · rw [h'.keeps a ha' ha'', h.frees a ha ha']
  · by_cases ha' : a ∈ l'
    · exact h.fresh a ha' ha
    · exact hmid a ha (h'.fresh a ha'' ha')

/-- A cell that was in use and not in the chain is as before. -/
theorem Becomes.eq_of_used (h : Becomes f f' l l') (ha : a ∉ l) (hused : f a ≠ .free) :
    f' a = f a :=
  h.keeps a ha fun ha' => hused (h.fresh a ha' ha)

/-- A chain of one free cell is made. -/
theorem Becomes.create (hfree : f a = .free) (hlast : f' a = .last)
    (hother : ∀ c, c ≠ a → f' c = f c) : Becomes f f' [] [a] := by
  refine ⟨hlast, fun c _ hc => hother c (by simpa using hc), nofun, fun c hc _ => ?_⟩
  rw [List.mem_singleton.1 hc, hfree]

/-- A free cell is added at the end of a chain. -/
theorem Becomes.append (hl : Leads f (l ++ [b])) (hfree : f a = .free) (hlast : f' a = .last)
    (hnext : f' b = .next a) (hother : ∀ c, c ≠ a → c ≠ b → f' c = f c) :
    Becomes f f' (l ++ [b]) (l ++ [b, a]) := by
  have hnew : a ∉ l ++ [b] := fun hmem => hl.ne_free hmem hfree
  have hnodup := hl.nodup
  simp only [List.mem_append, List.mem_singleton, not_or] at hnew
  refine ⟨?_, fun c hc hc' => ?_, fun c hc hc' => ?_, fun c hc hc' => ?_⟩
  · refine leads_append_singleton hl a (Ne.symm hnew.2) hnew.1 (fun c hc => ?_) hnext hlast
    refine hother c (fun heq => hnew.1 (heq ▸ hc)) ?_
    rintro rfl
    exact (List.nodup_append.1 hnodup).2.2 c hc c (by simp) rfl
  · simp only [List.mem_append, List.mem_cons, List.not_mem_nil, or_false, not_or] at hc'
    exact hother c hc'.2.2 hc'.2.1
  · exact absurd (show c ∈ l ++ [b, a] by simp at hc ⊢; tauto) hc'
  · simp only [List.mem_append, List.mem_cons, List.not_mem_nil, or_false, not_or] at hc hc'
    obtain rfl : c = a := by tauto
    exact hfree

/-- A chain is cut off behind a cell, and the rest of it is given back. -/
theorem Becomes.cut (hl : Leads f (l ++ b :: r)) (hlast : f' b = .last)
    (hrest : ∀ c ∈ r, f' c = .free) (hother : ∀ c, c ∉ r → c ≠ b → f' c = f c) :
    Becomes f f' (l ++ b :: r) (l ++ [b]) := by
  have hnodup := List.nodup_append.1 hl.nodup
  refine ⟨?_, fun c hc _ => ?_, fun c hc hc' => ?_, fun c hc hc' => ?_⟩
  · refine hl.take (fun c hc => hother c ?_ ?_) hlast
    · exact fun hr => hnodup.2.2 c hc c (by simp [hr]) rfl
    · exact fun heq => hnodup.2.2 c hc c (by simp [heq]) rfl
  · simp only [List.mem_append, List.mem_cons, not_or] at hc
    exact hother c hc.2.2 hc.2.1
  · simp only [List.mem_append, List.mem_cons, List.not_mem_nil, or_false, not_or] at hc hc'
    exact hrest c (by tauto)
  · exact absurd (show c ∈ l ++ b :: r by simp at hc ⊢; tauto) hc'

/-- All of a chain is given back. -/
theorem Becomes.release (hrest : ∀ c ∈ l, f' c = .free) (hother : ∀ c, c ∉ l → f' c = f c) :
    Becomes f f' l [] :=
  ⟨trivial, fun c hc _ => hother c hc, fun c hc _ => hrest c hc, nofun⟩

/-! ## Tables of chains -/

/-- The cells `S` hold a chain for each index, and no cell is in two of them. -/
structure Holds (S : Set α) (f : α → Link α) (chain : ι → List α) : Prop where
  mem : ∀ i, ∀ a ∈ chain i, a ∈ S
  leads : ∀ i, Leads f (chain i)
  disjoint : ∀ i j, i ≠ j → ∀ a ∈ chain i, a ∉ chain j

/-- Every cell of `S` is free or in a chain. -/
def Complete (S : Set α) (f : α → Link α) (chain : ι → List α) : Prop :=
  ∀ a ∈ S, f a ≠ .free → ∃ i, a ∈ chain i

section Holds

variable [DecidableEq ι] {S : Set α} {chain : ι → List α} {i : ι}

/-- The rule for changing one chain : in the new table the other chains are as before. -/
theorem Holds.replace (h : Holds S f chain) (i : ι) (hS : ∀ a ∈ l, a ∈ S) (hleads : Leads f' l)
    (hother : ∀ j, j ≠ i → ∀ a ∈ chain j, f' a = f a ∧ a ∉ l) :
    Holds S f' (Function.update chain i l) := by
  constructor
  · intro j a ha
    by_cases hj : j = i
    · subst hj
      rw [Function.update_self] at ha
      exact hS a ha
    · rw [Function.update_of_ne hj] at ha
      exact h.mem j a ha
  · intro j
    by_cases hj : j = i
    · subst hj
      rwa [Function.update_self]
    · rw [Function.update_of_ne hj]
      exact (h.leads j).congr fun a ha => (hother j hj a ha).1
  · intro j k hjk a ha hk
    by_cases hj : j = i
    · subst hj
      rw [Function.update_self] at ha
      rw [Function.update_of_ne hjk.symm] at hk
      exact (hother k hjk.symm a hk).2 ha
    · rw [Function.update_of_ne hj] at ha
      by_cases hki : k = i
      · subst hki
        rw [Function.update_self] at hk
        exact (hother j hj a ha).2 hk
      · rw [Function.update_of_ne hki] at hk
        exact h.disjoint j k hjk a ha hk

omit [DecidableEq ι] in
/-- A cell of another chain is in use and not in this one. -/
theorem Holds.other (h : Holds S f chain) {j : ι} (hj : j ≠ i) (ha : a ∈ chain j) :
    a ∉ chain i ∧ f a ≠ .free :=
  ⟨h.disjoint j i hj a ha, (h.leads j).ne_free ha⟩

theorem Becomes.holds (hl : Becomes f f' (chain i) l) (h : Holds S f chain)
    (hS : ∀ a ∈ l, a ∈ S) : Holds S f' (Function.update chain i l) := by
  refine h.replace i hS hl.leads fun j hj a ha => ?_
  obtain ⟨hi, hused⟩ := h.other hj ha
  exact ⟨hl.eq_of_used hi hused, fun hmem => hused (hl.fresh a hmem hi)⟩

theorem Becomes.complete (hl : Becomes f f' (chain i) l) (h : Complete S f chain) :
    Complete S f' (Function.update chain i l) := by
  intro a ha hused
  by_cases hal : a ∈ l
  · exact ⟨i, by rwa [Function.update_self]⟩
  have hi : a ∉ chain i := fun hi => hused (hl.frees a hi hal)
  rw [hl.keeps a hi hal] at hused
  obtain ⟨j, hj⟩ := h a ha hused
  have hji : j ≠ i := fun heq => hi (heq ▸ hj)
  exact ⟨j, by rwa [Function.update_of_ne hji]⟩

end Holds

end Link

end Gd32Firmware
