import Mathlib.Data.List.Nodup
import Mathlib.Data.List.Perm.Subperm
import Mathlib.Data.UInt
import Mathlib.Logic.Function.Basic

/-!
# Packet buffers

The part of lwIP's `core/pbuf.c` that the echo server uses : chains of reference-counted
buffers in a heap. A function is `none` where the code would touch a buffer that is not
there. `IsChain` says which buffers a pointer leads to, each of them held by one reference;
`pbufFree_chain`, `advance_chain` and `pbufCat_chain` say what the functions make of a chain,
and that they leave every other buffer alone.
-/

namespace Gd32Firmware

/-- The bytes of one buffer, as many as a `len` can say. -/
structure Payload where
  bytes : List UInt8
  fits : bytes.length < 2 ^ 16

/-- The field `len` of the buffer. -/
def Payload.len (w : Payload) : UInt16 :=
  UInt16.ofNat w.bytes.length

@[simp] theorem Payload.len_toNat (w : Payload) : w.len.toNat = w.bytes.length :=
  UInt16.toNat_ofNat_of_lt' w.fits

/-- A `struct pbuf`. -/
structure Pbuf where
  next : Option ℕ
  payload : Payload
  totLen : UInt16
  ref : UInt8

/-- The buffers in use, under their addresses. No address from `size` on was ever used. -/
structure PbufHeap where
  cells : ℕ → Option Pbuf
  size : ℕ

/-- Write a buffer, or give it back. -/
def PbufHeap.set (h : PbufHeap) (p : ℕ) (b : Option Pbuf) : PbufHeap :=
  { h with cells := Function.update h.cells p b }

/-- `pbuf_ref`. -/
def pbufRef (h : PbufHeap) : Option ℕ → Option PbufHeap
  | some p => do
    let b ← h.cells p
    some (h.set p (some { b with ref := b.ref + 1 }))
  | none => some h

/-- The loop of `pbuf_free`, with the buffers it gives back. -/
def pbufFreeLoop : ℕ → PbufHeap → Option ℕ → Option (PbufHeap × List ℕ)
  | 0, _, _ => none
  | _ + 1, h, none => some (h, [])
  | fuel + 1, h, some p => do
    let b ← h.cells p
    let ref := b.ref - 1
    if ref = 0 then
      let (h, freed) ← pbufFreeLoop fuel (h.set p none) b.next
      some (h, p :: freed)
    else some (h.set p (some { b with ref := ref }), [])

/-- `pbuf_free`. A chain is no longer than the heap. -/
def pbufFree (h : PbufHeap) (p : ℕ) : Option (PbufHeap × List ℕ) :=
  pbufFreeLoop (h.size + 1) h (some p)

/-- The loop of `pbuf_cat`. -/
def pbufCatLoop (t : ℕ) (tail : Pbuf) : ℕ → PbufHeap → ℕ → Option PbufHeap
  | 0, _, _ => none
  | fuel + 1, h, p => do
    let b ← h.cells p
    let b := { b with totLen := b.totLen + tail.totLen }
    match b.next with
    | some q => pbufCatLoop t tail fuel (h.set p (some b)) q
    | none => some (h.set p (some { b with next := some t }))

/-- `pbuf_cat`. -/
def pbufCat (h : PbufHeap) (head t : ℕ) : Option PbufHeap := do
  let tail ← h.cells t
  pbufCatLoop t tail (h.size + 1) h head

/-- A chain as lwIP hands it over : fresh buffers, each with one reference. -/
def allocChain (h : PbufHeap) : List Payload → PbufHeap × Option ℕ
  | [] => (h, none)
  | w :: ws =>
    let (rest, next) := allocChain { h with size := h.size + 1 } ws
    let totLen := UInt16.ofNat ((w :: ws).map fun w => w.bytes.length).sum
    (rest.set h.size (some { next := next, payload := w, totLen := totLen, ref := 1 }),
      some h.size)

/-- The addresses of such a chain. -/
def addressed : ℕ → List Payload → List (ℕ × Payload)
  | _, [] => []
  | a, w :: ws => (a, w) :: addressed (a + 1) ws

/-! ## Chains -/

/-- The pointer leads through these buffers, each held by one reference. -/
def IsChain (h : PbufHeap) : Option ℕ → List (ℕ × Payload) → Prop
  | p, [] => p = none
  | p, (a, w) :: xs =>
    p = some a ∧ ∃ b, h.cells a = some b ∧ b.payload = w ∧ b.ref = 1 ∧ IsChain h b.next xs

/-- Different buffers, with addresses in the heap. -/
structure Distinct (h : PbufHeap) (xs : List (ℕ × Payload)) : Prop where
  nodup : (xs.map Prod.fst).Nodup
  lt : ∀ x ∈ xs, x.1 < h.size

@[simp] theorem PbufHeap.set_size (h : PbufHeap) (p : ℕ) (b : Option Pbuf) :
    (h.set p b).size = h.size :=
  rfl

@[simp] theorem PbufHeap.set_self (h : PbufHeap) (p : ℕ) (b : Option Pbuf) :
    (h.set p b).cells p = b :=
  Function.update_self ..

@[simp] theorem PbufHeap.set_of_ne (h : PbufHeap) {p q : ℕ} (b : Option Pbuf) (hne : q ≠ p) :
    (h.set p b).cells q = h.cells q :=
  Function.update_of_ne hne ..

/-- A chain depends on its own buffers. -/
theorem IsChain.congr {h h' : PbufHeap} (xs : List (ℕ × Payload)) {p : Option ℕ}
    (hchain : IsChain h p xs) (hsame : ∀ x ∈ xs, h'.cells x.1 = h.cells x.1) :
    IsChain h' p xs := by
  induction xs generalizing p with
  | nil => exact hchain
  | cons x xs ih =>
    obtain ⟨hp, b, hcell, hw, href, hnext⟩ := hchain
    refine ⟨hp, b, ?_, hw, href, ih hnext fun y hy => hsame y (List.mem_cons_of_mem x hy)⟩
    rw [hsame x List.mem_cons_self, hcell]

theorem Distinct.of_cons {h : PbufHeap} {x : ℕ × Payload} {xs : List (ℕ × Payload)}
    (hd : Distinct h (x :: xs)) : x.1 ∉ xs.map Prod.fst ∧ Distinct h xs := by
  obtain ⟨hnodup, hlt⟩ := hd
  rw [List.map_cons, List.nodup_cons] at hnodup
  exact ⟨hnodup.1, hnodup.2, fun y hy => hlt y (List.mem_cons_of_mem x hy)⟩

/-- A chain is no longer than the heap. -/
theorem Distinct.length_le {h : PbufHeap} {xs : List (ℕ × Payload)} (hd : Distinct h xs) :
    xs.length ≤ h.size := by
  have hsub : xs.map Prod.fst ⊆ List.range h.size := by
    intro a ha
    obtain ⟨x, hx, rfl⟩ := List.mem_map.1 ha
    exact List.mem_range.2 (hd.lt x hx)
  simpa using (List.subperm_of_subset hd.nodup hsub).length_le

/-! ## The functions on chains -/

/-- Freeing a chain gives all of it back. -/
theorem pbufFreeLoop_chain (xs : List (ℕ × Payload)) :
    ∀ {h : PbufHeap} {p : Option ℕ} {fuel : ℕ}, IsChain h p xs → (xs.map Prod.fst).Nodup →
      xs.length < fuel →
      ∃ h', pbufFreeLoop fuel h p = some (h', xs.map Prod.fst) ∧ h'.size = h.size ∧
        ∀ q ∉ xs.map Prod.fst, h'.cells q = h.cells q := by
  induction xs with
  | nil =>
    intro h p fuel hchain _ hfuel
    obtain rfl : p = none := hchain
    obtain ⟨fuel, rfl⟩ := Nat.exists_eq_succ_of_ne_zero (by omega : fuel ≠ 0)
    exact ⟨h, rfl, rfl, fun _ _ => rfl⟩
  | cons x xs ih =>
    intro h p fuel hchain hnodup hfuel
    obtain ⟨rfl, b, hcell, -, href, hnext⟩ := hchain
    rw [List.map_cons, List.nodup_cons] at hnodup
    rw [List.length_cons] at hfuel
    obtain ⟨fuel, rfl⟩ := Nat.exists_eq_succ_of_ne_zero (by omega : fuel ≠ 0)
    have hrest : IsChain (h.set x.1 none) b.next xs := hnext.congr xs fun y hy =>
      h.set_of_ne none fun heq => hnodup.1 (heq ▸ List.mem_map_of_mem hy)
    obtain ⟨h', hfree, hsize, hframe⟩ := ih hrest hnodup.2 (Nat.lt_of_succ_lt_succ hfuel)
    refine ⟨h', by simp [pbufFreeLoop, hcell, href, hfree], hsize, fun q hq => ?_⟩
    rw [List.map_cons, List.mem_cons, not_or] at hq
    rw [hframe q hq.2, h.set_of_ne none hq.1]

theorem pbufFree_chain {h : PbufHeap} {a : ℕ} {xs : List (ℕ × Payload)}
    (hchain : IsChain h (some a) xs) (hd : Distinct h xs) :
    ∃ h', pbufFree h a = some (h', xs.map Prod.fst) ∧ h'.size = h.size ∧
      ∀ q ∉ xs.map Prod.fst, h'.cells q = h.cells q :=
  pbufFreeLoop_chain xs hchain hd.nodup (Nat.lt_succ_of_le hd.length_le)

/-- The next buffer is referenced and the first one freed : only the first is given back. -/
theorem advance_chain {h : PbufHeap} {a : ℕ} {b : Pbuf} {w : Payload} {xs : List (ℕ × Payload)}
    (hcell : h.cells a = some b) (hchain : IsChain h (some a) ((a, w) :: xs))
    (hd : Distinct h ((a, w) :: xs)) :
    ∃ h₁ h₂, pbufRef h b.next = some h₁ ∧ pbufFree h₁ a = some (h₂, [a]) ∧
      IsChain h₂ b.next xs ∧ h₂.size = h.size := by
  obtain ⟨-, b', hcell', -, href, hnext⟩ := hchain
  obtain rfl : b = b' := Option.some.inj (hcell.symm.trans hcell')
  obtain ⟨ha, hd'⟩ := hd.of_cons
  have hpos : a < h.size := hd.lt _ List.mem_cons_self
  obtain ⟨n, hn⟩ := Nat.exists_eq_succ_of_ne_zero (by omega : h.size ≠ 0)
  cases xs with
  | nil =>
    have hnone : b.next = none := hnext
    refine ⟨h, h.set a none, by rw [hnone]; rfl, ?_, hnone, rfl⟩
    simp [pbufFree, hn, pbufFreeLoop, hcell, href, hnone]
  | cons y ys =>
    obtain ⟨hq, c, hcell₂, hw, href₂, hrest⟩ := hnext
    have hne : a ≠ y.1 := fun heq => ha (by simp [heq])
    have hy : y.1 ∉ ys.map Prod.fst := hd'.of_cons.1
    -- two references to the next buffer, until the first one is given back
    let h₁ := h.set y.1 (some { c with ref := c.ref + 1 })
    let h₂ := (h₁.set a none).set y.1 (some c)
    have hfree : pbufFree h₁ a = some (h₂, [a]) := by
      simp [pbufFree, pbufFreeLoop, h₁, h₂, hn, hcell, href, hq, href₂, hne, hne.symm]
      rw [← href₂]
    refine ⟨h₁, h₂, by simp [pbufRef, hq, hcell₂, h₁], hfree,
      ⟨hq, c, by simp [h₂], hw, href₂, ?_⟩, rfl⟩
    refine hrest.congr ys fun z hz => ?_
    have hz₁ : z.1 ≠ y.1 := fun heq => hy (List.mem_map.2 ⟨z, hz, heq⟩)
    have hz₂ : z.1 ≠ a := fun heq =>
      ha (List.mem_map.2 ⟨z, List.mem_cons_of_mem y hz, heq⟩)
    simp [h₁, h₂, hz₁, hz₂]

/-- The second chain is hung on the last buffer of the first. -/
theorem pbufCatLoop_chain {t : ℕ} (tail : Pbuf) {ys : List (ℕ × Payload)}
    (xs : List (ℕ × Payload)) :
    ∀ {h : PbufHeap} {a fuel : ℕ}, IsChain h (some a) xs → IsChain h (some t) ys →
      ((xs ++ ys).map Prod.fst).Nodup → xs.length < fuel →
      ∃ h', pbufCatLoop t tail fuel h a = some h' ∧ IsChain h' (some a) (xs ++ ys) ∧
        h'.size = h.size ∧ ∀ q ∉ xs.map Prod.fst, h'.cells q = h.cells q := by
  induction xs with
  | nil => simp [IsChain]
  | cons x xs ih =>
    intro h a fuel hchain htail hnodup hfuel
    obtain ⟨ha, b, hcell, hw, href, hnext⟩ := hchain
    obtain rfl : a = x.1 := Option.some.inj ha
    rw [List.cons_append, List.map_cons, List.nodup_cons] at hnodup
    obtain ⟨hx, hnodup⟩ := hnodup
    rw [List.length_cons] at hfuel
    obtain ⟨fuel, rfl⟩ := Nat.exists_eq_succ_of_ne_zero (by omega : fuel ≠ 0)
    have hother : ∀ (c : Option Pbuf), ∀ y ∈ xs ++ ys, (h.set x.1 c).cells y.1 = h.cells y.1 :=
      fun c y hy => h.set_of_ne c fun heq => hx (heq ▸ List.mem_map_of_mem hy)
    cases xs with
    | nil =>
      have hnone : b.next = none := hnext
      refine ⟨h.set x.1 (some { b with totLen := b.totLen + tail.totLen, next := some t }),
        by simp [pbufCatLoop, hcell, hnone], ⟨rfl, _, h.set_self .., hw, href, ?_⟩, rfl, ?_⟩
      · exact htail.congr ys (hother _)
      · intro q hq
        exact h.set_of_ne _ (by simpa using hq)
    | cons y xs =>
      obtain ⟨hq, -⟩ := id hnext
      let h₁ := h.set x.1 (some { b with totLen := b.totLen + tail.totLen })
      have hxs : IsChain h₁ (some y.1) (y :: xs) :=
        (hq ▸ hnext).congr _ fun z hz => hother _ z (List.mem_append_left ys hz)
      have hys : IsChain h₁ (some t) ys :=
        htail.congr ys fun z hz => hother _ z (List.mem_append_right _ hz)
      obtain ⟨h', hcat, hchain', hsize, hframe⟩ := ih hxs hys hnodup (Nat.lt_of_succ_lt_succ hfuel)
      have hx' : x.1 ∉ (y :: xs).map Prod.fst := fun hmem =>
        hx (by rw [List.map_append]; exact List.mem_append_left _ hmem)
      refine ⟨h', by simpa [pbufCatLoop, hcell, hq, h₁] using hcat,
        ⟨rfl, _, (hframe x.1 hx').trans (h.set_self ..), hw, href, hq ▸ hchain'⟩, hsize, ?_⟩
      intro q hmem
      rw [List.map_cons, List.mem_cons, not_or] at hmem
      exact (hframe q hmem.2).trans (h.set_of_ne _ hmem.1)

theorem pbufCat_chain {h : PbufHeap} {a t : ℕ} {xs ys : List (ℕ × Payload)}
    (hxs : IsChain h (some a) xs) (hys : IsChain h (some t) ys) (hd : Distinct h (xs ++ ys)) :
    ∃ h', pbufCat h a t = some h' ∧ IsChain h' (some a) (xs ++ ys) ∧ h'.size = h.size := by
  obtain ⟨tail, htail⟩ : ∃ tail, h.cells t = some tail := by
    cases ys with
    | nil => simp [IsChain] at hys
    | cons y ys =>
      obtain ⟨ht, tail, hcell, -⟩ := hys
      exact ⟨tail, Option.some.inj ht ▸ hcell⟩
  have hlen := hd.length_le
  rw [List.length_append] at hlen
  obtain ⟨h', hcat, hchain, hsize, -⟩ :=
    pbufCatLoop_chain tail xs hxs hys hd.nodup (by omega : xs.length < h.size + 1)
  exact ⟨h', by simp [pbufCat, htail, hcat], hchain, hsize⟩

/-! ## Fresh chains -/

theorem addressed_map_fst (ws : List Payload) (a : ℕ) :
    (addressed a ws).map Prod.fst = List.range' a ws.length := by
  induction ws generalizing a with
  | nil => rfl
  | cons w ws ih => simp [addressed, ih, List.range'_succ]

theorem mem_addressed {ws : List Payload} {a : ℕ} {x : ℕ × Payload} (hx : x ∈ addressed a ws) :
    a ≤ x.1 ∧ x.1 < a + ws.length := by
  have hmem := List.mem_map_of_mem (f := Prod.fst) hx
  rwa [addressed_map_fst, List.mem_range'_1] at hmem

theorem distinct_addressed {h : PbufHeap} {a : ℕ} {ws : List Payload}
    (hsize : a + ws.length ≤ h.size) : Distinct h (addressed a ws) where
  nodup := by
    rw [addressed_map_fst]
    exact List.nodup_range'
  lt := fun _ hx => (mem_addressed hx).2.trans_le hsize

theorem allocChain_size (ws : List Payload) (h : PbufHeap) :
    (allocChain h ws).1.size = h.size + ws.length := by
  induction ws generalizing h with
  | nil => rfl
  | cons w ws ih => simp [allocChain, ih]; omega

theorem allocChain_cells (ws : List Payload) {h : PbufHeap} {q : ℕ} (hq : q < h.size) :
    (allocChain h ws).1.cells q = h.cells q := by
  induction ws generalizing h with
  | nil => rfl
  | cons w ws ih =>
    simp only [allocChain]
    rw [PbufHeap.set_of_ne _ _ (by omega : q ≠ h.size), ih (by simp; omega)]

theorem allocChain_chain (ws : List Payload) (h : PbufHeap) :
    IsChain (allocChain h ws).1 (allocChain h ws).2 (addressed h.size ws) := by
  induction ws generalizing h with
  | nil => rfl
  | cons w ws ih =>
    refine ⟨rfl, _, PbufHeap.set_self .., rfl, rfl, ?_⟩
    refine (ih { h with size := h.size + 1 }).congr _ fun x hx => PbufHeap.set_of_ne _ _ ?_
    have hle : h.size + 1 ≤ x.1 := (mem_addressed hx).1
    omega

end Gd32Firmware
