import Mathlib.Data.List.Basic
import Mathlib.Data.List.Range
import Mathlib.Logic.Function.Basic

/-!
# Rings of cells, and the queue that drops its oldest elements

`segment` reads consecutive cells of a ring. `overwrite` is a bounded queue that makes
room for new elements by dropping the oldest ones, one by one (`overwrite_cons`).
-/

namespace Gd32Firmware

variable {α : Type*}

/-! ## Segments of a ring -/

/-- The `k` cells of a ring of `size` cells, from `start` on. -/
def segment (cells : ℕ → α) (size start k : ℕ) : List α :=
  (List.range k).map fun j => cells ((start + j) % size)

section Segment

variable (cells : ℕ → α) (size start k : ℕ)

@[simp] theorem segment_zero : segment cells size start 0 = [] :=
  rfl

@[simp] theorem length_segment : (segment cells size start k).length = k := by
  simp [segment]

/-- A segment grows at its end. -/
theorem segment_succ :
    segment cells size start (k + 1) =
      segment cells size start k ++ [cells ((start + k) % size)] := by
  simp [segment, List.range_succ]

/-- A segment is its first cell and the segment from the next cell on. -/
theorem segment_succ' :
    segment cells size start (k + 1) =
      cells (start % size) :: segment cells size ((start + 1) % size) k := by
  simp [segment, List.range_succ_eq_map, Function.comp_def, Nat.add_right_comm, Nat.add_assoc]

/-- The cell behind a segment that does not fill the ring is not in it. -/
theorem segment_update (hk : k < size) (x : α) :
    segment (Function.update cells ((start + k) % size) x) size start k =
      segment cells size start k := by
  refine List.map_congr_left fun j hj => Function.update_of_ne (fun heq => ?_) _ _
  have hlt : j < k := List.mem_range.1 hj
  have hdvd : size ∣ (start + k) - (start + j) :=
    Nat.dvd_of_mod_eq_zero (Nat.sub_mod_eq_zero_of_mod_eq heq.symm)
  have hzero : (start + k) - (start + j) = 0 := Nat.eq_zero_of_dvd_of_lt hdvd (by omega)
  omega

end Segment

/-! ## The queue -/

/-- Append the data and keep the newest `cap` elements. -/
def overwrite (cap : ℕ) (q data : List α) : List α :=
  (q ++ data).drop (q.length + data.length - cap)

section Overwrite

variable {cap : ℕ} {q : List α}

@[simp] theorem length_overwrite (data : List α) :
    (overwrite cap q data).length = min cap (q.length + data.length) := by
  simp [overwrite]
  omega

theorem overwrite_nil (hq : q.length ≤ cap) : overwrite cap q [] = q := by
  simp [overwrite, Nat.sub_eq_zero_of_le hq]

/-- There is room : nothing is dropped. -/
theorem overwrite_singleton_of_lt (hq : q.length < cap) (x : α) :
    overwrite cap q [x] = q ++ [x] := by
  simp [overwrite, Nat.sub_eq_zero_of_le hq]

/-- There is none : the oldest element is dropped. -/
theorem overwrite_singleton_of_full (hcap : 0 < cap) (hq : q.length = cap) (x : α) :
    overwrite cap q [x] = q.tail ++ [x] := by
  cases q with
  | nil =>
    simp only [List.length_nil] at hq
    omega
  | cons y q =>
    simp [overwrite, ← hq]

/-- Data arrives one element after the other. -/
theorem overwrite_cons (hcap : 0 < cap) (hq : q.length ≤ cap) (x : α) (data : List α) :
    overwrite cap q (x :: data) = overwrite cap (overwrite cap q [x]) data := by
  rcases Nat.lt_or_eq_of_le hq with hlt | heq
  · rw [overwrite_singleton_of_lt hlt]
    simp [overwrite, Nat.add_assoc, Nat.add_comm 1]
  · rw [overwrite_singleton_of_full hcap heq]
    cases q with
    | nil =>
      simp only [List.length_nil] at heq
      omega
    | cons y q =>
      have hdrop : (y :: q).length + (x :: data).length - cap = data.length + 1 := by
        simp only [List.length_cons] at heq ⊢
        omega
      have hdrop' : (q ++ [x]).length + data.length - cap = data.length := by
        simp only [List.length_append, List.length_cons, List.length_nil] at heq ⊢
        omega
      simp only [overwrite, hdrop, hdrop', List.tail_cons, List.cons_append,
        List.drop_succ_cons, List.append_assoc, List.nil_append]

end Overwrite

end Gd32Firmware
