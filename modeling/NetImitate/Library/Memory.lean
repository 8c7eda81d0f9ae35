import Mathlib.Data.List.Basic
import Mathlib.Data.List.TakeDrop

/-!
# A flat memory as a list of cells

* `slice m i j` : the cells from `i` up to, not including, `j`;
* `overwrite m i bs` : `bs` written over the cells from `i` on;
* `slice_overwrite`, `slice_overwrite_prefix` : reading back what was written;
* `slice_overwrite_before` : what lies before the write is unchanged;
* `slice_append_slice` : adjacent slices.
-/

namespace NetImitate

variable {α : Type*}

/-- The cells from `i` up to, not including, `j`. -/
def slice (m : List α) (i j : Nat) : List α := (m.drop i).take (j - i)

/-- `bs` written over the cells from `i` on. -/
def overwrite (m : List α) (i : Nat) (bs : List α) : List α := m.take i ++ (bs ++ m.drop (i + bs.length))

@[simp] theorem slice_self (m : List α) (i : Nat) : slice m i i = [] := by simp [slice]

theorem length_slice {m : List α} {i j : Nat} (h : j ≤ m.length) : (slice m i j).length = j - i := by
  simp only [slice, List.length_take, List.length_drop]
  omega

theorem slice_append_slice (m : List α) {i j k : Nat} (hij : i ≤ j) (hjk : j ≤ k) :
    slice m i j ++ slice m j k = slice m i k := by
  unfold slice
  rw [show k - i = (j - i) + (k - j) by omega, List.take_add, List.drop_drop,
    show i + (j - i) = j by omega]

/-- Cells added at the end change no slice of what was there. -/
theorem slice_append_left {m : List α} (x : List α) {i j : Nat} (h : j ≤ m.length) :
    slice (m ++ x) i j = slice m i j := by
  unfold slice
  rcases Nat.le_total i m.length with hi | hi
  · have hfits : j - i ≤ (m.drop i).length := by rw [List.length_drop]; omega
    rw [List.drop_append_of_le_length hi, List.take_append_of_le_length hfits]
  · rw [show j - i = 0 by omega, List.take_zero, List.take_zero]

theorem length_overwrite {m : List α} {i : Nat} {bs : List α} (h : i + bs.length ≤ m.length) :
    (overwrite m i bs).length = m.length := by
  simp only [overwrite, List.length_append, List.length_take, List.length_drop]
  omega

@[simp] theorem overwrite_nil (m : List α) (i : Nat) : overwrite m i [] = m := by
  simp only [overwrite, List.nil_append, List.length_nil, Nat.add_zero, List.take_append_drop]

theorem drop_overwrite {m : List α} {i : Nat} (bs : List α) (h : i ≤ m.length) :
    (overwrite m i bs).drop i = bs ++ m.drop (i + bs.length) := by
  have htake : (m.take i).length = i := List.length_take_of_le h
  unfold overwrite
  rw [List.drop_left' htake]

/-- What was written is read back. -/
theorem slice_overwrite {m : List α} {i : Nat} (bs : List α) (h : i ≤ m.length) :
    slice (overwrite m i bs) i (i + bs.length) = bs := by
  rw [slice, drop_overwrite bs h, Nat.add_sub_cancel_left, List.take_left']
  rfl

/-- A longer slice starts with what was written. -/
theorem slice_overwrite_prefix {m : List α} {i j : Nat} (bs : List α) (h : i ≤ m.length)
    (hj : i + bs.length ≤ j) : bs <+: slice (overwrite m i bs) i j := by
  rw [slice, drop_overwrite bs h, List.take_append, List.take_of_length_le (by omega)]
  exact List.prefix_append _ _

/-- Cells before the write are unchanged. -/
theorem slice_overwrite_before {m : List α} {i j k : Nat} (bs : List α) (h : k ≤ i) (hi : i ≤ m.length) :
    slice (overwrite m i bs) j k = slice m j k := by
  have htake : ∀ l : List α, slice l j k = (l.take k).drop j := fun l => by rw [slice, List.drop_take]
  have hfits : k ≤ (m.take i).length := by rw [List.length_take_of_le hi]; exact h
  rw [htake, htake, overwrite, List.take_append_of_le_length hfits, List.take_take, Nat.min_eq_left h]

end NetImitate
