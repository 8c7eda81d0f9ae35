import Mathlib.Data.List.Sort
import Mathlib.Data.List.TakeWhile

/-!
# Ordered sets

`OrdSet α` is a strictly increasing list, the iteration order of a `std::set`.

* `emplace`, `begin?`, and the two halves of a search, `below` and `lowerBound`;
* `emplace_perm`, `emplace_of_mem` : an element that was there is not entered twice;
* `begin_emplace`, `begin_emplace_of_lt` : which element an entry leaves in front;
* `below_append_lowerBound`, `lt_of_mem_below`, `le_of_mem_lowerBound`, `below_eq_filter`;
* `sublist_emplace`, `pair_sublist` : the order of the elements.
-/

namespace NetImitate

/-- A strictly increasing list. -/
structure OrdSet (α : Type*) [LinearOrder α] where
  toList : List α
  sorted : toList.Pairwise (· < ·)

namespace OrdSet
variable {α : Type*} [LinearOrder α]

def empty : OrdSet α := ⟨[], List.Pairwise.nil⟩

theorem orderedInsert_sorted {l : List α} {a : α} (hl : l.Pairwise (· < ·)) (ha : a ∉ l) :
    (l.orderedInsert (· ≤ ·) a).Pairwise (· < ·) := by
  have hle : (l.orderedInsert (· ≤ ·) a).Pairwise (· ≤ ·) := (hl.imp le_of_lt).orderedInsert a l
  have hnodup : (l.orderedInsert (· ≤ ·) a).Nodup :=
    (List.perm_orderedInsert _ a l).nodup_iff.mpr (List.nodup_cons.mpr ⟨ha, hl.imp ne_of_lt⟩)
  exact List.pairwise_iff_forall_sublist.mpr fun hsub =>
    lt_of_le_of_ne (List.pairwise_iff_forall_sublist.mp hle hsub) (List.pairwise_iff_forall_sublist.mp hnodup hsub)

/-- Enters `a` unless it is there. -/
def emplace (s : OrdSet α) (a : α) : OrdSet α :=
  if h : a ∈ s.toList then s else ⟨s.toList.orderedInsert (· ≤ ·) a, orderedInsert_sorted s.sorted h⟩

/-- The least element. -/
def begin? (s : OrdSet α) : Option α := s.toList.head?

/-- The elements before `lower_bound(x)`. -/
def below (s : OrdSet α) (x : α) : List α := s.toList.takeWhile (· < x)

/-- The elements from `lower_bound(x)` on. -/
def lowerBound (s : OrdSet α) (x : α) : OrdSet α :=
  ⟨s.toList.dropWhile (· < x), s.sorted.sublist (List.dropWhile_sublist _)⟩

theorem nodup (s : OrdSet α) : s.toList.Nodup := s.sorted.imp ne_of_lt

theorem emplace_of_mem {s : OrdSet α} {a : α} (h : a ∈ s.toList) : s.emplace a = s := dif_pos h

theorem emplace_perm {s : OrdSet α} {a : α} (h : a ∉ s.toList) : (s.emplace a).toList.Perm (a :: s.toList) := by
  rw [emplace, dif_neg h]
  exact List.perm_orderedInsert _ a _

theorem mem_emplace {s : OrdSet α} {a b : α} : b ∈ (s.emplace a).toList ↔ b = a ∨ b ∈ s.toList := by
  by_cases h : a ∈ s.toList
  · rw [emplace_of_mem h]
    exact ⟨Or.inr, fun hb => hb.elim (fun heq => heq ▸ h) id⟩
  · rw [(emplace_perm h).mem_iff, List.mem_cons]

/-- The first element is the least. -/
theorem le_of_begin {s : OrdSet α} {a b : α} (ha : s.begin? = some a) (hb : b ∈ s.toList) : a ≤ b := by
  obtain ⟨l, hl⟩ := List.head?_eq_some_iff.mp ha
  have hsorted := s.sorted
  rw [hl] at hb hsorted
  rcases List.mem_cons.mp hb with rfl | hb
  · exact le_rfl
  · exact le_of_lt (List.rel_of_pairwise_cons hsorted hb)

theorem begin_eq_none {s : OrdSet α} : s.begin? = none ↔ s.toList = [] := List.head?_eq_none_iff

theorem mem_of_begin {s : OrdSet α} {a : α} (h : s.begin? = some a) : a ∈ s.toList := List.mem_of_mem_head? h

/-- After an entry the set has a first element, which is the entered one if the set was empty. -/
theorem begin_emplace_of_empty {s : OrdSet α} {a : α} (h : s.toList = []) : (s.emplace a).begin? = some a := by
  rw [emplace, dif_neg (by rw [h]; exact List.not_mem_nil)]
  simp only [begin?, h, List.orderedInsert_nil, List.head?_cons]

/-- An entry comes first or leaves the first element where it is. -/
theorem begin_emplace (s : OrdSet α) (a : α) :
    (s.emplace a).begin? = some a ∨ (s.emplace a).begin? = s.begin? := by
  by_cases h : a ∈ s.toList
  · rw [emplace_of_mem h]
    exact Or.inr rfl
  · have hlist : (s.emplace a).toList = s.toList.orderedInsert (· ≤ ·) a := by rw [emplace, dif_neg h]
    unfold begin?
    rw [hlist]
    cases s.toList with
    | nil => exact Or.inl rfl
    | cons b l =>
      by_cases hle : a ≤ b
      · rw [List.orderedInsert_cons_of_le _ _ hle]
        exact Or.inl rfl
      · rw [List.orderedInsert_of_not_le _ _ hle]
        exact Or.inr rfl

/-- An entry above an element of the set does not come first. -/
theorem begin_emplace_of_lt {s : OrdSet α} {a b : α} (hb : b ∈ s.toList) (hlt : b < a) :
    (s.emplace a).begin? = s.begin? := by
  rcases s.begin_emplace a with h | h
  · exact absurd (le_of_begin h (mem_emplace.mpr (Or.inr hb))) (not_le.mpr hlt)
  · exact h

theorem below_append_lowerBound (s : OrdSet α) (x : α) : s.below x ++ (s.lowerBound x).toList = s.toList :=
  List.takeWhile_append_dropWhile

theorem below_sorted (s : OrdSet α) (x : α) : (s.below x).Pairwise (· < ·) :=
  s.sorted.sublist (List.takeWhile_sublist _)

theorem lt_of_mem_below {s : OrdSet α} {x a : α} (h : a ∈ s.below x) : a < x := by
  simpa using List.mem_takeWhile_imp h

theorem le_of_mem_lowerBound {s : OrdSet α} {x a : α} (h : a ∈ (s.lowerBound x).toList) : x ≤ a := by
  have hsorted := (s.lowerBound x).sorted
  cases hlist : (s.lowerBound x).toList with
  | nil =>
    rw [hlist] at h
    cases h
  | cons b l =>
    rw [hlist] at h hsorted
    have hb : x ≤ b := by
      have hhead := List.head?_dropWhile_not (fun a => decide (a < x)) s.toList
      rw [show s.toList.dropWhile (fun a => decide (a < x)) = b :: l from hlist] at hhead
      simpa using hhead
    rcases List.mem_cons.mp h with rfl | h
    · exact hb
    · exact hb.trans (le_of_lt (List.rel_of_pairwise_cons hsorted h))

theorem below_eq_filter (s : OrdSet α) (x : α) : s.below x = s.toList.filter (· < x) := by
  rw [← s.below_append_lowerBound x, List.filter_append]
  have hbelow : (s.below x).filter (· < x) = s.below x :=
    List.filter_eq_self.mpr fun a ha => decide_eq_true (lt_of_mem_below ha)
  have habove : (s.lowerBound x).toList.filter (· < x) = [] :=
    List.filter_eq_nil_iff.mpr fun a ha => by simpa using le_of_mem_lowerBound ha
  rw [hbelow, habove, List.append_nil]

theorem sublist_emplace (s : OrdSet α) (a : α) : s.toList.Sublist (s.emplace a).toList := by
  by_cases h : a ∈ s.toList
  · rw [emplace_of_mem h]
  · rw [emplace, dif_neg h]
    exact List.sublist_orderedInsert a s.toList

/-- Two elements stand in the list in their order. -/
theorem pair_sublist {s : OrdSet α} {a b : α} (ha : a ∈ s.toList) (hb : b ∈ s.toList) (hlt : a < b) :
    [a, b].Sublist s.toList := by
  have hnodup : [a, b].Nodup := by simpa using ne_of_lt hlt
  have hsubset : [a, b] ⊆ s.toList := by
    intro c hc
    rcases List.mem_cons.mp hc with rfl | hc
    · exact ha
    · rw [List.mem_singleton.mp hc]
      exact hb
  exact List.sublist_of_subperm_of_pairwise (List.subperm_of_subset hnodup hsubset)
    (List.pairwise_pair.mpr (le_of_lt hlt))
    (s.sorted.imp le_of_lt)

end OrdSet

end NetImitate
