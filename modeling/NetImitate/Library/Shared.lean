import Mathlib.Data.Set.Insert
import Mathlib.Logic.Function.Basic
import NetImitate.Library.Machine

/-!
# Shared objects that own a resource

Objects in memory, each the owner of one resource, and the objects something refers to. An object goes with its last
reference, and its resource with it.

* `Shared.machine` : a new object with a free resource, further references, fewer references;
* `Exact` : the objects are those referred to, and the resources in use are theirs, one each, and the ones `base` that
  belong to none;
* `Exact.step`, `run_exact`.
-/

namespace NetImitate

structure Shared (ι ρ : Type*) where
  /-- The objects in memory, with the resource of each. -/
  objs : ι → Option ρ
  /-- The objects something refers to. -/
  refs : Set ι
  /-- The resources in use. -/
  used : Set ρ

namespace Shared
variable {ι ρ : Type*}

inductive Op (ι ρ : Type*) where
  | alloc (i : ι) (r : ρ)
  | share (refs : Set ι)
  | release (refs : Set ι)

/-- A new object, referred to at once. -/
def alloc [DecidableEq ι] (s : Shared ι ρ) (i : ι) (r : ρ) : Shared ι ρ :=
  ⟨Function.update s.objs i (some r), insert i s.refs, insert r s.used⟩

open Classical in
/-- Only `refs` are still referred to: every other object goes. -/
noncomputable def release (s : Shared ι ρ) (refs : Set ι) : Shared ι ρ where
  objs := fun i => if i ∈ refs then s.objs i else none
  refs := refs
  used := {r | r ∈ s.used ∧ ∀ i, i ∉ refs → s.objs i ≠ some r}

variable {s s' : Shared ι ρ}

/-- No object without a reference, no reference without its object; each resource in use belongs to one object, or to
none where it is of `base`. -/
structure Exact (base : Set ρ) (s : Shared ι ρ) : Prop where
  live_iff : ∀ i, s.objs i ≠ none ↔ i ∈ s.refs
  owner : ∀ i j r, s.objs i = some r → s.objs j = some r → i = j
  base_free : ∀ i, ∀ r ∈ base, s.objs i ≠ some r
  used_iff : ∀ r, r ∈ s.used ↔ r ∈ base ∨ ∃ i, s.objs i = some r

theorem exact_empty (base : Set ρ) : Exact base (⟨fun _ => none, ∅, base⟩ : Shared ι ρ) where
  live_iff := fun _ => iff_of_false (fun h => h rfl) (Set.notMem_empty _)
  owner := fun _ _ _ h => by cases h
  base_free := fun _ _ _ h => by cases h
  used_iff := fun r => (or_iff_left (fun ⟨_, h⟩ => by cases h)).symm

variable {base : Set ρ}

theorem Exact.alloc [DecidableEq ι] (hs : s.Exact base) {i : ι} {r : ρ} (hi : s.objs i = none) (hr : r ∉ s.used) :
    (s.alloc i r).Exact base := by
  have hself : (s.alloc i r).objs i = some r := Function.update_self _ _ _
  have hother : ∀ j, j ≠ i → (s.alloc i r).objs j = s.objs j := fun j hj => Function.update_of_ne hj _ _
  -- the resource is new: no object owns it, nor is it of `base`
  have hnew : ∀ j, s.objs j ≠ some r := fun j hj => hr ((hs.used_iff r).mpr (Or.inr ⟨j, hj⟩))
  have hbase : r ∉ base := fun h => hr ((hs.used_iff r).mpr (Or.inl h))
  refine ⟨?_, ?_, ?_, ?_⟩
  · intro j
    by_cases hj : j = i
    · subst hj
      exact iff_of_true (by rw [hself]; exact Option.some_ne_none r) (Set.mem_insert _ _)
    · rw [hother j hj, hs.live_iff j]
      exact (Set.mem_insert_iff.trans (or_iff_right hj)).symm
  · intro j k q hjq hkq
    by_cases hj : j = i <;> by_cases hk : k = i
    · rw [hj, hk]
    · subst hj
      rw [hself, Option.some.injEq] at hjq
      exact absurd (hjq ▸ (hother k hk).symm.trans hkq) (hnew k)
    · subst hk
      rw [hself, Option.some.injEq] at hkq
      exact absurd (hkq ▸ (hother j hj).symm.trans hjq) (hnew j)
    · exact hs.owner j k q ((hother j hj).symm.trans hjq) ((hother k hk).symm.trans hkq)
  · intro j q hq hjq
    by_cases hj : j = i
    · subst hj
      rw [hself, Option.some.injEq] at hjq
      exact hbase (hjq ▸ hq)
    · exact hs.base_free j q hq ((hother j hj).symm.trans hjq)
  · intro q
    rw [show q ∈ (s.alloc i r).used ↔ q = r ∨ q ∈ s.used from Set.mem_insert_iff, hs.used_iff q]
    constructor
    · rintro (rfl | hq | ⟨j, hj⟩)
      · exact Or.inr ⟨i, hself⟩
      · exact Or.inl hq
      · exact Or.inr ⟨j, (hother j (fun h => by rw [h, hi] at hj; cases hj)).trans hj⟩
    · rintro (hq | ⟨j, hjq⟩)
      · exact Or.inr (Or.inl hq)
      · by_cases hj : j = i
        · subst hj
          rw [hself, Option.some.injEq] at hjq
          exact Or.inl hjq.symm
        · exact Or.inr (Or.inr ⟨j, (hother j hj).symm.trans hjq⟩)

theorem Exact.share (hs : s.Exact base) {refs : Set ι} (hkeep : s.refs ⊆ refs)
    (hlive : ∀ i ∈ refs, s.objs i ≠ none) : Exact base { s with refs := refs } where
  live_iff := fun i => ⟨fun hi => hkeep ((hs.live_iff i).mp hi), hlive i⟩
  owner := hs.owner
  base_free := hs.base_free
  used_iff := hs.used_iff

/-- What is left after a release does not depend on the references before it. -/
theorem release_congr (hobjs : s'.objs = s.objs) (hused : s'.used = s.used) (refs : Set ι) :
    s'.release refs = s.release refs := by
  simp only [release, hobjs, hused]

theorem objs_release {refs : Set ι} {i : ι} {r : ρ} :
    (s.release refs).objs i = some r ↔ i ∈ refs ∧ s.objs i = some r := by
  simp only [release]
  split
  · rename_i hi
    exact (and_iff_right hi).symm
  · rename_i hi
    exact iff_of_false (fun h => by cases h) fun h => hi h.1

theorem Exact.release (hs : s.Exact base) {refs : Set ι} (hdrop : refs ⊆ s.refs) : (s.release refs).Exact base := by
  refine ⟨?_, ?_, ?_, ?_⟩
  · intro i
    constructor
    · intro hi
      obtain ⟨r, hr⟩ := Option.ne_none_iff_exists'.mp hi
      exact (objs_release.mp hr).1
    · intro hi
      obtain ⟨r, hr⟩ := Option.ne_none_iff_exists'.mp ((hs.live_iff i).mpr (hdrop hi))
      exact Option.ne_none_iff_exists'.mpr ⟨r, objs_release.mpr ⟨hi, hr⟩⟩
  · intro i j r hi hj
    exact hs.owner i j r (objs_release.mp hi).2 (objs_release.mp hj).2
  · intro i r hr hi
    exact hs.base_free i r hr (objs_release.mp hi).2
  · intro r
    constructor
    · rintro ⟨hused, hfreed⟩
      rcases (hs.used_iff r).mp hused with hr | ⟨i, hi⟩
      · exact Or.inl hr
      · exact Or.inr ⟨i, objs_release.mpr ⟨not_not.mp fun hnot => hfreed i hnot hi, hi⟩⟩
    · rintro (hr | ⟨i, hi⟩)
      · exact ⟨(hs.used_iff r).mpr (Or.inl hr), fun i _ => hs.base_free i r hr⟩
      · obtain ⟨hmem, hi⟩ := objs_release.mp hi
        -- the resource has one owner, and that one stays
        exact ⟨(hs.used_iff r).mpr (Or.inr ⟨i, hi⟩), fun j hj hjr => hj (hs.owner i j r hi hjr ▸ hmem)⟩

/-! ## The machine -/

section Machine
variable [DecidableEq ι]

open Classical in
noncomputable def step (s : Shared ι ρ) : Op ι ρ → Option (Shared ι ρ)
  | .alloc i r => if s.objs i = none ∧ r ∉ s.used then some (s.alloc i r) else none
  | .share refs => if s.refs ⊆ refs ∧ ∀ i ∈ refs, s.objs i ≠ none then some { s with refs := refs } else none
  | .release refs => if refs ⊆ s.refs then some (s.release refs) else none

noncomputable def machine : Machine (Shared ι ρ) (Op ι ρ) := ⟨step⟩

theorem step_alloc {i : ι} {r : ρ} (hi : s.objs i = none) (hr : r ∉ s.used) :
    machine.step s (.alloc i r) = some (s.alloc i r) := if_pos ⟨hi, hr⟩

theorem step_share {refs : Set ι} (hkeep : s.refs ⊆ refs) (hlive : ∀ i ∈ refs, s.objs i ≠ none) :
    machine.step s (.share refs) = some { s with refs := refs } := if_pos ⟨hkeep, hlive⟩

theorem step_release {refs : Set ι} (hdrop : refs ⊆ s.refs) :
    machine.step s (.release refs) = some (s.release refs) := if_pos hdrop

theorem Exact.step {op : Op ι ρ} (hs : s.Exact base) (h : machine.step s op = some s') : s'.Exact base := by
  cases op <;> simp only [machine, Shared.step, Option.ite_none_right_eq_some, Option.some.injEq] at h
  case alloc i r =>
    obtain ⟨⟨hi, hr⟩, rfl⟩ := h
    exact hs.alloc hi hr
  case share refs =>
    obtain ⟨⟨hkeep, hlive⟩, rfl⟩ := h
    exact hs.share hkeep hlive
  case release refs =>
    obtain ⟨hdrop, rfl⟩ := h
    exact hs.release hdrop

theorem run_exact {ops : List (Op ι ρ)} (hs : s.Exact base) (h : machine.run s ops = some s') : s'.Exact base :=
  machine.run_invariant (fun _ _ _ ht hstep => ht.step hstep) ops s s' hs h

end Machine

end Shared

end NetImitate
