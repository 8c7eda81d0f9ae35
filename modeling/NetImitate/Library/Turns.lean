import Mathlib.Data.Int.CardIntervalMod

/-!
# Taking turns

`f 0, …, f (n - 1)` are `n` different things, and `g` names the one whose turn it is.

* `InTurn f g n m` : the first `m` terms of `g` are `f 0, …, f (n - 1), f 0, …`;
* `inTurn_iff_consecutive` : they are, exactly when `g` starts with `f 0` and each term is followed by the next one round;
* `count_of_inTurn`, `InTurn.balanced` : then no two have had turns that differ in number by more than one.
-/

namespace NetImitate

variable {α : Type*} {f g : ℕ → α} {n m : ℕ}

/-- The first `m` terms of `g` go round `f 0, …, f (n - 1)`. -/
def InTurn (f g : ℕ → α) (n m : ℕ) : Prop := ∀ j < m, g j = f (j % n)

/-- Each of the first `m` terms of `g` but the last is followed by the next one round. -/
def Consecutive (f g : ℕ → α) (n m : ℕ) : Prop := ∀ j, j + 1 < m → ∃ i < n, g j = f i ∧ g (j + 1) = f ((i + 1) % n)

theorem inTurn_iff_consecutive (hf : Set.InjOn f (Set.Iio n)) (hn : 0 < n) (hzero : g 0 = f 0) :
    InTurn f g n m ↔ Consecutive f g n m := by
  constructor
  · intro h j hj
    refine ⟨j % n, Nat.mod_lt _ hn, h j (Nat.lt_of_succ_lt hj), ?_⟩
    rw [Nat.mod_add_mod]
    exact h (j + 1) hj
  · intro h j
    induction j with
    | zero =>
      intro _
      rw [Nat.zero_mod]
      exact hzero
    | succ j ih =>
      intro hj
      obtain ⟨i, hi, hgi, hgsucc⟩ := h j hj
      have hsame : i = j % n := hf hi (Nat.mod_lt _ hn) (hgi.symm.trans (ih (Nat.lt_of_succ_lt hj)))
      rw [hgsucc, hsame, Nat.mod_add_mod]

section Count
variable [DecidableEq α]

/-- The number of turns of `f i` among the first `m`. -/
theorem count_of_inTurn (hf : Set.InjOn f (Set.Iio n)) (hn : 0 < n) {i : ℕ} (hi : i < n) (h : InTurn f g n m) :
    ((List.range m).map g).count (f i) = m / n + if i < m % n then 1 else 0 := by
  have hcount : ((List.range m).map g).count (f i) = m.count (· ≡ i [MOD n]) := by
    induction m with
    | zero => rfl
    | succ m ih =>
      have hturn : g m = f i ↔ m ≡ i [MOD n] := by
        rw [h m (Nat.lt_succ_self m), hf.eq_iff (Nat.mod_lt _ hn) hi, Nat.ModEq, Nat.mod_eq_of_lt hi]
      rw [List.range_succ, List.map_append, List.count_append, ih fun j hj => h j (Nat.lt_succ_of_lt hj),
        Nat.count_succ, List.map_singleton, List.count_singleton]
      simp only [beq_iff_eq, hturn]
  rw [hcount, Nat.count_modEq_card m hn i, Nat.mod_eq_of_lt hi]

theorem InTurn.balanced (hf : Set.InjOn f (Set.Iio n)) (hn : 0 < n) (h : InTurn f g n m) {i j : ℕ} (hi : i < n)
    (hj : j < n) : ((List.range m).map g).count (f i) ≤ ((List.range m).map g).count (f j) + 1 := by
  rw [count_of_inTurn hf hn hi h, count_of_inTurn hf hn hj h]
  split <;> split <;> omega

end Count

end NetImitate
