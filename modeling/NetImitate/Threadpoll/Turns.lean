import NetImitate.Threadpoll
import NetImitate.Library.Turns

/-!
# Round robin

* `after`, `chosen` : the pool after some calls of `GetNextLoop`, and what each of them returns;
* `started` : the pool after `Start`;
* `RoundRobin` : the index is in range, the loops come in turn, and their numbers of turns are balanced;
* `InStep` : how far the wrapping counter stays in step with the number of loops; `sizeT_modEq_iff`,
  `forever_inStep_iff`;
* `round_robin_iff` : so far and no further the loops are assigned in turn.
-/

namespace NetImitate

namespace Threadpoll
variable {Loop : Type*}

/-- The pool after `m` calls of `GetNextLoop`. -/
def after (p : Threadpoll Loop) : Nat → Threadpoll Loop
  | 0 => p
  | m + 1 => (p.after m).getNextLoop.2

/-- What call number `j`, counted from 0, returns. -/
def chosen (p : Threadpoll Loop) (j : Nat) : Loop := (p.after j).getNextLoop.1

/-- The pool after `Start`, each of the `n` threads with a loop of its own. -/
def started (baseLoop : Loop) (n : Nat) (startLoop : Nat ↪ Loop) : Threadpoll Loop :=
  ((new baseLoop).setThreadNums n).start startLoop

/-- `m` calls of `GetNextLoop` go round `loopList`. -/
structure RoundRobin [DecidableEq Loop] (p : Threadpoll Loop) (m : Nat) : Prop where
  inRange : ∀ j < m, (p.after j).index < p.loopList.length
  consecutive : ∀ j, j + 1 < m → ∃ i < p.loopList.length, p.loopList[i]? = some (p.chosen j) ∧
    p.loopList[(i + 1) % p.loopList.length]? = some (p.chosen (j + 1))
  balanced : ∀ l ∈ p.loopList, ∀ l' ∈ p.loopList,
    ((List.range m).map p.chosen).count l ≤ ((List.range m).map p.chosen).count l' + 1

/-! ## The counter -/

/-- `m` calls are made before `next` wraps, or the wraps they go through do not show modulo `n`. -/
def InStep (n m : Nat) : Prop := m ≤ 2 ^ 31 ∨ (m ≤ 2 ^ 32 ∧ n ∣ 2 ^ 64 - 2 ^ 32) ∨ n ∣ 2 ^ 32

/-- Before the first wrap the counter is the number of calls; behind it, up to the second, it is greater by
`2 ^ 64 - 2 ^ 32`; and every `2 ^ 32` calls it starts again. -/
theorem sizeT_modEq_iff (n m : Nat) : (∀ j < m, sizeT (int32 j) ≡ j [MOD n]) ↔ InStep n m := by
  constructor
  · intro h
    rcases Nat.lt_or_ge (2 ^ 31) m with hfirst | hfirst
    · have hdvd : n ∣ 2 ^ 64 - 2 ^ 32 := by
        have hwrap := h (2 ^ 31) hfirst
        rw [sizeT_int32_natCast, if_neg (by decide)] at hwrap
        exact (Nat.modEq_zero_iff_dvd).mp (Nat.ModEq.add_left_cancel' (2 ^ 31) hwrap)
      rcases Nat.lt_or_ge (2 ^ 32) m with hsecond | hsecond
      · have hwrap := h (2 ^ 32) hsecond
        rw [sizeT_int32_natCast, if_pos (by decide)] at hwrap
        exact Or.inr (Or.inr ((Nat.modEq_zero_iff_dvd).mp hwrap.symm))
      · exact Or.inr (Or.inl ⟨hsecond, hdvd⟩)
    · exact Or.inl hfirst
  · intro h j hj
    rw [sizeT_int32_natCast]
    rcases h with hm | ⟨hm, hdvd⟩ | hdvd
    · rw [if_pos (by omega), Nat.mod_eq_of_lt (by omega)]
    · rw [Nat.mod_eq_of_lt (by omega)]
      split
      · rfl
      · exact Nat.add_modEq_left_iff.mpr hdvd
    · have hmod : j % 2 ^ 32 ≡ j [MOD n] := (Nat.mod_modEq j (2 ^ 32)).of_dvd hdvd
      split
      · exact hmod
      · have hgap : n ∣ 2 ^ 64 - 2 ^ 32 := hdvd.trans (by decide)
        exact (Nat.add_modEq_left_iff.mpr hgap).trans hmod

/-- For ever: exactly with a power of two. -/
theorem forever_inStep_iff (n : Nat) : (∀ m, InStep n m) ↔ ∃ k ≤ 32, n = 2 ^ k := by
  rw [← Nat.dvd_prime_pow Nat.prime_two]
  constructor
  · intro h
    rcases h (2 ^ 32 + 1) with hm | ⟨hm, -⟩ | hdvd
    · exact absurd hm (by decide)
    · exact absurd hm (by decide)
    · exact hdvd
  · intro hdvd m
    exact Or.inr (Or.inr hdvd)

/-! ## One call after another -/

@[simp] theorem loopList_after (p : Threadpoll Loop) (m : Nat) : (p.after m).loopList = p.loopList := by
  induction m with
  | zero => rfl
  | succ m ih => exact (loopList_getNextLoop _).trans ih

theorem next_after {p : Threadpoll Loop} (hloops : p.loopList ≠ []) (hnext : p.next = 0) (m : Nat) :
    (p.after m).next = int32 m := by
  induction m with
  | zero => exact hnext.trans (int32_natCast (n := 0) (by decide)).symm
  | succ m ih =>
    have hlist : (p.after m).loopList ≠ [] := by
      rw [loopList_after]
      exact hloops
    rw [after, getNextLoop, dif_neg hlist]
    dsimp only
    rw [ih, int32_int32_add, Nat.cast_succ]

theorem index_after {p : Threadpoll Loop} (hloops : p.loopList ≠ []) (hnext : p.next = 0) (j : Nat) :
    (p.after j).index = sizeT (int32 j) % p.loopList.length := by
  rw [index, next_after hloops hnext, loopList_after]

theorem getElem?_chosen {p : Threadpoll Loop} (hloops : p.loopList ≠ []) (hnext : p.next = 0) (j : Nat) :
    p.loopList[sizeT (int32 j) % p.loopList.length]? = some (p.chosen j) := by
  have hlist : (p.after j).loopList ≠ [] := by
    rw [loopList_after]
    exact hloops
  have hchosen : (p.after j).loopList[(p.after j).index]? = some (p.chosen j) := by
    rw [chosen, getNextLoop, dif_neg hlist, List.getElem?_eq_getElem (index_lt hlist)]
    rfl
  rw [index_after hloops hnext, loopList_after] at hchosen
  exact hchosen

/-! ## After `Start` -/

section Started
variable (baseLoop : Loop) {n : Nat} (startLoop : Nat ↪ Loop)

@[simp] theorem loopList_started : (started baseLoop n startLoop).loopList = (List.range n).map startLoop := by
  simp [started, start, setThreadNums, new]

theorem getElem?_started {i : Nat} (hi : i < n) : (started baseLoop n startLoop).loopList[i]? = some (startLoop i) := by
  simp [hi]

theorem chosen_started (hn : 0 < n) (j : Nat) :
    (started baseLoop n startLoop).chosen j = startLoop (sizeT (int32 j) % n) := by
  have hlen : (started baseLoop n startLoop).loopList.length = n := by simp
  have hloops : (started baseLoop n startLoop).loopList ≠ [] := by
    rw [← List.length_pos_iff, hlen]
    exact hn
  have hchosen := getElem?_chosen hloops rfl j
  rw [hlen, getElem?_started baseLoop startLoop (Nat.mod_lt _ hn), Option.some.injEq] at hchosen
  exact hchosen.symm

/-- The loops come in turn exactly as long as the counter stays in step. -/
theorem inTurn_iff (hn : 0 < n) (m : Nat) :
    InTurn startLoop (started baseLoop n startLoop).chosen n m ↔ InStep n m := by
  rw [← sizeT_modEq_iff]
  simp only [InTurn, chosen_started baseLoop startLoop hn, startLoop.injective.eq_iff, Nat.ModEq]

/-- **Round robin.** `m` calls after `Start` assign the `n` loops in turn and evenly exactly when at most `2 ^ 31` calls
were made, or at most `2 ^ 32` and `n` divides `2 ^ 64 - 2 ^ 32`, or `n` divides `2 ^ 32`. -/
theorem round_robin_iff [DecidableEq Loop] (hn : 0 < n) (m : Nat) :
    (started baseLoop n startLoop).RoundRobin m ↔ InStep n m := by
  have hinj : Set.InjOn startLoop (Set.Iio n) := startLoop.injective.injOn
  have hlen : (started baseLoop n startLoop).loopList.length = n := by simp
  have hzero : (started baseLoop n startLoop).chosen 0 = startLoop 0 := by
    rw [chosen_started baseLoop startLoop hn, sizeT_int32_natCast, if_pos (by decide), Nat.zero_mod, Nat.zero_mod]
  rw [← inTurn_iff baseLoop startLoop hn]
  constructor
  · intro h
    refine (inTurn_iff_consecutive hinj hn hzero).mpr ?_
    intro j hj
    obtain ⟨i, hi, hgi, hgsucc⟩ := h.consecutive j hj
    rw [hlen] at hi hgsucc
    rw [getElem?_started baseLoop startLoop hi, Option.some.injEq] at hgi
    rw [getElem?_started baseLoop startLoop (Nat.mod_lt _ hn), Option.some.injEq] at hgsucc
    exact ⟨i, hi, hgi.symm, hgsucc.symm⟩
  · intro h
    refine ⟨?_, ?_, ?_⟩
    · intro j _
      rw [← loopList_after _ j]
      refine index_lt ?_
      rw [loopList_after, ← List.length_pos_iff, hlen]
      exact hn
    · intro j hj
      obtain ⟨i, hi, hgi, hgsucc⟩ := (inTurn_iff_consecutive hinj hn hzero).mp h j hj
      rw [hlen]
      refine ⟨i, hi, ?_, ?_⟩
      · rw [getElem?_started baseLoop startLoop hi, hgi]
      · rw [getElem?_started baseLoop startLoop (Nat.mod_lt _ hn), hgsucc]
    · intro l hl l' hl'
      simp only [loopList_started, List.mem_map, List.mem_range] at hl hl'
      obtain ⟨i, hi, rfl⟩ := hl
      obtain ⟨j, hj, rfl⟩ := hl'
      exact h.balanced hinj hn hi hj

end Started

theorem count_succ [DecidableEq Loop] (p : Threadpoll Loop) (m : Nat) (l : Loop) :
    ((List.range (m + 1)).map p.chosen).count l =
      ((List.range m).map p.chosen).count l + if p.chosen m = l then 1 else 0 := by
  rw [List.range_succ, List.map_append, List.count_append, List.map_singleton, List.count_singleton]
  simp only [beq_iff_eq]

/-- Three loops: `next` wraps from -1 to 0 between two calls that both return the first loop, which is then two turns
ahead of the second. -/
theorem not_round_robin :
    (started 3 3 (.refl Nat)).chosen (2 ^ 32 - 1) = 0 ∧ (started 3 3 (.refl Nat)).chosen (2 ^ 32) = 0 ∧
      ¬ (started 3 3 (.refl Nat)).RoundRobin (2 ^ 32 + 1) := by
  have hchosen := chosen_started (n := 3) 3 (.refl Nat) (by decide)
  have hbefore : (started 3 3 (.refl Nat)).chosen (2 ^ 32 - 1) = 0 := by
    rw [hchosen, sizeT_int32_natCast]
    rfl
  have hafter : (started 3 3 (.refl Nat)).chosen (2 ^ 32) = 0 := by
    rw [hchosen, sizeT_int32_natCast]
    rfl
  refine ⟨hbefore, hafter, ?_⟩
  intro h
  have hturns : InTurn (Function.Embedding.refl Nat) (started 3 3 (.refl Nat)).chosen 3 (2 ^ 32) :=
    (inTurn_iff 3 (.refl Nat) (by decide) _).mpr (Or.inr (Or.inl ⟨le_rfl, by decide⟩))
  have hinj : Set.InjOn (Function.Embedding.refl Nat) (Set.Iio 3) := Function.injective_id.injOn
  have hfirst := count_of_inTurn (i := 0) hinj (by decide) (by decide) hturns
  have hsecond := count_of_inTurn (i := 1) hinj (by decide) (by decide) hturns
  have hbalanced := h.balanced 0 (by simp) 1 (by simp)
  rw [Function.Embedding.refl_apply] at hfirst hsecond
  rw [count_succ, count_succ, hafter, hfirst, hsecond] at hbalanced
  exact absurd hbalanced (by decide)

theorem round_robin_four : (started 4 4 (.refl Nat)).RoundRobin (2 ^ 40) :=
  (round_robin_iff 4 (.refl Nat) (by decide) (2 ^ 40)).mpr (Or.inr (Or.inr (by decide)))

end Threadpoll

end NetImitate
