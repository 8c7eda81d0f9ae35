import Mathlib.Data.List.Basic
import Mathlib.Data.List.Induction
import Mathlib.Logic.Basic
import Mathlib.Order.Basic
import Mathlib.Order.WellFounded

/-!
# Event machines: runs, invariants, simulations

A `Machine` is a partial step function over events, `none` when the event cannot happen in the state.

* `run` : a list of events in order; `run_append`, `run_snoc`;
* `run_invariant` : what every step keeps, every run keeps; `run_induction` : the same with the events so far;
* `Meets C` : every step the run takes satisfies `C` before it is taken; `meets_append`,
  `run_invariant_of_meets`;
* `run_phases` : a run is as many phases on as it has events that end one;
* `run_consumes` : what steps take off the front of a list, a run takes off it in order;
* `outputs f` : what the steps of a run put out, in order; `outputs_append`;
* `Throughout P` : `P` holds in every state the run goes through; `throughout_iff_meets`;
* `Execution` : the states and the events of a run without end; `Execution.invariant`,
  `Execution.finitely_often` : what lowers a well-founded measure happens finitely often; `exists_end`;
* `run_simulates` : a step-wise simulation carries a whole run to a run of the other machine.
-/

namespace NetImitate

/-- A partial step function over events. -/
structure Machine (State Event : Type*) where
  step : State → Event → Option State

namespace Machine
variable {State Event : Type*} (M : Machine State Event)

/-- The events in order; `none` when one of them cannot happen where the run has come to. -/
def run (s : State) : List Event → Option State
  | [] => some s
  | e :: es => (M.step s e).bind fun s' => run s' es

@[simp] theorem run_nil (s : State) : M.run s [] = some s := rfl

@[simp] theorem run_cons (s : State) (e : Event) (es : List Event) :
    M.run s (e :: es) = (M.step s e).bind fun s' => M.run s' es := rfl

theorem run_singleton (s : State) (e : Event) : M.run s [e] = M.step s e := by
  rw [run_cons]
  cases M.step s e <;> rfl

theorem run_append (es fs : List Event) (s : State) :
    M.run s (es ++ fs) = (M.run s es).bind fun s' => M.run s' fs := by
  induction es generalizing s with
  | nil => rfl
  | cons e es ih =>
    simp only [List.cons_append, run_cons]
    cases M.step s e with
    | none => rfl
    | some s1 => exact ih s1

theorem run_snoc (es : List Event) (e : Event) (s : State) :
    M.run s (es ++ [e]) = (M.run s es).bind fun s' => M.step s' e := by
  rw [run_append]
  congr 1
  funext s'
  exact M.run_singleton s' e

theorem run_cons_some {s s' : State} {e : Event} {es : List Event} (h : M.run s (e :: es) = some s') :
    ∃ s1, M.step s e = some s1 ∧ M.run s1 es = some s' := by
  rw [run_cons, Option.bind_eq_some_iff] at h
  exact h

theorem run_append_some {s s' : State} {es fs : List Event} (h : M.run s (es ++ fs) = some s') :
    ∃ s1, M.run s es = some s1 ∧ M.run s1 fs = some s' := by
  rw [run_append, Option.bind_eq_some_iff] at h
  exact h

/-! ## Invariants -/

/-- What every step keeps, every run keeps. -/
theorem run_invariant {I : State → Prop} (hstep : ∀ s e s', I s → M.step s e = some s' → I s') :
    ∀ (es : List Event) (s s' : State), I s → M.run s es = some s' → I s'
  | [], s, s', hs, h => by
    rw [run_nil, Option.some.injEq] at h
    exact h ▸ hs
  | e :: es, s, s', hs, h => by
    obtain ⟨s1, h1, h2⟩ := M.run_cons_some h
    exact run_invariant hstep es s1 s' (hstep s e s1 hs h1) h2

/-- Induction on the last event of a run. -/
theorem run_induction {P : List Event → State → Prop} {s : State} (hnil : P [] s)
    (hsnoc : ∀ es e s1 s2, M.run s es = some s1 → P es s1 → M.step s1 e = some s2 → P (es ++ [e]) s2) :
    ∀ (es : List Event) (s' : State), M.run s es = some s' → P es s' := by
  intro es
  induction es using List.reverseRec with
  | nil =>
    intro s' h
    rw [run_nil, Option.some.injEq] at h
    exact h ▸ hnil
  | append_singleton es e ih =>
    intro s' h
    obtain ⟨s1, h1, h2⟩ := M.run_append_some h
    rw [run_singleton] at h2
    exact hsnoc es e s1 s' h1 (ih s1 h1) h2

/-- Every step the run takes satisfies `C` in the state before it. -/
def Meets (C : State → Event → Prop) : State → List Event → Prop
  | _, [] => True
  | s, e :: es => C s e ∧ ∀ s', M.step s e = some s' → Meets C s' es

@[simp] theorem meets_nil (C : State → Event → Prop) (s : State) : M.Meets C s [] := trivial

theorem meets_of_forall {C : State → Event → Prop} {es : List Event} (h : ∀ s, ∀ e ∈ es, C s e) :
    ∀ s, M.Meets C s es := by
  induction es with
  | nil => exact fun s => M.meets_nil C s
  | cons e es ih =>
    intro s
    exact ⟨h s e (by simp), fun s' _ => ih (fun t f hf => h t f (List.mem_cons_of_mem _ hf)) s'⟩

theorem meets_append {C : State → Event → Prop} {es fs : List Event} {s : State} :
    M.Meets C s (es ++ fs) ↔ M.Meets C s es ∧ ∀ s', M.run s es = some s' → M.Meets C s' fs := by
  induction es generalizing s with
  | nil => simp
  | cons e es ih =>
    simp only [List.cons_append, Meets, ih, run_cons, Option.bind_eq_some_iff]
    constructor
    · rintro ⟨hC, hrest⟩
      exact ⟨⟨hC, fun s1 h1 => (hrest s1 h1).1⟩, fun s' ⟨s1, h1, h2⟩ => (hrest s1 h1).2 s' h2⟩
    · rintro ⟨⟨hC, hes⟩, hfs⟩
      exact ⟨hC, fun s1 h1 => ⟨hes s1 h1, fun s' h2 => hfs s' ⟨s1, h1, h2⟩⟩⟩

/-- A run meets two conditions together when it meets each. -/
theorem Meets.and {M : Machine State Event} {C D : State → Event → Prop} {es : List Event} {s : State}
    (hC : M.Meets C s es) (hD : M.Meets D s es) : M.Meets (fun s e => C s e ∧ D s e) s es := by
  induction es generalizing s with
  | nil => trivial
  | cons e es ih => exact ⟨⟨hC.1, hD.1⟩, fun s' h => ih (hC.2 s' h) (hD.2 s' h)⟩

/-- Under an invariant that steps keep where they meet `C`, what `C` implies is met too. -/
theorem Meets.imp {M : Machine State Event} {I : State → Prop} {C D : State → Event → Prop} {es : List Event}
    {s : State} (hC : M.Meets C s es) (hI : ∀ s e s', I s → C s e → M.step s e = some s' → I s')
    (hD : ∀ s e, I s → C s e → D s e) (hs : I s) : M.Meets D s es := by
  induction es generalizing s with
  | nil => trivial
  | cons e es ih => exact ⟨hD s e hs hC.1, fun s' h => ih (hC.2 s' h) (hI s e s' hs hC.1 h)⟩

/-- Whether a run meets a decidable condition can be computed. -/
instance decidableMeets (C : State → Event → Prop) [∀ s e, Decidable (C s e)] :
    ∀ (s : State) (es : List Event), Decidable (M.Meets C s es)
  | _, [] => isTrue trivial
  | s, e :: es =>
    match h : M.step s e with
    | none => decidable_of_iff (C s e) ⟨fun hC => ⟨hC, fun s' hs' => by rw [h] at hs'; cases hs'⟩, And.left⟩
    | some s1 =>
      have := decidableMeets C s1 es
      decidable_of_iff (C s e ∧ M.Meets C s1 es)
        ⟨fun hC => ⟨hC.1, fun s' hs' => by rw [h] at hs'; cases hs'; exact hC.2⟩, fun hC => ⟨hC.1, hC.2 s1 h⟩⟩

/-- What every step that satisfies `C` keeps, every run that meets `C` keeps. -/
theorem run_invariant_of_meets {I : State → Prop} {C : State → Event → Prop}
    (hstep : ∀ s e s', I s → C s e → M.step s e = some s' → I s') :
    ∀ (es : List Event) (s s' : State), I s → M.Meets C s es → M.run s es = some s' → I s'
  | [], s, s', hs, _, h => by
    rw [run_nil, Option.some.injEq] at h
    exact h ▸ hs
  | e :: es, s, s', hs, hC, h => by
    obtain ⟨s1, h1, h2⟩ := M.run_cons_some h
    exact run_invariant_of_meets hstep es s1 s' (hstep s e s1 hs hC.1 h1) (hC.2 s1 h1) h2

/-- Runs in phases: where every step keeps the phase and the events of `E` end it, a run is as many phases on as it has
events of `E`. -/
theorem run_phases {P : ℕ → State → Prop} {C : State → Event → Prop} {E : Event → Bool}
    (hstep : ∀ n s e s', P n s → C s e → M.step s e = some s' → P (if E e then n + 1 else n) s') :
    ∀ (es : List Event) (n : ℕ) (s s' : State), P n s → M.Meets C s es → M.run s es = some s' → P (n + es.countP E) s'
  | [], n, s, s', hs, _, h => by
    rw [run_nil, Option.some.injEq] at h
    exact h ▸ hs
  | e :: es, n, s, s', hs, hC, h => by
    obtain ⟨s1, h1, h2⟩ := M.run_cons_some h
    have hrest := run_phases hstep es _ s1 s' (hstep n s e s1 hs hC.1 h1) (hC.2 s1 h1) h2
    by_cases he : E e = true
    · rw [if_pos he] at hrest
      rw [List.countP_cons_of_pos he, Nat.add_comm (es.countP E) 1, ← Nat.add_assoc]
      exact hrest
    · rw [if_neg he] at hrest
      rw [List.countP_cons_of_neg he]
      exact hrest

/-- Where every step takes what its event names off the front of `c`, a run takes off `c` what its events name, in
order. -/
theorem run_consumes {α : Type*} {I : State → Prop} {c : State → List α} {f : Event → Option α}
    (hstep : ∀ s e s', I s → M.step s e = some s' → I s' ∧ (f e).toList ++ c s' = c s) :
    ∀ (es : List Event) (s s' : State), I s → M.run s es = some s' → es.filterMap f ++ c s' = c s
  | [], s, s', _, h => by
    rw [run_nil, Option.some.injEq] at h
    rw [h]
    rfl
  | e :: es, s, s', hs, h => by
    obtain ⟨s1, h1, h2⟩ := M.run_cons_some h
    obtain ⟨hI, hhead⟩ := hstep s e s1 hs h1
    have htail := run_consumes hstep es s1 s' hI h2
    rw [← hhead, ← htail, List.filterMap_cons]
    cases f e <;> rfl

/-! ## What a run puts out -/

/-- What the steps of a run put out, in order. -/
def outputs {α : Type*} (f : State → Event → List α) : State → List Event → List α
  | _, [] => []
  | s, e :: es => f s e ++ (M.step s e).elim [] fun s' => outputs f s' es

theorem outputs_append {α : Type*} (f : State → Event → List α) {es fs : List Event} {s s' : State}
    (h : M.run s es = some s') : M.outputs f s (es ++ fs) = M.outputs f s es ++ M.outputs f s' fs := by
  induction es generalizing s with
  | nil =>
    rw [run_nil, Option.some.injEq] at h
    rw [h]
    rfl
  | cons e es ih =>
    obtain ⟨s1, h1, h2⟩ := M.run_cons_some h
    simp only [List.cons_append, outputs, h1, Option.elim_some, ih h2, List.append_assoc]

theorem outputs_snoc {α : Type*} (f : State → Event → List α) {es : List Event} {e : Event} {s s' : State}
    (h : M.run s es = some s') : M.outputs f s (es ++ [e]) = M.outputs f s es ++ f s' e := by
  rw [M.outputs_append f h]
  cases hstep : M.step s' e <;> simp [outputs, hstep]

/-! ## Properties of every state a run goes through -/

/-- `P` holds in every state the run goes through. -/
def Throughout (P : State → Prop) : State → List Event → Prop
  | s, [] => P s
  | s, e :: es => P s ∧ ∀ s', M.step s e = some s' → Throughout P s' es

/-- Where `C` is what it takes for one step to keep `P`, a run keeps `P` throughout exactly when every step meets `C`. -/
theorem throughout_iff_meets {I P : State → Prop} {C : State → Event → Prop}
    (hI : ∀ s e s', I s → M.step s e = some s' → I s')
    (hP : ∀ s e s', I s → P s → M.step s e = some s' → (P s' ↔ C s e)) :
    ∀ (es : List Event) (s s' : State), I s → P s → M.run s es = some s' →
      (M.Throughout P s es ↔ M.Meets C s es)
  | [], s, _, _, hs, _ => iff_of_true hs trivial
  | e :: es, s, s', hIs, hs, h => by
    obtain ⟨s1, h1, h2⟩ := M.run_cons_some h
    have hstep := hP s e s1 hIs hs h1
    have hI1 := hI s e s1 hIs h1
    simp only [Throughout, Meets, h1, Option.some.injEq, forall_eq']
    constructor
    · rintro ⟨-, hrest⟩
      have hP1 : P s1 := by
        cases es with
        | nil => exact hrest
        | cons f fs => exact hrest.1
      exact ⟨hstep.mp hP1, (throughout_iff_meets hI hP es s1 s' hI1 hP1 h2).mp hrest⟩
    · rintro ⟨hC, hrest⟩
      exact ⟨hs, (throughout_iff_meets hI hP es s1 s' hI1 (hstep.mpr hC) h2).mpr hrest⟩

/-! ## Runs without end -/

/-- The states `t` and the events `ev` of a run without end. -/
def Execution (t : ℕ → State) (ev : ℕ → Event) : Prop := ∀ n, M.step (t n) (ev n) = some (t (n + 1))

namespace Execution
variable {M : Machine State Event} {t : ℕ → State} {ev : ℕ → Event}

/-- Up to each of its states an execution is a run. -/
theorem run (h : M.Execution t ev) : ∀ n, M.run (t 0) ((List.range n).map ev) = some (t n)
  | 0 => rfl
  | n + 1 => by
    rw [List.range_succ, List.map_append, M.run_append, h.run n]
    exact (M.run_singleton (t n) (ev n)).trans (h n)

/-- From any of its states on, an execution is one. -/
theorem drop (h : M.Execution t ev) (k : ℕ) : M.Execution (fun n => t (k + n)) fun n => ev (k + n) := fun n => h (k + n)

theorem invariant {I : State → Prop} (h : M.Execution t ev)
    (hstep : ∀ s e s', I s → M.step s e = some s' → I s') (h0 : I (t 0)) (n : ℕ) : I (t n) :=
  M.run_invariant hstep _ (t 0) (t n) h0 (h.run n)

/-- Where no step raises a well-founded measure and the events of `E` lower it, they happen finitely often. -/
theorem finitely_often {α : Type*} [PartialOrder α] [WellFoundedLT α] {I : State → Prop} {μ : State → α}
    {E : Event → Prop} (h : M.Execution t ev) (hI : ∀ n, I (t n))
    (hstep : ∀ s e s', I s → I s' → M.step s e = some s' → μ s' ≤ μ s ∧ (E e → μ s' < μ s)) :
    ∃ N, ∀ n ≥ N, ¬ E (ev n) := by
  have hdrop := fun n => hstep _ _ _ (hI n) (hI (n + 1)) (h n)
  have hanti : Antitone fun n => μ (t n) := antitone_nat_of_succ_le fun n => (hdrop n).1
  -- from the state with the least measure on, nothing lowers it
  obtain ⟨x, ⟨N, rfl⟩, hmin⟩ := wellFounded_lt.has_min (Set.range fun n => μ (t n)) ⟨_, 0, rfl⟩
  refine ⟨N, fun n hn hE => hmin (μ (t (n + 1))) ⟨n + 1, rfl⟩ ?_⟩
  exact ((hdrop n).2 hE).trans_le (hanti hn)

end Execution

/-- What holds at a time and does not last ends with a step. -/
theorem exists_end {P : ℕ → Prop} {n : ℕ} (hn : P n) (hleaves : ∀ k, ∃ m ≥ k, ¬ P m) : ∃ m ≥ n, P m ∧ ¬ P (m + 1) := by
  by_contra hnever
  push Not at hnever
  have hlasts : ∀ m, n ≤ m → P m := fun m hm => Nat.le_induction hn (fun m hm h => hnever m hm h) m hm
  obtain ⟨m, hm, hnot⟩ := hleaves n
  exact hnot (hlasts m hm)

/-! ## Simulations -/

variable {State' Event' : Type*}

/-- A step-wise simulation carries a run of `M` that meets `C` to a run of `N`: each event `e` of `M` becomes
the events `f s e` of `N`. -/
theorem run_simulates (N : Machine State' Event') {R : State → State' → Prop} {C : State → Event → Prop}
    {f : State → Event → List Event'}
    (hstep : ∀ s t e s', R s t → C s e → M.step s e = some s' → ∃ t', N.run t (f s e) = some t' ∧ R s' t') :
    ∀ (es : List Event) (s s' : State) (t : State'), R s t → M.Meets C s es → M.run s es = some s' →
      ∃ fs t', N.run t fs = some t' ∧ R s' t'
  | [], s, s', t, hR, _, h => by
    rw [run_nil, Option.some.injEq] at h
    exact ⟨[], t, rfl, h ▸ hR⟩
  | e :: es, s, s', t, hR, hC, h => by
    obtain ⟨s1, h1, h2⟩ := M.run_cons_some h
    obtain ⟨t1, ht1, hR1⟩ := hstep s t e s1 hR hC.1 h1
    obtain ⟨fs, t', hfs, hR'⟩ := run_simulates N hstep es s1 s' t1 hR1 (hC.2 s1 h1) h2
    refine ⟨f s e ++ fs, t', ?_, hR'⟩
    rw [N.run_append, ht1]
    exact hfs

end Machine

end NetImitate
