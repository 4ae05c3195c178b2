import Mathlib.Data.List.Infix
import Mathlib.Tactic.Common

/-!
# Machines

A machine takes its steps under the direction of a scheduler: `step s a` is the
state after action `a` in state `s`, or `none` when `a` is not possible there.
What the scheduler chooses, and what the surroundings answer, is in the actions, so
a step is a function and a run can be computed.

* `Machine.run` — the run of a list of actions.
* `Machine.Reach ok` — the states reached by runs every step of which meets the
  condition `ok` on the state before the step and the action.
* `Reach.invariant` — what holds at the start and is preserved by every step that
  meets the condition holds of every state reached.
* `exists_reach` — a run that can be computed reaches a state with a property.
* `Machine.Guarded` — a condition on every step of one run; `run_iff_guarded` says when it
  is the exact condition for the run to keep a property.
-/

namespace SocketsCpp.Library

universe u v

/-- A machine with states `σ` and actions `α`. -/
structure Machine (σ : Type u) (α : Type v) where
  /-- The state after an action, if the action is possible. -/
  step : σ → α → Option σ

namespace Machine

variable {σ : Type u} {α : Type v} (M : Machine σ α)

/-- Run a list of actions, first action first. -/
def run (s : σ) : List α → Option σ
  | [] => some s
  | a :: as => (M.step s a).bind fun s' => run s' as

/-- The states reached from `s₀` by steps that meet the condition `ok`. -/
inductive Reach (ok : σ → α → Prop) (s₀ : σ) : σ → Prop where
  /-- The start is reached. -/
  | refl : Reach ok s₀ s₀
  /-- A step from a state reached. -/
  | step {s s' : σ} {a : α} : Reach ok s₀ s → ok s a → M.step s a = some s' → Reach ok s₀ s'

/-- No condition. -/
def Any (_ : σ) (_ : α) : Prop := True

instance (s : σ) (a : α) : Decidable (Any s a) := inferInstanceAs (Decidable True)

variable {M}

/-- **Invariants**: what holds at the start and is preserved by every step that
meets the condition holds of every state reached. -/
theorem Reach.invariant {ok : σ → α → Prop} {s₀ : σ} {I : σ → Prop} (h₀ : I s₀)
    (hstep : ∀ s a s', I s → ok s a → M.step s a = some s' → I s') {s : σ}
    (h : M.Reach ok s₀ s) : I s := by
  induction h with
  | refl => exact h₀
  | step _ hok hs ih => exact hstep _ _ _ ih hok hs

/-- An invariant proved with the help of one that is known already. -/
theorem Reach.invariant_of {ok : σ → α → Prop} {s₀ : σ} {J I : σ → Prop}
    (hJ : ∀ s, M.Reach ok s₀ s → J s) (h₀ : I s₀)
    (hstep : ∀ s a s', J s → I s → ok s a → M.step s a = some s' → I s') {s : σ}
    (h : M.Reach ok s₀ s) : I s := by
  induction h with
  | refl => exact h₀
  | step hr hok hs ih => exact hstep _ _ _ (hJ _ hr) ih hok hs

/-- A weaker condition reaches more states. -/
theorem Reach.mono {ok ok' : σ → α → Prop} (hle : ∀ s a, ok s a → ok' s a) {s₀ s : σ}
    (h : M.Reach ok s₀ s) : M.Reach ok' s₀ s := by
  induction h with
  | refl => exact .refl
  | step _ hok hs ih => exact .step ih (hle _ _ hok) hs

/-- A condition that follows from another under an invariant reaches more states. -/
theorem Reach.mono_of {ok ok' : σ → α → Prop} {J : σ → Prop} {s₀ s : σ} (h₀ : J s₀)
    (hJ : ∀ s a s', J s → ok s a → M.step s a = some s' → J s') (hle : ∀ s a, J s → ok s a → ok' s a)
    (h : M.Reach ok s₀ s) : M.Reach ok' s₀ s := by
  induction h with
  | refl => exact .refl
  | step hr hok hs ih => exact .step ih (hle _ _ (hr.invariant h₀ hJ) hok) hs

theorem Reach.trans {ok : σ → α → Prop} {s₀ s₁ s₂ : σ} (h₁ : M.Reach ok s₀ s₁)
    (h₂ : M.Reach ok s₁ s₂) : M.Reach ok s₀ s₂ := by
  induction h₂ with
  | refl => exact h₁
  | step _ hok hs ih => exact .step ih hok hs

variable (M)

/-- Every step of the run of a list of actions meets the condition `ok`. -/
def Guarded (ok : σ → α → Prop) (s : σ) : List α → Prop
  | [] => True
  | a :: as => ok s a ∧ ∀ s', M.step s a = some s' → Guarded ok s' as

instance Guarded.decidable (ok : σ → α → Prop) [∀ s a, Decidable (ok s a)] :
    ∀ (as : List α) (s : σ), Decidable (M.Guarded ok s as)
  | [], _ => .isTrue trivial
  | a :: as, s =>
    have : Decidable (∀ s', M.step s a = some s' → M.Guarded ok s' as) :=
      match h : M.step s a with
      | none => .isTrue (by simp)
      | some u => @decidable_of_iff _ _ (by simp) (Guarded.decidable ok as u)
    inferInstanceAs (Decidable (_ ∧ _))

variable {M}

/-- A condition that follows from another under an invariant. -/
theorem Guarded.mono {ok ok' : σ → α → Prop} {J : σ → Prop}
    (hJ : ∀ {s a s'}, J s → ok s a → M.step s a = some s' → J s')
    (hle : ∀ {s a}, J s → ok s a → ok' s a) :
    ∀ {as : List α} {s : σ}, J s → M.Guarded ok s as → M.Guarded ok' s as
  | [], _, _, _ => trivial
  | _ :: _, _, hj, hg => ⟨hle hj hg.1, fun s' hs => Guarded.mono hJ hle (hJ hj hg.1 hs) (hg.2 s' hs)⟩

/-- A condition that always holds. -/
theorem Guarded.of_forall {ok : σ → α → Prop} (h : ∀ s a, ok s a) :
    ∀ (as : List α) (s : σ), M.Guarded ok s as
  | [], _ => trivial
  | _ :: as, s => ⟨h s _, fun s' _ => Guarded.of_forall h as s'⟩

theorem run_append {as bs : List α} {s s' : σ} (h : M.run s as = some s') :
    M.run s (as ++ bs) = M.run s' bs := by
  induction as generalizing s with
  | nil =>
    cases h
    rfl
  | cons a as ih =>
    obtain ⟨u, hu, h⟩ := Option.bind_eq_some_iff.mp h
    rw [List.cons_append, run, hu]
    exact ih h

/-- What a run from a state that is reached ends in is reached. -/
theorem Reach.run {ok : σ → α → Prop} {s₀ s s' : σ} {as : List α} (h : M.Reach ok s₀ s)
    (hg : M.Guarded ok s as) (hr : M.run s as = some s') : M.Reach ok s₀ s' := by
  induction as generalizing s with
  | nil =>
    cases hr
    exact h
  | cons a as ih =>
    obtain ⟨u, hu, hr⟩ := Option.bind_eq_some_iff.mp hr
    exact ih (.step h hg.1 hu) (hg.2 u hu) hr

/-- An invariant holds at the end of a run. -/
theorem run_invariant {B : σ → α → Prop} {J : σ → Prop}
    (hJ : ∀ {s a s'}, J s → B s a → M.step s a = some s' → J s') :
    ∀ {as : List α} {s s' : σ}, J s → M.Guarded B s as → M.run s as = some s' → J s'
  | [], s, s', hj, _, hr => by
    cases hr
    exact hj
  | a :: as, s, s', hj, hb, hr => by
    obtain ⟨u, hu, hr⟩ := Option.bind_eq_some_iff.mp hr
    exact run_invariant hJ (hJ hj hb.1 hu) (hb.2 u hu) hr

/-- **Exact conditions**: let a step from a state with the property `P` keep it exactly if the
step meets the condition `ok`, and let a property that is lost stay lost, both under an invariant
`J` and in runs whose steps meet `B`. Then a run from a state with the property ends in one
exactly if all its steps meet `ok`. -/
theorem run_iff_guarded {B ok : σ → α → Prop} {J P : σ → Prop}
    (hJ : ∀ {s a s'}, J s → B s a → M.step s a = some s' → J s')
    (hP : ∀ {s a s'}, J s → B s a → M.step s a = some s' → P s → (P s' ↔ ok s a))
    (hN : ∀ {s a s'}, J s → B s a → M.step s a = some s' → ¬ P s → ¬ P s') :
    ∀ {as : List α} {s s' : σ}, J s → P s → M.Guarded B s as → M.run s as = some s' →
      (P s' ↔ M.Guarded ok s as)
  | [], s, s', _, hp, _, hr => by
    cases hr
    exact ⟨fun _ => trivial, fun _ => hp⟩
  | a :: as, s, s', hj, hp, hb, hr => by
    obtain ⟨u, hu, hr⟩ := Option.bind_eq_some_iff.mp hr
    have hb' := hb.2 u hu
    have hj' := hJ hj hb.1 hu
    have hstep := hP hj hb.1 hu hp
    simp only [Guarded, hu, Option.some.injEq, forall_eq']
    constructor
    · intro hend
      by_cases hpu : P u
      · exact ⟨hstep.mp hpu, (run_iff_guarded hJ hP hN hj' hpu hb' hr).mp hend⟩
      · have hlost := run_invariant (J := fun s => J s ∧ ¬ P s)
          (fun hi hb hs => ⟨hJ hi.1 hb hs, hN hi.1 hb hs hi.2⟩) ⟨hj', hpu⟩ hb' hr
        exact absurd hend hlost.2
    · rintro ⟨hok, hg⟩
      exact (run_iff_guarded hJ hP hN hj' (hstep.mpr hok) hb' hr).mpr hg

/-- Run a list of actions, stopping at one that does not meet the condition. -/
def runOk (M : Machine σ α) (ok : σ → α → Prop) [∀ s a, Decidable (ok s a)] (s : σ) :
    List α → Option σ
  | [] => some s
  | a :: as => if ok s a then (M.step s a).bind fun s' => runOk M ok s' as else none

/-- What such a run ends in is reached. -/
theorem reach_of_runOk {ok : σ → α → Prop} [∀ s a, Decidable (ok s a)] :
    ∀ {as : List α} {s s' : σ}, M.runOk ok s as = some s' → M.Reach ok s s'
  | [], s, s', h => by
    simp only [runOk, Option.some.injEq] at h
    exact h ▸ .refl
  | a :: as, s, s', h => by
    simp only [runOk] at h
    split at h
    · next hok =>
      obtain ⟨u, hu, h⟩ := Option.bind_eq_some_iff.mp h
      exact Reach.trans (.step .refl hok hu) (reach_of_runOk h)
    · cases h

/-- A run that can be computed reaches a state with the property `P`. -/
theorem exists_reach {ok : σ → α → Prop} [∀ s a, Decidable (ok s a)] {P : σ → Prop}
    [DecidablePred P] {s : σ} (as : List α) (h : (M.runOk ok s as).any (fun s' => P s') = true) :
    ∃ s', M.Reach ok s s' ∧ P s' := by
  obtain ⟨s', hs, hp⟩ := (Option.any_eq_true _ _).mp h
  exact ⟨s', reach_of_runOk hs, of_decide_eq_true hp⟩

/-- A run that can be computed ends in a state with the property `P`. -/
theorem exists_run {P : σ → Prop} [DecidablePred P] {s : σ} {as : List α}
    (h : (M.run s as).any (fun s' => P s') = true) : ∃ s', M.run s as = some s' ∧ P s' := by
  obtain ⟨s', hs, hp⟩ := (Option.any_eq_true _ _).mp h
  exact ⟨s', hs, of_decide_eq_true hp⟩

end Machine

end SocketsCpp.Library
