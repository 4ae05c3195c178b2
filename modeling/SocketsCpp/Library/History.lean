import SocketsCpp.Library.Machine

/-!
# Histories beside a machine

What a run did can be written down beside the state, where the state does not keep it. The history takes
no part in the run: it follows the steps of the machine, and no step depends on it.

* `Machine.withHistory` — the machine with a history beside the state.
* `Reach.withHistory` and `Reach.forget` — the runs are the same with the history as without.
* `Reach.history_invariant` — invariants of the state with the history.
-/

namespace SocketsCpp.Library.Machine

universe u v w

variable {σ : Type u} {α : Type v} {η : Type w} {M : Machine σ α} {next : η → σ → α → η}
  {ok : σ → α → Prop}

/-- The machine with a history beside the state; `next` writes the history on. -/
def withHistory (M : Machine σ α) (next : η → σ → α → η) : Machine (σ × η) α where
  step x a := (M.step x.1 a).map fun s => (s, next x.2 x.1 a)

/-- A condition on the steps that does not look at the history. -/
def Beside (ok : σ → α → Prop) (x : σ × η) (a : α) : Prop := ok x.1 a

instance [∀ s a, Decidable (ok s a)] (x : σ × η) (a : α) : Decidable (Beside ok x a) :=
  inferInstanceAs (Decidable (ok _ _))

theorem withHistory_step {x y : σ × η} {a : α} : (M.withHistory next).step x a = some y ↔
    M.step x.1 a = some y.1 ∧ y.2 = next x.2 x.1 a := by
  obtain ⟨s', h'⟩ := y
  simp only [withHistory, Option.map_eq_some_iff, Prod.mk.injEq]
  constructor
  · rintro ⟨s'', hs, rfl, rfl⟩
    exact ⟨hs, rfl⟩
  · rintro ⟨hs, rfl⟩
    exact ⟨s', hs, rfl, rfl⟩

/-- Every run has a history. -/
theorem Reach.withHistory {s₀ s : σ} (h : M.Reach ok s₀ s) (next : η → σ → α → η) (h₀ : η) :
    ∃ h', (M.withHistory next).Reach (Beside ok) (s₀, h₀) (s, h') := by
  induction h with
  | refl => exact ⟨h₀, .refl⟩
  | @step s s' a _ hok hs ih =>
    obtain ⟨h', hr⟩ := ih
    exact ⟨next h' s a, .step hr hok (withHistory_step.mpr ⟨hs, rfl⟩)⟩

/-- A run with its history is a run. -/
theorem Reach.forget {x₀ x : σ × η} (h : (M.withHistory next).Reach (Beside ok) x₀ x) :
    M.Reach ok x₀.1 x.1 := by
  induction h with
  | refl => exact .refl
  | step _ hok hs ih => exact .step ih hok (withHistory_step.mp hs).1

/-- An invariant of the state with the history, proved with the help of one of the state. -/
theorem Reach.history_invariant {J : σ → Prop} {I : σ → η → Prop} {x₀ x : σ × η}
    (hJ : ∀ s, M.Reach ok x₀.1 s → J s) (h₀ : I x₀.1 x₀.2)
    (hstep : ∀ s h a s', J s → I s h → ok s a → M.step s a = some s' → I s' (next h s a))
    (h : (M.withHistory next).Reach (Beside ok) x₀ x) : I x.1 x.2 := by
  induction h with
  | refl => exact h₀
  | step hr hok hs ih =>
    obtain ⟨hs, he⟩ := withHistory_step.mp hs
    rw [he]
    exact hstep _ _ _ _ (hJ _ hr.forget) ih hok hs

end SocketsCpp.Library.Machine
