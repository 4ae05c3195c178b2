import SocketsCpp.Library.Machine
import Mathlib.Logic.Function.Basic
import Mathlib.Data.List.Basic

/-!
# Machines side by side

Any number of machines that share nothing, each with a log of what it did. A step of the family is a step of one
member. What the step adds to the log of the member, it adds to one history, too, which says what happened before
what.

* `logOf` — the part of one member in a history.
* `Machine.family` — the members side by side.
* `Reach.member` — in a run of the family each member makes a run of its own.
* `Reach.logOf_history` — the history has the log of each member.
-/

namespace SocketsCpp.Library

universe u v w x

section

variable {ι : Type u} {ε : Type v} [DecidableEq ι] {i j : ι} {h : List (ι × ε)}

/-- The part of member `i` in a history. -/
def logOf (i : ι) (h : List (ι × ε)) : List ε := h.filterMap fun x => if x.1 = i then some x.2 else none

@[simp] theorem logOf_nil : logOf i ([] : List (ι × ε)) = [] := rfl

@[simp] theorem logOf_append (i : ι) (h h' : List (ι × ε)) : logOf i (h ++ h') = logOf i h ++ logOf i h' :=
  List.filterMap_append

theorem logOf_map_self (i : ι) (es : List ε) : logOf i (es.map (i, ·)) = es := by
  simp [logOf, List.filterMap_map]

theorem logOf_map_of_ne (hne : j ≠ i) (es : List ε) : logOf i (es.map (j, ·)) = [] := by
  simp [logOf, hne]

/-- What happened up to an entry of the log of member `i`. -/
theorem exists_history {l l' : List ε} {e : ε} (hl : logOf i h = l ++ e :: l') :
    ∃ h₁ h₂, h = h₁ ++ (i, e) :: h₂ ∧ logOf i h₁ = l := by
  obtain ⟨h₁, h₂, rfl, h1, h2⟩ := List.filterMap_eq_append_iff.mp hl
  obtain ⟨h₃, ⟨k, e'⟩, h₄, rfl, hnone, hsome, -⟩ := List.filterMap_eq_cons_iff.mp h2
  have hk : k = i ∧ e' = e := by simpa using hsome
  obtain ⟨rfl, rfl⟩ := hk
  refine ⟨h₁ ++ h₃, h₄, by simp, ?_⟩
  rw [logOf_append, show logOf k h₃ = [] from List.filterMap_eq_nil_iff.mpr hnone, List.append_nil]
  exact h1

end

/-- The members of a family, and their history. -/
structure Family {ι : Type u} (σ : ι → Type v) (ε : Type w) where
  /-- The members. -/
  member : ∀ i, σ i
  /-- What they logged. -/
  history : List (ι × ε) := []

namespace Machine

variable {ι : Type u} [DecidableEq ι] {σ : ι → Type v} {ε : Type w} {α : ι → Type x}

/-- The machines `M` side by side. -/
def family (M : ∀ i, Machine (σ i) (α i)) (log : ∀ i, σ i → List ε) : Machine (Family σ ε) (Σ i, α i) where
  step y a := ((M a.1).step (y.member a.1) a.2).map fun s =>
    { member := Function.update y.member a.1 s
      history := y.history ++ ((log a.1 s).drop (log a.1 (y.member a.1)).length).map (a.1, ·) }

variable {M : ∀ i, Machine (σ i) (α i)} {log : ∀ i, σ i → List ε} {ok : Family σ ε → (Σ i, α i) → Prop}
  {y₀ y y' : Family σ ε}

/-- A step is one of one member. -/
theorem family_step {j : ι} {a : α j} (h : (family M log).step y ⟨j, a⟩ = some y') :
    ∃ s, (M j).step (y.member j) a = some s ∧ y'.member = Function.update y.member j s ∧
      y'.history = y.history ++ ((log j s).drop (log j (y.member j)).length).map (j, ·) := by
  obtain ⟨s, hs, rfl⟩ := Option.map_eq_some_iff.mp h
  exact ⟨s, hs, rfl, rfl⟩

/-- **Each member makes a run of its own.** -/
theorem Reach.member (h : (family M log).Reach ok y₀ y) (i : ι) :
    (M i).Reach Any (y₀.member i) (y.member i) := by
  induction h with
  | refl => exact .refl
  | @step y y' a _ _ hs ih =>
    obtain ⟨j, a⟩ := a
    obtain ⟨s, hstep, hm, -⟩ := family_step hs
    by_cases hij : i = j
    · subst hij
      rw [hm, Function.update_self]
      exact .step ih trivial hstep
    · rw [hm, Function.update_of_ne hij]
      exact ih

/-- **The history has the log of each member**, where logs only grow. -/
theorem Reach.logOf_history (hgrow : ∀ i s a s', (M i).step s a = some s' → log i s <+: log i s')
    (h₀ : ∀ i, logOf i y₀.history = log i (y₀.member i)) (h : (family M log).Reach ok y₀ y) (i : ι) :
    logOf i y.history = log i (y.member i) := by
  induction h with
  | refl => exact h₀ i
  | @step y y' a _ _ hs ih =>
    obtain ⟨j, a⟩ := a
    obtain ⟨s, hstep, hm, hh⟩ := family_step hs
    rw [hh, logOf_append, ih, hm]
    by_cases hij : i = j
    · subst hij
      obtain ⟨es, hes⟩ := hgrow i _ _ _ hstep
      rw [Function.update_self, logOf_map_self, ← hes, List.drop_left]
    · rw [logOf_map_of_ne (Ne.symm hij), List.append_nil, Function.update_of_ne hij]

end Machine

end SocketsCpp.Library
