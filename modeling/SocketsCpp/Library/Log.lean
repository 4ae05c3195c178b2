import Mathlib.Data.List.Induction
import Mathlib.Tactic.Common

/-!
# Logs

A log is a list that grows at its end.

* `lastOf` — the last entry of a kind: what a history says about the present.
* `Grows` — one log is another with entries of a kind added; the last entry of any other
  kind stays what it was.
* `NoneAfter` — after an entry of one kind there is none of another.
* `AtEach` — at each entry of a kind, the log up to it has a property.
-/

namespace SocketsCpp.Library

universe u

variable {α : Type u} {p q : α → Bool} {log log' : List α} {e : α}

/-- The last entry of a kind. -/
def lastOf (p : α → Bool) (log : List α) : Option α := (log.filter p).getLast?

@[simp] theorem lastOf_nil : lastOf p [] = none := rfl

@[simp] theorem lastOf_append : lastOf p (log ++ [e]) = if p e then some e else lastOf p log := by
  unfold lastOf
  cases h : p e <;> simp [List.filter_append, h]

theorem mem_of_lastOf (h : lastOf p log = some e) : e ∈ log ∧ p e = true :=
  List.mem_filter.mp (List.mem_of_getLast? h)

/-- `log'` is `log` with entries of a kind added. -/
inductive Grows (q : α → Bool) (log : List α) : List α → Prop where
  /-- Nothing was added. -/
  | refl : Grows q log log
  /-- One more entry. -/
  | append {log' : List α} {e : α} : Grows q log log' → q e = true → Grows q log (log' ++ [e])

namespace Grows

theorem one (h : q e = true) : Grows q log (log ++ [e]) := .append .refl h

/-- A log with entries of one kind only. -/
theorem of_forall (h : ∀ e ∈ log, q e = true) : Grows q [] log := by
  induction log using List.reverseRecOn with
  | nil => exact .refl
  | append_singleton log e ih =>
    exact .append (ih fun e' he' => h e' (List.mem_append_left _ he'))
      (h e (List.mem_append_right _ (List.mem_singleton.mpr rfl)))

theorem trans {log'' : List α} (h : Grows q log log') (h' : Grows q log' log'') : Grows q log log'' := by
  induction h' with
  | refl => exact h
  | append _ he ih => exact .append ih he

theorem mono {q' : α → Bool} (h : Grows q log log') (hq : ∀ e, q e = true → q' e = true) :
    Grows q' log log' := by
  induction h with
  | refl => exact .refl
  | append _ he ih => exact .append ih (hq _ he)

/-- An entry is an old one, or of the kind that was added. -/
theorem mem (h : Grows q log log') : e ∈ log' → e ∈ log ∨ q e = true := by
  induction h with
  | refl => exact .inl
  | append _ hq ih =>
    intro he
    rcases List.mem_append.mp he with he | he
    · exact ih he
    · rw [List.mem_singleton.mp he]; exact .inr hq

/-- The entries that were added. -/
theorem exists_append (h : Grows q log log') : ∃ es, log' = log ++ es ∧ ∀ e ∈ es, q e = true := by
  induction h with
  | refl => exact ⟨[], (List.append_nil log).symm, by simp⟩
  | @append log' e _ he ih =>
    obtain ⟨es, rfl, hes⟩ := ih
    refine ⟨es ++ [e], List.append_assoc log es [e], fun e' he' => ?_⟩
    rcases List.mem_append.mp he' with he' | he'
    · exact hes e' he'
    · rw [List.mem_singleton.mp he']; exact he

theorem subset (h : Grows q log log') : log ⊆ log' := by
  induction h with
  | refl => exact List.Subset.refl _
  | append _ _ ih => exact fun _ he => List.mem_append_left _ (ih he)

/-- The last entry of another kind is the one that it was. -/
theorem lastOf_eq (h : Grows q log log') (hq : ∀ e, q e = true → p e = false) :
    lastOf p log' = lastOf p log := by
  induction h with
  | refl => rfl
  | append _ he ih => rw [lastOf_append, if_neg (by simp [hq _ he]), ih]

/-- An entry of another kind is an old one. -/
theorem exists_iff (h : Grows q log log') (hq : ∀ e, q e = true → p e = false) :
    (∃ e ∈ log', p e = true) ↔ ∃ e ∈ log, p e = true := by
  constructor
  · rintro ⟨e, he, hp⟩
    refine ⟨e, (h.mem he).resolve_right fun hqe => ?_, hp⟩
    simp [hq e hqe] at hp
  · rintro ⟨e, he, hp⟩
    exact ⟨e, h.subset he, hp⟩

/-- What a projection drops does not show. -/
theorem filterMap_eq {β : Type*} {f : α → Option β} (h : Grows q log log')
    (hq : ∀ e, q e = true → f e = none) : log'.filterMap f = log.filterMap f := by
  induction h with
  | refl => rfl
  | append _ he ih => rw [List.filterMap_append, ih]; simp [hq _ he]

end Grows

/-- After an entry of one kind there is none of another. -/
def NoneAfter (p q : α → Bool) (log : List α) : Prop :=
  log.Pairwise fun e e' => p e = true → q e' = false

namespace NoneAfter

@[simp] theorem nil : NoneAfter p q [] := List.Pairwise.nil

theorem append_iff : NoneAfter p q (log ++ [e]) ↔
    NoneAfter p q log ∧ (q e = true → ∀ e' ∈ log, p e' = false) := by
  rw [NoneAfter, List.pairwise_append, NoneAfter]
  constructor
  · rintro ⟨h, -, hlast⟩
    refine ⟨h, fun hq e' he' => ?_⟩
    by_contra hp
    have hnq := hlast e' he' e (List.mem_singleton.mpr rfl) (by simpa using hp)
    rw [hq] at hnq
    cases hnq
  · rintro ⟨h, hlast⟩
    refine ⟨h, List.pairwise_singleton _ _, fun e' he' e'' he'' hp => ?_⟩
    rw [List.mem_singleton.mp he'']
    by_contra hq
    have hnp := hlast (by simpa using hq) e' he'
    rw [hp] at hnp
    cases hnp

/-- An entry of another kind. -/
theorem append (h : NoneAfter p q log) (he : q e = false) : NoneAfter p q (log ++ [e]) :=
  append_iff.mpr ⟨h, fun hq => absurd (he.symm.trans hq) (by decide)⟩

theorem grows {q' : α → Bool} (h : NoneAfter p q log) (hg : Grows q' log log')
    (hq : ∀ e, q' e = true → q e = false) : NoneAfter p q log' := by
  induction hg with
  | refl => exact h
  | append _ he ih => exact ih.append (hq _ he)

end NoneAfter

/-- At each entry of a kind, the log up to it has the property `Q`. -/
def AtEach (p : α → Bool) (Q : List α → Prop) (log : List α) : Prop :=
  ∀ i, ∀ hi : i < log.length, p log[i] = true → Q (log.take i)

namespace AtEach

variable {Q : List α → Prop}

instance [DecidablePred Q] : Decidable (AtEach p Q log) :=
  inferInstanceAs (Decidable (∀ i, ∀ _ : i < _, _))

@[simp] theorem nil : AtEach p Q [] := fun _ hi => absurd hi (Nat.not_lt_zero _)

theorem append_iff : AtEach p Q (log ++ [e]) ↔ AtEach p Q log ∧ (p e = true → Q log) := by
  constructor
  · intro h
    constructor
    · intro i hi hp
      have hlt : i < (log ++ [e]).length := by
        rw [List.length_append]
        omega
      have hQ := h i hlt (by rwa [List.getElem_append_left hi])
      rwa [List.take_append_of_le_length (Nat.le_of_lt hi)] at hQ
    · intro hp
      have hQ := h log.length (by simp) (by simpa using hp)
      rwa [List.take_left] at hQ
  · rintro ⟨h, hlast⟩ i hi hp
    rcases Nat.lt_or_ge i log.length with hlt | hge
    · rw [List.getElem_append_left hlt] at hp
      rw [List.take_append_of_le_length (Nat.le_of_lt hlt)]
      exact h i hlt hp
    · have hlen : i = log.length := by
        rw [List.length_append, List.length_singleton] at hi
        omega
      subst hlen
      rw [List.take_left]
      exact hlast (by simpa using hp)

/-- An entry of another kind. -/
theorem append (h : AtEach p Q log) (he : p e = false) : AtEach p Q (log ++ [e]) :=
  append_iff.mpr ⟨h, fun hp => absurd (he.symm.trans hp) (by decide)⟩

theorem grows {q' : α → Bool} (h : AtEach p Q log) (hg : Grows q' log log')
    (hq : ∀ e, q' e = true → p e = false) : AtEach p Q log' := by
  induction hg with
  | refl => exact h
  | append _ hp ih => exact ih.append (hq _ hp)

end AtEach

end SocketsCpp.Library
