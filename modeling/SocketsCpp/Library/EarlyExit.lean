import Mathlib.Data.List.Infix
import Mathlib.Data.List.Perm.Subperm
import Mathlib.Tactic.Common

/-!
# Early exits

A loop over a list that ends at the first element that fails.

* `untilFailure` — the elements that the loop visits, the one that fails included.
* `untilFailure_eq_self_iff` — the loop visits the whole list exactly if no element but the last fails.
-/

namespace SocketsCpp.Library

universe u

variable {α : Type u} {ok : α → Bool} {l : List α}

/-- The elements up to the first that fails. -/
def untilFailure (ok : α → Bool) : List α → List α
  | [] => []
  | a :: l => if ok a then a :: untilFailure ok l else [a]

theorem untilFailure_isPrefix_self (ok : α → Bool) : ∀ l : List α, untilFailure ok l <+: l
  | [] => List.prefix_rfl
  | a :: l => by
    unfold untilFailure
    split
    · exact List.prefix_cons_inj a |>.mpr (untilFailure_isPrefix_self ok l)
    · exact ⟨l, rfl⟩

theorem mem_of_mem_untilFailure {a : α} (h : a ∈ untilFailure ok l) : a ∈ l :=
  (untilFailure_isPrefix_self ok l).subset h

theorem nodup_untilFailure (h : l.Nodup) : (untilFailure ok l).Nodup :=
  h.sublist (untilFailure_isPrefix_self ok l).sublist

/-- **The whole list is visited** exactly if no element but the last fails. -/
theorem untilFailure_eq_self_iff : untilFailure ok l = l ↔ ∀ a ∈ l.dropLast, ok a = true := by
  induction l with
  | nil => simp [untilFailure]
  | cons a l ih =>
    cases l with
    | nil => simp [untilFailure]
    | cons b l =>
      rw [List.dropLast_cons_of_ne_nil (List.cons_ne_nil b l), List.forall_mem_cons, ← ih]
      cases ha : ok a with
      | false => simp [untilFailure, ha]
      | true => simp [untilFailure, ha]

/-- If none fails the whole list is visited. -/
theorem untilFailure_of_forall (h : ∀ a ∈ l, ok a = true) : untilFailure ok l = l :=
  untilFailure_eq_self_iff.mpr fun a ha => h a (List.mem_of_mem_dropLast ha)

/-- The whole list is visited if each element is, no two being the same. -/
theorem untilFailure_eq_self_iff_mem (hl : l.Nodup) :
    untilFailure ok l = l ↔ ∀ a ∈ l, a ∈ untilFailure ok l := by
  constructor
  · intro h a ha
    rwa [h]
  · intro h
    exact (untilFailure_isPrefix_self ok l).eq_of_length_le (List.subperm_of_subset hl h).length_le

end SocketsCpp.Library
