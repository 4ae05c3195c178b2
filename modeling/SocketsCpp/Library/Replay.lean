import Mathlib.Tactic.Common

/-!
# Replaying a history

An object that is used by one caller at a time, as a specification of one that is used by many. `answers s e`
says that the object in state `s` answers the operation `e` of a history as the history reports it, and `after s e`
is the object after that operation. The object can replay a history if it answers every operation as reported.
-/

namespace SocketsCpp.Library

universe u v

variable {σ : Type u} {ε : Type v}

/-- The operations of a history, one after the other, are answered as reported, and lead from `s₀` to `s`. -/
inductive Replays (answers : σ → ε → Prop) (after : σ → ε → σ) (s₀ : σ) : List ε → σ → Prop where
  /-- No operation. -/
  | nil : Replays answers after s₀ [] s₀
  /-- One more operation. -/
  | append {h : List ε} {s : σ} {e : ε} : Replays answers after s₀ h s → answers s e →
      Replays answers after s₀ (h ++ [e]) (after s e)

namespace Replays

variable {answers : σ → ε → Prop} {after : σ → ε → σ} {s₀ s s' : σ} {h : List ε}

/-- Nothing is done. -/
theorem move (hi : Replays answers after s₀ h s) (hs : s' = s) :
    Replays answers after s₀ (h ++ (none : Option ε).toList) s' := by
  rw [hs, Option.toList_none, List.append_nil]
  exact hi

/-- An operation is answered. -/
theorem answer {e : ε} (hi : Replays answers after s₀ h s) (he : answers s e) (hs : s' = after s e) :
    Replays answers after s₀ (h ++ (some e).toList) s' := by
  rw [hs, Option.toList_some]
  exact .append hi he

end Replays

end SocketsCpp.Library
