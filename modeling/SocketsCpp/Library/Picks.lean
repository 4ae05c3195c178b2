import Mathlib.Data.List.Perm.Subperm
import Mathlib.Data.List.Nodup
import Mathlib.Tactic.Common

/-!
# Picking from a script

What was ever sent is a script, and a reader is given entries of it, each by its place: some not at all, some more
than once, and in any order.

* `picked` — what the reader was given.
* `picked_subperm` — where no place is picked twice, no entry is had more often than it was sent.
* `picked_sublist` — where the places are in order, what was picked is in the order of the script.
-/

namespace SocketsCpp.Library

universe u v

variable {β : Type u} {γ : Type v} {script : List β} {ks : List ℕ}

/-- The entries of a script at the places `ks`. -/
def picked (script : List β) (ks : List ℕ) : List β := ks.filterMap (script[·]?)

/-- What is read from the entries picked, one by one. -/
theorem filterMap_picked {f : β → Option γ} {xs : List (ℕ × γ)}
    (h : ∀ x ∈ xs, (script[x.1]?).bind f = some x.2) :
    (picked script (xs.map Prod.fst)).filterMap f = xs.map Prod.snd := by
  rw [picked, List.filterMap_filterMap, List.filterMap_map, ← List.filterMap_eq_map]
  exact List.filterMap_congr h

/-- The picks, as places of the script. -/
def places (script : List β) (ks : List ℕ) : List (Fin script.length) :=
  ks.filterMap fun k => if h : k < script.length then some ⟨k, h⟩ else none

theorem picked_eq_map (script : List β) (ks : List ℕ) : picked script ks = (places script ks).map script.get := by
  rw [places, List.map_filterMap]
  apply List.filterMap_congr
  intro k _
  by_cases hk : k < script.length <;> simp [hk]

theorem subperm_filterMap (f : β → Option γ) {l l' : List β} (h : l.Subperm l') :
    (l.filterMap f).Subperm (l'.filterMap f) := by
  obtain ⟨t, hperm, hsub⟩ := h
  exact ⟨t.filterMap f, hperm.filterMap f, hsub.filterMap f⟩

/-- **No entry is picked more often than it was sent**, if no place is picked twice. -/
theorem picked_subperm (h : ks.Nodup) : (picked script ks).Subperm script := by
  have hplaces : (places script ks).Nodup := by
    refine h.filterMap fun j k a hj hk => ?_
    simp only [Option.mem_def, Option.dite_none_right_eq_some, Option.some.injEq] at hj hk
    obtain ⟨_, rfl⟩ := hj
    obtain ⟨_, heq⟩ := hk
    exact (Fin.mk.inj heq).symm
  have hsub := subperm_filterMap (some ∘ script.get) (hplaces.subperm fun k _ => List.mem_finRange k)
  rw [List.filterMap_eq_map] at hsub
  rwa [List.map_get_finRange, ← picked_eq_map] at hsub

/-- **The entries are picked in the order of the script**, if the places are. -/
theorem picked_sublist (h : ks.Pairwise (· < ·)) : (picked script ks).Sublist script := by
  have hplaces : (places script ks).Pairwise (· < ·) := by
    refine h.filterMap _ fun j k hjk a ha b hb => ?_
    simp only [Option.dite_none_right_eq_some, Option.some.injEq] at ha hb
    obtain ⟨_, rfl⟩ := ha
    obtain ⟨_, rfl⟩ := hb
    exact hjk
  rw [picked_eq_map]
  exact List.map_getElem_sublist hplaces

end SocketsCpp.Library
