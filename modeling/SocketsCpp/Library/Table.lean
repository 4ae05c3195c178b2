import Mathlib.Data.List.AList

/-!
# Tables

The library's association lists lack a map over the values, as when records of a
table are changed in place: `mapValues` keeps the keys and their order, and changes
each value.
-/

namespace SocketsCpp.Library

universe u v

variable {α : Type u} {β : α → Type v}

/-- Change each value of a table, with the key it is stored under. -/
def mapValues (f : ∀ a, β a → β a) (t : AList β) : AList β where
  entries := t.entries.map (.map id f)
  nodupKeys := by
    have h : (t.entries.map (Sigma.map id f)).keys = t.entries.keys := by
      simp [List.keys, Function.comp_def, Sigma.map]
    rw [List.NodupKeys, h]
    exact t.nodupKeys

@[simp] theorem keys_mapValues (f : ∀ a, β a → β a) (t : AList β) :
    (mapValues f t).keys = t.keys := by
  simp [AList.keys, mapValues, List.keys, Function.comp_def, Sigma.map]

@[simp] theorem mem_mapValues {f : ∀ a, β a → β a} {t : AList β} {a : α} :
    a ∈ mapValues f t ↔ a ∈ t := by
  rw [AList.mem_keys, keys_mapValues, AList.mem_keys]

@[simp] theorem lookup_mapValues [DecidableEq α] (f : ∀ a, β a → β a) (t : AList β) (a : α) :
    (mapValues f t).lookup a = (t.lookup a).map (f a) :=
  List.dlookup_map₂ a

theorem lookup_eq_some_of_mem [DecidableEq α] {t : AList β} {a : α} (h : a ∈ t) :
    ∃ b, t.lookup a = some b :=
  Option.isSome_iff_exists.mp (AList.lookup_isSome.mpr h)

theorem mem_of_lookup [DecidableEq α] {t : AList β} {a : α} {b : β a} (h : t.lookup a = some b) :
    a ∈ t :=
  AList.lookup_isSome.mp (Option.isSome_iff_exists.mpr ⟨b, h⟩)

theorem lookup_erase_eq [DecidableEq α] {t : AList β} {a a' : α} {b : β a} :
    (t.erase a').lookup a = some b ↔ a ≠ a' ∧ t.lookup a = some b := by
  by_cases h : a = a'
  · subst h; simp
  · simp [h]

end SocketsCpp.Library
