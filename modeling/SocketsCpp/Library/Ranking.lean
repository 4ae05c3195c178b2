import SocketsCpp.Library.Machine

/-!
# Ranks

A rank bounds how many actions of a kind are still to come, whatever other actions come between: an action
of the kind lowers the rank, and no other action raises it.
-/

namespace SocketsCpp.Library.Machine

universe u v

variable {σ : Type u} {α : Type v} {M : Machine σ α}

/-- **Ranks**: a run has no more actions of a kind than the rank at its start, less that at its end. -/
theorem run_countP_le {ok : σ → α → Prop} {J : σ → Prop} {kind : α → Bool} {rank : σ → ℕ}
    (hJ : ∀ {s a s'}, J s → ok s a → M.step s a = some s' → J s')
    (hkind : ∀ {s a s'}, J s → ok s a → M.step s a = some s' → kind a = true → rank s' < rank s)
    (hother : ∀ {s a s'}, J s → ok s a → M.step s a = some s' → kind a = false → rank s' ≤ rank s) :
    ∀ {as : List α} {s s' : σ}, J s → M.Guarded ok s as → M.run s as = some s' →
      as.countP kind + rank s' ≤ rank s := by
  intro as
  induction as with
  | nil =>
    intro s s' _ _ hr
    cases hr
    simp
  | cons a as ih =>
    intro s s' hj hg hr
    obtain ⟨u, hu, hr⟩ := Option.bind_eq_some_iff.mp hr
    have hrest := ih (hJ hj hg.1 hu) (hg.2 u hu) hr
    rw [List.countP_cons]
    cases hk : kind a with
    | true =>
      have hlt := hkind hj hg.1 hu hk
      simp only [if_true]
      omega
    | false =>
      have hle := hother hj hg.1 hu hk
      simp only [Bool.false_eq_true, if_false]
      omega

end SocketsCpp.Library.Machine
