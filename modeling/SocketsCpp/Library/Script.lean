import SocketsCpp.Library.EarlyExit
import SocketsCpp.Library.Machine

/-!
# Scripts

A script is a list of instructions that are performed one after the other, each with an answer from outside,
until one of them fails.

* `Script.performed` — the instructions that are performed, with their answers.
* `Script.Passes` — a script is performed to its end, and there is an answer to go on with.
* `performed_of_passes` and `performed_of_not_passes` — what is performed of two scripts in a row.
* `Script.result` — what the instructions performed do to a state, and `result_invariant`, what they keep.
* `result_of_run` — a machine that performs a script step by step does what the script does.
-/

namespace SocketsCpp.Library.Script

universe u v w

variable {ι : Type u} {β : Type v} {τ : Type w}

section

variable (fails : ι → β → Bool)

/-- The instructions that are performed, the one that fails included. -/
def performed (is : List ι) (bs : List β) : List (ι × β) :=
  untilFailure (fun p => !fails p.1 p.2) (is.zip bs)

/-- No instruction fails, and there is one more answer. -/
def Passes (is : List ι) (bs : List β) : Prop :=
  is.length < bs.length ∧ ∀ p ∈ is.zip bs, fails p.1 p.2 = false

instance (is : List ι) (bs : List β) : Decidable (Passes fails is bs) :=
  inferInstanceAs (Decidable (_ ∧ _))

end

variable {fails : ι → β → Bool} {is js : List ι} {bs : List β}

theorem mem_of_mem_performed {p : ι × β} (h : p ∈ performed fails is bs) : p.1 ∈ is :=
  (List.of_mem_zip (mem_of_mem_untilFailure h)).1

theorem performed_cons {i : ι} {b : β} : performed fails (i :: is) (b :: bs) =
    (i, b) :: if fails i b then [] else performed fails is bs := by
  unfold performed
  rw [List.zip_cons_cons, untilFailure]
  cases fails i b <;> rfl

/-- What is performed after a script that passes. -/
theorem performed_of_passes (h : Passes fails is bs) : performed fails (is ++ js) bs =
    is.zip bs ++ performed fails js (bs.drop is.length) := by
  induction is generalizing bs with
  | nil => rfl
  | cons i is ih =>
    cases bs with
    | nil => exact absurd h.1 (Nat.not_lt_zero _)
    | cons b bs =>
      have hi : fails i b = false := h.2 (i, b) List.mem_cons_self
      have hrest : Passes fails is bs :=
        ⟨Nat.lt_of_succ_lt_succ h.1, fun p hp => h.2 p (List.mem_cons_of_mem _ hp)⟩
      rw [List.cons_append, performed_cons, hi, ih hrest]
      rfl

/-- After a script that does not pass nothing is performed. -/
theorem performed_of_not_passes (h : ¬ Passes fails is bs) : performed fails (is ++ js) bs =
    performed fails is bs := by
  induction is generalizing bs with
  | nil =>
    cases bs with
    | nil => simp [performed]
    | cons b bs => exact absurd ⟨Nat.succ_pos _, fun p hp => absurd hp (by simp)⟩ h
  | cons i is ih =>
    cases bs with
    | nil => rfl
    | cons b bs =>
      rw [List.cons_append, performed_cons, performed_cons]
      cases hi : fails i b with
      | true => rfl
      | false =>
        have hrest : ¬ Passes fails is bs := by
          rintro ⟨hlen, hall⟩
          refine h ⟨Nat.succ_lt_succ hlen, fun p hp => ?_⟩
          rcases List.mem_cons.mp hp with rfl | hp
          · exact hi
          · exact hall p hp
        rw [ih hrest]

/-- The last instruction of a script has its answer. -/
theorem zip_concat {i : ι} (h : is.length < bs.length) : ∃ b, (is ++ [i]).zip bs = is.zip bs ++ [(i, b)] := by
  induction is generalizing bs with
  | nil =>
    cases bs with
    | nil => exact absurd h (Nat.not_lt_zero _)
    | cons b bs => exact ⟨b, rfl⟩
  | cons j is ih =>
    cases bs with
    | nil => exact absurd h (Nat.not_lt_zero _)
    | cons b bs =>
      obtain ⟨b', hb⟩ := ih (Nat.lt_of_succ_lt_succ h)
      exact ⟨b', by rw [List.cons_append, List.zip_cons_cons, hb]; rfl⟩

/-! ### What a script does -/

section

variable (perform : ι → β → τ → τ)

/-- The state after instructions with their answers. -/
def result (ps : List (ι × β)) (x : τ) : τ := ps.foldl (fun x p => perform p.1 p.2 x) x

variable {perform}

theorem result_append (ps qs : List (ι × β)) (x : τ) :
    result perform (ps ++ qs) x = result perform qs (result perform ps x) :=
  List.foldl_append

theorem result_concat (ps : List (ι × β)) (i : ι) (b : β) (x : τ) :
    result perform (ps ++ [(i, b)]) x = perform i b (result perform ps x) :=
  result_append ps [(i, b)] x

/-- **What each instruction keeps is kept.** -/
theorem result_invariant {I : τ → Prop} {ps : List (ι × β)}
    (hstep : ∀ p ∈ ps, ∀ x, I x → I (perform p.1 p.2 x)) {x : τ} (hx : I x) :
    I (result perform ps x) := by
  induction ps generalizing x with
  | nil => exact hx
  | cons p ps ih =>
    exact ih (fun q hq => hstep q (List.mem_cons_of_mem _ hq)) (hstep p List.mem_cons_self x hx)

end

/-! ### Machines that perform a script -/

/-- **A machine that performs a script step by step**: let `At s is` say that the machine is in state `s` with
the instructions `is` left, an action with answer `b` perform the first of them, and the script be over after
an instruction that fails. Then what the machine has done at the end of a run is what the script does. -/
theorem result_of_run {σ : Type*} {α : Type*} (M : Machine σ α) (act : β → α) (view : σ → τ)
    (At : σ → List ι → Prop) {perform : ι → β → τ → τ} (hnil : ∀ {s b}, At s [] → M.step s (act b) = none)
    (hstep : ∀ {s i is b s'}, At s (i :: is) → M.step s (act b) = some s' →
      view s' = perform i b (view s) ∧ At s' (if fails i b then [] else is)) :
    ∀ {bs : List β} {is : List ι} {s s' : σ}, At s is → M.run s (bs.map act) = some s' →
      view s' = result perform (performed fails is bs) (view s)
  | [], is, s, s', _, hr => by
    cases hr
    simp [performed, untilFailure, result]
  | b :: bs, [], s, s', hat, hr => by
    obtain ⟨u, hu, -⟩ := Option.bind_eq_some_iff.mp hr
    rw [hnil hat] at hu
    cases hu
  | b :: bs, i :: is, s, s', hat, hr => by
    obtain ⟨u, hu, hr⟩ := Option.bind_eq_some_iff.mp hr
    obtain ⟨hview, hat⟩ := hstep hat hu
    have ih := result_of_run M act view At hnil hstep hat hr
    rw [performed_cons, ih, hview]
    cases hi : fails i b with
    | true => simp [performed, untilFailure, result]
    | false => rfl

end SocketsCpp.Library.Script
