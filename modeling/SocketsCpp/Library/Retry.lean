import Mathlib.Data.List.Basic
import Mathlib.Tactic.Common

/-!
# Retrying

A sender makes attempts at sending messages. It repeats each message until an attempt is reported to
have sent it, and then goes on to the next.

* `Repeats` — the attempts of such a sender.
* `Repeats.flatten_eq_iff` — if an attempt that is reported to succeed puts the whole message into the
  stream, the stream is that of the messages exactly if the attempts that are reported to fail put
  nothing into it.
-/

namespace SocketsCpp.Library

universe u v

variable {τ : Type u} {α : Type v}

/-- Each of the messages is repeated until it is reported to be sent. -/
inductive Repeats (msg : τ → List α) (reports : τ → Bool) : List (List α) → List τ → Prop where
  /-- No message is left. -/
  | nil : Repeats msg reports [] []
  /-- The attempt fails, and is repeated. -/
  | again {t : τ} {ts : List τ} {msgs : List (List α)} : reports t = false →
      Repeats msg reports (msg t :: msgs) ts → Repeats msg reports (msg t :: msgs) (t :: ts)
  /-- The attempt succeeds. -/
  | next {t : τ} {ts : List τ} {msgs : List (List α)} : reports t = true →
      Repeats msg reports msgs ts → Repeats msg reports (msg t :: msgs) (t :: ts)

namespace Repeats

variable {msg part : τ → List α} {reports : τ → Bool} {msgs : List (List α)} {ts : List τ}

/-- The stream is longer than the messages by what the attempts that fail put into it. -/
theorem length_flatten (h : Repeats msg reports msgs ts)
    (hw : ∀ t ∈ ts, reports t = true → part t = msg t) :
    (ts.map part).flatten.length =
      msgs.flatten.length + ((ts.filter fun t => !reports t).map part).flatten.length := by
  induction h with
  | nil => rfl
  | again hr _ ih =>
    have ih := ih fun t ht => hw t (List.mem_cons_of_mem _ ht)
    simp only [List.map_cons, List.flatten_cons, List.length_append] at ih ⊢
    rw [List.filter_cons_of_pos (by simp [hr]), List.map_cons, List.flatten_cons, List.length_append, ih]
    omega
  | next hr _ ih =>
    have ih := ih fun t ht => hw t (List.mem_cons_of_mem _ ht)
    simp only [List.map_cons, List.flatten_cons, List.length_append] at ih ⊢
    rw [List.filter_cons_of_neg (by simp [hr]), ih, hw _ List.mem_cons_self hr]
    omega

/-- **The stream is that of the messages** exactly if what fails puts nothing into it. -/
theorem flatten_eq_iff (h : Repeats msg reports msgs ts)
    (hw : ∀ t ∈ ts, reports t = true → part t = msg t) :
    (ts.map part).flatten = msgs.flatten ↔ ∀ t ∈ ts, reports t = false → part t = [] := by
  constructor
  · intro he t ht hr
    have hlen := h.length_flatten hw
    rw [he] at hlen
    have hzero : ((ts.filter fun t => !reports t).map part).flatten = [] :=
      List.length_eq_zero_iff.mp (by omega)
    rw [List.flatten_eq_nil_iff] at hzero
    exact hzero _ (List.mem_map_of_mem (List.mem_filter.mpr ⟨ht, by simp [hr]⟩))
  · intro hnone
    induction h with
    | nil => rfl
    | @again t ts msgs hr _ ih =>
      have ih := ih (fun t ht => hw t (List.mem_cons_of_mem _ ht))
        fun t ht => hnone t (List.mem_cons_of_mem _ ht)
      rw [List.map_cons, List.flatten_cons, hnone t List.mem_cons_self hr, ih, List.nil_append]
    | @next t ts msgs hr _ ih =>
      have ih := ih (fun t ht => hw t (List.mem_cons_of_mem _ ht))
        fun t ht => hnone t (List.mem_cons_of_mem _ ht)
      rw [List.map_cons, List.flatten_cons, hw t List.mem_cons_self hr, ih, List.flatten_cons]

end Repeats

end SocketsCpp.Library
