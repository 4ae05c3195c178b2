import Mathlib.Computability.Language

/-!
# Sessions

Words made of sessions that follow each other, each with an opening symbol, any number of
symbols inside, and a closing symbol.

* `Sessions.language` — the words all of whose sessions are closed.
* `Sessions.Word` — the words of which the last session may be open, as they grow one
  symbol at a time.
* `Word.extends` — such a word is the beginning of a word of the language.
-/

namespace SocketsCpp.Library

open Computability

universe u

/-- What opens a session, what is inside, and what closes it. -/
structure Sessions (σ : Type u) where
  /-- The symbols that open a session. -/
  opens : σ → Prop
  /-- The symbols inside a session. -/
  continues : σ → Prop
  /-- The symbols that close a session. -/
  closes : σ → Prop

namespace Sessions

variable {σ : Type u}

/-- The words of one symbol with a property. -/
def one (p : σ → Prop) : Language σ := { w | ∃ a, p a ∧ w = [a] }

/-- A session that is not closed. -/
def beginning (G : Sessions σ) : Language σ := one G.opens * (one G.continues)∗

/-- Sessions that follow each other. -/
def language (G : Sessions σ) : Language σ := (G.beginning * one G.closes)∗

/-- A word of sessions of which the last may be open, or not. -/
inductive Word (G : Sessions σ) : Bool → List σ → Prop where
  /-- No session. -/
  | nil : Word G false []
  /-- A session is opened. -/
  | opened {w : List σ} {a : σ} : Word G false w → G.opens a → Word G true (w ++ [a])
  /-- A session goes on. -/
  | continued {w : List σ} {a : σ} : Word G true w → G.continues a → Word G true (w ++ [a])
  /-- A session is closed. -/
  | closed {w : List σ} {a : σ} : Word G true w → G.closes a → Word G false (w ++ [a])

variable {G : Sessions σ}

theorem singleton_mem_one {p : σ → Prop} {a : σ} (h : p a) : [a] ∈ one p := ⟨a, h, rfl⟩

theorem kstar_append {L : Language σ} {u v : List σ} (hu : u ∈ L∗) (hv : v ∈ L) : u ++ v ∈ L∗ := by
  obtain ⟨us, rfl, hus⟩ := Language.mem_kstar.mp hu
  refine Language.mem_kstar.mpr ⟨us ++ [v], by simp, fun y hy => ?_⟩
  rcases List.mem_append.mp hy with hy | hy
  · exact hus y hy
  · rw [List.mem_singleton.mp hy]; exact hv

theorem beginning_append {v : List σ} {a : σ} (hv : v ∈ G.beginning) (ha : G.continues a) :
    v ++ [a] ∈ G.beginning := by
  obtain ⟨o, ho, m, hm, rfl⟩ := Language.mem_mul.mp hv
  exact Language.mem_mul.mpr ⟨o, ho, m ++ [a], kstar_append hm (singleton_mem_one ha), by simp⟩

theorem language_append {u v : List σ} {a : σ} (hu : u ∈ G.language) (hv : v ∈ G.beginning)
    (ha : G.closes a) : u ++ (v ++ [a]) ∈ G.language :=
  kstar_append hu (Language.append_mem_mul hv (singleton_mem_one ha))

/-- A word with the last session closed is in the language; one with the last session open is a
word of the language followed by the beginning of a session. -/
theorem Word.split {b : Bool} {w : List σ} (h : G.Word b w) :
    match b with
    | false => w ∈ G.language
    | true => ∃ u ∈ G.language, ∃ v ∈ G.beginning, w = u ++ v := by
  induction h with
  | nil => exact Language.nil_mem_kstar _
  | @opened w a _ ha ih =>
    exact ⟨w, ih, [a], Language.mem_mul.mpr ⟨[a], singleton_mem_one ha, [], Language.nil_mem_kstar _,
      by simp⟩, rfl⟩
  | @continued w a _ ha ih =>
    obtain ⟨u, hu, v, hv, rfl⟩ := ih
    exact ⟨u, hu, v ++ [a], beginning_append hv ha, by simp⟩
  | @closed w a _ ha ih =>
    obtain ⟨u, hu, v, hv, rfl⟩ := ih
    simpa using language_append hu hv ha

/-- **A word of sessions is the beginning of a word of the language.** -/
theorem Word.extends {b : Bool} {w : List σ} (h : G.Word b w) {z : σ} (hz : G.closes z) :
    ∃ u, w ++ u ∈ G.language := by
  have hs := h.split
  cases b with
  | false => exact ⟨[], by simpa using hs⟩
  | true =>
    obtain ⟨u, hu, v, hv, rfl⟩ := hs
    exact ⟨[z], by rw [List.append_assoc]; exact language_append hu hv hz⟩

end Sessions

end SocketsCpp.Library
