import Mathlib.Data.List.Basic
import Mathlib.Tactic.Common

/-!
# Command lines

What the words of a command line say. Options are single characters that follow a dash, several of them
in one word if they like; the argument of an option is the rest of its word, or the next word. A word that
is no option ends the options, and so does a word of two dashes, which is skipped.

* `scan` — what the characters of a word say after the dash.
* `parse` — what a list of words says, and the operands that are left.
* `Cluster.write` — a way to write options down, and `parse_write`: they are read back as written.
-/

namespace SocketsCpp.Library.CommandLine

universe u

/-- Whether an option has an argument. -/
inductive Arity where
  /-- It has none. -/
  | flag
  /-- It has one. -/
  | required
  /-- It may have one, in its own word. -/
  | optional
  deriving DecidableEq

/-- What a part of a command line says. -/
inductive Token (α : Type u) where
  /-- The option, with its argument. -/
  | option (name : α) (arg : Option (List α))
  /-- There is no such option. -/
  | unknown (name : α)
  /-- The argument of the option is missing. -/
  | missing (name : α)
  deriving DecidableEq

variable {α : Type u}

section

variable (arity : α → Option Arity)

/-- What the characters of a word say, and the option whose argument is the next word. -/
def scan : List α → List (Token α) × Option α
  | [] => ([], none)
  | c :: cs =>
      match arity c with
      | none => (.unknown c :: (scan cs).1, (scan cs).2)
      | some .flag => (.option c none :: (scan cs).1, (scan cs).2)
      | some .optional => ([.option c (if cs.isEmpty then none else some cs)], none)
      | some .required => if cs.isEmpty then ([], some c) else ([.option c (some cs)], none)

variable [DecidableEq α] (dash : α)

/-- The characters of a word that holds options. -/
def chars : List α → Option (List α)
  | [] => none
  | c :: cs => if c = dash ∧ ¬ cs.isEmpty ∧ cs ≠ [dash] then some cs else none

/-- What the words say, and the operands; the first word is the argument of an option if one waits for it. -/
def parse : Option α → List (List α) → List (Token α) × List (List α)
  | some c, [] => ([.missing c], [])
  | some c, w :: ws => (.option c (some w) :: (parse none ws).1, (parse none ws).2)
  | none, [] => ([], [])
  | none, w :: ws =>
      if w = [dash, dash] then ([], ws)
      else match chars dash w with
        | none => ([], w :: ws)
        | some cs => ((scan arity cs).1 ++ (parse (scan arity cs).2 ws).1, (parse (scan arity cs).2 ws).2)

/-! ### Writing -/

/-- The options of one word: flags, and then an option that may have an argument. -/
structure Cluster (α : Type u) where
  /-- The flags. -/
  flags : List α
  /-- The option after them. -/
  name : α
  /-- Its argument. -/
  arg : Option (List α)
  /-- The argument is in the same word. -/
  attached : Bool

/-- What the options say. -/
def Cluster.tokens (g : Cluster α) : List (Token α) := g.flags.map (.option · none) ++ [.option g.name g.arg]

/-- The words. -/
def Cluster.write (g : Cluster α) : List (List α) :=
  if g.attached then [dash :: (g.flags ++ g.name :: g.arg.getD [])]
  else (dash :: (g.flags ++ [g.name])) :: g.arg.toList

/-- The options are written as their arities allow. -/
structure Cluster.Fits (g : Cluster α) : Prop where
  /-- The flags have no arguments. -/
  flags : ∀ c ∈ g.flags, arity c = some .flag
  /-- The option has an argument if it must, and none if it must not; and an argument is in the same word if
  it has to be, and is not if it is empty. -/
  name : match arity g.name with
    | some .flag => g.arg = none
    | some .required => ∃ a, g.arg = some a ∧ (g.attached = true → a ≠ [])
    | some .optional => g.arg ≠ some [] ∧ (g.arg ≠ none → g.attached = true)
    | none => False
  /-- No option is a dash. -/
  dash : g.name ≠ dash ∧ dash ∉ g.flags

end

variable {arity : α → Option Arity} {dash : α}

/-- Flags, and then other options. -/
theorem scan_flags {flags : List α} (h : ∀ c ∈ flags, arity c = some .flag) (cs : List α) :
    scan arity (flags ++ cs) = (flags.map (.option · none) ++ (scan arity cs).1, (scan arity cs).2) := by
  induction flags with
  | nil => rfl
  | cons c flags ih =>
    have hc := h c List.mem_cons_self
    have ih := ih fun c' hc' => h c' (List.mem_cons_of_mem _ hc')
    rw [List.cons_append, scan, hc, ih]
    rfl

variable [DecidableEq α]

theorem parse_word {w cs : List α} (h : chars dash w = some cs) (ws : List (List α)) :
    parse arity dash none (w :: ws) =
      ((scan arity cs).1 ++ (parse arity dash (scan arity cs).2 ws).1,
        (parse arity dash (scan arity cs).2 ws).2) := by
  have hne : w ≠ [dash, dash] := by
    rintro rfl
    simp [chars] at h
  rw [parse, if_neg hne, h]

/-- A word of options other than dashes. -/
theorem chars_cons {cs : List α} (hne : cs ≠ []) (hd : dash ∉ cs.take 1) : chars dash (dash :: cs) = some cs := by
  cases cs with
  | nil => exact absurd rfl hne
  | cons c cs =>
    have hc : c ≠ dash := by
      rintro rfl
      exact hd (by simp)
    simp [chars, hc]

/-- A cluster is read back. -/
theorem parse_cluster {g : Cluster α} (h : g.Fits arity dash) (ws : List (List α)) :
    parse arity dash none (g.write dash ++ ws) =
      (g.tokens ++ (parse arity dash none ws).1, (parse arity dash none ws).2) := by
  have hchars : ∀ rest, chars dash (dash :: (g.flags ++ g.name :: rest)) = some (g.flags ++ g.name :: rest) := by
    intro rest
    refine chars_cons (by simp) ?_
    cases hf : g.flags with
    | nil => simpa using Ne.symm h.dash.1
    | cons c flags =>
      have hd := h.dash.2
      rw [hf] at hd
      simp only [List.mem_cons, not_or] at hd
      simpa using hd.1
  have hscan := fun rest => scan_flags h.flags (g.name :: rest)
  have hname := h.name
  unfold Cluster.write Cluster.tokens
  cases ha : arity g.name with
  | none => simp [ha] at hname
  | some k =>
    cases k with
    | flag =>
      simp only [ha] at hname
      split <;> simp [hname, parse_word (hchars []), hscan, scan, ha]
    | required =>
      simp only [ha] at hname
      obtain ⟨a, harg, hempty⟩ := hname
      split
      · next hat =>
        simp [harg, parse_word (hchars a), hscan, scan, ha, hempty hat]
      · simp [harg, parse_word (hchars []), hscan, scan, ha, parse]
    | optional =>
      simp only [ha] at hname
      obtain ⟨hempty, hattached⟩ := hname
      cases harg : g.arg with
      | none => split <;> simp [parse_word (hchars []), hscan, scan, ha]
      | some a =>
        have hat := hattached (by simp [harg])
        have hne : a ≠ [] := by
          rintro rfl
          exact hempty harg
        simp [hat, parse_word (hchars a), hscan, scan, ha, hne]

/-- **Options are read back as they were written.** -/
theorem parse_write {gs : List (Cluster α)} (h : ∀ g ∈ gs, g.Fits arity dash) (ws : List (List α)) :
    parse arity dash none (gs.flatMap (Cluster.write dash) ++ ws) =
      (gs.flatMap Cluster.tokens ++ (parse arity dash none ws).1, (parse arity dash none ws).2) := by
  induction gs with
  | nil => rfl
  | cons g gs ih =>
    have ih := ih fun g' hg' => h g' (List.mem_cons_of_mem _ hg')
    rw [List.flatMap_cons, List.append_assoc, parse_cluster (h g List.mem_cons_self), ih, List.flatMap_cons,
      List.append_assoc]

end SocketsCpp.Library.CommandLine
