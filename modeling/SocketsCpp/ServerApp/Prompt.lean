import SocketsCpp.Getopt
import SocketsCpp.Numerals

/-!
# The prompt of the server application

The loop at the end of `main` of `serverApp.cpp`, which reads lines: each is `B` or the handle of a client, and a
message.

* `prompt` — the loop over the lines: the calls of `sendMsg`, and how it ends.
* `prompt_sends_iff` — the messages are sent as they were typed exactly if each handle is a single digit, since
  `main` takes the message to begin at the third character.
* `prompt_ends` — the loop ends at `quit`, or at a line that has no third character.
-/

namespace SocketsCpp.ServerApp

open SocketsCpp.Getopt (Str)

/-! ### The loop -/

/-- `data.substr(pos)`, if it does not throw. -/
def substr (data : Str) (pos : ℕ) : Option Str := if pos ≤ data.length then some (data.drop pos) else none

/-- The client that a line is for: `0` for all, `none` if `stoi` throws. -/
def idx (data : Str) : Option ℤ := if data.head? = some 'B' ∨ data.head? = some 'b' then some 0 else stoi data

/-- The line that ends the loop. -/
def quit : Str := "quit".toList

/-- How the loop ends. -/
inductive Ending where
  /-- `quit` was typed. -/
  | quit
  /-- `substr` threw, and nobody catches it. -/
  | uncaught
  /-- The input is at its end: `getline` leaves `data` empty from now on, and the loop goes round for ever. -/
  | eof
  deriving DecidableEq

/-- `while (true)`, for the lines that are typed: the calls of `sendMsg`, and how it ends. -/
def prompt : List Str → List (ℤ × Str) × Ending
  | [] => ([], .eof)
  | data :: lines =>
      if data = quit then ([], .quit)
      else match idx data with
        -- `catch (...) { continue; }`
        | none => prompt lines
        | some i => match substr data 2 with
          | some msg => ((i, msg) :: (prompt lines).1, (prompt lines).2)
          | none => ([], .uncaught)

/-! ### What is sent -/

/-- What is typed. -/
inductive Command where
  /-- A message for all. -/
  | all (msg : Str)
  /-- A message for one. -/
  | one (h : ℤ) (msg : Str)

/-- The line that is typed. -/
def Command.write : Command → Str
  | .all msg => 'B' :: ' ' :: msg
  | .one h msg => (toString h).toList ++ ' ' :: msg

/-- The call of `sendMsg` that is meant. -/
def Command.call : Command → ℤ × Str
  | .all msg => (0, msg)
  | .one h msg => (h, msg)

/-- The call that `main` makes: the message begins at the third character. -/
def Command.sent : Command → ℤ × Str
  | .all msg => (0, msg)
  | .one h msg => (h, ((toString h).toList ++ ' ' :: msg).drop 2)

/-- The handle is an `int`. -/
def Command.InRange : Command → Prop
  | .all _ => True
  | .one h _ => INT_MIN ≤ h ∧ h ≤ INT_MAX

/-- The handle is a single digit. -/
def Command.Short : Command → Prop
  | .all _ => True
  | .one h _ => 0 ≤ h ∧ h < 10

theorem Command.sent_eq_call {c : Command} : c.sent = c.call ↔ c.Short := by
  cases c with
  | all msg => exact iff_of_true rfl trivial
  | one h msg =>
    show (_, _) = (_, _) ↔ 0 ≤ h ∧ h < 10
    rw [← numeral_length, Prod.mk.injEq, eq_self_iff_true, true_and]
    constructor
    · intro heq
      have hlen := congrArg List.length heq
      have hpos : 0 < (toString h).toList.length := by
        rw [numeral_eq, List.length_append]
        exact Nat.add_pos_right _ (List.length_pos_iff.mpr Nat.toDigits_ne_nil)
      rw [List.length_drop, List.length_append, List.length_cons] at hlen
      omega
    · intro hlen
      obtain ⟨d, hd⟩ := List.length_eq_one_iff.mp hlen
      rw [hd]
      rfl

/-- A line that is typed makes `main` call `sendMsg`. -/
theorem prompt_cons {c : Command} (hc : c.InRange) (lines : List Str) :
    prompt (c.write :: lines) = (c.sent :: (prompt lines).1, (prompt lines).2) := by
  cases c with
  | all msg => rfl
  | one h msg =>
    have hblank : ∀ x ∈ (' ' :: msg).head?, x.isDigit = false := by simp
    obtain ⟨x, xs, hx, hdigit⟩ : ∃ x xs, (toString h).toList = x :: xs ∧ (x = '-' ∨ x.isDigit = true) := by
      obtain ⟨d, ds, hds⟩ := List.exists_cons_of_ne_nil (Nat.toDigits_ne_nil (n := h.natAbs) (b := 10))
      rw [numeral_eq]
      split
      · exact ⟨_, _, rfl, .inl rfl⟩
      · exact ⟨d, ds, hds, .inr (isDigit_toDigits (by rw [hds]; exact List.mem_cons_self))⟩
    have hne : ∀ y : Char, y ≠ '-' → y.isDigit = false → x ≠ y := by
      rintro y hy hyd rfl
      rcases hdigit with rfl | hd
      · exact hy rfl
      · rw [hyd] at hd
        cases hd
    have hidx : idx ((toString h).toList ++ ' ' :: msg) = some h := by
      have hhead : ((toString h).toList ++ ' ' :: msg).head? = some x := by rw [hx]; rfl
      unfold idx
      rw [hhead, if_neg, stoi_numeral hc.1 hc.2 _ hblank]
      rintro (hB | hb)
      · exact hne 'B' (by decide) (by decide) (Option.some.inj hB)
      · exact hne 'b' (by decide) (by decide) (Option.some.inj hb)
    have hquit : (toString h).toList ++ ' ' :: msg ≠ quit := by
      rw [hx]
      intro heq
      exact hne 'q' (by decide) (by decide) (List.cons.inj heq).1
    have hlen : 2 ≤ ((toString h).toList ++ ' ' :: msg).length := by
      rw [hx, List.length_append, List.length_cons, List.length_cons]
      omega
    show prompt (((toString h).toList ++ ' ' :: msg) :: lines) = _
    rw [prompt, if_neg hquit, hidx]
    simp only [substr, if_pos hlen]
    rfl

theorem prompt_write {cs : List Command} (hcs : ∀ c ∈ cs, c.InRange) (lines : List Str) :
    prompt (cs.map Command.write ++ lines) = (cs.map Command.sent ++ (prompt lines).1, (prompt lines).2) := by
  induction cs with
  | nil => rfl
  | cons c cs ih =>
    have ih := ih fun c' hc' => hcs c' (List.mem_cons_of_mem _ hc')
    rw [List.map_cons, List.cons_append, prompt_cons (hcs c List.mem_cons_self), ih]
    rfl

/-- **What is typed is what is sent, up to nine.** Whatever messages are typed and then `quit`: `main` calls `sendMsg`
once for each, with the client that was typed; and with the messages that were typed if and only if each client
is a single digit. -/
theorem prompt_sends_iff {cs : List Command} (hcs : ∀ c ∈ cs, c.InRange) :
    prompt (cs.map Command.write ++ [quit]) = (cs.map Command.sent, .quit) ∧
      (prompt (cs.map Command.write ++ [quit]) = (cs.map Command.call, .quit) ↔ ∀ c ∈ cs, c.Short) := by
  have hprompt : prompt (cs.map Command.write ++ [quit]) = (cs.map Command.sent, .quit) := by
    rw [prompt_write hcs]
    show (cs.map Command.sent ++ [], Ending.quit) = _
    rw [List.append_nil]
  refine ⟨hprompt, ?_⟩
  rw [hprompt, Prod.mk.injEq, eq_self_iff_true, and_true, List.map_inj_left]
  exact forall₂_congr fun c _ => Command.sent_eq_call

/-- With the clients 9 and 10 the second message begins with a blank. -/
theorem prompt_sends_iff_ten :
    prompt ["9 a".toList, "10 b".toList, quit] = ([(9, "a".toList), (10, " b".toList)], .quit) ∧
      prompt ["9 a".toList, "10 b".toList, quit] ≠ ([(9, "a".toList), (10, "b".toList)], .quit) := by
  have hcs : ∀ c ∈ [Command.one 9 "a".toList, .one 10 "b".toList], c.InRange := by
    simp [Command.InRange, INT_MIN, INT_MAX]
  obtain ⟨hsent, hiff⟩ := prompt_sends_iff hcs
  refine ⟨hsent, fun hcall => ?_⟩
  have hshort : (Command.one 10 "b".toList).Short := hiff.mp hcall _ (by simp)
  exact absurd hshort.2 (by decide)

/-- A line that has a client and no third character. -/
def fatal (data : Str) : Bool :=
  match data with
  | [c] => c = 'B' || c = 'b' || c.isDigit
  | _ => false

theorem fatal_iff {data : Str} : fatal data = true ↔ (idx data).isSome = true ∧ substr data 2 = none := by
  match data with
  | [] => exact iff_of_false (by decide) (by decide)
  | [c] =>
    by_cases hB : c = 'B' ∨ c = 'b'
    · rcases hB with rfl | rfl <;> decide
    · rw [not_or] at hB
      simp [fatal, idx, substr, hB, stoi_singleton]
  | c :: d :: data => simp [fatal, substr]

/-- **How the loop ends** is decided by the first line that is `quit` or has a client and nothing else. -/
theorem prompt_ends (lines : List Str) :
    (prompt lines).2 =
      match lines.find? fun data => data = quit || fatal data with
      | none => .eof
      | some data => if data = quit then .quit else .uncaught := by
  induction lines with
  | nil => rfl
  | cons data lines ih =>
    unfold prompt
    by_cases hquit : data = quit
    · simp [hquit]
    · rw [if_neg hquit]
      cases hidx : idx data with
      | none =>
        have hf : fatal data = false := by
          rw [Bool.eq_false_iff, ne_eq, fatal_iff, hidx]
          simp
        rw [ih, List.find?_cons_of_neg (by simp [hquit, hf])]
      | some i =>
        cases hsub : substr data 2 with
        | none =>
          have hf : fatal data = true := fatal_iff.mpr ⟨by rw [hidx]; rfl, hsub⟩
          rw [List.find?_cons_of_pos (by simp [hf])]
          simp [hquit]
        | some msg =>
          have hf : fatal data = false := by
            rw [Bool.eq_false_iff, ne_eq, fatal_iff, hsub]
            simp
          rw [List.find?_cons_of_neg (by simp [hquit, hf])]
          exact ih

end SocketsCpp.ServerApp
