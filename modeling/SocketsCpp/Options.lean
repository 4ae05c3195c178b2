import SocketsCpp.Getopt
import SocketsCpp.Numerals

/-!
# The options of the example programs

The `main` of each example begins with a loop over the options: `getopt` is called until there are no more, and
a `switch` stores the argument of each, as a port or as a text, to a variable. `'?'` prints how the program is
to be called, and ends it. The programs are those of a build on Windows, the one with `getopt.cpp` (another `getopt`
may go on behind the first operand).

* `Switch` — the variables and the `switch` of a program.
* `Switch.settings` — what the loop makes of what `getopt` tells.
* `main_ends_iff` — the loop ends the program at the first part of the command line that is wrong.
* `settings_write` — options that are written down are stored.
-/

namespace SocketsCpp.Options

open SocketsCpp.Library.CommandLine
open SocketsCpp.Getopt (Str Told)

/-- The program ends in the loop. -/
inductive Exit where
  /-- `usage(); exit(1)`. -/
  | usage
  /-- `std::stoul` throws, and nobody catches it. -/
  | uncaught
  deriving DecidableEq

/-- What is stored to a variable. -/
inductive Store (σ : Type) where
  /-- `static_cast<uint16_t>(std::stoul(optarg))`. -/
  | port (set : σ → UInt16 → σ)
  /-- `optarg`. -/
  | text (set : σ → Str → σ)

/-- The options of a program, `σ` being its variables. -/
structure Switch (σ : Type) where
  /-- The variables before the loop. -/
  init : σ
  /-- `optstring`. -/
  optstring : Str
  /-- The cases, but for `'?'`. -/
  stores : List (Char × Store σ)
  /-- What is stored is an argument that the option must have. -/
  required : ∀ p ∈ stores, Getopt.arity optstring p.1 = some .required ∧ p.1 ≠ '-' ∧ p.1 ≠ '?'
  /-- A missing argument is told as `'?'`. -/
  loud : List.head? optstring ≠ some ':'

namespace Switch

variable {σ : Type} (P : Switch σ)

/-- `switch (arg)`. -/
def store (s : σ) (t : Told) : Except Exit σ :=
  if t.ret = '?' then .error .usage
  else match P.stores.lookup t.ret with
    | some (.port set) =>
        match stoul (t.optarg.getD []) with
        | some n => .ok (set s (UInt16.ofNat n))
        | none => .error .uncaught
    | some (.text set) => .ok (set s (t.optarg.getD []))
    | none => .ok s

/-- `while ((arg = getopt(argc, argv, optstring)) != EOF) switch (arg)`, for what `getopt` tells. -/
def settings (told : List Told) : Except Exit σ := told.foldlM P.store P.init

/-! ### How the loop ends the program -/

/-- What is wrong with a part of the command line. -/
def wrong : Token Char → Option Exit
  | .unknown _ | .missing _ => some .usage
  | .option c arg =>
      if c = '?' then some .usage
      else match P.stores.lookup c with
        | some (.port _) => if (stoul (arg.getD [])).isNone then some .uncaught else none
        | _ => none

variable {P}

/-- The round of a part of the command line fails as that is wrong. -/
theorem store_told (s : σ) (t : Token Char) :
    (∃ e, P.wrong t = some e ∧ P.store s (Getopt.told P.optstring t) = .error e) ∨
      P.wrong t = none ∧ ∃ s', P.store s (Getopt.told P.optstring t) = .ok s' := by
  cases t with
  | unknown c => exact .inl ⟨_, rfl, rfl⟩
  | missing c =>
    refine .inl ⟨_, rfl, ?_⟩
    rw [store, Getopt.told, if_neg P.loud, if_pos rfl]
  | option c arg =>
    by_cases hc : c = '?'
    · exact .inl ⟨.usage, by simp [wrong, hc], by simp [store, Getopt.told, hc]⟩
    · cases hl : P.stores.lookup c with
      | none => exact .inr ⟨by simp [wrong, hc, hl], s, by simp [store, Getopt.told, hc, hl]⟩
      | some st =>
        cases st with
        | text set => exact .inr ⟨by simp [wrong, hc, hl], _, by simp [store, Getopt.told, hc, hl]; rfl⟩
        | port set =>
          cases hn : stoul (arg.getD []) with
          | none => exact .inl ⟨.uncaught, by simp [wrong, hc, hl, hn], by simp [store, Getopt.told, hc, hl, hn]⟩
          | some n => exact .inr ⟨by simp [wrong, hc, hl, hn], _, by simp [store, Getopt.told, hc, hl, hn]; rfl⟩

/-- The loop fails as the first part of the command line does that is wrong. -/
theorem foldlM_store (ts : List (Token Char)) (s : σ) (e : Exit) :
    (ts.map (Getopt.told P.optstring)).foldlM P.store s = .error e ↔ ts.findSome? P.wrong = some e := by
  induction ts generalizing s with
  | nil => exact iff_of_false (by rintro ⟨⟩) (by simp)
  | cons t ts ih =>
    rw [List.map_cons, List.foldlM_cons]
    rcases store_told s t with ⟨e', hw, hs⟩ | ⟨hw, s', hs⟩
    · rw [hs, List.findSome?_cons, hw]
      show Except.error e' = Except.error e ↔ some e' = some e
      rw [Except.error.injEq, Option.some.injEq]
    · rw [hs, List.findSome?_cons, hw]
      exact ih s'

/-- **A program ends early at the first thing on its command line that is wrong.** Whatever the options of the
program and the words of the command line, with the `getopt` of `getopt.cpp`: the loop over the options ends; it
prints how the program is to be called exactly if, of all that is wrong, the first is an unknown option, a missing
argument or `?`, and it fails with an exception exactly if the first is a port that is no number, or is greater than
`ULONG_MAX`. -/
theorem main_ends_iff (P : Switch σ) (argv : List Str) : ∃ fuel told g,
    Getopt.calls argv P.optstring fuel {} = some (told, g) ∧ ∀ e, P.settings told = .error e ↔
      (parse (Getopt.arity P.optstring) '-' none (argv.drop 1)).1.findSome? P.wrong = some e := by
  have hstart : ({} : Getopt.State).optind ≤ argv.length + 1 := Nat.le_add_left _ _
  obtain ⟨g, hcalls, -⟩ := Getopt.calls_ahead hstart (Nat.lt_succ_self (Getopt.ahead argv P.optstring {}).1.length)
  rw [Getopt.ahead_init] at hcalls
  exact ⟨_, _, g, hcalls, fun e => foldlM_store _ _ _⟩

end Switch

/-! ### Options that are written down -/

/-- The argument of an option. -/
inductive Value where
  /-- A port. -/
  | port (n : UInt16)
  /-- A text. -/
  | text (a : Str)

/-- The word. -/
def Value.word : Value → Str
  | .port n => (toString n.toNat).toList
  | .text a => a

/-- An option with its argument, in the same word or in the next. -/
structure Opt where
  /-- The option. -/
  name : Char
  /-- Its argument. -/
  arg : Value
  /-- The argument is in the same word. -/
  attached : Bool

namespace Opt

variable {σ : Type} (P : Switch σ)

/-- The words of an option. -/
def cluster (o : Opt) : Cluster Char := ⟨[], o.name, some o.arg.word, o.attached⟩

/-- The option takes such an argument, and what is in the same word is not empty. -/
def Fits (o : Opt) : Prop :=
  match P.stores.lookup o.name, o.arg with
  | some (.port _), .port _ => True
  | some (.text _), .text a => o.attached = true → a ≠ []
  | _, _ => False

/-- What is stored. -/
def set (s : σ) (o : Opt) : σ :=
  match P.stores.lookup o.name, o.arg with
  | some (.port set), .port n => set s n
  | some (.text set), .text a => set s a
  | _, _ => s

end Opt

namespace Switch

variable {σ : Type} (P : Switch σ)

/-- What the options say: the last of a kind counts, and where there is none, the variable keeps its value. -/
def said (opts : List Opt) : σ := opts.foldl (Opt.set P) P.init

variable {P}

theorem word_ne_nil {o : Opt} (h : o.Fits P) (ha : o.attached = true) : o.arg.word ≠ [] := by
  unfold Opt.Fits at h
  split at h
  · next hv => simp [hv, Value.word]
  · next hv =>
    rw [hv]
    exact h ha
  · cases h

theorem mem_of_lookup {c : Char} {st : Store σ} (h : P.stores.lookup c = some st) : (c, st) ∈ P.stores := by
  obtain ⟨l, r, hl, -⟩ := List.lookup_eq_some_iff.mp h
  rw [hl]
  exact List.mem_append_right _ List.mem_cons_self

theorem lookup_of_fits {o : Opt} (h : o.Fits P) : ∃ st, P.stores.lookup o.name = some st := by
  unfold Opt.Fits at h
  split at h
  · next hl _ => exact ⟨_, hl⟩
  · next hl _ => exact ⟨_, hl⟩
  · cases h

theorem cluster_fits {o : Opt} (h : o.Fits P) : o.cluster.Fits (Getopt.arity P.optstring) '-' := by
  obtain ⟨st, hl⟩ := lookup_of_fits h
  obtain ⟨hreq, hdash, -⟩ := P.required _ (mem_of_lookup hl)
  have hname : Getopt.arity P.optstring o.cluster.name = some .required := hreq
  refine ⟨List.forall_mem_nil _, ?_, hdash, List.not_mem_nil⟩
  rw [hname]
  exact ⟨_, rfl, word_ne_nil h⟩

/-- One option. -/
theorem store_opt {o : Opt} (h : o.Fits P) (s : σ) :
    P.store s ⟨o.name, some o.arg.word, o.name⟩ = .ok (o.set P s) := by
  obtain ⟨st, hl⟩ := lookup_of_fits h
  have hne : o.name ≠ '?' := (P.required _ (mem_of_lookup hl)).2.2
  unfold Opt.Fits at h
  split at h
  · next set n hl hv =>
    have hn : stoul (toString n.toNat).toList = some n.toNat :=
      stoul_numeral (Nat.le_trans (Nat.le_of_lt n.toNat_lt) (by decide))
    simp only [store, hne, if_false, hl, hv, Value.word, Option.getD_some, hn, Opt.set, UInt16.ofNat_toNat]
  · next hl hv => simp [store, Opt.set, hne, hl, hv, Value.word]
  · cases h

/-- One after the other. -/
theorem foldlM_opts {opts : List Opt} (h : ∀ o ∈ opts, o.Fits P) (s : σ) :
    ((opts.flatMap fun o => o.cluster.tokens).map (Getopt.told P.optstring)).foldlM P.store s =
      .ok (opts.foldl (Opt.set P) s) := by
  induction opts generalizing s with
  | nil => rfl
  | cons o opts ih =>
    have ih := ih fun o' ho' => h o' (List.mem_cons_of_mem _ ho')
    show (⟨o.name, some o.arg.word, o.name⟩ :: (opts.flatMap fun o => o.cluster.tokens).map
      (Getopt.told P.optstring)).foldlM P.store s = _
    rw [List.foldlM_cons, store_opt (h o List.mem_cons_self)]
    exact ih _

/-- **However the options are written, they are stored**, with the argument in the same word or in the next, and
in any order; the last of a kind counts. -/
theorem settings_write {opts : List Opt} (h : ∀ o ∈ opts, o.Fits P) (program : Str) {fuel : ℕ}
    (hfuel : opts.length < fuel) :
    ∃ told g, Getopt.calls (program :: opts.flatMap fun o => o.cluster.write '-') P.optstring fuel {} =
      some (told, g) ∧ P.settings told = .ok (P.said opts) := by
  have htokens : opts.flatMap (fun o => o.cluster.tokens) = (opts.map Opt.cluster).flatMap Cluster.tokens :=
    (List.flatMap_map ..).symm
  have hwords : (opts.flatMap fun o => o.cluster.write '-') = (opts.map Opt.cluster).flatMap (Cluster.write '-') :=
    (List.flatMap_map ..).symm
  have hahead : Getopt.ahead (program :: opts.flatMap fun o => o.cluster.write '-') P.optstring {} =
      (opts.flatMap fun o => o.cluster.tokens, []) := by
    have hfits : ∀ g ∈ opts.map Opt.cluster, g.Fits (Getopt.arity P.optstring) '-' :=
      List.forall_mem_map.mpr fun o ho => cluster_fits (h o ho)
    have hparse := parse_write hfits []
    rw [List.append_nil] at hparse
    rw [Getopt.ahead_init, List.drop_one, List.tail_cons, hwords, hparse, htokens]
    simp [parse]
  have hlen : (opts.flatMap fun o => o.cluster.tokens).length = opts.length := by
    have hone : ∀ o : Opt, o.cluster.tokens.length = 1 := fun o => rfl
    simp [List.length_flatMap, hone]
  obtain ⟨g, hcalls, -⟩ := Getopt.calls_ahead (g := {}) (Nat.le_add_left _ _) (by rw [hahead, hlen]; exact hfuel)
  rw [hahead] at hcalls
  exact ⟨_, g, hcalls, foldlM_opts h P.init⟩

end Switch

end SocketsCpp.Options
