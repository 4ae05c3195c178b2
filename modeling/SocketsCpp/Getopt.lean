import SocketsCpp.Library.CommandLine

/-!
# The option parser of the examples

`getopt` of `getopt.cpp`, with which the examples read their command lines on Windows. It is called once for
every option, and keeps where it is in static variables between the calls: the index of the word, and a cursor
into it.

* `getopt` — one call.
* `calls` — the loop `while ((arg = getopt(argc, argv, optstring)) != EOF)`.
* `ahead` — what the command line still has to say, in terms of `CommandLine.parse`; `getopt_ahead`: a call
  takes the first token of it.
* `calls_parse` — the calls tell what the command line says.
* `calls_write` — options that are written down are read back.

`argv` has `argc` words, none of them a null pointer. A pointer into a word is what follows it in the word, and
`-1` is `none`: no option is the character that `-1` is as a `char`.
-/

namespace SocketsCpp.Getopt

open SocketsCpp.Library.CommandLine

/-- A string: its characters up to the NUL. -/
abbrev Str := List Char

/-- The variables of `getopt.cpp`. -/
structure State where
  /-- `optarg`. -/
  optarg : Option Str := none
  /-- `optopt`. -/
  optopt : Char := '\x00'
  /-- `optind`. -/
  optind : ℕ := 1
  /-- `optcursor`. -/
  optcursor : Option Str := none
  deriving DecidableEq

/-- `strchr(s, c)`. -/
def strchr (s : Str) (c : Char) : Option Str :=
  match s.dropWhile (· ≠ c) with
  | [] => none
  | t => some t

/-- `no_more_optchars`. -/
def noMoreOptchars (g : State) : State × Option Char := ({ g with optcursor := none }, none)

/-- The argument of an option, `cursor` pointing after it; with what is returned. -/
def takeArg (argv : List Str) (optstring optdecl cursor : Str) (optchar : Char) (g : State) : State × Char :=
  if cursor.isEmpty then
    if optdecl[2]? ≠ some ':' then
      match argv[g.optind + 1]? with
      | some word => ({ g with optind := g.optind + 1, optarg := some word }, optchar)
      -- the argument is missing
      | none => ({ g with optind := g.optind + 1, optarg := none },
          if optstring.head? = some ':' then ':' else '?')
    else ({ g with optarg := none }, optchar)
  else ({ g with optarg := some cursor }, optchar)

/-- `if (optcursor == NULL || *++optcursor == '\0') ++optind`. -/
def advance (g : State) : State :=
  match g.optcursor with
  | none => { g with optind := g.optind + 1 }
  | some cursor =>
      { g with
        optcursor := some cursor.tail
        optind := if cursor.tail.isEmpty then g.optind + 1 else g.optind }

/-- `getopt(argc, argv, optstring)`. -/
def getopt (argv : List Str) (optstring : Str) (g : State) : State × Option Char :=
  let g := { g with optarg := none, optopt := '\x00' }
  match argv[g.optind]? with
  -- `optind >= argc`
  | none => noMoreOptchars g
  | some word =>
      if word.head? ≠ some '-' then noMoreOptchars g
      else if word = ['-'] then noMoreOptchars g
      else if word = ['-', '-'] then noMoreOptchars { g with optind := g.optind + 1 }
      else
        let cursor := match g.optcursor with
          | some (c :: cs) => c :: cs
          | _ => word.tail
        let optchar := cursor.headD '\x00'
        let g := { g with optcursor := some cursor, optopt := optchar }
        match strchr optstring optchar with
        | some optdecl =>
            if optdecl[1]? = some ':' then
              let (g, optchar) := takeArg argv optstring optdecl cursor.tail optchar g
              (advance { g with optcursor := none }, some optchar)
            else (advance g, some optchar)
        -- an option character that is not contained in optstring
        | none => (advance g, some '?')

/-- What a call tells its caller. -/
structure Told where
  /-- What it returned. -/
  ret : Char
  /-- `optarg`. -/
  optarg : Option Str
  /-- `optopt`. -/
  optopt : Char
  deriving DecidableEq

/-- The calls of `while ((arg = getopt(argc, argv, optstring)) != EOF)`, `fuel` of them at most, and what they
leave. -/
def calls (argv : List Str) (optstring : Str) : (fuel : ℕ) → State → Option (List Told × State)
  | 0, _ => none
  | fuel + 1, g =>
      match getopt argv optstring g with
      | (g', none) => some ([], g')
      | (g', some c) =>
          (calls argv optstring fuel g').map fun r => (⟨c, g'.optarg, g'.optopt⟩ :: r.1, r.2)

/-! ### What a command line says -/

/-- What `optstring` says of an option. -/
def arity (optstring : Str) (c : Char) : Option Arity :=
  (strchr optstring c).map fun optdecl =>
    if optdecl[1]? = some ':' then if optdecl[2]? = some ':' then .optional else .required else .flag

/-- What `getopt` tells of a part of the command line. -/
def told (optstring : Str) : Token Char → Told
  | .option c arg => ⟨c, arg, c⟩
  | .unknown c => ⟨'?', none, c⟩
  | .missing c => ⟨if optstring.head? = some ':' then ':' else '?', none, c⟩

/-- What a word says from the cursor on, and the words after it. -/
def rest (optstring cursor : Str) (words : List Str) : List (Token Char) × List Str :=
  let s := scan (arity optstring) cursor
  (s.1 ++ (parse (arity optstring) '-' s.2 words).1, (parse (arity optstring) '-' s.2 words).2)

/-- What the command line still has to say. -/
def ahead (argv : List Str) (optstring : Str) (g : State) : List (Token Char) × List Str :=
  match argv.drop g.optind with
  | [] => ([], [])
  | word :: words =>
      match chars '-' word, g.optcursor with
      | some _, some (c :: cs) => rest optstring (c :: cs) words
      | _, _ => parse (arity optstring) '-' none (word :: words)

variable {argv : List Str} {optstring : Str} {g : State}

theorem drop_of_getElem? {i : ℕ} {word : Str} (h : argv[i]? = some word) :
    argv.drop i = word :: argv.drop (i + 1) := by
  obtain ⟨hi, rfl⟩ := List.getElem?_eq_some_iff.mp h
  exact List.drop_eq_getElem_cons hi

theorem drop_of_getElem?_none {i : ℕ} (h : argv[i]? = none) : argv.drop i = [] :=
  List.drop_eq_nil_of_le (List.getElem?_eq_none_iff.mp h)

/-- With no cursor the words are still to be read. -/
theorem ahead_of_cursor (h : ∀ c cs, g.optcursor ≠ some (c :: cs)) :
    ahead argv optstring g = parse (arity optstring) '-' none (argv.drop g.optind) := by
  unfold ahead
  split
  · next hd => rw [hd]; rfl
  · next hd =>
    rw [hd]
    split
    · next hc => exact absurd hc (h _ _)
    · rfl

/-- A word of options is read from the cursor on, or from its first character on. -/
theorem ahead_of_chars {word cs : Str} (hw : argv[g.optind]? = some word) (hc : chars '-' word = some cs) :
    ahead argv optstring g =
      rest optstring (match g.optcursor with | some (c :: cs) => c :: cs | _ => cs) (argv.drop (g.optind + 1)) := by
  unfold ahead
  rw [drop_of_getElem? hw]
  simp only [hc]
  split
  · next hcur => rw [show g.optcursor = _ from hcur]
  · next hcur =>
    rw [parse_word hc]
    split
    · next heq => exact absurd heq (hcur _ _ _ rfl)
    · rfl

theorem chars_eq_some {word cs : Str} :
    chars '-' word = some cs ↔ word = '-' :: cs ∧ cs ≠ [] ∧ cs ≠ ['-'] := by
  cases word with
  | nil => simp [chars]
  | cons c cs' =>
    simp only [chars, List.isEmpty_iff, Option.ite_none_right_eq_some, Option.some.injEq, List.cons.injEq]
    constructor
    · rintro ⟨⟨rfl, hne, hd⟩, rfl⟩
      exact ⟨⟨rfl, rfl⟩, hne, hd⟩
    · rintro ⟨⟨rfl, rfl⟩, hne, hd⟩
      exact ⟨⟨rfl, hne, hd⟩, rfl⟩

/-- A word that holds no options is `--`, or is not read. -/
theorem of_chars_none {word : Str} (h : chars '-' word = none) :
    word = ['-', '-'] ∨ (word ≠ ['-', '-'] ∧ (word.head? ≠ some '-' ∨ word = ['-'])) := by
  by_cases hdd : word = ['-', '-']
  · exact .inl hdd
  · refine .inr ⟨hdd, ?_⟩
    by_contra hn
    rw [not_or, not_not] at hn
    cases word with
    | nil => exact absurd hn.1 (by simp)
    | cons c cs =>
      obtain rfl : c = '-' := by simpa using hn.1
      have hs : chars '-' ('-' :: cs) = some cs :=
        chars_eq_some.mpr ⟨rfl, by rintro rfl; exact hn.2 rfl, by rintro rfl; exact hdd rfl⟩
      rw [h] at hs
      cases hs

/-- A call with the cursor at an option. -/
def takeOpt (argv : List Str) (optstring : Str) (g : State) (c : Char) (cs : Str) : State × Option Char :=
  let g := { g with optarg := none, optopt := c, optcursor := some (c :: cs) }
  match strchr optstring c with
  | some optdecl =>
      if optdecl[1]? = some ':' then
        ((advance { (takeArg argv optstring optdecl cs c g).1 with optcursor := none }),
          some (takeArg argv optstring optdecl cs c g).2)
      else (advance g, some c)
  | none => (advance g, some '?')

/-- A call at a word of options. -/
theorem getopt_of_chars (optstring : Str) {word cs : Str} (hw : argv[g.optind]? = some word)
    (hc : chars '-' word = some cs) :
    ∃ c cs', (match g.optcursor with | some (c :: cs) => c :: cs | _ => cs) = c :: cs' ∧
      getopt argv optstring g = takeOpt argv optstring g c cs' := by
  obtain ⟨rfl, hne, hd⟩ := chars_eq_some.mp hc
  obtain ⟨c, cs', hcur⟩ : ∃ c cs', (match g.optcursor with | some (c :: cs) => c :: cs | _ => cs) = c :: cs' := by
    split
    · exact ⟨_, _, rfl⟩
    · exact List.exists_cons_of_ne_nil hne
  refine ⟨c, cs', hcur, ?_⟩
  simp only [getopt, hw, List.head?_cons, List.cons.injEq, true_and, hne, hd, List.tail_cons, if_false,
    ne_eq, not_true_eq_false, hcur, List.headD_cons]
  rfl

/-- A call at a word that holds no options, or after the last word. -/
theorem getopt_stops_at (optstring : Str) (h : ∀ word cs, argv[g.optind]? = some word → chars '-' word ≠ some cs) :
    ∃ g', getopt argv optstring g = (g', none) ∧ ahead argv optstring g = ([], argv.drop g'.optind) ∧
      (g.optind ≤ argv.length + 1 → g'.optind ≤ argv.length + 1) := by
  cases hw : argv[g.optind]? with
  | none =>
    refine ⟨{ g with optarg := none, optopt := '\x00', optcursor := none },
      by simp only [getopt, hw, noMoreOptchars], ?_, fun hle => hle⟩
    simp only [ahead, drop_of_getElem?_none hw]
  | some word =>
    have hnone : chars '-' word = none := by
      by_contra hne
      obtain ⟨cs, hcs⟩ := Option.ne_none_iff_exists'.mp hne
      exact h word cs hw hcs
    have hahead : ahead argv optstring g =
        parse (arity optstring) '-' none (word :: argv.drop (g.optind + 1)) := by
      simp only [ahead, drop_of_getElem? hw, hnone]
    rcases of_chars_none hnone with rfl | ⟨hdd, hstop⟩
    · refine ⟨_, by simp only [getopt, hw, noMoreOptchars]; rfl, by rw [hahead]; simp [parse], fun _ => ?_⟩
      have hlt := (List.getElem?_eq_some_iff.mp hw).1
      show g.optind + 1 ≤ argv.length + 1
      omega
    · refine ⟨{ g with optarg := none, optopt := '\x00', optcursor := none }, ?_, ?_, fun hle => hle⟩
      · simp only [getopt, hw, noMoreOptchars]
        rcases hstop with hhead | rfl
        · simp [hhead]
        · simp
      · rw [hahead, drop_of_getElem? hw, parse, if_neg hdd, hnone]

/-- Past an option without an argument the rest of the word is still to be read. -/
theorem ahead_advance (optstring : Str) {word w cs : Str} {c : Char} (hw : argv[g.optind]? = some word)
    (hc : chars '-' word = some w) (hcur : g.optcursor = some (c :: cs)) :
    ahead argv optstring (advance g) = rest optstring cs (argv.drop (g.optind + 1)) ∧
      (advance g).optarg = g.optarg ∧ (advance g).optopt = g.optopt ∧ (advance g).optind ≤ argv.length := by
  have hlt := (List.getElem?_eq_some_iff.mp hw).1
  unfold advance
  rw [hcur]
  cases cs with
  | nil =>
    refine ⟨?_, rfl, rfl, hlt⟩
    rw [ahead_of_cursor (by simp)]
    simp [rest, scan]
  | cons d ds =>
    exact ⟨ahead_of_chars (g := { g with optcursor := some (d :: ds) }) hw hc, rfl, rfl, Nat.le_of_lt hlt⟩

/-- Past an option with an argument the next words are still to be read. -/
theorem ahead_next (hcur : g.optcursor = none) :
    ahead argv optstring (advance g) =
      parse (arity optstring) '-' none (argv.drop (g.optind + 1)) := by
  unfold advance
  rw [hcur]
  exact ahead_of_cursor (by simp)

/-- A call at an option takes the first token. -/
theorem takeOpt_ahead (optstring : Str) {word w : Str} (c : Char) (cs : Str) (hw : argv[g.optind]? = some word)
    (hc : chars '-' word = some w) :
    ∃ g' ret t, takeOpt argv optstring g c cs = (g', some ret) ∧
      rest optstring (c :: cs) (argv.drop (g.optind + 1)) =
        (t :: (ahead argv optstring g').1, (ahead argv optstring g').2) ∧
      told optstring t = ⟨ret, g'.optarg, g'.optopt⟩ ∧ g'.optind ≤ argv.length + 1 := by
  have hlt := (List.getElem?_eq_some_iff.mp hw).1
  obtain ⟨hadv, harg, hopt, hle⟩ := ahead_advance optstring
    (g := { g with optarg := none, optopt := c, optcursor := some (c :: cs) }) hw hc rfl
  unfold takeOpt
  cases hd : strchr optstring c with
  | none =>
    refine ⟨_, _, .unknown c, rfl, ?_, ?_, Nat.le_succ_of_le hle⟩
    · rw [hadv]
      simp [rest, scan, arity, hd]
    · rw [harg, hopt]
      rfl
  | some optdecl =>
    by_cases h1 : optdecl[1]? = some ':'
    · simp only [h1, if_true]
      unfold takeArg
      by_cases hcs : cs = []
      · subst hcs
        by_cases h2 : optdecl[2]? = some ':'
        · refine ⟨_, _, .option c none, rfl, ?_, ?_, ?_⟩
          · rw [ahead_next rfl]
            simp [rest, scan, arity, hd, h1, h2]
          · simp [told, advance, h2]
          · simp [advance, h2]
            omega
        · cases hn : argv[g.optind + 1]? with
          | none =>
            have hdrop : argv.drop (g.optind + 1 + 1) = [] :=
              List.drop_eq_nil_of_le (Nat.le_succ_of_le (List.getElem?_eq_none_iff.mp hn))
            refine ⟨_, _, .missing c, rfl, ?_, ?_, ?_⟩
            · rw [ahead_next rfl]
              simp [rest, scan, arity, hd, h1, h2, drop_of_getElem?_none hn, parse, hdrop]
            · simp [told, advance, h2]
            · simp [advance, h2]
              omega
          | some arg =>
            have hlt' := (List.getElem?_eq_some_iff.mp hn).1
            refine ⟨_, _, .option c (some arg), rfl, ?_, ?_, ?_⟩
            · rw [ahead_next rfl]
              simp [rest, scan, arity, hd, h1, h2, drop_of_getElem? hn, parse]
            · simp [told, advance, h2]
            · simp [advance, h2]
              omega
      · refine ⟨_, _, .option c (some cs), rfl, ?_, ?_, ?_⟩
        · rw [ahead_next rfl]
          by_cases h2 : optdecl[2]? = some ':' <;> simp [rest, scan, arity, hd, h1, h2, hcs]
        · simp [told, advance, hcs]
        · simp [advance, hcs]
          omega
    · simp only [h1, if_false]
      refine ⟨_, _, .option c none, rfl, ?_, ?_, Nat.le_succ_of_le hle⟩
      · rw [hadv]
        simp [rest, scan, arity, hd, h1]
      · rw [harg, hopt]
        rfl

/-- **A call takes the first token** of what the command line still has to say, if there is one. -/
theorem getopt_ahead (argv : List Str) (optstring : Str) (g : State) (hle : g.optind ≤ argv.length + 1) :
    (∃ g', getopt argv optstring g = (g', none) ∧ ahead argv optstring g = ([], argv.drop g'.optind) ∧
      g'.optind ≤ argv.length + 1) ∨
    ∃ g' ret t, getopt argv optstring g = (g', some ret) ∧
      ahead argv optstring g = (t :: (ahead argv optstring g').1, (ahead argv optstring g').2) ∧
      told optstring t = ⟨ret, g'.optarg, g'.optopt⟩ ∧ g'.optind ≤ argv.length + 1 := by
  by_cases h : ∃ word cs, argv[g.optind]? = some word ∧ chars '-' word = some cs
  · obtain ⟨word, cs, hw, hc⟩ := h
    obtain ⟨c, cs', hcur, hget⟩ := getopt_of_chars optstring hw hc
    obtain ⟨g', ret, t, htake, hrest, htold, hle'⟩ := takeOpt_ahead optstring c cs' hw hc
    refine .inr ⟨g', ret, t, hget.trans htake, ?_, htold, hle'⟩
    rw [ahead_of_chars hw hc, hcur, hrest]
  · obtain ⟨g', hget, hahead, hle'⟩ := getopt_stops_at optstring
      fun word cs hw hc => h ⟨word, cs, hw, hc⟩
    exact .inl ⟨g', hget, hahead, hle' hle⟩

/-- The calls tell what the command line has to say, with a call for every token and one more. -/
theorem calls_ahead {fuel : ℕ} (hle : g.optind ≤ argv.length + 1)
    (hfuel : (ahead argv optstring g).1.length < fuel) :
    ∃ g', calls argv optstring fuel g = some ((ahead argv optstring g).1.map (told optstring), g') ∧
      argv.drop g'.optind = (ahead argv optstring g).2 ∧ g'.optind ≤ argv.length + 1 := by
  induction fuel generalizing g with
  | zero => exact absurd hfuel (Nat.not_lt_zero _)
  | succ fuel ih =>
    rcases getopt_ahead argv optstring g hle with
      ⟨g', hget, hahead, hle'⟩ | ⟨g', ret, t, hget, hahead, htold, hle'⟩
    · rw [hahead]
      exact ⟨g', by simp [calls, hget], rfl, hle'⟩
    · rw [hahead] at hfuel ⊢
      obtain ⟨g'', hcalls, hdrop, hle''⟩ := ih hle' (Nat.lt_of_succ_lt_succ hfuel)
      exact ⟨g'', by simp [calls, hget, hcalls, htold], hdrop, hle''⟩

theorem ahead_init : ahead argv optstring {} = parse (arity optstring) '-' none (argv.drop 1) :=
  ahead_of_cursor (by simp)

/-- **`getopt` reads the command line.** For every command line and every `optstring`, the calls of the loop
`while ((arg = getopt(argc, argv, optstring)) != EOF)` end, and tell, one after the other, what the words after
the first say: each option once, with its argument; an unknown option as `?`, a missing argument as `:` or `?`,
with the option in `optopt`. Then `optind` is at the first operand, and it is never more than `argc + 1`. (An
option that is the byte `0xFF` would be returned as `-1`, and end the loop: there is no such character here.) -/
theorem calls_parse (argv : List Str) (optstring : Str) (fuel : ℕ)
    (hfuel : (parse (arity optstring) '-' none (argv.drop 1)).1.length < fuel) :
    ∃ g, calls argv optstring fuel {} =
        some ((parse (arity optstring) '-' none (argv.drop 1)).1.map (told optstring), g) ∧
      argv.drop g.optind = (parse (arity optstring) '-' none (argv.drop 1)).2 ∧
      g.optind ≤ argv.length + 1 := by
  rw [← ahead_init] at hfuel ⊢
  exact calls_ahead (Nat.le_add_left _ _) hfuel

/-- The options of the server, the argument of the second missing. -/
theorem calls_parse_missing :
    ∃ g, calls ["serverApp".toList, "-p80".toList, "-L".toList] "p:L:?".toList 3 {} =
        some ([⟨'p', some "80".toList, 'p'⟩, ⟨'?', none, 'L'⟩], g) ∧ g.optind ≤ 4 := by
  obtain ⟨g, hg, -, hle⟩ := calls_parse ["serverApp".toList, "-p80".toList, "-L".toList] "p:L:?".toList
    3 (by decide)
  exact ⟨g, hg, hle⟩

/-- **Options are read back as they were written**: in one word or in several, arguments attached or in the next
word, whatever the operands after them look like. (No option is the byte `0xFF`.) -/
theorem calls_write {optstring : Str} {gs : List (Cluster Char)} (h : ∀ x ∈ gs, x.Fits (arity optstring) '-')
    (program : Str) (operands : List Str) {fuel : ℕ} (hfuel : (gs.flatMap Cluster.tokens).length < fuel) :
    ∃ g, calls (program :: (gs.flatMap (Cluster.write '-') ++ ['-', '-'] :: operands)) optstring fuel {} =
        some ((gs.flatMap Cluster.tokens).map (told optstring), g) ∧
      (program :: (gs.flatMap (Cluster.write '-') ++ ['-', '-'] :: operands)).drop g.optind = operands := by
  have hahead : ahead (program :: (gs.flatMap (Cluster.write '-') ++ ['-', '-'] :: operands)) optstring {} =
      (gs.flatMap Cluster.tokens, operands) := by
    rw [ahead_init, List.drop_one, List.tail_cons, parse_write h]
    simp [parse]
  obtain ⟨g, hcalls, hdrop, -⟩ := calls_ahead (g := {}) (Nat.le_add_left _ _) (by rw [hahead]; exact hfuel)
  rw [hahead] at hcalls hdrop
  exact ⟨g, hcalls, hdrop⟩

/-- A flag and an argument in one word, an argument in the next word, and an operand that looks like an option. -/
theorem calls_write_cluster :
    ∃ g, calls ["client".toList, "-vp80".toList, "-a".toList, "::1".toList, "--".toList, "-x".toList]
        "a:p:v".toList 4 {} =
        some ([⟨'v', none, 'v'⟩, ⟨'p', some "80".toList, 'p'⟩, ⟨'a', some "::1".toList, 'a'⟩], g) ∧
      ["client".toList, "-vp80".toList, "-a".toList, "::1".toList, "--".toList, "-x".toList].drop g.optind =
        ["-x".toList] := by
  have hfits : ∀ x ∈ [⟨['v'], 'p', some "80".toList, true⟩, ⟨[], 'a', some "::1".toList, false⟩],
      Cluster.Fits (arity "a:p:v".toList) '-' x := by
    intro x hx
    simp only [List.mem_cons, List.not_mem_nil, or_false] at hx
    obtain rfl | rfl := hx
    · exact ⟨List.forall_mem_singleton.mpr (by decide), ⟨"80".toList, rfl, fun _ => by decide⟩, by decide⟩
    · exact ⟨List.forall_mem_nil _, ⟨"::1".toList, rfl, fun h => by cases h⟩, by decide⟩
  exact calls_write hfits "client".toList ["-x".toList] (by decide : _ < 4)

end SocketsCpp.Getopt
