import SocketsCpp.SocketCommon

/-!
# Numbers on the command line

`std::stoi` and `std::stoul`, with which the example programs read handles and ports.

* `strtol` — what the C library reads: a sign, and digits.
* `stoi`, `stoul` — the number, if it is in the range.
* `stoi_numeral`, `stoul_numeral` — a number is read back as it is written.
-/

namespace SocketsCpp

/-! ### Reading -/

/-- `isspace`. -/
def isspace (c : Char) : Bool := c = ' ' || ('\t' ≤ c && c ≤ '\r')

/-- What follows the sign, if there is one. -/
def unsigned : List Char → List Char
  | '-' :: s | '+' :: s => s
  | s => s

/-- `strtol(s, …, 10)` and `strtoul(s, …, 10)`, before the number is brought into the range: the sign, and the
digits after it, if there are any. -/
def strtol (s : List Char) : Option (Bool × ℕ) :=
  let s := (s.takeWhile (· ≠ '\x00')).dropWhile isspace
  let digits := (unsigned s).takeWhile Char.isDigit
  if digits.isEmpty then none else some (s.head? = some '-', Nat.ofDigitChars 10 digits 0)

/-- The least `int`. -/
def INT_MIN : ℤ := -2147483648

/-- The greatest `int`. -/
def INT_MAX : ℤ := 2147483647

/-- The greatest `unsigned long`. It has 32 bits on Windows, where the example programs are built with
`getopt.cpp`. -/
def ULONG_MAX : ℕ := 4294967295

/-- `std::stoi(s)`, if it does not throw. -/
def stoi (s : List Char) : Option ℤ :=
  (strtol s).bind fun x =>
    let n : ℤ := if x.1 then -x.2 else x.2
    if INT_MIN ≤ n ∧ n ≤ INT_MAX then some n else none

/-- `std::stoul(s)`, if it does not throw. -/
def stoul (s : List Char) : Option ℕ :=
  (strtol s).bind fun x =>
    if x.2 ≤ ULONG_MAX then some (if x.1 then (ULONG_MAX + 1 - x.2) % (ULONG_MAX + 1) else x.2) else none

/-! ### Writing -/

theorem isDigit_toDigits {n : ℕ} {c : Char} (h : c ∈ Nat.toDigits 10 n) : c.isDigit = true :=
  Nat.isDigit_of_mem_toDigits (by decide) (by decide) h

theorem isspace_of_isDigit {c : Char} (h : c.isDigit = true) : isspace c = false := by
  obtain ⟨i, hi, rfl⟩ := exists_digit h
  have hall : ∀ i < 10, isspace (digit i) = false := by decide
  exact hall i hi

/-- A numeral: a minus if the number is negative, and the digits. -/
theorem numeral_eq (h : ℤ) :
    (toString h).toList = (if h < 0 then ['-'] else []) ++ Nat.toDigits 10 h.natAbs := by
  cases h with
  | ofNat n =>
    have hn : ¬ Int.ofNat n < 0 := Int.not_lt.mpr (Int.natCast_nonneg n)
    rw [if_neg hn]
    show (Nat.repr n).toList = _
    simp
  | negSucc n =>
    rw [if_pos (Int.negSucc_lt_zero n)]
    show ("-" ++ Nat.repr (n + 1)).toList = _
    simp

/-- Digits and what follows them. -/
theorem takeWhile_digits {digits rest : List Char} (hd : ∀ c ∈ digits, c.isDigit = true)
    (hrest : ∀ c ∈ rest.head?, c.isDigit = false) :
    (digits ++ rest.takeWhile (· ≠ '\x00')).takeWhile Char.isDigit = digits := by
  rw [List.takeWhile_append_of_pos hd]
  cases rest with
  | nil => simp
  | cons c rest =>
    have hc := hrest c rfl
    by_cases hz : c = '\x00' <;> simp [hz, hc]

theorem strtol_numeral (h : ℤ) (rest : List Char) (hrest : ∀ c ∈ rest.head?, c.isDigit = false) :
    strtol ((toString h).toList ++ rest) = some (decide (h < 0), h.natAbs) := by
  have hd : ∀ c ∈ Nat.toDigits 10 h.natAbs, c.isDigit = true := fun _ hc => isDigit_toDigits hc
  have hnul : ∀ c ∈ Nat.toDigits 10 h.natAbs, decide (c ≠ '\x00') = true := by
    intro c hc
    have hdigit := hd c hc
    rw [decide_eq_true_eq]
    rintro rfl
    cases hdigit
  have htake := takeWhile_digits hd hrest
  have hval : Nat.ofDigitChars 10 (Nat.toDigits 10 h.natAbs) 0 = h.natAbs := Nat.ofDigitChars_ten_toDigits
  obtain ⟨d, ds, hds⟩ := List.exists_cons_of_ne_nil (Nat.toDigits_ne_nil (n := h.natAbs) (b := 10))
  have hspace : isspace d = false := isspace_of_isDigit (hd d (by simp [hds]))
  have hunsigned : ∀ cs, unsigned (d :: cs) = d :: cs := by
    intro cs
    unfold unsigned
    split <;> first | rfl | simp_all
  have hsign : d ≠ '-' := by
    rintro rfl
    cases hd '-' (by simp [hds])
  rw [numeral_eq, strtol]
  by_cases hneg : h < 0
  · have hminus : isspace '-' = false := by decide
    rw [if_pos hneg, List.append_assoc, List.singleton_append, List.takeWhile_cons_of_pos (by decide),
      List.takeWhile_append_of_pos hnul, List.dropWhile_cons_of_neg (by simp [hminus])]
    simp only [unsigned, htake, hval, hneg]
    simp
  · rw [if_neg hneg, List.nil_append, List.takeWhile_append_of_pos hnul]
    rw [hds] at htake hval ⊢
    rw [List.cons_append, List.dropWhile_cons_of_neg (by simp [hspace])]
    simp only [hunsigned]
    rw [← List.cons_append, htake, hval]
    simp [hneg, hsign]

theorem stoi_numeral {h : ℤ} (hlo : INT_MIN ≤ h) (hhi : h ≤ INT_MAX) (rest : List Char)
    (hrest : ∀ c ∈ rest.head?, c.isDigit = false) : stoi ((toString h).toList ++ rest) = some h := by
  have hval : (if h < 0 then -(h.natAbs : ℤ) else h.natAbs) = h := by
    split <;> omega
  rw [stoi, strtol_numeral h rest hrest]
  simp only [Option.bind_some, decide_eq_true_eq, hval]
  exact if_pos ⟨hlo, hhi⟩

theorem stoul_numeral {n : ℕ} (hn : n ≤ ULONG_MAX) : stoul (toString n).toList = some n := by
  have hpos : ¬ (n : ℤ) < 0 := by omega
  have hnum := strtol_numeral n [] (by simp)
  rw [List.append_nil] at hnum
  rw [stoul, show (toString n).toList = (toString (n : ℤ)).toList from rfl, hnum]
  simp only [Option.bind_some, Int.natAbs_natCast, decide_eq_true_eq, hpos, if_false]
  exact if_pos hn

/-- A numeral is one character long exactly if it is that of a digit. -/
theorem numeral_length {h : ℤ} : (toString h).toList.length = 1 ↔ 0 ≤ h ∧ h < 10 := by
  have hpos : 0 < (Nat.toDigits 10 h.natAbs).length := List.length_pos_iff.mpr Nat.toDigits_ne_nil
  have hle : (Nat.toDigits 10 h.natAbs).length ≤ 1 ↔ h.natAbs < 10 ^ 1 :=
    Nat.length_toDigits_le_iff (by decide) (by decide)
  rw [numeral_eq, List.length_append]
  split
  · next hneg =>
    rw [List.length_singleton]
    omega
  · rw [List.length_nil]
    omega

/-- A single character is a number if it is a digit. -/
theorem stoi_singleton (c : Char) : (stoi [c]).isSome = c.isDigit := by
  by_cases hc : c.isDigit = true
  · obtain ⟨i, hi, rfl⟩ := exists_digit hc
    have hall : ∀ i < 10, (stoi [digit i]).isSome = true := by decide
    rw [hall i hi, hc]
  · have hnone : strtol [c] = none := by
      have hcut : ∀ p : Char → Bool, [c].takeWhile p = [] ∨ [c].takeWhile p = [c] := by
        intro p
        by_cases hp : p c = true <;> simp [hp]
      have hskip : ∀ p : Char → Bool, [c].dropWhile p = [] ∨ [c].dropWhile p = [c] := by
        intro p
        by_cases hp : p c = true <;> simp [hp]
      have hun : unsigned [c] = [] ∨ unsigned [c] = [c] := by
        unfold unsigned
        split <;> simp_all
      have hnil : ([] : List Char).dropWhile isspace = [] := rfl
      have hun' : unsigned [] = [] := rfl
      unfold strtol
      rcases hcut fun c => c ≠ '\x00' with h | h <;> rw [h]
      · simp [hun']
      · rcases hskip isspace with h | h <;> rw [h]
        · simp [hun']
        · rcases hun with h | h <;> simp [h, hc]
    simp [stoi, hnone, hc]

end SocketsCpp
