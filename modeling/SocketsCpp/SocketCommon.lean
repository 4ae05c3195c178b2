import Mathlib.Data.Int.Notation
import Mathlib.Data.List.TakeWhile
import Mathlib.Data.Nat.Notation
import Mathlib.Tactic.Common

/-!
# Common types

`SocketCommon.h` and the address conversions of the C library that the classes use.
Messages are the texts of the default build, the one with `FMT_SUPPORT`.

* `inetPton_eq_some` — `inet_pton` accepts what `inet_ntop` writes, and nothing else.
-/

namespace SocketsCpp

/-- `using SOCKET = int`: a descriptor number. -/
abbrev SOCKET := ℤ

/-- `constexpr SOCKET INVALID_SOCKET = -1`. -/
def INVALID_SOCKET : SOCKET := -1

/-- `SocketRet`: the status returned by the methods of the socket classes. -/
structure SocketRet where
  /-- The error message text. -/
  msg : String := ""
  /-- Whether the operation succeeded. -/
  success : Bool := false
  deriving DecidableEq

/-- A failure with its message. -/
def SocketRet.fail (msg : String) : SocketRet := { msg := msg, success := false }

/-- Success. -/
def SocketRet.ok : SocketRet := { msg := "", success := true }

/-- `TX_BUFFER_SIZE`. -/
def TX_BUFFER_SIZE : ℤ := 10240

/-- `RX_BUFFER_SIZE`. -/
def RX_BUFFER_SIZE : ℤ := 10240

/-- `SocketOpt`: the socket options to be used. -/
structure SocketOpt where
  /-- The value passed to `setsockopt(SO_SNDBUF)`. -/
  txBufSize : ℤ := TX_BUFFER_SIZE
  /-- The value passed to `setsockopt(SO_RCVBUF)`. -/
  rxBufSize : ℤ := RX_BUFFER_SIZE
  /-- The listen address. -/
  listenAddr : String := "0.0.0.0"

/-! ### Addresses -/

/-- `struct in_addr`: an IPv4 address, by octets. -/
structure InAddr where
  /-- The first octet. -/
  a : UInt8
  /-- The second octet. -/
  b : UInt8
  /-- The third octet. -/
  c : UInt8
  /-- The fourth octet. -/
  d : UInt8
  deriving DecidableEq

/-- `INADDR_ANY`, also what an address structure set to zero holds. -/
def INADDR_ANY : InAddr := ⟨0, 0, 0, 0⟩

/-- `struct sockaddr_in`. The port is kept in host order: `htons` where it is stored
and `ntohs` where it is read cancel. -/
structure SockAddrIn where
  /-- `sin_addr`. -/
  addr : InAddr := INADDR_ANY
  /-- `sin_port`. -/
  port : UInt16 := 0
  deriving DecidableEq

/-- The value of an octet written in decimal: one to three digits, no leading zero,
at most `255`. -/
def octet (cs : List Char) : Option UInt8 :=
  if cs = [] ∨ 3 < cs.length ∨ (1 < cs.length ∧ cs.head? = some '0') ∨ ¬ cs.all Char.isDigit then none
  else
    let n := cs.foldl (fun n c => 10 * n + (c.toNat - '0'.toNat)) 0
    if n ≤ 255 then some (UInt8.ofNat n) else none

/-- `inet_pton(AF_INET, …)`: the address that a dotted quad denotes; any other string
is refused, and the destination is then left as it was. -/
def inetPton (s : String) : Option InAddr :=
  match s.toList.splitOn '.' with
  | [a, b, c, d] => do
    let a ← octet a
    let b ← octet b
    let c ← octet c
    let d ← octet d
    return ⟨a, b, c, d⟩
  | _ => none

/-- `inet_ntop(AF_INET, …)`. -/
def inetNtop (x : InAddr) : String := s!"{x.a}.{x.b}.{x.c}.{x.d}"

/-- `c_str()`, as a function of the C library reads it: up to the first NUL. -/
def cStr (s : String) : String := String.ofList (s.toList.takeWhile (· ≠ '\x00'))

/-! ### How addresses are written -/

/-- The digits. -/
def digit (i : ℕ) : Char := Char.ofNat (48 + i)

theorem exists_digit {c : Char} (h : c.isDigit = true) : ∃ i < 10, c = digit i := by
  have hc : 48 ≤ c.toNat ∧ c.toNat ≤ 57 := by
    simp only [Char.isDigit, Bool.and_eq_true, decide_eq_true_eq, ge_iff_le, UInt32.le_iff_toNat_le] at h
    exact h
  refine ⟨c.toNat - 48, by omega, ?_⟩
  show c = Char.ofNat (48 + (c.toNat - 48))
  rw [show 48 + (c.toNat - 48) = c.toNat by omega, Char.ofNat_toNat]

theorem digits_of_octet {cs : List Char} {n : UInt8} (h : octet cs = some n) :
    cs ≠ [] ∧ cs.length ≤ 3 ∧ ∀ c ∈ cs, c.isDigit = true := by
  unfold octet at h
  split at h
  · cases h
  · next hcond =>
    simp only [not_or, not_not, not_lt] at hcond
    exact ⟨hcond.1, hcond.2.1, List.all_eq_true.mp hcond.2.2.2⟩

theorem octet_toString (n : UInt8) : octet (toString n).toList = some n := by
  have h : ∀ i < 256, octet (toString (UInt8.ofNat i)).toList = some (UInt8.ofNat i) := by decide +kernel
  have hn := h n.toNat n.toNat_lt
  rwa [UInt8.ofNat_toNat] at hn

/-- The octet that `cs` denotes, if any, is written `cs`. -/
def canonical (cs : List Char) : Bool := (octet cs).all fun n => cs = (toString n).toList

theorem canonical_of_digits {cs : List Char} (hne : cs ≠ []) (hlen : cs.length ≤ 3)
    (hdigit : ∀ c ∈ cs, c.isDigit = true) : canonical cs = true := by
  -- one to three digits, which are few enough to go through
  have h1 : ∀ i < 10, canonical [digit i] = true := by decide +kernel
  have h2 : ∀ i < 10, ∀ j < 10, canonical [digit i, digit j] = true := by decide +kernel
  have h3 : ∀ i < 10, ∀ j < 10, ∀ k < 10, canonical [digit i, digit j, digit k] = true := by decide +kernel
  match cs with
  | [] => exact absurd rfl hne
  | [a] =>
    obtain ⟨i, hi, rfl⟩ := exists_digit (hdigit a (by simp))
    exact h1 i hi
  | [a, b] =>
    obtain ⟨i, hi, rfl⟩ := exists_digit (hdigit a (by simp))
    obtain ⟨j, hj, rfl⟩ := exists_digit (hdigit b (by simp))
    exact h2 i hi j hj
  | [a, b, c] =>
    obtain ⟨i, hi, rfl⟩ := exists_digit (hdigit a (by simp))
    obtain ⟨j, hj, rfl⟩ := exists_digit (hdigit b (by simp))
    obtain ⟨k, hk, rfl⟩ := exists_digit (hdigit c (by simp))
    exact h3 i hi j hj k hk
  | a :: b :: c :: d :: cs =>
    simp only [List.length_cons] at hlen
    omega

/-- **An octet is written in one way.** -/
theorem octet_eq_some {cs : List Char} {n : UInt8} : octet cs = some n ↔ cs = (toString n).toList := by
  constructor
  · intro h
    obtain ⟨hne, hlen, hdigit⟩ := digits_of_octet h
    have hw := canonical_of_digits hne hlen hdigit
    simpa [canonical, h] using hw
  · rintro rfl
    exact octet_toString n

theorem inetNtop_toList (x : InAddr) : (inetNtop x).toList =
    ['.'].intercalate [(toString x.a).toList, (toString x.b).toList, (toString x.c).toList,
      (toString x.d).toList] := by
  have hdot : (toString ".").toList = ['.'] := rfl
  simp [inetNtop, String.toList_append, List.intercalate_cons_cons, hdot]

/-- **An address is written in one way**: the strings that `inet_pton` accepts are those that `inet_ntop`
writes. -/
theorem inetPton_eq_some {s : String} {x : InAddr} : inetPton s = some x ↔ s = inetNtop x := by
  have hdigit : ∀ n : UInt8, ∀ c ∈ (toString n).toList, c.isDigit = true :=
    fun n => (digits_of_octet (octet_toString n)).2.2
  have hdot : ∀ n : UInt8, '.' ∉ (toString n).toList := fun n hm => absurd (hdigit n _ hm) (by decide)
  constructor
  · intro h
    unfold inetPton at h
    split at h
    · next a b c d hs =>
      simp only [Option.bind_eq_bind, Option.bind_eq_some_iff, Option.pure_def, Option.some.injEq] at h
      obtain ⟨a', ha, b', hb, c', hc, d', hd, rfl⟩ := h
      have hs' : ['.'].intercalate (s.toList.splitOn '.') = s.toList := List.intercalate_splitOn '.'
      rw [hs, octet_eq_some.mp ha, octet_eq_some.mp hb, octet_eq_some.mp hc, octet_eq_some.mp hd] at hs'
      rw [← String.toList_inj, inetNtop_toList, ← hs']
    · cases h
  · rintro rfl
    unfold inetPton
    rw [inetNtop_toList, List.splitOn_intercalate '.' (by simp [hdot]) (by simp)]
    simp [octet_toString]

/-- A valid address has no NUL in it. -/
theorem cStr_inetNtop (x : InAddr) : cStr (inetNtop x) = inetNtop x := by
  have hnul : '\x00' ∉ (inetNtop x).toList := by
    have hdigit : ∀ n : UInt8, '\x00' ∉ (toString n).toList := fun n hm =>
      absurd ((digits_of_octet (octet_toString n)).2.2 _ hm) (by decide)
    rw [inetNtop_toList]
    simp [List.intercalate_cons_cons, hdigit]
  rw [← String.toList_inj, cStr, String.toList_ofList, List.takeWhile_eq_self_iff]
  intro c hc
  simp only [decide_eq_true_eq]
  rintro rfl
  exact hnul hc

end SocketsCpp
