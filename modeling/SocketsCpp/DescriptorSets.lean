import SocketsCpp.Setup

/-!
# Accesses to descriptor sets

An `fd_set` has one bit for each number from `0` to `FD_SETSIZE - 1`, and `FD_SET`, `FD_CLR` and
`FD_ISSET` do not look at the number that they are given. What the system returns, and the `-1` that
`m_sockfd` holds when there is no socket, may lie outside.

* `InRange` — every access is given a number that fits, and a descriptor that does not fit is closed.
* `Held` — the methods that set the socket up hold a descriptor from `Socket` on.
-/

namespace SocketsCpp

open SocketsCpp.Library

/-- A number that has a bit in an `fd_set`. -/
def Fits (d : SOCKET) : Prop := 0 ≤ d ∧ d < FD_SETSIZE

instance (d : SOCKET) : Decidable (Fits d) := inferInstanceAs (Decidable (_ ∧ _))

/-- The number that an access to a descriptor set is given. -/
def Event.access : Event → Option SOCKET
  | .fdSet d | .fdClr d | .fdIsset d => some d
  | _ => none

/-- The descriptor that `Socket` or `Accept` returned, with its connection. -/
def Event.returned : Event → Option (SOCKET × ConnId)
  | .socket d (some c) => some (d, c)
  | .accept _ (some x) => some x
  | _ => none

/-- **Every descriptor put in a descriptor set is in range**, and one that does not fit is closed. -/
structure InRange (log : List Event) : Prop where
  /-- The accesses. -/
  access : ∀ e ∈ log, ∀ d, e.access = some d → Fits d
  /-- The descriptors that do not fit. -/
  refused : ∀ e ∈ log, ∀ d c, e.returned = some (d, c) → ¬ Fits d → .close d (some c) ∈ log

/-- The numbers in an event fit, where it is an access or returns a descriptor. -/
def Event.fits (e : Event) : Bool := (∀ d ∈ e.access, Fits d) ∧ ∀ x ∈ e.returned, Fits x.1

theorem inRange_of_fits {log : List Event} (h : ∀ e ∈ log, e.fits = true) : InRange log := by
  simp only [Event.fits, decide_eq_true_eq] at h
  exact ⟨fun e he d hd => (h e he).1 d hd, fun e he d c hd hn => absurd ((h e he).2 _ hd) hn⟩

theorem fits_access {d : SOCKET} (h : Fits d) :
    (Event.fdSet d).fits = true ∧ (Event.fdClr d).fits = true ∧ (Event.fdIsset d).fits = true := by
  simp [Event.fits, Event.access, Event.returned, h]

theorem fits_accept {fd d : SOCKET} {c : ConnId} (h : Fits d) : (Event.accept fd (some (d, c))).fits = true := by
  simp [Event.fits, Event.access, Event.returned, h]

/-! ### What the methods that set the socket up store -/

/-- What an operation stores to `m_sockfd`. -/
def Op.stored (op : Op) (a : Answer) : Option SOCKET :=
  match op with
  | .resetFd => some INVALID_SOCKET
  | .socket => some a.ret
  | _ => none

theorem Op.exec_sockfd_eq (op : Op) (a : Answer) (e : Endpoint) (os : Os) :
    (op.exec a e os).1.sockfd = (op.stored a).getD e.sockfd := by
  cases op <;> rfl

/-- It stores `INVALID_SOCKET` or a descriptor. -/
theorem Op.stored_nonneg {op : Op} {a : Answer} {os : Os} {d : SOCKET} (ha : op.Admissible a os)
    (hd : op.stored a = some d) (hne : d ≠ INVALID_SOCKET) : 0 ≤ d := by
  cases op with
  | resetFd =>
    cases hd
    exact absurd rfl hne
  | socket =>
    cases hd
    exact ((ha rfl).resolve_left hne).1
  | _ => cases hd

/-- The number in `m_sockfd` stays below a bound, if what is stored is below it. -/
theorem Op.exec_sockfd_lt {op : Op} {a : Answer} {e : Endpoint} (os : Os) {b : ℤ} (he : e.sockfd < b)
    (hs : ∀ d ∈ op.stored a, d < b) : (op.exec a e os).1.sockfd < b := by
  rw [exec_sockfd_eq]
  cases hst : op.stored a with
  | none => exact he
  | some d => exact hs d hst

/-- An operation leaves `m_sockfd` alone, or stores a descriptor, or makes it invalid. -/
theorem Op.exec_sockfd_cases {op : Op} {a : Answer} {os : Os} (ha : op.Admissible a os) (e : Endpoint) :
    (op.stored a = none ∧ (op.exec a e os).1.sockfd = e.sockfd) ∨ 0 ≤ (op.exec a e os).1.sockfd ∨
      (op.stored a = some INVALID_SOCKET ∧ (op.exec a e os).1.sockfd = INVALID_SOCKET) := by
  rw [exec_sockfd_eq]
  cases hst : op.stored a with
  | none => exact .inl ⟨rfl, rfl⟩
  | some d =>
    by_cases hd : d = INVALID_SOCKET
    · subst hd
      exact .inr (.inr ⟨rfl, rfl⟩)
    · exact .inr (.inl (stored_nonneg ha hst hd))

/-- The numbers that such a method logs fit, if the one that `Socket` returns does. -/
theorem Op.exec_fits {op : Op} {a : Answer} (e : Endpoint) {os : Os} (ha : op.Admissible a os)
    (hs : ∀ d ∈ op.stored a, d < FD_SETSIZE) : Grows Event.fits os.log (op.exec a e os).2.log := by
  cases op with
  | socket =>
    simp only [exec, Os.socket]
    split
    · exact .one rfl
    · next hne =>
      have h0 := ((ha rfl).resolve_left hne).1
      refine .one ?_
      simpa [Event.fits, Event.access, Event.returned, Fits, h0] using hs a.ret rfl
  | resetFd | zeroAddr | setPort | setListenAddr | setGroup | watch | thread => exact .refl
  | _ => exact .one rfl

/-- Every call that is setting the socket up holds a descriptor from its `Socket` on; `starts` gives the
instructions left of these calls. -/
def Held (starts : Caller → Option (List Instr)) (d : SOCKET) : Prop :=
  ∀ w rest, starts w = some rest → Holding rest d

/-- A call goes on. If it stores to `m_sockfd` then a descriptor, or no other call has passed its
`Socket`. -/
theorem Held.update {starts : Caller → Option (List Instr)} {w : Caller} {q : Option (List Instr)}
    {d d' : SOCKET} (h : Held starts d)
    (hd : d' = d ∨ 0 ≤ d' ∨ ∀ w' rest, w' ≠ w → starts w' = some rest → Opens rest)
    (hq : ∀ rest, q = some rest → Holding rest d') : Held (Function.update starts w q) d' := by
  intro w' rest hs
  by_cases hw : w' = w
  · subst hw
    rw [Function.update_self] at hs
    exact hq rest hs
  · rw [Function.update_of_ne hw] at hs
    rcases hd with rfl | hd | hd
    · exact h w' rest hs
    · rcases h w' rest hs with ho | ⟨hst, -⟩
      · exact .inl ho
      · exact .inr ⟨hst, hd⟩
    · exact .inl (hd w' rest hw hs)

end SocketsCpp
