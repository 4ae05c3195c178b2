import SocketsCpp.SocketCommon
import Mathlib.Logic.Function.Basic
import Mathlib.Tactic.Common

/-!
# The system under the socket classes

`SocketCore.h` passes the calls of the classes through to the operating system. `Os`
is what the model keeps of the operating system: which descriptors the object has
been given and not yet closed, and a log of the calls made and of the callbacks
begun. What a call returns is chosen by the surroundings; the descriptors that
`socket()` and `accept()` return are not open (`Os.Available`).

A descriptor number is reused after it is closed. To tell the connections that were
given one number apart, each descriptor returned is given the next connection number
(`ConnId`); the code never sees connection numbers.

## What is proved

* `Os.Sound` — a connection is behind at most one descriptor, and the calls of
  `Close` on it are counted: none while it is open, one after. `Sound` is preserved
  by every call, as long as only open descriptors are closed.
-/

namespace SocketsCpp

/-- A connection number. -/
abbrev ConnId := ℕ

/-- `using ClientHandle = int32_t`: the descriptor number of a client. -/
abbrev ClientHandle := ℤ

/-- `fd_set`: one bit for each descriptor number. The C type has `FD_SETSIZE` bits;
the model has a bit for every number, and logs each access. -/
abbrev FdSet := SOCKET → Bool

/-- `FD_SETSIZE`. -/
def FD_SETSIZE : ℤ := 1024

/-- `FD_ZERO`. -/
def FD_ZERO : FdSet := fun _ => false

/-- `FD_SET`. -/
def FD_SET (d : SOCKET) (fds : FdSet) : FdSet := Function.update fds d true

/-- `FD_CLR`. -/
def FD_CLR (d : SOCKET) (fds : FdSet) : FdSet := Function.update fds d false

@[simp] theorem FD_ZERO_apply (d : SOCKET) : FD_ZERO d = false := rfl

theorem FD_SET_apply (d d' : SOCKET) (fds : FdSet) :
    FD_SET d fds d' = true ↔ d' = d ∨ fds d' = true := by
  by_cases h : d' = d <;> simp [FD_SET, h]

theorem FD_CLR_apply (d d' : SOCKET) (fds : FdSet) :
    FD_CLR d fds d' = true ↔ d' ≠ d ∧ fds d' = true := by
  by_cases h : d' = d <;> simp [FD_CLR, h]

/-- Who makes a call of a method of the server: the server thread itself, a callback
on the server thread, or a thread of the application. -/
inductive Caller where
  /-- `serverTask` itself. -/
  | serverTask
  /-- A callback, on the server thread. -/
  | callback
  /-- A thread of the application. -/
  | app (n : ℕ)
  deriving DecidableEq

/-- Where one caller has moved to a position without the property, who is at a position with it was
there before. -/
theorem Caller.of_update {α : Type} {P : α → Prop} {f : Caller → α} {w w' : Caller} {p : α}
    (hp : ¬ P p) (h : P (Function.update f w p w')) : P (f w') := by
  by_cases hw : w' = w
  · rw [hw, Function.update_self] at h
    exact absurd h hp
  · rwa [Function.update_of_ne hw] at h

/-- A call that was made and has returned. -/
theorem Caller.update_back {α : Type} {f : Caller → α} {w : Caller} {p : α} (h : f w = p) (q : α) :
    Function.update (Function.update f w q) w p = f := by
  rw [Function.update_idem, ← h, Function.update_eq_self]

/-- The option and the value of a `setsockopt()` call. -/
inductive SockOptVal where
  /-- `SO_REUSEADDR`, set to `1`. -/
  | reuseAddr
  /-- `SO_RCVBUF`. -/
  | rcvBuf (size : ℤ)
  /-- `SO_SNDBUF`. -/
  | sndBuf (size : ℤ)
  /-- `IP_ADD_MEMBERSHIP`, with `imr_multiaddr` and `imr_interface`. -/
  | addMembership (multiaddr interface : InAddr)
  /-- `IP_MULTICAST_IF`. -/
  | multicastIf (addr : InAddr)
  deriving DecidableEq

/-- What `getClientInfo` writes to its output arguments. -/
structure ClientInfo where
  /-- `ipAddr`. -/
  ipAddr : String
  /-- `port`. -/
  port : UInt16
  /-- `connected`. -/
  connected : Bool
  deriving DecidableEq

/-- What is logged: the calls to the operating system with what they returned, the
accesses to descriptor sets, the callbacks begun, and the returns of the methods. -/
inductive Event where
  /-- `Initialize()`. -/
  | initializeCore (ret : ℤ)
  /-- `Socket(…)` returned `d`; `c` is the connection number given to it. -/
  | socket (d : SOCKET) (c : Option ConnId)
  /-- `SetSockOpt(d, …)`. -/
  | setSockOpt (d : SOCKET) (opt : SockOptVal) (ret : ℤ)
  /-- `Bind(d, addr)`. -/
  | bind (d : SOCKET) (addr : SockAddrIn) (ret : ℤ)
  /-- `Listen(d, backlog)`. -/
  | listen (d : SOCKET) (backlog : ℤ) (ret : ℤ)
  /-- `Connect(d, addr)`. -/
  | connect (d : SOCKET) (addr : SockAddrIn) (ret : ℤ)
  /-- `GetAddrInfo(host)`. -/
  | getAddrInfo (host : String) (ret : ℤ)
  /-- `Close(d)`, `c` being the connection that was open under `d`. -/
  | close (d : SOCKET) (c : Option ConnId)
  /-- `Select(nfds, …)`. -/
  | select (nfds : ℤ)
  /-- `Recv(d)`, `c` being the connection open under `d`: a negative result, or the
  bytes received. -/
  | recv (d : SOCKET) (c : Option ConnId) (res : Option (List UInt8))
  /-- `Accept(d)`: `-1`, or a descriptor and the connection number given to it. -/
  | accept (d : SOCKET) (res : Option (SOCKET × ConnId))
  /-- `Send(d, msg)`, `c` being the connection open under `d`. -/
  | send (d : SOCKET) (c : Option ConnId) (msg : List UInt8) (ret : ℤ)
  /-- `SendTo(d, msg, addr)`. -/
  | sendTo (d : SOCKET) (msg : List UInt8) (addr : SockAddrIn) (ret : ℤ)
  /-- `FD_SET(d, …)`. -/
  | fdSet (d : SOCKET)
  /-- `FD_CLR(d, …)`. -/
  | fdClr (d : SOCKET)
  /-- `FD_ISSET(d, …)`. -/
  | fdIsset (d : SOCKET)
  /-- `m_clients.emplace(h, …)`: whether an entry was inserted. -/
  | emplace (h : ClientHandle) (inserted : Bool)
  /-- `m_callback.onClientConnect(h)` begins. -/
  | onClientConnect (h : ClientHandle)
  /-- `m_callback.onReceiveClientData(h, data)` begins. -/
  | onReceiveClientData (h : ClientHandle) (data : List UInt8)
  /-- `m_callback.onClientDisconnect(h, ret)` begins. -/
  | onClientDisconnect (h : ClientHandle) (ret : SocketRet)
  /-- `m_callback.onReceiveData(data)` begins. -/
  | onReceiveData (data : List UInt8)
  /-- `m_callback.onDisconnect(ret)` begins. -/
  | onDisconnect (ret : SocketRet)
  /-- `deleteClient(h)` returned: `some c` for true, the entry of connection `c` having
  been erased, `none` for false. -/
  | deleteClient (w : Caller) (h : ClientHandle) (c : Option ConnId)
  /-- `sendBcast(…)` returned. -/
  | sendBcast (w : Caller) (ret : SocketRet)
  /-- `sendClientMessage(h, …)` returned. -/
  | sendClientMessage (w : Caller) (h : ClientHandle) (ret : SocketRet)
  /-- `getClientInfo(h, …)` returned, with its output arguments. -/
  | getClientInfo (w : Caller) (h : ClientHandle) (ret : Bool) (out : ClientInfo)
  /-- `sendMsg(…)` returned. -/
  | sendMsg (ret : SocketRet)
  /-- `start(…)`, `connectTo(…)`, `startUnicast(…)` or `startMcast(…)` returned. -/
  | start (ret : SocketRet)
  /-- `finish()` set `m_stop`. -/
  | finishBegin (w : Caller)
  /-- `join()` in `finish()` returned: the thread had ended. -/
  | joined
  /-- `finish()` returned. -/
  | finishEnd (w : Caller)
  /-- The receive thread set `m_stop` at the end of the connection. -/
  | connectionEnd
  deriving DecidableEq

/-- A `Close` of connection `c`. -/
def Event.closes (c : ConnId) : Event → Bool
  | .close _ (some c') => c' = c
  | _ => false

/-- A `Close`. -/
def Event.isClose : Event → Bool
  | .close _ _ => true
  | _ => false

/-- A `Close` of a descriptor that is not open. -/
def Event.closesNothing : Event → Bool
  | .close _ none => true
  | _ => false

/-- A `deleteClient` that returned true, having erased the entry of connection `c`. -/
def Event.deletes (c : ConnId) : Event → Bool
  | .deleteClient _ _ (some c') => c' = c
  | _ => false

/-- A `Socket` or `Accept` that returned the descriptor of connection `c`. -/
def Event.gives (c : ConnId) : Event → Bool
  | .socket _ (some c') => c' = c
  | .accept _ (some (_, c')) => c' = c
  | _ => false

/-- An event that neither gives out nor closes a descriptor. -/
def Event.quiet : Event → Bool
  | .close _ _ | .socket _ (some _) | .accept _ (some _) => false
  | _ => true

theorem Event.closes_of_quiet {e : Event} (h : e.quiet = true) (c : ConnId) : e.closes c = false := by
  cases e <;> first | rfl | cases h

theorem Event.closesNothing_of_quiet {e : Event} (h : e.quiet = true) : e.closesNothing = false := by
  cases e <;> first | rfl | cases h

theorem Event.gives_of_quiet {e : Event} (h : e.quiet = true) (c : ConnId) : e.gives c = false := by
  cases e with
  | socket d o => cases o <;> first | rfl | cases h
  | accept d o => cases o <;> first | rfl | cases h
  | _ => rfl

/-- The operating system, as far as one object uses it. -/
structure Os where
  /-- The connection open under a descriptor number. -/
  owner : SOCKET → Option ConnId := fun _ => none
  /-- The next connection number. -/
  next : ConnId := 0
  /-- The log, oldest event first. -/
  log : List Event := []

namespace Os

/-- Log an event. -/
def record (o : Os) (e : Event) : Os := { o with log := o.log ++ [e] }

/-- Give out descriptor `d`. -/
def give (o : Os) (d : SOCKET) : Os :=
  { o with owner := Function.update o.owner d (some o.next), next := o.next + 1 }

/-- `d` can be returned by `socket()` or `accept()`: a descriptor that is not open. -/
def Available (o : Os) (d : SOCKET) : Prop := 0 ≤ d ∧ o.owner d = none

instance (o : Os) (d : SOCKET) : Decidable (o.Available d) := inferInstanceAs (Decidable (_ ∧ _))

/-- `Socket(…)`, returning `d`. -/
def socket (o : Os) (d : SOCKET) : Os :=
  if d = INVALID_SOCKET then o.record (.socket d none) else (o.give d).record (.socket d (some o.next))

/-- `Accept(fd)`, returning `d`. -/
def accept (o : Os) (fd d : SOCKET) : Os := (o.give d).record (.accept fd (some (d, o.next)))

/-- `Close(d)`. -/
def close (o : Os) (d : SOCKET) : Os :=
  { o with owner := Function.update o.owner d none }.record (.close d (o.owner d))

/-- `if (d != INVALID_SOCKET) Close(d)`. -/
def closeValid (o : Os) (d : SOCKET) : Os := if d ≠ INVALID_SOCKET then o.close d else o

/-- How many times connection `c` was closed. -/
def closes (o : Os) (c : ConnId) : ℕ := o.log.countP (Event.closes c)

@[simp] theorem record_owner (o : Os) (e : Event) : (o.record e).owner = o.owner := rfl
@[simp] theorem record_next (o : Os) (e : Event) : (o.record e).next = o.next := rfl
@[simp] theorem record_log (o : Os) (e : Event) : (o.record e).log = o.log ++ [e] := rfl
@[simp] theorem give_owner (o : Os) (d : SOCKET) :
    (o.give d).owner = Function.update o.owner d (some o.next) := rfl
@[simp] theorem give_next (o : Os) (d : SOCKET) : (o.give d).next = o.next + 1 := rfl
@[simp] theorem give_log (o : Os) (d : SOCKET) : (o.give d).log = o.log := rfl
@[simp] theorem accept_owner (o : Os) (fd d : SOCKET) :
    (o.accept fd d).owner = Function.update o.owner d (some o.next) := rfl
@[simp] theorem accept_next (o : Os) (fd d : SOCKET) : (o.accept fd d).next = o.next + 1 := rfl
@[simp] theorem accept_log (o : Os) (fd d : SOCKET) :
    (o.accept fd d).log = o.log ++ [.accept fd (some (d, o.next))] := rfl
@[simp] theorem close_owner (o : Os) (d : SOCKET) :
    (o.close d).owner = Function.update o.owner d none := rfl
@[simp] theorem close_next (o : Os) (d : SOCKET) : (o.close d).next = o.next := rfl
@[simp] theorem close_log (o : Os) (d : SOCKET) :
    (o.close d).log = o.log ++ [.close d (o.owner d)] := rfl

/-- What is kept by a call of `Close` is kept by the guarded one. -/
theorem closeValid_log {P : List Event → Prop} {o : Os} {d : SOCKET} (h : P o.log)
    (hc : ∀ c, P (o.log ++ [.close d c])) : P (o.closeValid d).log := by
  unfold closeValid
  split
  · exact hc _
  · exact h

/-! ### Each connection is closed at most once -/

/-- The descriptors given out and the calls of `Close` agree. -/
structure Sound (o : Os) : Prop where
  /-- Connection numbers are given in order. -/
  lt : ∀ {d c}, o.owner d = some c → c < o.next
  /-- A connection is behind one descriptor. -/
  inj : ∀ {d d' c}, o.owner d = some c → o.owner d' = some c → d = d'
  /-- Descriptors are not negative. -/
  nonneg : ∀ {d c}, o.owner d = some c → 0 ≤ d
  /-- An open connection was not closed. -/
  closes_open : ∀ {d c}, o.owner d = some c → o.closes c = 0
  /-- A connection that is not open was closed once. -/
  closes_closed : ∀ {c}, c < o.next → (∀ d, o.owner d ≠ some c) → o.closes c = 1
  /-- A connection to come was not closed. -/
  closes_new : ∀ {c}, o.next ≤ c → o.closes c = 0
  /-- `Close` was called on open descriptors only. -/
  honest : ∀ e ∈ o.log, e.closesNothing = false
  /-- The connection numbers given out are those of the descriptors returned. -/
  given : ∀ {c}, (∃ e ∈ o.log, e.gives c = true) ↔ c < o.next

theorem Sound.init : Sound {} where
  lt h := by simp at h
  inj h := by simp at h
  nonneg h := by simp at h
  closes_open h := by simp at h
  closes_closed h := by simp at h
  closes_new _ := rfl
  honest e h := by simp at h
  given := by simp

/-- A connection is closed at most once. -/
theorem Sound.closes_le_one {o : Os} (ho : o.Sound) (c : ConnId) : o.closes c ≤ 1 := by
  by_cases hlt : c < o.next
  · by_cases hopen : ∃ d, o.owner d = some c
    · obtain ⟨d, hd⟩ := hopen
      rw [ho.closes_open hd]
      exact Nat.zero_le 1
    · exact Nat.le_of_eq (ho.closes_closed hlt fun d hd => hopen ⟨d, hd⟩)
  · rw [ho.closes_new (Nat.not_lt.mp hlt)]
    exact Nat.zero_le 1

/-- An event that neither gives out nor closes a descriptor changes nothing. -/
theorem Sound.record {o : Os} (ho : o.Sound) {e : Event} (he : e.quiet = true) :
    (o.record e).Sound := by
  have hc : ∀ c, (o.record e).closes c = o.closes c := by
    intro c
    simp [Os.closes, List.countP_append, Event.closes_of_quiet he c]
  refine ⟨ho.lt, ho.inj, ho.nonneg, ?_, ?_, ?_, ?_, ?_⟩
  · intro d c h; rw [hc]; exact ho.closes_open h
  · intro c h hd; rw [hc]; exact ho.closes_closed h hd
  · intro c h; rw [hc]; exact ho.closes_new h
  · intro e' he'
    rcases List.mem_append.mp he' with h | h
    · exact ho.honest e' h
    · rw [List.mem_singleton.mp h]; exact Event.closesNothing_of_quiet he
  · intro c
    simp [← ho.given, Event.gives_of_quiet he]

/-- A descriptor that is not open may be given out. -/
theorem Sound.give {o : Os} (ho : o.Sound) {d : SOCKET} (hd : o.Available d) {e : Event}
    (hg : ∀ c, e.gives c = decide (o.next = c)) (hcl : ∀ c, e.closes c = false)
    (hn : e.closesNothing = false) : ((o.give d).record e).Sound := by
  have hown : ∀ {d' c}, (o.give d).owner d' = some c → (d' = d ∧ c = o.next) ∨ o.owner d' = some c := by
    intro d' c h
    by_cases hdd : d' = d
    · subst hdd; simp at h; exact .inl ⟨rfl, h.symm⟩
    · rw [give_owner, Function.update_of_ne hdd] at h; exact .inr h
  have hc : ∀ c, ((o.give d).record e).closes c = o.closes c := by
    intro c
    simp [Os.closes, List.countP_append, hcl c]
  refine ⟨?_, ?_, ?_, ?_, ?_, ?_, ?_, ?_⟩
  · intro d' c h
    rcases hown h with ⟨-, rfl⟩ | h
    · exact Nat.lt_succ_self _
    · exact Nat.lt_succ_of_lt (ho.lt h)
  · intro d' d'' c h h'
    rcases hown h with ⟨rfl, rfl⟩ | h <;> rcases hown h' with ⟨h1, h2⟩ | h'
    · exact h1.symm
    · exact absurd (ho.lt h') (Nat.lt_irrefl _)
    · subst h2; exact absurd (ho.lt h) (Nat.lt_irrefl _)
    · exact ho.inj h h'
  · intro d' c h
    rcases hown h with ⟨rfl, -⟩ | h
    · exact hd.1
    · exact ho.nonneg h
  · intro d' c h
    rw [hc]
    rcases hown h with ⟨-, rfl⟩ | h
    · exact ho.closes_new (Nat.le_refl _)
    · exact ho.closes_open h
  · intro c hlt hopen
    have hne : c ≠ o.next := by
      rintro rfl
      exact hopen d (by simp)
    rw [hc]
    refine ho.closes_closed (Nat.lt_of_le_of_ne (Nat.lt_succ_iff.mp hlt) hne) fun d' h => ?_
    have hdd : d' ≠ d := by
      rintro rfl
      rw [hd.2] at h; cases h
    exact hopen d' (by rw [record_owner, give_owner, Function.update_of_ne hdd]; exact h)
  · intro c hle
    rw [hc]
    exact ho.closes_new (Nat.le_of_succ_le hle)
  · intro e' he'
    rcases List.mem_append.mp he' with h | h
    · exact ho.honest e' h
    · rw [List.mem_singleton.mp h]; exact hn
  · intro c
    have hgiven := ho.given (c := c)
    simp only [record_log, give_log, List.mem_append, List.mem_singleton, or_and_right, exists_or,
      exists_eq_left, hg, decide_eq_true_eq, record_next, give_next, hgiven]
    rw [Nat.lt_succ_iff_lt_or_eq, eq_comm]

theorem Sound.accept {o : Os} (ho : o.Sound) {fd d : SOCKET} (hd : o.Available d) :
    (o.accept fd d).Sound :=
  ho.give hd (fun _ => rfl) (fun _ => rfl) rfl

theorem Sound.socket {o : Os} (ho : o.Sound) {d : SOCKET} (hd : d = INVALID_SOCKET ∨ o.Available d) :
    (o.socket d).Sound := by
  unfold Os.socket
  split
  · exact ho.record rfl
  · next h => exact ho.give (hd.resolve_left h) (fun _ => rfl) (fun _ => rfl) rfl

/-- An open descriptor may be closed. -/
theorem Sound.close {o : Os} (ho : o.Sound) {d : SOCKET} {c : ConnId} (hd : o.owner d = some c) :
    (o.close d).Sound := by
  have hown : ∀ {d' c'}, (o.close d).owner d' = some c' → d' ≠ d ∧ o.owner d' = some c' := by
    intro d' c' h
    by_cases hdd : d' = d
    · subst hdd; simp at h
    · rw [close_owner, Function.update_of_ne hdd] at h; exact ⟨hdd, h⟩
  have hcl : ∀ c', (o.close d).closes c' = o.closes c' + if c = c' then 1 else 0 := by
    intro c'
    by_cases hc : c = c' <;> simp [Os.closes, hd, List.countP_append, Event.closes, hc]
  refine ⟨fun h => ho.lt (hown h).2, fun h h' => ho.inj (hown h).2 (hown h').2,
    fun h => ho.nonneg (hown h).2, ?_, ?_, ?_, ?_, ?_⟩
  · intro d' c' h
    obtain ⟨hne, h⟩ := hown h
    have hc : c ≠ c' := by
      rintro rfl
      exact hne (ho.inj h hd)
    rw [hcl, ho.closes_open h, if_neg hc]
  · intro c' hlt hopen
    rw [hcl]
    by_cases hc : c = c'
    · subst hc; rw [ho.closes_open hd, if_pos rfl]
    · rw [if_neg hc, ho.closes_closed hlt fun d' h => ?_]
      have hdd : d' ≠ d := by
        rintro rfl
        exact hc (Option.some.inj (hd.symm.trans h))
      exact hopen d' (by rw [close_owner, Function.update_of_ne hdd]; exact h)
  · intro c' hge
    have hc : c ≠ c' := by
      rintro rfl
      exact absurd (ho.lt hd) (Nat.not_lt.mpr hge)
    rw [hcl, ho.closes_new hge, if_neg hc]
  · intro e he
    simp only [close_log, List.mem_append, List.mem_singleton] at he
    rcases he with he | rfl
    · exact ho.honest e he
    · rw [hd]; rfl
  · intro c'
    simp [← ho.given, Event.gives]

theorem Sound.closeValid {o : Os} (ho : o.Sound) {d : SOCKET}
    (hd : d ≠ INVALID_SOCKET → ∃ c, o.owner d = some c) : (o.closeValid d).Sound := by
  unfold Os.closeValid
  split
  · next h =>
    obtain ⟨c, hc⟩ := hd h
    exact ho.close hc
  · exact ho

end Os

end SocketsCpp
