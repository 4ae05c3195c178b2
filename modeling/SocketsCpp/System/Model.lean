import SocketsCpp.Library.Family
import SocketsCpp.Stream
import Mathlib.Logic.Relation

/-!
# Objects in processes of their own

Any number of `TcpServer`, `TcpClient` and `UdpSocket` objects, each in a process of its own: a descriptor of one
has nothing to do with the same number in another. A step of the system is a step of one of the objects, with all
its threads, and nothing is asked of how they are used. The network between them is not part of the system: what
the calls return comes with the steps, as it does for a single object.

* `Os.Call` — a call to the operating system; `TcpServer.Step.calls` and `Receiver.Step.calls`: a step makes a number
  of them.
* `Os.Filed` — a connection is open under one descriptor only, and nothing is sent on it after `Close`.
* `machine` — the system, with the history of what all the objects logged.
* `log_history` — the history has the log of each object.
-/

namespace SocketsCpp

open SocketsCpp.Library

/-! ### Calls to the operating system -/

/-- The descriptor and the connection that an event is about. -/
def Event.place : Event → Option (SOCKET × ConnId)
  | .socket d (some c) | .close d (some c) | .recv d (some c) _ | .send d (some c) _ _ => some (d, c)
  | .accept _ (some x) => some x
  | _ => none

/-- A `Send` on connection `c`. -/
def Event.sends (c : ConnId) : Event → Bool
  | .send _ (some c') _ _ => c' = c
  | _ => false

/-- A `Recv` or a `Send` is on the connection that is open under the descriptor. -/
def Event.Sees (owner : SOCKET → Option ConnId) : Event → Prop
  | .recv d c _ | .send d c _ _ => c = owner d
  | _ => True

theorem Event.place_of_quiet {e : Event} {owner : SOCKET → Option ConnId} {d : SOCKET} {c : ConnId}
    (hq : e.quiet = true) (hs : e.Sees owner) (hp : e.place = some (d, c)) : owner d = some c := by
  cases e with
  | socket d' o | accept d' o =>
    cases o with
    | none => cases hp
    | some x => cases hq
  | close d' o => cases hq
  | recv d' o | send d' o =>
    cases o with
    | none => cases hp
    | some c' =>
      cases hp
      exact hs.symm
  | _ => cases hp

theorem Event.place_of_closes {e : Event} {c : ConnId} (h : e.closes c = true) : ∃ d, e.place = some (d, c) := by
  cases e with
  | close d o =>
    cases o with
    | none => cases h
    | some c' =>
      obtain rfl : c' = c := of_decide_eq_true h
      exact ⟨d, rfl⟩
  | _ => cases h

theorem Event.place_of_sends {e : Event} {c : ConnId} (h : e.sends c = true) : ∃ d, e.place = some (d, c) := by
  cases e with
  | send d o =>
    cases o with
    | none => cases h
    | some c' =>
      obtain rfl : c' = c := of_decide_eq_true h
      exact ⟨d, rfl⟩
  | _ => cases h

namespace Os

/-- A call to the operating system. -/
inductive Call (o : Os) : Os → Prop where
  /-- A call that neither gives out nor closes a descriptor. -/
  | record {e : Event} : e.quiet = true → e.Sees o.owner → Call o (o.record e)
  /-- `Socket(…)`. -/
  | socket (d : SOCKET) : Call o (o.socket d)
  /-- `Accept(fd)`. -/
  | accept (fd d : SOCKET) : Call o (o.accept fd d)
  /-- `Close(d)`. -/
  | close (d : SOCKET) : Call o (o.close d)

/-- A number of calls. -/
abbrev Calls : Os → Os → Prop := Relation.ReflTransGen Call

namespace Calls

variable {o o' : Os}

theorem one (h : o.Call o') : Calls o o' := .single h

theorem append {e : Event} (h : Calls o o') (hq : e.quiet = true) (hs : e.Sees o'.owner) : Calls o (o'.record e) :=
  h.tail (.record hq hs)

theorem closeValid (o : Os) (d : SOCKET) : Calls o (o.closeValid d) := by
  unfold Os.closeValid
  split
  · exact .one (.close d)
  · exact .refl

/-- The log grows. -/
theorem log_grows (h : Calls o o') : o.log <+: o'.log := by
  induction h with
  | refl => exact List.prefix_refl _
  | tail _ hc ih =>
    refine ih.trans ?_
    cases hc with
    | socket d =>
      unfold Os.socket
      split <;> exact List.prefix_append _ _
    | _ => exact List.prefix_append _ _

end Calls

/-- Where the connections are: `home` is the descriptor of each. -/
structure Filed (o : Os) (home : ConnId → SOCKET) : Prop where
  /-- The connections that are open have been numbered. -/
  below : ∀ {d c}, o.owner d = some c → c < o.next
  /-- They are open under their descriptors. -/
  owner : ∀ {d c}, o.owner d = some c → home c = d
  /-- What was logged is under their descriptors. -/
  log : ∀ e ∈ o.log, ∀ {d c}, e.place = some (d, c) → home c = d ∧ c < o.next
  /-- What was closed is not open. -/
  closed : ∀ e ∈ o.log, ∀ {d c}, e.closes c = true → o.owner d ≠ some c
  /-- Nothing is sent on it. -/
  silent : ∀ c, NoneAfter (Event.closes c) (Event.sends c) o.log

namespace Filed

variable {o o' : Os} {home : ConnId → SOCKET} {e : Event} {d : SOCKET}

theorem init : Filed {} fun _ => 0 :=
  ⟨nofun, nofun, by simp, by simp, fun _ => .nil⟩

/-- A call that neither gives out nor closes a descriptor. -/
theorem record (hi : o.Filed home) (hq : e.quiet = true) (hs : e.Sees o.owner) : (o.record e).Filed home := by
  refine ⟨hi.below, hi.owner, fun e' he' d c hp => ?_, fun e' he' d c hc => ?_, fun c => ?_⟩
  · rcases List.mem_append.mp he' with he' | he'
    · exact hi.log e' he' hp
    · rw [List.mem_singleton.mp he'] at hp
      have ho := Event.place_of_quiet hq hs hp
      exact ⟨hi.owner ho, hi.below ho⟩
  · rcases List.mem_append.mp he' with he' | he'
    · exact hi.closed e' he' hc
    · rw [List.mem_singleton.mp he', Event.closes_of_quiet hq] at hc
      cases hc
  · refine NoneAfter.append_iff.mpr ⟨hi.silent c, fun hsend e' he' => ?_⟩
    obtain ⟨d, hp⟩ := Event.place_of_sends hsend
    by_contra hc
    exact hi.closed e' he' (by simpa using hc) (Event.place_of_quiet hq hs hp)

/-- A descriptor is given out, `e` telling of it. -/
theorem give (hi : o.Filed home) (hp : e.place = some (d, o.next)) (hc : ∀ c, e.closes c = false)
    (hs : ∀ c, e.sends c = false) : ((o.give d).record e).Filed (Function.update home o.next d) := by
  have hold : ∀ {c d'}, home c = d' → c < o.next → Function.update home o.next d c = d' := by
    intro c d' h hlt
    rw [Function.update_of_ne (Nat.ne_of_lt hlt)]
    exact h
  have howner : ∀ {d' c}, (o.give d).owner d' = some c → (d' = d ∧ c = o.next) ∨ o.owner d' = some c := by
    intro d' c h
    by_cases hd : d' = d
    · subst hd
      simp only [give_owner, Function.update_self, Option.some.injEq] at h
      exact .inl ⟨rfl, h.symm⟩
    · exact .inr (by simpa [hd] using h)
  refine ⟨fun {d' c} h => ?_, fun {d' c} h => ?_, fun e' he' d' c hp' => ?_, fun e' he' d' c hcl h => ?_, fun c => ?_⟩
  · rcases howner h with ⟨-, rfl⟩ | h
    · exact Nat.lt_succ_self _
    · exact Nat.lt_succ_of_lt (hi.below h)
  · rcases howner h with ⟨rfl, rfl⟩ | h
    · exact Function.update_self _ _ _
    · exact hold (hi.owner h) (hi.below h)
  · rcases List.mem_append.mp he' with he' | he'
    · obtain ⟨hh, hlt⟩ := hi.log e' he' hp'
      exact ⟨hold hh hlt, Nat.lt_succ_of_lt hlt⟩
    · rw [List.mem_singleton.mp he', hp] at hp'
      cases hp'
      exact ⟨Function.update_self _ _ _, Nat.lt_succ_self _⟩
  · rcases List.mem_append.mp he' with he' | he'
    · rcases howner h with ⟨-, rfl⟩ | h
      · obtain ⟨d'', hp'⟩ := Event.place_of_closes hcl
        exact Nat.lt_irrefl _ (hi.log e' he' hp').2
      · exact hi.closed e' he' hcl h
    · rw [List.mem_singleton.mp he', hc] at hcl
      cases hcl
  · exact (hi.silent c).append (hs c)

theorem close (hi : o.Filed home) : (o.close d).Filed home := by
  have howner : ∀ {d' c}, (o.close d).owner d' = some c → d' ≠ d ∧ o.owner d' = some c := by
    intro d' c h
    by_cases hd : d' = d
    · subst hd
      simp at h
    · exact ⟨hd, by simpa [hd] using h⟩
  have hplace : ∀ {d' c}, (Event.close d (o.owner d)).place = some (d', c) → d' = d ∧ o.owner d = some c := by
    intro d' c h
    cases ho : o.owner d <;> rw [ho] at h <;> cases h
    exact ⟨rfl, rfl⟩
  refine ⟨fun h => hi.below (howner h).2, fun h => hi.owner (howner h).2, fun e' he' d' c hp => ?_,
    fun e' he' d' c hcl h => ?_, fun c => (hi.silent c).append rfl⟩
  · rcases List.mem_append.mp he' with he' | he'
    · exact hi.log e' he' hp
    · rw [List.mem_singleton.mp he'] at hp
      obtain ⟨rfl, ho⟩ := hplace hp
      exact ⟨hi.owner ho, hi.below ho⟩
  · obtain ⟨hne, h⟩ := howner h
    rcases List.mem_append.mp he' with he' | he'
    · exact hi.closed e' he' hcl h
    · rw [List.mem_singleton.mp he'] at hcl
      obtain ⟨d'', hp⟩ := Event.place_of_closes hcl
      obtain ⟨-, ho⟩ := hplace hp
      exact hne ((hi.owner h).symm.trans (hi.owner ho))

/-- **A call** keeps the connections under their descriptors. -/
theorem call (hi : o.Filed home) (h : o.Call o') : ∃ home', o'.Filed home' := by
  cases h with
  | record hq hs => exact ⟨_, hi.record hq hs⟩
  | socket d =>
    unfold Os.socket
    split
    · exact ⟨_, hi.record rfl trivial⟩
    · exact ⟨_, hi.give rfl (fun _ => rfl) fun _ => rfl⟩
  | accept fd d => exact ⟨_, hi.give rfl (fun _ => rfl) fun _ => rfl⟩
  | close d => exact ⟨_, hi.close⟩

/-- So does a number of calls. -/
theorem calls (hi : ∃ home, o.Filed home) (h : Calls o o') : ∃ home, o'.Filed home := by
  induction h with
  | refl => exact hi
  | tail _ hc ih =>
    obtain ⟨home, hi⟩ := ih
    exact hi.call hc

end Filed

end Os

theorem Op.exec_calls (op : Op) (a : Answer) (e : Endpoint) (os : Os) : Os.Calls os (op.exec a e os).2 := by
  cases op with
  | socket => exact .one (.socket _)
  | resetFd | zeroAddr | setPort | setListenAddr | setGroup | watch | thread => exact .refl
  | _ => exact .one (.record rfl trivial)

/-- A step of the server makes a number of calls. -/
theorem TcpServer.Step.calls {s s' : TcpServer.State} {a : TcpServer.Action} (h : TcpServer.Step s a s') :
    Os.Calls s.os s'.os := by
  have hsend : ∀ (cl : TcpServer.Client) msg ans, Os.Calls s.os (cl.sendMsg s.os msg ans).1 := by
    intro cl msg ans
    rcases cl.sendMsg_os s.os msg ans with he | he
    · rw [he]
    · rw [he]
      exact .one (.record rfl rfl)
  cases h with
  | publish =>
    refine .one (.record ?_ ?_)
    · cases ‹TcpServer.Callback› <;> rfl
    · cases ‹TcpServer.Callback› <;> trivial
  | accept => exact .one (.accept _ _)
  | startNext => exact Op.exec_calls _ _ _ _
  | startFails => exact (Op.exec_calls _ _ _ _).append rfl trivial
  | deleteClose | finishClose => exact .one (.close _)
  | bcastSend => exact hsend _ _ _
  | bcastFails | send => exact (hsend _ _ _).append rfl trivial
  | finishEnd => exact (Os.Calls.closeValid _ _).append rfl trivial
  | recvEnd | recvData => exact .one (.record rfl rfl)
  | _ => exact (by first | exact .refl | exact .one (.record rfl trivial))

/-- A step of a client or a UDP socket makes a number of calls. -/
theorem Receiver.Step.calls {k : Receiver.Kind} {s s' : Receiver.State} {a : Receiver.Action}
    (h : Receiver.Step k s a s') : Os.Calls s.os s'.os := by
  have hsend : ∀ msg ans, Os.Calls s.os (Receiver.sendMsg k s msg ans).1 := by
    intro msg ans
    cases k with
    | tcpClient =>
      rw [Receiver.sendMsg_eq s ⟨msg, ans⟩]
      exact .one (.record rfl rfl)
    | udpSocket =>
      have hto : Os.Calls s.os (s.os.record (.sendTo s.sockfd msg s.addr ans.ret)) := .one (.record rfl trivial)
      unfold Receiver.sendMsg
      simp only
      split
      · split
        · exact hto
        · split <;> exact hto
      · exact .refl
  cases h with
  | publish =>
    refine .one (.record ?_ ?_)
    · cases ‹Receiver.Callback› <;> rfl
    · cases ‹Receiver.Callback› <;> trivial
  | startNext => exact Op.exec_calls _ _ _ _
  | startFails => exact (Op.exec_calls _ _ _ _).append rfl trivial
  | sendMsg => exact (hsend _ _).append rfl trivial
  | recv => exact .one (.record rfl rfl)
  | finishClose => exact Os.Calls.closeValid _ _
  | _ => exact (by first | exact .refl | exact .one (.record rfl trivial))

namespace System

/-! ### The system -/

/-- One of the objects. -/
inductive Party where
  /-- A `TcpServer`. -/
  | server (i : ℕ)
  /-- A `TcpClient`. -/
  | client (i : ℕ)
  /-- A `UdpSocket`. -/
  | socket (i : ℕ)
  deriving DecidableEq

namespace Party

/-- The object with everything that acts on it. -/
abbrev State : Party → Type
  | server _ => TcpServer.State
  | client _ | socket _ => Receiver.State

/-- A step of some thread. -/
abbrev Action : Party → Type
  | server _ => TcpServer.Action
  | client _ | socket _ => Receiver.Action

/-- The class as a machine. -/
def machine : ∀ p : Party, Machine p.State p.Action
  | server _ => TcpServer.machine
  | client _ => Receiver.machine .tcpClient
  | socket _ => Receiver.machine .udpSocket

/-- The operating system, as far as the object uses it. -/
def os : ∀ p : Party, p.State → Os
  | server _, s => s.os
  | client _, s => s.os
  | socket _, s => s.os

/-- An object just constructed; `msg` is what the buffer of a server will hold. -/
def fresh (options : SocketOpt) (msg : List UInt8) : ∀ p : Party, p.State
  | server _ => TcpServer.fresh options msg
  | client _ | socket _ => Receiver.fresh options

theorem fresh_os (options : SocketOpt) (msg : List UInt8) (p : Party) : p.os (p.fresh options msg) = {} := by
  cases p <;> rfl

/-- A step makes a number of calls. -/
theorem calls {p : Party} {s s' : p.State} {a : p.Action} (h : p.machine.step s a = some s') :
    Os.Calls (p.os s) (p.os s') := by
  cases p with
  | server i => exact (TcpServer.Step.of_step h).2.calls
  | client i => exact (Receiver.Step.of_step h).2.calls
  | socket i => exact (Receiver.Step.of_step h).2.calls

end Party

/-- The objects, and what all of them logged. -/
abbrev State := Family Party.State Event

/-- A step of one of them. -/
abbrev Action := Σ p : Party, p.Action

/-- The system. -/
def machine : Machine State Action := Machine.family Party.machine fun p s => (p.os s).log

/-- The objects have just been constructed. -/
def init (options : Party → SocketOpt) (msg : Party → List UInt8) : State where
  member p := p.fresh (options p) (msg p)

/-- What one of them logged. -/
def State.log (y : State) (p : Party) : List Event := (p.os (y.member p)).log

section

variable {ok : State → Action → Prop} {options : Party → SocketOpt} {msg : Party → List UInt8} {y : State}

/-- **The history has the log of each object.** -/
theorem log_history (h : machine.Reach ok (init options msg) y) (p : Party) : logOf p y.history = y.log p :=
  h.logOf_history (fun _ _ _ _ hs => (Party.calls hs).log_grows)
    (fun p => (congrArg Os.log (p.fresh_os (options p) (msg p))).symm) p

/-- **Each connection is open under one descriptor only**, and nothing is sent on it after `Close`. -/
theorem filed (h : machine.Reach ok (init options msg) y) (p : Party) : ∃ home, (p.os (y.member p)).Filed home := by
  have h₀ : ∃ home, (p.os ((init options msg).member p)).Filed home :=
    ⟨_, (p.fresh_os (options p) (msg p)) ▸ Os.Filed.init⟩
  exact (h.member p).invariant (I := fun s => ∃ home, (p.os s).Filed home) h₀
    fun _ _ _ hi _ hs => Os.Filed.calls hi (Party.calls hs)

end

end System

end SocketsCpp
