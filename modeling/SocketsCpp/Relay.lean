import SocketsCpp.Receiver.Delivery
import SocketsCpp.TcpServer.Callbacks

/-!
# What the callbacks hand on

The threads of `TcpServer` and `TcpClient` hand on to the application what `Recv` returned, one item after
the other, whatever the other threads do meanwhile. An item belongs to the connection that the last `Recv`
was called on: the callbacks themselves name a handle, or nothing.

* `relayed` — what the callbacks were given, each item with the connection of the last `Recv`.
* `TcpServer.relays`, `Receiver.relays` — in every run this is what was received, but for the item that is
  just being handed on.
-/

namespace SocketsCpp

open SocketsCpp.Library

/-! ### Logs -/

/-- The last `Recv`, and what the callbacks were given. -/
structure Relay where
  /-- The descriptor and the connection of the last `Recv`. -/
  last : SOCKET × Option ConnId := (INVALID_SOCKET, none)
  /-- What the callbacks were given. -/
  items : List Item := []

/-- What `onDisconnect` is given when the server has closed the connection. -/
def serverClosed : SocketRet := .fail "Server closed connection"

/-- The relay after an event. -/
def Relay.next (v : Relay) : Event → Relay
  | .recv d c _ => { v with last := (d, c) }
  | .onReceiveClientData h bytes => { v with items := v.items ++ [(h, v.last.2, some bytes)] }
  | .onClientDisconnect h _ => { v with items := v.items ++ [(h, v.last.2, none)] }
  | .onReceiveData bytes => { v with items := v.items ++ [(v.last.1, v.last.2, some bytes)] }
  | .onDisconnect ret =>
      if ret = serverClosed then { v with items := v.items ++ [(v.last.1, v.last.2, none)] } else v
  | _ => v

/-- The relay of a log. -/
def relay (log : List Event) : Relay := log.foldl Relay.next {}

/-- What the callbacks were given, each item with the connection of the last `Recv`. -/
def relayed (log : List Event) : List Item := (relay log).items

@[simp] theorem relay_append (log : List Event) (e : Event) : relay (log ++ [e]) = (relay log).next e := by
  simp [relay]

/-- Neither a `Recv` nor a callback that hands something on. -/
def Event.unheard : Event → Bool
  | .recv _ _ _ | .onReceiveClientData _ _ | .onClientDisconnect _ _ | .onReceiveData _ | .onDisconnect _ =>
      false
  | _ => true

theorem Event.received_of_unheard {e : Event} (h : e.unheard = true) : e.received = none := by
  cases e <;> first | rfl | cases h

theorem Relay.next_of_unheard {e : Event} (h : e.unheard = true) (v : Relay) : v.next e = v := by
  cases e <;> first | rfl | cases h

theorem Event.unheard_of_setup {e : Event} (h : e.setup = true) : e.unheard = true := by
  cases e <;> first | rfl | cases h

/-- What was received was handed on, but for what is still to be handed on. -/
def HandsOn (log : List Event) (pending : SOCKET × Option ConnId → List Item) : Prop :=
  received log = relayed log ++ pending (relay log).last

namespace HandsOn

variable {log log' : List Event} {pending pending' : SOCKET × Option ConnId → List Item}

theorem move (h : HandsOn log pending) (hp : ∀ x, pending' x = pending x) : HandsOn log pending' :=
  h.trans (by rw [hp])

theorem grows (h : HandsOn log pending) (hg : Grows Event.unheard log log') : HandsOn log' pending := by
  induction hg with
  | refl => exact h
  | append _ he ih =>
    unfold HandsOn relayed at ih ⊢
    rw [received_append, Event.received_of_unheard he, relay_append, Relay.next_of_unheard he]
    simpa using ih

/-- A `Recv`, with nothing left to hand on before. -/
theorem recv {d : SOCKET} {c : Option ConnId} {res : Option (List UInt8)} (h : HandsOn log pending)
    (hp : ∀ x, pending x = [])
    (hp' : (Event.recv d c res).received.toList = pending' (d, c)) :
    HandsOn (log ++ [.recv d c res]) pending' := by
  unfold HandsOn relayed at h ⊢
  rw [received_append, relay_append, h, hp, List.append_nil, hp']
  rfl

/-- A callback. -/
theorem hand {e : Event} (h : HandsOn log pending) (he : e.received = none)
    (hp : ∀ v : Relay, (v.next e).items = v.items ++ pending v.last) (hp' : ∀ x, pending' x = []) :
    HandsOn (log ++ [e]) pending' := by
  unfold HandsOn relayed at h ⊢
  rw [received_append, relay_append, h, he, hp, hp']
  simp

end HandsOn

/-! ### The server -/

namespace TcpServer

/-- What the server thread is just handing on, `last` being the last `Recv`. -/
def Pc.onHand (pc : Pc) (msg : List UInt8) (last : SOCKET × Option ConnId) : List Item :=
  pendingItems (fun _ => last.2) msg pc

/-- Without a thread nothing runs. -/
def Threadless (s : State) : Prop := s.thread = false → s.pc.stopped

theorem Step.threadless {s s' : State} {a : Action} (h : Step s a s') (hi : Threadless s) :
    Threadless s' := by
  cases h with
  | startNext => exact fun ht => hi ((Op.exec_thread _ _ _ _).symm.trans ht)
  | startFails => exact fun ht => hi ((Op.exec_thread _ _ _ _).symm.trans ht)
  | startThread => exact fun ht => by cases ht
  | taskReturns => exact fun _ => .inr rfl
  | finishJoin _ _ hp => exact fun _ => .inr hp
  | callApp | callCallback | startWatch | startAborts | deleteFound | deleteNone | deleteClose | deleteClr
  | deleteErase | bcastLock | bcastEnd | bcastSend | bcastFails | sendFound | sendNone | send | infoFound
  | infoNone | finish | finishNoThread | finishSelf | finishLock | finishClose | finishEnd => exact hi
  | _ => exact fun ht => absurd (hi ht) (by simp [Pc.stopped, *])

theorem Step.relays {s s' : State} {a : Action} (h : Step s a s') (ht : Threadless s)
    (hi : HandsOn s.os.log (s.pc.onHand s.msg)) : HandsOn s'.os.log (s'.pc.onHand s'.msg) := by
  have hsetup := fun (log log' : List Event) (hl : Grows Event.setup log log') =>
    hl.mono fun _ => Event.unheard_of_setup
  have hsend := Client.sendMsg_grows (p := Event.unheard) fun _ _ _ _ => rfl
  cases h with
  | @recvEnd r c res hp hres =>
    refine hi.recv (fun x => by rw [hp]; rfl) ?_
    rcases res with _ | _ | ⟨b, bs⟩
    · rfl
    · rfl
    · simp only [numOfBytesReceived, List.length_cons] at hres
      omega
  | @recvData r c bytes hp hne =>
    refine hi.recv (fun x => by rw [hp]; rfl) ?_
    simp [Event.received, hne, Pc.onHand, pendingItems, recvInto]
  | @publish r cb hp =>
    refine hi.hand ?_ (fun v => ?_) fun _ => rfl
    · cases cb <;> rfl
    · rw [hp]
      cases cb <;> simp [Relay.next, Callback.event, Pc.onHand, pendingItems]
  | @disconnectEof r c hp =>
    rw [hp] at hi
    exact hi
  | @disconnectError r c n hp hn =>
    rw [hp] at hi
    exact hi.move fun x => by simp [Pc.onHand, pendingItems, hn]
  | deleteReturns hp =>
    rw [hp] at hi
    exact hi
  | startThread _ _ hth =>
    refine (hi.grows (.one rfl)).move fun x => ?_
    rcases ht hth with hp | hp <;> rw [hp] <;> rfl
  | startNext => exact hi.grows (hsetup _ _ (Op.exec_log _ _ _ _))
  | startFails => exact hi.grows ((hsetup _ _ (Op.exec_log _ _ _ _)).append rfl)
  | bcastSend => exact hi.grows (hsend _ _ _ _)
  | bcastFails | send => exact hi.grows (.append (hsend _ _ _ _) rfl)
  | finishEnd => exact hi.grows (.append (Os.closeValid_grows fun _ _ => rfl) rfl)
  | callApp | callCallback | startWatch | startAborts | deleteFound | deleteNone | deleteClose | deleteClr
  | deleteErase | bcastLock | bcastEnd | sendFound | sendNone | infoFound
  | infoNone | finish | finishJoin | finishNoThread | finishSelf | finishLock | finishClose =>
    exact hi.grows (by first | exact .refl | exact .one rfl)
  | testStop hp | taskReturns hp | copyFds hp | findMaxFd hp | select hp | selectFails hp | selectReady hp
  | forReady hp | forSkip hp | forEnd hp | lookupClient hp | lookupNone hp | callbackReturns hp
  | acceptFails hp | accept hp | emplace hp | fdSet hp =>
    rw [hp] at hi
    exact hi.grows (by first | exact .refl | exact .one rfl)

/-- **The server thread hands on what it received**, in every run. -/
theorem relays {options : SocketOpt} {msg : List UInt8} {s : State}
    (h : machine.Reach Machine.Any (fresh options msg) s) : HandsOn s.os.log (s.pc.onHand s.msg) := by
  have ht : ∀ s, machine.Reach Machine.Any (fresh options msg) s → Threadless s := fun s hr =>
    hr.invariant (fun _ => .inl rfl) fun _ _ _ hi _ hs => (Step.of_step hs).2.threadless hi
  have h₀ : HandsOn (fresh options msg).os.log ((fresh options msg).pc.onHand msg) := rfl
  exact h.invariant_of ht h₀ fun _ _ _ ht hi _ hs => (Step.of_step hs).2.relays ht hi

end TcpServer

/-! ### The client -/

namespace Receiver

/-- What the receive thread is just handing on, `last` being the last `Recv`. -/
def Pc.onHand (pc : Pc) (last : SOCKET × Option ConnId) : List Item :=
  match pc with
  | .publish (.data bytes) => [(last.1, last.2, some bytes)]
  | .publish (.disconnect ret) | .setStop ret =>
      if ret = serverClosed then [(last.1, last.2, Option.none)] else []
  | _ => []

/-- A failure of `Recv` is told in other words than the end of the stream. -/
theorem disconnectRet_none (errno : ℤ) : disconnectRet none errno ≠ serverClosed := by
  intro h
  have htext : (s!"Error: recv() failed errno {errno}").toList.head? = "Server closed connection".toList.head? :=
    congrArg (fun ret => ret.msg.toList.head?) h
  simp [toString] at htext

theorem Step.relays {s s' : State} {a : Action} (h : Step .tcpClient s a s') (hj : Joined s)
    (hi : HandsOn s.os.log s.pc.onHand) : HandsOn s'.os.log s'.pc.onHand := by
  cases h with
  | @recv res errno hp =>
    refine hi.recv (fun x => by rw [hp]; rfl) ?_
    rcases res with _ | _ | ⟨b, bs⟩
    · simp [Event.received, afterRecv, Pc.onHand, disconnectRet_none]
    · simp [Event.received, afterRecv, Pc.onHand, disconnectRet, serverClosed]
    · rfl
  | @publish cb hp =>
    refine hi.hand ?_ (fun v => ?_) fun _ => rfl
    · cases cb <;> rfl
    · rw [hp]
      cases cb with
      | data bytes => rfl
      | disconnect ret =>
        simp only [Relay.next, Callback.event, Pc.onHand]
        split <;> simp
  | setStop hp =>
    rw [hp] at hi
    exact hi.grows (.one rfl)
  | startThread _ _ hth =>
    refine (hi.grows (.one rfl)).move fun x => ?_
    rcases hj hth with hp | hp <;> rw [hp] <;> rfl
  | startNext => exact hi.grows ((Op.exec_log _ _ _ _).mono fun _ => Event.unheard_of_setup)
  | startFails => exact hi.grows (((Op.exec_log _ _ _ _).mono fun _ => Event.unheard_of_setup).append rfl)
  | sendMsg =>
    exact hi.grows ((sendMsg_notes (fun _ _ _ _ => rfl) (fun _ _ _ _ => rfl) _ _ _ _).log.append rfl)
  | finishClose => exact hi.grows (Os.closeValid_grows fun _ _ => rfl)
  | call | startAborts | finish | finishJoin | finishNoThread | finishSelf | finishReset =>
    exact hi.grows (by first | exact .refl | exact .one rfl)
  | testStop hp | guard hp =>
    rw [hp] at hi
    exact hi.move fun x => by simp only; split <;> rfl
  | isset hp =>
    rw [hp] at hi
    exact (hi.grows (.one rfl)).move fun x => by simp only; split <;> rfl
  | @callbackReturns cb hp =>
    rw [hp] at hi
    cases cb <;> exact hi
  | taskReturns hp | fdSet hp | select hp | selectFails hp | selectReady hp | checkStop hp | checkReturns hp =>
    rw [hp] at hi
    exact hi.grows (by first | exact .refl | exact .one rfl)

/-- **The receive thread of a TCP client hands on what it received**, in every run. -/
theorem relays {options : SocketOpt} {s : State}
    (h : (machine .tcpClient).Reach Machine.Any (fresh options) s) : HandsOn s.os.log s.pc.onHand := by
  have h₀ : HandsOn (fresh options).os.log (fresh options).pc.onHand := rfl
  exact h.invariant_of (fun _ hr => (Loop.reach hr).joined) h₀
    fun _ _ _ hj hi _ hs => (Step.of_step hs).2.relays hj hi

end Receiver

end SocketsCpp
