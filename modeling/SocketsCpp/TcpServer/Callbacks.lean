import SocketsCpp.TcpServer.Failures
import SocketsCpp.Library.Sessions

/-!
# Callbacks

What the application is told about its clients in sequential runs.

* `clientLog` — the callbacks and the deletions of one handle. They are sessions: a
  `connect`, any number of `data`, and a `disconnect` or a deletion.
* `received` and `delivered` — what the calls of `Recv` returned, and what the callbacks
  were given, each with the descriptor and the connection. The two are the same, but for
  what is just being delivered.
-/

namespace SocketsCpp

open SocketsCpp.Library

/-! ### Logs -/

/-- What the application sees of one client. -/
inductive Symbol where
  /-- `onClientConnect`. -/
  | connect
  /-- `onReceiveClientData`. -/
  | data (bytes : List UInt8)
  /-- `onClientDisconnect`. -/
  | disconnect
  /-- `deleteClient`, called by the application or by a callback, returned true. -/
  | deleted

/-- Sessions of one handle: connect, data, disconnect or deleted. -/
def sessions : Sessions Symbol where
  opens a := a = .connect
  continues a := ∃ bytes, a = .data bytes
  closes a := a = .disconnect ∨ a = .deleted

/-- What an event is for the client under `h`. -/
def Event.symbol (h : ClientHandle) : Event → Option Symbol
  | .onClientConnect h' => if h' = h then some .connect else none
  | .onReceiveClientData h' bytes => if h' = h then some (.data bytes) else none
  | .onClientDisconnect h' _ => if h' = h then some .disconnect else none
  | .deleteClient w h' (some _) => if h' = h ∧ w ≠ .serverTask then some .deleted else none
  | _ => none

/-- The log of the client under `h`. -/
def clientLog (h : ClientHandle) (log : List Event) : List Symbol := log.filterMap (Event.symbol h)

/-- What comes in on a connection, under a descriptor: bytes, or the end. -/
abbrev Item := SOCKET × Option ConnId × Option (List UInt8)

/-- What a call of `Recv` returned, unless it failed. -/
def Event.received : Event → Option Item
  | .recv d c (some bytes) => some (d, c, if bytes = [] then none else some bytes)
  | _ => none

/-- What the calls of `Recv` returned. -/
def received (log : List Event) : List Item := log.filterMap Event.received

/-- The connection last accepted under each number, and what the callbacks were given. -/
structure Delivery where
  /-- The connection last accepted. -/
  current : SOCKET → Option ConnId := fun _ => none
  /-- What the callbacks were given. -/
  items : List Item := []

/-- The delivery after an event. -/
def Delivery.next (v : Delivery) : Event → Delivery
  | .accept _ (some (d, c)) => { v with current := Function.update v.current d (some c) }
  | .onReceiveClientData h bytes => { v with items := v.items ++ [(h, v.current h, some bytes)] }
  | .onClientDisconnect h _ => { v with items := v.items ++ [(h, v.current h, none)] }
  | _ => v

/-- The delivery of a log. -/
def delivery (log : List Event) : Delivery := log.foldl Delivery.next {}

/-- What the callbacks were given, each with the connection last accepted under the handle. -/
def delivered (log : List Event) : List Item := (delivery log).items

@[simp] theorem clientLog_append (h : ClientHandle) (log : List Event) (e : Event) :
    clientLog h (log ++ [e]) = clientLog h log ++ (e.symbol h).toList := by
  cases he : e.symbol h <;> simp [clientLog, he]

@[simp] theorem received_append (log : List Event) (e : Event) :
    received (log ++ [e]) = received log ++ e.received.toList := by
  cases he : e.received <;> simp [received, he]

@[simp] theorem delivery_append (log : List Event) (e : Event) :
    delivery (log ++ [e]) = (delivery log).next e := by
  simp [delivery]

/-- An event that is none of these. -/
def Event.neutral : Event → Bool
  | .onClientConnect _ | .onReceiveClientData _ _ | .onClientDisconnect _ _ | .deleteClient _ _ (some _)
  | .recv _ _ (some _) | .accept _ (some _) => false
  | _ => true

theorem Event.symbol_of_neutral {e : Event} (h : e.neutral = true) (x : ClientHandle) :
    e.symbol x = none := by
  cases e with
  | deleteClient w h' c => cases c <;> first | rfl | cases h
  | _ => first | rfl | cases h

theorem Event.received_of_neutral {e : Event} (h : e.neutral = true) : e.received = none := by
  cases e with
  | recv d c res => cases res <;> first | rfl | cases h
  | _ => rfl

theorem Delivery.next_of_neutral {e : Event} (h : e.neutral = true) (v : Delivery) : v.next e = v := by
  cases e with
  | accept d res => cases res <;> first | rfl | cases h
  | _ => first | rfl | cases h

namespace TcpServer

/-! ### The sessions of a handle -/

/-- The client under `h` was accepted, and `onClientConnect` not called yet. -/
def Pc.connecting (pc : Pc) (h : ClientHandle) : Bool :=
  match pc with
  | .fdSet _ d | .publish _ (.connect d) => d = h
  | _ => false

/-- The client under `h` closed the connection, and `onClientDisconnect` is not called yet. -/
def Pc.leaving (pc : Pc) (h : ClientHandle) : Bool :=
  match pc with
  | .deleting r => r.fd = h
  | .publish _ (.disconnect d) => d = h
  | _ => false

/-- The application knows the client under `h`. -/
def inSession (pc : Pc) (clients : Clients) (h : ClientHandle) : Bool :=
  (decide (h ∈ clients) && !pc.connecting h) || pc.leaving h

/-- What the server thread is about to announce, and the table. -/
structure Announced (s : State) : Prop where
  /-- A client that is announced is in the table. -/
  connecting : ∀ h, s.pc.connecting h = true → h ∈ s.clients
  /-- A client whose data is published is in the table. -/
  data : ∀ r h n, s.pc = .publish r (.data h n) → h ∈ s.clients
  /-- A client whose connection ended is in the table until it is deleted. -/
  deleting : ∀ r, s.pc = .deleting r → r.fd ∈ s.clients → s.taskDeletes r.fd
  /-- The server thread deletes the client whose connection ended. -/
  task : ∀ h, s.taskDeletes h → ∃ r, s.pc = .deleting r ∧ r.fd = h
  /-- The server thread makes no other call. -/
  caller : s.calls .serverTask ≠ .idle → ∃ h, s.taskDeletes h
  /-- A client that left is not in the table. -/
  left : ∀ r h, s.pc = .publish r (.disconnect h) → h ∉ s.clients

/-- Something is about to be announced. -/
def Pc.announces : Pc → Bool
  | .fdSet _ _ | .publish _ _ | .deleting _ => true
  | _ => false

/-- The server thread does not delete a client. -/
theorem Announced.of_not_deleting {s : State} (ho : Orderly s) (hd : ∀ r, s.pc ≠ .deleting r)
    (hc : ∀ h, s.pc.connecting h = true → h ∈ s.clients)
    (hm : ∀ r h n, s.pc = .publish r (.data h n) → h ∈ s.clients)
    (hl : ∀ r h, s.pc = .publish r (.disconnect h) → h ∉ s.clients) : Announced s :=
  ⟨hc, hm, fun r he => absurd he (hd r), fun h ht => absurd ht (ho.not_taskDeletes hd h),
    fun hidle => absurd (ho.placed.task_idle hd) hidle, hl⟩

theorem Announced.of_pc {s : State} (ho : Orderly s) (hp : s.pc.announces = false) : Announced s := by
  have hd : ∀ r, s.pc ≠ .deleting r := by intro r h; rw [h] at hp; cases hp
  refine .of_not_deleting ho hd (fun h hc => ?_) (fun r h n he => ?_) fun r h he => ?_
  · cases hpc : s.pc <;> simp_all [Pc.announces, Pc.connecting]
  · rw [he] at hp; cases hp
  · rw [he] at hp; cases hp

/-- While the server thread deletes a client nobody else makes a call. -/
theorem Announced.at_deleting {s : State} (hi : Announced s) (ht : InTurn s) (ho : Orderly s)
    {r : Round} (hp : s.pc = .deleting r) {w : Caller} (hc : s.calls w ≠ .idle) :
    w = .serverTask ∧ s.taskDeletes r.fd := by
  have hw : w = .serverTask := by
    cases w with
    | serverTask => rfl
    | callback => exact absurd (ho.placed.callback_idle (by simp [hp])) hc
    | app n => exact absurd (ht.app n hc).2 (by simp [hp, Pc.isWaiting])
  subst hw
  obtain ⟨h, htd⟩ := hi.caller hc
  obtain ⟨r', hp', rfl⟩ := hi.task h htd
  rw [hp] at hp'
  cases hp'
  exact ⟨rfl, htd⟩

/-- Where a call is being made, nothing is announced, or the server thread deletes a client. -/
theorem InTurn.call_pc {s : State} (ht : InTurn s) (ho : Orderly s) {w : Caller}
    (hc : s.calls w ≠ .idle) : s.pc.announces = false ∨ ∃ r, s.pc = .deleting r := by
  cases w with
  | serverTask => exact .inr (ho.placed.task hc)
  | callback =>
    obtain ⟨r, cb, hp⟩ := ho.placed.callback hc
    exact .inl (by rw [hp]; rfl)
  | app n =>
    have hw := (ht.app n hc).2
    exact .inl (by cases hp : s.pc <;> simp_all [Pc.announces, Pc.isWaiting])

/-- A call that does not delete a client goes on. -/
theorem Announced.other_call {s s' : State} (hi : Announced s) (ht : InTurn s) (ho : Orderly s)
    (ho' : Orderly s') {w : Caller} {p : CallPc} (hc : s.calls w = p) (hidle : p ≠ .idle)
    (hdel : ∀ x, p ≠ .deleteClient x)
    (hm : ∀ sec x, s.mutex = some (w, sec) → sec.deletes = some x → p ≠ .locked) (hpc : s'.pc = s.pc) :
    Announced s' := by
  have hc' : s.calls w ≠ .idle := by rw [hc]; exact hidle
  rcases ht.call_pc ho hc' with hp | ⟨r, hp⟩
  · exact .of_pc ho' (by rw [hpc]; exact hp)
  · obtain ⟨rfl, htd⟩ := hi.at_deleting ht ho hp hc'
    rcases htd with htd | ⟨sec, hsec, hd⟩
    · exact absurd (hc.symm.trans htd) (hdel _)
    · exact absurd (hc.symm.trans ((ho.discipline _).mpr ⟨sec, hsec⟩)) (hm sec _ hsec hd)

/-- The call of `deleteClient` goes on: `h` is still being deleted, or is not in the table. -/
theorem Announced.delete_call {s s' : State} (hi : Announced s) (ht : InTurn s) (ho : Orderly s)
    (ho' : Orderly s') {w : Caller} {x : ClientHandle} (hc : s.calls w ≠ .idle) (hpc : s'.pc = s.pc)
    (hx : w = .serverTask → ∀ h, s.taskDeletes h → h = x)
    (hnext : w = .serverTask →
      (∀ h, s'.taskDeletes h ↔ h = x) ∨
        (x ∉ s'.clients ∧ (∀ h, ¬ s'.taskDeletes h) ∧ s'.calls .serverTask = .idle)) :
    Announced s' := by
  rcases ht.call_pc ho hc with hp | ⟨r, hp⟩
  · exact .of_pc ho' (by rw [hpc]; exact hp)
  · obtain ⟨rfl, htd⟩ := hi.at_deleting ht ho hp hc
    have hrx : r.fd = x := hx rfl _ htd
    subst hrx
    have hp' : s'.pc = .deleting r := hpc.trans hp
    refine ⟨fun h he => by simp [hp', Pc.connecting] at he, fun _ _ _ he => by simp [hp'] at he,
      fun r' he hmem => ?_, fun h htd' => ?_, fun hidle => ?_, fun _ _ he => by simp [hp'] at he⟩
    · rw [hp'] at he
      cases he
      rcases hnext rfl with hall | ⟨hnot, -, -⟩
      · exact (hall _).mpr rfl
      · exact absurd hmem hnot
    · rcases hnext rfl with hall | ⟨-, hnone, -⟩
      · exact ⟨r, hp', ((hall h).mp htd').symm⟩
      · exact absurd htd' (hnone h)
    · rcases hnext rfl with hall | ⟨-, -, hcalls⟩
      · exact ⟨r.fd, (hall _).mpr rfl⟩
      · exact absurd hcalls hidle

theorem Step.announced {s s' : State} {a : Action} (h : Step s a s') (hok : Sequential s a)
    (hs : Settled s) (hi : Announced s) : Announced s' := by
  have ho := hs.account.orderly
  have ht := hs.inTurn
  have ho' := h.orderly (Action.regular_of_sequential hok.1) ho
  have hns := ho.noStart
  cases h with
  | startNext hc | startFails hc | startWatch hc | startThread hc | startAborts hc =>
    exact absurd hc (hns _ _)
  | @emplace r d c hp hm =>
    refine .of_not_deleting ho' (by simp) (fun h he => ?_) (by simp) (by simp)
    obtain rfl : d = h := by simpa [Pc.connecting] using he
    exact Clients.mem_emplace.mpr (.inl rfl)
  | @fdSet r d hp =>
    refine .of_not_deleting ho' (by simp) (fun h he => ?_) (by simp) (by simp)
    exact hi.connecting h (by rw [hp]; exact he)
  | @recvData r c bytes hp =>
    refine .of_not_deleting ho' (by simp) (by simp [Pc.connecting]) (fun r' h n he => ?_) (by simp)
    cases he
    exact Clients.mem_of_conn (hs.pointing _ c (by rw [hp]; rfl))
  | @disconnectEof r c hp =>
    have hm := ht.mutex_free ho (by rw [hp]; rfl)
    refine ⟨fun h he => by simp [Pc.connecting] at he, by simp, fun r' he _ => ?_, fun h htd => ?_,
      fun _ => ⟨r.fd, .inl (by simp)⟩, by simp⟩
    · cases he
      exact .inl (by simp)
    · refine ⟨r, rfl, ?_⟩
      rcases htd with htd | ⟨sec, hsec, -⟩
      · simpa using htd
      · rw [State.goto, hm] at hsec
        cases hsec
  | @deleteReturns r hp hidle =>
    refine .of_not_deleting ho' (by simp) (by simp [Pc.connecting]) (by simp) fun r' h he => ?_
    cases he
    intro hmem
    rcases hi.deleting r hp hmem with htd | ⟨sec, hsec, -⟩
    · rw [hidle] at htd; cases htd
    · have := (ho.discipline _).mpr ⟨sec, hsec⟩
      rw [hidle] at this
      cases this
  | @callApp n c hc =>
    refine .of_pc ho' ?_
    have hw : s.pc.isWaiting = true := hok.2
    show s.pc.announces = false
    cases hp : s.pc <;> simp_all [Pc.announces, Pc.isWaiting]
  | callCallback hp hc =>
    refine .of_pc ho' ?_
    show s.pc.announces = false
    rw [hp]
    rfl
  | @deleteFound w x cl _ _ hc hm hl =>
    refine hi.delete_call (x := x) ht ho ho' (by rw [hc]; simp) rfl (fun hw h htd => ?_) (fun hw => .inl fun h => ?_)
    · subst hw
      simpa [State.taskDeletes, hc, hm, eq_comm] using htd
    · subst hw
      simp [State.taskDeletes, Section.deletes, eq_comm]
  | @deleteNone w x _ _ hc hm hl =>
    refine hi.delete_call (x := x) ht ho ho' (by rw [hc]; simp) rfl (fun hw h htd => ?_)
      (fun hw => .inr ⟨AList.lookup_eq_none.mp hl, fun h => ?_, ?_⟩)
    · subst hw
      simpa [State.taskDeletes, hc, hm, eq_comm] using htd
    · subst hw
      simp [State.taskDeletes, hm]
    · subst hw
      simp
  | @deleteClose w x d c _ _ hc hm | @deleteClr w x d c _ _ hc hm =>
    refine hi.delete_call (x := x) ht ho ho' (by rw [hc]; simp) rfl (fun hw h htd => ?_) (fun hw => .inl fun h => ?_)
    · subst hw
      simpa [State.taskDeletes, hc, hm, Section.deletes, eq_comm] using htd
    · subst hw
      simp [State.taskDeletes, hc, Section.deletes, eq_comm]
  | @deleteErase w x c _ _ hc hm =>
    refine hi.delete_call (x := x) ht ho ho' (by rw [hc]; simp) rfl (fun hw h htd => ?_)
      (fun hw => .inr ⟨fun hmem => (AList.mem_erase.mp hmem).1 rfl, fun h => ?_, ?_⟩)
    · subst hw
      simpa [State.taskDeletes, hc, hm, Section.deletes, eq_comm] using htd
    · subst hw
      simp [State.taskDeletes]
    · subst hw
      simp
  | bcastEnd hc hm | bcastSend hc hm | bcastFails hc hm =>
    exact hi.other_call ht ho ho' hc (by simp) (by simp)
      (fun sec x hsec hd => by rw [hm] at hsec; cases hsec; cases hd) rfl
  | bcastLock hc | sendFound hc | sendNone hc | send hc | infoFound hc | infoNone hc =>
    exact hi.other_call ht ho ho' hc (by simp) (by simp) (by simp) rfl
  | finish hc | finishJoin hc | finishNoThread hc | finishSelf hc | finishLock hc =>
    exact absurd trivial (ht.not_finishing hc)
  | finishClose _ hm | finishEnd _ hm =>
    exact absurd (ho.shutdown.closing _ _ hm) (by simp [ht.thread])
  | _ => exact .of_pc ho' rfl

/-- The log of every handle is a word of sessions, the last one open while the application knows
the client. -/
def Spoken (log : List Event) (pc : Pc) (clients : Clients) : Prop :=
  ∀ h, sessions.Word (inSession pc clients h) (clientLog h log)

namespace Spoken

variable {log : List Event} {pc pc' : Pc} {t t' : Clients}

theorem silent (h : Spoken log pc t) {e : Event} (he : ∀ x, e.symbol x = none) :
    Spoken (log ++ [e]) pc t := by
  intro x
  simpa [he x] using h x

theorem neutral (h : Spoken log pc t) {e : Event} (he : e.neutral = true) : Spoken (log ++ [e]) pc t :=
  h.silent (Event.symbol_of_neutral he)

theorem move (h : Spoken log pc t) (hs : ∀ x, inSession pc' t' x = inSession pc t x) :
    Spoken log pc' t' := by
  intro x
  rw [hs]
  exact h x

/-- The application is told about one client. -/
theorem say (h : Spoken log pc t) {e : Event} {x : ClientHandle} {a : Symbol}
    (he : ∀ y, e.symbol y = if x = y then some a else none)
    (hother : ∀ y, y ≠ x → inSession pc' t' y = inSession pc t y)
    (hword : ∀ w, sessions.Word (inSession pc t x) w → sessions.Word (inSession pc' t' x) (w ++ [a])) :
    Spoken (log ++ [e]) pc' t' := by
  intro y
  rw [clientLog_append, he]
  by_cases hxy : x = y
  · subst hxy
    simpa using hword _ (h x)
  · rw [if_neg hxy, hother y (Ne.symm hxy)]
    simpa using h y

end Spoken

theorem Step.spoken {s s' : State} {a : Action} (h : Step s a s') (hok : Sequential s a)
    (hs : Settled s) (ha : Announced s) (hi : Spoken s.os.log s.pc s.clients) :
    Spoken s'.os.log s'.pc s'.clients := by
  have ho := hs.account.orderly
  have ht := hs.inTurn
  have hns := ho.noStart
  cases h with
  | startNext hc | startFails hc | startWatch hc | startThread hc | startAborts hc =>
    exact absurd hc (hns _ _)
  | recvEnd hp | recvData hp | accept hp =>
    exact (hi.silent fun _ => rfl).move fun x => by simp [inSession, Pc.connecting, Pc.leaving, hp]
  | @disconnectEof r c hp =>
    refine hi.move fun x => ?_
    have hmem : r.fd ∈ s.clients := Clients.mem_of_conn (hs.pointing _ c (by rw [hp]; rfl))
    by_cases hx : r.fd = x
    · subst hx
      simp [inSession, Pc.connecting, Pc.leaving, hp, hmem]
    · simp [inSession, Pc.connecting, Pc.leaving, hp, hx]
  | disconnectError hp => exact hi.move fun x => by simp [inSession, Pc.connecting, Pc.leaving, hp]
  | @publish r cb hp =>
    cases cb with
    | connect x =>
      have hmem : x ∈ s.clients := ha.connecting x (by simp [hp, Pc.connecting])
      refine hi.say (x := x) (a := .connect) (fun _ => rfl) (fun y hy => ?_) fun w hw => ?_
      · simp [inSession, Pc.connecting, Pc.leaving, hp, Ne.symm hy]
      · simp only [inSession, Pc.connecting, Pc.leaving, hp] at hw ⊢
        simpa [hmem] using Sessions.Word.opened (by simpa using hw) rfl
    | data x n =>
      have hmem : x ∈ s.clients := ha.data r x n hp
      refine hi.say (x := x) (a := .data (s.msg.take n)) (fun _ => rfl) (fun y hy => ?_) fun w hw => ?_
      · simp [inSession, Pc.connecting, Pc.leaving, hp]
      · simp only [inSession, Pc.connecting, Pc.leaving, hp] at hw ⊢
        simpa [hmem] using Sessions.Word.continued (by simpa [hmem] using hw)
          (show sessions.continues (.data _) from ⟨_, rfl⟩)
    | disconnect x =>
      have hmem : x ∉ s.clients := ha.left r x hp
      refine hi.say (x := x) (a := .disconnect) (fun _ => rfl) (fun y hy => ?_) fun w hw => ?_
      · simp [inSession, Pc.connecting, Pc.leaving, hp, Ne.symm hy]
      · simp only [inSession, Pc.connecting, Pc.leaving, hp] at hw ⊢
        simpa [hmem] using Sessions.Word.closed (by simpa [hmem] using hw)
          (show sessions.closes .disconnect from .inl rfl)
  | @emplace r d c hp hm =>
    refine (hi.neutral rfl).move fun x => ?_
    have hn := hs.account.owned.emplace_fresh hp hm
    by_cases hx : d = x
    · subst hx
      simp [inSession, Pc.connecting, Pc.leaving, hp, hn]
    · simp [inSession, Pc.connecting, Pc.leaving, hp, hx, Clients.mem_emplace, Ne.symm hx]
  | @deleteErase w x c _ _ hc hm =>
    have hlocked : s.calls w ≠ .idle := by rw [hc]; simp
    have hmem : x ∈ s.clients := by
      obtain ⟨d, he⟩ : ∃ d, s.clients.entry x = some (d, c) := by
        have := hs.account.owned.reg.closable
        simpa [Registry.Closable, State.registry, hm, closingOf] using this
      exact Clients.entry_ne_none.mp (by rw [he]; simp)
    by_cases hw : w = .serverTask
    · subst hw
      obtain ⟨r, hp, rfl⟩ := ha.task x (.inr ⟨_, hm, rfl⟩)
      refine (hi.silent fun _ => by simp [Event.symbol]).move fun y => ?_
      by_cases hy : r.fd = y
      · subst hy
        simp [inSession, Pc.connecting, Pc.leaving, hp]
      · simp [inSession, Pc.connecting, Pc.leaving, hp, hy, AList.mem_erase, Ne.symm hy]
    · have hp : s.pc.announces = false := by
        rcases ht.call_pc ho hlocked with hp | ⟨r, hp⟩
        · exact hp
        · exact absurd (ha.at_deleting ht ho hp hlocked).1 hw
      have hquiet : ∀ y, s.pc.connecting y = false ∧ s.pc.leaving y = false := by
        intro y
        cases hpc : s.pc <;> simp_all [Pc.announces, Pc.connecting, Pc.leaving]
      refine hi.say (x := x) (a := .deleted) (fun y => by simp [Event.symbol, hw]) (fun y hy => ?_)
        fun v hv => ?_
      · simp [inSession, hquiet, AList.mem_erase, hy]
      · simp only [inSession, State.ret, hquiet, hmem] at hv ⊢
        simpa [AList.mem_erase] using Sessions.Word.closed (by simpa using hv)
          (show sessions.closes .deleted from .inr rfl)
  | bcastSend => exact Client.sendMsg_log (P := fun l => Spoken l _ _) hi (fun _ _ _ _ => hi.neutral rfl) _ _ _
  | bcastFails | send =>
    exact (Client.sendMsg_log (P := fun l => Spoken l _ _) hi
      (fun _ _ _ _ => hi.neutral rfl) _ _ _).neutral rfl
  | finishClose _ hm | finishEnd _ hm =>
    exact absurd (ho.shutdown.closing _ _ hm) (by simp [ht.thread])
  | _ =>
    first
    | exact hi
    | exact hi.neutral rfl
    | exact hi.move fun x => by simp [inSession, Pc.connecting, Pc.leaving, *]
    | exact (hi.neutral rfl).move fun x => by simp [inSession, Pc.connecting, Pc.leaving, *]

/-! ### What is delivered -/

/-- What was received and is just being delivered. -/
def pendingItems (current : SOCKET → Option ConnId) (msg : List UInt8) : Pc → List Item
  | .publish _ (.data h n) => [(h, current h, some (msg.take n))]
  | .publish _ (.disconnect h) => [(h, current h, none)]
  | .disconnected r _ n => if n = 0 then [(r.fd, current r.fd, none)] else []
  | .deleting r => [(r.fd, current r.fd, none)]
  | _ => []

/-- What was received was delivered, but for what is just being delivered. -/
structure Streamed (log : List Event) (pc : Pc) (clients : Clients) (msg : List UInt8) : Prop where
  /-- What was received, and what was delivered. -/
  items : received log = delivered log ++ pendingItems (delivery log).current msg pc
  /-- The connection of an entry is the one last accepted under its number. -/
  current : ∀ h c, clients.conn h = some c → (delivery log).current h = some c
  /-- So is the connection in hand. -/
  hand : ∀ d c, pc.hand = some (d, c) → (delivery log).current d = some c

namespace Streamed

variable {log : List Event} {pc pc' : Pc} {t t' : Clients} {msg : List UInt8}

theorem silent (h : Streamed log pc t msg) {e : Event} (hr : e.received = none)
    (hd : ∀ v : Delivery, v.next e = v) : Streamed (log ++ [e]) pc t msg := by
  refine ⟨?_, ?_, ?_⟩
  · simpa [delivered, hr, hd] using h.items
  · simpa [hd] using h.current
  · simpa [hd] using h.hand

theorem neutral (h : Streamed log pc t msg) {e : Event} (he : e.neutral = true) :
    Streamed (log ++ [e]) pc t msg :=
  h.silent (Event.received_of_neutral he) (Delivery.next_of_neutral he)

theorem move (h : Streamed log pc t msg)
    (hp : pendingItems (delivery log).current msg pc' = pendingItems (delivery log).current msg pc)
    (hh : ∀ d c, pc'.hand = some (d, c) → pc.hand = some (d, c))
    (hc : ∀ h c, t'.conn h = some c → t.conn h = some c) : Streamed log pc' t' msg :=
  ⟨by rw [h.items, hp], fun x c hx => h.current x c (hc x c hx), fun d c hd => h.hand d c (hh d c hd)⟩

end Streamed

theorem Step.streamed {s s' : State} {a : Action} (h : Step s a s')
    (hs : Settled s) (hi : Streamed s.os.log s.pc s.clients s.msg) :
    Streamed s'.os.log s'.pc s'.clients s'.msg := by
  have ho := hs.account.orderly
  have ht := hs.inTurn
  have hns := ho.noStart
  have hlive : ∀ r c, s.pc = .recv r c →
      s.os.owner r.fd = some c ∧ (delivery s.os.log).current r.fd = some c := by
    intro r c hp
    have hconn := hs.pointing _ c (by rw [hp]; rfl)
    obtain ⟨cl, hl, rfl⟩ := Option.map_eq_some_iff.mp hconn
    exact ⟨hs.account.owned.live (ht.mutex_free ho (by rw [hp]; rfl)) hl, hi.current _ _ hconn⟩
  cases h with
  | startNext hc | startFails hc | startWatch hc | startThread hc | startAborts hc =>
    exact absurd hc (hns _ _)
  | @recvEnd r c res hp hres =>
    obtain ⟨hown, hcur⟩ := hlive r c hp
    have hitems := hi.items
    rw [hp] at hitems
    simp only [pendingItems, List.append_nil] at hitems
    cases res with
    | none =>
      refine ⟨?_, ?_, by simp [Pc.hand]⟩
      · simp [delivered, Delivery.next, Event.received, hitems, pendingItems, numOfBytesReceived]
      · simpa [Delivery.next] using hi.current
    | some bytes =>
      obtain rfl : bytes = [] := by
        cases bytes with
        | nil => rfl
        | cons b bs =>
          simp only [numOfBytesReceived, List.length_cons] at hres
          omega
      refine ⟨?_, ?_, by simp [Pc.hand]⟩
      · simp [delivered, Delivery.next, Event.received, hown, hcur, hitems, pendingItems, numOfBytesReceived]
      · simpa [Delivery.next] using hi.current
  | @recvData r c bytes hp hne =>
    obtain ⟨hown, hcur⟩ := hlive r c hp
    refine ⟨?_, ?_, by simp [Pc.hand]⟩
    · have hitems := hi.items
      rw [hp] at hitems
      simp only [pendingItems, List.append_nil] at hitems
      simp [delivered, Delivery.next, Event.received, hne, hown, hcur, hitems, pendingItems, recvInto]
    · simpa [Delivery.next] using hi.current
  | @disconnectEof r c hp =>
    exact hi.move (by simp [pendingItems, hp]) (by simp [Pc.hand]) (by simp)
  | @disconnectError r c n hp hn =>
    exact hi.move (by simp [pendingItems, hp, hn]) (by simp [Pc.hand]) (by simp)
  | @publish r cb hp =>
    have hitems := hi.items
    rw [hp] at hitems
    refine ⟨?_, ?_, by simp [Pc.hand]⟩
    · cases cb <;>
        simpa [delivered, Delivery.next, Event.received, Callback.event, pendingItems] using hitems
    · cases cb <;> simpa [Delivery.next, Callback.event] using hi.current
  | @accept r d addr hp hd =>
    have hm := ht.mutex_free ho (by rw [hp]; rfl)
    have hitems := hi.items
    rw [hp] at hitems
    refine ⟨?_, fun x c hc => ?_, ?_⟩
    · simpa [delivered, Delivery.next, Event.received, pendingItems] using hitems
    · obtain ⟨cl, hl, rfl⟩ := Option.map_eq_some_iff.mp hc
      have hne : x ≠ d := by
        rintro rfl
        have := hs.account.owned.live hm hl
        rw [hd.2] at this
        cases this
      simpa [Delivery.next, hne] using hi.current x _ hc
    · rintro d' c' hh
      cases hh
      simp [Delivery.next]
  | @emplace r d c hp hm =>
    have hi := hi.neutral (e := .emplace d (decide (d ∉ s.clients))) rfl
    have hn := hs.account.owned.emplace_fresh hp hm
    refine ⟨?_, fun x c' hc => ?_, by simp [Pc.hand]⟩
    · have hitems := hi.items
      rw [hp] at hitems
      exact hitems
    · by_cases hx : x = d
      · subst hx
        simp only [Clients.conn_emplace hn, Function.update_self] at hc
        exact hi.hand x c' (by rw [hp]; simpa [Pc.hand] using hc)
      · exact hi.current x c' (by simpa [Clients.conn_emplace hn, hx] using hc)
  | @deleteErase w x c _ _ hc hm =>
    refine (hi.silent rfl fun _ => rfl).move rfl (fun _ _ hh => hh) fun y c' hc => ?_
    by_cases hy : y = x
    · subst hy
      simp [Clients.conn_erase] at hc
    · simpa [Clients.conn_erase, hy] using hc
  | bcastSend =>
    exact Client.sendMsg_log (P := fun l => Streamed l _ _ _) hi (fun _ _ _ _ => hi.neutral rfl) _ _ _
  | bcastFails | send =>
    exact (Client.sendMsg_log (P := fun l => Streamed l _ _ _) hi
      (fun _ _ _ _ => hi.neutral rfl) _ _ _).neutral rfl
  | finishClose _ hm | finishEnd _ hm =>
    exact absurd (ho.shutdown.closing _ _ hm) (by simp [ht.thread])
  | _ =>
    first
    | exact hi
    | exact hi.neutral rfl
    | exact hi.move (by simp [pendingItems, *]) (by simp [Pc.hand]) (fun _ _ hc => hc)
    | exact (hi.neutral rfl).move (by simp [pendingItems, *]) (by simp [Pc.hand]) (fun _ _ hc => hc)

/-! ### The protocol -/

/-- What holds of the log throughout a sequential run. -/
structure Protocol (s : State) : Prop where
  /-- What is about to be announced. -/
  announced : Announced s
  /-- The sessions of every handle. -/
  spoken : Spoken s.os.log s.pc s.clients
  /-- What was received and delivered. -/
  streamed : Streamed s.os.log s.pc s.clients s.msg

theorem Initial.protocol {s : State} (h : Initial s) : Protocol s where
  announced := .of_pc h.orderly (by rw [h.pc]; rfl)
  spoken x := by
    have hlog : clientLog x s.os.log = [] := by
      refine List.filterMap_eq_nil_iff.mpr fun e he => ?_
      rcases h.log e he with hs | rfl
      · cases e <;> first | rfl | cases hs
      · rfl
    simpa [hlog, inSession, h.clients, h.pc, Pc.leaving] using Sessions.Word.nil
  streamed := by
    have hreceived : received s.os.log = [] := by
      refine List.filterMap_eq_nil_iff.mpr fun e he => ?_
      rcases h.log e he with hs | rfl
      · cases e <;> first | rfl | cases hs
      · rfl
    have hdelivery : ∀ log : List Event, (∀ e ∈ log, e.setup = true ∨ e = .start .ok) →
        delivery log = {} := by
      intro log hlog
      induction log using List.reverseRecOn with
      | nil => rfl
      | append_singleton log e ih =>
        rw [delivery_append, ih fun e' he' => hlog e' (List.mem_append_left _ he')]
        rcases hlog e (by simp) with hs | rfl
        · cases e <;> first | rfl | cases hs
        · rfl
    refine ⟨?_, fun x c hc => by simp [Clients.conn, h.clients] at hc, fun d c hd => ?_⟩
    · simp [delivered, hreceived, hdelivery _ h.log, h.pc, pendingItems]
    · simp [h.pc, Pc.hand] at hd

theorem Step.protocol {s s' : State} {a : Action} (h : Step s a s') (hok : Sequential s a)
    (hs : Settled s) (hi : Protocol s) : Protocol s' :=
  ⟨h.announced hok hs hi.announced, h.spoken hok hs hi.announced hi.spoken, h.streamed hs hi.streamed⟩

/-- **Callback protocol and data fidelity per client.** In every sequential run the log of every
handle is the beginning of a word of sessions, and what the callbacks were given is, in order, what
the calls of `Recv` returned, each item under its descriptor and connection: bytes, or the end of
the connection. At most one item is on its way, and none at the head of the loop or in a callback. -/
theorem callback_protocol {s₀ s : State} (h₀ : Started s₀) (h : machine.Reach Sequential s₀ s) :
    (∀ x, ∃ w, clientLog x s.os.log ++ w ∈ sessions.language) ∧
    ∃ rest, received s.os.log = delivered s.os.log ++ rest ∧ rest.length ≤ 1 ∧
      ((s.pc = .loopHead ∨ ∃ r cb, s.pc = .callback r cb) → rest = []) := by
  have hp : Protocol s := Machine.Reach.invariant_of (fun _ hr => h₀.initial.settled.reach hr)
    h₀.initial.protocol (fun _ _ _ hj hi hok hs => (Step.of_step hs).2.protocol hok hj hi) h
  refine ⟨fun x => (hp.spoken x).extends (z := .disconnect) (.inl rfl), _, hp.streamed.items, ?_, ?_⟩
  · unfold pendingItems
    split <;> first | simp | (split <;> simp)
  · rintro (hpc | ⟨r, cb, hpc⟩) <;> rw [hpc] <;> rfl

/-- Client `1` sends data, and client `2` closes the connection. -/
theorem callback_protocol_two_clients :
    ∃ s, machine.Reach Sequential started s ∧ s.pc = .loopHead ∧
      delivered s.os.log = [(1, some 1, some [7]), (2, some 2, none)] ∧
      ∃ w, clientLog 2 s.os.log ++ w ∈ sessions.language := by
  obtain ⟨s, hr, hp, hreceived⟩ : ∃ s, machine.Reach Sequential started s ∧ s.pc = .loopHead ∧
      received s.os.log = [(1, some 1, some [7]), (2, some 2, none)] :=
    Machine.exists_reach (twoClients ++ selectActions [1, 2] ++
      [.forStep, .forStep, .lookup, .recv (some [7]), .publish, .callbackReturns, .forStep, .lookup,
       .recv (some []), .disconnect, go .serverTask, go .serverTask, go .serverTask, go .serverTask,
       .deleteReturns, .publish, .callbackReturns, .forStep]) (by decide)
  obtain ⟨hwords, rest, heq, -, hrest⟩ := callback_protocol started_started hr
  rw [hrest (.inl hp), List.append_nil] at heq
  exact ⟨s, hr, hp, heq ▸ hreceived, hwords 2⟩

end TcpServer

end SocketsCpp
