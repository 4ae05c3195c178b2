import SocketsCpp.System.Network
import SocketsCpp.Relay

/-!
# From one application to the other

What the application at one end of a connection hands to `sendMsg`, `sendClientMessage` and `sendBcast`, and
what the callbacks at the other end are given, in every run of any number of servers and clients, as far as TCP
does what it is documented to do.

* `given` — the bytes that the callbacks were given from one connection, under its handle.
* `delivers_streams` — these are the bytes that the other end sent, in order, but for what is being handed on and what
  has not come in.
* `delivers_ends` — an end of the stream is told when the other end has closed the connection and everything that it
  sent was handed on.
-/

namespace SocketsCpp

open SocketsCpp.Library

/-! ### The bytes of a connection -/

/-- The bytes of connection `c` among the items, under descriptor `d`. -/
def bytesOf (d : SOCKET) (c : ConnId) (items : List Item) : List UInt8 :=
  (items.map fun x => if x.1 = d ∧ x.2.1 = some c then x.2.2.getD [] else []).flatten

/-- The bytes of connection `c` that the callbacks were given, with handle `d`. -/
def given (d : SOCKET) (c : ConnId) (log : List Event) : List UInt8 := bytesOf d c (relayed log)

@[simp] theorem bytesOf_append (d : SOCKET) (c : ConnId) (items items' : List Item) :
    bytesOf d c (items ++ items') = bytesOf d c items ++ bytesOf d c items' := by
  simp [bytesOf]

/-- What came in on a connection is its bytes among what was received, if its descriptor is always the same. -/
theorem arrived_eq {d : SOCKET} {c : ConnId} {log : List Event}
    (hd : ∀ e ∈ log, ∀ {d'}, e.place = some (d', c) → d = d') : arrived c log = bytesOf d c (received log) := by
  induction log using List.reverseRecOn with
  | nil => rfl
  | append_singleton log e ih =>
    rw [arrived_append, received_append, bytesOf_append, ih fun e' he' => hd e' (List.mem_append_left _ he')]
    congr 1
    have hd := @hd e (by simp)
    cases e with
    | recv d' o res =>
      rcases o with _ | c' <;> rcases res with _ | bytes
      · rfl
      · simp [arrived, Event.brings, Event.received, bytesOf]
      · rfl
      · by_cases hc : c' = c
        · subst hc
          obtain rfl := hd rfl
          by_cases hb : bytes = [] <;> simp [arrived, Event.brings, Event.received, bytesOf, hb]
        · simp [arrived, Event.brings, Event.received, bytesOf, hc]
    | _ => rfl

theorem Event.received_end {e : Event} {d : SOCKET} {c : ConnId} (h : e.received = some (d, some c, none)) :
    e = .recv d (some c) (some []) := by
  cases e with
  | recv d' o res =>
    rcases res with _ | _ | ⟨b, bs⟩
    · cases h
    · simp only [received, if_true, Option.some.injEq, Prod.mk.injEq, and_true] at h
      rw [h.1, h.2]
    · simp [received] at h
  | _ => cases h

/-- An end of the stream that was handed on was received. -/
theorem HandsOn.exists_end {log : List Event} {pending : SOCKET × Option ConnId → List Item} {d : SOCKET}
    {c : ConnId} (h : HandsOn log pending) (hend : (d, some c, none) ∈ relayed log) :
    ∃ l l' items, log = l ++ .recv d (some c) (some []) :: l' ∧ received l' = items ++ pending (relay log).last := by
  obtain ⟨i, i', hi⟩ := List.append_of_mem hend
  have h : log.filterMap Event.received = i ++ (d, some c, none) :: (i' ++ pending (relay log).last) := by
    rw [← List.cons_append, ← List.append_assoc, ← hi]
    exact h
  obtain ⟨l, l', rfl, -, h⟩ := List.filterMap_eq_append_iff.mp h
  obtain ⟨l₁, e, l₂, rfl, -, he, h⟩ := List.filterMap_eq_cons_iff.mp h
  refine ⟨l ++ l₁, l₂, i', ?_, h⟩
  rw [Event.received_end he]
  simp

/-- Where a connection was closed, nothing more is sent. -/
theorem accepted_of_closed {c : ConnId} {log log' : List Event}
    (hs : NoneAfter (Event.closes c) (Event.sends c) (log ++ log')) (hc : ∃ e ∈ log, e.closes c = true) :
    accepted c (log ++ log') = accepted c log := by
  obtain ⟨e, he, hclose⟩ := hc
  have hnone : ∀ e' ∈ log', e'.accepts c = [] := by
    intro e' he'
    have hsend : e'.sends c = false := (List.pairwise_append.mp hs).2.2 e he e' he' hclose
    cases e' with
    | send d o msg ret =>
      cases o with
      | none => rfl
      | some c' => exact if_neg (of_decide_eq_false hsend)
    | _ => rfl
  have hrest : (log'.map (Event.accepts c)).flatten = [] := by
    apply List.flatten_eq_nil_iff.mpr
    intro bs hbs
    obtain ⟨e', he', rfl⟩ := List.mem_map.mp hbs
    exact hnone e' he'
  rw [accepted, List.map_append, List.flatten_append, hrest, List.append_nil]
  rfl

namespace System

/-! ### The system -/

/-- What the thread of an object is just handing on, `last` being the last `Recv`. -/
def Party.pending : ∀ p : Party, p.State → SOCKET × Option ConnId → List Item
  | server _, s => s.pc.onHand s.msg
  | client _, s => s.pc.onHand
  | socket _, s => s.pc.onHand

/-- What the thread of `p` is just handing on. -/
def State.onHand (y : State) (p : Party) : List Item := p.pending (y.member p) (relay (y.log p)).last

/-- What was sent at `z` and has not come in at `x`: it is on its way, or lost. -/
def State.missing (y : State) (x z : End) : List UInt8 :=
  (accepted z.2 (y.log z.1)).drop (arrived x.2 (y.log x.1)).length

section

variable {options : Party → SocketOpt} {msg : Party → List UInt8} {y : State} {peer : End → Option End}
  {x z : End} {d : SOCKET}

/-- A connection has one descriptor. -/
theorem place_unique (h : machine.Reach Machine.Any (init options msg) y) {e : Event} (he : e ∈ y.log x.1)
    (hp : e.place = some (d, x.2)) : ∀ e' ∈ y.log x.1, ∀ {d'}, e'.place = some (d', x.2) → d = d' := by
  obtain ⟨home, hf⟩ := filed h x.1
  intro e' he' d' hp'
  exact (hf.log e he hp).1.symm.trans (hf.log e' he' hp').1

theorem server_handsOn (h : machine.Reach Machine.Any (init options msg) y) (i : ℕ) :
    HandsOn (y.log (.server i)) ((Party.server i).pending (y.member (.server i))) :=
  TcpServer.relays (h.member (.server i))

theorem client_handsOn (h : machine.Reach Machine.Any (init options msg) y) (i : ℕ) :
    HandsOn (y.log (.client i)) ((Party.client i).pending (y.member (.client i))) :=
  Receiver.relays (h.member (.client i))

/-- What came in on a connection is what the callbacks were given, and what is on hand. -/
theorem arrived_eq_given (hon : HandsOn (y.log x.1) (x.1.pending (y.member x.1)))
    (hd : ∀ e ∈ y.log x.1, ∀ {d'}, e.place = some (d', x.2) → d = d') :
    arrived x.2 (y.log x.1) = given d x.2 (y.log x.1) ++ bytesOf d x.2 (y.onHand x.1) := by
  rw [arrived_eq hd, hon, bytesOf_append]
  rfl

/-- What one end sent, and what the other was given. -/
theorem accepted_eq (h : machine.Reach Machine.Any (init options msg) y) (htcp : Tcp peer y.history)
    (hx : peer x = some z) (hon : HandsOn (y.log x.1) (x.1.pending (y.member x.1)))
    (hd : ∀ e ∈ y.log x.1, ∀ {d'}, e.place = some (d', x.2) → d = d') :
    accepted z.2 (y.log z.1) =
      given d x.2 (y.log x.1) ++ bytesOf d x.2 (y.onHand x.1) ++ y.missing x z := by
  have hpre := htcp.order hx
  rw [log_history h, log_history h] at hpre
  obtain ⟨rest, hrest⟩ := hpre
  rw [← arrived_eq_given hon hd, State.missing, ← hrest, List.drop_left]

/-- Where an end was closed, nothing was sent at it since. -/
theorem accepted_since (h : machine.Reach Machine.Any (init options msg) y) {t t' : List (Party × Event)}
    (hh : y.history = t ++ t') (hc : ∃ e ∈ logOf z.1 t, e.closes z.2 = true) :
    (∃ e ∈ y.log z.1, e.closes z.2 = true) ∧ accepted z.2 (y.log z.1) = accepted z.2 (logOf z.1 t) := by
  obtain ⟨home, hf⟩ := filed h z.1
  have hs : NoneAfter (Event.closes z.2) (Event.sends z.2) (y.log z.1) := hf.silent z.2
  have hlog : y.log z.1 = logOf z.1 t ++ logOf z.1 t' := by
    rw [← log_history h, hh, logOf_append]
  rw [hlog] at hs ⊢
  refine ⟨?_, accepted_of_closed hs hc⟩
  obtain ⟨e, he, hclose⟩ := hc
  exact ⟨e, List.mem_append_left _ he, hclose⟩

/-- Where the end of the stream was handed on, the other end has closed the connection, and everything that it sent
was handed on. -/
theorem ended (h : machine.Reach Machine.Any (init options msg) y) (htcp : Tcp peer y.history)
    (hx : peer x = some z) (hon : HandsOn (y.log x.1) (x.1.pending (y.member x.1)))
    (hd : ∀ e ∈ y.log x.1, ∀ {d'}, e.place = some (d', x.2) → d = d')
    (hend : (d, some x.2, none) ∈ relayed (y.log x.1)) (hok : ∀ e ∈ y.log x.1, e.fails x.2 = false) :
    (∃ e ∈ y.log z.1, e.closes z.2 = true) ∧ given d x.2 (y.log x.1) = accepted z.2 (y.log z.1) := by
  obtain ⟨l, l', items, hlog, hrest⟩ := hon.exists_end hend
  obtain ⟨t, t', hhist, ht⟩ := exists_history ((log_history h x.1).trans hlog)
  -- when `Recv` returned `0`
  have hpre : t ++ [(x.1, .recv d (some x.2) (some []))] <+: y.history := ⟨t', by rw [hhist]; simp⟩
  obtain ⟨hclose, hall⟩ := htcp.ends hx hpre fun e he => hok e (by rw [hlog]; rw [ht] at he; simp [he])
  -- and since
  obtain ⟨hclosed, hsince⟩ := accepted_since h hhist hclose
  have hin : arrived x.2 (y.log x.1) = arrived x.2 l ++ arrived x.2 l' := by
    rw [hlog, ← List.singleton_append, arrived_append, arrived_append]
    simp [arrived, Event.brings]
  have hnone : arrived x.2 l' = [] := by
    have hord := htcp.order hx
    rw [log_history h, log_history h, hsince, ← hall, ht, hin] at hord
    exact List.append_right_eq_self.mp (hord.eq_of_length_le (by simp))
  have hhand : bytesOf d x.2 (y.onHand x.1) = [] := by
    have hl' : ∀ e ∈ l', ∀ {d'}, e.place = some (d', x.2) → d = d' := fun e he => hd e (by rw [hlog]; simp [he])
    rw [arrived_eq hl', hrest, bytesOf_append] at hnone
    exact (List.append_eq_nil_iff.mp hnone).2
  refine ⟨hclosed, ?_⟩
  calc given d x.2 (y.log x.1)
      = arrived x.2 (y.log x.1) := by rw [arrived_eq_given hon hd, hhand, List.append_nil]
    _ = arrived x.2 (logOf x.1 t) := by rw [hin, hnone, List.append_nil, ht]
    _ = accepted z.2 (y.log z.1) := hall.trans hsince.symm

/-- **The callbacks are given what the other end sent.** In every run of any number of servers and clients, as far as
TCP is as assumed: where the server got connection `c'` from `Accept`, with handle `ch`, and the client opened the other
end with `Socket`, what the client has sent is what `onReceiveClientData` was given with that handle from that
connection, then what the server thread is just handing on, then what has not come in; likewise from the server to
`onReceiveData`. -/
theorem delivers_streams (h : machine.Reach Machine.Any (init options msg) y) (htcp : Tcp peer y.history) {i j : ℕ}
    {c c' : ConnId} {fd ch sockfd : SOCKET} (hacc : .accept fd (some (ch, c')) ∈ y.log (.server i))
    (hsock : .socket sockfd (some c) ∈ y.log (.client j)) (hpeer : peer (.server i, c') = some (.client j, c)) :
    accepted c (y.log (.client j)) =
      given ch c' (y.log (.server i)) ++ bytesOf ch c' (y.onHand (.server i)) ++
        y.missing (.server i, c') (.client j, c) ∧
    accepted c' (y.log (.server i)) =
      given sockfd c (y.log (.client j)) ++ bytesOf sockfd c (y.onHand (.client j)) ++
        y.missing (.client j, c) (.server i, c') :=
  ⟨accepted_eq h htcp hpeer (server_handsOn h i) (place_unique h hacc rfl),
    accepted_eq h htcp (htcp.symm hpeer) (client_handsOn h j) (place_unique h hsock rfl)⟩

/-- **An end of the stream is the end.** When `onClientDisconnect` was called for such a connection, no `Recv` or `Send`
on which failed, the client has closed the connection, and everything that it sent was handed on before; when
`onDisconnect` reported that the server closed the connection, the server has closed it, and everything that it sent was
handed on. -/
theorem delivers_ends (h : machine.Reach Machine.Any (init options msg) y) (htcp : Tcp peer y.history) {i j : ℕ}
    {c c' : ConnId} {fd ch sockfd : SOCKET} (hacc : .accept fd (some (ch, c')) ∈ y.log (.server i))
    (hsock : .socket sockfd (some c) ∈ y.log (.client j)) (hpeer : peer (.server i, c') = some (.client j, c)) :
    ((ch, some c', none) ∈ relayed (y.log (.server i)) →
      (∀ e ∈ y.log (.server i), e.fails c' = false) →
      (∃ e ∈ y.log (.client j), e.closes c = true) ∧
        given ch c' (y.log (.server i)) = accepted c (y.log (.client j))) ∧
    ((sockfd, some c, none) ∈ relayed (y.log (.client j)) →
      (∀ e ∈ y.log (.client j), e.fails c = false) →
      (∃ e ∈ y.log (.server i), e.closes c' = true) ∧
        given sockfd c (y.log (.client j)) = accepted c' (y.log (.server i))) :=
  ⟨ended h htcp hpeer (server_handsOn h i) (place_unique h hacc rfl),
    ended h htcp (htcp.symm hpeer) (client_handsOn h j) (place_unique h hsock rfl)⟩

end

/-! ### Writing runs down -/

/-- Two connections that are the ends of each other, and no others. -/
def joined (x z : End) (u : End) : Option End := if u = x then some z else if u = z then some x else none

/-- At end `x` of a history the network does what is assumed, the other end being `z`. -/
def fits (h : List (Party × Event)) (x z : End) : Bool :=
  (arrived x.2 (logOf x.1 h)).isPrefixOf (accepted z.2 (logOf z.1 h)) &&
    (List.range h.length).all fun n =>
      match h[n]? with
      | some (p, .recv _ c (some [])) =>
          !(decide (p = x.1 ∧ c = some x.2)) ||
            ((logOf z.1 (h.take n)).any (Event.closes z.2) &&
              decide (arrived x.2 (logOf x.1 (h.take n)) = accepted z.2 (logOf z.1 (h.take n))))
      | _ => true

theorem fits_order {h : List (Party × Event)} {x z : End} (hf : fits h x z = true) :
    arrived x.2 (logOf x.1 h) <+: accepted z.2 (logOf z.1 h) :=
  List.isPrefixOf_iff_prefix.mp (Bool.and_eq_true_iff.mp hf).1

theorem fits_ends {h t : List (Party × Event)} {x z : End} {d : SOCKET} (hf : fits h x z = true)
    (ht : t ++ [(x.1, .recv d (some x.2) (some []))] <+: h) :
    (∃ e ∈ logOf z.1 t, e.closes z.2 = true) ∧ arrived x.2 (logOf x.1 t) = accepted z.2 (logOf z.1 t) := by
  obtain ⟨t', rfl⟩ := ht
  have hall := List.all_eq_true.mp (Bool.and_eq_true_iff.mp hf).2 t.length (by simp)
  simpa using hall

theorem Tcp.of_fits {h : List (Party × Event)} {x z : End} (hne : x ≠ z) (hx : fits h x z = true)
    (hz : fits h z x = true) : Tcp (joined x z) h := by
  have hcases : ∀ {u v}, joined x z u = some v → (u = x ∧ v = z) ∨ (u = z ∧ v = x) := by
    intro u v huv
    unfold joined at huv
    split at huv
    · next hu => exact .inl ⟨hu, (Option.some.inj huv).symm⟩
    · split at huv
      · next hu => exact .inr ⟨hu, (Option.some.inj huv).symm⟩
      · cases huv
  refine ⟨fun huv => ?_, fun huv => ?_, fun huv ht _ => ?_⟩
  · rcases hcases huv with ⟨rfl, rfl⟩ | ⟨rfl, rfl⟩
    · simp [joined, Ne.symm hne]
    · simp [joined]
  · rcases hcases huv with ⟨rfl, rfl⟩ | ⟨rfl, rfl⟩
    · exact fits_order hx
    · exact fits_order hz
  · rcases hcases huv with ⟨rfl, rfl⟩ | ⟨rfl, rfl⟩
    · exact fits_ends hx ht
    · exact fits_ends hz ht

/-- Steps of server `0`. -/
def serverActions (as : List TcpServer.Action) : List Action := as.map fun a => ⟨.server 0, a⟩

/-- Steps of client `0`. -/
def clientActions (as : List Receiver.Action) : List Action := as.map fun a => ⟨.client 0, a⟩

/-- The server is started, the client connects to it, and the server accepts the connection. -/
def connectActions : List Action := List.flatten
  [serverActions (TcpServer.startActions 80 (List.replicate 10 {})), clientActions (Receiver.connectOk 1),
   serverActions (TcpServer.selectActions [0]), serverActions (TcpServer.acceptActions 1),
   serverActions [.forStep]]

/-- The client sends three bytes, of which the server receives `n`. -/
def sendActions (n : ℕ) : List Action := List.flatten
  [clientActions [.call (.app 0) (.sendMsg [1, 2, 3]), .step (.app 0) { ret := 3 }],
   serverActions (TcpServer.selectActions [1]),
   serverActions [.forStep, .forStep, .lookup, .recv (some ([1, 2, 3].take n)), .publish]]

/-- The client calls `finish`, and the server finds the end of the stream. -/
def leaveActions : List Action := List.flatten
  [clientActions [.call (.app 0) .finish, .step (.app 0) {}, .testStop],
   clientActions (Receiver.answered [{}, {}, {}]),
   serverActions [.callbackReturns, .forStep], serverActions (TcpServer.selectActions [1]),
   serverActions [.forStep, .forStep, .lookup, .recv (some []), .disconnect],
   serverActions (List.replicate 4 (TcpServer.go .serverTask)), serverActions [.deleteReturns, .publish]]

/-- The server sends two bytes and deletes the client, and the client finds the end of the stream. -/
def dismissActions : List Action := List.flatten
  [serverActions [.call (.app 0) (.sendClientMessage 1 [8, 9]), TcpServer.go (.app 0),
     .step (.app 0) { ret := 2 } []],
   serverActions (TcpServer.deleteActions (.app 0) 1),
   clientActions (Receiver.serveActions .tcpClient [8, 9]),
   clientActions [.callbackReturns], clientActions Receiver.endActions]

/-- The server's end of the connection in these runs. -/
def atServer : End := (.server 0, 1)

/-- The client's end. -/
def atClient : End := (.client 0, 0)

/-- The network did what is assumed. -/
def Fits (y : State) : Prop := fits y.history atServer atClient = true ∧ fits y.history atClient atServer = true

instance (y : State) : Decidable (Fits y) := inferInstanceAs (Decidable (_ ∧ _))

theorem Fits.tcp {y : State} (h : Fits y) : Tcp (joined atServer atClient) y.history := .of_fits (by decide) h.1 h.2

/-- The server got the connection from `Accept`, and the client its end from `Socket`. -/
def Opened (y : State) : Prop :=
  .accept 0 (some (1, 1)) ∈ y.log (.server 0) ∧ .socket 1 (some 0) ∈ y.log (.client 0)

instance (y : State) : Decidable (Opened y) := inferInstanceAs (Decidable (_ ∧ _))

theorem delivers_streams_three_bytes :
    ∃ y, machine.Reach Machine.Any (init (fun _ => {}) fun _ => []) y ∧ Tcp (joined atServer atClient) y.history ∧
      given 1 1 (y.log (.server 0)) = [1, 2] ∧
      accepted 0 (y.log (.client 0)) =
        given 1 1 (y.log (.server 0)) ++ bytesOf 1 1 (y.onHand (.server 0)) ++ [3] := by
  obtain ⟨y, hr, hf, ho, hg, hmiss⟩ : ∃ y, machine.Reach Machine.Any (init (fun _ => {}) fun _ => []) y ∧ Fits y ∧
      Opened y ∧ given 1 1 (y.log (.server 0)) = [1, 2] ∧ y.missing atServer atClient = [3] :=
    Machine.exists_reach (connectActions ++ sendActions 2) (by decide)
  exact ⟨y, hr, hf.tcp, hg, hmiss ▸ (delivers_streams hr hf.tcp ho.1 ho.2 (by decide)).1⟩

theorem delivers_ends_both :
    (∃ y, machine.Reach Machine.Any (init (fun _ => {}) fun _ => []) y ∧ Tcp (joined atServer atClient) y.history ∧
      given 1 1 (y.log (.server 0)) = [1, 2, 3]) ∧
    ∃ y, machine.Reach Machine.Any (init (fun _ => {}) fun _ => []) y ∧ Tcp (joined atServer atClient) y.history ∧
      given 1 0 (y.log (.client 0)) = [8, 9] := by
  constructor
  · obtain ⟨y, hr, hf, ho, hend, hok, hacc⟩ :
        ∃ y, machine.Reach Machine.Any (init (fun _ => {}) fun _ => []) y ∧ Fits y ∧ Opened y ∧
          (1, some 1, none) ∈ relayed (y.log (.server 0)) ∧ (∀ e ∈ y.log (.server 0), e.fails 1 = false) ∧
          accepted 0 (y.log (.client 0)) = [1, 2, 3] :=
      Machine.exists_reach (connectActions ++ (sendActions 3 ++ leaveActions)) (by decide)
    exact ⟨y, hr, hf.tcp, ((delivers_ends hr hf.tcp ho.1 ho.2 (by decide)).1 hend hok).2.trans hacc⟩
  · obtain ⟨y, hr, hf, ho, hend, hok, hacc⟩ :
        ∃ y, machine.Reach Machine.Any (init (fun _ => {}) fun _ => []) y ∧ Fits y ∧ Opened y ∧
          (1, some 0, none) ∈ relayed (y.log (.client 0)) ∧ (∀ e ∈ y.log (.client 0), e.fails 0 = false) ∧
          accepted 1 (y.log (.server 0)) = [8, 9] :=
      Machine.exists_reach (connectActions ++ dismissActions) (by decide)
    exact ⟨y, hr, hf.tcp, ((delivers_ends hr hf.tcp ho.1 ho.2 (by decide)).2 hend hok).2.trans hacc⟩

end System

end SocketsCpp
