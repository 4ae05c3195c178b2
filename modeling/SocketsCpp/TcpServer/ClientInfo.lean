import SocketsCpp.TcpServer.Callbacks
import SocketsCpp.Library.History

/-!
# Whose address `getClientInfo` reports

`serverTask` has one `m_clientAddress`, that every `Accept` overwrites, and copies it into the entry that
`emplace` makes. A descriptor number is given out again once it is closed.

* `Peers` — the history of `Accept`: what it last wrote to `m_clientAddress` for each number.
* `Present` — `Accept` returned the handle, and the connection was neither deleted nor closed by the peer.
* `Listed` — which of the connections accepted have an entry.
* `Labelled` — an entry has the address that was written for its connection.
* `client_info_current` — what `getClientInfo` reports in every sequential run.
-/

namespace SocketsCpp

open SocketsCpp.Library

/-! ### Histories -/

/-- An `Accept` that returned `h`, for connection `c`. -/
def Event.admits (h : ClientHandle) (c : ConnId) : Event → Bool
  | .accept _ (some (h', c')) => h' = h ∧ c' = c
  | _ => false

/-- A `Recv` that reported the end of connection `c`. -/
def Event.eofOf (c : ConnId) : Event → Bool
  | .recv _ (some c') (some []) => c' = c
  | _ => false

/-- Connection `c` was deleted, or closed by the peer. -/
def Event.departs (c : ConnId) (e : Event) : Bool := e.deletes c || e.eofOf c

/-- `Accept` returned `h`, and the connection so created has since been neither deleted nor closed by the
peer. -/
def Present (h : ClientHandle) (log : List Event) : Prop :=
  ∃ c, (∃ e ∈ log, e.admits h c = true) ∧ ∀ e ∈ log, e.departs c = false

/-- An event that is neither the beginning nor the end of a connection. -/
def Event.passing : Event → Bool
  | .accept _ (some _) | .recv _ _ (some []) | .deleteClient _ _ (some _) => false
  | _ => true

theorem Event.of_passing {e : Event} (he : e.passing = true) (h : ClientHandle) (c : ConnId) :
    e.admits h c = false ∧ e.departs c = false := by
  cases e with
  | accept d res => cases res <;> first | exact ⟨rfl, rfl⟩ | cases he
  | recv d o res =>
    refine ⟨rfl, ?_⟩
    rcases res with _ | (_ | ⟨b, bs⟩)
    · cases o <;> rfl
    · cases he
    · cases o <;> rfl
  | deleteClient w x o => cases o <;> first | exact ⟨rfl, rfl⟩ | cases he
  | _ => exact ⟨rfl, rfl⟩

namespace TcpServer

/-- What `Accept` last wrote to `m_clientAddress`, for each number that it returned. -/
abbrev Peers := ClientHandle → Option SockAddrIn

/-- What a step adds. -/
def Peers.next (p : Peers) (_ : State) : Action → Peers
  | .accept (some (d, addr)) => Function.update p d (some addr)
  | _ => p

/-- The runs of a server with the addresses of its peers. -/
abbrev ReachPeers (s₀ : State) : State × Peers → Prop :=
  (machine.withHistory Peers.next).Reach (Machine.Beside Sequential) (s₀, fun _ => none)

/-! ### Which connections have an entry -/

/-- The connection under `h` was closed by the peer, and is not deleted yet. -/
def Pc.ending (pc : Pc) (h : ClientHandle) : Bool :=
  match pc with
  | .disconnected r _ n => n = 0 && r.fd = h
  | .deleting r => r.fd = h
  | _ => false

/-- The connections that have an entry are those that were accepted and did not depart. -/
structure Listed (s : State) : Prop where
  /-- The connection of an entry was accepted under its handle. -/
  entry : ∀ h c, s.clients.conn h = some c → ∃ e ∈ s.os.log, e.admits h c = true
  /-- A connection that was accepted has an entry, or is about to, or departed. -/
  admitted : ∀ h c, (∃ e ∈ s.os.log, e.admits h c = true) →
    s.clients.conn h = some c ∨ s.pc.hand = some (h, c) ∨ ∃ e ∈ s.os.log, e.departs c = true
  /-- If the connection of an entry departed, then the entry is about to be deleted. -/
  departed : ∀ h c, s.clients.conn h = some c → (∃ e ∈ s.os.log, e.departs c = true) →
    s.pc.ending h = true
  /-- The connection in hand was accepted and did not depart. -/
  hand : ∀ h c, s.pc.hand = some (h, c) → (∃ e ∈ s.os.log, e.admits h c = true) ∧
    ∀ e ∈ s.os.log, e.departs c = false
  /-- A connection to come did not depart. -/
  new : ∀ c, s.os.next ≤ c → ∀ e ∈ s.os.log, e.departs c = false

variable {s s' : State}

/-- A step that is neither the beginning nor the end of a connection. -/
theorem Listed.move (hi : Listed s) (hlog : Grows Event.passing s.os.log s'.os.log)
    (hnext : s'.os.next = s.os.next) (hconn : s'.clients.conn = s.clients.conn)
    (hhand : s'.pc.hand = s.pc.hand)
    (hend : ∀ h, h ∈ s.clients → s.pc.ending h = true → s'.pc.ending h = true) : Listed s' := by
  have hadm : ∀ h c, (∃ e ∈ s'.os.log, e.admits h c = true) ↔ ∃ e ∈ s.os.log, e.admits h c = true :=
    fun h c => hlog.exists_iff fun e he => (e.of_passing he h c).1
  have hdep : ∀ c, (∃ e ∈ s'.os.log, e.departs c = true) ↔ ∃ e ∈ s.os.log, e.departs c = true :=
    fun c => hlog.exists_iff fun e he => (e.of_passing he 0 c).2
  have hnot : ∀ c, (∀ e ∈ s.os.log, e.departs c = false) → ∀ e ∈ s'.os.log, e.departs c = false := by
    intro c h e he
    rcases hlog.mem he with he | he
    · exact h e he
    · exact (e.of_passing he 0 c).2
  refine ⟨fun h c hc => ?_, fun h c ha => ?_, fun h c hc hd => ?_, fun h c hh => ?_, fun c hc => ?_⟩
  · rw [hadm]
    exact hi.entry h c (hconn ▸ hc)
  · rw [hadm] at ha
    rw [hconn, hhand, hdep]
    exact hi.admitted h c ha
  · rw [hconn] at hc
    rw [hdep] at hd
    exact hend h (Clients.mem_of_conn hc) (hi.departed h c hc hd)
  · rw [hhand] at hh
    rw [hadm]
    exact ⟨(hi.hand h c hh).1, hnot c (hi.hand h c hh).2⟩
  · exact hnot c (hi.new c (hnext ▸ hc))

/-- `Accept` returns a descriptor. -/
theorem Listed.accept (hi : Listed s) (hhand : s.pc.hand = none) (hend : ∀ h, s.pc.ending h = false)
    {fd d : SOCKET} {c : ConnId} (hc : c = s.os.next)
    (hlog : s'.os.log = s.os.log ++ [.accept fd (some (d, c))]) (hnext : s'.os.next = s.os.next + 1)
    (hconn : s'.clients.conn = s.clients.conn) (hhand' : s'.pc.hand = some (d, c)) : Listed s' := by
  have hdep : ∀ c' e, e ∈ s'.os.log → e.departs c' = true → e ∈ s.os.log := by
    intro c' e he hd
    rw [hlog, List.mem_append, List.mem_singleton] at he
    rcases he with he | rfl
    · exact he
    · cases hd
  have hnot : ∀ c', (∀ e ∈ s.os.log, e.departs c' = false) → ∀ e ∈ s'.os.log, e.departs c' = false := by
    intro c' h e he
    by_contra hd
    rw [Bool.not_eq_false] at hd
    rw [h e (hdep c' e he hd)] at hd
    cases hd
  have hold : ∀ h c', (∃ e ∈ s.os.log, e.admits h c' = true) → ∃ e ∈ s'.os.log, e.admits h c' = true := by
    rintro h c' ⟨e, he, ha⟩
    exact ⟨e, by rw [hlog]; exact List.mem_append_left _ he, ha⟩
  refine ⟨fun h c' hc' => ?_, fun h c' ha => ?_, fun h c' hc' hd => ?_, fun h c' hh => ?_, fun c' hc' => ?_⟩
  · exact hold h c' (hi.entry h c' (hconn ▸ hc'))
  · obtain ⟨e, he, ha⟩ := ha
    rw [hlog, List.mem_append, List.mem_singleton] at he
    rcases he with he | rfl
    · rw [hconn]
      rcases hi.admitted h c' ⟨e, he, ha⟩ with h1 | h1 | ⟨e', he', hd⟩
      · exact .inl h1
      · rw [hhand] at h1
        cases h1
      · exact .inr (.inr ⟨e', by rw [hlog]; exact List.mem_append_left _ he', hd⟩)
    · obtain ⟨rfl, rfl⟩ : d = h ∧ c = c' := by simpa [Event.admits] using ha
      exact .inr (.inl hhand')
  · obtain ⟨e, he, hd⟩ := hd
    have := hi.departed h c' (hconn ▸ hc') ⟨e, hdep c' e he hd, hd⟩
    rw [hend] at this
    cases this
  · rw [hhand'] at hh
    obtain ⟨rfl, rfl⟩ : d = h ∧ c = c' := by simpa using hh
    refine ⟨⟨.accept fd (some (d, c)), by rw [hlog]; simp, by simp [Event.admits]⟩, ?_⟩
    exact hnot c (hi.new c (Nat.le_of_eq hc.symm))
  · exact hnot c' (hi.new c' (by rw [hnext] at hc'; exact Nat.le_of_succ_le hc'))

/-- The connection in hand gets its entry. -/
theorem Listed.emplace (hi : Listed s) {d : SOCKET} {c : ConnId} (hhand : s.pc.hand = some (d, c))
    (hend : ∀ h, s.pc.ending h = false) (hn : s.clients.conn d = none)
    (hlog : Grows Event.passing s.os.log s'.os.log) (hnext : s'.os.next = s.os.next)
    (hconn : s'.clients.conn = Function.update s.clients.conn d (some c)) (hhand' : s'.pc.hand = none) :
    Listed s' := by
  have hadm : ∀ h c, (∃ e ∈ s'.os.log, e.admits h c = true) ↔ ∃ e ∈ s.os.log, e.admits h c = true :=
    fun h c => hlog.exists_iff fun e he => (e.of_passing he h c).1
  have hdep : ∀ c, (∃ e ∈ s'.os.log, e.departs c = true) ↔ ∃ e ∈ s.os.log, e.departs c = true :=
    fun c => hlog.exists_iff fun e he => (e.of_passing he 0 c).2
  have hold : ∀ h c', s'.clients.conn h = some c' → h = d ∧ c' = c ∨ s.clients.conn h = some c' := by
    intro h c' hc
    rw [hconn] at hc
    by_cases hd : h = d
    · subst hd
      rw [Function.update_self] at hc
      exact .inl ⟨rfl, (Option.some.inj hc).symm⟩
    · rw [Function.update_of_ne hd] at hc
      exact .inr hc
  refine ⟨fun h c' hc => ?_, fun h c' ha => ?_, fun h c' hc hd => ?_, fun h c' hh => ?_, fun c' hc e he => ?_⟩
  · rw [hadm]
    rcases hold h c' hc with ⟨rfl, rfl⟩ | hc
    · exact (hi.hand h c' hhand).1
    · exact hi.entry h c' hc
  · rw [hadm] at ha
    rw [hdep]
    rcases hi.admitted h c' ha with hc | hh | hd
    · have hne : h ≠ d := by
        rintro rfl
        rw [hn] at hc
        cases hc
      exact .inl (by rw [hconn, Function.update_of_ne hne]; exact hc)
    · obtain ⟨rfl, rfl⟩ : d = h ∧ c = c' := by simpa [hhand] using hh
      exact .inl (by rw [hconn, Function.update_self])
    · exact .inr (.inr hd)
  · rw [hdep] at hd
    rcases hold h c' hc with ⟨rfl, rfl⟩ | hc
    · obtain ⟨e, he, hd⟩ := hd
      rw [(hi.hand h c' hhand).2 e he] at hd
      cases hd
    · have := hi.departed h c' hc hd
      rw [hend] at this
      cases this
  · rw [hhand'] at hh
    cases hh
  · rcases hlog.mem he with he | he
    · exact hi.new c' (hnext ▸ hc) e he
    · exact (e.of_passing he 0 c').2

/-- Connection `c` departs, which has or had the entry under `x`: the entry is about to be deleted, or it
is gone. -/
theorem Listed.depart (hi : Listed s) {x : ClientHandle} {c : ConnId} {e : Event}
    (hx : s.clients.conn x = some c) (hlt : c < s.os.next)
    (hdist : ∀ h, s.clients.conn h = some c → h = x)
    (hadm : ∀ h c', e.admits h c' = false) (hdep : ∀ c', e.departs c' = true ↔ c' = c)
    (hlog : s'.os.log = s.os.log ++ [e]) (hnext : s'.os.next = s.os.next)
    (hhand : s.pc.hand = none) (hhand' : s'.pc.hand = none)
    (hconn : ∀ h, h ≠ x → s'.clients.conn h = s.clients.conn h)
    (hsub : ∀ h c', s'.clients.conn h = some c' → s.clients.conn h = some c')
    (hend : ∀ h, h ≠ x → s.pc.ending h = true → s'.pc.ending h = true)
    (hendx : s'.clients.conn x = some c → s'.pc.ending x = true) : Listed s' := by
  have hadm' : ∀ h c', (∃ e ∈ s'.os.log, e.admits h c' = true) ↔ ∃ e ∈ s.os.log, e.admits h c' = true := by
    intro h c'
    simp [hlog, or_and_right, exists_or, hadm]
  have hdep' : ∀ c', (∃ e ∈ s'.os.log, e.departs c' = true) ↔
      (∃ e ∈ s.os.log, e.departs c' = true) ∨ c' = c := by
    intro c'
    simp [hlog, or_and_right, exists_or, hdep]
  refine ⟨fun h c' hc => ?_, fun h c' ha => ?_, fun h c' hc hd => ?_, fun h c' hh => ?_, fun c' hc e' he => ?_⟩
  · rw [hadm']
    exact hi.entry h c' (hsub h c' hc)
  · rw [hadm'] at ha
    rw [hdep']
    rcases hi.admitted h c' ha with hc | hh | hd
    · by_cases hne : h = x
      · subst hne
        exact .inr (.inr (.inr (Option.some.inj (hc.symm.trans hx))))
      · exact .inl ((hconn h hne).trans hc)
    · rw [hhand] at hh
      cases hh
    · exact .inr (.inr (.inl hd))
  · have hold := hsub h c' hc
    by_cases hne : h = x
    · subst hne
      obtain rfl := Option.some.inj (hold.symm.trans hx)
      exact hendx hc
    · rcases (hdep' c').mp hd with hd | rfl
      · exact hend h hne (hi.departed h c' hold hd)
      · exact absurd (hdist h hold) hne
  · rw [hhand'] at hh
    cases hh
  · rw [hlog, List.mem_append, List.mem_singleton] at he
    rw [hnext] at hc
    rcases he with he | rfl
    · exact hi.new c' hc e' he
    · by_contra hd
      obtain rfl := (hdep c').mp (by simpa using hd)
      exact absurd hlt (Nat.not_lt.mpr hc)

theorem Step.listed {a : Action} (h : Step s a s') (hs : Settled s) (ha : Announced s) (hi : Listed s) :
    Listed s' := by
  have ho := hs.account.orderly
  have ht := hs.inTurn
  have hown := hs.account.owned
  have hns := ho.noStart
  have hentry : ∀ {x c}, s.clients.conn x = some c → ∃ d, s.clients.entry x = some (d, c) := by
    intro x c hc
    obtain ⟨cl, hl, rfl⟩ := Option.map_eq_some_iff.mp hc
    exact ⟨_, Clients.entry_eq_some hl⟩
  have hdist : ∀ {x c}, s.clients.conn x = some c → ∀ h, s.clients.conn h = some c → h = x := by
    intro x c hx h hc
    obtain ⟨d, hd⟩ := hentry hx
    obtain ⟨d', hd'⟩ := hentry hc
    exact hown.reg.distinct hd' hd
  have hlt : ∀ {x c}, s.clients.conn x = some c → c < s.os.next := by
    intro x c hx
    obtain ⟨d, hd⟩ := hentry hx
    exact hown.reg.lt hd
  cases h with
  | startNext hc | startFails hc | startWatch hc | startThread hc | startAborts hc =>
    exact absurd hc (hns _ _)
  | @recvEnd r c res hp hn =>
    have hconn := hs.pointing _ c (by rw [hp]; rfl)
    obtain ⟨cl, hl, rfl⟩ := Option.map_eq_some_iff.mp hconn
    have howner := hown.live (ht.mutex_free ho (by rw [hp]; rfl)) hl
    cases res with
    | none => exact hi.move (.one rfl) rfl rfl (by simp [hp, Pc.hand]) (by simp [hp, Pc.ending])
    | some bytes =>
      obtain rfl : bytes = [] := by
        cases bytes with
        | nil => rfl
        | cons b bs =>
          simp only [numOfBytesReceived, List.length_cons] at hn
          omega
      rw [howner]
      refine hi.depart hconn (hlt hconn) (hdist hconn) (fun _ _ => rfl) (fun c' => ?_) rfl rfl
        (by simp [hp, Pc.hand]) rfl (fun _ _ => rfl) (fun _ _ => id) (by simp [hp, Pc.ending]) fun _ => ?_
      · simp [Event.departs, Event.deletes, Event.eofOf, eq_comm]
      · simp [Pc.ending, numOfBytesReceived]
  | @recvData r c bytes hp hne =>
    have hpass : (Event.recv r.fd (s.os.owner r.fd) (some bytes)).passing = true := by
      cases bytes with
      | nil => exact absurd rfl hne
      | cons b bs => rfl
    exact hi.move (.one hpass) rfl rfl (by simp [hp, Pc.hand]) (by simp [hp, Pc.ending])
  | @disconnectEof r c hp =>
    exact hi.move .refl rfl (by simp) (by simp [hp, Pc.hand]) (by simp [hp, Pc.ending])
  | @disconnectError r c n hp hn =>
    exact hi.move .refl rfl (by simp) (by simp [hp, Pc.hand]) (by simp [hp, hn, Pc.ending])
  | @deleteReturns r hp hidle =>
    refine hi.move .refl rfl rfl (by simp [hp, Pc.hand]) fun x hx he => ?_
    obtain rfl : r.fd = x := by simpa [hp, Pc.ending] using he
    -- the call of `deleteClient` is over, so the entry is gone
    rcases ha.deleting r hp hx with hc | ⟨sec, hm, -⟩
    · rw [hidle] at hc
      cases hc
    · have := (ho.discipline .serverTask).mpr ⟨sec, hm⟩
      rw [hidle] at this
      cases this
  | @accept r d addr hp hd =>
    exact hi.accept (by simp [hp, Pc.hand]) (by simp [hp, Pc.ending]) rfl rfl rfl rfl rfl
  | @emplace r d c hp hm =>
    have hn := hown.emplace_fresh hp hm
    refine hi.emplace (d := d) (c := c) (by simp [hp, Pc.hand]) (by simp [hp, Pc.ending]) ?_ (.one rfl) rfl
      (Clients.conn_emplace hn _) rfl
    rw [Clients.conn, AList.lookup_eq_none.mpr hn]
    rfl
  | @deleteErase w x c _ _ hc hm =>
    have hx : s.clients.conn x = some c := by
      obtain ⟨d, he⟩ : ∃ d, s.clients.entry x = some (d, c) := by
        have := hown.reg.closable
        simpa [Registry.Closable, State.registry, hm, closingOf] using this
      rw [Clients.conn_eq, he]
      rfl
    have hhand : s.pc.hand = none := by
      by_contra hh
      have hfree := ht.mutex_free ho (by cases hp : s.pc <;> simp_all [Pc.hand, Pc.hosts])
      rw [hm] at hfree
      cases hfree
    refine hi.depart hx (hlt hx) (hdist hx) (fun _ _ => rfl) (fun c' => ?_) rfl rfl hhand hhand
      (fun y hy => ?_) (fun y c' hy => ?_) (fun _ _ => id) fun hy => ?_
    · simp [Event.departs, Event.deletes, Event.eofOf, eq_comm]
    · simp [Clients.conn_erase, hy]
    · by_cases hyx : y = x
      · subst hyx
        simp [Clients.conn_erase] at hy
      · simpa [Clients.conn_erase, hyx] using hy
    · simp [Clients.conn_erase] at hy
  | @publish r cb hp =>
    exact hi.move (.one (by cases cb <;> rfl)) rfl rfl (by simp [hp, Pc.hand]) (by simp [hp, Pc.ending])
  | deleteClose =>
    exact hi.move (.one rfl) rfl rfl rfl fun _ _ => id
  | bcastSend =>
    exact hi.move (Client.sendMsg_grows (fun _ _ _ _ => rfl) _ _ _ _) (by simp) rfl rfl fun _ _ => id
  | bcastFails | send =>
    exact hi.move (.append (Client.sendMsg_grows (fun _ _ _ _ => rfl) _ _ _ _) rfl) (by simp) rfl rfl fun _ _ => id
  | finishClose _ hm | finishEnd _ hm =>
    exact absurd (ho.shutdown.closing _ _ hm) (by simp [ht.thread])
  | deleteNone | infoFound | infoNone | sendNone | finish | finishJoin | deleteClr | bcastEnd =>
    exact hi.move (.one rfl) rfl rfl rfl fun _ _ => id
  | deleteFound | bcastLock | sendFound | finishNoThread | finishSelf | finishLock | callApp
  | callCallback =>
    exact hi.move .refl rfl rfl rfl fun _ _ => id
  | _ =>
    exact hi.move (by first | exact .refl | exact .one rfl) rfl rfl (by simp [Pc.hand, *])
      (by simp [Pc.ending, *])

/-! ### Whose address an entry has -/

/-- An entry has the address that `Accept` wrote for its connection. -/
structure Labelled (s : State) (p : Peers) : Prop where
  /-- The entry under `h` has the address last written for `h`. -/
  entry : ∀ h cl, s.clients.lookup h = some cl →
    ∃ addr, p h = some addr ∧ cl.ip = inetNtop addr.addr ∧ cl.port = addr.port
  /-- The address of the connection in hand is still in `m_clientAddress`. -/
  hand : ∀ h c, s.pc.hand = some (h, c) → p h = some s.clientAddress

/-- No entry is added or changed, and nothing is accepted. -/
theorem Labelled.move {p : Peers} (hi : Labelled s p)
    (hsub : ∀ h cl, s'.clients.lookup h = some cl → s.clients.lookup h = some cl)
    (hhand : ∀ h c, s'.pc.hand = some (h, c) → s.pc.hand = some (h, c))
    (haddr : s'.clientAddress = s.clientAddress) : Labelled s' p where
  entry h cl hl := hi.entry h cl (hsub h cl hl)
  hand h c hh := by
    rw [haddr]
    exact hi.hand h c (hhand h c hh)

/-- `client->m_isConnected = false` leaves the addresses alone. -/
theorem Labelled.disconnect {p : Peers} (hi : Labelled s p) {x : ClientHandle} {c : ConnId}
    (hclients : s'.clients = s.clients.disconnect x c) (hhand : s'.pc.hand = none) : Labelled s' p where
  entry h cl hl := by
    rw [hclients, Clients.lookup_disconnect] at hl
    obtain ⟨cl', hl', rfl⟩ := Option.map_eq_some_iff.mp hl
    obtain ⟨addr, hp, hip, hport⟩ := hi.entry h cl' hl'
    refine ⟨addr, hp, ?_, ?_⟩
    · split <;> exact hip
    · split <;> exact hport
  hand h c' hh := by
    rw [hhand] at hh
    cases hh

theorem Step.labelled {a : Action} {p : Peers} (h : Step s a s') (hs : Settled s) (hi : Labelled s p) :
    Labelled s' (p.next s a) := by
  have ho := hs.account.orderly
  have hown := hs.account.owned
  have hns := ho.noStart
  cases h with
  | startNext hc | startFails hc | startWatch hc | startThread hc | startAborts hc =>
    exact absurd hc (hns _ _)
  | @accept r d addr hp hd =>
    have hm := hs.inTurn.mutex_free ho (by rw [hp]; rfl)
    refine ⟨fun x cl hl => ?_, fun x c hh => ?_⟩
    · -- a number that has an entry is open, and `Accept` does not return it
      have hne : x ≠ d := by
        rintro rfl
        have := hown.live hm hl
        rw [hd.2] at this
        cases this
      obtain ⟨addr', hp', hrest⟩ := hi.entry x cl hl
      exact ⟨addr', by simpa [Peers.next, hne] using hp', hrest⟩
    · obtain ⟨rfl, -⟩ : d = x ∧ s.os.next = c := by simpa [Pc.hand] using hh
      simp [Peers.next]
  | @emplace r d c hp hm =>
    have hn := hown.emplace_fresh hp hm
    refine ⟨fun x cl hl => ?_, by simp [Pc.hand]⟩
    rw [Clients.lookup_emplace hn] at hl
    by_cases hx : x = d
    · rw [if_pos hx] at hl
      cases hl
      subst hx
      exact ⟨s.clientAddress, hi.hand x c (by rw [hp]; rfl), rfl, rfl⟩
    · rw [if_neg hx] at hl
      exact hi.entry x cl hl
  | disconnectEof | disconnectError => exact hi.disconnect rfl rfl
  | deleteErase => exact hi.move (fun _ _ hl => (lookup_erase_eq.mp hl).2) (fun _ _ => id) rfl
  | finishClose _ hm | finishEnd _ hm =>
    exact absurd (ho.shutdown.closing _ _ hm) (by simp [hs.inTurn.thread])
  | acceptFails => exact hi.move (fun _ _ => id) (by simp [Pc.hand]) rfl
  | _ => exact hi.move (fun _ _ => id) (by first | exact fun _ _ => id | simp [Pc.hand]) rfl

/-! ### What `getClientInfo` reports -/

theorem Initial.listed (h : Initial s) : Listed s := by
  have hpass : Grows Event.passing [] s.os.log := .of_forall fun e he => by
    rcases h.log e he with hs | rfl
    · cases e <;> first | rfl | cases hs
    · rfl
  have hdep : ∀ c, ∀ e ∈ s.os.log, e.departs c = false := by
    intro c e he
    rcases hpass.mem he with he | he
    · cases he
    · exact (e.of_passing he 0 c).2
  refine ⟨fun x c hc => ?_, fun x c ha => ?_, fun x c hc => ?_, fun x c hh => ?_, fun c _ => hdep c⟩
  · simp [Clients.conn, h.clients] at hc
  · rw [hpass.exists_iff fun e he => (e.of_passing he x c).1] at ha
    obtain ⟨e, he, -⟩ := ha
    cases he
  · simp [Clients.conn, h.clients] at hc
  · simp [h.pc, Pc.hand] at hh

theorem Initial.labelled (h : Initial s) (p : Peers) : Labelled s p :=
  ⟨fun x cl hl => by simp [h.clients] at hl, fun x c hh => by simp [h.pc, Pc.hand] at hh⟩

/-- A client that is present has an entry, unless it is in hand; one that has an entry is present, unless
the entry is about to be deleted. -/
theorem Listed.present_iff (hi : Listed s) (hhand : s.pc.hand = none) {h : ClientHandle}
    (hend : s.pc.ending h = false) : Present h s.os.log ↔ ∃ c, s.clients.conn h = some c := by
  constructor
  · rintro ⟨c, ha, hd⟩
    rcases hi.admitted h c ha with hc | hh | ⟨e, he, hdep⟩
    · exact ⟨c, hc⟩
    · rw [hhand] at hh
      cases hh
    · rw [hd e he] at hdep
      cases hdep
  · rintro ⟨c, hc⟩
    refine ⟨c, hi.entry h c hc, fun e he => ?_⟩
    by_contra hdep
    have := hi.departed h c hc ⟨e, he, by simpa using hdep⟩
    rw [hend] at this
    cases this

/-- A call of `getClientInfo` that nobody interferes with, made where the mutex is free. -/
theorem run_getClientInfo {w : Caller} (hab : s.aborted = false) (hw : mayCall s w = true)
    (hm : s.mutex = none) (h : ClientHandle) (out : ClientInfo) (a : Answer) (order : List ClientHandle) :
    machine.run s [.call w (.getClientInfo h out), .step w a order] =
      some { s with os := s.os.record (match s.clients.lookup h with
        | some cl => .getClientInfo w h true ⟨cl.ip, cl.port, cl.isConnected⟩
        | none => .getClientInfo w h false out) } := by
  have hidle := (mayCall_iff.mp hw).1
  cases hl : s.clients.lookup h <;>
    simp [Machine.run, machine, TcpServer.step, hab, hw, callStep, hm, hl, Call.begin, Caller.update_back hidle]

/-- **Client info is that of the current connection.** In every sequential run, at the head of the loop of
the server thread, while it waits in `Select`, and in every callback, `getClientInfo(h)` returns true exactly
if `Accept` returned `h` and the connection so created has since been neither deleted nor closed by the peer;
it then reports the address that the latest `Accept` returning `h` wrote, as a dotted quad that `inet_pton`
reads back. If it returns false the output arguments are what they were. It changes nothing. -/
theorem client_info_current {s₀ : State} {x : State × Peers} (h₀ : Started s₀) (hx : ReachPeers s₀ x)
    (hpc : x.1.pc = .loopHead ∨ (x.1.pc.isWaiting = true ∧ x.1.calls (.app 0) = .idle) ∨
      ∃ r cb, x.1.pc = .callback r cb ∧ x.1.calls .callback = .idle)
    {w : Caller} (hw : mayCall x.1 w = true) (h : ClientHandle) (out : ClientInfo) (a : Answer)
    (order : List ClientHandle) :
    ∃ ret info, machine.run x.1 [.call w (.getClientInfo h out), .step w a order] =
        some { x.1 with os := x.1.os.record (.getClientInfo w h ret info) } ∧
      (ret = true ↔ Present h x.1.os.log) ∧
      (ret = true → ∃ addr, x.2 h = some addr ∧ info.ipAddr = inetNtop addr.addr ∧
        inetPton info.ipAddr = some addr.addr ∧ info.port = addr.port) ∧
      (ret = false → info = out) := by
  have hr : machine.Reach Sequential s₀ x.1 := hx.forget
  have hs : Settled x.1 := h₀.initial.settled.reach hr
  have ho := hs.account.orderly
  have hab : x.1.aborted = false :=
    h₀.reach_not_aborted (fun _ _ hok => Action.regular_of_sequential hok.1) hr
  have hlisted : Listed x.1 :=
    (Machine.Reach.invariant_of (I := fun s => Protocol s ∧ Listed s) (fun _ hr => h₀.initial.settled.reach hr)
      ⟨h₀.initial.protocol, h₀.initial.listed⟩ (fun _ _ _ hj hi hok hstep =>
        have hstep := (Step.of_step hstep).2
        ⟨hstep.protocol hok hj hi.1, hstep.listed hj hi.1.announced hi.2⟩) hr).2
  have hlabelled : Labelled x.1 x.2 :=
    Machine.Reach.history_invariant (I := Labelled) (fun _ hr => h₀.initial.settled.reach hr)
      (h₀.initial.labelled _) (fun _ _ _ _ hj hi _ hstep => (Step.of_step hstep).2.labelled hj hi) hx
  have hplace : x.1.mutex = none ∧ x.1.pc.hand = none ∧ x.1.pc.ending h = false := by
    rcases hpc with hp | ⟨hp, happ⟩ | ⟨r, cb, hp, hcb⟩
    · refine ⟨hs.inTurn.mutex_free ho (by rw [hp]; rfl), ?_, ?_⟩ <;> rw [hp] <;> rfl
    · refine ⟨hs.inTurn.mutex_waiting ho hp happ, ?_, ?_⟩ <;>
        cases hpc' : x.1.pc <;> simp_all [Pc.isWaiting, Pc.hand, Pc.ending]
    · have htask := ho.placed.task_idle (by simp [hp])
      refine ⟨hs.inTurn.mutex_none ho (by simp [hp, Pc.isWaiting]) hcb htask, ?_, ?_⟩ <;> rw [hp] <;> rfl
  obtain ⟨hm, hhand, hend⟩ := hplace
  have hpresent := hlisted.present_iff hhand hend
  cases hl : x.1.clients.lookup h with
  | none =>
    refine ⟨false, out, ?_, ?_, by simp, fun _ => rfl⟩
    · rw [run_getClientInfo hab hw hm, hl]
    · rw [hpresent]
      simp [Clients.conn, hl]
  | some cl =>
    obtain ⟨addr, haddr, hip, hport⟩ := hlabelled.entry h cl hl
    refine ⟨true, ⟨cl.ip, cl.port, cl.isConnected⟩, ?_, ?_,
      fun _ => ⟨addr, haddr, hip, inetPton_eq_some.mpr hip, hport⟩, by simp⟩
    · rw [run_getClientInfo hab hw hm, hl]
    · rw [hpresent]
      simp [Clients.conn, hl]

/-- Client `1` closes the connection, client `2` is deleted in the callback that says so, and number `1` is
given to another client. -/
theorem client_info_current_recycled : ∃ x info, ReachPeers started x ∧ x.1.pc = .loopHead ∧
    machine.run x.1 [.call (.app 0) (.getClientInfo 1 ⟨"", 0, false⟩), go (.app 0)] =
      some { x.1 with os := x.1.os.record (.getClientInfo (.app 0) 1 true info) } ∧
    info.ipAddr = inetNtop ⟨10, 0, 0, 2⟩ ∧ info.port = 9 := by
  obtain ⟨x, hr, hp, hw, haddr, hpresent⟩ : ∃ x, ReachPeers started x ∧ x.1.pc = .loopHead ∧
      mayCall x.1 (.app 0) = true ∧ x.2 1 = some ⟨⟨10, 0, 0, 2⟩, 9⟩ ∧
      (∃ e ∈ x.1.os.log, e.admits 1 3 = true) ∧ ∀ e ∈ x.1.os.log, e.departs 3 = false :=
    Machine.exists_reach (List.flatten [twoClients, selectActions [1],
      [.forStep, .forStep, .lookup, .recv (some []), .disconnect, go .serverTask, go .serverTask,
       go .serverTask, go .serverTask, .deleteReturns, .publish], deleteActions .callback 2,
      [.callbackReturns, .forStep, .forStep], selectActions [0],
      [.forStep, .lookup, .accept (some (1, ⟨⟨10, 0, 0, 2⟩, 9⟩)), .emplace, .fdSet, .publish,
       .callbackReturns, .forStep]]) (by decide)
  obtain ⟨ret, info, hrun, hret, htrue, -⟩ :=
    client_info_current started_started hr (.inl hp) hw 1 ⟨"", 0, false⟩ {} []
  obtain rfl := hret.mpr ⟨3, hpresent⟩
  obtain ⟨addr, ha, hip, -, hport⟩ := htrue rfl
  rw [haddr] at ha
  cases ha
  exact ⟨x, info, hr, hp, hrun, hip, hport⟩

end TcpServer

end SocketsCpp
