import SocketsCpp.TcpServer.Sequential

/-!
# Unicast sends

`sendClientMessage` looks the client up under the lock, releases it, and sends through
the pointer it got. Between the two the client may be deleted. As long as no connection is
closed that a pending `Send` is for (`ClosesFound`), the bytes reach the connection that
was looked up (`unicast_reaches_its_connection`).
-/

namespace SocketsCpp.TcpServer

open SocketsCpp.Library

/-- The connection that the critical section in progress closes next. -/
def State.closingNext (s : State) : Option ConnId :=
  match s.mutex with
  | some (_, .deleteClose _ _ c) => some c
  | some (_, .finishClose (h :: _)) => s.clients.conn h
  | _ => none

/-- `Close` is called for a connection that a pending `Send` is for. -/
def ClosesFound (s : State) (a : Action) : Prop :=
  ∃ w sec ans order, s.mutex = some (w, sec) ∧ a = .step w ans order ∧
    ∃ w' h cl msg, s.calls w' = .send h cl msg ∧ s.closingNext = some cl.conn

/-- Every interleaving in which no connection is closed that a pending `Send` is for. -/
def KeepsFound (s : State) (a : Action) : Prop := Concurrent s a ∧ ¬ ClosesFound s a

/-- The entry that was looked up is still there, and its connection open. -/
def Found (s : State) : Prop :=
  ∀ w h cl msg, s.calls w = .send h cl msg →
    s.clients.conn h = some cl.conn ∧ cl.sockfd = h ∧ s.os.owner h = some cl.conn

/-- A closed entry is not of an open connection. -/
theorem Registry.Ok.dead_owner {r : Registry} (hr : r.Ok) {h : ClientHandle} {d : SOCKET} {c : ConnId}
    (he : r.entry h = some (d, c)) (hd : r.Dead h) : r.owner h ≠ some c := by
  intro ho
  rcases hr.cover ho with hl | hh | ⟨hnd, -⟩
  · exact hr.ne_listen he hl
  · exact hr.hand_conn hh he rfl
  · exact hnd hd

theorem Clients.entry_of_conn {t : Clients} {h : ClientHandle} {c : ConnId} (hc : t.conn h = some c) :
    ∃ d, t.entry h = some (d, c) := by
  obtain ⟨cl, hl, rfl⟩ := Option.map_eq_some_iff.mp hc
  exact ⟨cl.sockfd, entry_eq_some hl⟩

/-- Calls go on, and what was found stays. -/
theorem Found.mono {s s' : State} (hi : Found s)
    (hcalls : ∀ w h cl msg, s'.calls w = .send h cl msg → s.calls w = .send h cl msg)
    (hkeep : ∀ w h cl msg, s.calls w = .send h cl msg → s.clients.conn h = some cl.conn →
      s.os.owner h = some cl.conn → s'.clients.conn h = some cl.conn ∧ s'.os.owner h = some cl.conn) :
    Found s' := by
  intro w h cl msg hc
  have hc := hcalls w h cl msg hc
  obtain ⟨hconn, hfd, hown⟩ := hi w h cl msg hc
  obtain ⟨hconn', hown'⟩ := hkeep w h cl msg hc hconn hown
  exact ⟨hconn', hfd, hown'⟩

theorem update_ne_send {calls : Caller → CallPc} {w w' : Caller} {p : CallPc} {h : ClientHandle}
    {cl : Client} {msg : List UInt8} (hp : ∀ h cl msg, p ≠ .send h cl msg)
    (hc : Function.update calls w p w' = .send h cl msg) : calls w' = .send h cl msg :=
  Caller.of_update (P := fun q : CallPc => q = .send h cl msg) (hp h cl msg) hc

theorem Step.found {s s' : State} {a : Action} (h : Step s a s') (ha : ¬ ClosesFound s a)
    (ho : Orderly s) (hi : Owned s) (hf : Found s) : Found s' := by
  have hns := ho.noStart
  cases h with
  | startNext hc | startFails hc | startWatch hc | startThread hc | startAborts hc =>
    exact absurd hc (hns _ _)
  | @accept r d addr hp hd =>
    refine hf.mono (fun _ _ _ _ hc => hc) fun w h cl msg _ hconn hown => ⟨hconn, ?_⟩
    have hne : h ≠ d := by rintro rfl; rw [hd.2] at hown; cases hown
    simpa [hne] using hown
  | @emplace r d c hp hm =>
    refine hf.mono (fun _ _ _ _ hc => hc) fun w h cl msg _ hconn hown => ⟨?_, hown⟩
    have hn := hi.emplace_fresh hp hm
    have hne : h ≠ d := by rintro rfl; exact hn (Clients.mem_of_conn hconn)
    simpa [Clients.conn_emplace hn, hne] using hconn
  | disconnectEof =>
    exact hf.mono (fun _ _ _ _ hc => update_ne_send (by simp) hc) fun _ _ _ _ _ hconn hown =>
      ⟨by simpa using hconn, hown⟩
  | disconnectError =>
    exact hf.mono (fun _ _ _ _ hc => hc) fun _ _ _ _ _ hconn hown => ⟨by simpa using hconn, hown⟩
  | @sendFound w h msg cl ans order hc hm hl =>
    intro w' h' cl' msg' hc'
    by_cases hww : w' = w
    · subst hww
      simp only [State.goto, Function.update_self, CallPc.send.injEq] at hc'
      obtain ⟨rfl, rfl, -⟩ := hc'
      exact ⟨Clients.conn_of_lookup hl, hi.key hl, hi.live hm hl⟩
    · exact hf w' h' cl' msg' (by simpa [hww] using hc')
  | @deleteClose w h d c ans order hc hm =>
    have hclosing : s.registry.closing = .found h d c := by simp [State.registry, hm, closingOf]
    obtain ⟨rfl, hopen⟩ := hi.reg.found hclosing
    refine hf.mono (fun _ _ _ _ hc => hc) fun w' h' cl msg hc' hconn hown => ⟨hconn, ?_⟩
    have hne : h' ≠ d := by
      rintro rfl
      have hcc : c = cl.conn := Option.some.inj (hopen.symm.trans hown)
      exact ha ⟨w, _, ans, order, hm, rfl, w', h', cl, msg, hc', by simp [State.closingNext, hm, hcc]⟩
    simpa [hne] using hown
  | @deleteErase w h c ans order hc hm =>
    refine hf.mono (fun _ _ _ _ hc => update_ne_send (by simp) hc) fun w' h' cl msg _ hconn hown =>
      ⟨?_, hown⟩
    have hne : h' ≠ h := by
      rintro rfl
      obtain ⟨d, he⟩ := Clients.entry_of_conn hconn
      exact hi.reg.dead_owner he (by simp [Registry.Dead, State.registry, hm, closingOf]) hown
    simpa [Clients.conn_erase, hne] using hconn
  | @finishClose w h rest cl ans order hc hm hl =>
    refine hf.mono (fun _ _ _ _ hc => hc) fun w' h' cl' msg hc' hconn hown => ⟨hconn, ?_⟩
    have hne : h' ≠ cl.sockfd := by
      rintro rfl
      rw [hi.key hl] at hconn
      exact ha ⟨w, _, ans, order, hm, rfl, w', _, cl', msg, hc', by simp [State.closingNext, hm, hconn]⟩
    simpa [hne] using hown
  | finishEnd hc hm =>
    refine hf.mono (fun _ _ _ _ hc => update_ne_send (by simp) hc) fun w' h' cl msg _ hconn hown => ?_
    obtain ⟨d, he⟩ := Clients.entry_of_conn hconn
    exact absurd hown (hi.reg.dead_owner he (by simp [Registry.Dead, State.registry, hm, closingOf]))
  | @callApp _ c | @callCallback _ _ c =>
    exact hf.mono (fun _ _ _ _ hc => update_ne_send (by cases c <;> simp [Call.begin]) hc)
      fun _ _ _ _ _ hconn hown => ⟨hconn, hown⟩
  | bcastSend =>
    exact hf.mono (fun _ _ _ _ hc => hc) fun _ _ _ _ _ hconn hown => ⟨hconn, by simpa using hown⟩
  | bcastFails | send =>
    exact hf.mono (fun _ _ _ _ hc => update_ne_send (by simp) hc) fun _ _ _ _ _ hconn hown =>
      ⟨hconn, by simpa using hown⟩
  | _ =>
    first
    | exact hf
    | exact hf.mono (fun _ _ _ _ hc => update_ne_send (by simp) hc) fun _ _ _ _ _ hconn hown =>
        ⟨hconn, hown⟩

theorem Initial.found {s : State} (h : Initial s) : Found s := by
  intro w _ _ _ hc
  rw [h.calls w] at hc
  cases hc

/-- **A unicast send reaches the connection that was looked up**, as long as no connection is
closed that a pending `Send` is for: when `Send` is executed, the connection found is still the one
stored under the handle, and still open under the descriptor written to. -/
theorem unicast_reaches_its_connection {s₀ s : State} (h₀ : Started s₀)
    (h : machine.Reach KeepsFound s₀ s) {w : Caller} {x : ClientHandle} {cl : Client}
    {msg : List UInt8} (hc : s.calls w = .send x cl msg) :
    s.clients.conn x = some cl.conn ∧ s.os.owner cl.sockfd = some cl.conn := by
  have hf : Found s := Machine.Reach.invariant_of
    (fun _ hr => h₀.initial.account.reach (hr.mono fun _ _ hok => hok.1)) h₀.initial.found
    (fun _ _ _ hj hi hok hs => (Step.of_step hs).2.found hok.2 hj.orderly hj.owned hi) h
  obtain ⟨hconn, rfl, hown⟩ := hf w x cl msg hc
  exact ⟨hconn, hown⟩

/-- Where no `Close` is next, no pending `Send` is harmed. -/
theorem keepsFound_of_closingNext {s : State} {a : Action}
    (h : Concurrent s a ∧ s.closingNext = none) : KeepsFound s a := by
  refine ⟨h.1, ?_⟩
  rintro ⟨_, _, _, _, _, _, _, _, _, _, _, hnext⟩
  rw [h.2] at hnext
  cases hnext

/-- The connection of the pending `Send` that `w` makes. -/
def State.pendingSend (s : State) (w : Caller) : Option (ClientHandle × ConnId) :=
  match s.calls w with
  | .send h cl _ => some (h, cl.conn)
  | _ => none

theorem calls_of_pendingSend {s : State} {w : Caller} {h : ClientHandle} {c : ConnId}
    (hs : s.pendingSend w = some (h, c)) : ∃ cl msg, s.calls w = .send h cl msg ∧ cl.conn = c := by
  unfold State.pendingSend at hs
  split at hs
  · next hc => cases hs; exact ⟨_, _, hc, rfl⟩
  · cases hs

theorem unicast_reaches_its_connection_two_clients :
    ∃ s cl msg, machine.Reach KeepsFound started s ∧ s.calls (.app 1) = .send 2 cl msg ∧
      s.clients.conn 2 = some cl.conn ∧ s.os.owner cl.sockfd = some cl.conn := by
  obtain ⟨s, hr, hp⟩ : ∃ s, machine.Reach (fun s a => Concurrent s a ∧ s.closingNext = none) started s ∧
      s.pendingSend (.app 1) = some (2, 2) :=
    Machine.exists_reach (twoClients ++ [.call (.app 1) (.sendClientMessage 2 [7]), go (.app 1)])
      (by decide)
  have hr : machine.Reach KeepsFound started s := hr.mono fun _ _ => keepsFound_of_closingNext
  obtain ⟨cl, msg, hc, -⟩ := calls_of_pendingSend hp
  exact ⟨s, cl, msg, hr, hc, unicast_reaches_its_connection started_started hr hc⟩

/-- Between the lookup and the `Send` the client is deleted, and its number is given to another
peer, who gets the bytes. -/
theorem not_unicast_reaches_its_connection :
    ¬ ∀ s₀ s, Started s₀ → machine.Reach Concurrent s₀ s →
      ∀ w x cl msg, s.calls w = .send x cl msg →
        s.clients.conn x = some cl.conn ∧ s.os.owner cl.sockfd = some cl.conn := by
  intro hall
  obtain ⟨s, hr, hp, hc⟩ : ∃ s, machine.Reach Concurrent started s ∧
      s.pendingSend (.app 1) = some (1, 1) ∧ s.clients.conn 1 ≠ some 1 :=
    Machine.exists_reach (List.flatten [selectActions [0], acceptActions 1,
      [.forStep, .call (.app 1) (.sendClientMessage 1 [7]), go (.app 1)], deleteActions (.app 2) 1,
      selectActions [0], acceptActions 1]) (by decide)
  obtain ⟨cl, msg, hcall, hconn⟩ := calls_of_pendingSend hp
  exact hc (hconn ▸ (hall started s started_started hr _ _ cl msg hcall).1)

end SocketsCpp.TcpServer
