import SocketsCpp.ServerApp.Clients

/-!
# Unicast sends of the application

`sendClientMessage` sends through a pointer that it looked up under the lock of the server and uses after
releasing it; in the meantime the client may be deleted, and its descriptor given to the next one. In the
application the next one does not come: `sendMsg` holds the mutex that `onClientDisconnect` has to take before the
server thread can go on to `Accept`. But the client may be deleted: then the pointer dangles, and what is read
through it is not determined.

* `Spared` — while the entry that a pending `Send` is for is in the table, it is the one that was looked up.
* `sendMsg_spares_others` — so it is in every interleaving.
-/

namespace SocketsCpp.ServerApp

open SocketsCpp.Library
open TcpServer (Tended Client)

/-- The connection that a pending `Send` is for is open and in the table, or it is being deleted, and no other
is in its place. -/
def Spared (server : TcpServer.State) : Prop :=
  ∀ n idx cl data, server.calls (.app n) = .send idx cl data →
    (server.clients.conn idx = some cl.conn ∧ server.os.owner idx = some cl.conn) ∨
      (server.pc.leaver = some idx ∧ server.os.owner idx = none ∧
        ∀ c, server.clients.conn idx = some c → c = cl.conn)

section

variable {server server' : TcpServer.State} {a : TcpServer.Action}

/-- Who is at `Send` was there before, or has just found its client. -/
theorem send_of_step (h : TcpServer.Step server a server') (ht : Tended server) {n : ℕ} {idx : ClientHandle}
    {cl : Client} {data : List UInt8} (hc : server'.calls (.app n) = .send idx cl data) :
    (server.calls (.app n) = .send idx cl data ∧ a.caller ≠ some (.app n)) ∨
      (server.mutex = none ∧ server.clients.lookup idx = some cl ∧
        server' = server.goto (.app n) (.send idx cl data)) := by
  have hns := ht.account.orderly.noStart
  by_cases ha : a.caller = some (.app n)
  · right
    cases a with
    | call w c =>
      cases ha
      cases h with
      | callApp => cases c <;> simp [TcpServer.Call.begin] at hc
    | step w ans order =>
      cases ha
      cases h with
      | startNext hs | startFails hs | startWatch hs | startThread hs | startAborts hs =>
        exact absurd hs (hns _ _)
      | sendFound hs hm hl =>
        simp only [TcpServer.State.goto, Function.update_self, TcpServer.CallPc.send.injEq] at hc
        obtain ⟨rfl, rfl, rfl⟩ := hc
        exact ⟨hm, hl, rfl⟩
      | deleteClose hs | deleteClr hs | bcastSend hs | finishClose hs =>
        rw [show server.calls (.app n) = _ from hc] at hs
        cases hs
      | _ => simp at hc
    | _ => cases ha
  · exact .inl ⟨(h.calls_frame ha).symm.trans hc, ha⟩

theorem Spared.step (hi : Spared server) (h : TcpServer.Step server a server') (ht : Tended server)
    (hret : a = .callbackReturns → ∀ n idx cl data, server.calls (.app n) = .send idx cl data →
      server.pc.leaver ≠ some idx) : Spared server' := by
  have ho := ht.account.orderly
  have hown := ht.account.owned
  intro n idx cl data hc
  rcases send_of_step h ht hc with ⟨hc, -⟩ | ⟨hm, hl, rfl⟩
  · rcases hi n idx cl data hc with ⟨hconn, howner⟩ | ⟨hlv, howner, hsame⟩
    · obtain ⟨hconn', ho' | ⟨hlv', ho'⟩⟩ := h.conn_kept ho hown ht.resident hconn howner
      · exact .inl ⟨hconn', ho'⟩
      · exact .inr ⟨hlv', ho', fun c hc => Option.some.inj (hc.symm.trans hconn')⟩
    · have ha : a ≠ .callbackReturns := fun ha => hret ha n idx cl data hc hlv
      exact .inr ⟨h.leaver_kept ho hlv ha, h.closed_kept ho ht.resident hlv howner,
        fun c hc => hsame c (h.conn_left hlv hc)⟩
  · exact .inl ⟨TcpServer.Clients.conn_of_lookup hl, hown.live hm hl⟩

end

variable {s s' : State} {n : ℕ} {idx : ClientHandle} {data : List UInt8}

/-- A thread that sends to one client is in `sendMsg`, and the client is in `m_clients`. -/
theorem Account.unicast (hi : Account s)
    (hc : s.server.calls (.app n) = .sendClientMessage idx data ∨
      ∃ cl, s.server.calls (.app n) = .send idx cl data) :
    s.mutex = some (.app n) ∧ idx ∈ s.clients := by
  have hmakes := hi.sending.sender n
  cases hs : s.calls n with
  | sending i d =>
    rw [hs] at hmakes
    obtain ⟨hne, rfl⟩ : i ≠ 0 ∧ i = idx := by
      rcases hmakes with hidle | ⟨-, hb | hl⟩ | ⟨hne, hm | ⟨cl', hm⟩⟩ <;> simp_all
    refine ⟨(hi.held (.app n)).mp (by simp [State.holds, hs, SendPc.holds]), hi.sending.member n i d hs hne⟩
  | _ =>
    rw [hs] at hmakes
    simp only [SendPc.Makes] at hmakes
    rw [hmakes] at hc
    rcases hc with hc | ⟨cl, hc⟩ <;> cases hc

/-- While a thread sends to a client, `onClientDisconnect` has not erased it. -/
theorem Account.not_erased (hi : Account s) (hmem : idx ∈ s.clients) (hl : s.server.pc.leaver = some idx) :
    s.host ≠ .done := by
  intro hd
  obtain ⟨r, cb, hp, -⟩ := hi.hosted.callback (by simp [hd])
  have hidle := hi.server.account.orderly.placed.task_idle (by simp [hp])
  have hx := (hi.listed idx).mp hmem
  rw [if_pos hd] at hx
  exact hi.server.resident.leaver idx hl hidle hx

theorem Step.spared {a : Action} (h : Step s a s') (ha : Account s) (hi : Spared s.server) :
    Spared s'.server := by
  cases h with
  | @server a server hal hs =>
    refine hi.step (TcpServer.Step.of_step hs).2 ha.server fun hret m x cl d hc hl => ?_
    subst hret
    exact ha.not_erased (ha.unicast (.inr ⟨cl, hc⟩)).2 hl (of_decide_eq_true hal)
  | connect _ hs | sendCall _ _ hs =>
    exact hi.step (TcpServer.Step.of_step hs).2 ha.server fun hret => by cases hret
  | _ => exact hi

/-- **The mutex of the application keeps a unicast send from other clients.** In every interleaving, while a
`sendMsg(idx, …)` is at `Send`, its thread holds the mutex and the client is in `m_clients`. As long as there is an
entry for the client in the table of the server, it is the entry of the connection that was looked up, and its
descriptor is open for that connection, or closed by the server thread that is about to erase it. There is none only
while the server thread deletes that client and announces it: then the pointer dangles, and nothing is promised. And
`sendMsg` is told that there is no such client only in that case, too. -/
theorem sendMsg_spares_others {server : TcpServer.State} {s : State} (h₀ : TcpServer.Started server)
    (h : machine.Reach Machine.Any (init server) s) :
    (∀ n idx cl data, s.server.calls (.app n) = .send idx cl data →
      s.mutex = some (.app n) ∧ idx ∈ s.clients ∧
        (∀ entry, s.server.clients.lookup idx = some entry → entry.conn = cl.conn ∧ entry.sockfd = idx ∧
          (s.server.os.owner idx = some cl.conn ∨
            (s.server.os.owner idx = none ∧ s.server.pc.leaver = some idx))) ∧
        (idx ∉ s.server.clients → s.server.pc.leaver = some idx)) ∧
      ∀ n idx data, s.server.calls (.app n) = .sendClientMessage idx data → idx ∉ s.server.clients →
        s.server.pc.leaver = some idx := by
  have ha := Account.reach h₀.initial h
  have hi : Spared s.server := Machine.Reach.invariant_of (I := fun s => Spared s.server)
    (fun _ hr => Account.reach h₀.initial hr)
    (fun n idx cl data hc => by simp [init, h₀.initial.calls] at hc)
    (fun _ _ _ hj hi _ hs => (Step.of_step hs).spared hj hi) h
  refine ⟨fun n idx cl data hc => ?_, fun n idx data hc hnot => ?_⟩
  · obtain ⟨hm, hmem⟩ := ha.unicast (.inr ⟨cl, hc⟩)
    refine ⟨hm, hmem, fun entry hl => ?_, fun hnot => ?_⟩
    · have hconn := TcpServer.Clients.conn_of_lookup hl
      have hkey := ha.server.account.owned.key hl
      rcases hi n idx cl data hc with ⟨hconn', howner⟩ | ⟨hlv, howner, hsame⟩
      · exact ⟨Option.some.inj (hconn.symm.trans hconn'), hkey, .inl howner⟩
      · exact ⟨hsame _ hconn, hkey, .inr ⟨howner, hlv⟩⟩
    · rcases hi n idx cl data hc with ⟨hconn, -⟩ | ⟨hlv, -, -⟩
      · exact absurd (TcpServer.Clients.mem_of_conn hconn) hnot
      · exact hlv
  · have hmem := (ha.listed idx).mp (ha.unicast (.inl hc)).2
    split at hmem
    · exact absurd hmem hnot
    · rcases hmem with ⟨hmem, -⟩ | hl
      · exact absurd hmem hnot
      · exact hl

/-- The server thread is about to delete the client between the lookup and the `Send`. -/
theorem sendMsg_spares_others_leaving : ∃ s cl data entry,
    machine.Reach Machine.Any (init TcpServer.started) s ∧ s.server.calls (.app 0) = .send 1 cl data ∧
    s.server.clients.lookup 1 = some entry ∧ s.server.pc.leaver = some 1 ∧ s.mutex = some (.app 0) ∧
    1 ∈ s.clients ∧ entry.conn = cl.conn ∧ entry.sockfd = 1 := by
  obtain ⟨s, hr, hp, hpc, hl⟩ : ∃ s, machine.Reach Machine.Any (init TcpServer.started) s ∧
      s.server.pendingSend (.app 0) = some (1, 1) ∧ s.server.pc.leaver = some 1 ∧
      (s.server.clients.lookup 1).isSome = true :=
    Machine.exists_reach (List.flatten [(TcpServer.selectActions [0]).map .server, connectActions 1,
      [.callback 0 false, .callback 0 false, .server .callbackReturns, .server .forStep, .sendMsg 0 1 [7],
       .send 0, .send 0, .server (TcpServer.go (.app 0))],
      (TcpServer.selectActions [1]).map .server, [.server .forStep, .server .forStep],
      disconnectActions.take 3]) (by decide)
  obtain ⟨cl, data, hc, -⟩ := TcpServer.calls_of_pendingSend hp
  obtain ⟨entry, hl⟩ := Option.isSome_iff_exists.mp hl
  obtain ⟨hm, hmem, hentry, -⟩ := (sendMsg_spares_others TcpServer.started_started hr).1 0 1 cl data hc
  obtain ⟨hconn, hfd, -⟩ := hentry entry hl
  exact ⟨s, cl, data, entry, hr, hc, hl, hpc, hm, hmem, hconn, hfd⟩

end SocketsCpp.ServerApp
