import SocketsCpp.TcpServer.Started
import SocketsCpp.TcpServer.Lifecycle
import SocketsCpp.Receiver.Lifecycle

/-!
# Histories of an object

What holds of an object of any of the three classes after any history of calls.

* `live_iff_never_stopped` — after a call that succeeded the thread does its work exactly if
  the object was never stopped before: no method clears `m_stop`.
* `no_leak_iff_stores_free` — no descriptor is lost exactly if no method stores to `m_sockfd`
  while a descriptor is in it: the methods do not close what a failed attempt has left.
* `never_aborted_iff_joined_before` — the process is not aborted exactly if each thread created
  is joined before the next is: a thread that returns by itself is not joined by anybody.
-/

namespace SocketsCpp

open SocketsCpp.Library

/-! ### Every history -/

namespace TcpServer

/-- The flag is not set, and the server thread is in its loop and serves the clients. -/
def Live (s : State) : Prop := s.stop = false ∧ s.pc.task = .running ∧ Serving s

/-- A thread is created only after the last one was joined. -/
def JoinedBefore (s : State) (a : Action) : Prop :=
  ∀ op ∈ nextOp s a, op = .thread → ¬ Outstanding s.os.log

/-- A method stores to `m_sockfd` only when no descriptor is in it. -/
def StoresFree (s : State) (a : Action) : Prop := stores s a = true → s.sockfd = INVALID_SOCKET

/-- No connection is accepted. -/
def NoClients (_ : State) (a : Action) : Prop := accepts a = false

instance (s : State) (a : Action) : Decidable (JoinedBefore s a) :=
  inferInstanceAs (Decidable (∀ _ ∈ _, _))

instance (s : State) (a : Action) : Decidable (StoresFree s a) := inferInstanceAs (Decidable (_ → _))

instance (s : State) (a : Action) : Decidable (NoClients s a) := inferInstanceAs (Decidable (_ = _))

theorem fresh_worker (options : SocketOpt) (msg : List UInt8) : (fresh options msg).worker.Ok := .init

theorem fresh_keyed (options : SocketOpt) (msg : List UInt8) : Keyed (fresh options msg) :=
  ⟨by simp [fresh], by simp [fresh]⟩

theorem fresh_empty (options : SocketOpt) (msg : List UInt8) : Empty (fresh options msg) :=
  ⟨rfl, by simp [fresh], by simp [fresh]⟩

/-- After a call that succeeded the server is live exactly if it was never stopped. -/
theorem live_iff {s : State} (hw : s.worker.Ok) (hk : Keyed s) (hl : StartedLast s.os.log) :
    Live s ↔ NeverStopped s.os.log := by
  constructor
  · exact fun h => hw.stop_eq_false_iff.mp h.1
  · intro h
    have hs : s.stop = false := hw.stop_eq_false_iff.mpr h
    exact ⟨hs, hw.running hl.mem hs, hk.serving hs⟩

/-- A call of `start` that succeeds. -/
def startOk : List Action := startActions 80 (List.replicate 10 {})

/-- A call of `start` in which `Bind` fails. -/
def startFails : List Action := startActions 80 (List.replicate 6 ({} : Answer) ++ [{ ret := -1 }])

/-- `finish`, the server thread being at the head of its loop. -/
def finishActions : List Action :=
  [.call (.app 0) .finish, go (.app 0), .testStop, go (.app 0), go (.app 0), go (.app 0)]

/-- `finish` without a server thread. -/
def finishIdle : List Action := .call (.app 0) .finish :: List.replicate 4 (go (.app 0))

end TcpServer

namespace Receiver

/-- The flag is not set, and the receive thread is in its loop and serves the socket. -/
def Live (k : Kind) (s : State) : Prop := s.stop = false ∧ s.pc.task = .running ∧ Serving k s

/-- A thread is created only after the last one was joined. -/
def JoinedBefore (s : State) (a : Action) : Prop :=
  ∀ op ∈ nextOp s a, op = .thread → ¬ Outstanding s.os.log

/-- A method stores to `m_sockfd` only when no descriptor is in it. -/
def StoresFree (s : State) (a : Action) : Prop := stores s a = true → s.sockfd = INVALID_SOCKET

instance (s : State) (a : Action) : Decidable (JoinedBefore s a) :=
  inferInstanceAs (Decidable (∀ _ ∈ _, _))

instance (s : State) (a : Action) : Decidable (StoresFree s a) := inferInstanceAs (Decidable (_ → _))

theorem fresh_worker (options : SocketOpt) : (fresh options).worker.Ok ∧ Ended (fresh options) :=
  ⟨.init, by simp [Ended, fresh]⟩

theorem Step.worker_ok {k : Kind} {s s' : State} {a : Action} (h : Step k s a s')
    (hi : s.worker.Ok ∧ Ended s) : s'.worker.Ok ∧ Ended s' :=
  ⟨(h.worker hi.2).ok hi.1, h.ended hi.2⟩

/-- After a call that succeeded the object is live exactly if it was never stopped. -/
theorem live_iff {k : Kind} {s : State} (hw : s.worker.Ok) (hl : StartedLast s.os.log) :
    Live k s ↔ NeverStopped s.os.log := by
  constructor
  · exact fun h => hw.stop_eq_false_iff.mp h.1
  · intro h
    have hs : s.stop = false := hw.stop_eq_false_iff.mpr h
    exact ⟨hs, hw.running hl.mem hs, serving hs⟩

end Receiver

/-! ### Starting again -/

/-- **A start is live** exactly if the object was never stopped: in every state reached by any
calls of the methods and any answers of the system, if the last call that set the socket up
succeeded and since then `finish` was not called and no end of the connection was found, then
`m_stop` is not set and the thread is in its loop and does its work if and only if nothing of the
kind ever happened. -/
theorem live_iff_never_stopped (options : SocketOpt) (msg : List UInt8) (k : Receiver.Kind) :
    (∀ s, TcpServer.machine.Reach Machine.Any (TcpServer.fresh options msg) s →
      StartedLast s.os.log → (TcpServer.Live s ↔ NeverStopped s.os.log)) ∧
    ∀ s, (Receiver.machine k).Reach Machine.Any (Receiver.fresh options) s →
      StartedLast s.os.log → (Receiver.Live k s ↔ NeverStopped s.os.log) := by
  constructor
  · intro s hr hl
    have hi : s.worker.Ok ∧ TcpServer.Keyed s :=
      Machine.Reach.invariant (I := fun s => s.worker.Ok ∧ TcpServer.Keyed s)
        ⟨TcpServer.fresh_worker options msg, TcpServer.fresh_keyed options msg⟩
        (fun s a s' hi _ hs =>
          have hs := (TcpServer.Step.of_step hs).2
          ⟨hs.worker.ok hi.1, hs.keyed hi.2⟩) hr
    exact TcpServer.live_iff hi.1 hi.2 hl
  · intro s hr hl
    have hi : s.worker.Ok ∧ Receiver.Ended s :=
      Machine.Reach.invariant (I := fun s => s.worker.Ok ∧ Receiver.Ended s)
        (Receiver.fresh_worker options)
        (fun s a s' hi _ hs => (Receiver.Step.of_step hs).2.worker_ok hi) hr
    exact Receiver.live_iff hi.1 hl

/-- The three classes, just started. -/
theorem live_iff_never_stopped_fresh :
    (∃ s, TcpServer.machine.Reach Machine.Any (TcpServer.fresh {} []) s ∧ TcpServer.Live s) ∧
    (∃ s, (Receiver.machine .tcpClient).Reach Machine.Any (Receiver.fresh {}) s ∧
      Receiver.Live .tcpClient s) ∧
    ∃ s, (Receiver.machine .udpSocket).Reach Machine.Any (Receiver.fresh {}) s ∧
      Receiver.Live .udpSocket s := by
  refine ⟨?_, ?_, ?_⟩
  · obtain ⟨s, hr, hl, hn⟩ : ∃ s, TcpServer.machine.Reach Machine.Any (TcpServer.fresh {} []) s ∧
        StartedLast s.os.log ∧ NeverStopped s.os.log := Machine.exists_reach TcpServer.startOk (by decide)
    exact ⟨s, hr, ((live_iff_never_stopped {} [] .tcpClient).1 s hr hl).mpr hn⟩
  · obtain ⟨s, hr, hl, hn⟩ : ∃ s, (Receiver.machine .tcpClient).Reach Machine.Any (Receiver.fresh {}) s ∧
        StartedLast s.os.log ∧ NeverStopped s.os.log :=
      Machine.exists_reach (Receiver.connectOk 1) (by decide)
    exact ⟨s, hr, ((live_iff_never_stopped {} [] .tcpClient).2 s hr hl).mpr hn⟩
  · obtain ⟨s, hr, hl, hn⟩ : ∃ s, (Receiver.machine .udpSocket).Reach Machine.Any (Receiver.fresh {}) s ∧
        StartedLast s.os.log ∧ NeverStopped s.os.log :=
      Machine.exists_reach (Receiver.startUnicastOk 1) (by decide)
    exact ⟨s, hr, ((live_iff_never_stopped {} [] .udpSocket).2 s hr hl).mpr hn⟩

/-- A server that is started, shut down and started again: the flag is still set. -/
theorem not_always_live : ¬ ∀ options msg s,
    TcpServer.machine.Reach Machine.Any (TcpServer.fresh options msg) s → StartedLast s.os.log →
      TcpServer.Live s := by
  intro h
  obtain ⟨s, hr, hl, hs⟩ : ∃ s, TcpServer.machine.Reach Machine.Any (TcpServer.fresh {} []) s ∧
      StartedLast s.os.log ∧ s.stop = true :=
    Machine.exists_reach (TcpServer.startOk ++ TcpServer.finishActions ++ TcpServer.startOk) (by decide)
  have hlive := (h _ _ s hr hl).1
  rw [hs] at hlive
  cases hlive

/-! ### Descriptors -/

/-- **No descriptor is lost** exactly if no method stores to `m_sockfd` while a descriptor is in
it: for every run of a server that accepts no client, and every run of a TCP client or a UDP
socket in which the calls follow each other. -/
theorem no_leak_iff_stores_free (options : SocketOpt) (msg : List UInt8) (k : Receiver.Kind) :
    (∀ as s,
      TcpServer.machine.Guarded TcpServer.NoClients (TcpServer.fresh options msg) as →
      TcpServer.machine.run (TcpServer.fresh options msg) as = some s →
      (NoLeak s.sockfd s.os ↔
        TcpServer.machine.Guarded TcpServer.StoresFree (TcpServer.fresh options msg) as)) ∧
    ∀ as s,
      (Receiver.machine k).Guarded Receiver.InSequence (Receiver.fresh options) as →
      (Receiver.machine k).run (Receiver.fresh options) as = some s →
      (NoLeak s.sockfd s.os ↔
        (Receiver.machine k).Guarded Receiver.StoresFree (Receiver.fresh options) as) := by
  constructor
  · intro as s hg hr
    let J (s : TcpServer.State) : Prop := s.holder.Ok ∧ TcpServer.Empty s
    have h₀ : J (TcpServer.fresh options msg) := ⟨.init id, TcpServer.fresh_empty options msg⟩
    have hJ : ∀ {s a s'}, J s → TcpServer.NoClients s a → TcpServer.machine.step s a = some s' → J s' :=
      fun hj ha hs =>
        have hs := (TcpServer.Step.of_step hs).2
        ⟨(hs.holder ha hj.2).ok hj.1, hs.empty ha hj.2⟩
    refine (Machine.run_invariant hJ h₀ hg hr).1.noLeak_iff.trans ?_
    exact Machine.run_iff_guarded (P := fun s => s.holder.Tight) hJ
      (fun hj ha hs => ((TcpServer.Step.of_step hs).2.holder ha hj.2).tight_iff hj.1)
      (fun hj ha hs => ((TcpServer.Step.of_step hs).2.holder ha hj.2).leaks hj.1)
      h₀ (by simp [Holder.Tight, TcpServer.State.holder, TcpServer.fresh]) hg hr
  · intro as s hg hr
    let J (s : Receiver.State) : Prop := s.holder.Ok ∧ Receiver.Alone s.calls
    have h₀ : J (Receiver.fresh options) :=
      ⟨.init (by simp [Receiver.Closed, Receiver.fresh]),
        fun _ _ h => by simp [Receiver.fresh, Receiver.CallPc.manages] at h⟩
    have hJ : ∀ {s a s'}, J s → Receiver.InSequence s a → (Receiver.machine k).step s a = some s' → J s' :=
      fun hj ha hs =>
        have hs := (Receiver.Step.of_step hs).2
        ⟨(hs.holder hj.2).ok hj.1, hs.alone ha hj.2⟩
    refine (Machine.run_invariant hJ h₀ hg hr).1.noLeak_iff.trans ?_
    exact Machine.run_iff_guarded (P := fun s => s.holder.Tight) hJ
      (fun hj ha hs => ((Receiver.Step.of_step hs).2.holder hj.2).tight_iff hj.1)
      (fun hj ha hs => ((Receiver.Step.of_step hs).2.holder hj.2).leaks hj.1)
      h₀ (by simp [Holder.Tight, Receiver.State.holder, Receiver.fresh]) hg hr

/-- An attempt that fails, then `finish`, then another attempt. -/
theorem no_leak_iff_stores_free_finished :
    (∃ s, TcpServer.machine.run (TcpServer.fresh {} [])
        (TcpServer.startFails ++ TcpServer.finishIdle ++ TcpServer.startOk) = some s ∧
      NoLeak s.sockfd s.os) ∧
    ∃ s, (Receiver.machine .tcpClient).run (Receiver.fresh {})
        (Receiver.connectFails 1 ++ Receiver.finishActions ++ Receiver.connectOk 1) = some s ∧
      NoLeak s.sockfd s.os := by
  constructor
  · obtain ⟨s, hr, _⟩ : ∃ s, TcpServer.machine.run (TcpServer.fresh {} [])
        (TcpServer.startFails ++ TcpServer.finishIdle ++ TcpServer.startOk) = some s ∧ True :=
      Machine.exists_run (by decide)
    exact ⟨s, hr, ((no_leak_iff_stores_free {} [] .tcpClient).1 _ s (by decide) hr).mpr (by decide)⟩
  · obtain ⟨s, hr, _⟩ : ∃ s, (Receiver.machine .tcpClient).run (Receiver.fresh {})
        (Receiver.connectFails 1 ++ Receiver.finishActions ++ Receiver.connectOk 1) = some s ∧ True :=
      Machine.exists_run (by decide)
    have hseq := Receiver.inSequence_of_solo .tcpClient {}
      (Receiver.connectFails 1 ++ Receiver.finishActions ++ Receiver.connectOk 1) (by decide)
    exact ⟨s, hr, ((no_leak_iff_stores_free {} [] .tcpClient).2 _ s hseq hr).mpr (by decide)⟩

/-- A TCP client that fails to connect and tries again: the descriptor of the first attempt is
lost at the first step of the second. -/
theorem not_always_no_leak : ¬ ∀ k options as s,
    (Receiver.machine k).Guarded Receiver.InSequence (Receiver.fresh options) as →
      (Receiver.machine k).run (Receiver.fresh options) as = some s → NoLeak s.sockfd s.os := by
  intro h
  obtain ⟨s, hr, ho, hfd⟩ : ∃ s, (Receiver.machine .tcpClient).run (Receiver.fresh {})
      (Receiver.connectFails 1 ++ Receiver.connectOk 2) = some s ∧
        s.os.owner 1 = some 0 ∧ s.sockfd = 2 := Machine.exists_run (by decide)
  have hseq := Receiver.inSequence_of_solo .tcpClient {}
    (Receiver.connectFails 1 ++ Receiver.connectOk 2) (by decide)
  have hlost := (h _ _ _ s hseq hr).1 1 0 ho
  rw [hfd] at hlost
  cases hlost

/-! ### Threads -/

/-- **The process is not aborted** exactly if each thread created is joined before the next is:
for every run of every class. -/
theorem never_aborted_iff_joined_before (options : SocketOpt) (msg : List UInt8) (k : Receiver.Kind) :
    (∀ as s, TcpServer.machine.run (TcpServer.fresh options msg) as = some s →
      (s.aborted = false ↔
        TcpServer.machine.Guarded TcpServer.JoinedBefore (TcpServer.fresh options msg) as)) ∧
    ∀ as s, (Receiver.machine k).run (Receiver.fresh options) as = some s →
      (s.aborted = false ↔
        (Receiver.machine k).Guarded Receiver.JoinedBefore (Receiver.fresh options) as) := by
  constructor
  · intro as s hr
    exact Machine.run_iff_guarded (B := Machine.Any) (J := fun s : TcpServer.State => s.worker.Ok)
      (P := fun s => s.aborted = false)
      (fun hj _ hs => (TcpServer.Step.of_step hs).2.worker.ok hj)
      (fun hj _ hs hab => ((TcpServer.Step.of_step hs).2.aborted_iff hab).trans
        (forall₃_congr fun _ _ _ => hj.thread_eq_false_iff))
      (fun _ _ hs hab => absurd (TcpServer.Step.of_step hs).1 hab)
      (TcpServer.fresh_worker options msg) rfl (.of_forall (fun _ _ => trivial) _ _) hr
  · intro as s hr
    exact Machine.run_iff_guarded (B := Machine.Any)
      (J := fun s : Receiver.State => s.worker.Ok ∧ Receiver.Ended s) (P := fun s => s.aborted = false)
      (fun hj _ hs => (Receiver.Step.of_step hs).2.worker_ok hj)
      (fun hj _ hs hab => ((Receiver.Step.of_step hs).2.aborted_iff hab).trans
        (forall₃_congr fun _ _ _ => hj.1.thread_eq_false_iff))
      (fun _ _ hs hab => absurd (Receiver.Step.of_step hs).1 hab)
      (Receiver.fresh_worker options) rfl (.of_forall (fun _ _ => trivial) _ _) hr

/-- A server that is shut down and started again, and a TCP client that is shut down after the
server closed the connection and connects again. -/
theorem never_aborted_iff_joined_before_restarted :
    (∃ s, TcpServer.machine.run (TcpServer.fresh {} [])
        (TcpServer.startOk ++ TcpServer.finishActions ++ TcpServer.startOk) = some s ∧
      s.aborted = false) ∧
    ∃ s, (Receiver.machine .tcpClient).run (Receiver.fresh {})
        (Receiver.connectOk 1 ++ Receiver.endActions ++ Receiver.finishActions ++ Receiver.connectOk 1) =
          some s ∧
      s.aborted = false := by
  constructor
  · obtain ⟨s, hr, _⟩ : ∃ s, TcpServer.machine.run (TcpServer.fresh {} [])
        (TcpServer.startOk ++ TcpServer.finishActions ++ TcpServer.startOk) = some s ∧ True :=
      Machine.exists_run (by decide)
    exact ⟨s, hr, ((never_aborted_iff_joined_before {} [] .tcpClient).1 _ s hr).mpr (by decide)⟩
  · obtain ⟨s, hr, _⟩ : ∃ s, (Receiver.machine .tcpClient).run (Receiver.fresh {})
        (Receiver.connectOk 1 ++ Receiver.endActions ++ Receiver.finishActions ++
          Receiver.connectOk 1) = some s ∧ True := Machine.exists_run (by decide)
    exact ⟨s, hr, ((never_aborted_iff_joined_before {} [] .tcpClient).2 _ s hr).mpr (by decide)⟩

/-- A TCP client whose connection is closed by the server, and which connects again. -/
theorem not_never_aborted : ¬ ∀ k options as s,
    (Receiver.machine k).run (Receiver.fresh options) as = some s → s.aborted = false := by
  intro h
  obtain ⟨s, hr, hs⟩ : ∃ s, (Receiver.machine .tcpClient).run (Receiver.fresh {})
      (Receiver.connectOk 1 ++ Receiver.endActions ++ Receiver.connectOk 2) = some s ∧
        s.aborted = true := Machine.exists_run (by decide)
  have hab := h _ _ _ s hr
  rw [hs] at hab
  cases hab

end SocketsCpp
