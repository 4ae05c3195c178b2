import SocketsCpp.TcpServer.Ownership

/-!
# A server just started

What a fresh server is like after one successful `start`: the descriptor set holds
the listening socket, which is the only descriptor open, there are no clients, and the
server thread is at the head of its loop (`Initial`, `Started.initial`). The proof goes
along the instructions of `start`, with what holds while some of them are left
(`Setting`).
-/

namespace SocketsCpp.TcpServer

open SocketsCpp.Library

/-- The server right after a successful `start`. -/
structure Initial (s : State) : Prop where
  /-- The server thread is at the head of its loop. -/
  pc : s.pc = .loopHead
  /-- There are no clients. -/
  clients : s.clients = ∅
  /-- The mutex is free. -/
  mutex : s.mutex = none
  /-- No call is being made. -/
  calls : ∀ w, s.calls w = .idle
  /-- `m_stop` is not set. -/
  stop : s.stop = false
  /-- The thread is joinable. -/
  thread : s.thread = true
  /-- There is a listening socket. -/
  sockfd : s.sockfd ≠ INVALID_SOCKET
  /-- It is open, and nothing else is. -/
  owner : s.os.owner = Function.update (fun _ => none) s.sockfd (some 0)
  /-- The descriptor set holds it, and nothing else. -/
  fds : s.fds = FD_SET s.sockfd FD_ZERO
  /-- The operating system. -/
  sound : s.os.Sound
  /-- Only the calls that set the socket up were made. -/
  log : ∀ e ∈ s.os.log, e.setup = true ∨ e = .start .ok

/-- The server in the middle of the first `start`, with the instructions `rest` left. -/
structure Setting (port : UInt16) (s : State) (rest : List Instr) : Prop where
  /-- These are the last of the instructions. -/
  suffix : rest <:+ startScript port
  /-- The call of `start` is being made. -/
  start : s.calls (.app 0) = .start rest
  /-- No other call is. -/
  idle : ∀ w, w ≠ .app 0 → s.calls w = .idle
  /-- There are no clients. -/
  clients : s.clients = ∅
  /-- The mutex is free. -/
  mutex : s.mutex = none
  /-- `m_stop` is not set. -/
  stop : s.stop = false
  /-- There is no thread. -/
  thread : s.thread = false
  /-- Before `Socket` nothing is open. -/
  before : .socket ∈ rest.map Instr.op → s.os = { log := s.os.log }
  /-- After `Socket` the listening socket is, and nothing else. -/
  after : .socket ∉ rest.map Instr.op →
    s.sockfd ≠ INVALID_SOCKET ∧ s.os.owner = Function.update (fun _ => none) s.sockfd (some 0)
  /-- The descriptor set, once it is set up. -/
  fds : .watch ∉ rest.map Instr.op → s.fds = FD_SET s.sockfd FD_ZERO
  /-- The operating system. -/
  sound : s.os.Sound
  /-- Only the calls that set the socket up were made. -/
  log : ∀ e ∈ s.os.log, e.setup = true

/-- The operations of `start` are different. -/
theorem startScript_nodup (port : UInt16) : ((startScript port).map Instr.op).Nodup := by
  simp [startScript, initializeInstr]

/-- The only operation of `start` that stores to `m_sockfd` is `Socket`, and it is tested. -/
theorem storesFd_of_mem_startScript {port : UInt16} {i : Instr} (h : i ∈ startScript port)
    (hs : i.op.storesFd = true) : i.op = .socket ∧ i.fails = isInvalid := by
  simp only [startScript, List.mem_cons, List.not_mem_nil, or_false] at h
  rcases h with rfl | rfl | rfl | rfl | rfl | rfl | rfl | rfl | rfl | rfl <;>
    first | exact ⟨rfl, rfl⟩ | cases hs

/-- `Socket` comes before the descriptor set is set up. -/
theorem watch_mem_of_socket (port : UInt16) :
    Tails (fun i rest => i.op = .socket → .watch ∈ rest.map Instr.op) (startScript port) := by
  simp [Tails, startScript, initializeInstr]

/-- The thread is created last. -/
theorem thread_last (port : UInt16) : Tails (fun i rest => i.op = .thread → rest = []) (startScript port) := by
  simp [Tails, startScript, initializeInstr]

variable {port : UInt16} {s s' : State} {i : Instr} {rest : List Instr} {a : Answer}

/-- The operation at hand is not among those that are left. -/
theorem Setting.notMem (h : Setting port s (i :: rest)) : i.op ∉ rest.map Instr.op := by
  have hnodup : ((i :: rest).map Instr.op).Nodup :=
    (startScript_nodup port).sublist (h.suffix.map Instr.op).sublist
  exact (List.nodup_cons.mp hnodup).1

/-- An instruction that succeeds. -/
theorem Setting.next (h : Setting port s (i :: rest)) (hw : i.op ≠ .watch)
    (ha : i.op.Admissible a s.os) (hf : i.fails a = false) :
    Setting port ({ s with toEndpoint := (i.op.exec a s.toEndpoint s.os).1
                           os := (i.op.exec a s.toEndpoint s.os).2 }.goto (.app 0) (.start rest)) rest where
  suffix := (List.suffix_cons i rest).trans h.suffix
  start := by simp
  idle w hne := by simpa [hne] using h.idle w hne
  clients := h.clients
  mutex := h.mutex
  stop := (Op.exec_stop _ _ _ _).trans h.stop
  thread := (Op.exec_thread _ _ _ _).trans h.thread
  before hm := by
    have hne : i.op ≠ .socket := fun he => h.notMem (he ▸ hm)
    have hos := h.before (List.mem_cons_of_mem _ hm)
    show (i.op.exec a s.toEndpoint s.os).2 = { log := (i.op.exec a s.toEndpoint s.os).2.log }
    have ho := Op.exec_owner hne a s.toEndpoint s.os
    have hn := Op.exec_next hne a s.toEndpoint s.os
    rw [hos] at ho hn ⊢
    cases hx : (i.op.exec a s.toEndpoint { log := s.os.log }).2
    rw [hx] at ho hn
    cases ho
    cases hn
    rfl
  after hm := by
    have hmem : i ∈ startScript port := h.suffix.subset List.mem_cons_self
    by_cases hs : i.op = .socket
    · obtain ⟨-, hinv⟩ := storesFd_of_mem_startScript hmem (by rw [hs]; rfl)
      have hret : a.ret ≠ INVALID_SOCKET := by simpa [hinv, isInvalid] using hf
      have hos := h.before (by simp [hs])
      simp only [State.goto, hs, Op.exec, Os.socket, if_neg hret]
      refine ⟨hret, ?_⟩
      rw [hos]
      rfl
    · have hstore : i.op.storesFd = false := by
        by_contra hst
        exact hs (storesFd_of_mem_startScript hmem (by simpa using hst)).1
      have hafter := h.after (by simpa [Ne.symm hs] using hm)
      refine ⟨?_, ?_⟩
      · exact (Op.exec_sockfd hstore a s.toEndpoint s.os).symm ▸ hafter.1
      · show (i.op.exec a s.toEndpoint s.os).2.owner = _
        rw [Op.exec_owner hs, hafter.2]
        simp [Op.exec_sockfd hstore]
  fds hm := by
    have hstore : i.op.storesFd = false := by
      by_contra hst
      have hs := (storesFd_of_mem_startScript (h.suffix.subset List.mem_cons_self) (by simpa using hst)).1
      exact hm ((watch_mem_of_socket port).of_suffix h.suffix hs)
    have hfds := h.fds (by simpa [Ne.symm hw] using hm)
    show s.fds = FD_SET (i.op.exec a s.toEndpoint s.os).1.sockfd FD_ZERO
    rw [Op.exec_sockfd hstore, hfds]
  sound := Op.exec_sound _ h.sound ha
  log e he := ((Op.exec_log _ _ _ _).mem he).elim (h.log e) id

/-- The descriptor set is set up. -/
theorem Setting.watch (h : Setting port s (i :: rest)) (hw : i.op = .watch) :
    Setting port ({ s with fds := FD_SET s.sockfd FD_ZERO, os := s.os.record (.fdSet s.sockfd) }.goto
      (.app 0) (.start rest)) rest where
  suffix := (List.suffix_cons i rest).trans h.suffix
  start := by simp
  idle w hne := by simpa [hne] using h.idle w hne
  clients := h.clients
  mutex := h.mutex
  stop := h.stop
  thread := h.thread
  before hm := by
    show s.os.record _ = { log := (s.os.record _).log }
    rw [h.before (List.mem_cons_of_mem _ hm)]
    rfl
  after hm := h.after (by simpa [hw] using hm)
  fds _ := rfl
  sound := h.sound.record rfl
  log := by
    intro e he
    rcases List.mem_append.mp he with he | he
    · exact h.log e he
    · rw [List.mem_singleton.mp he]; rfl

/-- The thread is created. -/
theorem Setting.initial (h : Setting port s (i :: rest)) (ht : i.op = .thread) :
    Initial ({ s with thread := true, pc := .loopHead }.ret (.app 0) (.start .ok)) where
  pc := rfl
  clients := h.clients
  mutex := h.mutex
  calls w := by
    by_cases hw : w = .app 0
    · subst hw; simp
    · simpa [hw] using h.idle w hw
  stop := h.stop
  thread := rfl
  sockfd := (h.after (by simp [ht, (thread_last port).of_suffix h.suffix ht])).1
  owner := (h.after (by simp [ht, (thread_last port).of_suffix h.suffix ht])).2
  fds := h.fds (by simp [ht, (thread_last port).of_suffix h.suffix ht])
  sound := h.sound.record rfl
  log := by
    intro e he
    rcases List.mem_append.mp he with he | he
    · exact .inl (h.log e he)
    · exact .inr (List.mem_singleton.mp he)

/-- A step of `start`. -/
theorem Setting.step {order : List ClientHandle} (h : Setting port s (i :: rest))
    (hs : machine.step s (.step (.app 0) a order) = some s') :
    Setting port s' rest ∨
      (s'.calls (.app 0) = .idle ∧ (Event.start .ok ∈ s'.os.log → Initial s')) := by
  obtain ⟨-, hs⟩ := Step.of_step hs
  have hc := h.start
  cases hs with
  | startNext hc' hw _ ha hf => rw [hc] at hc'; cases hc'; exact .inl (h.next hw ha hf)
  | startWatch hc' hw => rw [hc] at hc'; cases hc'; exact .inl (h.watch hw)
  | startThread hc' ht _ => rw [hc] at hc'; cases hc'; exact .inr ⟨by simp, fun _ => h.initial ht⟩
  | startFails hc' _ _ ha hf =>
    rw [hc] at hc'
    cases hc'
    refine .inr ⟨by simp, fun hm => ?_⟩
    rcases List.mem_append.mp hm with hm | hm
    · exact absurd (((Op.exec_log _ _ _ _).mem hm).elim (h.log _) id) (by simp [Event.setup])
    · simp [SocketRet.fail, SocketRet.ok] at hm
  | startAborts _ _ ht => rw [h.thread] at ht; cases ht
  | _ => simp_all

/-- A run of `start` from the middle to its end. -/
theorem Setting.run : ∀ {answers : List Answer} {rest : List Instr} {s s' : State},
    Setting port s rest → machine.run s (answers.map fun a => .step (.app 0) a []) = some s' →
    Event.start .ok ∈ s'.os.log → Initial s'
  | [], rest, s, s', h, hr, hm => by
    cases hr
    exact absurd (h.log _ hm) (by simp [Event.setup])
  | a :: answers, rest, s, s', h, hr, hm => by
    obtain ⟨s₁, hs, hr⟩ := Option.bind_eq_some_iff.mp hr
    cases rest with
    | nil => exact absurd hs (by simp [machine, TcpServer.step, callStep, h.start, startStep])
    | cons i rest =>
      rcases h.step hs with h₁ | ⟨hidle, hi⟩
      · exact h₁.run hr hm
      · cases answers with
        | nil => cases hr; exact hi hm
        | cons a' answers =>
          obtain ⟨s₂, hs, -⟩ := Option.bind_eq_some_iff.mp hr
          exact absurd hs (by simp [machine, TcpServer.step, callStep, hidle])

/-- **A server just started** has its listening socket open and watched, and nothing else. -/
theorem Started.initial (h : Started s) : Initial s := by
  obtain ⟨options, msg, port, answers, hr, hm⟩ := h
  obtain ⟨s₁, hs, hr⟩ := Option.bind_eq_some_iff.mp hr
  have hs₁ : s₁ = (fresh options msg).goto (.app 0) (.start (startScript port)) := by
    simpa [machine, step, mayCall, fresh, CallPc.isIdle, Call.begin] using hs.symm
  subst hs₁
  have h₀ : Setting port ((fresh options msg).goto (.app 0) (.start (startScript port)))
      (startScript port) :=
    ⟨List.suffix_refl _, by simp, fun w hw => by simp [hw, fresh], rfl, rfl, rfl, rfl, fun _ => rfl,
      by simp [startScript], by simp [startScript], .init, by simp [fresh]⟩
  exact h₀.run hr hm

/-- The process is aborted in the middle of a call of `start` only. -/
theorem Step.calls_of_aborted {s' : State} {a : Action} (h : Step s a s') (hab : s.aborted = false)
    (hab' : s'.aborted = true) : ∃ w is, s'.calls w = .start is := by
  cases h with
  | startAborts hc => exact ⟨_, _, hc⟩
  | _ => exact absurd (hab.symm.trans hab') (by decide)

/-- A server just started was not aborted. -/
theorem Started.not_aborted (h : Started s) : s.aborted = false := by
  have hidle := h.initial.calls
  obtain ⟨options, msg, port, answers, hr, -⟩ := h
  have hcall : s.aborted = true → ∃ w is, s.calls w = .start is :=
    Machine.run_invariant (B := Machine.Any) (J := fun s => s.aborted = true → ∃ w is, s.calls w = .start is)
      (fun _ _ hs =>
        have hstep := Step.of_step hs
        hstep.2.calls_of_aborted hstep.1) (by simp [fresh])
      (Machine.Guarded.of_forall (fun _ _ => trivial) _ _) hr
  by_contra hab
  obtain ⟨w, is, hc⟩ := hcall (by simpa using hab)
  rw [hidle w] at hc
  cases hc

theorem Initial.orderly (h : Initial s) : Orderly s where
  noStart w is := by simp [h.calls w]
  placed := ⟨fun hw => absurd (h.calls _) hw, fun hw => absurd (h.calls _) hw⟩
  discipline w := by simp [h.calls w, h.mutex]
  shutdown := ⟨fun w hw => by simp [h.calls w] at hw, fun w hw => by simp [h.calls w] at hw,
    fun ht => by simp [h.thread] at ht, fun w rest hm => by simp [h.mutex] at hm⟩

theorem Initial.owned (h : Initial s) : Owned s where
  os := h.sound
  reg := by
    have he : ∀ {h' x}, s.registry.entry h' ≠ some x := by
      simp [State.registry, h.clients, Clients.entry_empty]
    have hh : s.registry.hand = none := by simp [State.registry, h.pc, Pc.hand]
    have hown : ∀ d, s.registry.owner d = if d = s.sockfd then some 0 else none := by
      intro d
      simp [State.registry, h.owner, Function.update_apply]
    refine ⟨fun hx => absurd hx he, fun hx => absurd hx he, fun hx => absurd hx he,
      fun hx => absurd hx he, fun hx => absurd hx he, fun hx => absurd hx he, fun {d c} hx => ?_,
      fun hx => by simp [hh] at hx, fun hx => by simp [hh] at hx, fun hx => by simp [hh] at hx,
      fun hx => by simp [hh] at hx, fun _ => ⟨0, by simp [hown]; rfl⟩, ?_⟩
    · by_cases hd : d = s.sockfd
      · exact .inl hd
      · simp [hown, hd] at hx
    · simp [Registry.Closable, State.registry, h.mutex, closingOf]
  clr w h' d c hm := by simp [h.mutex] at hm
  listening _ := h.sockfd

/-- In runs in which `start` is not called, and `finish` is not called on the server thread,
everybody is in place and the descriptors are in order. -/
theorem Initial.reach {s₀ s : State} (h₀ : Initial s₀) {ok : State → Action → Prop}
    (hok : ∀ s a, ok s a → a.regular = true) (h : machine.Reach ok s₀ s) : Orderly s ∧ Owned s :=
  Machine.Reach.invariant (I := fun s => Orderly s ∧ Owned s) ⟨h₀.orderly, h₀.owned⟩
    (fun s a _ hi ha hs =>
      have hs := (Step.of_step hs).2
      ⟨hs.orderly (hok s a ha) hi.1, hs.owned hi.1 hi.2⟩) h

/-- Nor is it in runs in which `start` is not called. -/
theorem Started.reach_not_aborted {s₀ s : State} (h₀ : Started s₀) {ok : State → Action → Prop}
    (hok : ∀ s a, ok s a → a.regular = true) (h : machine.Reach ok s₀ s) : s.aborted = false :=
  Machine.Reach.invariant_of (I := fun s => s.aborted = false) (fun _ hr => hr) h₀.not_aborted
    (fun s a s' hr _ ha hs => by
      have hstep := Step.of_step hs
      have hns := (h₀.initial.reach hok (.step hr ha hs)).1.noStart
      by_contra hab
      obtain ⟨w, is, hc⟩ := hstep.2.calls_of_aborted hstep.1 (by simpa using hab)
      exact hns w is hc) h

/-! ### Writing runs down -/

/-- A server whose listening socket has number `0`. -/
def started : State :=
  (machine.run (fresh {} []) (startActions 80 (List.replicate 10 {}))).get (by decide)

theorem started_started : Started started :=
  ⟨{}, [], 80, List.replicate 10 {}, (Option.some_get _).symm, by decide⟩

/-- The server thread goes from the head of its loop through `Select`. -/
def selectActions (ready : List SOCKET) : List Action :=
  [.testStop, .copyFds, .findMaxFd, .select, .selectReturns 1 fun d => d ∈ ready]

/-- The server thread accepts a connection, and the callback returns. -/
def acceptActions (d : SOCKET) : List Action :=
  [.forStep, .lookup, .accept (some (d, {})), .emplace, .fdSet, .publish, .callbackReturns]

/-- The call that `w` makes takes its next step. -/
def go (w : Caller) : Action := .step w {} []

/-- `w` calls `deleteClient(h)`, and nobody interferes. -/
def deleteActions (w : Caller) (h : ClientHandle) : List Action :=
  [.call w (.deleteClient h), go w, go w, go w, go w]

/-- Two rounds in which clients `1` and `2` are accepted. -/
def twoClients : List Action :=
  selectActions [0] ++ acceptActions 1 ++ [.forStep] ++ selectActions [0] ++ acceptActions 2 ++
  [.forStep, .forStep]

end SocketsCpp.TcpServer
