import SocketsCpp.TcpServer.Ownership
import SocketsCpp.Worker
import SocketsCpp.Holder

/-!
# The life of a server

Runs of the server from its construction on, in which `start` and `finish` may be called any
number of times. Each step of the server is a move of its thread (`Step.worker`) and, as long
as no client is accepted, a move of its descriptor (`Step.holder`).

* `Serving` — the server thread, at the head of its loop, receives and publishes the data of a
  client that is ready.
-/

namespace SocketsCpp.TcpServer

open SocketsCpp.Library

/-- What `sendMsg` logs. -/
theorem Client.sendMsg_notes {P : Event → Bool} (h : ∀ d c msg r, P (.send d c msg r) = true)
    (cl : Client) (os : Os) (msg : List UInt8) (a : Answer) : os.Notes P (cl.sendMsg os msg a).1 := by
  rcases cl.sendMsg_os os msg a with he | he <;> rw [he]
  · exact .refl
  · exact .one (h _ _ _ _)

/-! ### The thread -/

/-- Whether the server thread is running. -/
def Pc.task : Pc → Task
  | .none => .none
  | .returned => .returned
  | _ => .running

/-- The server, as far as its thread is concerned. -/
def State.worker (s : State) : Worker := ⟨s.stop, s.thread, s.pc.task, s.os.log⟩

/-- **A step of the server is a move of its thread.** -/
theorem Step.worker {s s' : State} {a : Action} (h : Step s a s') : Worker.Move s.worker s'.worker := by
  have hsetup := fun log log' (hl : Grows Event.setup log log') =>
    hl.mono fun _ => Event.inert_of_setup
  have hsend := Client.sendMsg_grows (p := Event.inert) fun _ _ _ _ => rfl
  cases h with
  | taskReturns _ hs => exact .returns hs rfl rfl rfl rfl
  | startNext =>
    exact .goesOn (Op.exec_stop _ _ _ _) (Op.exec_thread _ _ _ _) rfl
      (hsetup _ _ (Op.exec_log _ _ _ _))
  | startFails =>
    exact .goesOn (Op.exec_stop _ _ _ _) (Op.exec_thread _ _ _ _) rfl
      ((hsetup _ _ (Op.exec_log _ _ _ _)).append (Event.inert_fail _))
  | startThread _ _ ht => exact .creates ht rfl rfl rfl rfl
  | bcastSend => exact .goesOn rfl rfl rfl (hsend _ _ _ _)
  | bcastFails => exact .goesOn rfl rfl rfl (.append (hsend _ _ _ _) rfl)
  | send => exact .goesOn rfl rfl rfl (.append (hsend _ _ _ _) rfl)
  | finish => exact .stops (e := .finishBegin _) rfl rfl rfl rfl rfl
  | finishJoin _ _ hp => exact .joins (by simp [State.worker, hp, Pc.task]) rfl rfl rfl rfl
  | finishEnd => exact .goesOn rfl rfl rfl (.append (Os.closeValid_grows fun _ _ => rfl) rfl)
  | publish hp =>
    refine .goesOn rfl rfl (by simp [State.worker, hp, Pc.task]) (.one ?_)
    cases ‹Callback› <;> rfl
  | _ => exact .goesOn rfl rfl (by simp [State.worker, Pc.task, *]) (by first | exact .refl | exact .one rfl)

/-! ### What the thread does -/

/-- The clients are stored under their descriptors. -/
structure Keyed (s : State) : Prop where
  /-- A client in the table. -/
  entry : ∀ h cl, s.clients.lookup h = some cl → cl.sockfd = h ∧ 0 ≤ h
  /-- A client on its way into the table. -/
  emplace : ∀ r d c, s.pc = .emplace r d c → 0 ≤ d

theorem Step.keyed {s s' : State} {a : Action} (h : Step s a s') (hi : Keyed s) : Keyed s' := by
  cases h with
  | accept _ hd =>
    refine ⟨hi.entry, fun r d c he => ?_⟩
    cases he
    exact hd.1
  | @emplace r d c hp =>
    refine ⟨fun h cl hl => ?_, by simp⟩
    by_cases hd : d ∈ s.clients
    · exact hi.entry h cl (by simpa [Clients.emplace, hd] using hl)
    · rw [Clients.lookup_emplace hd] at hl
      split at hl
      · next he =>
        cases hl
        exact ⟨he.symm, he ▸ hi.emplace _ _ _ hp⟩
      · exact hi.entry h cl hl
  | disconnectEof | disconnectError =>
    refine ⟨fun h cl hl => ?_, by simp⟩
    obtain ⟨cl', hl', rfl⟩ := Option.map_eq_some_iff.mp ((Clients.lookup_disconnect _ _ _ _).symm.trans hl)
    have he := hi.entry h cl' hl'
    split <;> exact he
  | deleteErase => exact ⟨fun h cl hl => hi.entry h cl (lookup_erase_eq.mp hl).2, hi.emplace⟩
  | finishEnd => exact ⟨by simp, hi.emplace⟩
  | _ => exact ⟨hi.entry, by first | exact hi.emplace | simp⟩

/-- The server thread goes through its loop, `Select` reporting client `h` ready, and `Recv`
returns `bytes`. -/
def serveActions (h : ClientHandle) (bytes : List UInt8) : List Action :=
  [.testStop, .copyFds, .findMaxFd, .select, .selectReturns 1 fun d => d = h] ++
  (List.replicate (h.toNat + 1) .forStep ++ [.lookup, .recv (some bytes), .publish])

/-- The server thread, at the head of its loop, receives and publishes the data of a client that
is watched. -/
def Serving (s : State) : Prop :=
  s.aborted = false → s.pc = .loopHead → s.mutex = none →
    ∀ h bytes, h ∈ s.clients → s.fds h = true → bytes ≠ [] → bytes.length ≤ MAX_PACKET_SIZE →
      ∃ s', machine.run s (serveActions h bytes) = some s' ∧
        s'.os.log.getLast? = some (.onReceiveClientData h bytes)

/-- The loop over the descriptors gets to the first that is ready. -/
theorem run_forStep (h : ℤ) : ∀ (n : ℕ) {s : State} {r : Round}, s.aborted = false → s.pc = .forHead r →
    r.fd + n = h → h < r.maxfds → r.readSet h = true → (∀ d < h, r.readSet d = false) →
    ∃ os, machine.run s (List.replicate (n + 1) .forStep) =
      some { s with pc := .lookup { r with fd := h }, os := os }
  | 0, s, r, hab, hp, hn, hlt, hset, _ => by
    obtain rfl : r.fd = h := by simpa using hn
    exact ⟨_, by simp [Machine.run, machine, step, serverStep, hab, hp, hlt, hset]; rfl⟩
  | n + 1, s, r, hab, hp, hn, hlt, hset, hskip => by
    have hfd : r.fd < h := by omega
    have hstep : machine.step s .forStep =
        some { s with pc := .forHead r.next, os := s.os.record (.fdIsset r.fd) } := by
      have hmax : r.fd < r.maxfds := Int.lt_trans hfd hlt
      simp [machine, step, serverStep, hab, hp, hmax, hskip r.fd hfd]
    obtain ⟨os, hrun⟩ := run_forStep h n (r := r.next)
      (s := { s with pc := .forHead r.next, os := s.os.record (.fdIsset r.fd) }) hab rfl
      (by simp only [Round.next]; omega) hlt hset hskip
    exact ⟨os, by rw [List.replicate_succ, Machine.run, hstep]; exact hrun⟩

/-- **The server thread serves its clients** as long as the flag is not set. -/
theorem Keyed.serving {s : State} (hk : Keyed s) (hs : s.stop = false) : Serving s := by
  intro hab hp hm h bytes hmem hset hne hlen
  obtain ⟨cl, hl⟩ := lookup_eq_some_of_mem hmem
  obtain ⟨hfd, h0⟩ := hk.entry h cl hl
  have hmax : h < findMaxFd s.sockfd s.clients := hfd ▸ lt_findMaxFd hl
  let r : Round := ⟨fun d => s.fds d && decide (d = h), findMaxFd s.sockfd s.clients, 0, s.clients.conn⟩
  let s₁ : State := { s with pc := .forHead r, os := s.os.record (.select r.maxfds) }
  have hselect : machine.run s [.testStop, .copyFds, .findMaxFd, .select, .selectReturns 1 fun d => d = h] =
      some s₁ := by
    simp [Machine.run, machine, step, serverStep, hab, hp, hs, s₁, r]
  obtain ⟨os, hloop⟩ := run_forStep h h.toNat (s := s₁) (r := r) hab rfl (by simp [r, Int.toNat_of_nonneg h0]) hmax
    (by simp [r, hset]) (fun d hd => by simp [r, Int.ne_of_lt hd])
  have hbytes : ¬ numOfBytesReceived (some bytes) < 1 := by
    have hpos := List.length_pos_iff.mpr hne
    simp only [numOfBytesReceived]
    omega
  have hbuf : ¬ (MAX_PACKET_SIZE : ℤ) < numOfBytesReceived (some bytes) := by
    simpa [numOfBytesReceived] using hlen
  rw [serveActions, Machine.run_append hselect, Machine.run_append hloop]
  refine ⟨_, by simp [Machine.run, machine, step, serverStep, hab, hm, hl, hbytes, hbuf, s₁]; rfl, ?_⟩
  simp [Callback.event, recvInto, numOfBytesReceived]

/-- The operation that an action of a method that sets the socket up executes. -/
def nextOp (s : State) : Action → Option Op
  | .step w _ _ => match s.calls w with
    | .start (i :: _) => some i.op
    | _ => none
  | _ => none

theorem nextOp_eq {s : State} {w : Caller} {i : Instr} {rest : List Instr} {a : Answer}
    {order : List ClientHandle} (h : s.calls w = .start (i :: rest)) :
    nextOp s (.step w a order) = some i.op := by
  simp [nextOp, h]

/-- The process is aborted exactly when a thread is created over one that is joinable. -/
theorem Step.aborted_iff {s s' : State} {a : Action} (h : Step s a s') (hab : s.aborted = false) :
    s'.aborted = false ↔ ∀ op ∈ nextOp s a, op = .thread → s.thread = false := by
  cases h with
  | startThread hc _ ht => exact iff_of_true hab (by simp [nextOp_eq hc, ht])
  | startAborts hc hi ht => exact iff_of_false (by simp) (by simp [nextOp_eq hc, hi, ht])
  | startNext hc _ hi => exact iff_of_true hab (by simp [nextOp_eq hc, hi])
  | startFails hc _ hi => exact iff_of_true hab (by simp [nextOp_eq hc, hi])
  | startWatch hc hi => exact iff_of_true hab (by simp [nextOp_eq hc, hi])
  | _ => exact iff_of_true hab (by simp [nextOp, *])

/-! ### The descriptor -/

/-- A connection is accepted. -/
def accepts : Action → Bool
  | .accept (some _) => true
  | _ => false

/-- There are no clients, and none is on its way in or out. -/
structure Empty (s : State) : Prop where
  /-- There are no clients. -/
  clients : s.clients = ∅
  /-- No connection was accepted. -/
  emplace : ∀ r d c, s.pc ≠ .emplace r d c
  /-- No client is being deleted. -/
  closing : ∀ w h d c, s.mutex ≠ some (w, .deleteClose h d c)

theorem Step.empty {s s' : State} {a : Action} (h : Step s a s') (ha : accepts a = false)
    (hi : Empty s) : Empty s' := by
  have hnone : ∀ h cl, s.clients.lookup h ≠ some cl := by simp [hi.clients]
  cases h with
  | accept => cases ha
  | emplace hp => exact absurd hp (hi.emplace _ _ _)
  | lookupClient _ _ hl | deleteFound _ _ hl | bcastSend _ _ hl | bcastFails _ _ hl | sendFound _ _ hl
  | infoFound _ _ hl | finishClose _ _ hl => exact absurd hl (hnone _ _)
  | deleteClose _ hm => exact absurd hm (hi.closing _ _ _ _)
  | disconnectEof | disconnectError =>
    refine ⟨?_, by simp, hi.closing⟩
    rw [hi.clients]
    rfl
  | deleteErase =>
    refine ⟨?_, hi.emplace, by simp⟩
    rw [hi.clients]
    rfl
  | finishEnd => exact ⟨rfl, hi.emplace, by simp⟩
  | deleteClr | bcastLock | bcastEnd | finishLock => exact ⟨hi.clients, hi.emplace, by simp⟩
  | _ => exact ⟨hi.clients, by first | exact hi.emplace | simp, hi.closing⟩

/-- The server, as far as its descriptor is concerned. -/
def State.holder (s : State) : Holder := ⟨s.sockfd, s.os, False⟩

/-- An action stores to `m_sockfd` to set the socket up. -/
def stores (s : State) (a : Action) : Bool := (nextOp s a).any Op.storesFd

theorem stores_of_calls {s : State} {w : Caller} {a : Answer} {order : List ClientHandle}
    (h : ∀ i rest, s.calls w ≠ .start (i :: rest)) : stores s (.step w a order) = false := by
  simp [stores, nextOp]

/-- **Without clients, a step of the server is a move of its descriptor.** -/
theorem Step.holder {s s' : State} {a : Action} (h : Step s a s') (ha : accepts a = false)
    (hi : Empty s) : Holder.Move s.holder s'.holder (stores s a) := by
  have hnone : ∀ h cl, s.clients.lookup h ≠ some cl := by simp [hi.clients]
  cases h with
  | startNext hc _ _ hadm =>
    rw [stores, nextOp_eq hc]
    exact .exec hadm .refl id id
  | startFails hc _ _ hadm =>
    rw [stores, nextOp_eq hc]
    exact .exec hadm (.one rfl) id id
  | startWatch hc hw =>
    rw [stores, nextOp_eq hc, hw]
    exact .goesOn rfl (.one rfl) Iff.rfl
  | startThread hc ht =>
    rw [stores, nextOp_eq hc, ht]
    exact .goesOn rfl (.one rfl) Iff.rfl
  | startAborts hc ht =>
    rw [stores, nextOp_eq hc, ht]
    exact .goesOn rfl .refl Iff.rfl
  | accept => cases ha
  | emplace hp => exact absurd hp (hi.emplace _ _ _)
  | lookupClient _ _ hl | deleteFound _ _ hl | bcastSend _ _ hl | bcastFails _ _ hl | sendFound _ _ hl
  | infoFound _ _ hl | finishClose _ _ hl => exact absurd hl (hnone _ _)
  | deleteClose _ hm => exact absurd hm (hi.closing _ _ _ _)
  | send hc =>
    rw [stores_of_calls (by simp [hc])]
    exact .goesOn rfl (.trans (Client.sendMsg_notes (fun _ _ _ _ => rfl) _ _ _ _) (.one rfl)) Iff.rfl
  | finishEnd hc =>
    rw [stores_of_calls (by simp [hc])]
    exact .shuts id id rfl rfl
  | publish =>
    refine .goesOn rfl (.one ?_) Iff.rfl
    cases ‹Callback› <;> rfl
  | deleteNone hc | deleteClr hc | deleteErase hc | bcastLock hc | bcastEnd hc | sendNone hc | infoNone hc
  | finish hc | finishJoin hc | finishNoThread hc | finishSelf hc | finishLock hc =>
    rw [stores_of_calls (by simp [hc])]
    exact .goesOn rfl (by first | exact .refl | exact .one rfl) Iff.rfl
  | _ => exact .goesOn rfl (by first | exact .refl | exact .one rfl) Iff.rfl

end SocketsCpp.TcpServer
