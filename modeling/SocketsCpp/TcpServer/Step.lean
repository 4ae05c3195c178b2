import SocketsCpp.TcpServer.Model

/-!
# What a step of the server can do

`Step s a s'` lists the steps of the machine, each with what it requires of the
state. Every step that the machine takes is in the list (`Step.of_step`); the proofs
about runs go through the list and never unfold the machine again.
-/

namespace SocketsCpp.TcpServer

open SocketsCpp.Library

/-- The steps of the machine. -/
inductive Step : State → Action → State → Prop where
  /-- `m_stop` is not set. -/
  | testStop {s : State} : s.pc = .loopHead → s.stop = false →
      Step s .testStop { s with pc := .copyFds }
  /-- `m_stop` is set. -/
  | taskReturns {s : State} : s.pc = .loopHead → s.stop = true →
      Step s .testStop { s with pc := .returned }
  /-- `fd_set read_set = m_fds`. -/
  | copyFds {s : State} : s.pc = .copyFds → Step s .copyFds { s with pc := .findMaxFd s.fds }
  /-- `int maxfds = findMaxFd()`. -/
  | findMaxFd {s : State} {readSet : FdSet} : s.pc = .findMaxFd readSet →
      Step s .findMaxFd { s with pc := .select readSet (findMaxFd s.sockfd s.clients) }
  /-- `Select` is called. -/
  | select {s : State} {readSet : FdSet} {maxfds : ℤ} : s.pc = .select readSet maxfds →
      Step s .select { s with
        pc := .waiting readSet maxfds s.clients.conn, os := s.os.record (.select maxfds) }
  /-- `Select` fails or times out. -/
  | selectFails {s : State} {readSet : FdSet} {maxfds : ℤ} {atSelect : ClientHandle → Option ConnId}
      {r : ℤ} {ready : FdSet} : s.pc = .waiting readSet maxfds atSelect → r ≤ 0 →
      Step s (.selectReturns r ready) { s with pc := .loopHead }
  /-- `Select` reports descriptors ready. -/
  | selectReady {s : State} {readSet : FdSet} {maxfds : ℤ} {atSelect : ClientHandle → Option ConnId}
      {r : ℤ} {ready : FdSet} : s.pc = .waiting readSet maxfds atSelect → 0 < r →
      Step s (.selectReturns r ready)
        { s with pc := .forHead ⟨fun d => readSet d && ready d, maxfds, 0, atSelect⟩ }
  /-- A descriptor that is ready. -/
  | forReady {s : State} {r : Round} : s.pc = .forHead r → r.fd < r.maxfds → r.readSet r.fd = true →
      Step s .forStep { s with pc := .lookup r, os := s.os.record (.fdIsset r.fd) }
  /-- A descriptor that is not ready. -/
  | forSkip {s : State} {r : Round} : s.pc = .forHead r → r.fd < r.maxfds → r.readSet r.fd = false →
      Step s .forStep { s with pc := .forHead r.next, os := s.os.record (.fdIsset r.fd) }
  /-- The end of the round. -/
  | forEnd {s : State} {r : Round} : s.pc = .forHead r → r.maxfds ≤ r.fd →
      Step s .forStep { s with pc := .loopHead }
  /-- `fd` is a client. -/
  | lookupClient {s : State} {r : Round} {cl : Client} : s.pc = .lookup r → s.mutex = none →
      s.clients.lookup r.fd = some cl → Step s .lookup { s with pc := .recv r cl.conn }
  /-- `fd` is not a client. -/
  | lookupNone {s : State} {r : Round} : s.pc = .lookup r → s.mutex = none →
      s.clients.lookup r.fd = none → Step s .lookup { s with pc := .accept r }
  /-- `Recv` fails, or returns `0`. -/
  | recvEnd {s : State} {r : Round} {c : ConnId} {res : Option (List UInt8)} : s.pc = .recv r c →
      numOfBytesReceived res < 1 →
      Step s (.recv res) { s with
        pc := .disconnected r c (numOfBytesReceived res), msg := recvInto s.msg res
        os := s.os.record (.recv r.fd (s.os.owner r.fd) res) }
  /-- `Recv` returns bytes. -/
  | recvData {s : State} {r : Round} {c : ConnId} {bytes : List UInt8} : s.pc = .recv r c →
      bytes ≠ [] → bytes.length ≤ MAX_PACKET_SIZE →
      Step s (.recv (some bytes)) { s with
        pc := .publish r (.data r.fd bytes.length), msg := recvInto s.msg (some bytes)
        os := s.os.record (.recv r.fd (s.os.owner r.fd) (some bytes)) }
  /-- The client closed the connection. -/
  | disconnectEof {s : State} {r : Round} {c : ConnId} : s.pc = .disconnected r c 0 →
      Step s .disconnect
        ({ s with pc := .deleting r, clients := s.clients.disconnect r.fd c }.goto .serverTask
          (.deleteClient r.fd))
  /-- `Recv` failed. -/
  | disconnectError {s : State} {r : Round} {c : ConnId} {n : ℤ} : s.pc = .disconnected r c n → n ≠ 0 →
      Step s .disconnect { s with pc := .forHead r.next, clients := s.clients.disconnect r.fd c }
  /-- `deleteClient(fd)` has returned. -/
  | deleteReturns {s : State} {r : Round} : s.pc = .deleting r → s.calls .serverTask = .idle →
      Step s .deleteReturns { s with pc := .publish r (.disconnect r.fd) }
  /-- A callback begins. -/
  | publish {s : State} {r : Round} {cb : Callback} : s.pc = .publish r cb →
      Step s .publish { s with pc := .callback r cb, os := s.os.record (cb.event s.msg) }
  /-- A callback returns. -/
  | callbackReturns {s : State} {r : Round} {cb : Callback} : s.pc = .callback r cb →
      s.calls .callback = .idle → Step s .callbackReturns { s with pc := .forHead r.next }
  /-- `Accept` fails. -/
  | acceptFails {s : State} {r : Round} : s.pc = .accept r →
      Step s (.accept none) { s with pc := .forHead r.next, os := s.os.record (.accept r.fd none) }
  /-- `Accept` returns a descriptor. -/
  | accept {s : State} {r : Round} {d : SOCKET} {addr : SockAddrIn} : s.pc = .accept r →
      s.os.Available d →
      Step s (.accept (some (d, addr))) { s with
        pc := .emplace r d s.os.next, clientAddress := addr, os := s.os.accept r.fd d }
  /-- `m_clients.emplace(…)`. -/
  | emplace {s : State} {r : Round} {d : SOCKET} {c : ConnId} : s.pc = .emplace r d c →
      s.mutex = none →
      Step s .emplace { s with
        pc := .fdSet r d
        clients := s.clients.emplace d
          ⟨inetNtop s.clientAddress.addr, d, s.clientAddress.port, true, c⟩
        os := s.os.record (.emplace d (decide (d ∉ s.clients))) }
  /-- `FD_SET(clientfd, &m_fds)`. -/
  | fdSet {s : State} {r : Round} {d : SOCKET} : s.pc = .fdSet r d →
      Step s .fdSet { s with
        pc := .publish r (.connect d), fds := FD_SET d s.fds, os := s.os.record (.fdSet d) }
  /-- A method is called by the application. -/
  | callApp {s : State} {n : ℕ} {c : Call} : s.calls (.app n) = .idle →
      Step s (.call (.app n) c) (s.goto (.app n) c.begin)
  /-- A method is called by a callback. -/
  | callCallback {s : State} {r : Round} {cb : Callback} {c : Call} : s.pc = .callback r cb →
      s.calls .callback = .idle → Step s (.call .callback c) (s.goto .callback c.begin)
  /-- `start` goes on. -/
  | startNext {s : State} {w : Caller} {i : Instr} {rest : List Instr} {a : Answer}
      {order : List ClientHandle} : s.calls w = .start (i :: rest) → i.op ≠ .watch → i.op ≠ .thread →
      i.op.Admissible a s.os → i.fails a = false →
      Step s (.step w a order)
        ({ s with toEndpoint := (i.op.exec a s.toEndpoint s.os).1
                  os := (i.op.exec a s.toEndpoint s.os).2 }.goto w (.start rest))
  /-- `start` fails. -/
  | startFails {s : State} {w : Caller} {i : Instr} {rest : List Instr} {a : Answer}
      {order : List ClientHandle} : s.calls w = .start (i :: rest) → i.op ≠ .watch → i.op ≠ .thread →
      i.op.Admissible a s.os → i.fails a = true →
      Step s (.step w a order)
        ({ s with toEndpoint := (i.op.exec a s.toEndpoint s.os).1
                  os := (i.op.exec a s.toEndpoint s.os).2 }.ret w (.start (.fail (i.msg a))))
  /-- `start` sets the descriptor set up. -/
  | startWatch {s : State} {w : Caller} {i : Instr} {rest : List Instr} {a : Answer}
      {order : List ClientHandle} : s.calls w = .start (i :: rest) → i.op = .watch →
      Step s (.step w a order)
        ({ s with fds := FD_SET s.sockfd FD_ZERO, os := s.os.record (.fdSet s.sockfd) }.goto w (.start rest))
  /-- `start` creates the thread. -/
  | startThread {s : State} {w : Caller} {i : Instr} {rest : List Instr} {a : Answer}
      {order : List ClientHandle} : s.calls w = .start (i :: rest) → i.op = .thread → s.thread = false →
      Step s (.step w a order) ({ s with thread := true, pc := .loopHead }.ret w (.start .ok))
  /-- `start` assigns to a joinable thread. -/
  | startAborts {s : State} {w : Caller} {i : Instr} {rest : List Instr} {a : Answer}
      {order : List ClientHandle} : s.calls w = .start (i :: rest) → i.op = .thread → s.thread = true →
      Step s (.step w a order) { s with aborted := true }
  /-- `deleteClient` finds the client. -/
  | deleteFound {s : State} {w : Caller} {h : ClientHandle} {cl : Client} {a : Answer}
      {order : List ClientHandle} : s.calls w = .deleteClient h → s.mutex = none →
      s.clients.lookup h = some cl →
      Step s (.step w a order) (s.enter w (.deleteClose h cl.sockfd cl.conn))
  /-- `deleteClient` finds no client. -/
  | deleteNone {s : State} {w : Caller} {h : ClientHandle} {a : Answer} {order : List ClientHandle} :
      s.calls w = .deleteClient h → s.mutex = none → s.clients.lookup h = none →
      Step s (.step w a order) (s.ret w (.deleteClient w h none))
  /-- `deleteClient` at `Close`. -/
  | deleteClose {s : State} {w : Caller} {h : ClientHandle} {d : SOCKET} {c : ConnId} {a : Answer}
      {order : List ClientHandle} : s.calls w = .locked → s.mutex = some (w, .deleteClose h d c) →
      Step s (.step w a order) { s with mutex := some (w, .deleteClr h d c), os := s.os.close d }
  /-- `deleteClient` at `FD_CLR`. -/
  | deleteClr {s : State} {w : Caller} {h : ClientHandle} {d : SOCKET} {c : ConnId} {a : Answer}
      {order : List ClientHandle} : s.calls w = .locked → s.mutex = some (w, .deleteClr h d c) →
      Step s (.step w a order) { s with
        mutex := some (w, .deleteErase h c), fds := FD_CLR d s.fds, os := s.os.record (.fdClr d) }
  /-- `deleteClient` at `erase`. -/
  | deleteErase {s : State} {w : Caller} {h : ClientHandle} {c : ConnId} {a : Answer}
      {order : List ClientHandle} : s.calls w = .locked → s.mutex = some (w, .deleteErase h c) →
      Step s (.step w a order)
        ({ s with mutex := none, clients := s.clients.erase h }.ret w (.deleteClient w h (some c)))
  /-- `sendBcast` takes the lock. -/
  | bcastLock {s : State} {w : Caller} {msg : List UInt8} {a : Answer} {order : List ClientHandle} :
      s.calls w = .sendBcast msg → s.mutex = none → order.Perm s.clients.keys →
      Step s (.step w a order) (s.enter w (.bcast msg order))
  /-- `sendBcast` has sent to all clients. -/
  | bcastEnd {s : State} {w : Caller} {msg : List UInt8} {a : Answer} {order : List ClientHandle} :
      s.calls w = .locked → s.mutex = some (w, .bcast msg []) →
      Step s (.step w a order) ({ s with mutex := none }.ret w (.sendBcast w .ok))
  /-- `sendBcast` sends to a client. -/
  | bcastSend {s : State} {w : Caller} {msg : List UInt8} {h : ClientHandle} {rest : List ClientHandle}
      {cl : Client} {a : Answer} {order : List ClientHandle} : s.calls w = .locked →
      s.mutex = some (w, .bcast msg (h :: rest)) → s.clients.lookup h = some cl →
      (cl.sendMsg s.os msg a).2.success = true →
      Step s (.step w a order)
        { s with os := (cl.sendMsg s.os msg a).1, mutex := some (w, .bcast msg rest) }
  /-- `sendBcast` fails to send to a client. -/
  | bcastFails {s : State} {w : Caller} {msg : List UInt8} {h : ClientHandle} {rest : List ClientHandle}
      {cl : Client} {a : Answer} {order : List ClientHandle} : s.calls w = .locked →
      s.mutex = some (w, .bcast msg (h :: rest)) → s.clients.lookup h = some cl →
      (cl.sendMsg s.os msg a).2.success = false →
      Step s (.step w a order)
        ({ s with os := (cl.sendMsg s.os msg a).1, mutex := none }.ret w
          (.sendBcast w (cl.sendMsg s.os msg a).2))
  /-- `sendClientMessage` finds the client. -/
  | sendFound {s : State} {w : Caller} {h : ClientHandle} {msg : List UInt8} {cl : Client} {a : Answer}
      {order : List ClientHandle} : s.calls w = .sendClientMessage h msg → s.mutex = none →
      s.clients.lookup h = some cl → Step s (.step w a order) (s.goto w (.send h cl msg))
  /-- `sendClientMessage` finds no client. -/
  | sendNone {s : State} {w : Caller} {h : ClientHandle} {msg : List UInt8} {a : Answer}
      {order : List ClientHandle} : s.calls w = .sendClientMessage h msg → s.mutex = none →
      s.clients.lookup h = none →
      Step s (.step w a order)
        (s.ret w (.sendClientMessage w h (.fail s!"Error: Client {h} not found")))
  /-- `sendClientMessage` sends. -/
  | send {s : State} {w : Caller} {h : ClientHandle} {msg : List UInt8} {cl : Client} {a : Answer}
      {order : List ClientHandle} : s.calls w = .send h cl msg →
      Step s (.step w a order)
        ({ s with os := (cl.sendMsg s.os msg a).1 }.ret w
          (.sendClientMessage w h (cl.sendMsg s.os msg a).2))
  /-- `getClientInfo` finds the client. -/
  | infoFound {s : State} {w : Caller} {h : ClientHandle} {out : ClientInfo} {cl : Client} {a : Answer}
      {order : List ClientHandle} : s.calls w = .getClientInfo h out → s.mutex = none →
      s.clients.lookup h = some cl →
      Step s (.step w a order) (s.ret w (.getClientInfo w h true ⟨cl.ip, cl.port, cl.isConnected⟩))
  /-- `getClientInfo` finds no client. -/
  | infoNone {s : State} {w : Caller} {h : ClientHandle} {out : ClientInfo} {a : Answer}
      {order : List ClientHandle} : s.calls w = .getClientInfo h out → s.mutex = none →
      s.clients.lookup h = none → Step s (.step w a order) (s.ret w (.getClientInfo w h false out))
  /-- `finish` sets `m_stop`. -/
  | finish {s : State} {w : Caller} {a : Answer} {order : List ClientHandle} : s.calls w = .finish →
      Step s (.step w a order)
        ({ s with stop := true, os := s.os.record (.finishBegin w) }.goto w .finishJoin)
  /-- `finish` joins the thread. -/
  | finishJoin {s : State} {n : ℕ} {a : Answer} {order : List ClientHandle} :
      s.calls (.app n) = .finishJoin → s.thread = true → s.pc = .returned →
      Step s (.step (.app n) a order)
        ({ s with thread := false, os := s.os.record .joined }.goto (.app n) .finishLock)
  /-- `finish` has no thread to join. -/
  | finishNoThread {s : State} {w : Caller} {a : Answer} {order : List ClientHandle} :
      s.calls w = .finishJoin → s.thread = false → Step s (.step w a order) (s.goto w .finishLock)
  /-- `finish` on the thread itself: the exception of `join` is caught. -/
  | finishSelf {s : State} {w : Caller} {a : Answer} {order : List ClientHandle} :
      s.calls w = .finishJoin → s.thread = true → (∀ n, w ≠ .app n) →
      Step s (.step w a order) (s.goto w .finishLock)
  /-- `finish` takes the lock. -/
  | finishLock {s : State} {w : Caller} {a : Answer} {order : List ClientHandle} :
      s.calls w = .finishLock → s.mutex = none → order.Perm s.clients.keys →
      Step s (.step w a order) (s.enter w (.finishClose order))
  /-- `finish` closes a client. -/
  | finishClose {s : State} {w : Caller} {h : ClientHandle} {rest : List ClientHandle} {cl : Client}
      {a : Answer} {order : List ClientHandle} : s.calls w = .locked →
      s.mutex = some (w, .finishClose (h :: rest)) → s.clients.lookup h = some cl →
      Step s (.step w a order) { s with os := s.os.close cl.sockfd, mutex := some (w, .finishClose rest) }
  /-- `finish` closes the accept socket. -/
  | finishEnd {s : State} {w : Caller} {a : Answer} {order : List ClientHandle} : s.calls w = .locked →
      s.mutex = some (w, .finishClose []) →
      Step s (.step w a order)
        ({ s with
          os := s.os.closeValid s.sockfd
          sockfd := INVALID_SOCKET, clients := ∅, mutex := none }.ret w (.finishEnd w))

theorem isNone_of_not_isSome {α : Type} {o : Option α} (h : ¬ o.isSome = true) : o = none := by
  cases o <;> simp_all

theorem Pc.isLoopHead_iff {pc : Pc} : pc.isLoopHead = true ↔ pc = .loopHead := by
  cases pc <;> simp [isLoopHead]

instance (pc : Pc) : Decidable (pc = .loopHead) := decidable_of_iff _ Pc.isLoopHead_iff

theorem CallPc.isIdle_iff {p : CallPc} : p.isIdle = true ↔ p = .idle := by
  cases p <;> simp [CallPc.isIdle]

/-- Who may call a method. -/
theorem mayCall_iff {s : State} {w : Caller} : mayCall s w = true ↔
    s.calls w = .idle ∧ ((∃ n, w = .app n) ∨ (w = .callback ∧ ∃ r cb, s.pc = .callback r cb)) := by
  unfold mayCall
  rw [Bool.and_eq_true, CallPc.isIdle_iff]
  refine and_congr_right fun _ => ?_
  cases w <;> cases s.pc <;> simp

theorem eq_some_of_one_le {res : Option (List UInt8)} (h : ¬ numOfBytesReceived res < 1) :
    ∃ bytes, res = some bytes ∧ bytes ≠ [] := by
  cases res with
  | none => exact absurd (by decide) h
  | some bytes =>
    refine ⟨bytes, rfl, ?_⟩
    rintro rfl
    exact absurd (by decide) h

theorem Step.of_serverStep {s s' : State} {a : Action} (h : serverStep s a = some s') : Step s a s' := by
  unfold serverStep at h
  split at h
  · next hp =>
    cases h
    split
    · next hs => exact .taskReturns hp hs
    · next hs => exact .testStop hp (by simpa using hs)
  · next hp => cases h; exact .copyFds hp
  · next hp => cases h; exact .findMaxFd hp
  · next hp => cases h; exact .select hp
  · next hp =>
    split at h
    · next hr => cases h; exact .selectFails hp hr
    · cases h; exact .selectReady hp (by omega)
  · next hp =>
    split at h
    · next hlt =>
      cases h
      split
      · next hr => exact .forReady hp hlt hr
      · next hr => exact .forSkip hp hlt (by simpa using hr)
    · cases h; exact .forEnd hp (by omega)
  · next hp =>
    split at h
    · cases h
    · next hm =>
      have hm := isNone_of_not_isSome hm
      split at h <;> cases h
      · next hl => exact .lookupClient hp hm hl
      · next hl => exact .lookupNone hp hm hl
  · next hp =>
    split at h
    · cases h
    · next hmax =>
      cases h
      split
      · next hn => exact .recvEnd hp hn
      · next hn =>
        obtain ⟨bytes, rfl, hne⟩ := eq_some_of_one_le hn
        exact .recvData hp hne (by simpa [numOfBytesReceived] using hmax)
  · next hp =>
    split at h
    · next hn => cases h; subst hn; exact .disconnectEof hp
    · next hn => cases h; exact .disconnectError hp hn
  · next hp =>
    split at h
    · next hi => cases h; exact .deleteReturns hp (CallPc.isIdle_iff.mp hi)
    · cases h
  · next hp => cases h; exact .publish hp
  · next hp =>
    split at h
    · next hi => cases h; exact .callbackReturns hp (CallPc.isIdle_iff.mp hi)
    · cases h
  · next hp => cases h; exact .acceptFails hp
  · next hp =>
    split at h
    · next hd => cases h; exact .accept hp hd
    · cases h
  · next hp =>
    split at h
    · cases h
    · next hm => cases h; exact .emplace hp (isNone_of_not_isSome hm)
  · next hp => cases h; exact .fdSet hp
  · cases h

theorem Step.of_sectionStep {s s' : State} {w : Caller} {sec : Section} {a : Answer}
    {order : List ClientHandle} (hc : s.calls w = .locked) (hm : s.mutex = some (w, sec))
    (h : sectionStep s w sec a = some s') : Step s (.step w a order) s' := by
  unfold sectionStep at h
  split at h
  · cases h; exact .deleteClose hc hm
  · cases h; exact .deleteClr hc hm
  · cases h; exact .deleteErase hc hm
  · cases h; exact .bcastEnd hc hm
  · split at h
    · cases h
    · next hl =>
      simp only at h
      split at h <;> cases h
      · next hs => exact .bcastSend hc hm hl hs
      · next hs => exact .bcastFails hc hm hl (by simpa using hs)
  · split at h
    · cases h
    · next hl => cases h; exact .finishClose hc hm hl
  · cases h; exact .finishEnd hc hm

theorem Step.of_startStep {s s' : State} {w : Caller} {a : Answer} {order : List ClientHandle}
    {is : List Instr} (hc : s.calls w = .start is) (h : startStep s w a is = some s') :
    Step s (.step w a order) s' := by
  cases is with
  | nil => cases h
  | cons i rest =>
    simp only [startStep] at h
    split at h
    · next hop => cases h; exact .startWatch hc hop
    · next hop =>
      split at h <;> cases h
      · next ht => exact .startAborts hc hop ht
      · next ht => exact .startThread hc hop (by simpa using ht)
    · next hw ht =>
      split at h
      · next had =>
        split at h <;> cases h
        · next hf => exact .startFails hc hw ht had hf
        · next hf => exact .startNext hc hw ht had (by simpa using hf)
      · cases h

theorem Step.of_callStep {s s' : State} {w : Caller} {a : Answer} {order : List ClientHandle}
    (h : callStep s w a order = some s') : Step s (.step w a order) s' := by
  unfold callStep at h
  split at h
  · cases h
  · next hc => exact .of_startStep hc h
  · next hc =>
    split at h
    · cases h
    · next hm =>
      have hm := isNone_of_not_isSome hm
      split at h <;> cases h
      · next hl => exact .deleteFound hc hm hl
      · next hl => exact .deleteNone hc hm hl
  · next hc =>
    split at h
    · next hm => cases h; exact .bcastLock hc (by simpa using hm.1) hm.2
    · cases h
  · next hc =>
    split at h
    · cases h
    · next hm =>
      have hm := isNone_of_not_isSome hm
      split at h <;> cases h
      · next hl => exact .sendFound hc hm hl
      · next hl => exact .sendNone hc hm hl
  · next hc => cases h; exact .send hc
  · next hc =>
    split at h
    · cases h
    · next hm =>
      have hm := isNone_of_not_isSome hm
      split at h <;> cases h
      · next hl => exact .infoFound hc hm hl
      · next hl => exact .infoNone hc hm hl
  · next hc => cases h; exact .finish hc
  · next hc =>
    split at h
    · next ht =>
      split at h
      · next hp => cases h; exact .finishJoin hc ht hp
      · cases h
      · next hw => cases h; exact .finishSelf hc ht (by rintro n rfl; cases hp : s.pc <;> simp_all)
    · next ht => cases h; exact .finishNoThread hc (by simpa using ht)
  · next hc =>
    split at h
    · next hm => cases h; exact .finishLock hc (by simpa using hm.1) hm.2
    · cases h
  · next hc =>
    split at h
    · next hm =>
      split at h
      · next hw => subst hw; exact .of_sectionStep hc hm h
      · cases h
    · cases h

/-- **Every step of the machine is in the list.** -/
theorem Step.of_step {s s' : State} {a : Action} (h : machine.step s a = some s') :
    s.aborted = false ∧ Step s a s' := by
  have h : step s a = some s' := h
  unfold step at h
  split at h
  · cases h
  · next hab =>
    refine ⟨by simpa using hab, ?_⟩
    split at h
    · split at h
      · next hc =>
        cases h
        obtain ⟨hi, ⟨n, rfl⟩ | ⟨rfl, r, cb, hp⟩⟩ := mayCall_iff.mp hc
        · exact .callApp hi
        · exact .callCallback hp hi
      · cases h
    · exact .of_callStep h
    · exact .of_serverStep h

end SocketsCpp.TcpServer
