import SocketsCpp.Setup
import SocketsCpp.Library.Machine
import SocketsCpp.Library.Table

/-!
# The TCP server

`TcpServer.h` as a machine: the server thread running `serverTask`, callbacks that
may call the methods of the server, and any number of application threads calling
them. An action of the machine is one step of one of these, up to the next point
where another can act; it carries what the operating system answers, and what order
the hash table is walked in.

* `Pc` — where the server thread is in `serverTask`.
* `CallPc` — where a call of a method is. A call inside a critical section of
  `m_mutex` is recorded with the mutex (`Section`), so that no two calls are inside.
* `State` — the members, the operating system, and where everybody is.
* `step` — the machine.

A pointer into the hash table is kept as what it points at: the handle, and the
connection number of the entry. After the entry is erased the pointer dangles; a
write through it then reaches no entry, and a read gives what the entry held.

The accesses to `m_clients`, `m_fds` and `m_stop` are single steps: the machine does
not show the data races on the words they are made of.
-/

namespace SocketsCpp.TcpServer

open SocketsCpp.Library

/-- `MAX_PACKET_SIZE`: the length of the receive buffer. -/
def MAX_PACKET_SIZE : ℕ := 65536

/-! ### Clients -/

/-- `TcpServer::Client`: a connection to a client. -/
structure Client where
  /-- `m_ip`. -/
  ip : String
  /-- `m_sockfd`. -/
  sockfd : SOCKET := INVALID_SOCKET
  /-- `m_port`. -/
  port : UInt16 := 0
  /-- `m_isConnected`. -/
  isConnected : Bool := false
  /-- The number of the connection the entry was made for; not in the source. -/
  conn : ConnId

/-- `std::unordered_map<ClientHandle, Client>`. -/
abbrev Clients := AList fun _ : ClientHandle => Client

/-- `Client::sendMsg`, `a` being the answer to `Send`. -/
def Client.sendMsg (cl : Client) (os : Os) (msg : List UInt8) (a : Answer) : Os × SocketRet :=
  if cl.sockfd ≠ INVALID_SOCKET then
    let os := os.record (.send cl.sockfd (os.owner cl.sockfd) msg a.ret)
    if a.ret < 0 then (os, .fail (errnoMsg "Error: send() failed errno " a))
    else if a.ret < msg.length then
      (os, .fail s!"Only {a.ret} bytes out of {msg.length} was sent to client")
    else (os, .ok)
  else (os, .ok)

namespace Clients

/-- `m_clients.emplace(h, cl)`: an entry under `h` that exists is kept. -/
def emplace (h : ClientHandle) (cl : Client) (t : Clients) : Clients :=
  if h ∈ t then t else t.insert h cl

/-- `client->m_isConnected = false` through a pointer to the entry of connection `c`. -/
def disconnect (h : ClientHandle) (c : ConnId) (t : Clients) : Clients :=
  mapValues (fun h' cl => if h' = h ∧ cl.conn = c then { cl with isConnected := false } else cl) t

/-- The connection stored under a handle. -/
def conn (t : Clients) (h : ClientHandle) : Option ConnId := (t.lookup h).map (·.conn)

end Clients

/-- `findMaxFd`. -/
def findMaxFd (sockfd : SOCKET) (t : Clients) : ℤ :=
  t.entries.foldl (fun maxfd e => max maxfd e.2.sockfd) sockfd + 1

/-! ### Where everybody is -/

/-- The locals of the loop over the descriptors. -/
structure Round where
  /-- `read_set`, as `Select` left it. -/
  readSet : FdSet
  /-- `maxfds`. -/
  maxfds : ℤ
  /-- `fd`. -/
  fd : ℤ
  /-- The clients when `Select` was called; not in the source. -/
  atSelect : ClientHandle → Option ConnId

/-- `fd++`. -/
def Round.next (r : Round) : Round := { r with fd := r.fd + 1 }

/-- A callback with its arguments. -/
inductive Callback where
  /-- `publishClientConnect(h)`. -/
  | connect (h : ClientHandle)
  /-- `publishClientMsg(h, msg.data(), n)`. -/
  | data (h : ClientHandle) (n : ℕ)
  /-- `publishDisconnected(h)`. -/
  | disconnect (h : ClientHandle)

/-- Where the server thread is. -/
inductive Pc where
  /-- There is no server thread yet. -/
  | none
  /-- At the test of `m_stop`. -/
  | loopHead
  /-- At the copy of `m_fds`. -/
  | copyFds
  /-- At the call of `findMaxFd`. -/
  | findMaxFd (readSet : FdSet)
  /-- At the call of `Select`. -/
  | select (readSet : FdSet) (maxfds : ℤ)
  /-- In `Select`; the clients when it was called are not in the source. -/
  | waiting (readSet : FdSet) (maxfds : ℤ) (atSelect : ClientHandle → Option ConnId)
  /-- At the head of the loop over the descriptors. -/
  | forHead (r : Round)
  /-- At the lookup of `fd`, which is ready. -/
  | lookup (r : Round)
  /-- At the `Recv` on `fd`, `client` pointing at the entry of connection `c`. -/
  | recv (r : Round) (c : ConnId)
  /-- At `client->m_isConnected = false`, `n` being the result of `Recv`. -/
  | disconnected (r : Round) (c : ConnId) (n : ℤ)
  /-- In `deleteClient(fd)`. -/
  | deleting (r : Round)
  /-- At a callback. -/
  | publish (r : Round) (cb : Callback)
  /-- In a callback. -/
  | callback (r : Round) (cb : Callback)
  /-- At the `Accept` on `fd`. -/
  | accept (r : Round)
  /-- At the `emplace` of `clientfd`, given connection number `c`. -/
  | emplace (r : Round) (clientfd : SOCKET) (c : ConnId)
  /-- At `FD_SET(clientfd, &m_fds)`. -/
  | fdSet (r : Round) (clientfd : SOCKET)
  /-- `serverTask` has returned. -/
  | returned

/-- The server thread is at the head of its loop. -/
def Pc.isLoopHead : Pc → Bool
  | .loopHead => true
  | _ => false

/-- A call of a method. -/
inductive Call where
  /-- `start(port)`. -/
  | start (port : UInt16)
  /-- `deleteClient(h)`. -/
  | deleteClient (h : ClientHandle)
  /-- `sendBcast(msg, size)`. -/
  | sendBcast (msg : List UInt8)
  /-- `sendClientMessage(h, msg, size)`. -/
  | sendClientMessage (h : ClientHandle) (msg : List UInt8)
  /-- `getClientInfo(h, …)`, the output arguments holding `out`. -/
  | getClientInfo (h : ClientHandle) (out : ClientInfo)
  /-- `finish()`. -/
  | finish

/-- Where a call of a method is. -/
inductive CallPc where
  /-- No call. -/
  | idle
  /-- In `start`, with instructions left. -/
  | start (rest : List Instr)
  /-- At the lock in `deleteClient`. -/
  | deleteClient (h : ClientHandle)
  /-- At the lock in `sendBcast`. -/
  | sendBcast (msg : List UInt8)
  /-- At the lock in `sendClientMessage`. -/
  | sendClientMessage (h : ClientHandle) (msg : List UInt8)
  /-- In `sendClientMessage`, the lock released, at `client->sendMsg`; `cl` is what
  `client` points at. -/
  | send (h : ClientHandle) (cl : Client) (msg : List UInt8)
  /-- At the lock in `getClientInfo`. -/
  | getClientInfo (h : ClientHandle) (out : ClientInfo)
  /-- At `m_stop = true` in `finish`. -/
  | finish
  /-- At `m_thread.join()` in `finish`. -/
  | finishJoin
  /-- At the lock in `finish`. -/
  | finishLock
  /-- Inside a critical section; where, is recorded with the mutex. -/
  | locked

/-- Where a call is inside a critical section of `m_mutex`. -/
inductive Section where
  /-- `deleteClient(h)` at `Close(d)`, `client` referring to connection `c`. -/
  | deleteClose (h : ClientHandle) (d : SOCKET) (c : ConnId)
  /-- `deleteClient(h)` at `FD_CLR(d, &m_fds)`. -/
  | deleteClr (h : ClientHandle) (d : SOCKET) (c : ConnId)
  /-- `deleteClient(h)` at `m_clients.erase(h)`. -/
  | deleteErase (h : ClientHandle) (c : ConnId)
  /-- `sendBcast` with clients left to send to. -/
  | bcast (msg : List UInt8) (rest : List ClientHandle)
  /-- `finish` with clients left to close. -/
  | finishClose (rest : List ClientHandle)

/-- The first step of a call. -/
def Call.begin : Call → CallPc
  | .start port => .start (startScript port)
  | .deleteClient h => .deleteClient h
  | .sendBcast msg => .sendBcast msg
  | .sendClientMessage h msg => .sendClientMessage h msg
  | .getClientInfo h out => .getClientInfo h out
  | .finish => .finish

/-- No call is being made. -/
def CallPc.isIdle : CallPc → Bool
  | .idle => true
  | _ => false

/-- The server with everything that acts on it. -/
structure State extends Endpoint where
  /-- `m_clientAddress`. -/
  clientAddress : SockAddrIn := {}
  /-- `m_fds`. -/
  fds : FdSet := FD_ZERO
  /-- `m_clients`. -/
  clients : Clients := ∅
  /-- `m_mutex`: who is in a critical section, and where. -/
  mutex : Option (Caller × Section) := none
  /-- Where the server thread is. -/
  pc : Pc := .none
  /-- `msg`, the receive buffer of `serverTask`. -/
  msg : List UInt8
  /-- Where the calls of the methods are. -/
  calls : Caller → CallPc := fun _ => .idle
  /-- The operating system. -/
  os : Os := {}
  /-- `std::terminate` was called. -/
  aborted : Bool := false

/-- A server just constructed; `msg` is what the buffer of the thread will hold. -/
def fresh (options : SocketOpt) (msg : List UInt8) : State := { sockOptions := options, msg := msg }

namespace State

variable (s : State)

/-- The call that `w` makes moves on. -/
@[simp] def goto (w : Caller) (p : CallPc) : State := { s with calls := Function.update s.calls w p }

/-- The call that `w` makes returns. -/
@[simp] def ret (w : Caller) (e : Event) : State :=
  { s with calls := Function.update s.calls w .idle, os := s.os.record e }

/-- The call that `w` makes enters a critical section. -/
@[simp] def enter (w : Caller) (sec : Section) : State :=
  { s with calls := Function.update s.calls w .locked, mutex := some (w, sec) }

end State

/-! ### The steps -/

/-- A step of some thread. -/
inductive Action where
  /-- `while (!m_stop.load())`. -/
  | testStop
  /-- `fd_set read_set = m_fds`. -/
  | copyFds
  /-- `int maxfds = findMaxFd()`. -/
  | findMaxFd
  /-- `Select` is called. -/
  | select
  /-- `Select` returns `ret`, leaving those of the descriptors that are `ready`. -/
  | selectReturns (ret : ℤ) (ready : FdSet)
  /-- The head of the loop over the descriptors, and `FD_ISSET`. -/
  | forStep
  /-- The lookup of `fd`. -/
  | lookup
  /-- `Recv` returns a negative value, or writes bytes to the buffer. -/
  | recv (res : Option (List UInt8))
  /-- `client->m_isConnected = false`. -/
  | disconnect
  /-- `deleteClient(fd)` has returned. -/
  | deleteReturns
  /-- A callback begins. -/
  | publish
  /-- A callback returns. -/
  | callbackReturns
  /-- `Accept` returns `-1`, or a descriptor and the address of the peer. -/
  | accept (res : Option (SOCKET × SockAddrIn))
  /-- `m_clients.emplace(…)`. -/
  | emplace
  /-- `FD_SET(clientfd, &m_fds)`. -/
  | fdSet
  /-- `w` calls a method. -/
  | call (w : Caller) (c : Call)
  /-- The call that `w` makes takes its next step, `a` being the answer of the system
  and `order` the order in which the hash table is walked. -/
  | step (w : Caller) (a : Answer) (order : List ClientHandle)

/-- What `Recv` returns. -/
def numOfBytesReceived (res : Option (List UInt8)) : ℤ :=
  match res with
  | none => -1
  | some bytes => bytes.length

/-- The buffer after `Recv`. -/
def recvInto (buf : List UInt8) (res : Option (List UInt8)) : List UInt8 :=
  match res with
  | none => buf
  | some bytes => bytes ++ buf.drop bytes.length

/-- The callback made, with the bytes it is given from the buffer. -/
def Callback.event (cb : Callback) (msg : List UInt8) : Event :=
  match cb with
  | .connect h => .onClientConnect h
  | .data h n => .onReceiveClientData h (msg.take n)
  | .disconnect h => .onClientDisconnect h (.fail s!"Client {h} disconnected")

/-- A step of the server thread. -/
def serverStep (s : State) (a : Action) : Option State :=
  match s.pc, a with
  | .loopHead, .testStop => some { s with pc := if s.stop then .returned else .copyFds }
  | .copyFds, .copyFds => some { s with pc := .findMaxFd s.fds }
  | .findMaxFd readSet, .findMaxFd =>
      some { s with pc := .select readSet (TcpServer.findMaxFd s.sockfd s.clients) }
  | .select readSet maxfds, .select =>
      some { s with pc := .waiting readSet maxfds s.clients.conn, os := s.os.record (.select maxfds) }
  | .waiting readSet maxfds atSelect, .selectReturns ret ready =>
      -- failed or timed out: `continue`
      if ret ≤ 0 then some { s with pc := .loopHead }
      else some { s with pc := .forHead ⟨fun d => readSet d && ready d, maxfds, 0, atSelect⟩ }
  | .forHead r, .forStep =>
      if r.fd < r.maxfds then
        some { s with pc := if r.readSet r.fd then .lookup r else .forHead r.next
                      os := s.os.record (.fdIsset r.fd) }
      else some { s with pc := .loopHead }
  | .lookup r, .lookup =>
      if s.mutex.isSome then none
      else match s.clients.lookup r.fd with
        | some cl => some { s with pc := .recv r cl.conn }
        -- data on accept socket
        | none => some { s with pc := .accept r }
  | .recv r c, .recv res =>
      -- no more than the buffer holds
      if (MAX_PACKET_SIZE : ℤ) < numOfBytesReceived res then none
      else some { s with
        pc := if numOfBytesReceived res < 1 then .disconnected r c (numOfBytesReceived res)
          else .publish r (.data r.fd (numOfBytesReceived res).toNat)
        msg := recvInto s.msg res
        os := s.os.record (.recv r.fd (s.os.owner r.fd) res) }
  | .disconnected r c n, .disconnect =>
      if n = 0 then
        -- client closed connection
        some ({ s with pc := .deleting r, clients := s.clients.disconnect r.fd c }.goto .serverTask
          (.deleteClient r.fd))
      else some { s with pc := .forHead r.next, clients := s.clients.disconnect r.fd c }
  | .deleting r, .deleteReturns =>
      if (s.calls .serverTask).isIdle then some { s with pc := .publish r (.disconnect r.fd) } else none
  | .publish r cb, .publish =>
      some { s with pc := .callback r cb, os := s.os.record (cb.event s.msg) }
  | .callback r _, .callbackReturns =>
      if (s.calls .callback).isIdle then some { s with pc := .forHead r.next } else none
  | .accept r, .accept none =>
      some { s with pc := .forHead r.next, os := s.os.record (.accept r.fd none) }
  | .accept r, .accept (some (d, addr)) =>
      if s.os.Available d then
        some { s with pc := .emplace r d s.os.next, clientAddress := addr, os := s.os.accept r.fd d }
      else none
  | .emplace r d c, .emplace =>
      if s.mutex.isSome then none
      else some { s with
        pc := .fdSet r d
        clients := s.clients.emplace d
          ⟨inetNtop s.clientAddress.addr, d, s.clientAddress.port, true, c⟩
        os := s.os.record (.emplace d (decide (d ∉ s.clients))) }
  | .fdSet r d, .fdSet =>
      some { s with pc := .publish r (.connect d), fds := FD_SET d s.fds, os := s.os.record (.fdSet d) }
  | _, _ => none

/-- The call that `w` makes is inside a critical section and takes its next step. -/
def sectionStep (s : State) (w : Caller) (sec : Section) (a : Answer) : Option State :=
  match sec with
  | .deleteClose h d c => some { s with mutex := some (w, .deleteClr h d c), os := s.os.close d }
  | .deleteClr h d c => some { s with
      mutex := some (w, .deleteErase h c), fds := FD_CLR d s.fds, os := s.os.record (.fdClr d) }
  | .deleteErase h c =>
      some ({ s with mutex := none, clients := s.clients.erase h }.ret w (.deleteClient w h (some c)))
  | .bcast _ [] => some ({ s with mutex := none }.ret w (.sendBcast w .ok))
  | .bcast msg (h :: rest) =>
      match s.clients.lookup h with
      | none => none
      | some cl =>
          let (os, clientRet) := cl.sendMsg s.os msg a
          if clientRet.success then some { s with os := os, mutex := some (w, .bcast msg rest) }
          else some ({ s with os := os, mutex := none }.ret w (.sendBcast w clientRet))
  | .finishClose (h :: rest) =>
      match s.clients.lookup h with
      | none => none
      | some cl => some { s with os := s.os.close cl.sockfd, mutex := some (w, .finishClose rest) }
  | .finishClose [] =>
      some ({ s with
        os := s.os.closeValid s.sockfd
        sockfd := INVALID_SOCKET, clients := ∅, mutex := none }.ret w (.finishEnd w))

/-- `start` takes its next step. -/
def startStep (s : State) (w : Caller) (a : Answer) : List Instr → Option State
  | [] => none
  | i :: rest =>
      match i.op with
      | .watch => some ({ s with
          fds := FD_SET s.sockfd FD_ZERO, os := s.os.record (.fdSet s.sockfd) }.goto w (.start rest))
      | .thread =>
          if s.thread then some { s with aborted := true }
          else some ({ s with thread := true, pc := .loopHead }.ret w (.start .ok))
      | op =>
          if op.Admissible a s.os then
            let (e, os) := op.exec a s.toEndpoint s.os
            let s := { s with toEndpoint := e, os := os }
            if i.fails a then some (s.ret w (.start (.fail (i.msg a))))
            else some (s.goto w (.start rest))
          else none

/-- The call that `w` makes takes its next step. -/
def callStep (s : State) (w : Caller) (a : Answer) (order : List ClientHandle) : Option State :=
  match s.calls w with
  | .idle => none
  | .start is => startStep s w a is
  | .deleteClient h =>
      if s.mutex.isSome then none
      else match s.clients.lookup h with
        | some cl => some (s.enter w (.deleteClose h cl.sockfd cl.conn))
        | none => some (s.ret w (.deleteClient w h none))
  | .sendBcast msg =>
      if s.mutex.isNone ∧ order.Perm s.clients.keys then some (s.enter w (.bcast msg order)) else none
  | .sendClientMessage h msg =>
      if s.mutex.isSome then none
      else match s.clients.lookup h with
        | some cl => some (s.goto w (.send h cl msg))
        | none => some (s.ret w (.sendClientMessage w h (.fail s!"Error: Client {h} not found")))
  | .send h cl msg =>
      let (os, clientRet) := cl.sendMsg s.os msg a
      some ({ s with os := os }.ret w (.sendClientMessage w h clientRet))
  | .getClientInfo h out =>
      if s.mutex.isSome then none
      else match s.clients.lookup h with
        | some cl => some (s.ret w (.getClientInfo w h true ⟨cl.ip, cl.port, cl.isConnected⟩))
        | none => some (s.ret w (.getClientInfo w h false out))
  | .finish => some ({ s with stop := true, os := s.os.record (.finishBegin w) }.goto w .finishJoin)
  | .finishJoin =>
      if s.thread then
        match w, s.pc with
        | .app _, .returned => some ({ s with thread := false, os := s.os.record .joined }.goto w .finishLock)
        | .app _, _ => none
        -- `join()` on the calling thread itself throws, and the exception is caught
        | _, _ => some (s.goto w .finishLock)
      else some (s.goto w .finishLock)
  | .finishLock =>
      if s.mutex.isNone ∧ order.Perm s.clients.keys then some (s.enter w (.finishClose order)) else none
  | .locked =>
      match s.mutex with
      | some (w', sec) => if w' = w then sectionStep s w sec a else none
      | none => none

/-- `w` may call a method: the application at any time, a callback while it runs. -/
def mayCall (s : State) (w : Caller) : Bool :=
  (s.calls w).isIdle && match w, s.pc with
    | .app _, _ => true
    | .callback, .callback _ _ => true
    | _, _ => false

/-- A step of the machine. -/
def step (s : State) (a : Action) : Option State :=
  if s.aborted then none
  else match a with
    | .call w c => if mayCall s w then some (s.goto w c.begin) else none
    | .step w ans order => callStep s w ans order
    | a => serverStep s a

/-- The server. -/
def machine : Machine State Action := ⟨step⟩

/-- The actions of one call of `start`, the answers of the system given. -/
def startActions (port : UInt16) (answers : List Answer) : List Action :=
  .call (.app 0) (.start port) :: answers.map fun a => .step (.app 0) a []

/-- `s` is a state of the server right after one successful `start` on a fresh server. -/
def Started (s : State) : Prop :=
  ∃ options msg port answers, machine.run (fresh options msg) (startActions port answers) = some s ∧
    Event.start .ok ∈ s.os.log

end SocketsCpp.TcpServer
