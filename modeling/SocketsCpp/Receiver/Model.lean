import SocketsCpp.Setup
import SocketsCpp.Library.Machine

/-!
# The TCP client and the UDP socket

`TcpClient.h` and `UdpSocket.h` as machines. The two classes have one shape: a method
that sets the socket up and creates a receive thread, a receive thread that reads until it
is stopped, and `finish`. They differ in the instructions of the method, in `sendMsg`, and
in what `ReceiveTask` does with the result of `Recv`; `Kind` says which class it is.

* `Pc` — where the receive thread is in `ReceiveTask`.
* `CallPc` — where a call of a method is.
* `step` — the machine: one step of the receive thread, of a callback, or of a thread of the
  application.
-/

namespace SocketsCpp.Receiver

open SocketsCpp.Library

/-- The class. -/
inductive Kind where
  /-- `TcpClient`. -/
  | tcpClient
  /-- `UdpSocket`. -/
  | udpSocket
  deriving DecidableEq

/-- `MAX_PACKET_SIZE`: the length of the receive buffer. -/
def MAX_PACKET_SIZE : Kind → ℕ
  | .tcpClient => 65536
  | .udpSocket => 65507

/-! ### Where everybody is -/

/-- A callback with its arguments. -/
inductive Callback where
  /-- `publishServerMsg` or `publishUdpMsg`. -/
  | data (bytes : List UInt8)
  /-- `publishDisconnected(ret)`. -/
  | disconnect (ret : SocketRet)

/-- Where the receive thread is. -/
inductive Pc where
  /-- There is no receive thread yet. -/
  | none
  /-- At the test of `m_stop`. -/
  | loopHead
  /-- At the test of `m_fd`, in `UdpSocket`. -/
  | guard
  /-- At `FD_SET(m_sockfd, &fds)`. -/
  | fdSet
  /-- At the call of `Select`, `fds` holding `d`. -/
  | select (d : SOCKET)
  /-- In `Select`. -/
  | waiting (d : SOCKET)
  /-- At the test of `m_stop` after `Select` failed. -/
  | checkStop
  /-- At `FD_ISSET(m_sockfd, &fds)`, `fds` holding `d` if it is ready. -/
  | isset (d : SOCKET) (ready : Bool)
  /-- At the call of `Recv`. -/
  | recv
  /-- At `m_stop = true`, in `TcpClient`. -/
  | setStop (ret : SocketRet)
  /-- At a callback. -/
  | publish (cb : Callback)
  /-- In a callback. -/
  | callback (cb : Callback)
  /-- `ReceiveTask` has returned. -/
  | returned

/-- A call of a method. -/
inductive Call where
  /-- `TcpClient::connectTo(remoteIp, remotePort)`. -/
  | connectTo (remoteIp : String) (remotePort : UInt16)
  /-- `UdpSocket::startUnicast(localPort)`. -/
  | startUnicastLocal (localPort : UInt16)
  /-- `UdpSocket::startUnicast(remoteAddr, localPort, port)`. -/
  | startUnicast (remoteAddr : String) (localPort port : UInt16)
  /-- `UdpSocket::startMcast(mcastAddr, port, localIpAddr)`, and what the stack holds. -/
  | startMcast (mcastAddr : String) (port : UInt16) (localIpAddr : Option String) (stack : InAddr)
  /-- `sendMsg(msg, size)`. -/
  | sendMsg (msg : List UInt8)
  /-- `finish()`. -/
  | finish

/-- Whether a method belongs to the class. -/
def Call.belongs : Call → Kind → Bool
  | .connectTo _ _, k => k = .tcpClient
  | .startUnicastLocal _, k | .startUnicast _ _ _, k | .startMcast _ _ _ _, k => k = .udpSocket
  | .sendMsg _, _ | .finish, _ => true

/-- Where a call of a method is. -/
inductive CallPc where
  /-- No call. -/
  | idle
  /-- In a method that sets the socket up, with instructions left. -/
  | start (rest : List Instr)
  /-- At the send in `sendMsg`. -/
  | sendMsg (msg : List UInt8)
  /-- At `m_stop.store(true)` in `finish`. -/
  | finish
  /-- At `m_thread.join()` in `finish`. -/
  | finishJoin
  /-- At the `Close` in `finish`. -/
  | finishClose
  /-- At `m_sockfd = INVALID_SOCKET` in `finish`. -/
  | finishReset

/-- The first step of a call. -/
def Call.begin : Call → CallPc
  | .connectTo remoteIp remotePort => .start (TcpClient.connectScript remoteIp remotePort)
  | .startUnicastLocal localPort => .start (UdpSocket.startUnicastLocalScript localPort)
  | .startUnicast remoteAddr localPort port =>
      .start (UdpSocket.startUnicastScript remoteAddr localPort port)
  | .startMcast mcastAddr port localIpAddr stack =>
      .start (UdpSocket.startMcastScript mcastAddr port localIpAddr stack)
  | .sendMsg msg => .sendMsg msg
  | .finish => .finish

/-- No call is being made. -/
def CallPc.isIdle : CallPc → Bool
  | .idle => true
  | _ => false

/-- The object with everything that acts on it. -/
structure State extends Endpoint where
  /-- Where the receive thread is. -/
  pc : Pc := .none
  /-- Where the calls of the methods are. -/
  calls : Caller → CallPc := fun _ => .idle
  /-- The operating system. -/
  os : Os := {}
  /-- `std::terminate` was called. -/
  aborted : Bool := false

/-- An object just constructed. -/
def fresh (options : SocketOpt) : State := { sockOptions := options }

namespace State

variable (s : State)

/-- The call that `w` makes moves on. -/
@[simp] def goto (w : Caller) (p : CallPc) : State := { s with calls := Function.update s.calls w p }

/-- The call that `w` makes returns. -/
@[simp] def ret (w : Caller) (e : Event) : State :=
  { s with calls := Function.update s.calls w .idle, os := s.os.record e }

end State

/-! ### The steps -/

/-- A step of some thread. -/
inductive Action where
  /-- `while (!m_stop.load())`. -/
  | testStop
  /-- `if (m_fd != INVALID_SOCKET)`. -/
  | guard
  /-- `FD_ZERO(&fds); FD_SET(m_sockfd, &fds)`. -/
  | fdSet
  /-- `Select` is called. -/
  | select
  /-- `Select` returns `ret`, and the descriptor is ready or not. -/
  | selectReturns (ret : ℤ) (ready : Bool)
  /-- `if (m_stop)`. -/
  | checkStop
  /-- `FD_ISSET(m_sockfd, &fds)`. -/
  | isset
  /-- `Recv` returns a negative value, setting `errno`, or bytes. -/
  | recv (res : Option (List UInt8)) (errno : ℤ)
  /-- `m_stop = true`. -/
  | setStop
  /-- A callback begins. -/
  | publish
  /-- A callback returns. -/
  | callbackReturns
  /-- `w` calls a method. -/
  | call (w : Caller) (c : Call)
  /-- The call that `w` makes takes its next step, `a` being the answer of the system. -/
  | step (w : Caller) (a : Answer)

/-- What `onDisconnect` is given when `Recv` returned less than `1`. -/
def disconnectRet (res : Option (List UInt8)) (errno : ℤ) : SocketRet :=
  match res with
  | none => .fail s!"Error: recv() failed errno {errno}"
  | some _ => .fail "Server closed connection"

/-- Where `ReceiveTask` goes on after `Recv`. -/
def afterRecv (k : Kind) (res : Option (List UInt8)) (errno : ℤ) : Pc :=
  match k, res with
  | .tcpClient, some (b :: bs) => .publish (.data (b :: bs))
  | .tcpClient, res => .setStop (disconnectRet res errno)
  | .udpSocket, some bytes => .publish (.data bytes)
  | .udpSocket, none => .loopHead

/-- The callback made. -/
def Callback.event : Callback → Event
  | .data bytes => .onReceiveData bytes
  | .disconnect ret => .onDisconnect ret

/-- Where `ReceiveTask` goes on after a callback. -/
def Callback.next : Callback → Pc
  | .data _ => .loopHead
  | .disconnect _ => .returned

/-- A step of the receive thread. -/
def receiveStep (k : Kind) (s : State) (a : Action) : Option State :=
  match s.pc, a with
  | .loopHead, .testStop =>
      some { s with pc := if s.stop then .returned else if k = .tcpClient then .fdSet else .guard }
  | .guard, .guard => some { s with pc := if s.sockfd ≠ INVALID_SOCKET then .fdSet else .loopHead }
  | .fdSet, .fdSet => some { s with pc := .select s.sockfd, os := s.os.record (.fdSet s.sockfd) }
  | .select d, .select => some { s with pc := .waiting d, os := s.os.record (.select (s.sockfd + 1)) }
  | .waiting d, .selectReturns ret ready =>
      some { s with pc := if ret ≤ 0 then .checkStop else .isset d ready }
  | .checkStop, .checkStop => some { s with pc := if s.stop then .returned else .loopHead }
  | .isset d ready, .isset => some { s with
      pc := if ready ∧ s.sockfd = d then .recv else .loopHead, os := s.os.record (.fdIsset s.sockfd) }
  | .recv, .recv res errno =>
      if MAX_PACKET_SIZE k < (res.getD []).length then none
      else some { s with
        pc := afterRecv k res errno, os := s.os.record (.recv s.sockfd (s.os.owner s.sockfd) res) }
  | .setStop ret, .setStop =>
      some { s with stop := true, pc := .publish (.disconnect ret), os := s.os.record .connectionEnd }
  | .publish cb, .publish => some { s with pc := .callback cb, os := s.os.record cb.event }
  | .callback cb, .callbackReturns =>
      if (s.calls .callback).isIdle then some { s with pc := cb.next } else none
  | _, _ => none

/-- `sendMsg`, `a` being the answer to the send. -/
def sendMsg (k : Kind) (s : State) (msg : List UInt8) (a : Answer) : Os × SocketRet :=
  match k with
  | .tcpClient =>
      let os := s.os.record (.send s.sockfd (s.os.owner s.sockfd) msg a.ret)
      if a.ret < 0 then (os, .fail (errnoMsg "Error: send() failed errno " a))
      else if a.ret < msg.length then
        (os, .fail s!"Error: Only {a.ret} bytes out of {msg.length} sent to client")
      else (os, .ok)
  | .udpSocket =>
      -- if a destination is specified
      if s.addr.port ≠ 0 then
        let os := s.os.record (.sendTo s.sockfd msg s.addr a.ret)
        if a.ret < 0 then (os, .fail (errnoMsg "Error: sendto() failed: " a))
        else if a.ret < msg.length then
          (os, .fail s!"Only {a.ret} bytes of {msg.length} was sent to client")
        else (os, .ok)
      else (s.os, .ok)

/-- A method that sets the socket up takes its next step. -/
def startStep (s : State) (w : Caller) (a : Answer) : List Instr → Option State
  | [] => none
  | i :: rest =>
      if i.op = .thread then
        if s.thread then some { s with aborted := true }
        else some ({ s with thread := true, pc := .loopHead }.ret w (.start .ok))
      else if i.op.Admissible a s.os then
        let (e, os) := i.op.exec a s.toEndpoint s.os
        let s := { s with toEndpoint := e, os := os }
        if i.fails a then some (s.ret w (.start (.fail (i.msg a))))
        else some (s.goto w (.start rest))
      else none

/-- The call that `w` makes takes its next step. -/
def callStep (k : Kind) (s : State) (w : Caller) (a : Answer) : Option State :=
  match s.calls w with
  | .idle => none
  | .start is => startStep s w a is
  | .sendMsg msg =>
      let (os, ret) := sendMsg k s msg a
      some ({ s with os := os }.ret w (.sendMsg ret))
  | .finish => some ({ s with stop := true, os := s.os.record (.finishBegin w) }.goto w .finishJoin)
  | .finishJoin =>
      if s.thread then
        match w, s.pc with
        | .app _, .returned => some ({ s with thread := false, os := s.os.record .joined }.goto w .finishClose)
        | .app _, _ => none
        -- `join()` on the calling thread itself throws, and the exception is caught
        | _, _ => some (s.goto w .finishClose)
      else some (s.goto w .finishClose)
  | .finishClose => some ({ s with os := s.os.closeValid s.sockfd }.goto w .finishReset)
  | .finishReset => some ({ s with sockfd := INVALID_SOCKET }.ret w (.finishEnd w))

/-- `w` may call a method: the application at any time, a callback while it runs. -/
def mayCall (s : State) (w : Caller) : Bool :=
  (s.calls w).isIdle && match w, s.pc with
    | .app _, _ => true
    | .callback, .callback _ => true
    | _, _ => false

/-- A step of the machine. -/
def step (k : Kind) (s : State) (a : Action) : Option State :=
  if s.aborted then none
  else match a with
    | .call w c => if mayCall s w ∧ c.belongs k then some (s.goto w c.begin) else none
    | .step w ans => callStep k s w ans
    | a => receiveStep k s a

/-- The class as a machine. -/
def machine (k : Kind) : Machine State Action := ⟨step k⟩

end SocketsCpp.Receiver
