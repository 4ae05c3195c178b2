import SocketsCpp.SocketCore
import SocketsCpp.Library.Log

/-!
# Setting a socket up

`TcpServer::start`, `TcpClient::connectTo`, `UdpSocket::startUnicast` and
`UdpSocket::startMcast` have one shape: calls made one after the other, each
followed by a test of what it returned, the first failure ending the method with its
message. Such a method is kept here as the list of its instructions (`Instr`): an
operation on the members of the object (`Endpoint`), the test, and the message.
The classes run the instructions one at a time, so that other threads may act between
any two of them.

The last instruction, `m_thread = std::thread(…)`, and the instruction with which the
server sets up its descriptor set belong to the class and are run there.
-/

namespace SocketsCpp

open SocketsCpp.Library

/-- The calls made to set a socket up. -/
def Event.setup : Event → Bool
  | .initializeCore _ | .socket _ _ | .setSockOpt _ _ _ | .bind _ _ _ | .listen _ _ _ | .connect _ _ _
  | .getAddrInfo _ _ | .fdSet _ => true
  | _ => false

/-- What the system answers one call. -/
structure Answer where
  /-- The value returned. -/
  ret : ℤ := 0
  /-- `errno` after the call. -/
  errno : ℤ := 0
  /-- The first address found by `GetAddrInfo`, if any. -/
  addr : Option InAddr := none

/-- The members that the three classes share. -/
structure Endpoint where
  /-- `m_sockfd`; `m_fd` of `UdpSocket`. -/
  sockfd : SOCKET := INVALID_SOCKET
  /-- `m_serverAddress` of `TcpServer`, `m_server` of `TcpClient`, `m_sockaddr` of
  `UdpSocket`. -/
  addr : SockAddrIn := {}
  /-- `m_stop`. -/
  stop : Bool := false
  /-- Whether `m_thread` is joinable. -/
  thread : Bool := false
  /-- `m_sockOptions`. -/
  sockOptions : SocketOpt := {}

/-- An operation of a method that sets a socket up. -/
inductive Op where
  /-- `m_sockfd = INVALID_SOCKET`. -/
  | resetFd
  /-- `m_socketCore.Initialize()`. -/
  | initializeCore
  /-- `m_sockfd = m_socketCore.Socket(…)`. -/
  | socket
  /-- `SetSockOpt(m_sockfd, SOL_SOCKET, SO_REUSEADDR, …)`. -/
  | setReuseAddr
  /-- `SetSockOpt(m_sockfd, SOL_SOCKET, SO_RCVBUF, …)`. -/
  | setRcvBuf
  /-- `SetSockOpt(m_sockfd, SOL_SOCKET, SO_SNDBUF, …)`. -/
  | setSndBuf
  /-- `memset(&m_sockaddr, 0, …)`. -/
  | zeroAddr
  /-- `m_addrLookup.lookupHost(host, addr)`. -/
  | lookupHost (host : String)
  /-- `addr.sin_port = htons(port)`. -/
  | setPort (port : UInt16)
  /-- The server address is the listen address, if that is a valid address. -/
  | setListenAddr (port : UInt16)
  /-- `Bind(m_sockfd, &m_serverAddress)`. -/
  | bindAddr
  /-- `Bind(m_fd, &localAddr)`, with the listen address, if that is a valid address. -/
  | bindListenAddr (port : UInt16)
  /-- `Bind(m_fd, &localAddr)`, with `INADDR_ANY`. -/
  | bindAny (port : UInt16)
  /-- The multicast group address is stored for `sendMsg`. -/
  | setGroup (mcastAddr : String) (port : UInt16)
  /-- `SetSockOpt(m_fd, IPPROTO_IP, IP_ADD_MEMBERSHIP, &mreq)`. -/
  | addMembership (mcastAddr : String) (localIpAddr : Option String)
  /-- `SetSockOpt(m_fd, IPPROTO_IP, IP_MULTICAST_IF, &addr)`, `stack` being what the
  uninitialised `struct in_addr addr` holds. -/
  | multicastIf (localIpAddr : Option String) (stack : InAddr)
  /-- `Listen(m_sockfd, backlog)`. -/
  | listen (backlog : ℤ)
  /-- `Connect(m_sockfd, &m_server)`. -/
  | connect
  /-- `FD_ZERO(&m_fds); FD_SET(m_sockfd, &m_fds)`. -/
  | watch
  /-- `m_thread = std::thread(…)`, and the return that follows. -/
  | thread
  deriving DecidableEq

/-- `AddrLookup::lookupHost`: its result, and the address it leaves in `addr`. -/
def lookupHost (a : Answer) (addr : InAddr) : ℤ × InAddr :=
  if a.ret ≠ 0 then (-1, addr)
  else match a.addr with
    | some x => (a.ret, x)
    | none => (-1, addr)

namespace Op

/-- What an operation does to the members and to the system, `a` being the answer to
the call it makes. -/
def exec (op : Op) (a : Answer) (e : Endpoint) (os : Os) : Endpoint × Os :=
  match op with
  | .resetFd => ({ e with sockfd := INVALID_SOCKET }, os)
  | .initializeCore => (e, os.record (.initializeCore a.ret))
  | .socket => ({ e with sockfd := a.ret }, os.socket a.ret)
  | .setReuseAddr => (e, os.record (.setSockOpt e.sockfd .reuseAddr a.ret))
  | .setRcvBuf => (e, os.record (.setSockOpt e.sockfd (.rcvBuf e.sockOptions.rxBufSize) a.ret))
  | .setSndBuf => (e, os.record (.setSockOpt e.sockfd (.sndBuf e.sockOptions.txBufSize) a.ret))
  | .zeroAddr => ({ e with addr := {} }, os)
  | .lookupHost host =>
      ({ e with addr := { e.addr with addr := (SocketsCpp.lookupHost a e.addr.addr).2 } },
        os.record (.getAddrInfo host a.ret))
  | .setPort port => ({ e with addr := { e.addr with port := port } }, os)
  | .setListenAddr port =>
      ({ e with addr := ⟨(inetPton (cStr e.sockOptions.listenAddr)).getD INADDR_ANY, port⟩ }, os)
  | .bindAddr => (e, os.record (.bind e.sockfd e.addr a.ret))
  | .bindListenAddr port =>
      (e, os.record (.bind e.sockfd ⟨(inetPton (cStr e.sockOptions.listenAddr)).getD INADDR_ANY, port⟩ a.ret))
  | .bindAny port => (e, os.record (.bind e.sockfd ⟨INADDR_ANY, port⟩ a.ret))
  | .setGroup mcastAddr port =>
      ({ e with addr := ⟨(inetPton mcastAddr).getD INADDR_ANY, port⟩ }, os)
  | .addMembership mcastAddr localIpAddr =>
      let iface := match localIpAddr with
        | some ip => (inetPton ip).getD INADDR_ANY
        | none => INADDR_ANY
      (e, os.record (.setSockOpt e.sockfd
        (.addMembership ((inetPton mcastAddr).getD INADDR_ANY) iface) a.ret))
  | .multicastIf localIpAddr stack =>
      -- without `localIpAddr` the code writes to `mreq` again and not to `addr`
      let iface := match localIpAddr with
        | some ip => (inetPton ip).getD stack
        | none => stack
      (e, os.record (.setSockOpt e.sockfd (.multicastIf iface) a.ret))
  | .listen backlog => (e, os.record (.listen e.sockfd backlog a.ret))
  | .connect => (e, os.record (.connect e.sockfd e.addr a.ret))
  | .watch => (e, os)
  | .thread => (e, os)

/-- The answers that the system can give: `Socket` returns `-1` or a descriptor that
is not open. -/
def Admissible (op : Op) (a : Answer) (os : Os) : Prop :=
  op = .socket → a.ret = INVALID_SOCKET ∨ os.Available a.ret

instance (op : Op) (a : Answer) (os : Os) : Decidable (op.Admissible a os) :=
  inferInstanceAs (Decidable (_ → _))

/-- The operations that store to `m_sockfd`. -/
def storesFd : Op → Bool
  | .resetFd | .socket => true
  | _ => false

theorem exec_stop (op : Op) (a : Answer) (e : Endpoint) (os : Os) :
    (op.exec a e os).1.stop = e.stop := by
  cases op <;> rfl

theorem exec_thread (op : Op) (a : Answer) (e : Endpoint) (os : Os) :
    (op.exec a e os).1.thread = e.thread := by
  cases op <;> rfl

theorem exec_sockfd {op : Op} (h : op.storesFd = false) (a : Answer) (e : Endpoint) (os : Os) :
    (op.exec a e os).1.sockfd = e.sockfd := by
  cases op <;> first | rfl | cases h

theorem exec_owner {op : Op} (h : op ≠ .socket) (a : Answer) (e : Endpoint) (os : Os) :
    (op.exec a e os).2.owner = os.owner := by
  cases op <;> first | rfl | exact absurd rfl h

theorem exec_next {op : Op} (h : op ≠ .socket) (a : Answer) (e : Endpoint) (os : Os) :
    (op.exec a e os).2.next = os.next := by
  cases op <;> first | rfl | exact absurd rfl h

/-- The call that an operation makes. -/
inductive Makes : Op → Event → Prop where
  | initializeCore {ret : ℤ} : Makes .initializeCore (.initializeCore ret)
  | socket {d : SOCKET} {c : Option ConnId} : Makes .socket (.socket d c)
  | setReuseAddr {d : SOCKET} {ret : ℤ} : Makes .setReuseAddr (.setSockOpt d .reuseAddr ret)
  | setRcvBuf {d : SOCKET} {n ret : ℤ} : Makes .setRcvBuf (.setSockOpt d (.rcvBuf n) ret)
  | setSndBuf {d : SOCKET} {n ret : ℤ} : Makes .setSndBuf (.setSockOpt d (.sndBuf n) ret)
  | lookupHost {host : String} {ret : ℤ} : Makes (.lookupHost host) (.getAddrInfo host ret)
  | bindAddr {d : SOCKET} {addr : SockAddrIn} {ret : ℤ} : Makes .bindAddr (.bind d addr ret)
  | bindListenAddr {port : UInt16} {d : SOCKET} {addr : SockAddrIn} {ret : ℤ} :
      Makes (.bindListenAddr port) (.bind d addr ret)
  | bindAny {port : UInt16} {d : SOCKET} {addr : SockAddrIn} {ret : ℤ} :
      Makes (.bindAny port) (.bind d addr ret)
  | addMembership {mcastAddr : String} {localIpAddr : Option String} {d : SOCKET} {group iface : InAddr}
      {ret : ℤ} : Makes (.addMembership mcastAddr localIpAddr) (.setSockOpt d (.addMembership group iface) ret)
  | multicastIf {localIpAddr : Option String} {stack : InAddr} {d : SOCKET} {iface : InAddr} {ret : ℤ} :
      Makes (.multicastIf localIpAddr stack) (.setSockOpt d (.multicastIf iface) ret)
  | listen {backlog : ℤ} {d : SOCKET} {ret : ℤ} : Makes (.listen backlog) (.listen d backlog ret)
  | connect {d : SOCKET} {addr : SockAddrIn} {ret : ℤ} : Makes .connect (.connect d addr ret)

/-- An operation logs the call that it makes, and nothing else. -/
theorem exec_grows {op : Op} {q : Event → Bool} (h : ∀ ev, op.Makes ev → q ev = true) (a : Answer)
    (e : Endpoint) (os : Os) : Grows q os.log (op.exec a e os).2.log := by
  cases op with
  | socket =>
    simp only [exec, Os.socket]
    split <;> exact .one (h _ .socket)
  | resetFd | zeroAddr | setPort | setListenAddr | setGroup | watch | thread => exact .refl
  | _ => exact .one (h _ (by constructor))

/-- What a method that sets a socket up logs. -/
theorem exec_log (op : Op) (a : Answer) (e : Endpoint) (os : Os) :
    Grows Event.setup os.log (op.exec a e os).2.log :=
  exec_grows (fun _ hm => by cases hm <;> rfl) a e os

/-- The calls of a method that sets a socket up leave the descriptors in order. -/
theorem exec_sound {op : Op} {a : Answer} (e : Endpoint) {os : Os} (h : os.Sound)
    (ha : op.Admissible a os) : (op.exec a e os).2.Sound := by
  cases op with
  | socket => exact h.socket (ha rfl)
  | resetFd | zeroAddr | setPort | setListenAddr | setGroup | watch | thread => exact h
  | _ => exact h.record rfl

end Op

/-- An instruction: an operation, the test of the answer, and the message with which the
method fails when the test does. -/
structure Instr where
  /-- The operation. -/
  op : Op
  /-- The test. -/
  fails : Answer → Bool := fun _ => false
  /-- The message. -/
  msg : Answer → String := fun _ => ""

/-- The test `result < 0`. -/
def isNegative (a : Answer) : Bool := a.ret < 0

/-- The test `result == -1`. -/
def isMinusOne (a : Answer) : Bool := a.ret = -1

/-- The test `m_sockfd == INVALID_SOCKET` after `Socket`. -/
def isInvalid (a : Answer) : Bool := a.ret = INVALID_SOCKET

/-- The test `result != 0` after `Initialize`. -/
def isNonzero (a : Answer) : Bool := a.ret ≠ 0

/-- The test `lookupHost(…) != 0`. -/
def lookupFails (a : Answer) : Bool := (lookupHost a INADDR_ANY).1 ≠ 0

/-- `Initialize()`, with the message of every method but `connectTo`. -/
def initializeInstr : Instr :=
  ⟨.initializeCore, isNonzero, fun a => s!"Error: Socket initialization failed: {a.ret}"⟩

/-- The message of a failed call, ending in `errno`. -/
def errnoMsg (text : String) (a : Answer) : String := s!"{text}{a.errno}"

/-- `TcpServer::start(port)`. -/
def TcpServer.startScript (port : UInt16) : List Instr :=
  [initializeInstr,
   ⟨.socket, isInvalid, errnoMsg "Error: Socket creation failed errno"⟩,
   ⟨.setReuseAddr, isNegative, errnoMsg "Error: SetSockOpt(SO_REUSEADDR) failed: errno "⟩,
   ⟨.setRcvBuf, isNegative, errnoMsg "Error: SetSockOpt(SO_RCVBUF) failed: errno "⟩,
   ⟨.setSndBuf, isNegative, errnoMsg "Error: SetSockOpt(SO_SNDBUF) failed: errno "⟩,
   { op := .setListenAddr port },
   ⟨.bindAddr, isMinusOne, errnoMsg "Error: errno "⟩,
   ⟨.listen 5, isMinusOne, errnoMsg "Error: listen() failed errno "⟩,
   { op := .watch },
   { op := .thread }]

/-- `TcpClient::connectTo(remoteIp, remotePort)`. -/
def TcpClient.connectScript (remoteIp : String) (remotePort : UInt16) : List Instr :=
  [{ op := .resetFd },
   ⟨.initializeCore, isNonzero, fun a => s!"Error: Socket initializatio failed: {a.ret}"⟩,
   ⟨.socket, isInvalid, errnoMsg "Error: Failed to create socket: errno "⟩,
   ⟨.setRcvBuf, isNegative, errnoMsg "Error: setsockopt(SO_RCVBUF) failed: errno "⟩,
   ⟨.setSndBuf, isNegative, errnoMsg "Error: setsockopt(SO_SNDBUF) failed: errno "⟩,
   ⟨.lookupHost remoteIp, lookupFails, fun _ => s!"Failed to resolve hostname {remoteIp}"⟩,
   { op := .setPort remotePort },
   ⟨.connect, isMinusOne, errnoMsg "Error: connect() failed errno "⟩,
   { op := .thread }]

/-- `Socket` and the socket options, as both UDP methods begin. -/
def UdpSocket.openScript : List Instr :=
  [initializeInstr,
   ⟨.socket, isInvalid, errnoMsg "Error: socket() failed: errno "⟩,
   ⟨.setReuseAddr, isNegative, errnoMsg "Error: setsockopt(SO_REUSEADDR) failed: errno "⟩,
   ⟨.setRcvBuf, isNegative, errnoMsg "Error: setsockopt(SO_RCVBUF) failed: errno "⟩,
   ⟨.setSndBuf, isNegative, errnoMsg "Error: setsockopt(SO_SNDBUF) failed: errno "⟩]

/-- `UdpSocket::startUnicast(localPort)`. -/
def UdpSocket.startUnicastLocalScript (localPort : UInt16) : List Instr :=
  openScript ++
  [⟨.bindListenAddr localPort, isNegative, errnoMsg "Error: bind() failed: errno "⟩,
   { op := .thread }]

/-- `UdpSocket::startUnicast(remoteAddr, localPort, port)`. -/
def UdpSocket.startUnicastScript (remoteAddr : String) (localPort port : UInt16) : List Instr :=
  [initializeInstr,
   { op := .zeroAddr },
   ⟨.lookupHost remoteAddr, lookupFails, fun _ => s!"Failed to resolve hostname {remoteAddr}"⟩,
   { op := .setPort port }] ++
  startUnicastLocalScript localPort

/-- `UdpSocket::startMcast(mcastAddr, port, localIpAddr)`. -/
def UdpSocket.startMcastScript (mcastAddr : String) (port : UInt16) (localIpAddr : Option String)
    (stack : InAddr) : List Instr :=
  openScript ++
  [⟨.bindAny port, isNegative, errnoMsg "Error: bind() failed: errno "⟩,
   { op := .setGroup mcastAddr port },
   ⟨.addMembership mcastAddr localIpAddr, isNegative,
     errnoMsg "Error: setsockopt(IP_ADD_MEMBERSHIP) failed: errno "⟩,
   ⟨.multicastIf localIpAddr stack, isNegative,
     errnoMsg "Error: setsockopt(IP_MULTICAST_IF) failed: errno "⟩,
   { op := .thread }]

/-! ### The rest of a method -/

/-- `P` holds of each instruction with the instructions that follow it. -/
def Tails (P : Instr → List Instr → Prop) : List Instr → Prop
  | [] => True
  | i :: rest => P i rest ∧ Tails P rest

theorem Tails.of_suffix {P : Instr → List Instr → Prop} {is rest : List Instr} {i : Instr}
    (h : Tails P is) (hs : i :: rest <:+ is) : P i rest := by
  induction is with
  | nil => simp at hs
  | cons j is ih =>
    rcases List.suffix_cons_iff.mp hs with heq | hs
    · obtain ⟨rfl, rfl⟩ := List.cons.inj heq
      exact h.1
    · exact ih h.2 hs

/-! ### Where the descriptor is -/

/-- Instructions with `Socket` among them: it is tested, no thread is created before it, and nothing
is stored to `m_sockfd` after it. -/
def Opens : List Instr → Prop
  | [] => False
  | i :: rest =>
      (i.op = .socket ∧ i.fails = isInvalid ∧ ∀ j ∈ rest, j.op.storesFd = false) ∨
        (i.op ≠ .socket ∧ i.op ≠ .thread ∧ i.op ≠ .watch ∧ Opens rest)

theorem opens_startScript (port : UInt16) : Opens (TcpServer.startScript port) := by
  simp [Opens, TcpServer.startScript, initializeInstr, Op.storesFd]

theorem opens_connectScript (remoteIp : String) (remotePort : UInt16) :
    Opens (TcpClient.connectScript remoteIp remotePort) := by
  simp [Opens, TcpClient.connectScript, Op.storesFd]

theorem opens_startUnicastLocalScript (localPort : UInt16) :
    Opens (UdpSocket.startUnicastLocalScript localPort) := by
  simp [Opens, UdpSocket.startUnicastLocalScript, UdpSocket.openScript, initializeInstr, Op.storesFd]

theorem opens_startUnicastScript (remoteAddr : String) (localPort port : UInt16) :
    Opens (UdpSocket.startUnicastScript remoteAddr localPort port) := by
  simp [Opens, UdpSocket.startUnicastScript, initializeInstr, opens_startUnicastLocalScript]

theorem opens_startMcastScript (mcastAddr : String) (port : UInt16) (localIpAddr : Option String)
    (stack : InAddr) : Opens (UdpSocket.startMcastScript mcastAddr port localIpAddr stack) := by
  simp [Opens, UdpSocket.startMcastScript, UdpSocket.openScript, initializeInstr, Op.storesFd]

/-- With the instructions `rest` left, `Socket` is still to be called, or `m_sockfd` is the descriptor
that it returned. -/
def Holding (rest : List Instr) (sockfd : SOCKET) : Prop :=
  Opens rest ∨ ((∀ i ∈ rest, i.op.storesFd = false) ∧ 0 ≤ sockfd)

section

variable {i : Instr} {rest : List Instr}

/-- An instruction that succeeds. -/
theorem Holding.next {a : Answer} {e : Endpoint} {os : Os} (h : Holding (i :: rest) e.sockfd)
    (ha : i.op.Admissible a os) (hf : i.fails a = false) :
    Holding rest (i.op.exec a e os).1.sockfd := by
  rcases h with (⟨hop, htest, hrest⟩ | ⟨-, -, -, hrest⟩) | ⟨hstore, hfd⟩
  · have hret : a.ret ≠ INVALID_SOCKET := by simpa [htest, isInvalid] using hf
    refine .inr ⟨hrest, ?_⟩
    rw [hop]
    exact ((ha hop).resolve_left hret).1
  · exact .inl hrest
  · refine .inr ⟨fun j hj => hstore j (List.mem_cons_of_mem _ hj), ?_⟩
    rwa [Op.exec_sockfd (hstore i List.mem_cons_self)]

/-- The descriptor set is set up, and the thread created, with a descriptor. -/
theorem Holding.nonneg {d : SOCKET} (h : Holding (i :: rest) d) (hi : i.op = .thread ∨ i.op = .watch) :
    0 ≤ d := by
  rcases h with (⟨hop, -⟩ | ⟨-, hthread, hwatch, -⟩) | ⟨-, hfd⟩
  · rw [hop] at hi
    rcases hi with hi | hi <;> cases hi
  · exact absurd hi (not_or.mpr ⟨hthread, hwatch⟩)
  · exact hfd

/-- The descriptor set is set up. -/
theorem Holding.tail {d : SOCKET} (h : Holding (i :: rest) d) (hi : i.op = .thread ∨ i.op = .watch) :
    Holding rest d := by
  have hfd := h.nonneg hi
  rcases h with (⟨hop, -⟩ | ⟨-, hthread, hwatch, -⟩) | ⟨hstore, -⟩
  · rw [hop] at hi
    rcases hi with hi | hi <;> cases hi
  · exact absurd hi (not_or.mpr ⟨hthread, hwatch⟩)
  · exact .inr ⟨fun j hj => hstore j (List.mem_cons_of_mem _ hj), hfd⟩

end

end SocketsCpp
