import SocketsCpp.Listening
import SocketsCpp.Options

/-!
# How the example programs set their sockets up

Each of the four programs reads its options, and makes an object of its own, whose constructor sets a socket up
with them: `ServerApp` listens, `ClientApp` connects, `UnicastApp` and `McastApp` receive and send datagrams.

* `Spot` — what the calls of a method say of addresses.
* `Op.say` — what an operation does to the address that is kept, and to what was said; `result_say`: the
  instructions of a method do nothing else to these.
* `startScript_says` and the lemmas after it — the methods that set a socket up, if they report success.
* `ServerApp.options`, `ClientApp.options`, `UnicastApp.options`, `McastApp.options` — the options.
* `set_up` — the sockets are set up as the command lines say.

What is printed is left out, and a pointer that is null is no address. `getopt` and `unsigned long` are those of a
build on Windows (`ULONG_MAX`); the command lines in `set_up` hold options with their arguments and ports up to
65535, which any other `getopt` reads alike.
-/

namespace SocketsCpp

open SocketsCpp.Library

/-! ### What a method says of addresses -/

/-- A call that is given an address. -/
inductive Spot where
  /-- `GetAddrInfo`. -/
  | lookup (host : String)
  /-- `Bind`. -/
  | bind (addr : SockAddrIn)
  /-- `Connect`. -/
  | connect (addr : SockAddrIn)
  /-- `IP_ADD_MEMBERSHIP`. -/
  | join (group interface : InAddr)
  /-- `IP_MULTICAST_IF`. -/
  | sendVia (interface : InAddr)
  deriving DecidableEq

/-- What a call says of addresses. -/
def Event.spot : Event → Option Spot
  | .getAddrInfo host _ => some (.lookup host)
  | .bind _ addr _ => some (.bind addr)
  | .connect _ addr _ => some (.connect addr)
  | .setSockOpt _ (.addMembership group interface) _ => some (.join group interface)
  | .setSockOpt _ (.multicastIf interface) _ => some (.sendVia interface)
  | _ => none

/-- What was said of addresses. -/
def Os.spots (os : Os) : List Spot := os.log.filterMap Event.spot

/-- `m_serverAddress`, `m_server` or `m_sockaddr`, and what was said of addresses. -/
abbrev Said := SockAddrIn × List Spot

/-- The address that `m_listenAddr` gives. -/
def SocketOpt.listensAt (opts : SocketOpt) (port : UInt16) : SockAddrIn :=
  ⟨(inetPton (cStr opts.listenAddr)).getD INADDR_ANY, port⟩

/-- The interface of `imr_interface`: a string that is no address counts as `INADDR_ANY`. -/
def joinsAt : Option String → InAddr
  | some localIpAddr => (inetPton localIpAddr).getD INADDR_ANY
  | none => INADDR_ANY

/-- The interface of `IP_MULTICAST_IF`: without an address it is what the stack holds. -/
def sendsVia (stack : InAddr) : Option String → InAddr
  | some localIpAddr => (inetPton localIpAddr).getD stack
  | none => stack

/-- What an operation does to the address, and what it says. -/
def Op.say (opts : SocketOpt) (op : Op) (a : Answer) (x : Said) : Said :=
  match op with
  | .zeroAddr => ({}, x.2)
  | .lookupHost host => ({ x.1 with addr := (SocketsCpp.lookupHost a x.1.addr).2 }, x.2 ++ [.lookup host])
  | .setPort port => ({ x.1 with port := port }, x.2)
  | .setListenAddr port => (opts.listensAt port, x.2)
  | .setGroup mcastAddr port => (⟨(inetPton mcastAddr).getD INADDR_ANY, port⟩, x.2)
  | .bindAddr => (x.1, x.2 ++ [.bind x.1])
  | .bindListenAddr port => (x.1, x.2 ++ [.bind (opts.listensAt port)])
  | .bindAny port => (x.1, x.2 ++ [.bind ⟨INADDR_ANY, port⟩])
  | .addMembership mcastAddr localIpAddr =>
      (x.1, x.2 ++ [.join ((inetPton mcastAddr).getD INADDR_ANY) (joinsAt localIpAddr)])
  | .multicastIf localIpAddr stack => (x.1, x.2 ++ [.sendVia (sendsVia stack localIpAddr)])
  | .connect => (x.1, x.2 ++ [.connect x.1])
  | .resetFd | .initializeCore | .socket | .setReuseAddr | .setRcvBuf | .setSndBuf | .listen _ | .watch | .thread => x

@[simp]
theorem Os.spots_record (os : Os) (e : Event) : (os.record e).spots = os.spots ++ e.spot.toList := by
  rw [spots, record, List.filterMap_append]
  cases h : e.spot <;> simp [spots, h]

@[simp]
theorem Os.spots_socket (os : Os) (d : SOCKET) : (os.socket d).spots = os.spots := by
  unfold socket
  split
  · rw [spots_record]
    exact List.append_nil _
  · rw [spots_record]
    exact List.append_nil _

theorem Op.exec_say (op : Op) (a : Answer) (e : Endpoint) (os : Os) :
    ((op.exec a e os).1.addr, (op.exec a e os).2.spots) = op.say e.sockOptions a (e.addr, os.spots) := by
  cases op with
  | addMembership mcastAddr localIpAddr => cases localIpAddr <;> simp [exec, say, Event.spot, joinsAt]
  | multicastIf localIpAddr stack => cases localIpAddr <;> simp [exec, say, Event.spot, sendsVia]
  | _ => simp [exec, say, Event.spot, SocketOpt.listensAt]

theorem Instr.perform_say (i : Instr) (a : Answer) (x : Endpoint × Os) :
    ((i.perform a x).1.addr, (i.perform a x).2.spots) = i.op.say x.1.sockOptions a (x.1.addr, x.2.spots) := by
  by_cases hw : i.op = .watch
  · rw [perform_watch hw, hw]
    simp [Op.say, Event.spot]
  · by_cases ht : i.op = .thread
    · rw [perform_thread ht, ht]
      split <;> simp [Op.say, Event.spot]
    · rw [← Op.exec_say]
      cases hf : i.fails a with
      | true =>
        rw [perform_of_fails hw ht hf]
        simp [Event.spot]
      | false => rw [perform_of_passes hw ht hf]

/-- **What instructions say** depends on the address and the options alone. -/
theorem result_say (ps : List (Instr × Answer)) (x : Endpoint × Os) :
    ((Script.result Instr.perform ps x).1.addr, (Script.result Instr.perform ps x).2.spots) =
      Script.result (fun i a y => i.op.say x.1.sockOptions a y) ps (x.1.addr, x.2.spots) := by
  induction ps generalizing x with
  | nil => rfl
  | cons p ps ih =>
    have ih := ih (p.1.perform p.2 x)
    rw [Instr.perform_sockOptions, Instr.perform_say] at ih
    exact ih

/-! ### The methods that set a socket up -/

/-- The instructions of a method with the answers of the system. -/
theorem zip_eq_mapIdx {is : List Instr} {as : List Answer} (h : is.length ≤ as.length) :
    is.zip as = is.mapIdx fun k i => (i, as.getD k {}) := by
  refine List.ext_getElem (by simp [h]) fun k hk hk' => ?_
  have hlt : k < as.length := by
    rw [List.length_zip] at hk
    omega
  rw [List.getElem_zip, List.getElem_mapIdx, List.getD_eq_getElem?_getD, List.getElem?_eq_getElem hlt]
  rfl

/-- A call that reports success has said what all of its instructions say, and its lookup has found an address. -/
theorem startup_says {is : List Instr} {as : List Answer} {e : Endpoint} (h : Proper is)
    (hok : .start .ok ∈ (startup is as (e, {})).2.log) :
    (∀ k (i : Instr), is[k]? = some i → i.op ≠ .thread → i.fails (as.getD k {}) = false) ∧
      ((startup is as (e, {})).1.addr, (startup is as (e, {})).2.spots) =
        Script.result (fun i a y => i.op.say e.sockOptions a y) (is.mapIdx fun k i => (i, as.getD k {}))
          (e.addr, []) := by
  obtain ⟨hlen, hpass, heq⟩ := startup_of_ok h (by simp) hok
  refine ⟨fun k i hk ht => ?_, ?_⟩
  · obtain ⟨hlt, rfl⟩ := List.getElem?_eq_some_iff.mp hk
    refine hpass (is[k], as.getD k {}) ?_ ht
    rw [zip_eq_mapIdx hlen]
    exact List.mem_mapIdx.mpr ⟨k, hlt, rfl⟩
  · rw [heq, result_say, zip_eq_mapIdx hlen]
    rfl

/-- `lookupHost` has found an address. -/
theorem lookupFails_eq_false {a : Answer} (h : lookupFails a = false) :
    ∃ x, a.addr = some x ∧ ∀ addr, (lookupHost a addr).2 = x := by
  unfold lookupFails at h
  by_cases hret : a.ret = 0
  · cases ha : a.addr with
    | none => simp [lookupHost, hret, ha] at h
    | some x => exact ⟨x, rfl, fun addr => by simp [lookupHost, hret, ha]⟩
  · simp [lookupHost, hret] at h

section

variable {as : List Answer} {e : Endpoint}

theorem startScript_says {port : UInt16}
    (hok : .start .ok ∈ (startup (TcpServer.startScript port) as (e, {})).2.log) :
    (startup (TcpServer.startScript port) as (e, {})).2.spots = [.bind (e.sockOptions.listensAt port)] := by
  obtain ⟨-, hsay⟩ := startup_says (TcpServer.startScript_proper port).2 hok
  exact congrArg Prod.snd hsay

theorem connectScript_says {remoteIp : String} {remotePort : UInt16}
    (hok : .start .ok ∈ (startup (TcpClient.connectScript remoteIp remotePort) as (e, {})).2.log) :
    ∃ found, (as.getD 5 {}).addr = some found ∧
      (startup (TcpClient.connectScript remoteIp remotePort) as (e, {})).2.spots =
        [.lookup remoteIp, .connect ⟨found, remotePort⟩] := by
  have hproper := (Receiver.Call.begin_proper (c := .connectTo remoteIp remotePort) rfl).2.1
  obtain ⟨hpass, hsay⟩ := startup_says hproper hok
  obtain ⟨found, hfound, hlookup⟩ := lookupFails_eq_false (hpass 5 _ rfl (by simp))
  refine ⟨found, hfound, (congrArg Prod.snd hsay).trans ?_⟩
  show [Spot.lookup remoteIp, .connect ⟨(lookupHost (as.getD 5 {}) e.addr.addr).2, remotePort⟩] = _
  rw [hlookup]

theorem startUnicastScript_says {remoteAddr : String} {localPort port : UInt16}
    (hok : .start .ok ∈ (startup (UdpSocket.startUnicastScript remoteAddr localPort port) as (e, {})).2.log) :
    ∃ found, (as.getD 2 {}).addr = some found ∧
      (startup (UdpSocket.startUnicastScript remoteAddr localPort port) as (e, {})).1.addr = ⟨found, port⟩ ∧
      (startup (UdpSocket.startUnicastScript remoteAddr localPort port) as (e, {})).2.spots =
        [.lookup remoteAddr, .bind (e.sockOptions.listensAt localPort)] := by
  have hproper := (Receiver.Call.begin_proper (c := .startUnicast remoteAddr localPort port) rfl).2.1
  obtain ⟨hpass, hsay⟩ := startup_says hproper hok
  obtain ⟨found, hfound, hlookup⟩ := lookupFails_eq_false (hpass 2 _ rfl (by simp))
  refine ⟨found, hfound, (congrArg Prod.fst hsay).trans ?_, congrArg Prod.snd hsay⟩
  show (⟨(lookupHost (as.getD 2 {}) INADDR_ANY).2, port⟩ : SockAddrIn) = _
  rw [hlookup]

theorem startMcastScript_says {mcastAddr : String} {port : UInt16} {localIpAddr : Option String} {stack : InAddr}
    (hok : .start .ok ∈ (startup (UdpSocket.startMcastScript mcastAddr port localIpAddr stack) as (e, {})).2.log) :
    (startup (UdpSocket.startMcastScript mcastAddr port localIpAddr stack) as (e, {})).1.addr =
        ⟨(inetPton mcastAddr).getD INADDR_ANY, port⟩ ∧
      (startup (UdpSocket.startMcastScript mcastAddr port localIpAddr stack) as (e, {})).2.spots =
        [.bind ⟨INADDR_ANY, port⟩, .join ((inetPton mcastAddr).getD INADDR_ANY) (joinsAt localIpAddr),
          .sendVia (sendsVia stack localIpAddr)] := by
  have hproper := (Receiver.Call.begin_proper (c := .startMcast mcastAddr port localIpAddr stack) rfl).2.1
  obtain ⟨-, hsay⟩ := startup_says hproper hok
  exact ⟨congrArg Prod.fst hsay, congrArg Prod.snd hsay⟩

end

/-! ### The programs -/

open Options (Switch Opt Value)
open Getopt (Str)

namespace ServerApp

/-- The variables of `main`. -/
structure Settings where
  /-- `port`. -/
  port : UInt16 := 0
  /-- `listenAddr`. -/
  listenAddr : Str := "0.0.0.0".toList

/-- `getopt(argc, argv, "p:L:?")`. -/
def options : Switch Settings where
  init := {}
  optstring := "p:L:?".toList
  stores := [('p', .port fun s n => { s with port := n }), ('L', .text fun s a => { s with listenAddr := a })]
  required := by decide
  loud := by decide

/-- `m_socketOpt`. -/
def Settings.socketOpt (s : Settings) : SocketOpt := { listenAddr := String.ofList s.listenAddr }

/-- The constructor of `ServerApp` calls `start`, which binds to the address and the port. -/
def SetsUp (s : Settings) : Prop := ∀ (w : Caller) (as : List Answer) (t : TcpServer.State),
  TcpServer.machine.run (TcpServer.fresh s.socketOpt []) (.call w (.start s.port) :: as.map fun a => .step w a []) =
    some t → .start .ok ∈ t.os.log → t.os.spots = [.bind (s.socketOpt.listensAt s.port)]

theorem setsUp (s : Settings) : SetsUp s := by
  intro w as t hr hok
  have hos : t.os = (startup (TcpServer.startScript s.port) as ({ sockOptions := s.socketOpt }, {})).2 :=
    congrArg Prod.snd (TcpServer.run_startup hr)
  rw [hos] at hok ⊢
  exact startScript_says hok

end ServerApp

namespace ClientApp

/-- The variables of `main`. -/
structure Settings where
  /-- `addr`. -/
  addr : Option Str := none
  /-- `port`. -/
  port : UInt16 := 0

/-- `getopt(argc, argv, "a:p:?")`. -/
def options : Switch Settings where
  init := {}
  optstring := "a:p:?".toList
  stores := [('a', .text fun s a => { s with addr := some a }), ('p', .port fun s n => { s with port := n })]
  required := by decide
  loud := by decide

/-- The constructor of `ClientApp` calls `connectTo`, which looks the host up, and connects to what it finds. -/
def SetsUp (s : Settings) : Prop := ∀ addr, s.addr = some addr →
  ∀ (w : Caller) (as : List Answer) (t : Receiver.State),
  (Receiver.machine .tcpClient).run (Receiver.fresh {})
    (.call w (.connectTo (String.ofList addr) s.port) :: as.map (.step w)) = some t → .start .ok ∈ t.os.log →
  ∃ found, (as.getD 5 {}).addr = some found ∧
    t.os.spots = [.lookup (String.ofList addr), .connect ⟨found, s.port⟩]

theorem setsUp (s : Settings) : SetsUp s := by
  intro addr _ w as t hr hok
  have hos : t.os = (startup (TcpClient.connectScript (String.ofList addr) s.port) as ({}, {})).2 :=
    congrArg Prod.snd (Receiver.run_startup rfl hr)
  rw [hos] at hok ⊢
  exact connectScript_says hok

end ClientApp

namespace UnicastApp

/-- The variables of `main`. -/
structure Settings where
  /-- `addr`. -/
  addr : Option Str := none
  /-- `listenAddr`. -/
  listenAddr : Str := "0.0.0.0".toList
  /-- `port`. -/
  port : UInt16 := 0
  /-- `localPort`. -/
  localPort : UInt16 := 0

/-- `getopt(argc, argv, "a:l:p:L:?")`. -/
def options : Switch Settings where
  init := {}
  optstring := "a:l:p:L:?".toList
  stores := [('a', .text fun s a => { s with addr := some a }), ('l', .port fun s n => { s with localPort := n }),
    ('p', .port fun s n => { s with port := n }), ('L', .text fun s a => { s with listenAddr := a })]
  required := by decide
  loud := by decide

/-- `m_socketOpts`. -/
def Settings.socketOpt (s : Settings) : SocketOpt := { listenAddr := String.ofList s.listenAddr }

/-- The constructor of `UnicastApp` calls `startUnicast`, which looks the host up, binds to the listen address and
the local port, and keeps what it found as the destination. -/
def SetsUp (s : Settings) : Prop := ∀ addr, s.addr = some addr →
  ∀ (w : Caller) (as : List Answer) (t : Receiver.State),
  (Receiver.machine .udpSocket).run (Receiver.fresh s.socketOpt)
    (.call w (.startUnicast (String.ofList addr) s.localPort s.port) :: as.map (.step w)) = some t →
  .start .ok ∈ t.os.log →
  ∃ found, (as.getD 2 {}).addr = some found ∧ t.addr = ⟨found, s.port⟩ ∧
    t.os.spots = [.lookup (String.ofList addr), .bind (s.socketOpt.listensAt s.localPort)]

theorem setsUp (s : Settings) : SetsUp s := by
  intro addr _ w as t hr hok
  have hrun := Receiver.run_startup rfl hr
  have hos : t.os = (startup (UdpSocket.startUnicastScript (String.ofList addr) s.localPort s.port) as
      ({ sockOptions := s.socketOpt }, {})).2 := congrArg Prod.snd hrun
  have haddr : t.addr = (startup (UdpSocket.startUnicastScript (String.ofList addr) s.localPort s.port) as
      ({ sockOptions := s.socketOpt }, {})).1.addr := congrArg (fun x => x.1.addr) hrun
  rw [hos] at hok ⊢
  rw [haddr]
  exact startUnicastScript_says hok

end UnicastApp

namespace McastApp

/-- The variables of `main`; `localAddr` is `local`. -/
structure Settings where
  /-- `addr`. -/
  addr : Option Str := none
  /-- `local`. -/
  localAddr : Option Str := none
  /-- `port`. -/
  port : UInt16 := 0

/-- `getopt(argc, argv, "m:p:l:?")`. -/
def options : Switch Settings where
  init := {}
  optstring := "m:p:l:?".toList
  stores := [('m', .text fun s a => { s with addr := some a }), ('p', .port fun s n => { s with port := n }),
    ('l', .text fun s a => { s with localAddr := some a })]
  required := by decide
  loud := by decide

/-- The constructor of `McastApp` calls `startMcast`, which binds to the port on every interface, joins the group on
the one that it is told and sends through it, and keeps the group as the destination; told none, it joins on any, and
sends through what the stack holds. -/
def SetsUp (s : Settings) : Prop := ∀ addr, s.addr = some addr →
  ∀ (w : Caller) (stack : InAddr) (as : List Answer) (t : Receiver.State),
  (Receiver.machine .udpSocket).run (Receiver.fresh {})
    (.call w (.startMcast (String.ofList addr) s.port (s.localAddr.map String.ofList) stack) :: as.map (.step w)) =
      some t → .start .ok ∈ t.os.log →
  t.addr = ⟨(inetPton (String.ofList addr)).getD INADDR_ANY, s.port⟩ ∧
    t.os.spots = [.bind ⟨INADDR_ANY, s.port⟩, .join ((inetPton (String.ofList addr)).getD INADDR_ANY)
      (joinsAt (s.localAddr.map String.ofList)), .sendVia (sendsVia stack (s.localAddr.map String.ofList))]

theorem setsUp (s : Settings) : SetsUp s := by
  intro addr _ w stack as t hr hok
  have hrun := Receiver.run_startup rfl hr
  have hos : t.os = (startup (UdpSocket.startMcastScript (String.ofList addr) s.port
      (s.localAddr.map String.ofList) stack) as ({}, {})).2 := congrArg Prod.snd hrun
  have haddr : t.addr = (startup (UdpSocket.startMcastScript (String.ofList addr) s.port
      (s.localAddr.map String.ofList) stack) as ({}, {})).1.addr := congrArg (fun x => x.1.addr) hrun
  rw [hos] at hok ⊢
  rw [haddr]
  exact startMcastScript_says hok

end McastApp

/-! ### From the command line to the socket -/

/-- A program with the options `P`: if `opts` are written on its command line, then its variables hold what they
say after the loop, and `Q` of them. -/
def Heeds {σ : Type} (P : Switch σ) (Q : σ → Prop) : Prop :=
  ∀ (program : Str) (opts : List Opt), (∀ o ∈ opts, o.Fits P) → ∃ fuel told g,
    Getopt.calls (program :: opts.flatMap fun o => o.cluster.write '-') P.optstring fuel {} = some (told, g) ∧
      P.settings told = .ok (P.said opts) ∧ Q (P.said opts)

theorem heeds {σ : Type} (P : Switch σ) {Q : σ → Prop} (h : ∀ s, Q s) : Heeds P Q := by
  intro program opts hopts
  obtain ⟨told, g, hcalls, hset⟩ := Switch.settings_write hopts program (Nat.lt_succ_self _)
  exact ⟨_, told, g, hcalls, hset, h _⟩

/-- **The programs set their sockets up as their command lines say**, however the options are written: whatever the
system answers, if the method that sets the socket up reports success, then it has looked up, bound to, connected
to, joined and sent through what was written, and nothing else. A listen address, a group or an interface to join on
that is no address counts as `INADDR_ANY`; without a valid interface, multicasts go out through what the stack
holds. -/
theorem set_up : Heeds ServerApp.options ServerApp.SetsUp ∧ Heeds ClientApp.options ClientApp.SetsUp ∧
    Heeds UnicastApp.options UnicastApp.SetsUp ∧ Heeds McastApp.options McastApp.SetsUp :=
  ⟨heeds _ ServerApp.setsUp, heeds _ ClientApp.setsUp, heeds _ UnicastApp.setsUp, heeds _ McastApp.setsUp⟩

/-- `serverApp -p80 -L 127.0.0.1` and `unicastApp -apeer -l 7 -p9`. -/
theorem set_up_loopback :
    (∃ fuel told g t, Getopt.calls ["serverApp".toList, "-p80".toList, "-L".toList, "127.0.0.1".toList]
        "p:L:?".toList fuel {} = some (told, g) ∧
      TcpServer.machine.run (TcpServer.fresh { listenAddr := "127.0.0.1" } [])
        (.call (.app 0) (.start 80) :: (okAnswers 10).map fun a => .step (.app 0) a []) = some t ∧
      t.os.spots = [.bind ⟨⟨127, 0, 0, 1⟩, 80⟩]) ∧
    ∃ fuel told g t, Getopt.calls ["unicastApp".toList, "-apeer".toList, "-l".toList, "7".toList, "-p9".toList]
        "a:l:p:L:?".toList fuel {} = some (told, g) ∧
      (Receiver.machine .udpSocket).run (Receiver.fresh {}) (.call (.app 0) (.startUnicast "peer" 7 9) ::
        ({} :: {} :: { addr := some ⟨10, 0, 0, 2⟩ } :: okAnswers 8).map (.step (.app 0))) = some t ∧
      t.addr = ⟨⟨10, 0, 0, 2⟩, 9⟩ ∧ t.os.spots = [.lookup "peer", .bind ⟨INADDR_ANY, 7⟩] := by
  obtain ⟨hserver, -, hunicast, -⟩ := set_up
  constructor
  · obtain ⟨fuel, told, g, hcalls, -, hup⟩ := hserver "serverApp".toList
      [⟨'p', .port 80, true⟩, ⟨'L', .text "127.0.0.1".toList, false⟩]
      (List.forall_mem_cons.mpr ⟨trivial, List.forall_mem_singleton.mpr nofun⟩)
    obtain ⟨t, hr, hok⟩ : ∃ t, TcpServer.machine.run (TcpServer.fresh { listenAddr := "127.0.0.1" } [])
        (.call (.app 0) (.start 80) :: (okAnswers 10).map fun a => .step (.app 0) a []) = some t ∧
        .start .ok ∈ t.os.log := Machine.exists_run (by decide)
    exact ⟨fuel, told, g, t, hcalls, hr, hup _ _ t hr hok⟩
  · obtain ⟨fuel, told, g, hcalls, -, hup⟩ := hunicast "unicastApp".toList
      [⟨'a', .text "peer".toList, true⟩, ⟨'l', .port 7, false⟩, ⟨'p', .port 9, true⟩]
      (List.forall_mem_cons.mpr ⟨fun _ => List.cons_ne_nil _ _,
        List.forall_mem_cons.mpr ⟨trivial, List.forall_mem_singleton.mpr trivial⟩⟩)
    obtain ⟨t, hr, hok⟩ : ∃ t, (Receiver.machine .udpSocket).run (Receiver.fresh {})
        (.call (.app 0) (.startUnicast "peer" 7 9) ::
          ({} :: {} :: { addr := some ⟨10, 0, 0, 2⟩ } :: okAnswers 8).map (.step (.app 0))) = some t ∧
        .start .ok ∈ t.os.log := Machine.exists_run (by decide)
    obtain ⟨found, hfound, haddr, hspots⟩ := hup "peer".toList rfl (.app 0) _ t hr hok
    obtain rfl : (⟨10, 0, 0, 2⟩ : InAddr) = found := Option.some.inj hfound
    exact ⟨fuel, told, g, t, hcalls, hr, haddr, hspots⟩

end SocketsCpp
