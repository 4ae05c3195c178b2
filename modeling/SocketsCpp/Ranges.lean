import SocketsCpp.Receiver.Ranges
import SocketsCpp.TcpServer.Ranges
import SocketsCpp.TcpServer.Started

/-!
# Numbers out of range

None of the classes looks at the number of a descriptor before it puts it in a descriptor set, and none
refuses one.

* `descriptors_in_range` — every access is in range as long as the system returns numbers below
  `FD_SETSIZE`, and no method makes `m_sockfd` invalid under a receive thread or under another method
  that sets the socket up.
-/

namespace SocketsCpp

open SocketsCpp.Library

/-- **Every descriptor put in a descriptor set is in range**, in every run of an object of any of the three
classes, from its construction on, whose steps meet the condition. (In such a run no descriptor is returned that
does not fit, so that the part of `InRange` about these says nothing there.) -/
theorem descriptors_in_range (options : SocketOpt) (msg : List UInt8) (k : Receiver.Kind) :
    (∀ s, TcpServer.machine.Reach TcpServer.Fitting (TcpServer.fresh options msg) s → InRange s.os.log) ∧
      ∀ s, (Receiver.machine k).Reach (Receiver.Fitting k) (Receiver.fresh options) s → InRange s.os.log :=
  ⟨fun _ h => inRange_of_fits (TcpServer.ranged_of_fitting h).log,
    fun _ h => inRange_of_fits (Receiver.ranged_of_fitting h).log⟩

/-! ### Single runs -/

/-- The server accepts a client under the number `d`. -/
def acceptRun (d : SOCKET) : List TcpServer.Action :=
  TcpServer.startActions 80 (List.replicate 10 {}) ++ TcpServer.selectActions [0] ++ TcpServer.acceptActions d

/-- The receive thread, at the head of its loop, sets its descriptor set up. -/
def watchRun (k : Receiver.Kind) : List Receiver.Action :=
  .testStop :: (if k = .udpSocket then [.guard] else []) ++ [.fdSet]

/-- The last number that fits: a client of the server, and a TCP client. -/
theorem descriptors_in_range_last :
    (∃ s, TcpServer.machine.Reach TcpServer.Fitting (TcpServer.fresh {} []) s ∧ InRange s.os.log ∧
      .fdClr 1023 ∈ s.os.log) ∧
    ∃ s, (Receiver.machine .tcpClient).Reach (Receiver.Fitting .tcpClient) (Receiver.fresh {}) s ∧
      InRange s.os.log ∧ .fdSet 1023 ∈ s.os.log := by
  have hrange := descriptors_in_range {} [] .tcpClient
  constructor
  · obtain ⟨s, hr, hm⟩ : ∃ s, TcpServer.machine.Reach TcpServer.FitsAlone (TcpServer.fresh {} []) s ∧
        .fdClr 1023 ∈ s.os.log :=
      Machine.exists_reach (acceptRun 1023 ++ TcpServer.deleteActions (.app 0) 1023) (by decide)
    have hr := TcpServer.reach_fitting hr
    exact ⟨s, hr, hrange.1 s hr, hm⟩
  · obtain ⟨s, hr, hm⟩ : ∃ s, (Receiver.machine .tcpClient).Reach (Receiver.FitsAlone .tcpClient)
        (Receiver.fresh {}) s ∧ .fdSet 1023 ∈ s.os.log :=
      Machine.exists_reach (Receiver.connectOk 1023 ++ watchRun .tcpClient) (by decide)
    have hr := Receiver.reach_fitting hr
    exact ⟨s, hr, hrange.2 s hr, hm⟩

theorem not_inRange {log : List Event} {d : SOCKET} (h : .fdSet d ∈ log) (hd : ¬ Fits d) :
    ¬ InRange log :=
  fun hr => hd (hr.access _ h d rfl)

/-- A server whose system returns the number `1024` for a client, a UDP socket whose system returns it for
the socket, and a TCP client that is connected a second time while its receive thread runs. -/
theorem not_descriptors_in_range :
    (∃ s, TcpServer.machine.Reach Machine.Any (TcpServer.fresh {} []) s ∧ ¬ InRange s.os.log) ∧
    (∃ s, (Receiver.machine .udpSocket).Reach Machine.Any (Receiver.fresh {}) s ∧ ¬ InRange s.os.log) ∧
    ∃ s, (Receiver.machine .tcpClient).Reach Machine.Any (Receiver.fresh {}) s ∧ ¬ InRange s.os.log := by
  refine ⟨?_, ?_, ?_⟩
  · obtain ⟨s, hr, hm⟩ : ∃ s, TcpServer.machine.Reach Machine.Any (TcpServer.fresh {} []) s ∧
        .fdSet 1024 ∈ s.os.log := Machine.exists_reach (acceptRun 1024) (by decide)
    exact ⟨s, hr, not_inRange hm (by decide)⟩
  · obtain ⟨s, hr, hm⟩ : ∃ s, (Receiver.machine .udpSocket).Reach Machine.Any (Receiver.fresh {}) s ∧
        .fdSet 1024 ∈ s.os.log :=
      Machine.exists_reach (Receiver.startUnicastOk 1024 ++ watchRun .udpSocket) (by decide)
    exact ⟨s, hr, not_inRange hm (by decide)⟩
  · obtain ⟨s, hr, hm⟩ : ∃ s, (Receiver.machine .tcpClient).Reach Machine.Any (Receiver.fresh {}) s ∧
        .fdSet (-1) ∈ s.os.log :=
      Machine.exists_reach (Receiver.connectOk 1 ++ [.call (.app 0) (.connectTo "" 80)] ++
        Receiver.answered [{}] ++ watchRun .tcpClient) (by decide)
    exact ⟨s, hr, not_inRange hm (by decide)⟩

end SocketsCpp
