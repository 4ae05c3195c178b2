import SocketsCpp.System.Model

/-!
# What is assumed of the network

The network is no part of the model. What the results about the system rely on is stated here, as a property of a
history, and is a hypothesis where it is used: which connection is the other end of which, and which datagram a
`Recv` returned, are parameters.

* `Tcp` — a connection carries a stream in each direction.
* `Udp` — a datagram is carried whole, or not at all.

In a history a call is one entry. So nothing happens between the moment when `Send` takes a part of a message and the
moment when it returns, and the calls on a connection take effect one after the other.
-/

namespace SocketsCpp

open SocketsCpp.Library

/-! ### What comes in -/

/-- What an event brings in on connection `c`. -/
def Event.brings (c : ConnId) : Event → List UInt8
  | .recv _ (some c') (some bytes) => if c' = c then bytes else []
  | _ => []

/-- What came in on connection `c`. -/
def arrived (c : ConnId) (log : List Event) : List UInt8 := (log.map (Event.brings c)).flatten

@[simp] theorem arrived_append (c : ConnId) (log log' : List Event) :
    arrived c (log ++ log') = arrived c log ++ arrived c log' := by
  simp [arrived]

/-- A `Recv` or a `Send` on connection `c` fails. -/
def Event.fails (c : ConnId) : Event → Bool
  | .recv _ (some c') none => c' = c
  | .send _ (some c') _ ret => c' = c && ret < 0
  | _ => false

namespace System

/-! ### TCP -/

/-- An end of a connection: an object, and the number of the connection there. -/
abbrev End := Party × ConnId

/-- **What is assumed of TCP**, `peer` being the other end of a connection where that is one of ours. -/
structure Tcp (peer : End → Option End) (h : List (Party × Event)) : Prop where
  /-- Each is the other end of the other. -/
  symm : ∀ {x y}, peer x = some y → peer y = some x
  /-- What comes in is what the other end sent, from the first byte on, in order. The rest may be on its way, or
  lost. -/
  order : ∀ {x y}, peer x = some y → arrived x.2 (logOf x.1 h) <+: accepted y.2 (logOf y.1 h)
  /-- `Recv` returns `0` where the other end has called `Close` and everything that it sent has come in: unless a call
  on the connection failed before, which takes the error that `Recv` would have returned. That the other end calls
  `Close` before its process ends is a part of this. -/
  ends : ∀ {x y t d}, peer x = some y → t ++ [(x.1, .recv d (some x.2) (some []))] <+: h →
    (∀ e ∈ logOf x.1 t, e.fails x.2 = false) →
    (∃ e ∈ logOf y.1 t, e.closes y.2 = true) ∧ arrived x.2 (logOf x.1 t) = accepted y.2 (logOf y.1 t)

/-! ### UDP -/

/-- The longest datagram. -/
def MAX_DATAGRAM : ℕ := 65507

/-- **What is assumed of UDP**, `source n` being the place in the history of the `SendTo` that sent the datagram which
the `Recv` at place `n` returned, where that is one of ours. -/
structure Udp (source : ℕ → Option ℕ) (h : List (Party × Event)) : Prop where
  /-- `SendTo` takes a message whole, if it is not too long, and `Recv` returns what its buffer holds of it. -/
  datagram : ∀ {n m i d c bytes}, h[n]? = some (.socket i, .recv d c (some bytes)) → source n = some m →
    ∃ j d' msg dest ret, h[m]? = some (.socket j, .sendTo d' msg dest ret) ∧ 0 ≤ ret ∧
      msg.length ≤ MAX_DATAGRAM ∧ bytes = msg.take (Receiver.MAX_PACKET_SIZE .udpSocket)

end System

end SocketsCpp
