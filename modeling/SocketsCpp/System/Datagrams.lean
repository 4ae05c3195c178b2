import SocketsCpp.Library.Picks
import SocketsCpp.Receiver.Destination
import SocketsCpp.System.Network

/-!
# From one UDP socket to the other

What the callbacks of a UDP socket are given, in every run of any number of sockets, as far as UDP does what it is
documented to do: datagrams may be lost, repeated and reordered, and strangers send, too.

* `receipts` — the datagrams that a socket received, each with its place in the history.
* `receiptsFrom` — those that one socket sent to another, each with the place where it was sent.
* `delivers_datagrams` — the callbacks are given whole datagrams, as they were sent.
-/

namespace SocketsCpp

open SocketsCpp.Library

/-! ### What was sent -/

/-- A message that the system took from a socket, and where it was sent. -/
def Event.posts : Event → Option (SockAddrIn × List UInt8)
  | .sendTo _ msg addr ret => if 0 ≤ ret then some (addr, msg) else none
  | _ => none

/-- The messages that the system took from a socket, and where they were sent. -/
def posted (log : List Event) : List (SockAddrIn × List UInt8) := log.filterMap Event.posts

namespace System

variable {h : List (Party × Event)} {source : ℕ → Option ℕ} {i j : ℕ}

/-- The message that socket `j` sent. -/
def message (j : ℕ) (x : Party × Event) : Option (List UInt8) :=
  if x.1 = .socket j then x.2.posts.map Prod.snd else none

theorem messages_eq (j : ℕ) (h : List (Party × Event)) :
    (posted (logOf (.socket j) h)).map Prod.snd = h.filterMap (message j) := by
  rw [posted, logOf, List.filterMap_filterMap, List.map_filterMap]
  apply List.filterMap_congr
  intro x _
  unfold message
  split <;> rfl

/-! ### What was received -/

/-- The datagrams that socket `i` received: what `Recv` returned, and its place in the history. -/
def receipts (i : ℕ) (h : List (Party × Event)) : List (ℕ × List UInt8) :=
  h.zipIdx.filterMap fun x =>
    if x.1.1 = .socket i then (Receiver.payload .udpSocket x.1.2).map (x.2, ·) else none

/-- Those that socket `j` sent: what `Recv` returned, and the place of the `SendTo`. -/
def receiptsFrom (source : ℕ → Option ℕ) (i j : ℕ) (h : List (Party × Event)) : List (ℕ × List UInt8) :=
  (receipts i h).filterMap fun x =>
    (source x.1).bind fun m => if (h[m]?).map Prod.fst = some (.socket j) then some (m, x.2) else none

theorem payloads_eq (i : ℕ) (h : List (Party × Event)) :
    Receiver.payloads .udpSocket (logOf (.socket i) h) = (receipts i h).map Prod.snd := by
  have hzip : h = h.zipIdx.map Prod.fst := (List.zipIdx_map_fst 0 h).symm
  conv_lhs => rw [hzip]
  rw [Receiver.payloads, logOf, List.filterMap_filterMap, List.filterMap_map, receipts, List.map_filterMap]
  apply List.filterMap_congr
  intro x _
  simp only [Function.comp_apply]
  split
  · rw [Option.map_map]
    exact Option.map_id'.symm
  · rfl

theorem mem_receipts {x : ℕ × List UInt8} (hx : x ∈ receipts i h) :
    ∃ d c, h[x.1]? = some (.socket i, .recv d c (some x.2)) := by
  obtain ⟨⟨⟨p, e⟩, n⟩, hmem, hx⟩ := List.mem_filterMap.mp hx
  simp only [Option.ite_none_right_eq_some, Option.map_eq_some_iff] at hx
  obtain ⟨rfl, bytes, hp, rfl⟩ := hx
  have hn : h[n]? = some (.socket i, e) := List.mem_zipIdx_iff_getElem?.mp hmem
  cases e with
  | recv d c res =>
    cases res with
    | none => cases hp
    | some bytes' =>
      obtain rfl : bytes' = bytes := by simpa [Receiver.payload] using hp
      exact ⟨d, c, hn⟩
  | _ => cases hp

/-- **`Recv` returns messages whole**: its buffer holds the longest datagram. -/
theorem Udp.whole (hu : Udp source h) {x : ℕ × List UInt8} {m : ℕ} (hx : x ∈ receipts i h) (hm : source x.1 = some m) :
    ∃ j d dest ret, h[m]? = some (.socket j, .sendTo d x.2 dest ret) ∧ 0 ≤ ret := by
  obtain ⟨d, c, hn⟩ := mem_receipts hx
  obtain ⟨j, d', msg, dest, ret, hs, hret, hlen, hbytes⟩ := hu.datagram hn hm
  have hmsg : x.2 = msg := hbytes.trans (List.take_of_length_le hlen)
  exact ⟨j, d', dest, ret, hmsg ▸ hs, hret⟩

theorem mem_receiptsFrom (hu : Udp source h) {x : ℕ × List UInt8} (hx : x ∈ receiptsFrom source i j h) :
    (h[x.1]?).bind (message j) = some x.2 := by
  obtain ⟨x', hx', hx⟩ := List.mem_filterMap.mp hx
  obtain ⟨m, hm, hx⟩ := Option.bind_eq_some_iff.mp hx
  simp only [Option.ite_none_right_eq_some, Option.some.injEq] at hx
  obtain ⟨hj, rfl⟩ := hx
  obtain ⟨j', d, dest, ret, hs, hret⟩ := hu.whole hx' hm
  rw [hs] at hj ⊢
  obtain rfl : j' = j := by simpa using hj
  simp [message, Event.posts, hret]

/-! ### From one application to the other -/

/-- What socket `i` was given. -/
structure Delivered (source : ℕ → Option ℕ) (y : State) (i : ℕ) : Prop where
  /-- The callbacks were given the datagrams received, one by one, and the receive thread is just handing on the
  last. -/
  callbacks : notices (y.log (.socket i)) ++ Receiver.Pc.pending (y.member (.socket i)).pc =
    (receipts i y.history).map fun x => .data x.2
  /-- Each of them that is one of ours is the whole message that was handed to `SendTo`. -/
  whole : ∀ x ∈ receipts i y.history, ∀ m, source x.1 = some m →
    ∃ j d dest ret, y.history[m]? = some (.socket j, .sendTo d x.2 dest ret) ∧ 0 ≤ ret
  /-- Nothing came more often than it was sent, if the network repeats nothing. -/
  once : ∀ j, ((receiptsFrom source i j y.history).map Prod.fst).Nodup →
    ((receiptsFrom source i j y.history).map Prod.snd).Subperm ((posted (y.log (.socket j))).map Prod.snd)
  /-- It came in the order in which it was sent, if the network does not reorder either. -/
  inOrder : ∀ j, ((receiptsFrom source i j y.history).map Prod.fst).Pairwise (· < ·) →
    ((receiptsFrom source i j y.history).map Prod.snd).Sublist ((posted (y.log (.socket j))).map Prod.snd)

/-- **The callbacks are given whole datagrams, as they were sent.** In every run of any number of UDP sockets, with all
their threads, as far as UDP is as assumed: `onReceiveData` of a socket was given the datagrams that the socket
received, one by one, each a whole message that a socket of ours handed to `SendTo`, or a stranger's; none more often
than it was sent, and in the order in which it was sent, as far as the network sees to that. -/
theorem delivers_datagrams {options : Party → SocketOpt} {msg : Party → List UInt8} {y : State}
    (hr : machine.Reach Machine.Any (init options msg) y) (hu : Udp source y.history) (i : ℕ) :
    Delivered source y i := by
  have hloop := (Receiver.Loop.reach (hr.member (.socket i))).recounted.callbacks
  refine ⟨?_, fun x hx m hm => hu.whole hx hm, fun j hn => ?_, fun j hs => ?_⟩
  · have hpay : Receiver.payloads .udpSocket (y.log (.socket i)) = (receipts i y.history).map Prod.snd := by
      rw [← log_history hr, payloads_eq]
    refine hloop.trans ?_
    rw [Receiver.expected, if_neg (by simp), List.append_nil]
    exact (congrArg _ hpay).trans (by simp)
  · rw [← filterMap_picked fun x hx => mem_receiptsFrom hu hx, ← log_history hr, messages_eq]
    exact subperm_filterMap _ (picked_subperm hn)
  · rw [← filterMap_picked fun x hx => mem_receiptsFrom hu hx, ← log_history hr, messages_eq]
    exact (picked_sublist hs).filterMap _

/-! ### Writing runs down -/

/-- In a history the network does what is assumed. -/
def carries (source : ℕ → Option ℕ) (h : List (Party × Event)) : Bool :=
  (List.range h.length).all fun n =>
    match h[n]?, source n with
    | some (.socket _, .recv _ _ (some bytes)), some m =>
        match h[m]? with
        | some (.socket _, .sendTo _ msg _ ret) =>
            decide (0 ≤ ret ∧ msg.length ≤ MAX_DATAGRAM ∧ bytes = msg.take (Receiver.MAX_PACKET_SIZE .udpSocket))
        | _ => false
    | _, _ => true

theorem Udp.of_carries (hc : carries source h = true) : Udp source h := by
  refine ⟨fun {n m i d c bytes} hn hm => ?_⟩
  have hlt : n < h.length := (List.getElem?_eq_some_iff.mp hn).1
  have hall := List.all_eq_true.mp hc n (List.mem_range.mpr hlt)
  rw [hn, hm] at hall
  simp only at hall
  split at hall
  · next j d' msg dest ret hs => exact ⟨j, d', msg, dest, ret, hs, by simpa using hall⟩
  · cases hall

/-- Steps of socket `i`. -/
def socketActions (i : ℕ) (as : List Receiver.Action) : List Action := as.map fun a => ⟨.socket i, a⟩

/-- Socket `0` sends to the peer, which is socket `1`. -/
def postActions (msg : List UInt8) : List Action :=
  socketActions 0 [.call (.app 0) (.sendMsg msg), .step (.app 0) { ret := msg.length }]

/-- Of three messages the first and the third arrive. -/
def lossyActions : List Action := List.flatten
  [socketActions 0 (Receiver.startPeer 3), socketActions 1 (Receiver.startUnicastOk 3), postActions [1, 2],
   postActions [3], postActions [4],
   socketActions 1 (Receiver.serveActions .udpSocket [1, 2] ++ [.callbackReturns]),
   socketActions 1 (Receiver.serveActions .udpSocket [4])]

/-- Where they were sent. -/
def lossySource (n : ℕ) : Option ℕ := if n = 25 then some 16 else if n = 30 then some 20 else none

theorem delivers_datagrams_lossy :
    ∃ y, machine.Reach Machine.Any (init (fun _ => {}) fun _ => []) y ∧ Udp lossySource y.history ∧
      Delivered lossySource y 1 ∧ notices (y.log (.socket 1)) = [.data [1, 2], .data [4]] ∧
      ([[1, 2], [4]] : List (List UInt8)).Sublist ((posted (y.log (.socket 0))).map Prod.snd) := by
  obtain ⟨y, hr, hc, hn, hfst, hsnd⟩ : ∃ y, machine.Reach Machine.Any (init (fun _ => {}) fun _ => []) y ∧
      carries lossySource y.history = true ∧ notices (y.log (.socket 1)) = [.data [1, 2], .data [4]] ∧
      (receiptsFrom lossySource 1 0 y.history).map Prod.fst = [16, 20] ∧
      (receiptsFrom lossySource 1 0 y.history).map Prod.snd = [[1, 2], [4]] :=
    Machine.exists_reach lossyActions (by decide)
  have hd := delivers_datagrams hr (.of_carries hc) 1
  have hsub := hd.inOrder 0 (by rw [hfst]; decide)
  rw [hsnd] at hsub
  exact ⟨y, hr, .of_carries hc, hd, hn, hsub⟩

end System

end SocketsCpp
