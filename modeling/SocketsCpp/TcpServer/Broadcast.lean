import SocketsCpp.Library.EarlyExit
import SocketsCpp.TcpServer.Sequential
import SocketsCpp.Stream

/-!
# Broadcasts

`sendBcast` walks the table under one lock and sends to each client, up to the first that fails. A
broadcast is given by the message, the order in which the table is walked, and the answer to the `Send` to
each client.

* `run_bcast` and `run_unicast` — what a broadcast does, and what `sendClientMessage` does for the same
  clients in the same order, stopping at the first failure.
* `broadcast_refines_unicast` — the two make the same calls and return the same.
* `broadcast_reaches_all_iff` — a broadcast reaches every client exactly if no client fails before another
  in the order of the table.
-/

namespace SocketsCpp

open SocketsCpp.Library

/-- `Send` is called on `d`. -/
def Event.sendsOn (d : SOCKET) : Event → Bool
  | .send d' _ _ _ => d' = d
  | _ => false

/-- `Send` is called. -/
def Event.isSend : Event → Bool
  | .send _ _ _ _ => true
  | _ => false

namespace TcpServer

/-! ### The calls -/

section

variable (msg : List UInt8) (ans : ClientHandle → Answer)

/-- The client takes the whole message. -/
def takes (h : ClientHandle) : Bool := Attempt.reports ⟨msg, ans h⟩

/-- The steps of `sendBcast` inside its critical section. -/
def bcastSteps (w : Caller) : List ClientHandle → List Action
  | [] => [.step w {} []]
  | h :: rest => .step w (ans h) [] :: if takes msg ans h then bcastSteps w rest else []

/-- A call of `sendBcast`, the table being walked in the given order. -/
def bcastActions (w : Caller) (order : List ClientHandle) : List Action :=
  .call w (.sendBcast msg) :: .step w {} order :: bcastSteps msg ans w order

/-- Calls of `sendClientMessage` for the clients in the given order, up to the first that fails. -/
def unicastActions (w : Caller) : List ClientHandle → List Action
  | [] => []
  | h :: rest =>
      attemptActions w h [⟨msg, ans h⟩] ++ if takes msg ans h then unicastActions w rest else []

/-- What the last of the calls returns. -/
def lastReply : List ClientHandle → SocketRet
  | [] => .ok
  | h :: rest => if takes msg ans h then lastReply rest else reply ⟨msg, ans h⟩

/-- The call of `Send` for a client. -/
def sendTo (os : Os) (h : ClientHandle) : Event := .send h (os.owner h) msg (ans h).ret

/-- The calls of `Send`. -/
def sendEvents (os : Os) (order : List ClientHandle) : List Event :=
  (untilFailure (takes msg ans) order).map (sendTo msg ans os)

/-- The calls of `Send`, each with the return of its `sendClientMessage`. -/
def unicastEvents (w : Caller) (os : Os) (order : List ClientHandle) : List Event :=
  (untilFailure (takes msg ans) order).flatMap fun h =>
    [sendTo msg ans os h, .sendClientMessage w h (reply ⟨msg, ans h⟩)]

end

/-- The clients can be sent to. -/
def Addressable (s : State) (order : List ClientHandle) : Prop :=
  ∀ h ∈ order, ∃ cl, s.clients.lookup h = some cl ∧ cl.sockfd = h ∧ h ≠ INVALID_SOCKET

section

variable {s : State} {w : Caller} {msg : List UInt8} {ans : ClientHandle → Answer}
  {order : List ClientHandle}

theorem reply_success_eq (t : Attempt) : (reply t).success = t.reports := (reply_success t).2

/-- **What `sendBcast` does** inside its critical section. -/
theorem run_bcastSteps : ∀ (order : List ClientHandle) {s : State}, s.aborted = false →
    s.calls w = .locked → s.mutex = some (w, .bcast msg order) → Addressable s order →
    machine.run s (bcastSteps msg ans w order) = some { s with
      mutex := none, calls := Function.update s.calls w .idle
      os := { s.os with
        log := s.os.log ++ sendEvents msg ans s.os order ++ [.sendBcast w (lastReply msg ans order)] } }
  | [], s, hab, hc, hm, _ => by
    simp [bcastSteps, Machine.run, machine, step, hab, callStep, hc, hm, sectionStep, sendEvents,
      untilFailure, lastReply, Os.record]
  | h :: rest, s, hab, hc, hm, hr => by
    obtain ⟨cl, hl, hfd, hv⟩ := hr h List.mem_cons_self
    have hsend : cl.sendMsg s.os msg (ans h) = (s.os.record (sendTo msg ans s.os h), reply ⟨msg, ans h⟩) := by
      have hone := cl.sendMsg_eq (by rw [hfd]; exact hv) s.os ⟨msg, ans h⟩
      rw [hfd] at hone
      exact hone
    have hstep : machine.step s (.step w (ans h) []) =
        if takes msg ans h then
          some { s with os := s.os.record (sendTo msg ans s.os h), mutex := some (w, .bcast msg rest) }
        else some ({ s with os := s.os.record (sendTo msg ans s.os h), mutex := none }.ret w
          (.sendBcast w (reply ⟨msg, ans h⟩))) := by
      simp [machine, step, hab, callStep, hc, hm, sectionStep, hl, hsend, reply_success_eq, takes]
    cases ht : takes msg ans h with
    | true =>
      rw [ht, if_pos rfl] at hstep
      have ih := run_bcastSteps rest (s := { s with
        os := s.os.record (sendTo msg ans s.os h), mutex := some (w, .bcast msg rest) }) hab hc rfl
        fun h' hh => hr h' (List.mem_cons_of_mem _ hh)
      rw [bcastSteps, ht, if_pos rfl, Machine.run, hstep, Option.bind_some, ih]
      simp [sendEvents, untilFailure, lastReply, ht, sendTo]
    | false =>
      rw [ht, if_neg (by simp)] at hstep
      rw [bcastSteps, ht, if_neg (by simp), Machine.run, hstep, Option.bind_some, Machine.run]
      simp [sendEvents, untilFailure, lastReply, ht, Os.record]

/-- Nothing has changed but what was logged. -/
def logged (s : State) (log : List Event) : State := { s with os := { s.os with log := s.os.log ++ log } }

/-- **What a call of `sendBcast` does.** -/
theorem run_bcast (hab : s.aborted = false) (hmay : mayCall s w = true) (hm : s.mutex = none)
    (hp : order.Perm s.clients.keys) (hr : Addressable s order) :
    machine.run s (bcastActions msg ans w order) =
      some (logged s (sendEvents msg ans s.os order ++ [.sendBcast w (lastReply msg ans order)])) := by
  have hidle := (mayCall_iff.mp hmay).1
  let s₁ : State := { s with calls := Function.update s.calls w .locked, mutex := some (w, .bcast msg order) }
  have hlock : machine.run s [.call w (.sendBcast msg), .step w {} order] = some s₁ := by
    simp [Machine.run, machine, step, hab, hmay, Call.begin, callStep, hm, hp, s₁]
  have hcalls : Function.update (Function.update s.calls w .locked) w .idle = s.calls :=
    Caller.update_back hidle _
  have hloop : machine.run s₁ (bcastSteps msg ans w order) = _ :=
    run_bcastSteps order hab (by simp [s₁]) rfl hr
  rw [show bcastActions msg ans w order =
    [.call w (.sendBcast msg), .step w {} order] ++ bcastSteps msg ans w order from rfl,
    Machine.run_append hlock, hloop]
  simp [logged, s₁, hcalls, hm]

/-- **What the calls of `sendClientMessage` do.** -/
theorem run_unicast : ∀ (order : List ClientHandle) {s : State}, s.aborted = false → mayCall s w = true →
    s.mutex = none → Addressable s order →
    machine.run s (unicastActions msg ans w order) = some (logged s (unicastEvents msg ans w s.os order))
  | [], s, _, _, _, _ => by simp [unicastActions, Machine.run, logged, unicastEvents, untilFailure]
  | h :: rest, s, hab, hmay, hm, hr => by
    obtain ⟨cl, hl, hfd, hv⟩ := hr h List.mem_cons_self
    let s₁ : State := { s with
      os := (s.os.record (sendTo msg ans s.os h)).record (.sendClientMessage w h (reply ⟨msg, ans h⟩)) }
    have hone : machine.run s (attemptActions w h [⟨msg, ans h⟩]) = some s₁ := by
      have hrun := run_attempt hab hmay hm hl (by rw [hfd]; exact hv) ⟨msg, ans h⟩
      rw [hfd] at hrun
      exact hrun
    cases ht : takes msg ans h with
    | true =>
      have ih : machine.run s₁ (unicastActions msg ans w rest) = _ :=
        run_unicast rest hab hmay hm fun h' hh => hr h' (List.mem_cons_of_mem _ hh)
      rw [unicastActions, ht, if_pos rfl, Machine.run_append hone, ih]
      simp [s₁, logged, unicastEvents, untilFailure, ht, sendTo]
    | false =>
      rw [unicastActions, ht, if_neg (by simp), List.append_nil, hone]
      simp [s₁, logged, unicastEvents, untilFailure, ht, sendTo, Os.record]

/-! ### What they log -/

theorem sendEvents_isSend (os : Os) : (sendEvents msg ans os order).filter Event.isSend =
    sendEvents msg ans os order := by
  rw [List.filter_eq_self]
  intro e he
  obtain ⟨h, -, rfl⟩ := List.mem_map.mp he
  rfl

theorem unicastEvents_isSend (os : Os) : (unicastEvents msg ans w os order).filter Event.isSend =
    sendEvents msg ans os order := by
  unfold unicastEvents sendEvents
  induction untilFailure (takes msg ans) order with
  | nil => rfl
  | cons h hs ih =>
    rw [List.flatMap_cons, List.filter_append, ih]
    rfl

/-- Success is reported exactly if every client takes the whole message. -/
theorem lastReply_success : (lastReply msg ans order).success = true ↔ ∀ h ∈ order, takes msg ans h = true := by
  induction order with
  | nil => simp [lastReply, SocketRet.ok]
  | cons h rest ih =>
    cases ht : takes msg ans h with
    | true => simp [lastReply, ht, ih]
    | false =>
      have hfail : (reply ⟨msg, ans h⟩).success = false := (reply_success_eq _).trans ht
      simp [lastReply, ht, hfail]

theorem reply_of_reports {t : Attempt} (h : t.reports = true) : reply t = .ok := by
  have hle : (t.msg.length : ℤ) ≤ t.answer.ret := by simpa [Attempt.reports] using h
  unfold reply
  rw [if_neg (by omega), if_neg (by omega)]

/-- The last of the calls returns what `sendBcast` does. -/
theorem unicastEvents_getLast (os : Os) (hne : order ≠ []) :
    ∃ h, (unicastEvents msg ans w os order).getLast? =
      some (.sendClientMessage w h (lastReply msg ans order)) := by
  induction order with
  | nil => exact absurd rfl hne
  | cons h rest ih =>
    cases ht : takes msg ans h with
    | false => exact ⟨h, by simp [unicastEvents, untilFailure, lastReply, ht]⟩
    | true =>
      cases rest with
      | nil =>
        have hok : reply ⟨msg, ans h⟩ = .ok := reply_of_reports ht
        exact ⟨h, by simp [unicastEvents, untilFailure, lastReply, ht, hok]⟩
      | cons h' rest =>
        obtain ⟨x, hx⟩ := ih (by simp)
        have hcons : unicastEvents msg ans w os (h :: h' :: rest) =
            [sendTo msg ans os h, .sendClientMessage w h (reply ⟨msg, ans h⟩)] ++
              unicastEvents msg ans w os (h' :: rest) := by
          rw [unicastEvents, untilFailure, if_pos ht, List.flatMap_cons, unicastEvents]
        have hlast : lastReply msg ans (h :: h' :: rest) = lastReply msg ans (h' :: rest) := if_pos ht
        refine ⟨x, ?_⟩
        rw [hcons, List.getLast?_append, hx, hlast]
        rfl

/-- How often `Send` is called for a client. -/
theorem sendEvents_count (os : Os) (h : ClientHandle) :
    (sendEvents msg ans os order).countP (Event.sendsOn h) = (untilFailure (takes msg ans) order).count h := by
  unfold sendEvents
  rw [List.countP_map]
  exact List.countP_congr fun x _ => by simp [Function.comp, Event.sendsOn, sendTo]

/-- `Send` is called once for every client exactly if the whole table is walked. -/
theorem sendEvents_once (os : Os) (hn : order.Nodup) :
    (∀ h ∈ order, (sendEvents msg ans os order).countP (Event.sendsOn h) = 1) ↔
      untilFailure (takes msg ans) order = order := by
  rw [untilFailure_eq_self_iff_mem hn]
  refine forall₂_congr fun h _ => ?_
  rw [sendEvents_count]
  constructor
  · intro hc
    exact List.count_pos_iff.mp (by omega)
  · exact List.count_eq_one_of_mem (nodup_untilFailure hn)

end

/-! ### Broadcasts and single calls -/

/-- What was logged between two states. -/
def newEvents (s s' : State) : List Event := s'.os.log.drop s.os.log.length

/-- The calls of `Send` between two states. -/
def newSends (s s' : State) : List Event := (newEvents s s').filter Event.isSend

@[simp] theorem newEvents_logged (s : State) (log : List Event) : newEvents s (logged s log) = log := by
  simp [newEvents, logged]

section

variable {s s' : State} {w : Caller} {msg : List UInt8} {ans : ClientHandle → Answer}
  {order : List ClientHandle}

theorem newSends_bcast : newSends s (logged s (sendEvents msg ans s.os order ++
    [.sendBcast w (lastReply msg ans order)])) = sendEvents msg ans s.os order := by
  rw [newSends, newEvents_logged, List.filter_append, sendEvents_isSend]
  simp [Event.isSend]

/-- The clients of a server can be sent to. -/
theorem Owned.addressable (ho : Owned s) (hp : order.Perm s.clients.keys) : Addressable s order := by
  intro h hh
  obtain ⟨cl, hl⟩ := lookup_eq_some_of_mem (AList.mem_keys.mpr (hp.mem_iff.mp hh))
  have hnonneg : 0 ≤ h := ho.reg.nonneg (Clients.entry_eq_some hl)
  refine ⟨cl, hl, ho.key hl, ?_⟩
  rintro rfl
  exact absurd hnonneg (by decide)

/-- Whoever may call a method in a sequential run finds the mutex free. -/
theorem Settled.mutex_free_for {c : Call} (hs : Settled s) (hseq : Sequential s (.call w c))
    (hmay : mayCall s w = true) : s.mutex = none := by
  have ho := hs.account.orderly
  obtain ⟨hidle, hpc⟩ := mayCall_iff.mp hmay
  by_contra hm
  obtain ⟨⟨w', sec⟩, hm⟩ := Option.ne_none_iff_exists'.mp hm
  have hlocked : s.calls w' = .locked := (ho.discipline w').mpr ⟨sec, hm⟩
  have hbusy : s.calls w' ≠ .idle := by simp [hlocked]
  have hww : w' = w := by
    rcases hpc with ⟨n, rfl⟩ | ⟨rfl, r, cb, hp⟩
    · have hn : n = 0 := by
        cases n with
        | zero => rfl
        | succ n => cases hseq.1
      have hwait : s.pc.isWaiting = true := hseq.2
      cases w' with
      | callback =>
        refine absurd (ho.placed.callback_idle fun r cb hp => ?_) hbusy
        rw [hp] at hwait
        cases hwait
      | serverTask =>
        refine absurd (ho.placed.task_idle fun r hp => ?_) hbusy
        rw [hp] at hwait
        cases hwait
      | app m => rw [hn, (hs.inTurn.app m hbusy).1]
    · cases w' with
      | callback => rfl
      | serverTask => exact absurd (ho.placed.task_idle (by simp [hp])) hbusy
      | app n => exact absurd (hs.inTurn.app n hbusy).2 (by simp [hp, Pc.isWaiting])
  rw [hww] at hbusy
  exact hbusy hidle

end

/-- A broadcast, from `s` to `s₁`, and calls of `sendClientMessage` for the same clients in the same
order, from `s` to `s₂`, stopping at the first failure. -/
structure RefinesUnicast (w : Caller) (msg : List UInt8) (ans : ClientHandle → Answer)
    (order : List ClientHandle) (s s₁ s₂ : State) : Prop where
  /-- Both make the same calls of `Send`. -/
  sends : newSends s s₁ = newSends s s₂
  /-- `Send` is called for clients, on their own descriptors, in the order given, and for none twice. -/
  clients : ∃ hs, hs <+: order ∧ hs.Nodup ∧ (∀ h ∈ hs, h ∈ s.clients) ∧
    newSends s s₁ = hs.map (sendTo msg ans s.os)
  /-- `sendBcast` returns what the last of the calls does, and reports success exactly if `Send` was
  called once for every client and took the whole message. -/
  reply : ∃ ret, (newEvents s s₁).getLast? = some (.sendBcast w ret) ∧
    (order = [] → ret = .ok) ∧
    (order ≠ [] → ∃ h, (newEvents s s₂).getLast? = some (.sendClientMessage w h ret)) ∧
    (ret.success = true ↔ ∀ h ∈ s.clients,
      (newSends s s₁).countP (Event.sendsOn h) = 1 ∧ (msg.length : ℤ) ≤ (ans h).ret)
  /-- Neither changes the table or `m_fds`. -/
  table : s₁.clients = s.clients ∧ s₁.fds = s.fds ∧ s₂.clients = s.clients ∧ s₂.fds = s.fds
  /-- A client in the table has a valid descriptor, that it is stored under. -/
  valid : ∀ h cl, s.clients.lookup h = some cl → cl.sockfd = h ∧ cl.sockfd ≠ INVALID_SOCKET

/-- **A broadcast refines single calls**: from every state of a sequential run in which a method may be
called, for every order of the table and every answer to each `Send`. -/
theorem broadcast_refines_unicast {s₀ s : State} (h₀ : Started s₀) (h : machine.Reach Sequential s₀ s)
    {w : Caller} (hmay : mayCall s w = true) (msg : List UInt8) (hseq : Sequential s (.call w (.sendBcast msg)))
    (ans : ClientHandle → Answer) {order : List ClientHandle} (hp : order.Perm s.clients.keys) :
    ∃ s₁ s₂, machine.run s (bcastActions msg ans w order) = some s₁ ∧
      machine.run s (unicastActions msg ans w order) = some s₂ ∧
      RefinesUnicast w msg ans order s s₁ s₂ := by
  have hs := h₀.initial.settled.reach h
  have hab := h₀.reach_not_aborted (fun _ _ hok => Action.regular_of_sequential hok.1) h
  have hm := hs.mutex_free_for hseq hmay
  have haddr := hs.account.owned.addressable hp
  have hmem : ∀ x, x ∈ order ↔ x ∈ s.clients := fun x => by rw [hp.mem_iff, AList.mem_keys]
  have hn : order.Nodup := hp.nodup_iff.mpr s.clients.nodupKeys
  refine ⟨_, _, run_bcast hab hmay hm hp haddr, run_unicast order hab hmay hm haddr, ?_⟩
  constructor
  · rw [newSends_bcast, newSends, newEvents_logged, unicastEvents_isSend]
  · exact ⟨_, untilFailure_isPrefix_self _ _, nodup_untilFailure hn,
      fun x hx => (hmem x).mp (mem_of_mem_untilFailure hx), newSends_bcast⟩
  · refine ⟨lastReply msg ans order, by simp, ?_, ?_, ?_⟩
    · rintro rfl
      rfl
    · intro hne
      rw [newEvents_logged]
      exact unicastEvents_getLast _ hne
    · rw [newSends_bcast, lastReply_success]
      constructor
      · intro hall x hx
        have hx := (hmem x).mpr hx
        exact ⟨(sendEvents_once s.os hn).mpr (untilFailure_of_forall hall) x hx,
          by simpa [takes, Attempt.reports] using hall x hx⟩
      · intro hall x hx
        simpa [takes, Attempt.reports] using (hall x ((hmem x).mp hx)).2
  · exact ⟨rfl, rfl, rfl, rfl⟩
  · intro x cl hl
    obtain ⟨cl', hl', hfd, hv⟩ := haddr x ((hmem x).mpr (mem_of_lookup hl))
    rw [hl] at hl'
    cases hl'
    exact ⟨hfd, by rw [hfd]; exact hv⟩

/-- The server thread is in `Select`, with clients `1` and `2` connected. -/
def twoClientsWaiting : List Action := twoClients ++ [.testStop, .copyFds, .findMaxFd, .select]

/-- Client `2` fails. -/
def secondFails (h : ClientHandle) : Answer := if h = 2 then { ret := -1, errno := 32 } else { ret := 1 }

theorem broadcast_refines_unicast_second_fails :
    ∃ s s₁ s₂, machine.Reach Sequential started s ∧
      machine.run s (bcastActions [7] secondFails (.app 0) [1, 2]) = some s₁ ∧
      machine.run s (unicastActions [7] secondFails (.app 0) [1, 2]) = some s₂ ∧
      RefinesUnicast (.app 0) [7] secondFails [1, 2] s s₁ s₂ := by
  obtain ⟨s, hr, hmay, hseq, hp⟩ : ∃ s, machine.Reach Sequential started s ∧
      mayCall s (.app 0) = true ∧ Sequential s (.call (.app 0) (.sendBcast [7])) ∧
      [1, 2].Perm s.clients.keys := Machine.exists_reach twoClientsWaiting (by decide)
  obtain ⟨s₁, s₂, h₁, h₂, href⟩ :=
    broadcast_refines_unicast started_started hr hmay [7] hseq secondFails hp
  exact ⟨s, s₁, s₂, hr, h₁, h₂, href⟩

/-! ### Two orders of the table -/

/-- The client was sent the whole message. -/
def Delivered (msg : List UInt8) (s s' : State) (h : ClientHandle) : Prop :=
  ∃ c ret, .send h c msg ret ∈ newSends s s' ∧ (msg.length : ℤ) ≤ ret

/-- `Send` was called once for every client, and whoever takes the whole message has it. -/
structure ReachesAll (msg : List UInt8) (ans : ClientHandle → Answer) (s s' : State) : Prop where
  /-- The calls of `Send`. -/
  once : ∀ h ∈ s.clients, (newSends s s').countP (Event.sendsOn h) = 1
  /-- The clients that have the message. -/
  delivered : ∀ h, Delivered msg s s' h ↔ h ∈ s.clients ∧ takes msg ans h = true

section

variable {s : State} {w : Caller} {msg : List UInt8} {ans : ClientHandle → Answer}
  {order : List ClientHandle}

theorem reachesAll_iff (hp : order.Perm s.clients.keys) :
    ReachesAll msg ans s (logged s (sendEvents msg ans s.os order ++
      [.sendBcast w (lastReply msg ans order)])) ↔ ∀ h ∈ order.dropLast, takes msg ans h = true := by
  have hmem : ∀ x, x ∈ order ↔ x ∈ s.clients := fun x => by rw [hp.mem_iff, AList.mem_keys]
  have hn : order.Nodup := hp.nodup_iff.mpr s.clients.nodupKeys
  rw [← untilFailure_eq_self_iff, ← sendEvents_once s.os hn]
  constructor
  · intro h x hx
    have honce := h.once x ((hmem x).mp hx)
    rwa [newSends_bcast] at honce
  · intro honce
    have hall := (sendEvents_once s.os hn).mp honce
    refine ⟨fun x hx => ?_, fun x => ?_⟩
    · rw [newSends_bcast]
      exact honce x ((hmem x).mpr hx)
    · unfold Delivered
      rw [newSends_bcast, sendEvents, hall]
      constructor
      · rintro ⟨c, ret, he, hle⟩
        obtain ⟨y, hy, hye⟩ := List.mem_map.mp he
        simp only [sendTo, Event.send.injEq, true_and] at hye
        obtain ⟨rfl, -, rfl⟩ := hye
        exact ⟨(hmem y).mp hy, by simpa [takes, Attempt.reports] using hle⟩
      · rintro ⟨hx, ht⟩
        exact ⟨_, _, List.mem_map.mpr ⟨x, (hmem x).mpr hx, rfl⟩,
          by simpa [takes, Attempt.reports] using ht⟩

end

/-- **A broadcast reaches every client, in two orders of the table, exactly if in neither a client fails
before another**: then `Send` is called once for every client, and the clients that have the message are
in both orders those that took it. -/
theorem broadcast_reaches_all_iff {s₀ s : State} (h₀ : Started s₀) (h : machine.Reach Concurrent s₀ s)
    {w : Caller} (hmay : mayCall s w = true) (hm : s.mutex = none) (msg : List UInt8)
    (ans : ClientHandle → Answer) {order₁ order₂ : List ClientHandle} (hp₁ : order₁.Perm s.clients.keys)
    (hp₂ : order₂.Perm s.clients.keys) :
    ∃ s₁ s₂, machine.run s (bcastActions msg ans w order₁) = some s₁ ∧
      machine.run s (bcastActions msg ans w order₂) = some s₂ ∧
      (ReachesAll msg ans s s₁ ∧ ReachesAll msg ans s s₂ ↔
        (∀ h ∈ order₁.dropLast, takes msg ans h = true) ∧ ∀ h ∈ order₂.dropLast, takes msg ans h = true) := by
  have ho := (h₀.initial.account.reach h).owned
  have hab := h₀.reach_not_aborted (fun _ _ => Action.regular_of_concurrent) h
  exact ⟨_, _, run_bcast hab hmay hm hp₁ (ho.addressable hp₁), run_bcast hab hmay hm hp₂ (ho.addressable hp₂),
    and_congr (reachesAll_iff hp₁) (reachesAll_iff hp₂)⟩

/-- Client `2` fails: it is last in one order, and first in the other. -/
theorem broadcast_reaches_all_iff_second_fails : ∃ s s₁ s₂, machine.Reach Concurrent started s ∧
    machine.run s (bcastActions [7] secondFails (.app 0) [1, 2]) = some s₁ ∧
    machine.run s (bcastActions [7] secondFails (.app 0) [2, 1]) = some s₂ ∧
    ¬ (ReachesAll [7] secondFails s s₁ ∧ ReachesAll [7] secondFails s s₂) := by
  obtain ⟨s, hr, hmay, hm, hp₁, hp₂⟩ : ∃ s, machine.Reach Concurrent started s ∧
      mayCall s (.app 0) = true ∧ s.mutex.isNone = true ∧ [1, 2].Perm s.clients.keys ∧
      [2, 1].Perm s.clients.keys := Machine.exists_reach twoClientsWaiting (by decide)
  obtain ⟨s₁, s₂, h₁, h₂, hiff⟩ := broadcast_reaches_all_iff started_started hr hmay
    (Option.isNone_iff_eq_none.mp hm) [7] secondFails hp₁ hp₂
  exact ⟨s, s₁, s₂, hr, h₁, h₂, fun hall => absurd (hiff.mp hall) (by decide)⟩

/-- Client `2` fails, and is first in the order of the table: nothing is sent to client `1`. -/
theorem not_broadcast_reaches_all :
    ¬ ∀ s₀ s, Started s₀ → machine.Reach Concurrent s₀ s →
      ∀ w, mayCall s w = true → s.mutex = none → ∀ msg ans order₁ order₂ s₁ s₂,
        order₁.Perm s.clients.keys → order₂.Perm s.clients.keys →
        machine.run s (bcastActions msg ans w order₁) = some s₁ →
        machine.run s (bcastActions msg ans w order₂) = some s₂ →
        ReachesAll msg ans s s₁ ∧ ReachesAll msg ans s s₂ := by
  intro hall
  obtain ⟨s, hr, hmay, hm, hp, hrun, hmem⟩ : ∃ s, machine.Reach Concurrent started s ∧
      mayCall s (.app 0) = true ∧ s.mutex.isNone = true ∧ [2, 1].Perm s.clients.keys ∧
      ((machine.run s (bcastActions [7] secondFails (.app 0) [2, 1])).any fun s' =>
        (newSends s s').countP (Event.sendsOn 1) = 0) = true ∧ 1 ∈ s.clients :=
    Machine.exists_reach twoClientsWaiting (by decide)
  obtain ⟨s', hrun, hcount⟩ := (Option.any_eq_true _ _).mp hrun
  have honce := (hall started s started_started hr (.app 0) hmay (Option.isNone_iff_eq_none.mp hm) [7]
    secondFails [2, 1] [2, 1] s' s' hp hp hrun hrun).1.once 1 hmem
  rw [of_decide_eq_true hcount] at honce
  cases honce

end TcpServer

end SocketsCpp
