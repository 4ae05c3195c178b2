import SocketsCpp.Library.Retry
import SocketsCpp.Receiver.Shutdown
import SocketsCpp.TcpServer.Closing

/-!
# Streams and failed sends

A caller of `TcpClient::sendMsg`, or of `TcpServer::sendClientMessage` for one client, that repeats each
message until the call reports success. `Send` may take a part of a message only; the call then reports
failure, and the part stays in the stream.

* `Attempt` — a call, with the answer to its `Send`.
* `accepted` — what the system has taken for a connection.
* `stream_eq_messages_iff` — the stream is that of the messages exactly if no call that reported failure
  had put anything into it.
-/

namespace SocketsCpp

open SocketsCpp.Library

/-! ### What the system has taken -/

/-- What an event adds to the stream of connection `c`: `Send` returning `n` has taken the first `n`
bytes, and none if it returned `-1`. -/
def Event.accepts (c : ConnId) : Event → List UInt8
  | .send _ (some c') msg ret => if c' = c then msg.take ret.toNat else []
  | _ => []

/-- The stream of connection `c`. -/
def accepted (c : ConnId) (log : List Event) : List UInt8 := (log.map (Event.accepts c)).flatten

@[simp] theorem Event.accepts_send (d : SOCKET) (c : ConnId) (msg : List UInt8) (ret : ℤ) :
    (Event.send d (some c) msg ret).accepts c = msg.take ret.toNat :=
  if_pos rfl

/-- What the calls of `sendMsg` and `sendClientMessage` have returned. -/
def Event.reply : Event → Option SocketRet
  | .sendMsg ret | .sendClientMessage _ _ ret => some ret
  | _ => none

@[simp] theorem Event.reply_send (d : SOCKET) (c : Option ConnId) (msg : List UInt8) (ret : ℤ) :
    (Event.send d c msg ret).reply = none := rfl

/-- The replies, in order. -/
def replies (log : List Event) : List SocketRet := log.filterMap Event.reply

/-! ### Calls -/

/-- A call that sends a message, with the answer to its `Send`. -/
structure Attempt where
  /-- The message. -/
  msg : List UInt8
  /-- The answer. -/
  answer : Answer := {}

namespace Attempt

/-- What `Send` may return: `-1`, or the number of bytes it has taken. -/
def Possible (t : Attempt) : Prop := -1 ≤ t.answer.ret ∧ t.answer.ret ≤ t.msg.length

/-- What the system has taken of the message. -/
def part (t : Attempt) : List UInt8 := t.msg.take t.answer.ret.toNat

/-- All of it was taken. -/
def reports (t : Attempt) : Bool := decide ((t.msg.length : ℤ) ≤ t.answer.ret)

instance (t : Attempt) : Decidable t.Possible := inferInstanceAs (Decidable (_ ∧ _))

theorem part_of_reports {t : Attempt} (h : t.reports = true) : t.part = t.msg := by
  have h : (t.msg.length : ℤ) ≤ t.answer.ret := by simpa [reports] using h
  exact List.take_of_length_le (by omega)

end Attempt

/-- The events of the attempts, and their replies. -/
def attemptEvents (d : SOCKET) (c : ConnId) (returns : SocketRet → Event) (reply : Attempt → SocketRet)
    (ts : List Attempt) : List Event :=
  ts.flatMap fun t => [.send d (some c) t.msg t.answer.ret, returns (reply t)]

theorem accepted_attemptEvents {d : SOCKET} {c : ConnId} {returns : SocketRet → Event}
    {reply : Attempt → SocketRet} (hret : ∀ r, (returns r).accepts c = []) (log : List Event)
    (ts : List Attempt) :
    accepted c (log ++ attemptEvents d c returns reply ts) =
      accepted c log ++ (ts.map Attempt.part).flatten := by
  induction ts generalizing log with
  | nil => simp [attemptEvents]
  | cons t ts ih =>
    have ih := ih (log ++ [.send d (some c) t.msg t.answer.ret, returns (reply t)])
    simp only [attemptEvents, List.flatMap_cons, ← List.append_assoc] at ih ⊢
    rw [ih]
    simp [accepted, hret, Attempt.part]

theorem replies_attemptEvents {d : SOCKET} {c : ConnId} {returns : SocketRet → Event}
    {reply : Attempt → SocketRet} (hret : ∀ r, (returns r).reply = some r) (log : List Event)
    (ts : List Attempt) :
    replies (log ++ attemptEvents d c returns reply ts) = replies log ++ ts.map reply := by
  induction ts generalizing log with
  | nil => simp [attemptEvents]
  | cons t ts ih =>
    have ih := ih (log ++ [.send d (some c) t.msg t.answer.ret, returns (reply t)])
    simp only [attemptEvents, List.flatMap_cons, ← List.append_assoc] at ih ⊢
    rw [ih]
    simp [replies, hret, List.filterMap_cons]

/-! ### The TCP client -/

namespace Receiver

/-- What `TcpClient::sendMsg` returns. -/
def reply (t : Attempt) : SocketRet :=
  if t.answer.ret < 0 then .fail (errnoMsg "Error: send() failed errno " t.answer)
  else if t.answer.ret < t.msg.length then
    .fail s!"Error: Only {t.answer.ret} bytes out of {t.msg.length} sent to client"
  else .ok

/-- The calls of the attempts. -/
def attemptActions (w : Caller) (ts : List Attempt) : List Action :=
  ts.flatMap fun t => [.call w (.sendMsg t.msg), .step w t.answer]

theorem sendMsg_eq (s : State) (t : Attempt) :
    sendMsg .tcpClient s t.msg t.answer =
      (s.os.record (.send s.sockfd (s.os.owner s.sockfd) t.msg t.answer.ret), reply t) := by
  unfold sendMsg reply
  simp only
  split
  · rfl
  · split <;> rfl

/-- One attempt. -/
theorem run_attempt {s : State} {w : Caller} (hab : s.aborted = false) (hmay : mayCall s w = true)
    (t : Attempt) : (machine .tcpClient).run s (attemptActions w [t]) = some { s with
      os := (s.os.record (.send s.sockfd (s.os.owner s.sockfd) t.msg t.answer.ret)).record
        (.sendMsg (reply t)) } := by
  have hidle := (mayCall_iff.mp hmay).1
  have hcalls : Function.update (Function.update s.calls w (.sendMsg t.msg)) w .idle = s.calls :=
    Caller.update_back hidle _
  simp [attemptActions, Machine.run, machine, step, hab, hmay, Call.belongs, Call.begin, callStep,
    sendMsg_eq, hcalls]

/-- The attempts, one after the other. -/
theorem run_attempts {w : Caller} {c : ConnId} (ts : List Attempt) : ∀ {s : State}, s.aborted = false →
    mayCall s w = true → s.os.owner s.sockfd = some c →
    ∃ s', (machine .tcpClient).run s (attemptActions w ts) = some s' ∧
      s'.os.log = s.os.log ++ attemptEvents s.sockfd c .sendMsg reply ts := by
  induction ts with
  | nil => exact fun _ _ _ => ⟨_, rfl, by simp [attemptEvents]⟩
  | cons t ts ih =>
    intro s hab hmay hown
    have hone := run_attempt hab hmay t
    rw [hown] at hone
    obtain ⟨s', hr, hlog⟩ := ih (s := { s with
      os := (s.os.record (.send s.sockfd (some c) t.msg t.answer.ret)).record (.sendMsg (reply t)) })
      hab hmay hown
    refine ⟨s', ?_, ?_⟩
    · rw [show attemptActions w (t :: ts) = attemptActions w [t] ++ attemptActions w ts by
        simp [attemptActions], Machine.run_append hone]
      exact hr
    · rw [hlog]
      simp [attemptEvents]

end Receiver

/-! ### The TCP server -/

namespace TcpServer

/-- What `Client::sendMsg` returns. -/
def reply (t : Attempt) : SocketRet :=
  if t.answer.ret < 0 then .fail (errnoMsg "Error: send() failed errno " t.answer)
  else if t.answer.ret < t.msg.length then
    .fail s!"Only {t.answer.ret} bytes out of {t.msg.length} was sent to client"
  else .ok

/-- The calls of the attempts, for the client under `h`. -/
def attemptActions (w : Caller) (h : ClientHandle) (ts : List Attempt) : List Action :=
  ts.flatMap fun t => [.call w (.sendClientMessage h t.msg), .step w {} [], .step w t.answer []]

theorem Client.sendMsg_eq {cl : Client} (hv : cl.sockfd ≠ INVALID_SOCKET) (os : Os) (t : Attempt) :
    cl.sendMsg os t.msg t.answer =
      (os.record (.send cl.sockfd (os.owner cl.sockfd) t.msg t.answer.ret), reply t) := by
  unfold Client.sendMsg reply
  rw [if_pos hv]
  simp only
  split
  · rfl
  · split <;> rfl

/-- One attempt. -/
theorem run_attempt {s : State} {w : Caller} {h : ClientHandle} {cl : Client} (hab : s.aborted = false)
    (hmay : mayCall s w = true) (hm : s.mutex = none) (hl : s.clients.lookup h = some cl)
    (hv : cl.sockfd ≠ INVALID_SOCKET) (t : Attempt) :
    machine.run s (attemptActions w h [t]) = some { s with
      os := (s.os.record (.send cl.sockfd (s.os.owner cl.sockfd) t.msg t.answer.ret)).record
        (.sendClientMessage w h (reply t)) } := by
  have hidle := (mayCall_iff.mp hmay).1
  have hcalls : ∀ p : CallPc, Function.update (Function.update s.calls w p) w .idle = s.calls :=
    Caller.update_back hidle
  simp [attemptActions, Machine.run, machine, step, hab, hmay, Call.begin, callStep, hm, hl,
    Client.sendMsg_eq hv, hcalls]

/-- The attempts, one after the other. -/
theorem run_attempts {w : Caller} {h : ClientHandle} {cl : Client} {c : ConnId} (ts : List Attempt) :
    ∀ {s : State}, s.aborted = false → mayCall s w = true → s.mutex = none →
    s.clients.lookup h = some cl → cl.sockfd ≠ INVALID_SOCKET → s.os.owner cl.sockfd = some c →
    ∃ s', machine.run s (attemptActions w h ts) = some s' ∧
      s'.os.log = s.os.log ++ attemptEvents cl.sockfd c (.sendClientMessage w h) reply ts := by
  induction ts with
  | nil => exact fun _ _ _ _ _ _ => ⟨_, rfl, by simp [attemptEvents]⟩
  | cons t ts ih =>
    intro s hab hmay hm hl hv hown
    have hone := run_attempt hab hmay hm hl hv t
    rw [hown] at hone
    obtain ⟨s', hr, hlog⟩ := ih (s := { s with
      os := (s.os.record (.send cl.sockfd (some c) t.msg t.answer.ret)).record
        (.sendClientMessage w h (reply t)) }) hab hmay hm hl hv hown
    refine ⟨s', ?_, ?_⟩
    · rw [show attemptActions w h (t :: ts) = attemptActions w h [t] ++ attemptActions w h ts by
        simp [attemptActions], Machine.run_append hone]
      exact hr
    · rw [hlog]
      simp [attemptEvents]

end TcpServer

/-! ### The stream -/

/-- Both classes report success exactly if everything was taken. -/
theorem reply_success (t : Attempt) :
    (Receiver.reply t).success = t.reports ∧ (TcpServer.reply t).success = t.reports := by
  unfold Receiver.reply TcpServer.reply Attempt.reports
  constructor <;>
  · split
    · simp [SocketRet.fail]
      omega
    · split
      · simp [SocketRet.fail]
        omega
      · simp [SocketRet.ok]
        omega

/-- What the attempts put into the stream of connection `c`: `ts` were made between the two logs, with
the replies `reply`. -/
structure Streamed (c : ConnId) (reply : Attempt → SocketRet) (msgs : List (List UInt8))
    (ts : List Attempt) (log log' : List Event) : Prop where
  /-- The replies. -/
  replies : replies log' = replies log ++ ts.map reply
  /-- A call reports success exactly if the whole message was taken. -/
  success : ∀ t ∈ ts, (reply t).success = true ↔ t.answer.ret = t.msg.length
  /-- The parts taken, in order. -/
  parts : accepted c log' = accepted c log ++ (ts.map Attempt.part).flatten
  /-- The stream is that of the messages exactly if the calls that failed put nothing into it. -/
  whole : accepted c log' = accepted c log ++ msgs.flatten ↔
    ∀ t ∈ ts, (reply t).success = false → t.part = []

theorem streamed {c : ConnId} {d : SOCKET} {returns : SocketRet → Event} {reply : Attempt → SocketRet}
    {msgs : List (List UInt8)} {ts : List Attempt} {log log' : List Event}
    (hacc : ∀ r, (returns r).accepts c = []) (hrep : ∀ r, (returns r).reply = some r)
    (hsucc : ∀ t, (reply t).success = t.reports) (hp : ∀ t ∈ ts, t.Possible)
    (hts : Repeats Attempt.msg (fun t => (reply t).success) msgs ts)
    (hlog : log' = log ++ attemptEvents d c returns reply ts) : Streamed c reply msgs ts log log' where
  replies := by rw [hlog, replies_attemptEvents hrep]
  success t ht := by
    have ⟨_, hle⟩ := hp t ht
    rw [hsucc, Attempt.reports, decide_eq_true_eq]
    omega
  parts := by rw [hlog, accepted_attemptEvents hacc]
  whole := by
    rw [hlog, accepted_attemptEvents hacc, List.append_cancel_left_eq]
    exact hts.flatten_eq_iff fun t _ hr => Attempt.part_of_reports ((hsucc t).symm.trans hr)

/-- **A failed send leaves what was taken in the stream.** A caller repeats each message until the call
reports success. Then the stream grows by the parts of the messages that were taken, in order, those of
failed calls included; it grows by exactly the messages if and only if nothing was taken in a call that
reported failure. -/
theorem stream_eq_messages_iff (msgs : List (List UInt8)) (ts : List Attempt) (hp : ∀ t ∈ ts, t.Possible) :
    (∀ (s : Receiver.State) (w : Caller) (c : ConnId), s.aborted = false →
      Receiver.mayCall s w = true → s.os.owner s.sockfd = some c →
      Repeats Attempt.msg (fun t => (Receiver.reply t).success) msgs ts →
      ∃ s', (Receiver.machine .tcpClient).run s (Receiver.attemptActions w ts) = some s' ∧
        Streamed c Receiver.reply msgs ts s.os.log s'.os.log) ∧
    ∀ (s₀ s : TcpServer.State) (w : Caller) (h : ClientHandle) (c : ConnId), TcpServer.Started s₀ →
      TcpServer.machine.Reach TcpServer.Concurrent s₀ s → TcpServer.mayCall s w = true →
      s.mutex = none → s.clients.conn h = some c →
      Repeats Attempt.msg (fun t => (TcpServer.reply t).success) msgs ts →
      ∃ s', TcpServer.machine.run s (TcpServer.attemptActions w h ts) = some s' ∧
        Streamed c TcpServer.reply msgs ts s.os.log s'.os.log := by
  constructor
  · intro s w c hab hmay hown hts
    obtain ⟨s', hr, hlog⟩ := Receiver.run_attempts ts hab hmay hown
    exact ⟨s', hr, streamed (fun _ => rfl) (fun _ => rfl) (fun t => (reply_success t).1) hp hts hlog⟩
  · intro s₀ s w h c h₀ hreach hmay hm hc hts
    have hab := h₀.reach_not_aborted (fun _ _ => TcpServer.Action.regular_of_concurrent) hreach
    have ho := (h₀.initial.account.reach hreach).owned
    obtain ⟨cl, hl, rfl⟩ := Option.map_eq_some_iff.mp hc
    have hown := ho.live hm hl
    rw [← ho.key hl] at hown
    have hv : cl.sockfd ≠ INVALID_SOCKET := by
      intro hinv
      have hn := ho.os.nonneg hown
      rw [hinv] at hn
      exact absurd hn (by decide)
    obtain ⟨s', hr, hlog⟩ := TcpServer.run_attempts ts hab hmay hm hl hv hown
    exact ⟨s', hr, streamed (fun _ => rfl) (fun _ => rfl) (fun t => (reply_success t).2) hp hts hlog⟩

/-- A message that is sent at the second attempt. -/
theorem repeats_twice {reports : Attempt → Bool} {msg : List UInt8} {a a' : Answer}
    (h : reports ⟨msg, a⟩ = false) (h' : reports ⟨msg, a'⟩ = true) :
    Repeats Attempt.msg reports [msg] [⟨msg, a⟩, ⟨msg, a'⟩] := by
  have hlast : Repeats Attempt.msg reports [msg] [⟨msg, a'⟩] :=
    .next (t := (⟨msg, a'⟩ : Attempt)) h' .nil
  exact .again (t := (⟨msg, a⟩ : Attempt)) h hlast

/-- Message `[1, 2]`, sent at the second attempt; the first takes nothing. -/
def secondAttempt : List Attempt := [⟨[1, 2], { ret := -1 }⟩, ⟨[1, 2], { ret := 2 }⟩]

theorem stream_eq_messages_iff_second_attempt :
    (∃ s', (Receiver.machine .tcpClient).run Receiver.connected
        (Receiver.attemptActions (.app 0) secondAttempt) = some s' ∧
      Streamed 0 Receiver.reply [[1, 2]] secondAttempt Receiver.connected.os.log s'.os.log) ∧
    ∃ s s', TcpServer.machine.Reach TcpServer.Concurrent TcpServer.started s ∧
      TcpServer.machine.run s (TcpServer.attemptActions (.app 0) 1 secondAttempt) = some s' ∧
      Streamed 1 TcpServer.reply [[1, 2]] secondAttempt s.os.log s'.os.log := by
  have hboth := stream_eq_messages_iff [[1, 2]] secondAttempt (by decide)
  constructor
  · exact hboth.1 Receiver.connected (.app 0) 0 (by decide) (by decide) (by decide)
      (repeats_twice (by decide) (by decide))
  · obtain ⟨s, hr, hmay, hm, hc⟩ : ∃ s, TcpServer.machine.Reach TcpServer.Concurrent TcpServer.started s ∧
        TcpServer.mayCall s (.app 0) = true ∧ s.mutex.isNone = true ∧ s.clients.conn 1 = some 1 :=
      Machine.exists_reach (TcpServer.selectActions [0] ++ TcpServer.acceptActions 1) (by decide)
    obtain ⟨s', hrun, hs⟩ := hboth.2 TcpServer.started s (.app 0) 1 1 TcpServer.started_started hr hmay
      (Option.isNone_iff_eq_none.mp hm) hc (repeats_twice (by decide) (by decide))
    exact ⟨s, s', hr, hrun, hs⟩

/-- The first attempt takes one byte of message `[1, 2]` and reports failure, the second takes both:
the peer gets `[1, 1, 2]`. -/
theorem not_stream_eq_messages :
    ¬ ∀ (msgs : List (List UInt8)) (ts : List Attempt), (∀ t ∈ ts, t.Possible) →
      ∀ (s₀ s s' : Receiver.State) (w : Caller) (c : ConnId), Receiver.Started .tcpClient s₀ →
        (Receiver.machine .tcpClient).Reach Machine.Any s₀ s → Receiver.mayCall s w = true →
        s.os.owner s.sockfd = some c →
        Repeats Attempt.msg (fun t => (Receiver.reply t).success) msgs ts →
        (Receiver.machine .tcpClient).run s (Receiver.attemptActions w ts) = some s' →
        accepted c s'.os.log = accepted c s.os.log ++ msgs.flatten := by
  intro hall
  obtain ⟨s', hrun, hs⟩ : ∃ s', (Receiver.machine .tcpClient).run Receiver.connected
      (Receiver.attemptActions (.app 0) [⟨[1, 2], { ret := 1 }⟩, ⟨[1, 2], { ret := 2 }⟩]) = some s' ∧
      accepted 0 s'.os.log = [1, 1, 2] := Machine.exists_run (by decide)
  have heq := hall [[1, 2]] _ (by decide) _ _ s' (.app 0) 0 Receiver.connected_started .refl (by decide)
    (by decide) (repeats_twice (by decide) (by decide)) hrun
  rw [hs] at heq
  exact absurd heq (by decide)

end SocketsCpp
