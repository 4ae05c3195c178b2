import SocketsCpp.Receiver.Lifecycle

/-!
# What the receive thread tells the application

`ReceiveTask` against the results of `Recv`, in any run: whatever `Select` and `Recv` return, and
whenever `m_stop` is set.

* `notices` — the callbacks begun.
* `expected` — what the results of `Recv` call for: each piece of data, and in `TcpClient` the end
  of the connection once a `Recv` returned less than `1`.
* `Faithful` — the callbacks begun, with the one that is just being made, are what is expected; and
  after the end of the connection there is neither a `Select` nor a `Recv`.
-/

namespace SocketsCpp

open SocketsCpp.Library

/-! ### Logs -/

/-- What the application is told. -/
inductive Notice where
  /-- `onReceiveData`. -/
  | data (bytes : List UInt8)
  /-- `onDisconnect`, with `m_success`. -/
  | disconnect (success : Bool)
  deriving DecidableEq

/-- The callback that an event is. -/
def Event.notice : Event → Option Notice
  | .onReceiveData bytes => some (.data bytes)
  | .onDisconnect ret => some (.disconnect ret.success)
  | _ => none

/-- The callbacks begun. -/
def notices (log : List Event) : List Notice := log.filterMap Event.notice

/-- A `Recv` that returned less than `1`. -/
def Event.endsStream : Event → Bool
  | .recv _ _ none | .recv _ _ (some []) => true
  | _ => false

/-- `Select` or `Recv`. -/
def Event.polls : Event → Bool
  | .select _ | .recv _ _ _ => true
  | _ => false

/-- An event that is neither a call of `Select` or `Recv` nor a callback of the receive thread. -/
def Event.aside : Event → Bool
  | .select _ | .recv _ _ _ | .onReceiveData _ | .onDisconnect _ => false
  | _ => true

@[simp] theorem notices_append (log : List Event) (e : Event) :
    notices (log ++ [e]) = notices log ++ e.notice.toList := by
  cases he : e.notice <;> simp [notices, he]

theorem Event.notice_of_aside {e : Event} (h : e.aside = true) : e.notice = none := by
  cases e <;> first | rfl | cases h

theorem Event.endsStream_of_aside {e : Event} (h : e.aside = true) : e.endsStream = false := by
  cases e <;> first | rfl | cases h

theorem Event.polls_of_aside {e : Event} (h : e.aside = true) : e.polls = false := by
  cases e <;> first | rfl | cases h

theorem Event.aside_of_setup {e : Event} (h : e.setup = true) : e.aside = true := by
  cases e <;> first | rfl | cases h

namespace Receiver

/-- The data that a call of `Recv` returned. Nothing is an empty datagram to `UdpSocket`, and the
end of the stream to `TcpClient`. -/
def payload (k : Kind) : Event → Option (List UInt8)
  | .recv _ _ (some bytes) => if k = .tcpClient ∧ bytes = [] then none else some bytes
  | _ => none

/-- The data that the calls of `Recv` returned. -/
def payloads (k : Kind) (log : List Event) : List (List UInt8) := log.filterMap (payload k)

/-- What the results of `Recv` call for. -/
def expected (k : Kind) (log : List Event) : List Notice :=
  (payloads k log).map .data ++
    if k = .tcpClient ∧ log.any Event.endsStream then [.disconnect false] else []

/-- The callback. -/
def Callback.notice : Callback → Notice
  | .data bytes => .data bytes
  | .disconnect ret => .disconnect ret.success

/-- The callback that is just being made. -/
def Pc.pending : Pc → List Notice
  | .setStop ret => [.disconnect ret.success]
  | .publish cb => [cb.notice]
  | _ => []

theorem payload_of_aside {k : Kind} {e : Event} (h : e.aside = true) : payload k e = none := by
  cases e <;> first | rfl | cases h

@[simp] theorem payloads_append (k : Kind) (log : List Event) (e : Event) :
    payloads k (log ++ [e]) = payloads k log ++ (payload k e).toList := by
  cases he : payload k e <;> simp [payloads, he]

section

variable {k : Kind} {log log' : List Event} {e : Event}

theorem notices_grows (h : Grows Event.aside log log') : notices log' = notices log :=
  h.filterMap_eq fun _ => Event.notice_of_aside

theorem expected_grows (h : Grows Event.aside log log') :
    expected k log' = expected k log := by
  have hpay : payloads k log' = payloads k log := h.filterMap_eq fun _ => payload_of_aside
  have hends : log'.any Event.endsStream = log.any Event.endsStream := by
    rw [Bool.eq_iff_iff, List.any_eq_true, List.any_eq_true]
    exact h.exists_iff fun _ => Event.endsStream_of_aside
  rw [expected, hpay, hends, expected]

/-- A callback is not a result of `Recv`. -/
theorem expected_append_of_notice (hp : payload k e = none) (he : e.endsStream = false) :
    expected k (log ++ [e]) = expected k log := by
  simp [expected, hp, he]

/-- **What one more result of `Recv` calls for** is the callback that `ReceiveTask` goes on to, as
long as the stream has not ended. -/
theorem expected_append_recv {d : SOCKET} {c : Option ConnId} {res : Option (List UInt8)} (errno : ℤ)
    (hopen : k = .tcpClient → log.any Event.endsStream = false) :
    expected k (log ++ [.recv d c res]) = expected k log ++ (afterRecv k res errno).pending := by
  cases k with
  | udpSocket =>
    cases res with
    | none => simp [expected, payload, afterRecv, Pc.pending]
    | some bytes => simp [expected, payload, afterRecv, Pc.pending, Callback.notice]
  | tcpClient =>
    have hopen := hopen rfl
    cases res with
    | none =>
      simp [expected, payload, afterRecv, Pc.pending, hopen, Event.endsStream, disconnectRet,
        SocketRet.fail]
    | some bytes =>
      cases bytes with
      | nil =>
        simp [expected, payload, afterRecv, Pc.pending, hopen, Event.endsStream, disconnectRet,
          SocketRet.fail]
      | cons b bs =>
        simp [expected, payload, afterRecv, Pc.pending, hopen, Event.endsStream, Callback.notice]

end

/-! ### What a step tells -/

/-- What a step has to do with the callbacks. -/
inductive Tells (k : Kind) (s s' : State) : Prop where
  /-- Nothing. -/
  | aside : Grows Event.aside s.os.log s'.os.log → s'.pc.pending = s.pc.pending → Tells k s s'
  /-- `Select` is called. -/
  | select {d : SOCKET} {n : ℤ} : s.pc = .select d → s'.pc = .waiting d →
      s'.os.log = s.os.log ++ [.select n] → Tells k s s'
  /-- `Recv` returns. -/
  | recv {d : SOCKET} {c : Option ConnId} {res : Option (List UInt8)} {errno : ℤ} : s.pc = .recv →
      s'.pc = afterRecv k res errno → s'.os.log = s.os.log ++ [.recv d c res] → Tells k s s'
  /-- A callback begins. -/
  | publish {cb : Callback} : s.pc = .publish cb → s'.pc = .callback cb →
      s'.os.log = s.os.log ++ [cb.event] → Tells k s s'

/-- A thread that was joined had returned. -/
def Joined (s : State) : Prop := s.thread = false → s.pc = .none ∨ s.pc = .returned

theorem Step.joined {k : Kind} {s s' : State} {a : Action} (h : Step k s a s') (hi : Joined s) :
    Joined s' := by
  cases h with
  | startNext => exact fun ht => hi ((Op.exec_thread _ _ _ _).symm.trans ht)
  | startFails => exact fun ht => hi ((Op.exec_thread _ _ _ _).symm.trans ht)
  | startThread => exact fun ht => by cases ht
  | finishJoin _ _ hp => exact fun _ => .inr hp
  | call | startAborts | sendMsg | finish | finishNoThread | finishSelf | finishClose | finishReset =>
    exact hi
  | _ => exact fun ht => absurd (hi ht) (by simp [*])

theorem Step.tells {k : Kind} {s s' : State} {a : Action} (h : Step k s a s') (hj : Joined s) :
    Tells k s s' := by
  cases h with
  | select hp => exact .select hp rfl rfl
  | recv hp => exact .recv hp rfl rfl
  | publish hp => exact .publish hp rfl rfl
  | testStop hp | guard hp | isset hp =>
    refine .aside (by first | exact .refl | exact .one rfl) ?_
    rw [hp]
    simp only
    split <;> rfl
  | @callbackReturns cb hp =>
    refine .aside .refl ?_
    rw [hp]
    cases cb <;> rfl
  | setStop hp => exact .aside (.one rfl) (by rw [hp]; rfl)
  | startNext => exact .aside ((Op.exec_log _ _ _ _).mono fun _ => Event.aside_of_setup) rfl
  | startFails =>
    exact .aside (((Op.exec_log _ _ _ _).mono fun _ => Event.aside_of_setup).append rfl) rfl
  | startThread _ _ ht =>
    refine .aside (.one rfl) ?_
    rcases hj ht with hp | hp <;> rw [hp] <;> rfl
  | sendMsg =>
    exact .aside ((sendMsg_notes (fun _ _ _ _ => rfl) (fun _ _ _ _ => rfl) _ _ _ _).log.append rfl) rfl
  | finishClose => exact .aside (Os.closeValid_grows fun _ _ => rfl) rfl
  | call | startAborts | finishNoThread | finishSelf => exact .aside .refl rfl
  | finish | finishJoin | finishReset => exact .aside (.one rfl) rfl
  | taskReturns hp | fdSet hp | selectFails hp | selectReady hp | checkStop hp | checkReturns hp =>
    exact .aside (by first | exact .refl | exact .one rfl) (by rw [hp]; rfl)

/-! ### The end of the connection -/

/-- Where the thread is once the connection has ended. -/
def Pc.halted : Pc → Bool
  | .none | .loopHead | .publish (.disconnect _) | .callback (.disconnect _) | .returned => true
  | _ => false

/-- The connection has ended: `m_stop` is just about to be set, or is set. -/
def Over (s : State) : Prop := (∃ ret, s.pc = .setStop ret) ∨ (s.stop = true ∧ s.pc.halted = true)

/-- Nothing gets the thread going again. -/
theorem Step.isOver {k : Kind} {s s' : State} {a : Action} (h : Step k s a s') (hj : Joined s)
    (hi : Over s) : Over s' := by
  cases h with
  | testStop hp hs =>
    rcases hi with ⟨ret, hr⟩ | ⟨hstop, -⟩
    · rw [hp] at hr; cases hr
    · rw [hs] at hstop; cases hstop
  | taskReturns _ hs => exact .inr ⟨hs, rfl⟩
  | setStop => exact .inr ⟨rfl, rfl⟩
  | @publish cb hp =>
    rcases hi with ⟨ret, hr⟩ | ⟨hstop, hh⟩
    · rw [hp] at hr; cases hr
    · rw [hp] at hh
      refine .inr ⟨hstop, ?_⟩
      cases cb <;> first | rfl | cases hh
  | @callbackReturns cb hp =>
    rcases hi with ⟨ret, hr⟩ | ⟨hstop, -⟩
    · rw [hp] at hr; cases hr
    · refine .inr ⟨hstop, ?_⟩
      cases cb <;> rfl
  | startNext | startFails => exact hi.imp id fun hs => ⟨(Op.exec_stop _ _ _ _).trans hs.1, hs.2⟩
  | startThread _ _ ht =>
    rcases hi with ⟨ret, hr⟩ | ⟨hstop, -⟩
    · exact absurd (hj ht) (by simp [hr])
    · exact .inr ⟨hstop, rfl⟩
  | finish => exact hi.imp id fun hs => ⟨rfl, hs.2⟩
  | call | startAborts | sendMsg | finishJoin | finishNoThread | finishSelf | finishClose | finishReset =>
    exact hi
  | _ => simp_all [Over, Pc.halted]

theorem Over.not_polling {s : State} (h : Over s) : (∀ d, s.pc ≠ .select d) ∧ s.pc ≠ .recv := by
  constructor
  · intro d hp
    simp [Over, hp, Pc.halted] at h
  · intro hp
    simp [Over, hp, Pc.halted] at h

/-- A `Recv` that returned less than `1` is the end of a TCP connection. -/
theorem over_of_recv {s : State} {res : Option (List UInt8)} {errno : ℤ} {d : SOCKET}
    {c : Option ConnId} (hp : s.pc = afterRecv .tcpClient res errno)
    (he : (Event.recv d c res).endsStream = true) : Over s := by
  refine .inl ⟨disconnectRet res errno, ?_⟩
  cases res with
  | none => exact hp
  | some bytes =>
    cases bytes with
    | nil => exact hp
    | cons b bs => cases he

/-! ### The loop -/

/-- What the receive thread has read, and what it has told. -/
structure Recounted (k : Kind) (s : State) : Prop where
  /-- The callbacks begun, with the one that is just being made. -/
  callbacks : notices s.os.log ++ s.pc.pending = expected k s.os.log
  /-- After the end of the connection there is neither a `Select` nor a `Recv`. -/
  final : k = .tcpClient → NoneAfter Event.endsStream Event.polls s.os.log
  /-- The end of the connection. -/
  isOver : k = .tcpClient → s.os.log.any Event.endsStream = true → Over s

/-- At a call of `Select` or `Recv` the connection has not ended. -/
theorem Recounted.open {k : Kind} {s : State} (hi : Recounted k s)
    (hp : (∃ d, s.pc = .select d) ∨ s.pc = .recv) (hk : k = .tcpClient) :
    s.os.log.any Event.endsStream = false := by
  by_contra hends
  have hover := (hi.isOver hk (by simpa using hends)).not_polling
  rcases hp with ⟨d, hp⟩ | hp
  · exact hover.1 d hp
  · exact hover.2 hp

theorem none_of_any {p : Event → Bool} {log : List Event} (h : log.any p = false) :
    ∀ e ∈ log, p e = false := by simpa using h

theorem Tells.recounted {k : Kind} {s s' : State} (h : Tells k s s') (hover : Over s → Over s')
    (hi : Recounted k s) : Recounted k s' := by
  cases h with
  | aside hlog hp =>
    refine ⟨?_, fun hk => ?_, fun hk hends => ?_⟩
    · rw [notices_grows hlog, hp, expected_grows hlog]; exact hi.callbacks
    · exact (hi.final hk).grows hlog fun _ => Event.polls_of_aside
    · refine hover (hi.isOver hk ?_)
      rw [List.any_eq_true] at hends ⊢
      exact (hlog.exists_iff fun _ => Event.endsStream_of_aside).mp hends
  | @select d n hp hp' hlog =>
    have hopen := hi.open (.inl ⟨d, hp⟩)
    refine ⟨?_, fun hk => ?_, fun hk hends => ?_⟩
    · rw [hlog, expected_append_of_notice rfl rfl, ← hi.callbacks, hp, hp']
      simp [Event.notice, Pc.pending]
    · rw [hlog, NoneAfter.append_iff]
      exact ⟨hi.final hk, fun _ => none_of_any (hopen hk)⟩
    · rw [hlog] at hends
      simp [hopen hk, Event.endsStream] at hends
  | @recv d c res errno hp hp' hlog =>
    have hopen := hi.open (.inr hp)
    refine ⟨?_, fun hk => ?_, fun hk hends => ?_⟩
    · rw [hlog, expected_append_recv errno hopen, ← hi.callbacks, hp, hp']
      simp [Event.notice, Pc.pending]
    · rw [hlog, NoneAfter.append_iff]
      exact ⟨hi.final hk, fun _ => none_of_any (hopen hk)⟩
    · subst hk
      rw [hlog] at hends
      exact over_of_recv hp' (by simpa [hopen rfl] using hends)
  | @publish cb hp hp' hlog =>
    have he : payload k cb.event = none ∧ cb.event.endsStream = false ∧ cb.event.polls = false := by
      cases cb <;> exact ⟨rfl, rfl, rfl⟩
    refine ⟨?_, fun hk => ?_, fun hk hends => ?_⟩
    · rw [hlog, expected_append_of_notice he.1 he.2.1, ← hi.callbacks, hp, hp']
      cases cb <;> simp [Callback.event, Event.notice, Pc.pending, Callback.notice]
    · rw [hlog]
      exact (hi.final hk).append he.2.2
    · rw [hlog] at hends
      exact hover (hi.isOver hk (by simpa [he.2.1] using hends))

/-- The loop ends only on `m_stop`. -/
def Stopped (s : State) : Prop := s.pc = .returned → s.stop = true

theorem Step.stopped {k : Kind} {s s' : State} {a : Action} (h : Step k s a s') (he : Ended s)
    (hi : Stopped s) : Stopped s' := by
  cases h with
  | taskReturns _ hs | checkReturns _ hs => exact fun _ => hs
  | @recv res errno =>
    intro hp
    have htask := afterRecv_task k res errno
    rw [show afterRecv k res errno = .returned from hp] at htask
    cases htask
  | @callbackReturns cb hp =>
    intro hr
    cases cb with
    | data bytes => cases hr
    | disconnect ret => exact he ret (.inr hp)
  | startNext | startFails => exact fun hp => (Op.exec_stop _ _ _ _).trans (hi hp)
  | setStop | finish => exact fun _ => rfl
  | testStop | guard | isset => intro hp; simp only at hp; split at hp <;> cases hp
  | _ => first | exact hi | exact fun hp => by cases hp

/-- What holds of the receive thread throughout. -/
structure Loop (k : Kind) (s : State) : Prop where
  /-- What the receive thread has read, and what it has told. -/
  recounted : Recounted k s
  /-- A thread that was joined had returned. -/
  joined : Joined s
  /-- `onDisconnect` is called with `m_stop` set. -/
  ended : Ended s
  /-- The loop ends only on `m_stop`. -/
  stopped : Stopped s

theorem fresh_loop (k : Kind) (options : SocketOpt) : Loop k (fresh options) where
  recounted := ⟨by simp [fresh, notices, expected, payloads, Pc.pending], fun _ => by simp [fresh],
    fun _ h => by simp [fresh] at h⟩
  joined _ := .inl rfl
  ended ret h := by simp [fresh] at h
  stopped h := by simp [fresh] at h

theorem Step.loop {k : Kind} {s s' : State} {a : Action} (h : Step k s a s') (hi : Loop k s) :
    Loop k s' :=
  ⟨(h.tells hi.joined).recounted (h.isOver hi.joined) hi.recounted, h.joined hi.joined, h.ended hi.ended,
    h.stopped hi.ended hi.stopped⟩

theorem Loop.reach {k : Kind} {options : SocketOpt} {ok : State → Action → Prop} {s : State}
    (h : (machine k).Reach ok (fresh options) s) : Loop k s :=
  h.invariant (fresh_loop k options) fun _ _ _ hi _ hs => (Step.of_step hs).2.loop hi

/-- **The receive loop is faithful.** -/
structure Faithful (k : Kind) (s : State) : Prop where
  /-- The callbacks begun, with the one that is just being made, are one `onReceiveData` for each
  piece of data and, in `TcpClient`, one `onDisconnect` at the end of the connection. -/
  callbacks : notices s.os.log ++ s.pc.pending = expected k s.os.log
  /-- `m_stop` is set when `onDisconnect` is called. -/
  disconnected : ∀ ret, .onDisconnect ret ∈ s.os.log → s.stop = true
  /-- After the end of the connection there is neither a `Select` nor a `Recv`. -/
  final : k = .tcpClient → NoneAfter Event.endsStream Event.polls s.os.log
  /-- The loop ends only on `m_stop`, and with nothing left to tell. -/
  returned : s.pc = .returned → s.stop = true ∧ notices s.os.log = expected k s.os.log

/-- Data is not a disconnection. -/
theorem disconnect_notMem_data (b : Bool) (datas : List (List UInt8)) :
    Notice.disconnect b ∉ datas.map Notice.data := by simp

theorem Loop.disconnected {k : Kind} {s : State} (hi : Loop k s) {ret : SocketRet}
    (hm : .onDisconnect ret ∈ s.os.log) : s.stop = true := by
  have hn : Notice.disconnect ret.success ∈ notices s.os.log := List.mem_filterMap.mpr ⟨_, hm, rfl⟩
  have hcb := hi.recounted.callbacks
  have hexp : Notice.disconnect ret.success ∈ expected k s.os.log := by
    rw [← hcb]
    exact List.mem_append_left _ hn
  have hends : k = .tcpClient ∧ s.os.log.any Event.endsStream = true := by
    by_contra hne
    rw [expected, if_neg hne, List.append_nil] at hexp
    exact disconnect_notMem_data _ _ hexp
  rcases hi.recounted.isOver hends.1 hends.2 with ⟨ret', hp⟩ | hstop
  · -- the callback that is just being made would be a second one
    rw [hp, expected, if_pos hends] at hcb
    have hdata := (List.append_inj' hcb rfl).1
    rw [hdata] at hn
    exact absurd hn (disconnect_notMem_data _ _)
  · exact hstop.1

/-- **The receive loops of `TcpClient` and `UdpSocket` tell what `Recv` returned**, in every run:
whatever `Select` and `Recv` return, and whenever `m_stop` is set. -/
theorem callbacks_faithful {k : Kind} {options : SocketOpt} {s : State}
    (h : (machine k).Reach Machine.Any (fresh options) s) : Faithful k s := by
  have hi := Loop.reach h
  refine ⟨hi.recounted.callbacks, fun ret => hi.disconnected, hi.recounted.final, fun hp => ?_⟩
  have hcb := hi.recounted.callbacks
  rw [hp] at hcb
  exact ⟨hi.stopped hp, by simpa [Pc.pending] using hcb⟩

/-- A TCP client receives data and the end of the stream; a UDP socket an empty datagram, and an
error, and is then stopped. -/
theorem callbacks_faithful_two : (∃ s, (machine .tcpClient).Reach Machine.Any (fresh {}) s ∧
      notices s.os.log = [.data [7], .disconnect false] ∧ Faithful .tcpClient s) ∧
    ∃ s, (machine .udpSocket).Reach Machine.Any (fresh {}) s ∧ notices s.os.log = [.data []] ∧
      Faithful .udpSocket s := by
  constructor
  · obtain ⟨s, hr, hn⟩ : ∃ s, (machine .tcpClient).Reach Machine.Any (fresh {}) s ∧
        notices s.os.log = [.data [7], .disconnect false] :=
      Machine.exists_reach (connectOk 1 ++ serveActions .tcpClient [7] ++ [.callbackReturns] ++ endActions)
        (by decide)
    exact ⟨s, hr, hn, callbacks_faithful hr⟩
  · obtain ⟨s, hr, hn⟩ : ∃ s, (machine .udpSocket).Reach Machine.Any (fresh {}) s ∧
        notices s.os.log = [.data []] :=
      Machine.exists_reach (startUnicastOk 1 ++ serveActions .udpSocket [] ++
        [.callbackReturns, .testStop, .guard, .fdSet, .select, .selectReturns 1 true, .isset,
         .recv none 104] ++ finishActions.take 2 ++ [.testStop]) (by decide)
    exact ⟨s, hr, hn, callbacks_faithful hr⟩

end Receiver

end SocketsCpp
