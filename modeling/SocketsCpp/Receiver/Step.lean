import SocketsCpp.Receiver.Model

/-!
# What a step of the TCP client or the UDP socket can do

`Step k s a s'` lists the steps of the machine of class `k`, each with what it requires
of the state. Every step that the machine takes is in the list (`Step.of_step`).
-/

namespace SocketsCpp.Receiver

open SocketsCpp.Library

/-- The steps of the machine. -/
inductive Step (k : Kind) : State → Action → State → Prop where
  /-- `m_stop` is not set. -/
  | testStop {s : State} : s.pc = .loopHead → s.stop = false →
      Step k s .testStop { s with pc := if k = .tcpClient then .fdSet else .guard }
  /-- `m_stop` is set. -/
  | taskReturns {s : State} : s.pc = .loopHead → s.stop = true →
      Step k s .testStop { s with pc := .returned }
  /-- The test of `m_fd`. -/
  | guard {s : State} : s.pc = .guard →
      Step k s .guard { s with pc := if s.sockfd ≠ INVALID_SOCKET then .fdSet else .loopHead }
  /-- `FD_SET(m_sockfd, &fds)`. -/
  | fdSet {s : State} : s.pc = .fdSet →
      Step k s .fdSet { s with pc := .select s.sockfd, os := s.os.record (.fdSet s.sockfd) }
  /-- `Select` is called. -/
  | select {s : State} {d : SOCKET} : s.pc = .select d →
      Step k s .select { s with pc := .waiting d, os := s.os.record (.select (s.sockfd + 1)) }
  /-- `Select` fails or times out. -/
  | selectFails {s : State} {d : SOCKET} {r : ℤ} {ready : Bool} : s.pc = .waiting d → r ≤ 0 →
      Step k s (.selectReturns r ready) { s with pc := .checkStop }
  /-- `Select` reports descriptors ready. -/
  | selectReady {s : State} {d : SOCKET} {r : ℤ} {ready : Bool} : s.pc = .waiting d → 0 < r →
      Step k s (.selectReturns r ready) { s with pc := .isset d ready }
  /-- `m_stop` is not set after `Select` failed. -/
  | checkStop {s : State} : s.pc = .checkStop → s.stop = false →
      Step k s .checkStop { s with pc := .loopHead }
  /-- `m_stop` is set after `Select` failed. -/
  | checkReturns {s : State} : s.pc = .checkStop → s.stop = true →
      Step k s .checkStop { s with pc := .returned }
  /-- `FD_ISSET(m_sockfd, &fds)`. -/
  | isset {s : State} {d : SOCKET} {ready : Bool} : s.pc = .isset d ready →
      Step k s .isset { s with
        pc := if ready ∧ s.sockfd = d then .recv else .loopHead, os := s.os.record (.fdIsset s.sockfd) }
  /-- `Recv` returns. -/
  | recv {s : State} {res : Option (List UInt8)} {errno : ℤ} : s.pc = .recv →
      (res.getD []).length ≤ MAX_PACKET_SIZE k →
      Step k s (.recv res errno) { s with
        pc := afterRecv k res errno, os := s.os.record (.recv s.sockfd (s.os.owner s.sockfd) res) }
  /-- `m_stop = true`. -/
  | setStop {s : State} {ret : SocketRet} : s.pc = .setStop ret →
      Step k s .setStop
        { s with stop := true, pc := .publish (.disconnect ret), os := s.os.record .connectionEnd }
  /-- A callback begins. -/
  | publish {s : State} {cb : Callback} : s.pc = .publish cb →
      Step k s .publish { s with pc := .callback cb, os := s.os.record cb.event }
  /-- A callback returns. -/
  | callbackReturns {s : State} {cb : Callback} : s.pc = .callback cb → s.calls .callback = .idle →
      Step k s .callbackReturns { s with pc := cb.next }
  /-- A method is called. -/
  | call {s : State} {w : Caller} {c : Call} : s.calls w = .idle → c.belongs k = true →
      Step k s (.call w c) (s.goto w c.begin)
  /-- A method that sets the socket up goes on. -/
  | startNext {s : State} {w : Caller} {i : Instr} {rest : List Instr} {a : Answer} :
      s.calls w = .start (i :: rest) → i.op ≠ .thread → i.op.Admissible a s.os → i.fails a = false →
      Step k s (.step w a)
        ({ s with toEndpoint := (i.op.exec a s.toEndpoint s.os).1
                  os := (i.op.exec a s.toEndpoint s.os).2 }.goto w (.start rest))
  /-- It fails. -/
  | startFails {s : State} {w : Caller} {i : Instr} {rest : List Instr} {a : Answer} :
      s.calls w = .start (i :: rest) → i.op ≠ .thread → i.op.Admissible a s.os → i.fails a = true →
      Step k s (.step w a)
        ({ s with toEndpoint := (i.op.exec a s.toEndpoint s.os).1
                  os := (i.op.exec a s.toEndpoint s.os).2 }.ret w (.start (.fail (i.msg a))))
  /-- It creates the thread. -/
  | startThread {s : State} {w : Caller} {i : Instr} {rest : List Instr} {a : Answer} :
      s.calls w = .start (i :: rest) → i.op = .thread → s.thread = false →
      Step k s (.step w a) ({ s with thread := true, pc := .loopHead }.ret w (.start .ok))
  /-- It assigns to a joinable thread. -/
  | startAborts {s : State} {w : Caller} {i : Instr} {rest : List Instr} {a : Answer} :
      s.calls w = .start (i :: rest) → i.op = .thread → s.thread = true →
      Step k s (.step w a) { s with aborted := true }
  /-- `sendMsg` sends. -/
  | sendMsg {s : State} {w : Caller} {msg : List UInt8} {a : Answer} : s.calls w = .sendMsg msg →
      Step k s (.step w a)
        ({ s with os := (sendMsg k s msg a).1 }.ret w (.sendMsg (sendMsg k s msg a).2))
  /-- `finish` sets `m_stop`. -/
  | finish {s : State} {w : Caller} {a : Answer} : s.calls w = .finish →
      Step k s (.step w a)
        ({ s with stop := true, os := s.os.record (.finishBegin w) }.goto w .finishJoin)
  /-- `finish` joins the thread. -/
  | finishJoin {s : State} {n : ℕ} {a : Answer} : s.calls (.app n) = .finishJoin → s.thread = true →
      s.pc = .returned →
      Step k s (.step (.app n) a)
        ({ s with thread := false, os := s.os.record .joined }.goto (.app n) .finishClose)
  /-- `finish` has no thread to join. -/
  | finishNoThread {s : State} {w : Caller} {a : Answer} : s.calls w = .finishJoin → s.thread = false →
      Step k s (.step w a) (s.goto w .finishClose)
  /-- `finish` on the thread itself: the exception of `join` is caught. -/
  | finishSelf {s : State} {w : Caller} {a : Answer} : s.calls w = .finishJoin → s.thread = true →
      (∀ n, w ≠ .app n) → Step k s (.step w a) (s.goto w .finishClose)
  /-- `finish` closes the socket. -/
  | finishClose {s : State} {w : Caller} {a : Answer} : s.calls w = .finishClose →
      Step k s (.step w a) ({ s with os := s.os.closeValid s.sockfd }.goto w .finishReset)
  /-- `finish` forgets the socket. -/
  | finishReset {s : State} {w : Caller} {a : Answer} : s.calls w = .finishReset →
      Step k s (.step w a) ({ s with sockfd := INVALID_SOCKET }.ret w (.finishEnd w))

theorem CallPc.isIdle_iff {p : CallPc} : p.isIdle = true ↔ p = .idle := by
  cases p <;> simp [CallPc.isIdle]

/-- Who may call a method. -/
theorem mayCall_iff {s : State} {w : Caller} : mayCall s w = true ↔
    s.calls w = .idle ∧ ((∃ n, w = .app n) ∨ (w = .callback ∧ ∃ cb, s.pc = .callback cb)) := by
  unfold mayCall
  rw [Bool.and_eq_true, CallPc.isIdle_iff]
  refine and_congr_right fun _ => ?_
  cases w <;> cases s.pc <;> simp

theorem Step.of_receiveStep {k : Kind} {s s' : State} {a : Action} (h : receiveStep k s a = some s') :
    Step k s a s' := by
  unfold receiveStep at h
  split at h
  · next hp =>
    cases h
    split
    · next hs => exact .taskReturns hp hs
    · next hs => exact .testStop hp (by simpa using hs)
  · next hp => cases h; exact .guard hp
  · next hp => cases h; exact .fdSet hp
  · next hp => cases h; exact .select hp
  · next hp =>
    cases h
    split
    · next hr => exact .selectFails hp hr
    · next hr => exact .selectReady hp (by omega)
  · next hp =>
    cases h
    split
    · next hs => exact .checkReturns hp hs
    · next hs => exact .checkStop hp (by simpa using hs)
  · next hp => cases h; exact .isset hp
  · next hp =>
    split at h
    · cases h
    · next hmax => cases h; exact .recv hp (Nat.not_lt.mp hmax)
  · next hp => cases h; exact .setStop hp
  · next hp => cases h; exact .publish hp
  · next hp =>
    split at h
    · next hi => cases h; exact .callbackReturns hp (CallPc.isIdle_iff.mp hi)
    · cases h
  · cases h

theorem Step.of_startStep {k : Kind} {s s' : State} {w : Caller} {a : Answer} {is : List Instr}
    (hc : s.calls w = .start is) (h : startStep s w a is = some s') : Step k s (.step w a) s' := by
  unfold startStep at h
  split at h
  · cases h
  · split at h
    · next ht =>
      split at h <;> cases h
      · next hj => exact .startAborts hc ht hj
      · next hj => exact .startThread hc ht (by simpa using hj)
    · next ht =>
      split at h
      · next ha =>
        dsimp only at h
        split at h <;> cases h
        · next hf => exact .startFails hc ht ha hf
        · next hf => exact .startNext hc ht ha (by simpa using hf)
      · cases h

theorem Step.of_callStep {k : Kind} {s s' : State} {w : Caller} {a : Answer}
    (h : callStep k s w a = some s') : Step k s (.step w a) s' := by
  unfold callStep at h
  split at h
  · cases h
  · next hc => exact .of_startStep hc h
  · next hc => cases h; exact .sendMsg hc
  · next hc => cases h; exact .finish hc
  · next hc =>
    split at h
    · next ht =>
      split at h
      · next hp => cases h; exact .finishJoin hc ht hp
      · cases h
      · next hw => cases h; exact .finishSelf hc ht (by rintro n rfl; cases hp : s.pc <;> simp_all)
    · next ht => cases h; exact .finishNoThread hc (by simpa using ht)
  · next hc => cases h; exact .finishClose hc
  · next hc => cases h; exact .finishReset hc

/-- **Every step of the machine is in the list.** -/
theorem Step.of_step {k : Kind} {s s' : State} {a : Action} (h : (machine k).step s a = some s') :
    s.aborted = false ∧ Step k s a s' := by
  have h : step k s a = some s' := h
  unfold step at h
  split at h
  · cases h
  · next hab =>
    refine ⟨by simpa using hab, ?_⟩
    split at h
    · split at h
      · next hc =>
        cases h
        exact .call (mayCall_iff.mp hc.1).1 hc.2
      · cases h
    · exact .of_callStep h
    · exact .of_receiveStep h

theorem mayCall_of_step {k : Kind} {s s' : State} {w : Caller} {c : Call}
    (h : (machine k).step s (.call w c) = some s') : mayCall s w = true := by
  have h : step k s (.call w c) = some s' := h
  unfold step at h
  split at h
  · cases h
  · simp only at h
    split at h
    · next hc => exact hc.1
    · cases h

end SocketsCpp.Receiver
