import SocketsCpp.Receiver.Delivery

/-!
# Shutting down

The receive thread and `finish`, after one successful call that sets the socket up. `finish` called
by a thread of the application waits for the receive thread before it closes the descriptor; called
in a callback it does not wait, and closes the descriptor under the loop that the callback returns to.

* `Initial` — the object right after the call.
* `Placed` — `finish` closes the descriptor only when the receive thread has returned, or is in the
  callback that called it.
* `Phase` — the descriptor is open; or it was closed, and the loop only has to find `m_stop` set.
* `orderly_shutdown` — the account of a whole run.
-/

namespace SocketsCpp

open SocketsCpp.Library

/-- A callback of the receive thread begins. -/
def Event.publishes : Event → Bool
  | .onReceiveData _ | .onDisconnect _ => true
  | _ => false

/-- `finish` returns. -/
def Event.ends : Event → Bool
  | .finishEnd _ => true
  | _ => false

/-- `finish`, called by a thread of the application, returns. -/
def Event.endsOutside : Event → Bool
  | .finishEnd (.app _) => true
  | _ => false

/-- An event that has nothing to do with closing. -/
def Event.bystands (e : Event) : Bool := !e.isClose && !e.ends

/-- An event that is neither a call of the receive thread nor the end of `finish` outside it. -/
def Event.mute (e : Event) : Bool := !e.polls && !e.publishes && !e.endsOutside

theorem Event.mute_iff {e : Event} :
    e.mute = true ↔ e.polls = false ∧ e.publishes = false ∧ e.endsOutside = false := by
  simp [mute, and_assoc]

theorem Event.bystands_iff {e : Event} : e.bystands = true ↔ e.isClose = false ∧ e.ends = false := by
  simp [bystands]

namespace Receiver

/-! ### An object just set up -/

/-- `s` is a state of the object right after one successful call that sets the socket up. -/
def Started (k : Kind) (s : State) : Prop :=
  ∃ options c is answers, c.begin = .start is ∧
    (machine k).run (fresh options) (.call (.app 0) c :: answered answers) = some s ∧
    Event.start .ok ∈ s.os.log

/-- The object right after a successful call. -/
structure Initial (s : State) : Prop where
  /-- The receive thread is at the head of its loop. -/
  pc : s.pc = .loopHead
  /-- It is joinable. -/
  thread : s.thread = true
  /-- `m_stop` is not set. -/
  stop : s.stop = false
  /-- No call is being made. -/
  calls : ∀ w, s.calls w = .idle
  /-- There is a descriptor. -/
  sockfd : 0 ≤ s.sockfd
  /-- Only the calls that set the socket up were made. -/
  log : ∀ e ∈ s.os.log, e.setup = true ∨ e = .start .ok

/-- The object in the middle of the first call, with the instructions `rest` left. -/
structure Setting (s : State) (rest : List Instr) : Prop where
  /-- The call is being made. -/
  start : s.calls (.app 0) = .start rest
  /-- No other call is. -/
  idle : ∀ w, w ≠ .app 0 → s.calls w = .idle
  /-- There is no thread. -/
  thread : s.thread = false
  /-- `m_stop` is not set. -/
  stop : s.stop = false
  /-- The descriptor. -/
  held : Holding rest s.sockfd
  /-- Only the calls that set the socket up were made. -/
  log : ∀ e ∈ s.os.log, e.setup = true

theorem Call.begin_opens {c : Call} {is : List Instr} (h : c.begin = .start is) : Opens is := by
  cases c with
  | connectTo => cases h; exact opens_connectScript _ _
  | startUnicastLocal => cases h; exact opens_startUnicastLocalScript _
  | startUnicast => cases h; exact opens_startUnicastScript _ _ _
  | startMcast => cases h; exact opens_startMcastScript _ _ _ _
  | sendMsg => cases h
  | finish => cases h

section

variable {k : Kind} {s s' : State} {rest : List Instr} {a : Answer}

/-- A step of the call. -/
theorem Setting.step (h : Setting s rest) (hs : (machine k).step s (.step (.app 0) a) = some s') :
    (∃ rest', Setting s' rest') ∨
      (s'.calls (.app 0) = .idle ∧ (Event.start .ok ∈ s'.os.log → Initial s')) := by
  obtain ⟨-, hs⟩ := Step.of_step hs
  have hc := h.start
  cases hs with
  | @startNext _ i rest' _ hc' hi hadm hf =>
    rw [hc] at hc'
    cases hc'
    refine .inl ⟨rest', by simp, fun w hw => by simpa [hw] using h.idle w hw, ?_, ?_, ?_, ?_⟩
    · exact (Op.exec_thread _ _ _ _).trans h.thread
    · exact (Op.exec_stop _ _ _ _).trans h.stop
    · exact h.held.next hadm hf
    · exact fun e he => ((Op.exec_log _ _ _ _).mem he).elim (h.log e) id
  | startFails hc' =>
    rw [hc] at hc'
    cases hc'
    refine .inr ⟨by simp, fun hm => ?_⟩
    rcases List.mem_append.mp hm with hm | hm
    · exact absurd (((Op.exec_log _ _ _ _).mem hm).elim (h.log _) id) (by simp [Event.setup])
    · simp [SocketRet.fail, SocketRet.ok] at hm
  | startThread hc' hi =>
    rw [hc] at hc'
    cases hc'
    refine .inr ⟨by simp, fun _ => ⟨rfl, rfl, h.stop, fun w => ?_, h.held.nonneg (.inl hi), fun e he => ?_⟩⟩
    · by_cases hw : w = .app 0
      · subst hw; simp
      · simpa [hw] using h.idle w hw
    · rcases List.mem_append.mp he with he | he
      · exact .inl (h.log e he)
      · exact .inr (List.mem_singleton.mp he)
  | startAborts _ _ ht => rw [h.thread] at ht; cases ht
  | _ => simp_all

/-- A run of the call from the middle to its end. -/
theorem Setting.run : ∀ {answers : List Answer} {rest : List Instr} {s s' : State},
    Setting s rest → (machine k).run s (answered answers) = some s' →
    Event.start .ok ∈ s'.os.log → Initial s'
  | [], _, _, _, h, hr, hm => by
    cases hr
    exact absurd (h.log _ hm) (by simp [Event.setup])
  | a :: answers, _, _, _, h, hr, hm => by
    obtain ⟨s₁, hs, hr⟩ := Option.bind_eq_some_iff.mp hr
    rcases h.step hs with ⟨rest', h₁⟩ | ⟨hidle, hi⟩
    · exact h₁.run hr hm
    · cases answers with
      | nil => cases hr; exact hi hm
      | cons a' answers =>
        obtain ⟨s₂, hs, -⟩ := Option.bind_eq_some_iff.mp hr
        obtain ⟨-, hs⟩ := Step.of_step hs
        cases hs <;> simp_all

end

/-- **An object just set up** has a descriptor, and its thread is at the head of its loop. -/
theorem Started.initial {k : Kind} {s : State} (h : Started k s) : Initial s := by
  obtain ⟨options, c, is, answers, hc, hr, hm⟩ := h
  obtain ⟨s₁, hs, hr⟩ := Option.bind_eq_some_iff.mp hr
  have hs₁ : s₁ = (fresh options).goto (.app 0) (.start is) := by
    obtain ⟨-, hs⟩ := Step.of_step hs
    cases hs
    rw [hc]
  subst hs₁
  have h₀ : Setting ((fresh options).goto (.app 0) (.start is)) is :=
    ⟨by simp, fun w hw => by simp [hw, fresh], rfl, rfl, .inl (Call.begin_opens hc), by simp [fresh]⟩
  exact h₀.run hr hm

/-! ### Who calls `finish` -/

/-- Once the socket is set up only `sendMsg` and `finish` are called, and `finish` by one thread of the
application and by callbacks. -/
def Action.finishing : Action → Bool
  | .call _ (.sendMsg _) | .call (.app 0) .finish | .call .callback .finish => true
  | .call _ _ => false
  | _ => true

/-- The runs after the socket is set up. -/
def Finishing (_ : State) (a : Action) : Prop := a.finishing = true

instance (s : State) (a : Action) : Decidable (Finishing s a) := inferInstanceAs (Decidable (_ = true))

/-- What is called. -/
theorem Finishing.call {s : State} {w : Caller} {c : Call} (h : Finishing s (.call w c)) :
    (∃ msg, c = .sendMsg msg) ∨ (c = .finish ∧ (w = .app 0 ∨ w = .callback)) := by
  have h : (Action.call w c).finishing = true := h
  unfold Action.finishing at h
  split at h
  · next he => cases he; exact .inl ⟨_, rfl⟩
  · next he => cases he; exact .inr ⟨rfl, .inl rfl⟩
  · next he => cases he; exact .inr ⟨rfl, .inr rfl⟩
  · cases h
  · next hno => exact absurd rfl (hno w c)

/-- Where a call of `finish` is after it has set `m_stop`. -/
def CallPc.stopping : CallPc → Bool
  | .finishJoin | .finishClose | .finishReset => true
  | _ => false

/-- Where a call of `finish` is after `join`. -/
def CallPc.closing : CallPc → Bool
  | .finishClose | .finishReset => true
  | _ => false

/-- Where the calls are. -/
structure Placed (s : State) : Prop where
  /-- The socket is not being set up. -/
  noStart : ∀ w is, s.calls w ≠ .start is
  /-- A callback that makes a call is running. -/
  callback : s.calls .callback ≠ .idle → ∃ cb, s.pc = .callback cb
  /-- `finish` is called by one thread of the application and by callbacks. -/
  caller : ∀ w, w ≠ .app 0 → w ≠ .callback → s.calls w = .idle ∨ ∃ msg, s.calls w = .sendMsg msg
  /-- `finish` has set `m_stop`. -/
  stopping : ∀ w, (s.calls w).stopping = true → s.stop = true
  /-- The application closes the descriptor only when the receive thread has returned. -/
  closer : (s.calls (.app 0)).closing = true → s.pc = .returned
  /-- A thread that was joined had returned. -/
  joined : s.thread = false → s.pc = .returned

section

variable {k : Kind} {s s' : State} {a : Action}

/-- The receive thread moves on, with no callback running. -/
theorem Placed.move (h : Placed s) (hcalls : s'.calls = s.calls) (hstop : s.stop = true → s'.stop = true)
    (hthread : s'.thread = s.thread) (hcb : ∀ cb, s.pc ≠ .callback cb) (hr : s.pc ≠ .returned) :
    Placed s' where
  noStart := by rw [hcalls]; exact h.noStart
  callback hc := by
    rw [hcalls] at hc
    obtain ⟨cb, hp⟩ := h.callback hc
    exact absurd hp (hcb cb)
  caller := by rw [hcalls]; exact h.caller
  stopping w hw := by rw [hcalls] at hw; exact hstop (h.stopping w hw)
  closer hc := by rw [hcalls] at hc; exact absurd (h.closer hc) hr
  joined ht := by rw [hthread] at ht; exact absurd (h.joined ht) hr

/-- A call moves on, where it may. -/
theorem Placed.update {w : Caller} {q : CallPc} (h : Placed s)
    (hcalls : s'.calls = Function.update s.calls w q) (hpc : s'.pc = s.pc)
    (hstop : s'.stop = (s.stop || q.stopping)) (hthread : s'.thread = s.thread)
    (hq : ∀ is, q ≠ .start is) (hcb : w = .callback → q ≠ .idle → ∃ cb, s.pc = .callback cb)
    (hw : w ≠ .app 0 → w ≠ .callback → q = .idle ∨ ∃ msg, q = .sendMsg msg)
    (hclose : w = .app 0 → q.closing = true → s.pc = .returned) : Placed s' := by
  have hof : ∀ {w' : Caller}, w' ≠ w → s'.calls w' = s.calls w' := fun {w'} hne => by
    rw [hcalls, Function.update_of_ne hne]
  have hself : s'.calls w = q := by rw [hcalls, Function.update_self]
  refine ⟨fun w' => ?_, fun hc => ?_, fun w' h0 h1 => ?_, fun w' hw' => ?_, fun hc => ?_, fun ht => ?_⟩
  · by_cases hww : w' = w
    · subst hww; rw [hself]; exact hq
    · rw [hof hww]; exact h.noStart w'
  · rw [hpc]
    by_cases hww : .callback = w
    · subst hww; rw [hself] at hc; exact hcb rfl hc
    · rw [hof hww] at hc; exact h.callback hc
  · by_cases hww : w' = w
    · subst hww; rw [hself]; exact hw h0 h1
    · rw [hof hww]; exact h.caller w' h0 h1
  · rw [hstop]
    by_cases hww : w' = w
    · subst hww; rw [hself] at hw'; simp [hw']
    · rw [hof hww] at hw'; simp [h.stopping w' hw']
  · rw [hpc]
    by_cases hww : .app 0 = w
    · subst hww; rw [hself] at hc; exact hclose rfl hc
    · rw [hof hww] at hc; exact h.closer hc
  · rw [hpc]; exact h.joined (hthread ▸ ht)

/-- Who calls `finish`. -/
theorem Placed.finisher {w : Caller} (h : Placed s) (hi : s.calls w ≠ .idle)
    (hm : ∀ msg, s.calls w ≠ .sendMsg msg) : w = .app 0 ∨ (w = .callback ∧ ∃ cb, s.pc = .callback cb) := by
  by_cases h0 : w = .app 0
  · exact .inl h0
  · by_cases h1 : w = .callback
    · subst h1
      exact .inr ⟨rfl, h.callback hi⟩
    · rcases h.caller w h0 h1 with hc | ⟨msg, hc⟩
      · exact absurd hc hi
      · exact absurd hc (hm msg)

/-- A call of `finish` moves on. -/
theorem Placed.finish_goes_on {w : Caller} {p q : CallPc} (h : Placed s) (hc : s.calls w = p)
    (hidle : p ≠ .idle) (hmsg : ∀ msg, p ≠ .sendMsg msg)
    (hcalls : s'.calls = Function.update s.calls w q) (hpc : s'.pc = s.pc)
    (hstop : s'.stop = (s.stop || q.stopping)) (hthread : s'.thread = s.thread)
    (hq : ∀ is, q ≠ .start is) (hclose : w = .app 0 → q.closing = true → s.pc = .returned) :
    Placed s' := by
  subst hc
  refine h.update hcalls hpc hstop hthread hq ?_ ?_ hclose
  · rintro rfl -
    exact h.callback hidle
  · intro h0 h1
    rcases h.finisher hidle hmsg with hw | ⟨hw, -⟩
    · exact absurd hw h0
    · exact absurd hw h1

theorem Step.placed (h : Step k s a s') (ha : Finishing s a)
    (hm : ∀ w c, a = .call w c → mayCall s w = true) (hi : Placed s) : Placed s' := by
  cases h with
  | startNext hc | startFails hc | startThread hc | startAborts hc => exact absurd hc (hi.noStart _ _)
  | @call w c hc =>
    have hmay := hm w c rfl
    have hcb : w = .callback → c.begin ≠ .idle → ∃ cb, s.pc = .callback cb := by
      rintro rfl -
      simpa using (mayCall_iff.mp hmay).2
    rcases ha.call with ⟨msg, rfl⟩ | ⟨rfl, hw⟩
    · exact hi.update rfl rfl (by simp [Call.begin, CallPc.stopping]) rfl (by simp [Call.begin]) hcb
        (by simp [Call.begin]) (by simp [Call.begin, CallPc.closing])
    · refine hi.update rfl rfl (by simp [Call.begin, CallPc.stopping]) rfl (by simp [Call.begin]) hcb ?_
        (by simp [Call.begin, CallPc.closing])
      intro h0 h1
      rcases hw with rfl | rfl
      · exact absurd rfl h0
      · exact absurd rfl h1
  | sendMsg hc =>
    exact hi.update rfl rfl (by simp [CallPc.stopping]) rfl (by simp) (by simp) (by simp)
      (by simp [CallPc.closing])
  | finish hc =>
    exact hi.finish_goes_on hc (by simp) (by simp) rfl rfl (by simp [CallPc.stopping]) rfl (by simp)
      (by simp [CallPc.closing])
  | finishJoin hc ht hp =>
    have hstop := hi.stopping _ (by rw [hc]; rfl)
    have hnext : Placed ({ s with os := s.os.record .joined }.goto _ .finishClose) :=
      hi.finish_goes_on hc (by simp) (by simp) rfl rfl (by simp [hstop]) rfl (by simp) fun _ _ => hp
    exact { hnext with joined := fun _ => hp }
  | finishNoThread hc ht =>
    have hstop := hi.stopping _ (by rw [hc]; rfl)
    exact hi.finish_goes_on hc (by simp) (by simp) rfl rfl (by simp [hstop]) rfl (by simp)
      fun _ _ => hi.joined ht
  | finishSelf hc ht hw =>
    have hstop := hi.stopping _ (by rw [hc]; rfl)
    exact hi.finish_goes_on hc (by simp) (by simp) rfl rfl (by simp [hstop]) rfl (by simp)
      fun h0 _ => absurd h0 (hw 0)
  | finishClose hc =>
    have hstop := hi.stopping _ (by rw [hc]; rfl)
    exact hi.finish_goes_on hc (by simp) (by simp) rfl rfl (by simp [hstop]) rfl (by simp)
      fun h0 _ => hi.closer (by rw [← h0, hc]; rfl)
  | finishReset hc =>
    exact hi.update rfl rfl (by simp [CallPc.stopping]) rfl (by simp) (by simp) (by simp)
      (by simp [CallPc.closing])
  | @callbackReturns cb hp hidle =>
    refine ⟨hi.noStart, fun hc => absurd hidle hc, hi.caller, hi.stopping, fun hc => ?_, fun ht => ?_⟩
    · have hr := hi.closer hc
      rw [hp] at hr
      cases hr
    · have hr := hi.joined ht
      rw [hp] at hr
      cases hr
  | setStop hp => exact hi.move rfl (fun _ => rfl) rfl (by simp [hp]) (by simp [hp])
  | _ => exact hi.move rfl id rfl (by simp [*]) (by simp [*])

/-- In finish, past `join`, the receive thread has returned, or is in the callback. -/
theorem Placed.resting_of_closing {w : Caller} (h : Placed s) (hw : (s.calls w).closing = true) :
    (w = .app 0 ∧ s.pc = .returned) ∨ (w = .callback ∧ ∃ cb, s.pc = .callback cb) := by
  have hidle : s.calls w ≠ .idle := by intro hc; rw [hc] at hw; cases hw
  have hmsg : ∀ msg, s.calls w ≠ .sendMsg msg := by intro msg hc; rw [hc] at hw; cases hw
  rcases h.finisher hidle hmsg with rfl | hcb
  · exact .inl ⟨rfl, h.closer hw⟩
  · exact .inr hcb

/-- One call of `finish` at a time is past `join`. -/
theorem Placed.closing_unique {w w' : Caller} (h : Placed s) (hw : (s.calls w).closing = true)
    (hw' : (s.calls w').closing = true) : w = w' := by
  rcases h.resting_of_closing hw with ⟨rfl, hp⟩ | ⟨rfl, cb, hp⟩ <;>
    rcases h.resting_of_closing hw' with ⟨rfl, hp'⟩ | ⟨rfl, cb', hp'⟩
  · rfl
  · rw [hp] at hp'; cases hp'
  · rw [hp] at hp'; cases hp'
  · rfl

/-! ### The descriptor -/

/-- The receive thread is in a callback, or has only to find `m_stop` set. -/
def Pc.resting : Pc → Bool
  | .callback _ | .loopHead | .returned => true
  | _ => false

/-- `Close` was called once, on `d`. -/
def ClosedOnce (d : SOCKET) (log : List Event) : Prop :=
  log.countP Event.isClose = 1 ∧ ∀ d' c, .close d' c ∈ log → d' = d

theorem ClosedOnce.append {d : SOCKET} {log : List Event} {e : Event} (h : ClosedOnce d log)
    (he : e.isClose = false) : ClosedOnce d (log ++ [e]) := by
  refine ⟨by simp [List.countP_append, he, h.1], fun d' c hm => ?_⟩
  rcases List.mem_append.mp hm with hm | hm
  · exact h.2 d' c hm
  · rw [← List.mem_singleton.mp hm] at he
    cases he

theorem ClosedOnce.grows {d : SOCKET} {log log' : List Event} (h : ClosedOnce d log)
    (hg : Grows Event.bystands log log') : ClosedOnce d log' := by
  induction hg with
  | refl => exact h
  | append _ he ih => exact ih.append (Event.bystands_iff.mp he).1

/-- The descriptor `d` is open, or was closed under a loop that only has to find `m_stop` set. -/
inductive Phase (d : SOCKET) (s : State) : Prop where
  /-- It is open, and no call of `finish` has closed it. -/
  | opened : s.sockfd = d → (∀ e ∈ s.os.log, e.isClose = false ∧ e.ends = false) →
      (∀ w, s.calls w ≠ .finishReset) → Phase d s
  /-- `finish` has closed it, and not yet forgotten it. -/
  | closing {w : Caller} : s.calls w = .finishReset → ClosedOnce d s.os.log → s.stop = true →
      s.pc.resting = true → Phase d s
  /-- `finish` has closed it. -/
  | closed : s.sockfd = INVALID_SOCKET → ClosedOnce d s.os.log → s.stop = true →
      s.pc.resting = true → Phase d s

/-- Nothing is closed, and no call of `finish` is past `Close`. -/
theorem Phase.keep {d : SOCKET} (h : Phase d s) (hfd : s'.sockfd = s.sockfd)
    (hlog : Grows Event.bystands s.os.log s'.os.log) (hstop : s.stop = true → s'.stop = true)
    (hpc : s.stop = true → s.pc.resting = true → s'.pc.resting = true)
    (hreset : ∀ w, s'.calls w = .finishReset ↔ s.calls w = .finishReset) : Phase d s' := by
  cases h with
  | opened hd hnone hw =>
    refine .opened (hfd.trans hd) (fun e he => ?_) fun w hc => hw w ((hreset w).mp hc)
    rcases hlog.mem he with he | he
    · exact hnone e he
    · exact Event.bystands_iff.mp he
  | closing hw hc hs hp => exact .closing ((hreset _).mpr hw) (hc.grows hlog) (hstop hs) (hpc hs hp)
  | closed hd hc hs hp => exact .closed (hfd.trans hd) (hc.grows hlog) (hstop hs) (hpc hs hp)

/-- A call moves on, neither from nor to the last step of `finish`. -/
theorem reset_update {calls : Caller → CallPc} {w : Caller} {p q : CallPc} (hc : calls w = p)
    (hp : p ≠ .finishReset) (hq : q ≠ .finishReset) (w' : Caller) :
    Function.update calls w q w' = .finishReset ↔ calls w' = .finishReset := by
  by_cases hw : w' = w
  · subst hw
    rw [Function.update_self, hc]
    exact iff_of_false hq hp
  · rw [Function.update_of_ne hw]

/-- While the descriptor is open `Close` is called on it. -/
theorem closedOnce_closeValid {d : SOCKET} (hd : 0 ≤ d) (hfd : s.sockfd = d)
    (hnone : ∀ e ∈ s.os.log, e.isClose = false) : ClosedOnce d (s.os.closeValid s.sockfd).log := by
  have hne : s.sockfd ≠ INVALID_SOCKET := by
    rintro he
    rw [← hfd, he] at hd
    exact absurd hd (by decide)
  rw [Os.closeValid, if_pos hne, Os.close_log]
  have hcount : s.os.log.countP Event.isClose = 0 := by
    rw [List.countP_eq_zero]
    intro e he
    simp [hnone e he]
  refine ⟨by simp [List.countP_append, hcount, Event.isClose], fun d' c hm => ?_⟩
  rcases List.mem_append.mp hm with hm | hm
  · exact absurd (hnone _ hm) (by simp [Event.isClose])
  · cases List.mem_singleton.mp hm
    exact hfd

theorem Step.phase {d : SOCKET} (hd : 0 ≤ d) (h : Step k s a s') (hi : Placed s) (hph : Phase d s) :
    Phase d s' := by
  cases h with
  | startNext hc | startFails hc | startThread hc | startAborts hc => exact absurd hc (hi.noStart _ _)
  | @finishClose w _ hc =>
    have hw : (s.calls w).closing = true := by rw [hc]; rfl
    have hstop := hi.stopping w (by rw [hc]; rfl)
    have hrest : s.pc.resting = true := by
      rcases hi.resting_of_closing hw with ⟨-, hp⟩ | ⟨-, cb, hp⟩ <;> rw [hp] <;> rfl
    cases hph with
    | opened hfd hnone =>
      have hclosed := closedOnce_closeValid hd hfd fun e he => (hnone e he).1
      exact .closing (w := w) (by simp) hclosed hstop hrest
    | closing hw' =>
      -- another call would be between `join` and its end
      have he := hi.closing_unique hw (by rw [hw']; rfl)
      rw [← he, hc] at hw'
      cases hw'
    | closed hfd hclosed =>
      refine .closed hfd ?_ hstop hrest
      rw [State.goto, Os.closeValid, if_neg (by simp [hfd])]
      exact hclosed
  | @finishReset w _ hc =>
    have hw : (s.calls w).closing = true := by rw [hc]; rfl
    have hstop := hi.stopping w (by rw [hc]; rfl)
    have hrest : s.pc.resting = true := by
      rcases hi.resting_of_closing hw with ⟨-, hp⟩ | ⟨-, cb, hp⟩ <;> rw [hp] <;> rfl
    cases hph with
    | opened _ _ hw' => exact absurd hc (hw' w)
    | closing _ hclosed => exact .closed rfl (hclosed.append rfl) hstop hrest
    | closed _ hclosed => exact .closed rfl (hclosed.append rfl) hstop hrest
  | testStop hp hs => exact hph.keep rfl .refl id (by simp [hs]) fun _ => Iff.rfl
  | taskReturns | checkReturns => exact hph.keep rfl .refl id (fun _ _ => rfl) fun _ => Iff.rfl
  | @callbackReturns cb =>
    exact hph.keep rfl .refl id (fun _ _ => by cases cb <;> rfl) fun _ => Iff.rfl
  | publish =>
    exact hph.keep rfl (.one (by cases ‹Callback› <;> rfl)) id (fun _ _ => rfl) fun _ => Iff.rfl
  | setStop hp =>
    exact hph.keep rfl (.one rfl) (fun _ => rfl) (by simp [hp, Pc.resting]) fun _ => Iff.rfl
  | call hc =>
    exact hph.keep rfl .refl id (fun _ => id)
      (reset_update hc (by simp) (by cases ‹Call› <;> simp [Call.begin]))
  | sendMsg hc =>
    refine hph.keep rfl ?_ id (fun _ => id) (reset_update hc (by simp) (by simp))
    exact (sendMsg_notes (fun _ _ _ _ => rfl) (fun _ _ _ _ => rfl) _ _ _ _).log.append rfl
  | finish hc =>
    exact hph.keep rfl (.one rfl) (fun _ => rfl) (fun _ => id) (reset_update hc (by simp) (by simp))
  | finishJoin hc =>
    exact hph.keep rfl (.one rfl) id (fun _ => id) (reset_update hc (by simp) (by simp))
  | finishNoThread hc | finishSelf hc =>
    exact hph.keep rfl .refl id (fun _ => id) (reset_update hc (by simp) (by simp))
  | checkStop => exact hph.keep rfl .refl id (fun _ _ => rfl) fun _ => Iff.rfl
  | _ =>
    exact hph.keep rfl (by first | exact .refl | exact .one rfl) id (by simp [*, Pc.resting])
      fun _ => Iff.rfl

/-- Where the receive thread is neither in a callback nor at the test of `m_stop` the descriptor is
open. -/
theorem Phase.open_of_busy {d : SOCKET} (h : Phase d s) (hp : s.pc.resting = false) :
    s.sockfd = d ∧ ∀ e ∈ s.os.log, e.isClose = false := by
  cases h with
  | opened hd hnone => exact ⟨hd, fun e he => (hnone e he).1⟩
  | closing _ _ _ hr => rw [hp] at hr; cases hr
  | closed _ _ _ hr => rw [hp] at hr; cases hr

/-- The descriptor was closed, or no call of `finish` has returned. -/
theorem Phase.closedOnce_or {d : SOCKET} (h : Phase d s) :
    ClosedOnce d s.os.log ∨ ∀ e ∈ s.os.log, e.isClose = false ∧ e.ends = false := by
  cases h with
  | opened _ hnone => exact .inr hnone
  | closing _ hc => exact .inl hc
  | closed _ hc => exact .inl hc

/-! ### The log -/

/-- The calls of the receive thread, against those of `finish`. -/
structure Logged (d : SOCKET) (s : State) : Prop where
  /-- The descriptor that `Select` is called on. -/
  aim : ∀ d', s.pc = .select d' → d' = d
  /-- After `Close` there is neither a `Select` nor a `Recv`. -/
  polls : NoneAfter Event.isClose Event.polls s.os.log
  /-- After `finish` outside the receive thread, that has returned. -/
  outside : (∃ e ∈ s.os.log, e.endsOutside = true) → s.pc = .returned
  /-- No callback begins then. -/
  quiet : NoneAfter Event.endsOutside Event.publishes s.os.log

/-- Nothing of the kind is logged. -/
theorem Logged.keep {d : SOCKET} (h : Logged d s) (hlog : Grows Event.mute s.os.log s'.os.log)
    (haim : ∀ d', s'.pc = .select d' → d' = d) (hpc : s.pc = .returned → s'.pc = .returned) :
    Logged d s' where
  aim := haim
  polls := h.polls.grows hlog fun _ he => (Event.mute_iff.mp he).1
  outside he := hpc (h.outside ((hlog.exists_iff fun _ he => (Event.mute_iff.mp he).2.2).mp he))
  quiet := h.quiet.grows hlog fun _ he => (Event.mute_iff.mp he).2.1

/-- A call of the receive thread. -/
theorem Logged.append {d : SOCKET} {e : Event} (h : Logged d s) (hp : s.pc ≠ .returned)
    (hlog : s'.os.log = s.os.log ++ [e]) (hpoll : e.polls = true → ∀ e' ∈ s.os.log, e'.isClose = false)
    (hend : e.endsOutside = false) (haim : ∀ d', s'.pc = .select d' → d' = d) : Logged d s' := by
  have hnone : ∀ e' ∈ s.os.log, e'.endsOutside = false := by
    intro e' he'
    by_contra hends
    exact hp (h.outside ⟨e', he', by simpa using hends⟩)
  refine ⟨haim, ?_, ?_, ?_⟩
  · rw [hlog, NoneAfter.append_iff]
    exact ⟨h.polls, hpoll⟩
  · rintro ⟨e', he', hends⟩
    rw [hlog] at he'
    rcases List.mem_append.mp he' with he' | he'
    · rw [hnone e' he'] at hends
      cases hends
    · rw [List.mem_singleton.mp he', hend] at hends
      cases hends
  · rw [hlog, NoneAfter.append_iff]
    exact ⟨h.quiet, fun _ => hnone⟩

theorem Step.logged {d : SOCKET} (h : Step k s a s') (hi : Placed s) (hph : Phase d s)
    (hl : Logged d s) : Logged d s' := by
  cases h with
  | startNext hc | startFails hc | startThread hc | startAborts hc => exact absurd hc (hi.noStart _ _)
  | fdSet hp =>
    refine hl.keep (.one rfl) (fun d' hd => ?_) (by simp [hp])
    cases hd
    exact (hph.open_of_busy (by rw [hp]; rfl)).1
  | select hp =>
    exact hl.append (by simp [hp]) rfl (fun _ => (hph.open_of_busy (by rw [hp]; rfl)).2) rfl (by simp)
  | @recv res errno hp =>
    refine hl.append (by simp [hp]) rfl (fun _ => (hph.open_of_busy (by rw [hp]; rfl)).2) rfl ?_
    intro d' hd
    have hd : afterRecv k res errno = .select d' := hd
    unfold afterRecv at hd
    split at hd <;> cases hd
  | publish hp =>
    exact hl.append (by simp [hp]) rfl (by cases ‹Callback› <;> simp [Callback.event, Event.polls])
      (by cases ‹Callback› <;> rfl) (by simp)
  | @finishReset w _ hc =>
    by_cases hw : w = .app 0
    · subst hw
      have hp := hi.closer (by rw [hc]; rfl)
      exact ⟨by simp [hp], hl.polls.append rfl, fun _ => hp, hl.quiet.append rfl⟩
    · have hcb : w = .callback := by
        rcases hi.finisher (w := w) (by simp [hc]) (by simp [hc]) with h0 | ⟨hcb, -⟩
        · exact absurd h0 hw
        · exact hcb
      subst hcb
      exact hl.keep (.one rfl) hl.aim id
  | sendMsg =>
    refine hl.keep ?_ hl.aim id
    exact (sendMsg_notes (fun _ _ _ _ => rfl) (fun _ _ _ _ => rfl) _ _ _ _).log.append rfl
  | finishClose => exact hl.keep (Os.closeValid_grows fun _ _ => rfl) hl.aim id
  | call | finishNoThread | finishSelf => exact hl.keep .refl hl.aim id
  | finish | finishJoin => exact hl.keep (.one rfl) hl.aim id
  | testStop hp | guard hp | isset hp =>
    refine hl.keep (by first | exact .refl | exact .one rfl) (fun d' hd => ?_) (by simp [hp])
    simp only at hd
    split at hd <;> cases hd
  | @callbackReturns cb hp =>
    refine hl.keep .refl (fun d' hd => ?_) (by simp [hp])
    cases cb <;> cases hd
  | taskReturns | checkReturns => exact hl.keep .refl (by simp) fun _ => rfl
  | selectFails hp | selectReady hp | checkStop hp | setStop hp =>
    exact hl.keep (by first | exact .refl | exact .one rfl) (by simp) (by simp [hp])

end

/-! ### The account -/

/-- The object after it was set up with the descriptor `d`. -/
structure Managed (d : SOCKET) (s : State) : Prop where
  /-- Where the calls are. -/
  placed : Placed s
  /-- The descriptor. -/
  phase : Phase d s
  /-- The log. -/
  logged : Logged d s

theorem Initial.managed {s : State} (h : Initial s) : Managed s.sockfd s := by
  have hlog : ∀ e ∈ s.os.log, e.isClose = false ∧ e.ends = false ∧ e.endsOutside = false := by
    intro e he
    rcases h.log e he with he | rfl
    · cases e <;> first | exact ⟨rfl, rfl, rfl⟩ | cases he
    · exact ⟨rfl, rfl, rfl⟩
  have hafter : ∀ {p q : Event → Bool}, (∀ e ∈ s.os.log, p e = false) → NoneAfter p q s.os.log := by
    intro p q hp
    refine List.pairwise_of_forall_mem_list fun e he e' _ hpe => ?_
    rw [hp e he] at hpe
    cases hpe
  refine ⟨⟨?_, ?_, ?_, ?_, ?_, ?_⟩, .opened rfl (fun e he => ⟨(hlog e he).1, (hlog e he).2.1⟩) ?_, ?_, ?_, ?_, ?_⟩
  · simp [h.calls]
  · simp [h.calls]
  · simp [h.calls]
  · simp [h.calls, CallPc.stopping]
  · simp [h.calls, CallPc.closing]
  · simp [h.thread]
  · simp [h.calls]
  · simp [h.pc]
  · exact hafter fun e he => (hlog e he).1
  · rintro ⟨e, he, hends⟩
    rw [(hlog e he).2.2] at hends
    cases hends
  · exact hafter fun e he => (hlog e he).2.2

theorem Managed.reach {k : Kind} {d : SOCKET} {s₀ s : State} (hd : 0 ≤ d) (h₀ : Managed d s₀)
    (h : (machine k).Reach Finishing s₀ s) : Managed d s :=
  h.invariant h₀ fun _ _ _ hi ha hs =>
    have hstep := (Step.of_step hs).2
    ⟨hstep.placed ha (fun _ _ he => mayCall_of_step (he ▸ hs)) hi.placed,
      hstep.phase hd hi.placed hi.phase, hstep.logged hi.placed hi.phase hi.logged⟩

/-- **Shut down in order**: the descriptor `d` is not used after it was closed, is closed once, and no
callback begins after `finish` has returned outside the receive thread. -/
structure InOrder (d : SOCKET) (s : State) : Prop where
  /-- It is a descriptor. -/
  valid : d ≠ INVALID_SOCKET
  /-- `Select` is called on it, and it was not closed. -/
  select : ∀ d', s.pc = .select d' → d' = d ∧ s.sockfd = d ∧ ∀ e ∈ s.os.log, e.isClose = false
  /-- `Recv` is called on it, and it was not closed. -/
  recv : s.pc = .recv → s.sockfd = d ∧ ∀ e ∈ s.os.log, e.isClose = false
  /-- After `Close` there is neither a `Select` nor a `Recv`. -/
  polls : NoneAfter Event.isClose Event.polls s.os.log
  /-- It is closed, and nothing else. -/
  target : ∀ d' c, .close d' c ∈ s.os.log → d' = d
  /-- It is closed at most once. -/
  atMostOnce : s.os.log.countP Event.isClose ≤ 1
  /-- It is closed once when a call of `finish` has returned. -/
  once : (∃ e ∈ s.os.log, e.ends = true) → s.os.log.countP Event.isClose = 1
  /-- After a call of `finish` outside the receive thread has returned no callback begins. -/
  quiet : NoneAfter Event.endsOutside Event.publishes s.os.log

/-- **The receive thread is shut down in order**, in every interleaving with calls of `finish` by one
thread of the application and by callbacks. -/
theorem orderly_shutdown {k : Kind} {s₀ s : State} (h₀ : Started k s₀)
    (h : (machine k).Reach Finishing s₀ s) : InOrder s₀.sockfd s := by
  have hd := h₀.initial.sockfd
  have hi := h₀.initial.managed.reach hd h
  have hvalid : s₀.sockfd ≠ INVALID_SOCKET := by
    intro he
    rw [he] at hd
    exact absurd hd (by decide)
  have hcount : (∀ e ∈ s.os.log, e.isClose = false) → s.os.log.countP Event.isClose = 0 := by
    intro hnone
    rw [List.countP_eq_zero]
    intro e he
    simp [hnone e he]
  refine ⟨hvalid, fun d' hp => ⟨hi.logged.aim d' hp, hi.phase.open_of_busy (by rw [hp]; rfl)⟩,
    fun hp => hi.phase.open_of_busy (by rw [hp]; rfl), hi.logged.polls, ?_, ?_, ?_, hi.logged.quiet⟩
  · intro d' c hm
    rcases hi.phase.closedOnce_or with hc | hnone
    · exact hc.2 d' c hm
    · exact absurd (hnone _ hm).1 (by simp [Event.isClose])
  · rcases hi.phase.closedOnce_or with hc | hnone
    · exact Nat.le_of_eq hc.1
    · rw [hcount fun e he => (hnone e he).1]
      exact Nat.zero_le 1
  · rintro ⟨e, he, hends⟩
    rcases hi.phase.closedOnce_or with hc | hnone
    · exact hc.1
    · rw [(hnone e he).2] at hends
      cases hends

/-- A TCP client that has connected under descriptor `1`. -/
def connected : State := ((machine .tcpClient).run (fresh {}) (connectOk 1)).get (by decide)

theorem connected_started : Started .tcpClient connected :=
  ⟨{}, .connectTo "" 80, _, [{}, {}, { ret := 1 }, {}, {}, { addr := some INADDR_ANY }, {}, {}, {}], rfl,
    (Option.some_get _).symm, by decide⟩

/-- A callback calls `finish`. -/
def finishInCallback : List Action := .call .callback .finish :: List.replicate 4 (.step .callback {})

/-- `finish` is called twice in the callback, and once more by the application. -/
theorem orderly_shutdown_in_callback : ∃ s, (machine .tcpClient).Reach Finishing connected s ∧
    s.os.log.countP Event.ends = 3 ∧ InOrder 1 s := by
  obtain ⟨s, hr, hends⟩ : ∃ s, (machine .tcpClient).Reach Finishing connected s ∧
      s.os.log.countP Event.ends = 3 :=
    Machine.exists_reach (serveActions .tcpClient [7] ++ finishInCallback ++ finishInCallback ++
      [.callbackReturns, .testStop] ++ finishActions) (by decide)
  exact ⟨s, hr, hends, orderly_shutdown connected_started hr⟩

end Receiver

end SocketsCpp
