import SocketsCpp.Receiver.Shutdown
import SocketsCpp.DescriptorSets

/-!
# The descriptor set of the receive thread

`ReceiveTask` puts what `m_sockfd` holds in a set on its stack, each time anew. Meanwhile other threads
store to `m_sockfd`: `connectTo` stores `INVALID_SOCKET` before it does anything else, a `Socket` that
fails stores it too, and `finish` does at its end.

* `Uses` — the receive thread is on its way to the set.
* `Away` — `finish` stores `INVALID_SOCKET` only when the thread will not come to the set again.
* `Fitting` — the condition on the steps.
* `Step.ranged` — one step; `ranged_of_fitting` — every run whose steps meet the condition.
-/

namespace SocketsCpp.Receiver

open SocketsCpp.Library

/-! ### What the thread and the calls are about to do -/

/-- With `d` in `m_sockfd`, the receive thread goes on from here to put it in its descriptor set: it is
past the tests already, or will pass them. -/
def Pc.uses (k : Kind) (stop : Bool) (d : SOCKET) : Pc → Bool
  | .none | .returned | .setStop _ | .publish (.disconnect _) | .callback (.disconnect _) => false
  | .fdSet | .select _ | .waiting _ | .isset _ _ => true
  | .guard => k = .tcpClient || d ≠ INVALID_SOCKET
  | .loopHead | .checkStop | .recv | .publish (.data _) | .callback (.data _) =>
      !stop && (k = .tcpClient || d ≠ INVALID_SOCKET)

/-- With `d` in `m_sockfd`, the receive thread goes on to put it in its descriptor set. -/
def Uses (k : Kind) (s : State) (d : SOCKET) : Bool := s.pc.uses k s.stop d

/-- What an action of a method that sets the socket up stores to `m_sockfd`. -/
def startStores (s : State) : Action → Option SOCKET
  | .step w a => match s.calls w with
    | .start (i :: _) => i.op.stored a
    | _ => none
  | _ => none

/-- The instructions left of a method that sets the socket up. -/
def CallPc.instrs : CallPc → Option (List Instr)
  | .start rest => some rest
  | _ => none

/-- The calls that are setting the socket up. -/
def State.starts (s : State) : Caller → Option (List Instr) := fun w => (s.calls w).instrs

theorem starts_eq {s : State} {w : Caller} {rest : List Instr} (h : s.calls w = .start rest) :
    s.starts w = some rest := by
  simp [State.starts, CallPc.instrs, h]

theorem starts_update {s s' : State} {w : Caller} {q : CallPc}
    (h : s'.calls = Function.update s.calls w q) : s'.starts = Function.update s.starts w q.instrs := by
  unfold State.starts
  rw [h]
  exact Function.comp_update CallPc.instrs s.calls w q

/-- With `m_stop` set the thread comes to the set from no more places. -/
theorem Pc.uses_of_stop {k : Kind} {d : SOCKET} {pc : Pc} (stop : Bool) (h : pc.uses k true d = true) :
    pc.uses k stop d = true := by
  cases pc with
  | publish cb | callback cb => cases cb <;> cases h
  | _ => first | exact h | cases h

/-- The condition on the steps. -/
structure Fitting (k : Kind) (s : State) (a : Action) : Prop where
  /-- `Socket` returns a number below `FD_SETSIZE`. -/
  small : ∀ d ∈ startStores s a, d < FD_SETSIZE
  /-- A start makes `m_sockfd` invalid only when the receive thread is not on its way to the set. -/
  unused : startStores s a = some INVALID_SOCKET → Uses k s INVALID_SOCKET = false
  /-- `m_sockfd` is made invalid only when no other call that sets the socket up is past its `Socket`. -/
  unheld : ∀ w ans, a = .step w ans →
    (startStores s a = some INVALID_SOCKET ∨ s.calls w = .finishReset) →
      ∀ w' rest, w' ≠ w → s.starts w' = some rest → Opens rest

/-! ### Where `finish` is -/

/-- The receive thread has returned, or will when it goes on. -/
def Away (s : State) : Prop :=
  s.pc = .none ∨ s.pc = .returned ∨ (s.stop = true ∧ (s.pc = .loopHead ∨ ∃ cb, s.pc = .callback cb))

theorem Away.not_uses {k : Kind} {s : State} (h : Away s) (d : SOCKET) : Uses k s d = false := by
  rcases h with hp | hp | ⟨hs, hp | ⟨cb, hp⟩⟩
  · simp [Uses, Pc.uses, hp]
  · simp [Uses, Pc.uses, hp]
  · simp [Uses, Pc.uses, hp, hs]
  · cases cb <;> simp [Uses, Pc.uses, hp, hs]

/-- Where the calls are. -/
structure Closers (s : State) : Prop where
  /-- A callback that makes a call is running. -/
  callback : s.calls .callback ≠ .idle → ∃ cb, s.pc = .callback cb
  /-- The receive thread itself makes no call. -/
  task : s.calls .serverTask = .idle
  /-- A thread that is not joinable does not run. -/
  joined : s.thread = false → s.pc = .none ∨ s.pc = .returned
  /-- `finish` has set `m_stop`. -/
  stopping : ∀ w, (s.calls w).stopping = true → s.stop = true
  /-- `finish` closes the descriptor only when the receive thread is away. -/
  away : ∀ w, (s.calls w).closing = true → Away s

theorem CallPc.stopping_of_closing {p : CallPc} (h : p.closing = true) : p.stopping = true := by
  cases p <;> first | rfl | cases h

section

variable {k : Kind} {s s' : State} {a : Action}

/-- The receive thread moves on, with no callback running. -/
theorem Closers.move (h : Closers s) (hcalls : s'.calls = s.calls)
    (hstop : s.stop = true → s'.stop = true) (hthread : s'.thread = s.thread)
    (hpc : ¬ (s.pc = .none ∨ s.pc = .returned ∨ ∃ cb, s.pc = .callback cb))
    (haway : s.stop = true → s.pc = .loopHead → Away s') : Closers s' := by
  simp only [not_or] at hpc
  obtain ⟨hnone, hret, hcb⟩ := hpc
  refine ⟨fun hc => ?_, by rw [hcalls]; exact h.task, fun ht => ?_, fun w hw => ?_, fun w hw => ?_⟩
  · rw [hcalls] at hc
    exact absurd (h.callback hc) hcb
  · rw [hthread] at ht
    exact (h.joined ht).elim (absurd · hnone) (absurd · hret)
  · rw [hcalls] at hw
    exact hstop (h.stopping w hw)
  · rw [hcalls] at hw
    rcases h.away w hw with hp | hp | ⟨hs, hp | hp⟩
    · exact absurd hp hnone
    · exact absurd hp hret
    · exact haway hs hp
    · exact absurd hp hcb

/-- A call moves on, where it may. -/
theorem Closers.update {w : Caller} {q : CallPc} (h : Closers s)
    (hcalls : s'.calls = Function.update s.calls w q) (hpc : s'.pc = s.pc)
    (hstop : s'.stop = (s.stop || q.stopping)) (hthread : s'.thread = false → s.pc = .none ∨ s.pc = .returned)
    (hcb : w = .callback → q ≠ .idle → ∃ cb, s.pc = .callback cb) (htask : w = .serverTask → q = .idle)
    (hclose : q.closing = true → Away s) : Closers s' := by
  have hof : ∀ {w' : Caller}, w' ≠ w → s'.calls w' = s.calls w' := fun {w'} hne => by
    rw [hcalls, Function.update_of_ne hne]
  have hself : s'.calls w = q := by rw [hcalls, Function.update_self]
  have haway : Away s → Away s' := by
    unfold Away
    rw [hpc, hstop]
    rintro (hp | hp | ⟨hs, hp⟩)
    · exact .inl hp
    · exact .inr (.inl hp)
    · exact .inr (.inr ⟨by simp [hs], hp⟩)
  refine ⟨fun hc => ?_, ?_, by rw [hpc]; exact hthread, fun w' hw' => ?_, fun w' hw' => haway ?_⟩
  · rw [hpc]
    by_cases hw : .callback = w
    · subst hw
      exact hcb rfl (hself ▸ hc)
    · exact h.callback (hof hw ▸ hc)
  · by_cases hw : .serverTask = w
    · subst hw
      exact hself.trans (htask rfl)
    · exact (hof hw).trans h.task
  · rw [hstop]
    by_cases hw : w' = w
    · subst hw
      rw [hself] at hw'
      simp [hw']
    · rw [hof hw] at hw'
      simp [h.stopping w' hw']
  · by_cases hw : w' = w
    · subst hw
      exact hclose (hself ▸ hw')
    · exact h.away w' (hof hw ▸ hw')

/-- A call that is being made goes on. -/
theorem Closers.goes_on {w : Caller} {p q : CallPc} (h : Closers s) (hc : s.calls w = p) (hp : p ≠ .idle)
    (hcalls : s'.calls = Function.update s.calls w q) (hpc : s'.pc = s.pc)
    (hstop : s'.stop = (s.stop || q.stopping)) (hthread : s'.thread = false → s.pc = .none ∨ s.pc = .returned)
    (hclose : q.closing = true → Away s) : Closers s' := by
  subst hc
  refine h.update hcalls hpc hstop hthread ?_ ?_ hclose
  · rintro rfl -
    exact h.callback hp
  · rintro rfl
    exact absurd h.task hp

theorem Step.closers (h : Step k s a s') (hm : ∀ w c, a = .call w c → mayCall s w = true)
    (hi : Closers s) : Closers s' := by
  cases h with
  | testStop hp hs => exact hi.move rfl id rfl (by simp [hp]) (by simp [hs])
  | taskReturns hp hs => exact hi.move rfl id rfl (by simp [hp]) fun _ _ => .inr (.inl rfl)
  | setStop hp => exact hi.move rfl (fun _ => rfl) rfl (by simp [hp]) (by simp [hp])
  | @callbackReturns cb hp hidle =>
    refine ⟨fun hc => absurd hidle hc, hi.task, fun ht => ?_, hi.stopping, fun w hw => ?_⟩
    · rcases hi.joined ht with hn | hn <;> rw [hp] at hn <;> cases hn
    · have hs := hi.stopping w (CallPc.stopping_of_closing hw)
      cases cb with
      | data => exact .inr (.inr ⟨hs, .inl rfl⟩)
      | disconnect => exact .inr (.inl rfl)
  | @call w c hc =>
    have hmay := hm w c rfl
    have hq : c.begin.stopping = false ∧ c.begin.closing = false := by cases c <;> exact ⟨rfl, rfl⟩
    refine hi.update rfl rfl (by simp [hq.1]) hi.joined ?_ ?_ (by simp [hq.2])
    · rintro rfl -
      simpa using (mayCall_iff.mp hmay).2
    · rintro rfl
      simpa using (mayCall_iff.mp hmay).2
  | startNext hc =>
    exact hi.goes_on hc (by simp) rfl rfl (by simp [CallPc.stopping, Op.exec_stop])
      (fun ht => hi.joined ((Op.exec_thread _ _ _ _).symm.trans ht)) (by simp [CallPc.closing])
  | startFails hc =>
    exact hi.goes_on hc (by simp) rfl rfl (by simp [CallPc.stopping, Op.exec_stop])
      (fun ht => hi.joined ((Op.exec_thread _ _ _ _).symm.trans ht)) (by simp [CallPc.closing])
  | @startThread w i rest a hc hi' ht =>
    have hret : Closers (s.ret w (.start .ok)) :=
      hi.goes_on hc (by simp) rfl rfl (by simp [CallPc.stopping]) hi.joined (by simp [CallPc.closing])
    refine ⟨fun hc' => ?_, hret.task, by simp, hret.stopping, fun w' hw => ?_⟩
    · obtain ⟨cb, hp⟩ := hret.callback hc'
      have hp : s.pc = .callback cb := hp
      rcases hi.joined ht with hn | hn <;> rw [hp] at hn <;> cases hn
    · exact .inr (.inr ⟨hret.stopping w' (CallPc.stopping_of_closing hw), .inl rfl⟩)
  | startAborts hc => exact ⟨hi.callback, hi.task, hi.joined, hi.stopping, hi.away⟩
  | sendMsg hc =>
    exact hi.goes_on hc (by simp) rfl rfl (by simp [CallPc.stopping]) hi.joined (by simp [CallPc.closing])
  | finish hc =>
    exact hi.goes_on hc (by simp) rfl rfl (by simp [CallPc.stopping]) hi.joined (by simp [CallPc.closing])
  | finishJoin hc ht hp =>
    have hs := hi.stopping _ (by rw [hc]; rfl)
    exact hi.goes_on hc (by simp) rfl rfl (by simp [hs]) (fun _ => .inr hp) fun _ => .inr (.inl hp)
  | finishNoThread hc ht =>
    have hs := hi.stopping _ (by rw [hc]; rfl)
    refine hi.goes_on hc (by simp) rfl rfl (by simp [hs]) hi.joined fun _ => ?_
    rcases hi.joined ht with hp | hp
    · exact .inl hp
    · exact .inr (.inl hp)
  | @finishSelf w a hc ht hw =>
    have hs := hi.stopping _ (by rw [hc]; rfl)
    have hcb : ∃ cb, s.pc = .callback cb := by
      cases w with
      | callback => exact hi.callback (by simp [hc])
      | serverTask => rw [hi.task] at hc; cases hc
      | app n => exact absurd rfl (hw n)
    exact hi.goes_on hc (by simp) rfl rfl (by simp [hs]) hi.joined fun _ => .inr (.inr ⟨hs, .inr hcb⟩)
  | finishClose hc =>
    have hs := hi.stopping _ (by rw [hc]; rfl)
    exact hi.goes_on hc (by simp) rfl rfl (by simp [hs]) hi.joined fun _ => hi.away _ (by rw [hc]; rfl)
  | finishReset hc =>
    exact hi.goes_on hc (by simp) rfl rfl (by simp [CallPc.stopping]) hi.joined (by simp [CallPc.closing])
  | _ => exact hi.move rfl id rfl (by simp [*]) (by simp [*])

/-! ### The descriptor -/

/-- What a run keeps. -/
structure Ranged (k : Kind) (s : State) : Prop where
  /-- The calls. -/
  closers : Closers s
  /-- The number in `m_sockfd` is below `FD_SETSIZE`. -/
  small : s.sockfd < FD_SETSIZE
  /-- It is a descriptor, if the receive thread is on its way to the set. -/
  used : Uses k s s.sockfd = true → 0 ≤ s.sockfd
  /-- It is one for the calls that set the socket up, from their `Socket` on. -/
  held : Held s.starts s.sockfd
  /-- The log. -/
  log : ∀ e ∈ s.os.log, e.fits = true

/-- The receive thread at the set. -/
theorem Ranged.fits (hi : Ranged k s) (hu : Uses k s s.sockfd = true) : Fits s.sockfd := ⟨hi.used hu, hi.small⟩

theorem startStores_eq {w : Caller} {i : Instr} {rest : List Instr} {ans : Answer}
    (hc : s.calls w = .start (i :: rest)) : startStores s (.step w ans) = i.op.stored ans := by
  simp [startStores, hc]

/-- What a step logs fits. -/
theorem Step.fits (h : Step k s a s') (hok : Fitting k s a) (hi : Ranged k s) :
    Grows Event.fits s.os.log s'.os.log := by
  cases h with
  | fdSet hp => exact .one (fits_access (hi.fits (by simp [Uses, Pc.uses, hp]))).1
  | isset hp => exact .one (fits_access (hi.fits (by simp [Uses, Pc.uses, hp]))).2.2
  | startNext hc _ hadm => exact Op.exec_fits _ hadm (startStores_eq hc ▸ hok.small)
  | startFails hc _ hadm => exact .append (Op.exec_fits _ hadm (startStores_eq hc ▸ hok.small)) rfl
  | publish =>
    refine .one ?_
    cases ‹Callback› <;> rfl
  | sendMsg hc =>
    exact .append (sendMsg_notes (fun _ _ _ _ => rfl) (fun _ _ _ _ => rfl) _ _ _ _).log rfl
  | finishClose hc => exact Os.closeValid_grows fun _ _ => rfl
  | _ => first | exact .refl | exact .one rfl

/-- What an operation stores is a descriptor, if the receive thread is on its way to the set. -/
theorem Ranged.exec {w : Caller} {i : Instr} {rest : List Instr} {ans : Answer} (hi : Ranged k s)
    (hok : Fitting k s (.step w ans)) (hc : s.calls w = .start (i :: rest))
    (hadm : i.op.Admissible ans s.os)
    (hu : Uses k s (i.op.exec ans s.toEndpoint s.os).1.sockfd = true) :
    0 ≤ (i.op.exec ans s.toEndpoint s.os).1.sockfd := by
  rcases Op.exec_sockfd_cases hadm s.toEndpoint with ⟨-, hfd⟩ | h0 | ⟨hst, hfd⟩
  · rw [hfd] at hu ⊢
    exact hi.used hu
  · exact h0
  · have hnot := hok.unused ((startStores_eq hc).trans hst)
    rw [hfd, hnot] at hu
    cases hu

/-- What an operation stores is a descriptor, if another call holds one. -/
theorem Fitting.exec {w : Caller} {i : Instr} {rest : List Instr} {ans : Answer}
    (hok : Fitting k s (.step w ans)) (hc : s.calls w = .start (i :: rest))
    (hadm : i.op.Admissible ans s.os) :
    (i.op.exec ans s.toEndpoint s.os).1.sockfd = s.sockfd ∨
      0 ≤ (i.op.exec ans s.toEndpoint s.os).1.sockfd ∨
      ∀ w' rest, w' ≠ w → s.starts w' = some rest → Opens rest := by
  rcases Op.exec_sockfd_cases hadm s.toEndpoint with ⟨-, hfd⟩ | h0 | ⟨hst, -⟩
  · exact .inl hfd
  · exact .inr (.inl h0)
  · exact .inr (.inr (hok.unheld w ans rfl (.inl ((startStores_eq hc).trans hst))))

/-- The receive thread comes to its way to the set with a descriptor. -/
theorem Step.used (h : Step k s a s') (hok : Fitting k s a) (hi : Ranged k s) :
    Uses k s' s'.sockfd = true → 0 ≤ s'.sockfd := by
  intro hu
  cases h with
  | testStop hp hs =>
    refine hi.used ?_
    cases k <;> simp_all [Uses, Pc.uses]
  | guard hp =>
    refine hi.used ?_
    by_cases hd : s.sockfd = INVALID_SOCKET <;> simp_all [Uses, Pc.uses]
  | recv hp =>
    refine hi.used ?_
    unfold afterRecv at hu
    split at hu <;> simp_all [Uses, Pc.uses]
  | publish hp | callbackReturns hp =>
    refine hi.used ?_
    cases ‹Callback› <;> simp_all [Uses, Pc.uses, Callback.next]
  | startNext hc _ hadm | startFails hc _ hadm =>
    refine hi.exec hok hc hadm ?_
    simpa [Uses, Op.exec_stop] using hu
  | startThread hc hop => exact (hi.held _ _ (starts_eq hc)).nonneg (.inl hop)
  | finish hc =>
    exact hi.used (Pc.uses_of_stop s.stop hu)
  | finishReset hc =>
    have haway := hi.closers.away _ (by rw [hc]; rfl)
    have hnot : Uses k s INVALID_SOCKET = true := hu
    rw [haway.not_uses] at hnot
    cases hnot
  | call | startAborts | sendMsg | finishJoin | finishNoThread | finishSelf | finishClose => exact hi.used hu
  | _ => exact hi.used (by simp_all [Uses, Pc.uses])

/-- The calls that set the socket up hold their descriptors. -/
theorem Step.held (h : Step k s a s') (hok : Fitting k s a) (hi : Ranged k s) :
    Held s'.starts s'.sockfd := by
  cases h with
  | @call w c hc =>
    rw [starts_update (s := s) (w := w) (q := c.begin) rfl]
    refine hi.held.update (.inl rfl) fun rest hr => .inl ?_
    cases hb : c.begin <;> simp_all [CallPc.instrs]
    exact Call.begin_opens hb
  | @startNext w i rest ans hc hop hadm hf =>
    rw [starts_update (s := s) (w := w) (q := .start rest) rfl]
    refine hi.held.update (hok.exec hc hadm) ?_
    rintro rest' hr
    cases hr
    exact (hi.held _ _ (starts_eq hc)).next hadm hf
  | @startFails w i rest ans hc hop hadm hf =>
    rw [starts_update (s := s) (w := w) (q := .idle) rfl]
    exact hi.held.update (hok.exec hc hadm) (by simp [CallPc.instrs])
  | @finishReset w ans hc =>
    rw [starts_update (s := s) (w := w) (q := .idle) rfl]
    exact hi.held.update (.inr (.inr (hok.unheld w ans rfl (.inr hc)))) (by simp [CallPc.instrs])
  | startThread | sendMsg | finish | finishJoin | finishNoThread | finishSelf | finishClose =>
    rw [starts_update (s := s) rfl]
    exact hi.held.update (.inl rfl) (by simp [CallPc.instrs])
  | _ => exact hi.held

/-- **A step** that meets the condition. -/
theorem Step.ranged (h : Step k s a s') (hm : ∀ w c, a = .call w c → mayCall s w = true)
    (hok : Fitting k s a) (hi : Ranged k s) : Ranged k s' where
  closers := h.closers hm hi.closers
  small := by
    cases h with
    | startNext hc | startFails hc =>
      exact Op.exec_sockfd_lt s.os hi.small (startStores_eq hc ▸ hok.small)
    | finishReset => exact (by decide : INVALID_SOCKET < FD_SETSIZE)
    | _ => exact hi.small
  used := h.used hok hi
  held := h.held hok hi
  log e he := ((h.fits hok hi).mem he).elim (hi.log e) id

end

theorem Ranged.fresh (k : Kind) (options : SocketOpt) : Ranged k (fresh options) where
  closers := ⟨by simp [Receiver.fresh], rfl, fun _ => .inl rfl, nofun, nofun⟩
  small := (by decide : INVALID_SOCKET < FD_SETSIZE)
  used hu := by cases hu
  held := nofun
  log := nofun

/-- **Every run whose steps meet the condition.** -/
theorem ranged_of_fitting {k : Kind} {options : SocketOpt} {s : State}
    (h : (machine k).Reach (Fitting k) (fresh options) s) : Ranged k s := by
  refine Machine.Reach.invariant (I := Ranged k) (.fresh k options) ?_ h
  rintro s a s' hi hok hs
  refine (Step.of_step hs).2.ranged ?_ hok hi
  rintro w c rfl
  exact mayCall_of_step hs

/-! ### One thread -/

/-- What there is to see of the condition at a step, one thread making the calls. -/
def FitsAlone (k : Kind) (s : State) (a : Action) : Prop :=
  solo s a = true ∧ (∀ d ∈ startStores s a, d < FD_SETSIZE) ∧
    (startStores s a = some INVALID_SOCKET → Uses k s INVALID_SOCKET = false)

instance (k : Kind) (s : State) (a : Action) : Decidable (FitsAlone k s a) :=
  inferInstanceAs (Decidable (_ ∧ _ ∧ (_ → _)))

theorem OneCaller.fitting {k : Kind} {s : State} {a : Action} (hi : OneCaller s) (ha : FitsAlone k s a) :
    Fitting k s a := by
  obtain ⟨hsolo, hsmall, hunused⟩ := ha
  refine ⟨hsmall, hunused, ?_⟩
  rintro w ans rfl - w' rest hw hs
  have happ : w = .app 0 := of_decide_eq_true hsolo
  have hm := hi w' (happ ▸ hw)
  cases hc : s.calls w' <;> simp_all [State.starts, CallPc.instrs, CallPc.manages]

/-- The runs in which one thread makes the calls. -/
theorem reach_fitting {k : Kind} {options : SocketOpt} {s : State}
    (h : (machine k).Reach (FitsAlone k) (fresh options) s) : (machine k).Reach (Fitting k) (fresh options) s :=
  h.mono_of (J := OneCaller) (fun _ _ => rfl)
    (fun _ _ _ hi ha hs => (Step.of_step hs).2.oneCaller ha.1 hi) fun _ _ hi ha => hi.fitting ha

end SocketsCpp.Receiver
