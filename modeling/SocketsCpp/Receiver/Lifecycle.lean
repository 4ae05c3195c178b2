import SocketsCpp.Receiver.Step
import SocketsCpp.Worker
import SocketsCpp.Holder

/-!
# The life of a TCP client or a UDP socket

Runs of an object from its construction on, in which the methods may be called any number of
times. Each step is a move of its thread (`Step.worker`) and, as long as the calls that set the
socket up or shut it down follow each other (`InSequence`), a move of its descriptor
(`Step.holder`).

* `Serving` — the receive thread, at the head of its loop, receives and publishes the data that
  is ready.
-/

namespace SocketsCpp.Receiver

open SocketsCpp.Library

/-- What `sendMsg` logs. -/
theorem sendMsg_notes {p : Event → Bool} (hs : ∀ d c msg r, p (.send d c msg r) = true)
    (ht : ∀ d msg addr r, p (.sendTo d msg addr r) = true) (k : Kind) (s : State) (msg : List UInt8)
    (a : Answer) : s.os.Notes p (sendMsg k s msg a).1 := by
  unfold sendMsg
  cases k with
  | tcpClient =>
    simp only
    split
    · exact .one (hs _ _ _ _)
    · split <;> exact .one (hs _ _ _ _)
  | udpSocket =>
    simp only
    split
    · split
      · exact .one (ht _ _ _ _)
      · split <;> exact .one (ht _ _ _ _)
    · exact .refl

/-! ### The thread -/

/-- Whether the receive thread is running. -/
def Pc.task : Pc → Task
  | .none => .none
  | .returned => .returned
  | _ => .running

/-- The object, as far as its thread is concerned. -/
def State.worker (s : State) : Worker := ⟨s.stop, s.thread, s.pc.task, s.os.log⟩

theorem afterRecv_task (k : Kind) (res : Option (List UInt8)) (errno : ℤ) :
    (afterRecv k res errno).task = .running := by
  unfold afterRecv
  split <;> rfl

/-- A callback at the end of a connection is made with the flag set. -/
def Ended (s : State) : Prop :=
  ∀ ret, s.pc = .publish (.disconnect ret) ∨ s.pc = .callback (.disconnect ret) → s.stop = true

theorem Step.ended {k : Kind} {s s' : State} {a : Action} (h : Step k s a s') (hi : Ended s) :
    Ended s' := by
  cases h with
  | testStop => intro ret hp; simp at hp; split at hp <;> simp at hp
  | guard => intro ret hp; simp at hp; split at hp <;> simp at hp
  | isset => intro ret hp; simp at hp; split at hp <;> simp at hp
  | recv => intro ret hp; unfold afterRecv at hp; simp at hp; split at hp <;> simp at hp
  | setStop => exact fun _ _ => rfl
  | publish hp => exact fun ret he => hi ret (.inl (by simpa [hp] using he))
  | @callbackReturns cb hp => intro ret he; cases cb <;> simp [Callback.next] at he
  | startNext => exact fun ret he => (Op.exec_stop _ _ _ _).trans (hi ret he)
  | startFails => exact fun ret he => (Op.exec_stop _ _ _ _).trans (hi ret he)
  | finish => exact fun _ _ => rfl
  | _ => first | exact hi | exact fun _ he => by simp at he

/-- **A step is a move of the thread.** -/
theorem Step.worker {k : Kind} {s s' : State} {a : Action} (h : Step k s a s') (hi : Ended s) :
    Worker.Move s.worker s'.worker := by
  cases h with
  | taskReturns _ hs | checkReturns _ hs => exact .returns hs rfl rfl rfl rfl
  | recv hp =>
    refine .goesOn rfl rfl ?_ (.one rfl)
    simp only [State.worker, hp, afterRecv_task]
    rfl
  | setStop hp => exact .stops (e := .connectionEnd) rfl rfl rfl (by simp [State.worker, hp, Pc.task]) rfl
  | @callbackReturns cb hp =>
    cases cb with
    | data bytes => exact .goesOn rfl rfl (by simp [State.worker, hp, Pc.task, Callback.next]) .refl
    | disconnect ret => exact .returns (hi ret (.inr hp)) rfl rfl rfl rfl
  | startNext =>
    exact .goesOn (Op.exec_stop _ _ _ _) (Op.exec_thread _ _ _ _) rfl
      ((Op.exec_log _ _ _ _).mono fun _ => Event.inert_of_setup)
  | startFails =>
    exact .goesOn (Op.exec_stop _ _ _ _) (Op.exec_thread _ _ _ _) rfl
      (((Op.exec_log _ _ _ _).mono fun _ => Event.inert_of_setup).append (Event.inert_fail _))
  | startThread _ _ ht => exact .creates ht rfl rfl rfl rfl
  | sendMsg =>
    exact .goesOn rfl rfl rfl
      (.append (sendMsg_notes (fun _ _ _ _ => rfl) (fun _ _ _ _ => rfl) _ _ _ _).log rfl)
  | finish => exact .stops (e := .finishBegin _) rfl rfl rfl rfl rfl
  | finishJoin _ _ hp => exact .joins (by simp [State.worker, hp, Pc.task]) rfl rfl rfl rfl
  | finishClose => exact .goesOn rfl rfl rfl (Os.closeValid_grows fun _ _ => rfl)
  | publish hp =>
    refine .goesOn rfl rfl (by simp [State.worker, hp, Pc.task]) (.one ?_)
    cases ‹Callback› <;> rfl
  | testStop hp | guard hp | isset hp =>
    refine .goesOn rfl rfl ?_ (by first | exact .refl | exact .one rfl)
    simp only [State.worker, hp]
    split <;> rfl
  | _ => exact .goesOn rfl rfl (by simp [State.worker, Pc.task, *]) (by first | exact .refl | exact .one rfl)

/-! ### What the thread does -/

/-- The receive thread goes through its loop, `Select` reporting data, and `Recv` returns
`bytes`. -/
def serveActions (k : Kind) (bytes : List UInt8) : List Action :=
  .testStop :: ((if k = .udpSocket then [.guard] else []) ++
    [.fdSet, .select, .selectReturns 1 true, .isset, .recv (some bytes) 0, .publish])

/-- The receive thread, at the head of its loop, receives and publishes the data that is ready. -/
def Serving (k : Kind) (s : State) : Prop :=
  s.aborted = false → s.pc = .loopHead → s.sockfd ≠ INVALID_SOCKET →
    ∀ bytes, bytes ≠ [] → bytes.length ≤ MAX_PACKET_SIZE k →
      ∃ s', (machine k).run s (serveActions k bytes) = some s' ∧
        s'.os.log.getLast? = some (.onReceiveData bytes)

/-- **The receive thread serves the socket** as long as the flag is not set. -/
theorem serving {k : Kind} {s : State} (hs : s.stop = false) : Serving k s := by
  intro hab hp hfd bytes hne hlen
  let s₁ : State := { s with pc := .fdSet }
  have hhead : (machine k).run s (.testStop :: if k = .udpSocket then [.guard] else []) = some s₁ := by
    cases k <;> simp [Machine.run, machine, step, receiveStep, hab, hp, hs, hfd, s₁]
  let s₂ : State := { s with pc := .recv, os := ((s.os.record (.fdSet s.sockfd)).record
    (.select (s.sockfd + 1))).record (.fdIsset s.sockfd) }
  have hselect : (machine k).run s₁ [.fdSet, .select, .selectReturns 1 true, .isset] = some s₂ := by
    simp [Machine.run, machine, step, receiveStep, hab, s₁, s₂]
  have hafter : afterRecv k (some bytes) 0 = .publish (.data bytes) := by
    obtain ⟨b, bs, rfl⟩ := List.exists_cons_of_ne_nil hne
    cases k <;> simp [afterRecv]
  let s₃ : State := { s₂ with
    pc := .callback (.data bytes)
    os := (s₂.os.record (.recv s.sockfd (s₂.os.owner s.sockfd) (some bytes))).record (.onReceiveData bytes) }
  have hrecv : (machine k).run s₂ [.recv (some bytes) 0, .publish] = some s₃ := by
    simp [Machine.run, machine, step, receiveStep, hab, Nat.not_lt.mpr hlen, hafter, Callback.event, s₂, s₃]
  rw [serveActions, ← List.cons_append, Machine.run_append hhead]
  exact ⟨s₃, (Machine.run_append hselect).trans hrecv, List.getLast?_concat⟩

/-! ### Creating the thread -/

/-- The operation that an action of a method that sets the socket up executes. -/
def nextOp (s : State) : Action → Option Op
  | .step w _ => match s.calls w with
    | .start (i :: _) => some i.op
    | _ => none
  | _ => none

theorem nextOp_eq {s : State} {w : Caller} {i : Instr} {rest : List Instr} {a : Answer}
    (h : s.calls w = .start (i :: rest)) : nextOp s (.step w a) = some i.op := by
  simp [nextOp, h]

/-- The process is aborted exactly when a thread is created over one that is joinable. -/
theorem Step.aborted_iff {k : Kind} {s s' : State} {a : Action} (h : Step k s a s')
    (hab : s.aborted = false) :
    s'.aborted = false ↔ ∀ op ∈ nextOp s a, op = .thread → s.thread = false := by
  cases h with
  | startThread hc _ ht => exact iff_of_true hab (by simp [nextOp_eq hc, ht])
  | startAborts hc hi ht => exact iff_of_false (by simp) (by simp [nextOp_eq hc, hi, ht])
  | startNext hc hi => exact iff_of_true hab (by simp [nextOp_eq hc, hi])
  | startFails hc hi => exact iff_of_true hab (by simp [nextOp_eq hc, hi])
  | _ => exact iff_of_true hab (by simp [nextOp, *])

/-! ### The descriptor -/

/-- A call that sets the socket up or shuts it down. -/
def CallPc.manages : CallPc → Bool
  | .idle | .sendMsg _ => false
  | _ => true

/-- A method that sets the socket up or shuts it down is called only when no such call is being
made. -/
def InSequence (s : State) (a : Action) : Prop :=
  ∀ w c, a = .call w c → c.begin.manages = true → ∀ w', (s.calls w').manages = false

/-- At most one such call is being made. -/
def Alone (calls : Caller → CallPc) : Prop :=
  ∀ w w', (calls w).manages = true → (calls w').manages = true → w = w'

/-- `finish` has closed the descriptor, and not yet forgotten it. -/
def Closed (calls : Caller → CallPc) : Prop := ∃ w, calls w = .finishReset

section

variable {calls : Caller → CallPc} {w : Caller} {q : CallPc}

/-- Only the call that moves on, and those that were being made before, are being made. -/
theorem manages_update {w' : Caller} (h : (Function.update calls w q w').manages = true) :
    w' = w ∨ (calls w').manages = true := by
  by_cases hw : w' = w
  · exact .inl hw
  · rw [Function.update_of_ne hw] at h
    exact .inr h

theorem Alone.of_only (h : ∀ w', (calls w').manages = true → w' = w) : Alone calls :=
  fun w₁ w₂ h₁ h₂ => (h w₁ h₁).trans (h w₂ h₂).symm

/-- The call goes on. -/
theorem Alone.update (h : Alone calls) (hw : (calls w).manages = true) :
    Alone (Function.update calls w q) :=
  .of_only fun w' hw' => (manages_update hw').elim id fun hm => h w' w hm hw

/-- A call begins. -/
theorem Alone.begin (h : ∀ w', (calls w').manages = false) : Alone (Function.update calls w q) :=
  .of_only fun w' hw' => (manages_update hw').elim id fun hm => by simp [h w'] at hm

/-- A call of another kind goes on. -/
theorem Alone.other (h : Alone calls) (hq : q.manages = false) : Alone (Function.update calls w q) := by
  have hold : ∀ w', (Function.update calls w q w').manages = true → (calls w').manages = true :=
    fun w' => Caller.of_update (P := fun p : CallPc => p.manages = true) (by simp [hq])
  exact fun w₁ w₂ h₁ h₂ => h w₁ w₂ (hold w₁ h₁) (hold w₂ h₂)

theorem Closed.update_iff (hw : calls w ≠ .finishReset) (hq : q ≠ .finishReset) :
    Closed (Function.update calls w q) ↔ Closed calls := by
  constructor
  · rintro ⟨w', hw'⟩
    exact ⟨w', Caller.of_update (P := fun p : CallPc => p = .finishReset) hq hw'⟩
  · rintro ⟨w', hw'⟩
    have hne : w' ≠ w := by
      rintro rfl
      exact hw hw'
    exact ⟨w', by rw [Function.update_of_ne hne]; exact hw'⟩

/-- While another such call is being made, no call of `finish` is between its last two steps. -/
theorem Alone.not_closed (h : Alone calls) (hw : (calls w).manages = true)
    (hne : calls w ≠ .finishReset) : ¬ Closed calls := by
  rintro ⟨w', hw'⟩
  exact hne (h w' w (by rw [hw']; rfl) hw ▸ hw')

/-- After the last step of `finish` no other call is between its last two steps. -/
theorem Alone.not_closed_update (h : Alone calls) (hw : (calls w).manages = true)
    (hq : q ≠ .finishReset) : ¬ Closed (Function.update calls w q) := by
  rintro ⟨w', hw'⟩
  rcases manages_update (show (Function.update calls w q w').manages = true by rw [hw']; rfl) with he | hm
  · rw [he, Function.update_self] at hw'
    exact hq hw'
  · rw [h w' w hm hw, Function.update_self] at hw'
    exact hq hw'

end

theorem Step.alone {k : Kind} {s s' : State} {a : Action} (h : Step k s a s') (ha : InSequence s a)
    (hi : Alone s.calls) : Alone s'.calls := by
  cases h with
  | @call w c =>
    by_cases hm : c.begin.manages = true
    · exact .begin (ha w c rfl hm)
    · exact hi.other (by simpa using hm)
  | sendMsg => exact hi.other rfl
  | startNext hc | startFails hc | startThread hc | finish hc | finishJoin hc | finishNoThread hc
  | finishSelf hc | finishClose hc | finishReset hc => exact hi.update (by rw [hc]; rfl)
  | _ => exact hi

/-- A thread of the application makes the calls, one after the other. -/
def solo (s : State) : Action → Bool
  | .call w _ => w = .app 0 && !(s.calls (.app 0)).manages
  | .step w _ => w = .app 0
  | _ => true

/-- No other thread makes such a call. -/
def OneCaller (s : State) : Prop := ∀ w, w ≠ .app 0 → (s.calls w).manages = false

theorem Step.oneCaller {k : Kind} {s s' : State} {a : Action} (h : Step k s a s') (ha : solo s a = true)
    (hi : OneCaller s) : OneCaller s' := by
  cases h with
  | call =>
    intro w hw
    simp only [solo, Bool.and_eq_true, decide_eq_true_eq] at ha
    simpa [ha.1, hw] using hi w hw
  | startNext | startFails | startThread | sendMsg | finish | finishJoin | finishNoThread | finishSelf
  | finishClose | finishReset =>
    intro w hw
    simp only [solo, decide_eq_true_eq] at ha
    simpa [ha, hw] using hi w hw
  | _ => exact hi

theorem OneCaller.inSequence {s : State} {a : Action} (hi : OneCaller s) (ha : solo s a = true) :
    InSequence s a := by
  rintro w c rfl - w'
  simp only [solo, Bool.and_eq_true, Bool.not_eq_true'] at ha
  by_cases hw : w' = .app 0
  · rw [hw]; exact ha.2
  · exact hi w' hw

/-- The calls of one thread follow each other. -/
theorem inSequence_of_solo (k : Kind) (options : SocketOpt) (as : List Action)
    (h : (machine k).Guarded (fun s a => solo s a = true) (fresh options) as) :
    (machine k).Guarded InSequence (fresh options) as :=
  Machine.Guarded.mono (J := OneCaller) (fun hi ha hs => (Step.of_step hs).2.oneCaller ha hi)
    (fun hi ha => hi.inSequence ha) (fun _ _ => rfl) h

/-- The object, as far as its descriptor is concerned. -/
def State.holder (s : State) : Holder := ⟨s.sockfd, s.os, Closed s.calls⟩

/-- An action stores to `m_sockfd` to set the socket up. -/
def stores (s : State) (a : Action) : Bool := (nextOp s a).any Op.storesFd

theorem stores_of_calls {s : State} {w : Caller} {a : Answer}
    (h : ∀ i rest, s.calls w ≠ .start (i :: rest)) : stores s (.step w a) = false := by
  simp [stores, nextOp]

/-- **A step is a move of the descriptor**, the calls following each other. -/
theorem Step.holder {k : Kind} {s s' : State} {a : Action} (h : Step k s a s') (hi : Alone s.calls) :
    Holder.Move s.holder s'.holder (stores s a) := by
  cases h with
  | startNext hc _ hadm =>
    rw [stores, nextOp_eq hc]
    exact .exec hadm .refl (hi.not_closed (by rw [hc]; rfl) (by simp [hc]))
      (hi.not_closed_update (by rw [hc]; rfl) (by simp))
  | startFails hc _ hadm =>
    rw [stores, nextOp_eq hc]
    exact .exec hadm (.one rfl) (hi.not_closed (by rw [hc]; rfl) (by simp [hc]))
      (hi.not_closed_update (by rw [hc]; rfl) (by simp))
  | startThread hc ht =>
    rw [stores, nextOp_eq hc, ht]
    exact .goesOn rfl (.one rfl) (Closed.update_iff (by simp [hc]) (by simp))
  | startAborts hc ht =>
    rw [stores, nextOp_eq hc, ht]
    exact .goesOn rfl .refl Iff.rfl
  | call hc =>
    exact .goesOn rfl .refl (Closed.update_iff (by simp [hc]) (by cases ‹Call› <;> simp [Call.begin]))
  | sendMsg hc =>
    rw [stores_of_calls (by simp [hc])]
    exact .goesOn rfl
      (.trans (sendMsg_notes (fun _ _ _ _ => rfl) (fun _ _ _ _ => rfl) _ _ _ _) (.one rfl))
      (Closed.update_iff (by simp [hc]) (by simp))
  | finish hc | finishJoin hc | finishNoThread hc | finishSelf hc =>
    rw [stores_of_calls (by simp [hc])]
    exact .goesOn rfl (by first | exact .refl | exact .one rfl) (Closed.update_iff (by simp [hc]) (by simp))
  | finishClose hc =>
    rw [stores_of_calls (by simp [hc])]
    exact .closes (hi.not_closed (by rw [hc]; rfl) (by simp [hc])) ⟨_, Function.update_self _ _ _⟩ rfl rfl
  | finishReset hc =>
    rw [stores_of_calls (by simp [hc])]
    exact .forgets ⟨_, hc⟩ (hi.not_closed_update (by rw [hc]; rfl) (by simp)) rfl rfl
  | publish =>
    refine .goesOn rfl (.one ?_) Iff.rfl
    cases ‹Callback› <;> rfl
  | _ => exact .goesOn rfl (by first | exact .refl | exact .one rfl) Iff.rfl

/-! ### Writing runs down -/

/-- The call that the application makes takes its steps, the answers of the system given. -/
def answered (answers : List Answer) : List Action := answers.map (.step (.app 0))

/-- `connectTo` up to the call of `Connect`, `Socket` returning `d`. -/
def dialActions (d : SOCKET) : List Action :=
  .call (.app 0) (.connectTo "" 80) ::
    answered [{}, {}, { ret := d }, {}, {}, { addr := some INADDR_ANY }, {}]

/-- A call of `connectTo` that succeeds. -/
def connectOk (d : SOCKET) : List Action := dialActions d ++ answered [{}, {}]

/-- A call of `connectTo` in which `Connect` fails. -/
def connectFails (d : SOCKET) : List Action := dialActions d ++ answered [{ ret := -1 }]

/-- A call of `startUnicast` that succeeds. -/
def startUnicastOk (d : SOCKET) : List Action :=
  .call (.app 0) (.startUnicastLocal 80) :: answered [{}, { ret := d }, {}, {}, {}, {}, {}]

/-- The server closes the connection, and the receive thread returns. -/
def endActions : List Action :=
  [.testStop, .fdSet, .select, .selectReturns 1 true, .isset, .recv (some []) 0, .setStop, .publish,
    .callbackReturns]

/-- `finish`, the receive thread not running. -/
def finishActions : List Action := .call (.app 0) .finish :: answered (List.replicate 4 {})

end SocketsCpp.Receiver
