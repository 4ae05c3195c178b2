import SocketsCpp.TcpServer.WatchSet

/-!
# Sequential runs

Runs in which the application calls the methods of the server only while the server
thread waits in `Select`, one call at a time, and does not call `finish`; callbacks may
call any other method. In such runs nobody acts in the middle of a call of another
(`InTurn`), so table, `m_fds` and the open descriptors agree whenever no call is being
made (`table_watch_set_descriptors_agree`).
-/

namespace SocketsCpp.TcpServer

open SocketsCpp.Library

/-- The actions of runs with one thread of the application, that does not call `finish`. -/
def Action.sequential : Action → Bool
  | .call (.app (_ + 1)) _ | .step (.app (_ + 1)) _ _ | .call _ .finish => false
  | a => a.regular

/-- An action of the application. -/
def Action.byApp : Action → Bool
  | .call (.app _) _ | .step (.app _) _ _ => true
  | _ => false

/-- The server thread waits in `Select`. -/
def Pc.isWaiting : Pc → Bool
  | .waiting _ _ _ => true
  | _ => false

/-- The application acts only while the server thread waits in `Select`, and the server thread
only while the application makes no call. -/
def Sequential (s : State) (a : Action) : Prop :=
  a.sequential = true ∧ (if a.byApp then s.pc.isWaiting else (s.calls (.app 0)).isIdle) = true

instance (s : State) (a : Action) : Decidable (Sequential s a) := inferInstanceAs (Decidable (_ ∧ _))

theorem Action.regular_of_sequential {a : Action} (h : a.sequential = true) : a.regular = true := by
  unfold sequential at h
  split at h <;> first | cases h | exact h

/-- A call of `finish` is being made. -/
def CallPc.finishing : CallPc → Prop
  | .finish | .finishJoin | .finishLock => True
  | _ => False

/-- Nobody acts in the middle of a call of another. -/
structure InTurn (s : State) : Prop where
  /-- The application makes a call only while the server thread waits. -/
  app : ∀ n, s.calls (.app n) ≠ .idle → n = 0 ∧ s.pc.isWaiting = true
  /-- `finish` is not called. -/
  finish : ∀ w, ¬ (s.calls w).finishing
  /-- The server thread was not joined. -/
  thread : s.thread = true

namespace InTurn

variable {s s' : State} {w : Caller} {p : CallPc}

/-- The server thread moves on. -/
theorem move (hi : InTurn s) (hidle : (s.calls (.app 0)).isIdle = true) (hc : s'.calls = s.calls)
    (ht : s'.thread = s.thread) : InTurn s' where
  app n hn := by
    rw [hc] at hn
    obtain ⟨rfl, -⟩ := hi.app n hn
    exact absurd (CallPc.isIdle_iff.mp hidle) hn
  finish w := by rw [hc]; exact hi.finish w
  thread := ht.trans hi.thread

theorem not_finishing (hi : InTurn s) (hc : s.calls w = p) : ¬ p.finishing := hc ▸ hi.finish w

/-- The calls made on the server thread go on. -/
theorem begin (hi : InTurn s) (hidle : (s.calls (.app 0)).isIdle = true) (hw : ∀ n, w ≠ .app n)
    (hp : ¬ p.finishing) (hc : s'.calls = Function.update s.calls w p) (ht : s'.thread = s.thread) :
    InTurn s' where
  app n hn := by
    rw [hc, Function.update_of_ne (Ne.symm (hw n))] at hn
    obtain ⟨rfl, -⟩ := hi.app n hn
    exact absurd (CallPc.isIdle_iff.mp hidle) hn
  finish w' := by
    rw [hc]
    exact (Function.forall_update_iff s.calls fun _ q => ¬ q.finishing).mpr ⟨hp, fun w' _ => hi.finish w'⟩ w'
  thread := ht.trans hi.thread

/-- A call that is being made goes on. -/
theorem update (hi : InTurn s) (hw : s.calls w ≠ .idle) (hp : ¬ p.finishing) (hpc : s'.pc = s.pc)
    (hc : s'.calls = Function.update s.calls w p) (ht : s'.thread = s.thread) : InTurn s' where
  app n hn := by
    rw [hc] at hn
    rw [hpc]
    by_cases hwn : w = .app n
    · exact hi.app n (hwn ▸ hw)
    · rw [Function.update_of_ne (Ne.symm hwn)] at hn
      exact hi.app n hn
  finish w' := by
    rw [hc]
    exact (Function.forall_update_iff s.calls fun _ q => ¬ q.finishing).mpr ⟨hp, fun w' _ => hi.finish w'⟩ w'
  thread := ht.trans hi.thread

end InTurn

theorem Call.begin_not_finishing {w : Caller} {c : Call} (h : (Action.call w c).sequential = true) :
    ¬ c.begin.finishing := by
  cases c with
  | finish =>
    refine absurd h ?_
    cases w with
    | app n => cases n <;> simp [Action.sequential]
    | _ => simp [Action.sequential]
  | _ => simp [Call.begin, CallPc.finishing]

theorem Step.inTurn {s s' : State} {a : Action} (h : Step s a s') (hok : Sequential s a)
    (ho : Orderly s) (hi : InTurn s) : InTurn s' := by
  have hns := ho.noStart
  cases h with
  | startNext hc | startFails hc | startWatch hc | startThread hc | startAborts hc =>
    exact absurd hc (hns _ _)
  | @callApp n c hc =>
    have hn : n = 0 := by
      cases n with
      | zero => rfl
      | succ n => cases hok.1
    subst hn
    refine ⟨fun n hn => ?_, fun w => ?_, hi.thread⟩
    · by_cases h0 : n = 0
      · exact ⟨h0, hok.2⟩
      · exact hi.app n (by simpa [h0] using hn)
    · by_cases hw : w = .app 0
      · subst hw
        simpa using Call.begin_not_finishing hok.1
      · simpa [hw] using hi.finish w
  | @callCallback r cb c hp hc =>
    exact hi.begin hok.2 (by simp) (Call.begin_not_finishing hok.1) rfl rfl
  | finish hc | finishJoin hc | finishNoThread hc | finishSelf hc | finishLock hc =>
    exact absurd trivial (hi.not_finishing hc)
  | finishClose _ hm | finishEnd _ hm =>
    exact absurd (ho.shutdown.closing _ _ hm) (by simp [hi.thread])
  | disconnectEof => exact hi.begin hok.2 (by simp) (by simp [CallPc.finishing]) rfl rfl
  | deleteFound hc | deleteNone hc | deleteErase hc | bcastLock hc | bcastEnd hc
  | bcastFails hc | sendFound hc | sendNone hc | send hc | infoFound hc | infoNone hc =>
    exact hi.update (by rw [hc]; simp) (by simp [CallPc.finishing]) rfl rfl rfl
  | deleteClose | deleteClr | bcastSend => exact ⟨hi.app, hi.finish, hi.thread⟩
  | _ => exact hi.move hok.2 rfl rfl

/-- No critical section is in progress when no call is. -/
theorem InTurn.mutex_none {s : State} (hi : InTurn s) (ho : Orderly s) (hpc : s.pc.isWaiting = false)
    (hcb : s.calls .callback = .idle) (ht : s.calls .serverTask = .idle) : s.mutex = none := by
  by_contra hm
  obtain ⟨⟨w, sec⟩, hm⟩ := Option.ne_none_iff_exists'.mp hm
  have hlocked : s.calls w = .locked := (ho.discipline w).mpr ⟨sec, hm⟩
  cases w with
  | serverTask => rw [ht] at hlocked; cases hlocked
  | callback => rw [hcb] at hlocked; cases hlocked
  | app n => exact absurd (hi.app n (by simp [hlocked])).2 (by simp [hpc])

/-- Nor is it while the server thread waits and the application makes no call. -/
theorem InTurn.mutex_waiting {s : State} (hi : InTurn s) (ho : Orderly s) (hpc : s.pc.isWaiting = true)
    (happ : s.calls (.app 0) = .idle) : s.mutex = none := by
  by_contra hm
  obtain ⟨⟨w, sec⟩, hm⟩ := Option.ne_none_iff_exists'.mp hm
  have hlocked : s.calls w = .locked := (ho.discipline w).mpr ⟨sec, hm⟩
  have hidle : s.calls w = .idle := by
    cases w with
    | serverTask => exact ho.placed.task_idle fun r hp => by simp [hp, Pc.isWaiting] at hpc
    | callback => exact ho.placed.callback_idle fun r cb hp => by simp [hp, Pc.isWaiting] at hpc
    | app n =>
      by_contra hn
      obtain ⟨rfl, -⟩ := hi.app n hn
      exact hn happ
  rw [hidle] at hlocked
  cases hlocked

/-- Calls are made only in `Select`, in a callback and in `deleteClient`. -/
def Pc.hosts : Pc → Bool
  | .waiting _ _ _ | .callback _ _ | .deleting _ => true
  | _ => false

/-- Where no call is made the mutex is free. -/
theorem InTurn.mutex_free {s : State} (hi : InTurn s) (ho : Orderly s) (hpc : s.pc.hosts = false) :
    s.mutex = none := by
  refine hi.mutex_none ho ?_ (ho.placed.callback_idle ?_) (ho.placed.task_idle ?_)
  · cases hp : s.pc <;> simp [hp, Pc.hosts, Pc.isWaiting] at hpc ⊢
  · intro r cb hp; simp [hp, Pc.hosts] at hpc
  · intro r hp; simp [hp, Pc.hosts] at hpc

/-- No `FD_CLR` falls between `emplace` and `FD_SET`. -/
theorem InTurn.keepsPending {s : State} (hi : InTurn s) (ho : Orderly s) (a : Action) :
    clearsPending s a = false := by
  unfold clearsPending
  split
  · next hm hp =>
    have hfree := hi.mutex_free ho (by rw [hp]; rfl)
    rw [hm] at hfree
    cases hfree
  · rfl

theorem Initial.inTurn {s : State} (h : Initial s) : InTurn s where
  app n hn := absurd (h.calls _) hn
  finish w := by rw [h.calls w]; exact id
  thread := h.thread

/-! ### The entry that the server thread points at -/

/-- The entry that `client` points at in `serverTask`. -/
def Pc.pointer : Pc → Option (ClientHandle × ConnId)
  | .recv r c | .disconnected r c _ => some (r.fd, c)
  | _ => Option.none

/-- The entry that `client` points at is in the table. -/
def Pointing (s : State) : Prop :=
  ∀ h c, s.pc.pointer = some (h, c) → s.clients.conn h = some c

theorem Pc.hosts_of_pointer {pc : Pc} (h : pc.pointer ≠ Option.none) : pc.hosts = false := by
  cases pc <;> first | rfl | exact absurd rfl h

theorem Pointing.of_none {s : State} (h : s.pc.pointer = none) : Pointing s := by
  intro h' c hs
  rw [h] at hs
  cases hs

theorem Step.pointing {s s' : State} {a : Action} (h : Step s a s') (ho : Orderly s) (ht : InTurn s)
    (hi : Pointing s) : Pointing s' := by
  have hns := ho.noStart
  cases h with
  | startNext hc | startFails hc | startWatch hc | startThread hc | startAborts hc =>
    exact absurd hc (hns _ _)
  | @lookupClient r cl hp hm hl =>
    intro h' c hs
    cases hs
    simp [Clients.conn, hl]
  | recvEnd hp =>
    intro h' c hs
    exact hi h' c (by rw [hp]; exact hs)
  | deleteErase _ hm =>
    by_cases hn : s.pc.pointer = none
    · exact .of_none hn
    · have hfree := ht.mutex_free ho (Pc.hosts_of_pointer hn)
      rw [hm] at hfree
      cases hfree
  | finishEnd _ hm => exact absurd (ho.shutdown.closing _ _ hm) (by simp [ht.thread])
  | _ => first | exact hi | exact .of_none rfl

/-! ### All together -/

/-- What holds throughout a sequential run. -/
structure Settled (s : State) : Prop where
  /-- What holds in every interleaving. -/
  account : Account s
  /-- Nobody acts in the middle of a call of another. -/
  inTurn : InTurn s
  /-- What is in `m_fds` is the listening socket or a client. -/
  watched : Watched s
  /-- The listening socket and the clients are in `m_fds`. -/
  covered : Covered s
  /-- `client` points into the table. -/
  pointing : Pointing s

theorem Initial.settled {s : State} (h : Initial s) : Settled s :=
  ⟨h.account, h.inTurn, h.watched, h.covered, .of_none (by rw [h.pc]; rfl)⟩

theorem Step.settled {s s' : State} {a : Action} (h : Step s a s') (hok : Sequential s a)
    (hi : Settled s) : Settled s' := by
  have ho := hi.account.orderly
  have hturn := h.inTurn hok ho hi.inTurn
  exact ⟨h.account (Action.regular_of_sequential hok.1) hi.account, hturn,
    h.watched ho hi.account.owned (hi.inTurn.keepsPending ho a) (fun _ => hi.watched) hturn.thread,
    h.covered ho hi.account.owned (fun _ => hi.covered) hturn.thread, h.pointing ho hi.inTurn hi.pointing⟩

theorem Settled.reach {s₀ s : State} (h₀ : Settled s₀) (h : machine.Reach Sequential s₀ s) : Settled s :=
  h.invariant h₀ fun _ _ _ hi hok hs => (Step.of_step hs).2.settled hok hi

/-! ### Agreement -/

/-- Table, `m_fds` and the open descriptors agree. -/
structure Agree (s : State) : Prop where
  /-- `m_fds` holds the listening socket and the clients. -/
  fds : ∀ d, s.fds d = true ↔ d = s.sockfd ∨ d ∈ s.clients
  /-- A client is stored under its own descriptor. -/
  key : ∀ h cl, s.clients.lookup h = some cl → cl.sockfd = h ∧ h ≠ INVALID_SOCKET
  /-- The listening socket and the clients are the open descriptors. -/
  opened : ∀ d, (∃ c, s.os.owner d = some c) ↔ d = s.sockfd ∨ d ∈ s.clients

theorem Settled.agree {s : State} (h : Settled s) (hm : s.mutex = none) (hh : s.pc.hand = none)
    (hp : ∀ r d, s.pc ≠ .fdSet r d) : Agree s where
  fds d := by
    constructor
    · exact fun hd => (h.watched.set d hd).imp id fun hd => hd.1
    · rintro (rfl | hd)
      · exact h.covered.listen
      · exact h.covered.client d hd (fun r => hp r d) (by simp [State.clearing, hm])
  key h' cl hl := by
    have hnonneg : 0 ≤ h' := h.account.owned.reg.nonneg (Clients.entry_eq_some hl)
    refine ⟨h.account.owned.key hl, ?_⟩
    rintro rfl
    exact absurd hnonneg (by decide)
  opened d := by
    have ho := h.account.owned
    constructor
    · rintro ⟨c, hc⟩
      rcases ho.reg.cover hc with hd | hd | ⟨-, hd⟩
      · exact .inl hd
      · exact absurd (hh.symm.trans hd) (by simp)
      · exact .inr (Clients.entry_ne_none.mp (by
          rw [show s.clients.entry d = some (d, c) from hd]; simp))
    · rintro (rfl | hd)
      · exact ho.reg.listening (ho.listening h.inTurn.thread)
      · obtain ⟨cl, hl⟩ := lookup_eq_some_of_mem hd
        exact ⟨_, ho.live hm hl⟩

/-- **Client table, watch set and open descriptors agree in every sequential run**, at the head of
the loop of the server thread and on entry to every callback. -/
theorem table_watch_set_descriptors_agree {s₀ s : State} (h₀ : Started s₀)
    (h : machine.Reach Sequential s₀ s)
    (hpc : s.pc = .loopHead ∨ ∃ r cb, s.pc = .callback r cb ∧ s.calls .callback = .idle) :
    Agree s := by
  have hs := h₀.initial.settled.reach h
  have ho := hs.account.orderly
  rcases hpc with hp | ⟨r, cb, hp, hcb⟩
  · exact hs.agree (hs.inTurn.mutex_free ho (by rw [hp]; rfl)) (by simp [hp, Pc.hand]) (by simp [hp])
  · exact hs.agree (hs.inTurn.mutex_none ho (by simp [hp, Pc.isWaiting]) hcb
      (ho.placed.task_idle (by simp [hp]))) (by simp [hp, Pc.hand]) (by simp [hp])

/-- One client is deleted in the callback of another, and its number is given out again. -/
theorem table_watch_set_descriptors_agree_recycled : ∃ s, machine.Reach Sequential started s ∧
    s.pc = .loopHead ∧ 1 ∈ s.clients ∧ 2 ∈ s.clients ∧ Agree s := by
  obtain ⟨s, hr, hp, h1, h2⟩ : ∃ s, machine.Reach Sequential started s ∧ s.pc = .loopHead ∧
      1 ∈ s.clients ∧ 2 ∈ s.clients :=
    Machine.exists_reach (List.flatten [selectActions [0], acceptActions 1, [.forStep], selectActions [0],
      acceptActions 2, [.forStep, .forStep], selectActions [0, 2],
      [.forStep, .lookup, .accept none, .forStep, .forStep, .lookup, .recv (some [7]), .publish],
      deleteActions .callback 1, [.callbackReturns, .forStep], selectActions [0],
      acceptActions 1, [.forStep, .forStep, .forStep]]) (by decide)
  exact ⟨s, hr, hp, h1, h2, table_watch_set_descriptors_agree started_started hr (.inl hp)⟩

end SocketsCpp.TcpServer
