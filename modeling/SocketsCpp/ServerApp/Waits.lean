import SocketsCpp.ServerApp.Clients

/-!
# The two mutexes

`sendMsg` holds the mutex of the application and waits for that of the server, in `sendBcast` and in
`sendClientMessage`; the callbacks run on the server thread, whose mutex is taken by everybody, and wait for the
mutex of the application. What keeps this from a deadlock is that the server thread holds neither mutex when it
begins a callback, and that `onClientConnect` does not hold the mutex of the application when it calls
`getClientInfo`.

* `Waits` — one thread waits for another, at either mutex.
* `Waits.blocked`, `moves_or_waits` — waiting is what stops a thread.
* `two_locks_never_deadlock` — there is no cycle of waits, and whoever has something to do gets on, or waits for
  somebody who does.
-/

namespace SocketsCpp.ServerApp

open SocketsCpp.Library
open TcpServer (Thread Tended threadOf)

/-- The thread that takes a step. -/
def Action.thread : Action → Thread
  | .server a => a.thread
  | .callback _ _ => .server
  | .sendMsg n _ _ | .send n => .app n

/-- A thread is at the lock of the mutex of the application. -/
def State.atLock (s : State) : Thread → Bool
  | .server =>
      match s.host with
      | .insertLock _ | .eraseLock _ => true
      | _ => false
  | .app n =>
      match s.calls n with
      | .lock _ _ => true
      | _ => false

/-- One thread waits for another. -/
inductive Waits (s : State) : Thread → Thread → Prop where
  /-- At the mutex of the application. -/
  | app {t u : Thread} : s.atLock t = true → s.mutex = some u → Waits s t u
  /-- In the code of the server. -/
  | server {t u : Thread} : TcpServer.Waits s.server t u → Waits s t u

/-- A thread has something to do. -/
def Busy (s : State) : Thread → Prop
  | .server => ¬ s.server.pc.stopped
  | .app n => s.calls n ≠ .idle

/-- A thread is in a call of a method of the server, or the server thread is in `serverTask`. -/
def State.InServer (s : State) : Thread → Prop
  | .server => s.host = .idle ∨ ∃ x, s.host = .asking x
  | .app n => (∃ idx data, s.calls n = .sending idx data) ∧ s.server.calls (.app n) ≠ .idle

/-- A thread can take a step. -/
def Moves (s : State) (t : Thread) : Prop := ∃ a s', a.thread = t ∧ machine.step s a = some s'

section

variable {s : State} {t u : Thread}

/-- A thread at the lock makes no call of a method. -/
theorem Account.calls_idle (hi : Account s) (hl : s.atLock t = true) {w : Caller} (hw : threadOf w = t) :
    s.server.calls w = .idle := by
  subst hw
  cases w with
  | app n =>
    refine hi.sending.silent fun idx data hc => ?_
    simp [State.atLock, threadOf, hc] at hl
  | callback =>
    refine hi.hosted.silent fun x hx => ?_
    simp [State.atLock, threadOf, hx] at hl
  | serverTask =>
    have hne : s.host ≠ .idle := by
      intro hx
      simp [State.atLock, threadOf, hx] at hl
    obtain ⟨r, cb, hp, -⟩ := hi.hosted.callback hne
    exact hi.server.account.orderly.placed.task_idle (by simp [hp])

/-- A thread at the lock holds neither mutex. -/
theorem Account.holds_nothing (hi : Account s) (hl : s.atLock t = true) :
    ¬ TcpServer.Holds s.server t ∧ s.mutex ≠ some t := by
  constructor
  · rintro ⟨w, sec, hm, hw⟩
    have hlocked := (hi.server.account.orderly.discipline w).mpr ⟨sec, hm⟩
    rw [hi.calls_idle hl hw] at hlocked
    cases hlocked
  · intro hm
    have hh := (hi.held t).mpr hm
    cases t with
    | server => cases hx : s.host <;> simp [State.atLock, State.holds, HostPc.holds, hx] at hl hh
    | app n => cases hx : s.calls n <;> simp [State.atLock, State.holds, SendPc.holds, hx] at hl hh

/-- A thread that waits in the code of the server is in a call of a method, or the server thread is in
`serverTask`. -/
theorem Account.in_server (hi : Account s) (h : TcpServer.Waits s.server t u) : s.InServer t := by
  cases h with
  | join hc => exact absurd trivial (hi.server.resident.not_finishing hc)
  | lock hl =>
    rcases hl with ⟨w, rfl, hw⟩ | ⟨rfl, hp⟩
    · have hidle : s.server.calls w ≠ .idle := by
        intro hc
        simp [hc, TcpServer.CallPc.atLock] at hw
      cases w with
      | app n =>
        refine ⟨?_, hidle⟩
        by_contra hn
        exact hidle (hi.sending.silent fun idx data hc => hn ⟨idx, data, hc⟩)
      | callback =>
        refine .inr ?_
        by_contra hn
        exact hidle (hi.hosted.silent fun x hx => hn ⟨x, hx⟩)
      | serverTask =>
        obtain ⟨r, hp⟩ := hi.server.account.orderly.placed.task hidle
        exact .inl (hi.hosted.idle (by simp [hp]))
    · refine .inl (hi.hosted.idle fun r cb hpc => ?_)
      rw [hpc] at hp
      cases hp

/-! ### Waiting is what stops a thread -/

/-- A thread at the lock of the application takes no step in the code of the server. -/
theorem Account.no_server_step (hi : Account s) (hl : s.atLock t = true) {a : TcpServer.Action}
    {server : TcpServer.State} (hal : s.allows a = true) (ha : a.thread = t)
    (h : TcpServer.Step s.server a server) : False := by
  cases a with
  | call => cases hal
  | step w ans order => exact h.calls_ne_idle (hi.calls_idle hl ha)
  | callbackReturns =>
    have hdone : s.host = .done := of_decide_eq_true hal
    rw [← ha] at hl
    simp [State.atLock, TcpServer.Action.thread, hdone] at hl
  | _ =>
    -- the server thread is in a callback, where it takes no other step
    rw [← ha] at hl
    have hne : s.host ≠ .idle := by
      intro hx
      simp [State.atLock, TcpServer.Action.thread, hx] at hl
    obtain ⟨r, cb, hp, -⟩ := hi.hosted.callback hne
    cases h <;> simp_all

/-- **A thread that waits cannot move.** -/
theorem Waits.blocked (h : Waits s t u) (hi : Account s) : ¬ Moves s t := by
  rintro ⟨a, s', ha, hs⟩
  have hs := Step.of_step hs
  cases h with
  | app hl hm =>
    cases hs with
    | server hal hserver => exact hi.no_server_step hl hal ha (TcpServer.Step.of_step hserver).2
    | insertLock _ hm' | eraseLock _ hm' | sendLock _ hm' =>
      rw [hm] at hm'
      cases hm'
    | connect hc | insert hc | erase hc | sendMsg hc | sendCall hc | sendNone hc | sendEnd hc =>
      rw [← ha] at hl
      simp [State.atLock, Action.thread, hc] at hl
  | server hw =>
    have hin := hi.in_server hw
    rw [← ha] at hin
    cases hs with
    | @server a server hal hserver =>
      exact hw.blocked hi.server.account.orderly ⟨a, server, ha, hserver⟩
    | connect hc | insertLock hc | insert hc | eraseLock hc | erase hc =>
      simp [State.InServer, Action.thread, hc] at hin
    | sendMsg hc | sendLock hc | sendCall hc | sendNone hc => simp [State.InServer, Action.thread, hc] at hin
    | sendEnd hc hidle => exact hin.2 hidle

/-! ### What stops a thread is waiting -/

theorem Moves.of_isSome {a : Action} (ha : a.thread = t) (h : (step s a).isSome = true) : Moves s t := by
  obtain ⟨s', hs⟩ := Option.isSome_iff_exists.mp h
  exact ⟨a, s', ha, hs⟩

/-- What the server does in its own code it does in the application. -/
theorem Moves.of_server {a : TcpServer.Action} (ha : a.thread = t) (hal : s.allows a = true)
    (h : (TcpServer.machine.step s.server a).isSome = true) : Moves s t := by
  obtain ⟨server, hs⟩ := Option.isSome_iff_exists.mp h
  exact .of_isSome (a := .server a) ha (by simp [step, serverStep, hal, hs])

/-- A call of a method is possible where none is being made. -/
theorem call_isSome {server : TcpServer.State} (hab : server.aborted = false) {w : Caller} {c : TcpServer.Call}
    (hidle : server.calls w = .idle)
    (hw : (∃ n, w = .app n) ∨ (w = .callback ∧ ∃ r cb, server.pc = .callback r cb)) :
    TcpServer.machine.step server (.call w c) = some (server.goto w c.begin) := by
  have hmay : TcpServer.mayCall server w = true := TcpServer.mayCall_iff.mpr ⟨hidle, hw⟩
  simp [TcpServer.machine, TcpServer.step, hab, hmay]

/-- A call of a method goes on, or its thread waits. -/
theorem Account.call_moves_or_waits (hi : Account s) (hs : TcpServer.Sending s.server)
    (hab : s.server.aborted = false) {w : Caller} (hw : s.server.calls w ≠ .idle) :
    Moves s (threadOf w) ∨ ∃ u, Waits s (threadOf w) u := by
  have ho := hi.server.account.orderly
  rcases TcpServer.call_moves_or_waits ho hi.server.account.owned hs hab hw with ⟨a, server, ha, hstep⟩ | ⟨u, hu⟩
  · obtain ⟨ans, order, rfl⟩ := (TcpServer.Step.of_step hstep).2.step_of_thread ho hw ha
    exact .inl (.of_server ha rfl (by rw [hstep]; rfl))
  · exact .inr ⟨u, .server hu⟩

/-- At a lock a thread takes the mutex, or waits. -/
theorem lock_moves_or_waits (hl : s.atLock t = true) (h : s.mutex = none → Moves s t) :
    Moves s t ∨ ∃ u, Waits s t u := by
  cases hm : s.mutex with
  | none => exact .inl (h hm)
  | some u => exact .inr ⟨u, .app hl hm⟩

/-- **A thread that has something to do moves or waits.** -/
theorem moves_or_waits (hi : Account s) (hs : TcpServer.Sending s.server) (hab : s.server.aborted = false)
    (hb : Busy s t) : Moves s t ∨ ∃ u, Waits s t u := by
  have ho := hi.server.account.orderly
  cases t with
  | app n =>
    cases hc : s.calls n with
    | idle => exact absurd hc hb
    | lock idx data =>
      refine lock_moves_or_waits (by simp [State.atLock, hc]) fun hm => ?_
      exact .of_isSome (a := .send n) rfl (by simp [step, sendStep, hc, hm])
    | locked idx data =>
      have hcall := fun c => call_isSome (c := c) hab (hi.sending.silent (n := n) (by simp [hc])) (.inl ⟨n, rfl⟩)
      refine .inl (.of_isSome (a := .send n) rfl ?_)
      by_cases h0 : idx = 0
      · simp [step, sendStep, hc, State.call, hcall, h0]
      · by_cases hmem : idx ∈ s.clients <;> simp [step, sendStep, hc, State.call, hcall, h0, hmem]
    | sending idx data =>
      by_cases hidle : s.server.calls (.app n) = .idle
      · exact .inl (.of_isSome (a := .send n) rfl
          (by simp [step, sendStep, hc, hidle, TcpServer.CallPc.isIdle]))
      · exact hi.call_moves_or_waits hs hab hidle
  | server =>
    have hcb := fun hne => hi.hosted.callback hne
    cases hh : s.host with
    | connect x =>
      obtain ⟨r, cb, hp, -⟩ := hcb (by simp [hh])
      have hcall := fun c => call_isSome (c := c) hab (hi.hosted.silent (by simp [hh])) (.inr ⟨rfl, r, cb, hp⟩)
      exact .inl (.of_isSome (a := .callback 0 false) rfl (by simp [step, hostStep, hh, State.call, hcall]))
    | asking x =>
      obtain ⟨out, hc⟩ := hi.hosted.asking x hh
      exact hi.call_moves_or_waits (w := .callback) hs hab (by simp [hc])
    | insertLock x | eraseLock x =>
      refine lock_moves_or_waits (by simp [State.atLock, hh]) fun hm => ?_
      exact .of_isSome (a := .callback 0 false) rfl (by simp [step, hostStep, hh, hm])
    | insert x | erase x =>
      exact .inl (.of_isSome (a := .callback 0 false) rfl (by simp [step, hostStep, hh]))
    | done =>
      obtain ⟨r, cb, hp, -⟩ := hcb (by simp [hh])
      have hidle := hi.hosted.silent (by simp [hh])
      refine .inl (.of_server (a := .callbackReturns) rfl (by simp [State.allows, hh]) ?_)
      simp [TcpServer.machine, TcpServer.step, hab, TcpServer.serverStep, hp, hidle, TcpServer.CallPc.isIdle]
    | idle =>
      have hnot : ∀ r cb, s.server.pc ≠ .callback r cb := by
        intro r cb hp
        have hin := hi.hosted.running r cb hp
        rw [hh] at hin
        exact hin
      rcases TcpServer.moves_or_waits ho hi.server.account.owned hs hab (t := .server) hb with
        ⟨a, server, ha, hstep⟩ | ⟨u, hu⟩
      · have hal : s.allows a = true := by
          cases a with
          | call w c =>
            rcases (TcpServer.Step.of_step hstep).2 with h
            cases h with
            | callApp => cases ha
            | callCallback hp => exact absurd hp (hnot _ _)
          | callbackReturns =>
            cases (TcpServer.Step.of_step hstep).2 with
            | callbackReturns hp => exact absurd hp (hnot _ _)
          | _ => rfl
        exact .inl (.of_server ha hal (by rw [hstep]; rfl))
      · exact .inr ⟨u, .server hu⟩

/-! ### Cycles -/

/-- How far a thread is from one that waits for nobody. -/
noncomputable def rank (s : State) (t : Thread) : ℕ :=
  open Classical in if TcpServer.Holds s.server t then 0 else if s.mutex = some t then 1 else 2

theorem Waits.rank_lt (h : Waits s t u) (hi : Account s) : rank s u < rank s t := by
  cases h with
  | app hl hm =>
    obtain ⟨hserver, happ⟩ := hi.holds_nothing hl
    unfold rank
    rw [if_neg hserver, if_neg happ, if_pos hm]
    split <;> omega
  | server hw =>
    have ht : ¬ TcpServer.Holds s.server t := fun hh => hh.not_waits hi.server.account.orderly hw
    unfold rank
    rw [if_neg ht]
    cases hw with
    | join hc => exact absurd trivial (hi.server.resident.not_finishing hc)
    | lock _ hu =>
      rw [if_pos hu]
      split <;> omega

/-- Whoever is waited for has something to do. -/
theorem Waits.busy (h : Waits s t u) (hi : Account s) : Busy s u := by
  have ho := hi.server.account.orderly
  cases h with
  | app _ hm =>
    have hh := (hi.held u).mpr hm
    cases u with
    | app n =>
      intro hc
      simp [State.holds, hc, SendPc.holds] at hh
    | server =>
      have hne : s.host ≠ .idle := by
        intro hx
        simp [State.holds, hx, HostPc.holds] at hh
      obtain ⟨r, cb, hp, -⟩ := hi.hosted.callback hne
      simp [Busy, TcpServer.Pc.stopped, hp]
  | server hw =>
    cases hw with
    | join hc => exact absurd trivial (hi.server.resident.not_finishing hc)
    | lock _ hu =>
      obtain ⟨w, sec, hm, rfl⟩ := hu
      have hlocked := (ho.discipline w).mpr ⟨sec, hm⟩
      cases hw : threadOf w with
      | app n =>
        obtain rfl := TcpServer.threadOf_eq_app hw
        intro hc
        rw [hi.sending.silent (by simp [hc])] at hlocked
        cases hlocked
      | server =>
        rcases ho.hosts hw (by simp [hlocked]) with ⟨r, cb, hp, -⟩ | ⟨r, hp, -⟩ <;>
          simp [Busy, TcpServer.Pc.stopped, hp]

/-- Whoever has something to do gets on, or waits for somebody who does. -/
theorem gets_on (hi : Account s) (hs : TcpServer.Sending s.server) (hab : s.server.aborted = false)
    (hb : Busy s t) : ∃ u, Relation.ReflTransGen (Waits s) t u ∧ Moves s u := by
  induction hn : rank s t using Nat.strong_induction_on generalizing t with
  | h n ih =>
    rcases moves_or_waits hi hs hab hb with hm | ⟨u, hu⟩
    · exact ⟨t, .refl, hm⟩
    · obtain ⟨v, hv, hm⟩ := ih (rank s u) (hn ▸ hu.rank_lt hi) (hu.busy hi) rfl
      exact ⟨v, .head hu hv, hm⟩

/-- There is no cycle of waits. -/
theorem acyclic (hi : Account s) (t : Thread) : ¬ Relation.TransGen (Waits s) t t := by
  have hlt : ∀ {t u}, Relation.TransGen (Waits s) t u → rank s u < rank s t := by
    intro t u h
    induction h with
    | single h => exact h.rank_lt hi
    | tail _ h ih => exact (h.rank_lt hi).trans ih
  exact fun h => Nat.lt_irrefl _ (hlt h)

end

/-- **The two mutexes never deadlock.** In every interleaving of the server thread, the callbacks and any number
of threads in `sendMsg` there is no cycle of waits over the mutexes of the application and of the server; a thread
that waits is one that cannot move; and from every thread that has something to do the waits lead to one that can
take a step. -/
theorem two_locks_never_deadlock {server : TcpServer.State} {s : State} (h₀ : TcpServer.Started server)
    (h : machine.Reach Machine.Any (init server) s) :
    (∀ t, ¬ Relation.TransGen (Waits s) t t) ∧ (∀ t u, Waits s t u → ¬ Moves s t) ∧
      ∀ t, Busy s t → ∃ u, Relation.ReflTransGen (Waits s) t u ∧ Moves s u := by
  have hi := Account.reach h₀.initial h
  have hserver := reach_server h
  have hregular : ∀ (_ : TcpServer.State) a, TcpServer.Action.keepsClients a = true → a.regular = true :=
    fun _ _ ha => TcpServer.Action.regular_of_concurrent (TcpServer.Action.concurrent_of_keepsClients ha)
  have hab : s.server.aborted = false := h₀.reach_not_aborted hregular hserver
  have hs : TcpServer.Sending s.server := Machine.Reach.invariant_of
    (fun _ hr => (h₀.initial.reach hregular hr).1)
    (by intro w msg rest hm; simp [h₀.initial.mutex] at hm)
    (fun _ _ _ hj hi _ hs => (TcpServer.Step.of_step hs).2.sending hj hi) hserver
  exact ⟨acyclic hi, fun t u hw => hw.blocked hi, fun t hb => gets_on hi hs hab hb⟩

/-- A thread in `sendMsg` waits for another, which waits for the server thread. -/
theorem two_locks_never_deadlock_chain : ∃ s, machine.Reach Machine.Any (init TcpServer.started) s ∧
    Waits s (.app 1) (.app 0) ∧ Waits s (.app 0) .server ∧
    ∃ u, Relation.ReflTransGen (Waits s) (.app 1) u ∧ Moves s u := by
  obtain ⟨s, hr, hl, hm, hc, ⟨hcall, hserver⟩⟩ : ∃ s, machine.Reach Machine.Any (init TcpServer.started) s ∧
      s.atLock (.app 1) = true ∧ s.mutex = some (.app 0) ∧ s.calls 1 ≠ .idle ∧
      (s.server.calls (.app 0)).atLock = true ∧ (s.server.mutex.map fun x => threadOf x.1) = some .server :=
    Machine.exists_reach (List.flatten [(TcpServer.selectActions [0]).map .server, connectActions 1,
      [.callback 0 false, .callback 0 false, .server .callbackReturns, .server .forStep],
      (TcpServer.selectActions [1]).map .server, [.server .forStep, .server .forStep],
      disconnectActions.take 4, [.sendMsg 0 0 [7], .send 0, .send 0, .sendMsg 1 1 [7]]]) (by decide)
  obtain ⟨⟨w, sec⟩, hm', hw⟩ := Option.map_eq_some_iff.mp hserver
  exact ⟨s, hr, .app hl hm, .server (.lock (.inl ⟨.app 0, rfl, hcall⟩) ⟨w, sec, hm', hw⟩),
    (two_locks_never_deadlock TcpServer.started_started hr).2.2 (.app 1) hc⟩

end SocketsCpp.ServerApp
