import SocketsCpp.TcpServer.Closing
import Mathlib.Logic.Relation

/-!
# Who waits for whom

A thread waits in two places: at a lock of `m_mutex` that a call is holding, and in `finish` at the
`join` of the server thread. A callback, and the call of `deleteClient` in `serverTask`, are on the server
thread, so what they hold and wait for, the server thread holds and waits for.

* `Waits` — one thread waits for another.
* `Waits.blocked` and `moves_or_waits` — a thread that waits cannot move, and a thread that has something
  to do and cannot move waits.
* `never_deadlocks` — there is no cycle of waits in any interleaving.
-/

namespace SocketsCpp.TcpServer

open SocketsCpp.Library

/-! ### Threads -/

/-- A thread. -/
inductive Thread where
  /-- The server thread. -/
  | server
  /-- A thread of the application. -/
  | app (n : ℕ)
  deriving DecidableEq

/-- The thread that a caller is on. -/
def threadOf : Caller → Thread
  | .serverTask | .callback => .server
  | .app n => .app n

/-- The thread that takes a step. -/
def Action.thread : Action → Thread
  | .call w _ | .step w _ _ => threadOf w
  | _ => .server

/-- A call is at a lock of `m_mutex`. -/
def CallPc.atLock : CallPc → Bool
  | .deleteClient _ | .sendBcast _ | .sendClientMessage _ _ | .getClientInfo _ _ | .finishLock => true
  | _ => false

/-- `serverTask` is at a lock of `m_mutex`. -/
def Pc.atLock : Pc → Bool
  | .lookup _ | .emplace _ _ _ => true
  | _ => false

/-- A thread holds `m_mutex`. -/
def Holds (s : State) (t : Thread) : Prop := ∃ w sec, s.mutex = some (w, sec) ∧ threadOf w = t

/-- A thread is at a lock of `m_mutex`. -/
def AtLock (s : State) (t : Thread) : Prop :=
  (∃ w, threadOf w = t ∧ (s.calls w).atLock = true) ∨ (t = .server ∧ s.pc.atLock = true)

/-- One thread waits for another. -/
inductive Waits (s : State) : Thread → Thread → Prop where
  /-- At a lock of `m_mutex`. -/
  | lock {t u : Thread} : AtLock s t → Holds s u → Waits s t u
  /-- At the `join` of the server thread. -/
  | join {n : ℕ} : s.calls (.app n) = .finishJoin → s.thread = true → s.pc ≠ .returned →
      Waits s (.app n) .server

/-- A thread has something to do. -/
def Busy (s : State) : Thread → Prop
  | .server => ¬ s.pc.stopped
  | .app n => s.calls (.app n) ≠ .idle

/-- A thread can take a step. -/
def Moves (s : State) (t : Thread) : Prop := ∃ a s', a.thread = t ∧ machine.step s a = some s'

/-! ### Waiting is what stops a thread -/

section

variable {s s' : State} {t u : Thread} {w : Caller}

theorem Step.calls_ne_idle {a : Answer} {order : List ClientHandle} (h : Step s (.step w a order) s') :
    s.calls w ≠ .idle := by
  cases h <;> simp_all

/-- A call that is at a lock goes on only when the mutex is free. -/
theorem Step.mutex_of_atLock {a : Answer} {order : List ClientHandle} (h : Step s (.step w a order) s')
    (hw : (s.calls w).atLock = true) : s.mutex = none := by
  cases h with
  | deleteFound _ hm | deleteNone _ hm | bcastLock _ hm | sendFound _ hm | sendNone _ hm
  | infoFound _ hm | infoNone _ hm | finishLock _ hm => exact hm
  | _ => simp_all [CallPc.atLock]

theorem threadOf_eq_app {n : ℕ} (h : threadOf w = .app n) : w = .app n := by
  cases w <;> simp_all [threadOf]

/-- While a call is made on the server thread, `serverTask` is in a callback or in `deleteClient`. -/
theorem Orderly.hosts (ho : Orderly s) (ht : threadOf w = .server) (hw : s.calls w ≠ .idle) :
    (∃ r cb, s.pc = .callback r cb ∧ w = .callback) ∨ ∃ r, s.pc = .deleting r ∧ w = .serverTask := by
  cases w with
  | serverTask =>
    obtain ⟨r, hp⟩ := ho.placed.task hw
    exact .inr ⟨r, hp, rfl⟩
  | callback =>
    obtain ⟨r, cb, hp⟩ := ho.placed.callback hw
    exact .inl ⟨r, cb, hp, rfl⟩
  | app n => cases ht

/-- Only one call is made on a thread. -/
theorem Orderly.call_unique {w' : Caller} (ho : Orderly s) (ht : threadOf w' = threadOf w)
    (hw : s.calls w ≠ .idle) (hw' : s.calls w' ≠ .idle) : w' = w := by
  cases hs : threadOf w with
  | app n => exact (threadOf_eq_app (ht.trans hs)).trans (threadOf_eq_app hs).symm
  | server =>
    rcases ho.hosts hs hw with ⟨r, cb, hp, rfl⟩ | ⟨r, hp, rfl⟩ <;>
      rcases ho.hosts (ht.trans hs) hw' with ⟨r', cb', hp', rfl⟩ | ⟨r', hp', rfl⟩ <;> simp_all

/-- While a call is made on a thread, only that call goes on there. -/
theorem Step.step_of_thread {a : Action} (h : Step s a s') (ho : Orderly s) (hw : s.calls w ≠ .idle)
    (ha : a.thread = threadOf w) : ∃ ans order, a = .step w ans order := by
  cases a with
  | step w' ans order =>
    obtain rfl := ho.call_unique ha hw h.calls_ne_idle
    exact ⟨ans, order, rfl⟩
  | call w' c =>
    cases h with
    | callApp hc => exact absurd (threadOf_eq_app ha.symm ▸ hc) hw
    | callCallback hp hc =>
      rcases ho.hosts ha.symm hw with ⟨r, cb, -, rfl⟩ | ⟨r, hp', -⟩
      · exact absurd hc hw
      · simp_all
  | _ =>
    rcases ho.hosts ha.symm hw with ⟨r, cb, hp, rfl⟩ | ⟨r, hp, rfl⟩ <;> cases h <;> simp_all

/-- `serverTask` is at no lock while a call is made on its thread. -/
theorem Orderly.idle_of_atLock (ho : Orderly s) (hp : s.pc.atLock = true) (ht : threadOf w = .server) :
    s.calls w = .idle := by
  by_contra hw
  rcases ho.hosts ht hw with ⟨r, cb, hpc, -⟩ | ⟨r, hpc, -⟩ <;> rw [hpc] at hp <;> cases hp

/-- `serverTask`, at a lock, goes on only when the mutex is free. -/
theorem Step.mutex_of_pc_atLock {a : Action} (h : Step s a s') (ho : Orderly s)
    (hp : s.pc.atLock = true) (ha : a.thread = .server) : s.mutex = none := by
  cases a with
  | step w ans order => exact absurd (ho.idle_of_atLock hp ha) h.calls_ne_idle
  | _ => cases h <;> simp_all [Pc.atLock, Action.thread, threadOf]

/-- **A thread that waits cannot move.** -/
theorem Waits.blocked (h : Waits s t u) (ho : Orderly s) : ¬ Moves s t := by
  rintro ⟨a, s', ha, hs⟩
  have hs := (Step.of_step hs).2
  cases h with
  | lock hl hu =>
    obtain ⟨w', sec, hm, -⟩ := hu
    have hfree : s.mutex = none := by
      rcases hl with ⟨w, rfl, hw⟩ | ⟨rfl, hp⟩
      · obtain ⟨ans, order, rfl⟩ := hs.step_of_thread ho (by intro hc; rw [hc] at hw; cases hw) ha
        exact hs.mutex_of_atLock hw
      · exact hs.mutex_of_pc_atLock ho hp ha
    rw [hm] at hfree
    cases hfree
  | @join n hc ht hp =>
    obtain ⟨ans, order, rfl⟩ := hs.step_of_thread (w := .app n) ho (by simp [hc]) ha
    cases hs <;> simp_all

/-! ### What stops a thread is waiting -/

/-- The clients that `sendBcast` has yet to send to are in the table. -/
def Sending (s : State) : Prop :=
  ∀ w msg rest, s.mutex = some (w, .bcast msg rest) → ∀ h ∈ rest, h ∈ s.clients

theorem Step.sending {a : Action} (h : Step s a s') (ho : Orderly s) (hi : Sending s) : Sending s' := by
  have hns := ho.noStart
  cases h with
  | startNext hc | startFails hc | startWatch hc | startThread hc | startAborts hc =>
    exact absurd hc (hns _ _)
  | disconnectEof | disconnectError => simpa [Sending] using hi
  | emplace _ hm => intro w msg rest hm'; simp [hm] at hm'
  | bcastLock _ _ hperm =>
    rintro w' msg' rest ⟨⟩ h hh
    exact AList.mem_keys.mpr (hperm.mem_iff.mp hh)
  | bcastSend _ hm =>
    rintro w' msg' rest ⟨⟩ h hh
    exact hi _ _ _ hm h (List.mem_cons_of_mem _ hh)
  | deleteFound | deleteClose | deleteClr | deleteErase | bcastEnd | bcastFails | finishLock | finishClose
  | finishEnd => simp [Sending]
  | _ => exact hi

theorem Moves.of_call (hab : s.aborted = false) (a : Answer) (order : List ClientHandle)
    (h : (callStep s w a order).isSome = true) : Moves s (threadOf w) := by
  obtain ⟨s', hs⟩ := Option.isSome_iff_exists.mp h
  exact ⟨.step w a order, s', rfl, by simp [machine, step, hab, hs]⟩

theorem Moves.of_server (hab : s.aborted = false) (a : Action) (h : (serverStep s a).isSome = true) :
    Moves s .server := by
  obtain ⟨s', hs⟩ := Option.isSome_iff_exists.mp h
  suffices ha : a.thread = .server ∧ machine.step s a = serverStep s a from ⟨a, s', ha.1, ha.2.trans hs⟩
  cases a with
  | call w c => cases hp : s.pc <;> simp [serverStep, hp] at hs
  | step w ans order => cases hp : s.pc <;> simp [serverStep, hp] at hs
  | _ => exact ⟨rfl, if_neg (by simp [hab])⟩

/-- A call that is inside a critical section goes on. -/
theorem section_moves {sec : Section} (hi : Owned s) (hs : Sending s)
    (hm : s.mutex = some (w, sec)) : (sectionStep s w sec {}).isSome = true := by
  cases sec with
  | bcast msg rest =>
    cases rest with
    | nil => rfl
    | cons h rest =>
      obtain ⟨cl, hl⟩ := lookup_eq_some_of_mem (hs w msg _ hm h List.mem_cons_self)
      simp only [sectionStep, hl]
      split <;> rfl
  | finishClose rest =>
    cases rest with
    | nil => rfl
    | cons h rest =>
      have hc := hi.reg.closable
      simp only [Registry.Closable, State.registry, hm, closingOf] at hc
      obtain ⟨cl, hl⟩ := lookup_eq_some_of_mem (Clients.entry_ne_none.mp (hc.2.2 h List.mem_cons_self))
      simp only [sectionStep, hl]
      rfl
  | _ => rfl

/-- A call goes on, or its thread waits. -/
theorem call_moves_or_waits (ho : Orderly s) (hi : Owned s) (hs : Sending s) (hab : s.aborted = false)
    (hw : s.calls w ≠ .idle) : Moves s (threadOf w) ∨ ∃ u, Waits s (threadOf w) u := by
  by_cases hl : (s.calls w).atLock = true
  · cases hm : s.mutex with
    | some x => exact .inr ⟨threadOf x.1, .lock (.inl ⟨w, rfl, hl⟩) ⟨x.1, x.2, hm, rfl⟩⟩
    | none =>
      refine .inl (.of_call hab {} s.clients.keys ?_)
      unfold callStep
      cases hc : s.calls w <;> simp_all [CallPc.atLock] <;> split <;> rfl
  · cases hc : s.calls w with
    | idle => exact absurd hc hw
    | start is => exact absurd hc (ho.noStart _ _)
    | send h cl msg => exact .inl (.of_call hab {} [] (by simp [callStep, hc]))
    | finish => exact .inl (.of_call hab {} [] (by simp [callStep, hc]))
    | finishJoin =>
      obtain ⟨n, rfl⟩ := ho.shutdown.app w (.inr (.inl hc))
      cases ht : s.thread with
      | false => exact .inl (.of_call hab {} [] (by simp [callStep, hc, ht]))
      | true =>
        by_cases hp : s.pc = .returned
        · exact .inl (.of_call hab {} [] (by simp [callStep, hc, ht, hp]))
        · exact .inr ⟨.server, .join hc ht hp⟩
    | locked =>
      obtain ⟨sec, hm⟩ := (ho.discipline w).mp hc
      exact .inl (.of_call hab {} [] (by simp [callStep, hc, hm, section_moves hi hs hm]))
    | _ => simp [hc, CallPc.atLock] at hl

/-- **A thread that has something to do moves or waits.** -/
theorem moves_or_waits (ho : Orderly s) (hi : Owned s) (hs : Sending s) (hab : s.aborted = false)
    (hb : Busy s t) : Moves s t ∨ ∃ u, Waits s t u := by
  cases t with
  | app n => exact call_moves_or_waits (w := .app n) ho hi hs hab hb
  | server =>
    have hlock : s.pc.atLock = true → s.mutex ≠ none → ∃ u, Waits s .server u := by
      intro hp hm
      obtain ⟨x, hm⟩ := Option.ne_none_iff_exists'.mp hm
      exact ⟨threadOf x.1, .lock (.inr ⟨rfl, hp⟩) ⟨x.1, x.2, hm, rfl⟩⟩
    cases hp : s.pc with
    | none => exact absurd (.inl hp) hb
    | returned => exact absurd (.inr hp) hb
    | loopHead => exact .inl (.of_server hab .testStop (by simp [serverStep, hp]))
    | copyFds => exact .inl (.of_server hab .copyFds (by simp [serverStep, hp]))
    | findMaxFd => exact .inl (.of_server hab .findMaxFd (by simp [serverStep, hp]))
    | select => exact .inl (.of_server hab .select (by simp [serverStep, hp]))
    | waiting => exact .inl (.of_server hab (.selectReturns 0 FD_ZERO) (by simp [serverStep, hp]))
    | forHead => exact .inl (.of_server hab .forStep (by simp only [serverStep, hp]; split <;> rfl))
    | recv => exact .inl (.of_server hab (.recv none) (by simp [serverStep, hp, numOfBytesReceived]))
    | disconnected => exact .inl (.of_server hab .disconnect (by simp only [serverStep, hp]; split <;> rfl))
    | publish => exact .inl (.of_server hab .publish (by simp [serverStep, hp]))
    | accept => exact .inl (.of_server hab (.accept none) (by simp [serverStep, hp]))
    | fdSet => exact .inl (.of_server hab .fdSet (by simp [serverStep, hp]))
    | lookup r =>
      by_cases hm : s.mutex = none
      · refine .inl (.of_server hab .lookup ?_)
        simp only [serverStep, hp, hm, Option.isSome_none, Bool.false_eq_true, if_false]
        split <;> rfl
      · exact .inr (hlock (by rw [hp]; rfl) hm)
    | emplace =>
      by_cases hm : s.mutex = none
      · exact .inl (.of_server hab .emplace (by simp [serverStep, hp, hm]))
      · exact .inr (hlock (by rw [hp]; rfl) hm)
    | deleting =>
      by_cases hc : s.calls .serverTask = .idle
      · exact .inl (.of_server hab .deleteReturns (by simp [serverStep, hp, hc, CallPc.isIdle]))
      · exact call_moves_or_waits ho hi hs hab hc
    | callback =>
      by_cases hc : s.calls .callback = .idle
      · exact .inl (.of_server hab .callbackReturns (by simp [serverStep, hp, hc, CallPc.isIdle]))
      · exact call_moves_or_waits ho hi hs hab hc

/-! ### Cycles -/

/-- Whoever holds the mutex waits for nobody. -/
theorem Holds.not_waits (hh : Holds s t) (ho : Orderly s) : ¬ Waits s t u := by
  obtain ⟨w, sec, hm, hwt⟩ := hh
  have hlocked : s.calls w = .locked := (ho.discipline w).mpr ⟨sec, hm⟩
  have hw : s.calls w ≠ .idle := by simp [hlocked]
  have hall : ∀ w', threadOf w' = t → s.calls w' ≠ .idle → s.calls w' = .locked :=
    fun w' ht hw' => ho.call_unique (ht.trans hwt.symm) hw hw' ▸ hlocked
  intro hwait
  cases hwait with
  | lock hl =>
    rcases hl with ⟨w', ht, hw'⟩ | ⟨ht, hp⟩
    · rw [hall w' ht (by intro hc; simp [hc, CallPc.atLock] at hw')] at hw'
      cases hw'
    · exact hw (ho.idle_of_atLock hp (hwt.trans ht))
  | @join n hc =>
    have hn := hall (.app n) rfl (by simp [hc])
    rw [hc] at hn
    cases hn

/-- How far a thread is from one that waits for nobody. -/
noncomputable def rank (s : State) (t : Thread) : ℕ :=
  open Classical in if Holds s t then 0 else if t = .server then 1 else 2

theorem Waits.rank_lt (h : Waits s t u) (ho : Orderly s) : rank s u < rank s t := by
  have ht : ¬ Holds s t := fun hh => hh.not_waits ho h
  unfold rank
  rw [if_neg ht]
  cases h with
  | lock _ hu =>
    rw [if_pos hu]
    split <;> omega
  | join => split <;> simp

/-- **There is no cycle of waits.** -/
theorem no_cycle (ho : Orderly s) (t : Thread) : ¬ Relation.TransGen (Waits s) t t := by
  have hlt : ∀ {t u}, Relation.TransGen (Waits s) t u → rank s u < rank s t := by
    intro t u h
    induction h with
    | single h => exact h.rank_lt ho
    | tail _ h ih => exact (h.rank_lt ho).trans ih
  exact fun h => Nat.lt_irrefl _ (hlt h)

end

/-! ### No deadlock -/

/-- Nobody waits in vain. -/
structure DeadlockFree (s : State) : Prop where
  /-- A thread at a lock of the mutex does not hold it. -/
  lock : ∀ t, AtLock s t → ¬ Holds s t
  /-- There is no cycle of waits. -/
  cycle : ∀ t, ¬ Relation.TransGen (Waits s) t t
  /-- A callback begins with the mutex not held by the server thread. -/
  callback : ∀ r cb, s.pc = .publish r cb → ¬ Holds s .server
  /-- `finish` does not hold the mutex at `join`. -/
  join : ∀ w, s.calls w = .finishJoin → ¬ Holds s (threadOf w)
  /-- A thread that has something to do moves or waits. -/
  moves : ∀ t, Busy s t → Moves s t ∨ ∃ u, Waits s t u

/-- **Re-entrant use never deadlocks**, in any interleaving. -/
theorem never_deadlocks {s₀ s : State} (h₀ : Started s₀) (h : machine.Reach Concurrent s₀ s) :
    DeadlockFree s := by
  have ha : Account s := h₀.initial.account.reach h
  have ho := ha.orderly
  have hab : s.aborted = false := h₀.reach_not_aborted (fun _ _ => Action.regular_of_concurrent) h
  have hs : Sending s := Machine.Reach.invariant_of (fun s hr => h₀.initial.account.reach hr)
    (by intro w msg rest hm; simp [h₀.initial.mutex] at hm)
    (fun s a s' hj hi _ hs => (Step.of_step hs).2.sending hj.orderly hi) h
  constructor
  · exact fun t hl hh => hh.not_waits ho (.lock hl hh)
  · exact no_cycle ho
  · rintro r cb hp ⟨w, sec, hm, ht⟩
    have hlocked : s.calls w = .locked := (ho.discipline w).mpr ⟨sec, hm⟩
    rcases ho.hosts ht (by simp [hlocked]) with ⟨r', cb', hp', -⟩ | ⟨r', hp', -⟩ <;>
      rw [hp] at hp' <;> cases hp'
  · rintro w hc ⟨w', sec, hm, ht⟩
    have hlocked : s.calls w' = .locked := (ho.discipline w').mpr ⟨sec, hm⟩
    have hww := ho.call_unique ht (by simp [hc]) (by simp [hlocked])
    rw [hww, hc] at hlocked
    cases hlocked
  · exact fun t hb => moves_or_waits ho ha.owned hs hab hb

/-- A callback calls `deleteClient` while the application broadcasts and shuts the server down: the
server thread waits, and is waited for. -/
theorem never_deadlocks_in_callback : ∃ s, machine.Reach Concurrent started s ∧
    (∃ u, Waits s .server u) ∧ DeadlockFree s := by
  obtain ⟨s, hr, hl, hm⟩ : ∃ s, machine.Reach Concurrent started s ∧
      (s.calls .callback).atLock = true ∧ s.mutex.isSome = true :=
    Machine.exists_reach (selectActions [0] ++
      [.forStep, .lookup, .accept (some (1, {})), .emplace, .fdSet, .publish,
       .call (.app 1) (.sendBcast [7]), .step (.app 1) {} [1], .call .callback (.deleteClient 1),
       .call (.app 0) .finish, go (.app 0)]) (by decide)
  obtain ⟨x, hm⟩ := Option.isSome_iff_exists.mp hm
  exact ⟨s, hr, ⟨threadOf x.1, .lock (.inl ⟨.callback, rfl, hl⟩) ⟨x.1, x.2, hm, rfl⟩⟩,
    never_deadlocks started_started hr⟩

end SocketsCpp.TcpServer
