import SocketsCpp.TcpServer.Step

/-!
# Who is where

What the positions of the threads, the mutex and the server thread have to do with
each other, in any interleaving of runs in which `start` is not called again.

* `Placed` — a callback makes calls only while it runs, and the server thread makes
  only the call of `deleteClient` for a connection that ended.
* `Discipline` — a caller is inside a critical section exactly if the mutex says so.
* `Shutdown` — `finish`, not called on the server thread, gets past `join` only when
  the server thread has returned.
-/

namespace SocketsCpp.TcpServer

open SocketsCpp.Library

/-- The actions of runs in which `start` is not called, and `finish` is not called on the
server thread. -/
def Action.regular : Action → Bool
  | .call _ (.start _) => false
  | .call .callback .finish => false
  | _ => true

/-- `start` is not being executed. -/
def NoStart (calls : Caller → CallPc) : Prop := ∀ w is, calls w ≠ .start is

theorem NoStart.update {calls : Caller → CallPc} {w : Caller} {p : CallPc} (h : NoStart calls)
    (hp : ∀ is, p ≠ .start is) : NoStart (Function.update calls w p) :=
  (Function.forall_update_iff calls fun _ q => ∀ is, q ≠ .start is).mpr ⟨hp, fun w' _ => h w'⟩

theorem Call.begin_ne_start {w : Caller} {c : Call} (h : (Action.call w c).regular = true)
    (is : List Instr) : c.begin ≠ .start is := by
  cases c <;> simp_all [Call.begin, Action.regular]

theorem Step.noStart {s s' : State} {a : Action} (h : Step s a s') (ha : a.regular = true)
    (hi : NoStart s.calls) : NoStart s'.calls := by
  cases h with
  | callApp => exact hi.update (Call.begin_ne_start ha)
  | callCallback => exact hi.update (Call.begin_ne_start ha)
  | startNext hc | startFails hc | startWatch hc | startThread hc | startAborts hc =>
    exact absurd hc (hi _ _)
  | _ => first | exact hi | exact hi.update (by simp)

/-! ### The server thread -/

/-- A callback makes calls only while it runs, and the server thread only the call of
`deleteClient`. -/
structure Placed (pc : Pc) (calls : Caller → CallPc) : Prop where
  /-- A callback that makes a call is running. -/
  callback : calls .callback ≠ .idle → ∃ r cb, pc = .callback r cb
  /-- `serverTask` makes a call only to delete a client. -/
  task : calls .serverTask ≠ .idle → ∃ r, pc = .deleting r

namespace Placed

variable {pc pc' : Pc} {calls : Caller → CallPc} {w : Caller}

/-- A call that is being made goes on. -/
theorem update {p q : CallPc} (h : Placed pc calls) (hc : calls w = p) (hp : p ≠ .idle) :
    Placed pc (Function.update calls w q) := by
  constructor
  · intro hw
    by_cases hww : w = .callback
    · subst hww; exact h.callback (by rw [hc]; exact hp)
    · rw [Function.update_of_ne (Ne.symm hww)] at hw; exact h.callback hw
  · intro hw
    by_cases hww : w = .serverTask
    · subst hww; exact h.task (by rw [hc]; exact hp)
    · rw [Function.update_of_ne (Ne.symm hww)] at hw; exact h.task hw

/-- The server thread moves on, with no call being made on it. -/
theorem move (h : Placed pc calls) (hcb : ∀ r cb, pc ≠ .callback r cb) (ht : ∀ r, pc ≠ .deleting r) :
    Placed pc' calls where
  callback hw := by obtain ⟨r, cb, rfl⟩ := h.callback hw; exact absurd rfl (hcb r cb)
  task hw := by obtain ⟨r, rfl⟩ := h.task hw; exact absurd rfl (ht r)

theorem callback_idle (h : Placed pc calls) (hcb : ∀ r cb, pc ≠ .callback r cb) :
    calls .callback = .idle := by
  by_contra hw
  obtain ⟨r, cb, rfl⟩ := h.callback hw
  exact hcb r cb rfl

theorem task_idle (h : Placed pc calls) (ht : ∀ r, pc ≠ .deleting r) :
    calls .serverTask = .idle := by
  by_contra hw
  obtain ⟨r, rfl⟩ := h.task hw
  exact ht r rfl

end Placed

theorem Step.placed {s s' : State} {a : Action} (h : Step s a s') (hs : NoStart s.calls)
    (hi : Placed s.pc s.calls) : Placed s'.pc s'.calls := by
  cases h with
  | startNext hc | startFails hc | startWatch hc | startThread hc | startAborts hc =>
    exact absurd hc (hs _ _)
  | disconnectEof hp =>
    rw [hp] at hi
    refine ⟨fun hw => ?_, fun _ => ⟨_, rfl⟩⟩
    simp [hi.callback_idle (by simp)] at hw
  | deleteReturns hp hidle =>
    rw [hp] at hi
    exact ⟨fun hw => absurd (hi.callback_idle (by simp)) hw, fun hw => absurd hidle hw⟩
  | callbackReturns hp hidle =>
    rw [hp] at hi
    exact ⟨fun hw => absurd hidle hw, fun hw => absurd (hi.task_idle (by simp)) hw⟩
  | callApp =>
    exact ⟨fun hw => hi.callback (by simpa using hw), fun hw => hi.task (by simpa using hw)⟩
  | callCallback hp =>
    exact ⟨fun _ => ⟨_, _, hp⟩, fun hw => hi.task (by simpa using hw)⟩
  | deleteClose => exact hi
  | deleteClr => exact hi
  | bcastSend => exact hi
  | finishClose => exact hi
  | deleteFound hc | deleteNone hc | deleteErase hc | bcastLock hc | bcastEnd hc | bcastFails hc
  | sendFound hc | sendNone hc | send hc | infoFound hc | infoNone hc | finish hc | finishJoin hc
  | finishNoThread hc | finishSelf hc | finishLock hc | finishEnd hc =>
    exact hi.update hc (by simp)
  | _ => exact hi.move (by simp [*]) (by simp [*])

/-! ### The mutex -/

/-- A caller is inside a critical section exactly if the mutex says so. -/
def Discipline (mutex : Option (Caller × Section)) (calls : Caller → CallPc) : Prop :=
  ∀ w, calls w = .locked ↔ ∃ sec, mutex = some (w, sec)

namespace Discipline

variable {m : Option (Caller × Section)} {calls : Caller → CallPc} {w : Caller}

/-- The rule for the call of one caller. -/
theorem of_update {m' : Option (Caller × Section)} {p : CallPc}
    (hw : p = .locked ↔ ∃ sec, m' = some (w, sec))
    (h : ∀ w', w' ≠ w → (calls w' = .locked ↔ ∃ sec, m' = some (w', sec))) :
    Discipline m' (Function.update calls w p) :=
  (Function.forall_update_iff calls fun w' q => q = .locked ↔ ∃ sec, m' = some (w', sec)).mpr ⟨hw, h⟩

theorem update {p : CallPc} (h : Discipline m calls) (hw : calls w ≠ .locked) (hp : p ≠ .locked) :
    Discipline m (Function.update calls w p) :=
  .of_update (iff_of_false hp (mt (h w).mpr hw)) fun w' _ => h w'

theorem enter {sec : Section} (h : Discipline m calls) (hm : m = none) :
    Discipline (some (w, sec)) (Function.update calls w .locked) := by
  refine .of_update (by simp) fun w' hww => ?_
  rw [h w', hm]
  simp [Ne.symm hww]

theorem leave {sec : Section} {p : CallPc} (h : Discipline m calls) (hm : m = some (w, sec))
    (hp : p ≠ .locked) : Discipline none (Function.update calls w p) := by
  refine .of_update (by simp [hp]) fun w' hww => ?_
  rw [h w', hm]
  simp [Ne.symm hww]

theorem inside {sec sec' : Section} (h : Discipline m calls) (hm : m = some (w, sec)) :
    Discipline (some (w, sec')) calls := by
  subst hm
  intro w'
  rw [h w']
  simp

end Discipline

theorem Step.discipline {s s' : State} {a : Action} (h : Step s a s') (hs : NoStart s.calls)
    (hp : Placed s.pc s.calls) (hi : Discipline s.mutex s.calls) : Discipline s'.mutex s'.calls := by
  cases h with
  | startNext hc | startFails hc | startWatch hc | startThread hc | startAborts hc =>
    exact absurd hc (hs _ _)
  | disconnectEof hpc =>
    have hidle := hp.task_idle (by simp [hpc])
    exact hi.update (by simp [hidle]) (by simp)
  | callApp hc => exact hi.update (by simp [hc]) (by cases ‹Call› <;> simp [Call.begin])
  | callCallback _ hc => exact hi.update (by simp [hc]) (by cases ‹Call› <;> simp [Call.begin])
  | deleteFound _ hm | bcastLock _ hm | finishLock _ hm => exact hi.enter hm
  | deleteClose _ hm | deleteClr _ hm | bcastSend _ hm | finishClose _ hm => exact hi.inside hm
  | deleteErase _ hm | bcastEnd _ hm | bcastFails _ hm | finishEnd _ hm => exact hi.leave hm (by simp)
  | deleteNone hc | sendFound hc | sendNone hc | send hc | infoFound hc | infoNone hc | finish hc
  | finishJoin hc | finishNoThread hc | finishSelf hc =>
    exact hi.update (by simp [hc]) (by simp)
  | _ => exact hi

/-! ### Shutting down -/

/-- No server thread is running. -/
def Pc.stopped (pc : Pc) : Prop := pc = .none ∨ pc = .returned

/-- `finish`, not called on the server thread, gets past `join` only when the server
thread has returned. -/
structure Shutdown (pc : Pc) (thread : Bool) (mutex : Option (Caller × Section))
    (calls : Caller → CallPc) : Prop where
  /-- Only the application calls `finish`. -/
  app : ∀ w, calls w = .finish ∨ calls w = .finishJoin ∨ calls w = .finishLock → ∃ n, w = .app n
  /-- A call of `finish` that is past `join` finds the thread joined. -/
  lock : ∀ w, calls w = .finishLock → thread = false
  /-- A thread that was joined had returned. -/
  joined : thread = false → pc.stopped
  /-- `finish` closes the clients after the thread was joined. -/
  closing : ∀ w rest, mutex = some (w, .finishClose rest) → thread = false

namespace Shutdown

variable {pc pc' : Pc} {thread : Bool} {m m' : Option (Caller × Section)} {calls : Caller → CallPc}
  {w : Caller} {p : CallPc}

theorem running (h : Shutdown pc thread m calls) (hpc : ¬ pc.stopped) : thread = true := by
  by_contra ht
  exact hpc (h.joined (by simpa using ht))

/-- The server thread moves on. -/
theorem move (h : Shutdown pc thread m calls) (hpc : ¬ pc.stopped) : Shutdown pc' thread m calls :=
  ⟨h.app, h.lock, fun ht => absurd (h.joined ht) hpc, h.closing⟩

/-- A call goes on, not to `finish`. -/
theorem update (h : Shutdown pc thread m calls)
    (hp : p ≠ .finish ∧ p ≠ .finishJoin ∧ p ≠ .finishLock) :
    Shutdown pc thread m (Function.update calls w p) where
  app w' hw := by
    refine h.app w' (Caller.of_update
      (P := fun q : CallPc => q = .finish ∨ q = .finishJoin ∨ q = .finishLock) ?_ hw)
    simp [hp]
  lock w' hw := h.lock w' (Caller.of_update (P := fun q : CallPc => q = .finishLock) hp.2.2 hw)
  joined := h.joined
  closing := h.closing

/-- A call of `finish` goes on, past `join` only with the thread joined. -/
theorem finish {n : ℕ} (h : Shutdown pc thread m calls) (hp : p = .finishLock → thread = false) :
    Shutdown pc thread m (Function.update calls (.app n) p) := by
  refine ⟨fun w' hw => ?_, fun w' hw => ?_, h.joined, h.closing⟩
  · by_cases hww : w' = .app n
    · exact ⟨n, hww⟩
    · rw [Function.update_of_ne hww] at hw; exact h.app w' hw
  · by_cases hww : w' = .app n
    · subst hww; rw [Function.update_self] at hw; exact hp hw
    · rw [Function.update_of_ne hww] at hw; exact h.lock w' hw

/-- The mutex changes hands. -/
theorem mutex (h : Shutdown pc thread m calls)
    (hm : ∀ w rest, m' = some (w, .finishClose rest) → thread = false) :
    Shutdown pc thread m' calls :=
  ⟨h.app, h.lock, h.joined, hm⟩

end Shutdown

theorem Step.shutdown {s s' : State} {a : Action} (h : Step s a s') (ha : a.regular = true)
    (hs : NoStart s.calls) (hi : Shutdown s.pc s.thread s.mutex s.calls) :
    Shutdown s'.pc s'.thread s'.mutex s'.calls := by
  cases h with
  | startNext hc | startFails hc | startWatch hc | startThread hc | startAborts hc =>
    exact absurd hc (hs _ _)
  | disconnectEof hp => exact (hi.move (by simp [Pc.stopped, hp])).update (by simp)
  | @callApp n c hc =>
    by_cases hf : c = .finish
    · subst hf; exact hi.finish (by simp [Call.begin])
    · exact hi.update (by cases c <;> simp_all [Call.begin])
  | @callCallback r cb c hp hc =>
    have hf : c ≠ .finish := by rintro rfl; cases ha
    exact hi.update (by cases c <;> simp_all [Call.begin])
  | finish hc =>
    obtain ⟨n, rfl⟩ := hi.app _ (.inl hc)
    exact hi.finish (by simp)
  | finishJoin hc ht hp =>
    refine ⟨fun w hw => ?_, fun w _ => rfl, fun _ => .inr hp, fun w rest hm => rfl⟩
    by_cases hww : ∃ n, w = .app n
    · exact hww
    · rw [State.goto] at hw
      simp only [Function.update_of_ne (fun hw' => hww ⟨_, hw'⟩)] at hw
      exact hi.app w hw
  | finishNoThread hc ht =>
    obtain ⟨n, rfl⟩ := hi.app _ (.inr (.inl hc))
    exact hi.finish fun _ => ht
  | finishSelf hc ht hw =>
    obtain ⟨n, rfl⟩ := hi.app _ (.inr (.inl hc))
    exact absurd rfl (hw n)
  | finishLock hc => exact (hi.update (by simp)).mutex fun _ _ _ => hi.lock _ hc
  | finishClose hc hm => exact hi.mutex fun _ _ _ => hi.closing _ _ hm
  | deleteFound | bcastLock => exact (hi.update (by simp)).mutex (by simp)
  | deleteClose | deleteClr | bcastSend => exact hi.mutex (by simp)
  | deleteErase | bcastEnd | bcastFails | finishEnd => exact (hi.update (by simp)).mutex (by simp)
  | deleteNone | sendFound | sendNone | send | infoFound | infoNone => exact hi.update (by simp)
  | _ => exact hi.move (by simp [Pc.stopped, *])

/-! ### All together -/

/-- Everybody is where the code lets them be. -/
structure Orderly (s : State) : Prop where
  /-- `start` is not being executed. -/
  noStart : NoStart s.calls
  /-- The calls made on the server thread. -/
  placed : Placed s.pc s.calls
  /-- The mutex. -/
  discipline : Discipline s.mutex s.calls
  /-- The calls of `finish`. -/
  shutdown : Shutdown s.pc s.thread s.mutex s.calls

theorem Step.orderly {s s' : State} {a : Action} (h : Step s a s') (ha : a.regular = true)
    (hi : Orderly s) : Orderly s' :=
  ⟨h.noStart ha hi.noStart, h.placed hi.noStart hi.placed,
    h.discipline hi.noStart hi.placed hi.discipline, h.shutdown ha hi.noStart hi.shutdown⟩

end SocketsCpp.TcpServer
