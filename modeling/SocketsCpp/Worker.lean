import SocketsCpp.Setup

/-!
# The thread of an object

What the three classes have in common as to their thread, and no more: the flag `m_stop`,
whether `m_thread` is joinable, and whether the thread is running (`Worker`). A method that
sets the socket up creates the thread, `finish` and the end of a connection set the flag, the
thread returns when it finds the flag set, and `finish` joins it. `Worker.Move` lists these
moves, and every step of a class is one of them.

## What is proved

* `Worker.Move.ok` — what the flag, the thread and the history of the object have to do with
  each other: the flag is set exactly if it was set at some time (nothing clears it), and the
  thread is joinable exactly if a thread was created that was not joined since.
-/

namespace SocketsCpp

open SocketsCpp.Library

/-! ### Histories -/

/-- The flag `m_stop` is set. -/
def Event.stops : Event → Bool
  | .finishBegin _ | .connectionEnd => true
  | _ => false

/-- A method that sets the socket up returns. -/
def Event.reports : Event → Bool
  | .start _ => true
  | _ => false

/-- The thread is created, or joined. -/
def Event.threads : Event → Bool
  | .start ret => ret = .ok
  | .joined => true
  | _ => false

/-- An event that has nothing to do with the thread. -/
def Event.inert (e : Event) : Bool := !e.stops && !e.threads

theorem Event.inert_of_setup {e : Event} (h : e.setup = true) : e.inert = true := by
  cases e <;> first | rfl | cases h

theorem Event.inert_fail (msg : String) : (Event.start (.fail msg)).inert = true := by
  simp [Event.inert, Event.stops, Event.threads, SocketRet.fail, SocketRet.ok]

/-- What a guarded call of `Close` logs. -/
theorem Os.closeValid_grows {p : Event → Bool} (h : ∀ d c, p (.close d c) = true) {os : Os}
    {d : SOCKET} : Grows p os.log (os.closeValid d).log :=
  Os.closeValid_log (P := Grows p os.log) .refl fun _ => .one (h _ _)

/-- The last call that set the socket up succeeded, and since then `finish` was not called and
no end of the connection was found. -/
def StartedLast (log : List Event) : Prop :=
  lastOf (fun e => e.reports || e.stops) log = some (.start .ok)

/-- `finish` was never called, and no end of a connection was ever found. -/
def NeverStopped (log : List Event) : Prop := ∀ e ∈ log, e.stops = false

/-- A thread was created, and it was not joined since. -/
def Outstanding (log : List Event) : Prop := lastOf Event.threads log = some (.start .ok)

instance (log : List Event) : Decidable (StartedLast log) := inferInstanceAs (Decidable (_ = _))

instance (log : List Event) : Decidable (NeverStopped log) :=
  inferInstanceAs (Decidable (∀ _ ∈ _, _))

instance (log : List Event) : Decidable (Outstanding log) := inferInstanceAs (Decidable (_ = _))

theorem StartedLast.mem {log : List Event} (h : StartedLast log) : .start .ok ∈ log :=
  (mem_of_lastOf h).1

/-! ### The moves -/

/-- Whether the thread is running. -/
inductive Task where
  /-- There is no thread yet. -/
  | none
  /-- In the loop. -/
  | running
  /-- The thread has returned. -/
  | returned
  deriving DecidableEq

/-- An object, as far as its thread is concerned. -/
structure Worker where
  /-- `m_stop`. -/
  stop : Bool
  /-- Whether `m_thread` is joinable. -/
  thread : Bool
  /-- Whether the thread is running. -/
  task : Task
  /-- The history of the object. -/
  log : List Event

namespace Worker

/-- What can happen to an object, as far as its thread is concerned. -/
inductive Move (x y : Worker) : Prop where
  /-- Nothing. -/
  | goesOn : y.stop = x.stop → y.thread = x.thread → y.task = x.task →
      Grows Event.inert x.log y.log → Move x y
  /-- The thread is created. -/
  | creates : x.thread = false → y.stop = x.stop → y.thread = true → y.task = .running →
      y.log = x.log ++ [.start .ok] → Move x y
  /-- The flag is set. -/
  | stops {e : Event} : e.stops = true → y.stop = true → y.thread = x.thread → y.task = x.task →
      y.log = x.log ++ [e] → Move x y
  /-- The thread finds the flag set, and returns. -/
  | returns : x.stop = true → y.stop = x.stop → y.thread = x.thread → y.task = .returned →
      y.log = x.log → Move x y
  /-- The thread, having returned, is joined. -/
  | joins : x.task = .returned → y.stop = x.stop → y.thread = false → y.task = x.task →
      y.log = x.log ++ [.joined] → Move x y

/-- The thread and the history agree. -/
structure Ok (x : Worker) : Prop where
  /-- The flag is set exactly if it was set at some time. -/
  stop : x.stop = true ↔ ∃ e ∈ x.log, e.stops = true
  /-- The thread is joinable exactly if one was created and not joined since. -/
  thread : x.thread = true ↔ Outstanding x.log
  /-- After a call that succeeded there is a thread. -/
  created : .start .ok ∈ x.log → x.task ≠ .none
  /-- A thread returns only when the flag is set. -/
  returned : x.task = .returned → x.stop = true

theorem Ok.init : Ok ⟨false, false, .none, []⟩ where
  stop := by simp
  thread := by simp [Outstanding]
  created h := by simp at h
  returned h := by cases h

theorem threads_of_stops {e : Event} (h : e.stops = true) : e.threads = false := by
  cases e <;> first | rfl | cases h

/-- **Every move keeps the thread and the history in agreement.** -/
theorem Move.ok {x y : Worker} (h : Move x y) (hx : Ok x) : Ok y := by
  cases h with
  | goesOn hstop hthread htask hlog =>
    have hs : ∀ e : Event, e.inert = true → e.stops = false := by simp +contextual [Event.inert]
    have ht : ∀ e : Event, e.inert = true → e.threads = false := by simp +contextual [Event.inert]
    refine ⟨?_, ?_, fun hm => ?_, ?_⟩
    · rw [hstop, hlog.exists_iff hs]; exact hx.stop
    · rw [hthread, Outstanding, hlog.lastOf_eq ht]; exact hx.thread
    · rw [htask]
      exact hx.created ((hlog.mem hm).resolve_right (by decide))
    · rw [hstop, htask]; exact hx.returned
  | creates _ hstop hthread htask hlog =>
    refine ⟨?_, ?_, fun _ => ?_, fun hr => ?_⟩
    · simp [hstop, hlog, hx.stop, Event.stops]
    · simp [hthread, hlog, Outstanding, Event.threads]
    · simp [htask]
    · simp [htask] at hr
  | @stops e he hstop hthread htask hlog =>
    have hne : Event.start .ok ≠ e := by rintro rfl; cases he
    refine ⟨?_, ?_, fun hm => ?_, fun _ => hstop⟩
    · simpa [hstop, hlog] using .inr he
    · simp [hthread, hlog, Outstanding, threads_of_stops he]
      exact hx.thread
    · rw [htask]
      exact hx.created (by simpa [hlog, hne] using hm)
  | returns hs hstop hthread htask hlog =>
    refine ⟨?_, ?_, fun _ => ?_, fun _ => hstop.trans hs⟩
    · rw [hstop, hlog]; exact hx.stop
    · rw [hthread, hlog]; exact hx.thread
    · simp [htask]
  | joins hret hstop hthread htask hlog =>
    refine ⟨?_, ?_, fun _ => ?_, ?_⟩
    · simp [hstop, hlog, hx.stop, Event.stops]
    · simp [hthread, hlog, Outstanding, Event.threads]
    · simp [htask, hret]
    · rw [hstop, htask]; exact hx.returned

/-- The flag is not set exactly if it never was. -/
theorem Ok.stop_eq_false_iff {x : Worker} (hx : Ok x) : x.stop = false ↔ NeverStopped x.log := by
  rw [← Bool.not_eq_true, hx.stop, NeverStopped]
  simp only [not_exists, not_and, Bool.not_eq_true]

/-- The thread is not joinable exactly if every thread created was joined. -/
theorem Ok.thread_eq_false_iff {x : Worker} (hx : Ok x) : x.thread = false ↔ ¬ Outstanding x.log := by
  rw [← Bool.not_eq_true, hx.thread]

/-- A thread that was created, in an object that was never stopped, is running. -/
theorem Ok.running {x : Worker} (hx : Ok x) (hc : .start .ok ∈ x.log) (hs : x.stop = false) :
    x.task = .running := by
  cases ht : x.task with
  | none => exact absurd ht (hx.created hc)
  | running => rfl
  | returned => rw [hx.returned ht] at hs; cases hs

end Worker

end SocketsCpp
