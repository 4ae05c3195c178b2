import SocketsCpp.Library.Log
import SocketsCpp.Library.Script
import SocketsCpp.Receiver.Step
import SocketsCpp.TcpServer.Step

/-!
# A call that sets a socket up

What one call of `TcpServer::start`, `TcpClient::connectTo`, `UdpSocket::startUnicast` or
`UdpSocket::startMcast` does, nobody else acting in the meantime: the instructions of the method are a
script, and the machines perform it step by step.

* `Instr.perform` — what an instruction does, the return that may follow it included.
* `startup` — what a call does, given the answers of the system; `startup_of_passes` and
  `startup_of_not_passes` look at one of the instructions, and `startup_of_ok` at a call that succeeds.
* `Receiver.run_startup` and `TcpServer.run_startup` — the machines do that.
-/

namespace SocketsCpp

open SocketsCpp.Library

/-- What an instruction does to the members and to the system; if the method returns there, that is logged.
Over a joinable thread the process is aborted. -/
def Instr.perform (i : Instr) (a : Answer) (x : Endpoint × Os) : Endpoint × Os :=
  match i.op with
  | .watch => (x.1, x.2.record (.fdSet x.1.sockfd))
  | .thread => if x.1.thread then x else ({ x.1 with thread := true }, x.2.record (.start .ok))
  | op =>
    let y := op.exec a x.1 x.2
    if i.fails a then (y.1, y.2.record (.start (.fail (i.msg a)))) else y

/-- What the instructions `is` of a method do, the system giving the answers `as`. -/
def startup (is : List Instr) (as : List Answer) (x : Endpoint × Os) : Endpoint × Os :=
  Script.result Instr.perform (Script.performed Instr.fails is as) x

/-- The thread is created at the end and nowhere else, and setting up the descriptor set does not fail. -/
def Proper (is : List Instr) : Prop :=
  Tails (fun i rest => (i.op = .thread ↔ rest = []) ∧ (i.op = .watch → ∀ a, i.fails a = false)) is

section

variable {i : Instr} {a : Answer} {x : Endpoint × Os}

theorem Instr.perform_watch (h : i.op = .watch) : i.perform a x = (x.1, x.2.record (.fdSet x.1.sockfd)) := by
  simp [perform, h]

theorem Instr.perform_thread (h : i.op = .thread) : i.perform a x =
    if x.1.thread then x else ({ x.1 with thread := true }, x.2.record (.start .ok)) := by
  simp [perform, h]

theorem Instr.perform_of_passes (hw : i.op ≠ .watch) (ht : i.op ≠ .thread) (hf : i.fails a = false) :
    i.perform a x = i.op.exec a x.1 x.2 := by
  unfold perform
  split
  · next h => exact absurd h hw
  · next h => exact absurd h ht
  · simp [hf]

theorem Instr.perform_of_fails (hw : i.op ≠ .watch) (ht : i.op ≠ .thread) (hf : i.fails a = true) :
    i.perform a x = ((i.op.exec a x.1 x.2).1, (i.op.exec a x.1 x.2).2.record (.start (.fail (i.msg a)))) := by
  unfold perform
  split
  · next h => exact absurd h hw
  · next h => exact absurd h ht
  · simp [hf]

/-- What an instruction logs is what its operation logs, and the return. -/
theorem Instr.perform_grows {q : Event → Bool} (hop : Grows q x.2.log (i.op.exec a x.1 x.2).2.log)
    (hset : ∀ d, q (.fdSet d) = true) (hfail : ∀ msg, q (.start (.fail msg)) = true)
    (hok : i.op = .thread → q (.start .ok) = true) : Grows q x.2.log (i.perform a x).2.log := by
  by_cases hw : i.op = .watch
  · rw [perform_watch hw]
    exact .one (hset _)
  · by_cases ht : i.op = .thread
    · rw [perform_thread ht]
      split
      · exact .refl
      · exact .one (hok ht)
    · cases hf : i.fails a with
      | true =>
        rw [perform_of_fails hw ht hf]
        exact .append hop (hfail _)
      | false =>
        rw [perform_of_passes hw ht hf]
        exact hop

/-- After its operation an instruction may return. -/
theorem Instr.exec_grows_perform {q : Event → Bool} (hw : i.op ≠ .watch) (ht : i.op ≠ .thread)
    (hfail : ∀ msg, q (.start (.fail msg)) = true) :
    Grows q (i.op.exec a x.1 x.2).2.log (i.perform a x).2.log := by
  cases hf : i.fails a with
  | true =>
    rw [perform_of_fails hw ht hf]
    exact .one (hfail _)
  | false =>
    rw [perform_of_passes hw ht hf]
    exact .refl

end

/-- What each instruction logs is what they all log. -/
theorem result_grows {q : Event → Bool} (ps : List (Instr × Answer)) (x : Endpoint × Os)
    (h : ∀ p ∈ ps, ∀ y : Endpoint × Os, Grows q y.2.log (p.1.perform p.2 y).2.log) :
    Grows q x.2.log (Script.result Instr.perform ps x).2.log :=
  Script.result_invariant (I := fun y : Endpoint × Os => Grows q x.2.log y.2.log)
    (fun p hp y hy => hy.trans (h p hp y)) .refl

section

variable {pre post : List Instr} {as : List Answer}

/-- A call that comes as far as the instruction `b`. -/
theorem startup_of_passes (h : Script.Passes Instr.fails pre as) : ∃ a as', ∀ (b : Instr) (post : List Instr)
    (x : Endpoint × Os), startup (pre ++ b :: post) as x =
      Script.result Instr.perform (if b.fails a then [] else Script.performed Instr.fails post as')
        (b.perform a (Script.result Instr.perform (pre.zip as) x)) := by
  have hlen : 0 < (as.drop pre.length).length := by
    rw [List.length_drop]
    exact Nat.sub_pos_of_lt h.1
  obtain ⟨a, as', has⟩ := List.exists_cons_of_ne_nil (List.ne_nil_of_length_pos hlen)
  refine ⟨a, as', fun b post x => ?_⟩
  rw [startup, Script.performed_of_passes h, has, Script.performed_cons, Script.result_append]
  rfl

/-- A call that does not come as far. -/
theorem startup_of_not_passes (h : ¬ Script.Passes Instr.fails pre as) (x : Endpoint × Os) :
    startup (pre ++ post) as x = startup pre as x := by
  rw [startup, Script.performed_of_not_passes h, startup]

end

/-! ### A call that succeeds -/

/-- Not the return of a call that succeeds. -/
def Event.unsuccessful : Event → Bool
  | .start ret => !ret.success
  | _ => true

theorem Instr.perform_unsuccessful {i : Instr} (h : i.op ≠ .thread) (a : Answer) (x : Endpoint × Os) :
    Grows Event.unsuccessful x.2.log (i.perform a x).2.log := by
  refine perform_grows ((Op.exec_log _ _ _ _).mono fun e he => ?_) (fun _ => rfl) (fun _ => rfl)
    fun ht => absurd ht h
  cases e <;> first | rfl | cases he

/-- **A call that reports success has performed all of its instructions**, and none of them has failed. -/
theorem startup_of_ok {is : List Instr} {as : List Answer} {x : Endpoint × Os} (h : Proper is)
    (hx : .start .ok ∉ x.2.log) (hok : .start .ok ∈ (startup is as x).2.log) :
    is.length ≤ as.length ∧ (∀ p ∈ is.zip as, p.1.op ≠ .thread → p.1.fails p.2 = false) ∧
      startup is as x = Script.result Instr.perform (is.zip as) x := by
  induction is generalizing as x with
  | nil => exact absurd hok hx
  | cons i is ih =>
    obtain ⟨⟨hthread, -⟩, hrest⟩ := h
    cases as with
    | nil => exact absurd hok hx
    | cons a as =>
      have hcons : startup (i :: is) (a :: as) x =
          if i.fails a then i.perform a x else startup is as (i.perform a x) := by
        unfold startup
        rw [Script.performed_cons]
        split <;> rfl
      by_cases ht : i.op = .thread
      · -- the last instruction
        obtain rfl := hthread.mp ht
        refine ⟨Nat.succ_le_succ (Nat.zero_le _), fun p hp hne => ?_, ?_⟩
        · obtain rfl : p = (i, a) := by simpa using hp
          exact absurd ht hne
        · rw [hcons]
          split <;> rfl
      · have hx' : .start .ok ∉ (i.perform a x).2.log := fun hm =>
          ((Instr.perform_unsuccessful ht a x).mem hm).elim hx (by simp [Event.unsuccessful, SocketRet.ok])
        rw [hcons] at hok ⊢
        cases hf : i.fails a with
        | true =>
          rw [if_pos hf] at hok
          exact absurd hok hx'
        | false =>
          simp only [hf, Bool.false_eq_true, if_false] at hok ⊢
          obtain ⟨hlen, hpass, heq⟩ := ih hrest hx' hok
          refine ⟨Nat.succ_le_succ hlen, fun p hp hne => ?_, heq⟩
          rcases List.mem_cons.mp hp with rfl | hp
          · exact hf
          · exact hpass p hp hne

/-! ### The machines -/

namespace Receiver

/-- The instructions of a method that sets the socket up. -/
theorem Call.begin_proper {c : Call} {is : List Instr} (h : c.begin = .start is) :
    is ≠ [] ∧ Proper is ∧ ∀ i ∈ is, i.op ≠ .watch := by
  cases c with
  | sendMsg | finish => cases h
  | _ =>
    cases h
    simp [Proper, Tails, TcpClient.connectScript, UdpSocket.startUnicastScript, UdpSocket.startMcastScript,
      UdpSocket.startUnicastLocalScript, UdpSocket.openScript, initializeInstr]

/-- The call that `w` makes has the instructions `is` left; if none, then it is over. -/
def Doing (w : Caller) (s : State) (is : List Instr) : Prop :=
  if is = [] then s.calls w = .idle ∨ s.aborted = true
  else s.calls w = .start is ∧ Proper is ∧ ∀ i ∈ is, i.op ≠ .watch

variable {k : Kind} {w : Caller} {s s' : State} {i : Instr} {is : List Instr} {a : Answer}

theorem Doing.stuck (h : Doing w s []) : (machine k).step s (.step w a) = none := by
  rcases h with h | h
  · simp [machine, Receiver.step, callStep, h]
  · simp [machine, Receiver.step, h]

theorem Doing.next (h : Doing w s (i :: is)) (hs : (machine k).step s (.step w a) = some s') :
    (s'.toEndpoint, s'.os) = i.perform a (s.toEndpoint, s.os) ∧
      Doing w s' (if i.fails a then [] else is) := by
  obtain ⟨hc, hproper, hwatch⟩ : s.calls w = .start (i :: is) ∧ Proper (i :: is) ∧
      ∀ j ∈ i :: is, j.op ≠ .watch := by simpa [Doing] using h
  have hw := hwatch i List.mem_cons_self
  cases (Step.of_step hs).2 with
  | startNext hc' ht ha hf =>
    rw [hc] at hc'
    cases hc'
    have hne : is ≠ [] := fun he => ht (hproper.1.1.mpr he)
    rw [Instr.perform_of_passes hw ht hf]
    refine ⟨rfl, ?_⟩
    simp only [hf, Bool.false_eq_true, if_false, Doing, hne, State.goto, Function.update_self, true_and]
    exact ⟨hproper.2, fun j hj => hwatch j (List.mem_cons_of_mem _ hj)⟩
  | startFails hc' ht ha hf =>
    rw [hc] at hc'
    cases hc'
    rw [Instr.perform_of_fails hw ht hf]
    exact ⟨rfl, by simp [hf, Doing]⟩
  | startThread hc' ht hth =>
    rw [hc] at hc'
    cases hc'
    obtain rfl : is = [] := hproper.1.1.mp ht
    rw [Instr.perform_thread ht]
    exact ⟨by simp [hth], by simp [Doing]⟩
  | startAborts hc' ht hth =>
    rw [hc] at hc'
    cases hc'
    obtain rfl : is = [] := hproper.1.1.mp ht
    rw [Instr.perform_thread ht]
    exact ⟨by simp [hth], by simp [Doing]⟩
  | sendMsg hc' | finish hc' | finishJoin hc' | finishNoThread hc' | finishSelf hc' | finishClose hc'
  | finishReset hc' =>
    rw [hc] at hc'
    cases hc'

/-- **A call performs its instructions.** -/
theorem run_startup {c : Call} {as : List Answer} (hb : c.begin = .start is)
    (hr : (machine k).run s (.call w c :: as.map (.step w)) = some s') :
    (s'.toEndpoint, s'.os) = startup is as (s.toEndpoint, s.os) := by
  obtain ⟨u, hu, hr⟩ := Option.bind_eq_some_iff.mp hr
  obtain ⟨hne, hproper⟩ := Call.begin_proper hb
  have hat : Doing w u is := by
    cases (Step.of_step hu).2
    simpa [Doing, hne, hb] using hproper
  have hview : (u.toEndpoint, u.os) = (s.toEndpoint, s.os) := by
    cases (Step.of_step hu).2
    rfl
  rw [← hview]
  exact Script.result_of_run (machine k) (.step w) (fun s => (s.toEndpoint, s.os)) (Doing w) Doing.stuck
    Doing.next hat hr

end Receiver

namespace TcpServer

theorem startScript_proper (port : UInt16) : startScript port ≠ [] ∧ Proper (startScript port) := by
  simp [Proper, Tails, startScript, initializeInstr]

/-- The call that `w` makes has the instructions `is` left; if none, then it is over. -/
def Doing (w : Caller) (s : State) (is : List Instr) : Prop :=
  if is = [] then s.calls w = .idle ∨ s.aborted = true else s.calls w = .start is ∧ Proper is

variable {w : Caller} {s s' : State} {i : Instr} {is : List Instr} {a : Answer}

theorem Doing.stuck (h : Doing w s []) : machine.step s (.step w a []) = none := by
  rcases h with h | h
  · simp [machine, TcpServer.step, callStep, h]
  · simp [machine, TcpServer.step, h]

theorem Doing.next (h : Doing w s (i :: is)) (hs : machine.step s (.step w a []) = some s') :
    (s'.toEndpoint, s'.os) = i.perform a (s.toEndpoint, s.os) ∧
      Doing w s' (if i.fails a then [] else is) := by
  obtain ⟨hc, hproper⟩ : s.calls w = .start (i :: is) ∧ Proper (i :: is) := by simpa [Doing] using h
  cases (Step.of_step hs).2 with
  | startNext hc' hw ht ha hf =>
    rw [hc] at hc'
    cases hc'
    have hne : is ≠ [] := fun he => ht (hproper.1.1.mpr he)
    rw [Instr.perform_of_passes hw ht hf]
    refine ⟨rfl, ?_⟩
    simp only [hf, Bool.false_eq_true, if_false, Doing, hne, State.goto, Function.update_self, true_and]
    exact hproper.2
  | startFails hc' hw ht ha hf =>
    rw [hc] at hc'
    cases hc'
    rw [Instr.perform_of_fails hw ht hf]
    exact ⟨rfl, by simp [hf, Doing]⟩
  | startWatch hc' hw =>
    rw [hc] at hc'
    cases hc'
    have hne : is ≠ [] := fun he => absurd (hw.symm.trans (hproper.1.1.mpr he)) (by simp)
    rw [Instr.perform_watch hw]
    refine ⟨rfl, ?_⟩
    simp only [hproper.1.2 hw a, Bool.false_eq_true, if_false, Doing, hne, State.goto, Function.update_self,
      true_and]
    exact hproper.2
  | startThread hc' ht hth =>
    rw [hc] at hc'
    cases hc'
    obtain rfl : is = [] := hproper.1.1.mp ht
    rw [Instr.perform_thread ht]
    exact ⟨by simp [hth], by simp [Doing]⟩
  | startAborts hc' ht hth =>
    rw [hc] at hc'
    cases hc'
    obtain rfl : is = [] := hproper.1.1.mp ht
    rw [Instr.perform_thread ht]
    exact ⟨by simp [hth], by simp [Doing]⟩
  | _ => simp_all

/-- **A call of `start` performs its instructions.** -/
theorem run_startup {port : UInt16} {as : List Answer}
    (hr : machine.run s (.call w (.start port) :: as.map fun a => .step w a []) = some s') :
    (s'.toEndpoint, s'.os) = startup (startScript port) as (s.toEndpoint, s.os) := by
  obtain ⟨u, hu, hr⟩ := Option.bind_eq_some_iff.mp hr
  obtain ⟨hne, hproper⟩ := startScript_proper port
  have hat : Doing w u (startScript port) := by
    cases (Step.of_step hu).2 <;> simpa [Doing, hne, Call.begin] using hproper
  have hview : (u.toEndpoint, u.os) = (s.toEndpoint, s.os) := by
    cases (Step.of_step hu).2 <;> rfl
  rw [← hview]
  exact Script.result_of_run machine (fun a => .step w a []) (fun s => (s.toEndpoint, s.os)) (Doing w)
    Doing.stuck Doing.next hat hr

end TcpServer

end SocketsCpp
