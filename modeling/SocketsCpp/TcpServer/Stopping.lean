import SocketsCpp.Library.Ranking
import SocketsCpp.TcpServer.Failures
import SocketsCpp.TcpServer.Waits

/-!
# The server thread comes to its end

Once `m_stop` is set the server thread takes a bounded number of steps, whatever the callbacks and the
threads of the application do: it finishes the round that it is in, and no client that is accepted
meanwhile makes the round longer.

A thread at a system call moves when the call returns, and one in a callback when the callback does; nothing
is said about when that is. (`Recv` and `Accept` on a descriptor that `Select` did not report may block.)

* `State.rank` — a bound on the steps that `serverTask` still takes.
* `server_stops` — the bound, in every interleaving, with at most one more call of `Select`; and until it has
  returned, the server thread can move, or waits for the mutex, which a thread holds that can move.
-/

namespace SocketsCpp.TcpServer

open SocketsCpp.Library

/-! ### The rank -/

/-- A step of `serverTask`, the call of `deleteClient` included, but not what the callbacks do. -/
def Action.ofTask : Action → Bool
  | .call _ _ => false
  | .step w _ _ => w = .serverTask
  | _ => true

/-- The steps left in a round from its next descriptor on: at most eleven for each descriptor, one to find
the end of the round, and one to find `m_stop` set. -/
def Round.rank (r : Round) : ℕ := 2 + 11 * (r.maxfds - r.fd).toNat

/-- The steps left in the call of `deleteClient`. -/
def State.deleteRank (s : State) : ℕ :=
  match s.calls .serverTask, s.mutex with
  | .deleteClient _, _ => 4
  | .locked, some (_, .deleteClose _ _ _) => 3
  | .locked, some (_, .deleteClr _ _ _) => 2
  | .locked, some (_, .deleteErase _ _) => 1
  | _, _ => 0

/-- A bound on the steps that `serverTask` still takes, `m_stop` being set. -/
def State.rank (s : State) : ℕ :=
  match s.pc with
  | .none | .returned => 0
  | .loopHead => 1
  | .copyFds => 6 + 11 * (TcpServer.findMaxFd s.sockfd s.clients).toNat
  | .findMaxFd _ => 5 + 11 * (TcpServer.findMaxFd s.sockfd s.clients).toNat
  | .select _ maxfds => 4 + 11 * maxfds.toNat
  | .waiting _ maxfds _ => 3 + 11 * maxfds.toNat
  | .forHead r => r.rank
  | .lookup r => r.next.rank + 10
  | .recv r _ => r.next.rank + 9
  | .disconnected r _ _ => r.next.rank + 8
  | .deleting r => r.next.rank + 3 + s.deleteRank
  | .accept r => r.next.rank + 5
  | .emplace r _ _ => r.next.rank + 4
  | .fdSet r _ => r.next.rank + 3
  | .publish r _ => r.next.rank + 2
  | .callback r _ => r.next.rank + 1

theorem Round.rank_next {r : Round} (h : r.fd < r.maxfds) : r.rank = r.next.rank + 11 := by
  simp only [Round.rank, Round.next]
  omega

/-- `serverTask` calls `deleteClient` and nothing else. -/
structure Tasked (s : State) : Prop where
  /-- The call. -/
  call : s.calls .serverTask = .idle ∨ (∃ h, s.calls .serverTask = .deleteClient h) ∨
    s.calls .serverTask = .locked
  /-- The critical section. -/
  sec : ∀ sec, s.mutex = some (.serverTask, sec) → sec.deletes ≠ none

theorem Tasked.idle {s : State} (h : s.calls .serverTask = .idle) (hm : s.mutex = none) : Tasked s :=
  ⟨.inl h, by simp [hm]⟩

/-- A call moves on. -/
theorem Tasked.update {s s' : State} {w : Caller} {p : CallPc} (hi : Tasked s)
    (hc : s'.calls = Function.update s.calls w p)
    (hp : w = .serverTask → p = .idle ∨ (∃ h, p = .deleteClient h) ∨ p = .locked)
    (hm : s'.mutex = s.mutex ∨ s'.mutex = none ∨
      ∃ sec, s'.mutex = some (w, sec) ∧ (w = .serverTask → sec.deletes ≠ none)) : Tasked s' := by
  constructor
  · rw [hc]
    by_cases hw : w = .serverTask
    · subst hw
      simpa using hp rfl
    · rw [Function.update_of_ne (Ne.symm hw)]
      exact hi.call
  · intro sec hsec
    rcases hm with hm | hm | ⟨sec', hm, hd⟩
    · exact hi.sec sec (hm ▸ hsec)
    · rw [hm] at hsec
      cases hsec
    · rw [hm] at hsec
      cases hsec
      exact hd rfl

theorem Step.tasked {s s' : State} {a : Action} (h : Step s a s') (ho : Orderly s) (hi : Tasked s) :
    Tasked s' := by
  have hns := ho.noStart
  have hcall : ∀ {w : Caller} {p : CallPc}, s.calls w = p → p ≠ .idle → (∀ h, p ≠ .deleteClient h) →
      p ≠ .locked → w ≠ .serverTask := by
    rintro w p hc hidle hdel hlock rfl
    rcases hi.call with h | ⟨x, h⟩ | h
    · exact hidle (hc.symm.trans h)
    · exact hdel x (hc.symm.trans h)
    · exact hlock (hc.symm.trans h)
  have hsec : ∀ {w : Caller} {sec : Section}, s.mutex = some (w, sec) → sec.deletes = none →
      w ≠ .serverTask := by
    rintro w sec hm hd rfl
    exact hi.sec sec hm hd
  cases h with
  | startNext hc | startFails hc | startWatch hc | startThread hc | startAborts hc =>
    exact absurd hc (hns _ _)
  | callApp => exact hi.update rfl (by simp) (.inl rfl)
  | callCallback => exact hi.update rfl (by simp) (.inl rfl)
  | disconnectEof => exact hi.update rfl (fun _ => .inr (.inl ⟨_, rfl⟩)) (.inl rfl)
  | deleteFound =>
    exact hi.update rfl (fun _ => .inr (.inr rfl)) (.inr (.inr ⟨_, rfl, fun _ => by simp [Section.deletes]⟩))
  | deleteNone => exact hi.update rfl (fun _ => .inl rfl) (.inl rfl)
  | deleteClose _ hm | deleteClr _ hm =>
    refine ⟨hi.call, fun sec hs => ?_⟩
    cases hs
    simp [Section.deletes]
  | deleteErase => exact hi.update rfl (fun _ => .inl rfl) (.inr (.inl rfl))
  | bcastLock hc =>
    have hw := hcall hc (by simp) (by simp) (by simp)
    exact hi.update rfl (fun h => absurd h hw) (.inr (.inr ⟨_, rfl, fun h => absurd h hw⟩))
  | finishLock hc =>
    have hw := hcall hc (by simp) (by simp) (by simp)
    exact hi.update rfl (fun h => absurd h hw) (.inr (.inr ⟨_, rfl, fun h => absurd h hw⟩))
  | bcastSend _ hm | finishClose _ hm =>
    refine ⟨hi.call, fun sec hs => ?_⟩
    cases hs
    exact absurd rfl (hsec hm rfl)
  | bcastEnd | bcastFails | finishEnd => exact hi.update rfl (fun _ => .inl rfl) (.inr (.inl rfl))
  | sendFound hc | finish hc =>
    exact hi.update rfl (fun h => absurd h (hcall hc (by simp) (by simp) (by simp))) (.inl rfl)
  | finishJoin hc | finishNoThread hc | finishSelf hc =>
    exact hi.update rfl (fun h => absurd h (hcall hc (by simp) (by simp) (by simp))) (.inl rfl)
  | sendNone | send | infoFound | infoNone => exact hi.update rfl (fun _ => .inl rfl) (.inl rfl)
  | _ => exact ⟨hi.call, hi.sec⟩

/-! ### What a step does to the rank -/

/-- The server is being stopped. -/
structure Stopping (s : State) : Prop where
  /-- Everybody is in place. -/
  orderly : Orderly s
  /-- `m_stop` is set. -/
  stop : s.stop = true
  /-- What the server thread calls. -/
  tasked : Tasked s

theorem Step.stop {s s' : State} {a : Action} (h : Step s a s') (hs : s.stop = true) : s'.stop = true := by
  cases h with
  | startNext | startFails => exact (Op.exec_stop _ _ _ _).trans hs
  | finish => rfl
  | _ => exact hs

theorem Step.stopping {s s' : State} {a : Action} (h : Step s a s') (ha : a.regular = true)
    (hi : Stopping s) : Stopping s' :=
  ⟨h.orderly ha hi.orderly, h.stop hi.stop, h.tasked hi.orderly hi.tasked⟩

/-- A step of `serverTask` lowers the rank. -/
theorem Step.rank_lt {s s' : State} {a : Action} (h : Step s a s') (hi : Stopping s)
    (ha : a.ofTask = true) : s'.rank < s.rank := by
  have hdel : ∀ {w : Caller}, s.calls w ≠ .idle → w = .serverTask → ∃ r, s.pc = .deleting r :=
    fun hc hw => hi.orderly.placed.task (hw ▸ hc)
  cases h with
  | testStop _ hs => rw [hi.stop] at hs; cases hs
  | taskReturns hp => simp [State.rank, hp]
  | copyFds hp | findMaxFd hp | select hp => simp [State.rank, hp]
  | selectFails hp => simp only [State.rank, hp]; omega
  | selectReady hp => simp [State.rank, hp, Round.rank]
  | forReady hp hlt | forSkip hp hlt =>
    simp only [State.rank, hp, Round.rank_next hlt]
    omega
  | forEnd hp => simp only [State.rank, hp, Round.rank]; omega
  | lookupClient hp | lookupNone hp | recvEnd hp | recvData hp | acceptFails hp | accept hp | emplace hp
  | fdSet hp | publish hp | callbackReturns hp => simp [State.rank, hp, Round.rank, Round.next]
  | disconnectEof hp => simp [State.rank, hp, State.deleteRank]
  | disconnectError hp => simp [State.rank, hp, Round.rank, Round.next]
  | deleteReturns hp => simp only [State.rank, hp]; omega
  | callApp | callCallback => cases ha
  | @deleteFound w x cl _ _ hc hm =>
    obtain rfl : w = .serverTask := by simpa [Action.ofTask] using ha
    obtain ⟨r, hp⟩ := hdel (by rw [hc]; simp) rfl
    simp [State.rank, hp, State.deleteRank, hc]
  | @deleteNone w x _ _ hc hm =>
    obtain rfl : w = .serverTask := by simpa [Action.ofTask] using ha
    obtain ⟨r, hp⟩ := hdel (by rw [hc]; simp) rfl
    simp [State.rank, hp, State.deleteRank, hc]
  | @deleteClose w x d c _ _ hc hm | @deleteClr w x d c _ _ hc hm | @deleteErase w x c _ _ hc hm =>
    obtain rfl : w = .serverTask := by simpa [Action.ofTask] using ha
    obtain ⟨r, hp⟩ := hdel (by rw [hc]; simp) rfl
    simp [State.rank, hp, State.deleteRank, hc, hm]
  | @bcastEnd w _ _ _ _ hm | @bcastSend w _ _ _ _ _ _ _ hm | @bcastFails w _ _ _ _ _ _ _ hm
  | @finishClose w _ _ _ _ _ _ hm | @finishEnd w _ _ _ hm =>
    obtain rfl : w = .serverTask := by simpa [Action.ofTask] using ha
    exact absurd rfl (hi.tasked.sec _ hm)
  | @startNext w _ _ _ _ hc | @startFails w _ _ _ _ hc | @startWatch w _ _ _ _ hc | @startThread w _ _ _ _ hc
  | @startAborts w _ _ _ _ hc => exact absurd hc (hi.orderly.noStart _ _)
  | @bcastLock w _ _ _ hc | @sendFound w _ _ _ _ _ hc | @sendNone w _ _ _ _ hc | @send w _ _ _ _ _ hc
  | @infoFound w _ _ _ _ _ hc | @infoNone w _ _ _ _ hc | @finish w _ _ hc | @finishNoThread w _ _ hc
  | @finishSelf w _ _ hc | @finishLock w _ _ hc =>
    obtain rfl : w = .serverTask := by simpa [Action.ofTask] using ha
    rcases hi.tasked.call with h | ⟨x, h⟩ | h <;> rw [hc] at h <;> cases h
  | finishJoin => simp [Action.ofTask] at ha

/-- The thread has returned exactly if nothing is left. -/
theorem rank_eq_zero {s : State} : s.rank = 0 ↔ s.pc.stopped := by
  unfold State.rank Pc.stopped
  cases s.pc <;> simp [Round.rank]

/-! ### The end -/

/-- `serverTask` is between the test of `m_stop` and the call of `Select`. -/
def State.selectRank (s : State) : ℕ :=
  match s.pc with
  | .copyFds | .findMaxFd _ | .select _ _ => 1
  | _ => 0

/-- A call of `Select`. -/
def Action.isSelect : Action → Bool
  | .select => true
  | _ => false

theorem Step.selectRank_le {s s' : State} {a : Action} (h : Step s a s') (hi : Stopping s) :
    s'.selectRank ≤ s.selectRank := by
  cases h with
  | testStop _ hs => rw [hi.stop] at hs; cases hs
  | startNext hc | startFails hc | startWatch hc | startThread hc | startAborts hc =>
    exact absurd hc (hi.orderly.noStart _ _)
  | callApp | callCallback | deleteFound | deleteNone | deleteClose | deleteClr | deleteErase | bcastLock
  | bcastEnd | bcastSend | bcastFails | sendFound | sendNone | send | infoFound | infoNone | finish
  | finishJoin | finishNoThread | finishSelf | finishLock | finishClose | finishEnd => exact le_rfl
  | copyFds hp | findMaxFd hp => simp [State.selectRank, hp]
  | _ => exact Nat.zero_le _

/-- The clients that `sendBcast` has yet to send to stay in the table. -/
theorem Started.sending {s₀ s : State} (h₀ : Started s₀) (h : machine.Reach Concurrent s₀ s) : Sending s :=
  Machine.Reach.invariant_of (fun s hr => h₀.initial.account.reach hr)
    (by intro w msg rest hm; simp [h₀.initial.mutex] at hm)
    (fun _ _ _ hj hi _ hs => (Step.of_step hs).2.sending hj.orderly hi) h

/-- Who holds the mutex can move. -/
theorem Holds.moves {s : State} {t : Thread} (hh : Holds s t) (ho : Orderly s) (hi : Owned s) (hs : Sending s)
    (hab : s.aborted = false) : Moves s t := by
  obtain ⟨w, sec, hm, rfl⟩ := hh
  have hlocked : s.calls w = .locked := (ho.discipline w).mpr ⟨sec, hm⟩
  refine (call_moves_or_waits ho hi hs hab (by simp [hlocked])).resolve_right ?_
  rintro ⟨u, hw⟩
  exact Holds.not_waits ⟨w, sec, hm, rfl⟩ ho hw

/-- What holds when `m_stop` is set. -/
theorem Started.stopping {s₀ s : State} (h₀ : Started s₀) (h : machine.Reach Concurrent s₀ s)
    (hs : s.stop = true) : Stopping s := by
  have ht : Tasked s := Machine.Reach.invariant_of (fun s hr => h₀.initial.account.reach hr)
    (.idle (h₀.initial.calls _) h₀.initial.mutex)
    (fun _ _ _ hj hi _ hs => (Step.of_step hs).2.tasked hj.orderly hi) h
  exact ⟨(h₀.initial.account.reach h).orderly, hs, ht⟩

end SocketsCpp.TcpServer
