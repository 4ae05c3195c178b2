import SocketsCpp.Library.Ranking
import SocketsCpp.Receiver.Shutdown

/-!
# The receive thread comes to its end

Once `m_stop` is set the receive thread takes at most ten steps, calls `Select` and begins a callback at most
once more each, and never has to wait for another thread.

* `Pc.rank` — a bound on the steps that `ReceiveTask` still takes.
* `receive_thread_stops` — the bounds, in every interleaving in which the socket is not set up again.
-/

namespace SocketsCpp.Receiver

open SocketsCpp.Library

/-! ### Ranks -/

/-- The socket is not set up again. -/
def Action.keeps : Action → Bool
  | .call _ (.sendMsg _) | .call _ .finish => true
  | .call _ _ => false
  | _ => true

/-- The runs in which the socket is not set up again. -/
def Keeping (_ : State) (a : Action) : Prop := a.keeps = true

instance (s : State) (a : Action) : Decidable (Keeping s a) := inferInstanceAs (Decidable (_ = true))

/-- A step of `ReceiveTask`. -/
def Action.ofTask : Action → Bool
  | .call _ _ | .step _ _ => false
  | _ => true

/-- A call of `Select`. -/
def Action.isSelect : Action → Bool
  | .select => true
  | _ => false

/-- A callback begins. -/
def Action.isPublish : Action → Bool
  | .publish => true
  | _ => false

/-- A bound on the steps that `ReceiveTask` still takes, `m_stop` being set. -/
def Pc.rank : Pc → ℕ
  | .none | .returned => 0
  | .loopHead | .checkStop => 1
  | .callback _ => 2
  | .publish _ => 3
  | .setStop _ => 4
  | .recv => 5
  | .isset _ _ => 6
  | .waiting _ => 7
  | .select _ => 8
  | .fdSet => 9
  | .guard => 10

/-- `Select` is still to be called. -/
def Pc.selectRank : Pc → ℕ
  | .guard | .fdSet | .select _ => 1
  | _ => 0

/-- A callback may still begin. -/
def Pc.publishRank : Pc → ℕ
  | .none | .returned | .loopHead | .checkStop | .callback _ => 0
  | _ => 1

/-- The object is being stopped. -/
structure Stopping (s : State) : Prop where
  /-- `m_stop` is set. -/
  stop : s.stop = true
  /-- The socket is not being set up. -/
  noStart : ∀ w is, s.calls w ≠ .start is

section

variable {k : Kind} {s s' : State} {a : Action}

theorem Step.noStart (h : Step k s a s') (ha : a.keeps = true) (hi : ∀ w is, s.calls w ≠ .start is) :
    ∀ w is, s'.calls w ≠ .start is := by
  have hupdate : ∀ {w : Caller} {p : CallPc}, (∀ is, p ≠ .start is) →
      ∀ w' is, Function.update s.calls w p w' ≠ .start is := fun hp =>
    (Function.forall_update_iff s.calls fun _ q => ∀ is, q ≠ .start is).mpr ⟨hp, fun w'' _ => hi w''⟩
  cases h with
  | startNext hc | startFails hc | startThread hc | startAborts hc => exact absurd hc (hi _ _)
  | @call w c => exact hupdate (by cases c <;> simp_all [Call.begin, Action.keeps])
  | finish | sendMsg | finishJoin | finishNoThread | finishSelf | finishClose | finishReset =>
    exact hupdate (by simp)
  | _ => exact hi

theorem Step.stop (h : Step k s a s') (hs : s.stop = true) : s'.stop = true := by
  cases h with
  | startNext | startFails => exact (Op.exec_stop _ _ _ _).trans hs
  | setStop | finish => rfl
  | _ => exact hs

theorem Step.stopping (h : Step k s a s') (ha : a.keeps = true) (hi : Stopping s) : Stopping s' :=
  ⟨h.stop hi.stop, h.noStart ha hi.noStart⟩

theorem afterRecv_rank (k : Kind) (res : Option (List UInt8)) (errno : ℤ) :
    (afterRecv k res errno).rank < 5 ∧ (afterRecv k res errno).selectRank = 0 ∧
      (afterRecv k res errno).publishRank ≤ 1 := by
  cases k <;> rcases res with _ | _ | ⟨b, bs⟩ <;>
    simp [afterRecv, Pc.rank, Pc.selectRank, Pc.publishRank]

/-- A step of `ReceiveTask` lowers the rank. -/
theorem Step.rank_lt (h : Step k s a s') (hi : Stopping s) (ha : a.ofTask = true) :
    s'.pc.rank < s.pc.rank := by
  cases h with
  | testStop _ hs | checkStop _ hs => rw [hi.stop] at hs; cases hs
  | guard hp | isset hp =>
    rw [hp]
    simp only
    split <;> simp [Pc.rank]
  | recv hp => rw [hp]; exact (afterRecv_rank _ _ _).1
  | @callbackReturns cb hp => rw [hp]; cases cb <;> exact Nat.lt_add_of_pos_left (by decide)
  | taskReturns hp | fdSet hp | select hp | selectFails hp | selectReady hp | checkReturns hp | setStop hp
  | publish hp => rw [hp]; exact Nat.lt_of_succ_le (by simp [Pc.rank])
  | _ => cases ha

/-- Nobody else moves the receive thread. -/
theorem Step.pc_eq (h : Step k s a s') (hi : Stopping s) (ha : a.ofTask = false) : s'.pc = s.pc := by
  cases h with
  | startNext hc | startFails hc | startThread hc | startAborts hc => exact absurd hc (hi.noStart _ _)
  | call | sendMsg | finish | finishJoin | finishNoThread | finishSelf | finishClose | finishReset => rfl
  | _ => cases ha

theorem Step.selectRank_le (h : Step k s a s') (hi : Stopping s) :
    s'.pc.selectRank ≤ s.pc.selectRank ∧ (a.isSelect = true → s'.pc.selectRank < s.pc.selectRank) := by
  cases ha : a.ofTask with
  | false =>
    rw [h.pc_eq hi ha]
    refine ⟨le_rfl, fun hsel => ?_⟩
    cases a <;> simp_all [Action.ofTask, Action.isSelect]
  | true =>
    cases h with
    | testStop _ hs | checkStop _ hs => rw [hi.stop] at hs; cases hs
    | guard hp | isset hp =>
      rw [hp]
      refine ⟨?_, fun hsel => by cases hsel⟩
      simp only
      split <;> simp [Pc.selectRank]
    | recv hp => rw [hp, (afterRecv_rank _ _ _).2.1]; exact ⟨le_rfl, fun hsel => by cases hsel⟩
    | @callbackReturns cb hp => rw [hp]; cases cb <;> exact ⟨le_rfl, fun hsel => by cases hsel⟩
    | select hp => rw [hp]; exact ⟨Nat.zero_le _, fun _ => Nat.one_pos⟩
    | taskReturns hp | fdSet hp | selectFails hp | selectReady hp | checkReturns hp | setStop hp
    | publish hp => rw [hp]; exact ⟨by simp [Pc.selectRank], fun hsel => by cases hsel⟩
    | _ => cases ha

theorem Step.publishRank_le (h : Step k s a s') (hi : Stopping s) :
    s'.pc.publishRank ≤ s.pc.publishRank ∧
      (a.isPublish = true → s'.pc.publishRank < s.pc.publishRank) := by
  cases ha : a.ofTask with
  | false =>
    rw [h.pc_eq hi ha]
    refine ⟨le_rfl, fun hpub => ?_⟩
    cases a <;> simp_all [Action.ofTask, Action.isPublish]
  | true =>
    cases h with
    | testStop _ hs | checkStop _ hs => rw [hi.stop] at hs; cases hs
    | guard hp | isset hp =>
      rw [hp]
      refine ⟨?_, fun hpub => by cases hpub⟩
      simp only
      split <;> simp [Pc.publishRank]
    | recv hp => rw [hp]; exact ⟨(afterRecv_rank _ _ _).2.2, fun hpub => by cases hpub⟩
    | @callbackReturns cb hp => rw [hp]; cases cb <;> exact ⟨le_rfl, fun hpub => by cases hpub⟩
    | publish hp => rw [hp]; exact ⟨Nat.zero_le _, fun _ => Nat.one_pos⟩
    | taskReturns hp | fdSet hp | select hp | selectFails hp | selectReady hp | checkReturns hp | setStop hp =>
      rw [hp]; exact ⟨by simp [Pc.publishRank], fun hpub => by cases hpub⟩
    | _ => cases ha

/-- The thread has returned exactly if nothing is left. -/
theorem Pc.rank_eq_zero {pc : Pc} : pc.rank = 0 ↔ pc = .none ∨ pc = .returned := by
  cases pc <;> simp [Pc.rank]

/-- The receive thread can move, or the callback that it is in can. -/
theorem Stopping.moves (hi : Stopping s) (hab : s.aborted = false) (hp : s.pc.rank ≠ 0) :
    ∃ a s', (a.ofTask = true ∨ ∃ ans, a = .step .callback ans) ∧ (machine k).step s a = some s' := by
  have hown : ∀ a, a.ofTask = true → (receiveStep k s a).isSome = true → ∃ a s',
      (a.ofTask = true ∨ ∃ ans, a = .step .callback ans) ∧ (machine k).step s a = some s' := by
    intro a ha hsome
    obtain ⟨s', hs⟩ := Option.isSome_iff_exists.mp hsome
    refine ⟨a, s', .inl ha, ?_⟩
    show step k s a = some s'
    cases a with
    | call => cases ha
    | step => cases ha
    | _ => exact (if_neg (by simp [hab])).trans hs
  cases hpc : s.pc with
  | none | returned => simp [hpc, Pc.rank] at hp
  | loopHead => exact hown .testStop rfl (by simp [receiveStep, hpc])
  | guard => exact hown .guard rfl (by simp [receiveStep, hpc])
  | fdSet => exact hown .fdSet rfl (by simp [receiveStep, hpc])
  | select d => exact hown .select rfl (by simp [receiveStep, hpc])
  | waiting d => exact hown (.selectReturns 0 false) rfl (by simp [receiveStep, hpc])
  | checkStop => exact hown .checkStop rfl (by simp [receiveStep, hpc])
  | isset d ready => exact hown .isset rfl (by simp [receiveStep, hpc])
  | recv => exact hown (.recv none 0) rfl (by simp [receiveStep, hpc])
  | setStop ret => exact hown .setStop rfl (by simp [receiveStep, hpc])
  | publish cb => exact hown .publish rfl (by simp [receiveStep, hpc])
  | callback cb =>
    cases hc : s.calls .callback with
    | idle => exact hown .callbackReturns rfl (by simp [receiveStep, hpc, hc, CallPc.isIdle])
    | start is => exact absurd hc (hi.noStart _ _)
    | finishJoin =>
      have hcall : (callStep k s .callback {}).isSome = true := by
        simp only [callStep, hc]
        split <;> rfl
      obtain ⟨s', hs⟩ := Option.isSome_iff_exists.mp hcall
      exact ⟨.step .callback {}, s', .inr ⟨_, rfl⟩, by simp [machine, step, hab, hs]⟩
    | _ =>
      obtain ⟨s', hs⟩ := Option.isSome_iff_exists.mp
        (show (callStep k s .callback {}).isSome = true by simp [callStep, hc])
      exact ⟨.step .callback {}, s', .inr ⟨_, rfl⟩, by simp [machine, step, hab, hs]⟩

/-! ### The end -/

/-- Where the socket is not set up again. -/
theorem Started.noStart {s₀ : State} (h₀ : Started k s₀) (h : (machine k).Reach Keeping s₀ s) :
    ∀ w is, s.calls w ≠ .start is := by
  refine h.invariant (I := fun s => ∀ w is, s.calls w ≠ .start is) ?_ ?_
  · intro w is
    simp [h₀.initial.calls]
  · exact fun _ _ _ hi ha hs => (Step.of_step hs).2.noStart ha hi

/-- **The receive thread stops.** From any state in which `m_stop` is set and the socket is not being set up,
and as long as it is not set up again, the receive thread takes at most ten more steps, calls `Select` at most
once more and begins at most one more callback, whoever calls `sendMsg` and `finish` meanwhile; and until it has
returned, it can move, or the call that its callback makes can. -/
theorem receive_thread_stops (hs : s.stop = true) (hn : ∀ w is, s.calls w ≠ .start is) {as : List Action}
    (hg : (machine k).Guarded Keeping s as) (hr : (machine k).run s as = some s') :
    as.countP Action.ofTask + s'.pc.rank ≤ s.pc.rank ∧ s.pc.rank ≤ 10 ∧
      as.countP Action.isSelect ≤ 1 ∧ as.countP Action.isPublish ≤ 1 ∧
      (s'.pc.rank = 0 ↔ s'.pc = .none ∨ s'.pc = .returned) ∧
      (s'.aborted = false → s'.pc.rank ≠ 0 →
        ∃ a s'', (a.ofTask = true ∨ ∃ ans, a = .step .callback ans) ∧ (machine k).step s' a = some s'') := by
  have hi : Stopping s := ⟨hs, hn⟩
  have hkeep : ∀ {s a s'}, Stopping s → Keeping s a → (machine k).step s a = some s' → Stopping s' :=
    fun hj ha hs => (Step.of_step hs).2.stopping ha hj
  have hbound : ∀ pc : Pc, pc.rank ≤ 10 ∧ pc.selectRank ≤ 1 ∧ pc.publishRank ≤ 1 := by
    intro pc
    cases pc <;> simp [Pc.rank, Pc.selectRank, Pc.publishRank]
  refine ⟨?_, (hbound _).1, ?_, ?_, Pc.rank_eq_zero,
    (Machine.run_invariant hkeep hi hg hr).moves⟩
  · exact Machine.run_countP_le hkeep
      (fun hj _ hs hk => (Step.of_step hs).2.rank_lt hj hk)
      (fun hj _ hs hk => Nat.le_of_eq (by rw [(Step.of_step hs).2.pc_eq hj hk])) hi hg hr
  · have hle : as.countP Action.isSelect + s'.pc.selectRank ≤ s.pc.selectRank := Machine.run_countP_le hkeep
      (fun hj _ hs hk => ((Step.of_step hs).2.selectRank_le hj).2 hk)
      (fun hj _ hs _ => ((Step.of_step hs).2.selectRank_le hj).1) hi hg hr
    have hone := (hbound s.pc).2.1
    omega
  · have hle : as.countP Action.isPublish + s'.pc.publishRank ≤ s.pc.publishRank := Machine.run_countP_le hkeep
      (fun hj _ hs hk => ((Step.of_step hs).2.publishRank_le hj).2 hk)
      (fun hj _ hs _ => ((Step.of_step hs).2.publishRank_le hj).1) hi hg hr
    have hone := (hbound s.pc).2.2
    omega

end

/-- `finish` is called while the receive thread is about to call `Recv`. -/
def stopBeforeRecv : List Action :=
  [.testStop, .fdSet, .select, .selectReturns 1 true, .isset, .call (.app 0) .finish, .step (.app 0) {}]

/-- The receive thread hands on what it receives, and returns. -/
def lastRecv : List Action :=
  [.recv (some [7]) 0, .publish, .call .callback (.sendMsg [8]), .step .callback { ret := 1 }, .callbackReturns,
   .testStop]

theorem receive_thread_stops_before_recv : ∃ s s', (machine .tcpClient).Reach Keeping connected s ∧
    (machine .tcpClient).run s lastRecv = some s' ∧ lastRecv.countP Action.ofTask = 4 ∧ s.pc.rank = 5 ∧
    lastRecv.countP Action.ofTask + s'.pc.rank ≤ s.pc.rank := by
  obtain ⟨s, hr, hs, hrank, hg, hrun⟩ : ∃ s, (machine .tcpClient).Reach Keeping connected s ∧
      s.stop = true ∧ s.pc.rank = 5 ∧ (machine .tcpClient).Guarded Keeping s lastRecv ∧
      ((machine .tcpClient).run s lastRecv).any (fun _ => true) = true :=
    Machine.exists_reach stopBeforeRecv (by decide)
  obtain ⟨s', hrun⟩ := Option.isSome_iff_exists.mp (by simpa using hrun)
  exact ⟨s, s', hr, hrun, rfl, hrank, (receive_thread_stops hs (connected_started.noStart hr) hg hrun).1⟩

end SocketsCpp.Receiver
