import SocketsCpp.TcpServer.Closing

/-!
# The watch set

`m_fds` against the table. `deleteClient` takes a descriptor out of both inside its
critical section; `serverTask` puts it into the table under the lock and into `m_fds`
after it.

* `Watched` — a descriptor in `m_fds` is the listening socket or a client. It is kept by
  every step but an `FD_CLR` that falls between `emplace` and `FD_SET` (`clearsPending`).
* `Copied` — the same of the copy that is handed to `Select`, kept by every step but an
  `erase` that falls between the copy and `Select` (`erasesCopied`).
* `Covered` — a client whose `FD_SET` was executed is in `m_fds`.
-/

namespace SocketsCpp.TcpServer

open SocketsCpp.Library

/-- The client under `h` was taken out of `m_fds` and is still in the table. -/
def State.clearing (s : State) (h : ClientHandle) : Prop := ∃ w c, s.mutex = some (w, .deleteErase h c)

/-- `deleteClient` executes `FD_CLR` on a descriptor that the server thread is about to
put into `m_fds`. -/
def clearsPending (s : State) (a : Action) : Bool :=
  match a, s.mutex, s.pc with
  | .step w _ _, some (w', .deleteClr _ d _), .fdSet _ d' => w = w' ∧ d = d'
  | _, _, _ => false

/-- The copy of `m_fds` that the server thread is about to hand to `Select`. -/
def Pc.copied : Pc → Option FdSet
  | .findMaxFd readSet | .select readSet _ => some readSet
  | _ => Option.none

/-- `deleteClient` erases a client that is in the copy of `m_fds` the server thread is about
to hand to `Select`. -/
def erasesCopied (s : State) (a : Action) : Bool :=
  match a, s.mutex, s.pc.copied with
  | .step w _ _, some (w', .deleteErase h _), some readSet => w = w' ∧ readSet h
  | _, _, _ => false

/-- A descriptor in `m_fds` is the listening socket or a client. -/
structure Watched (s : State) : Prop where
  /-- What is in `m_fds`. -/
  set : ∀ d, s.fds d = true → d = s.sockfd ∨ (d ∈ s.clients ∧ ¬ s.clearing d)
  /-- What is about to be put into `m_fds`. -/
  pending : ∀ r d, s.pc = .fdSet r d → d ∈ s.clients ∧ ¬ s.clearing d

theorem Watched.of_mutex {s s' : State} (h : Watched s) (hf : s'.fds = s.fds)
    (hs : s'.sockfd = s.sockfd) (hc : s'.clients = s.clients) (hp : s'.pc = s.pc)
    (hm : ∀ d, ¬ s'.clearing d) : Watched s' where
  set d hd := by
    rw [hf] at hd
    rw [hs, hc]
    exact (h.set d hd).imp id fun hd => ⟨hd.1, hm d⟩
  pending r d hd := by
    rw [hp] at hd
    rw [hc]
    exact ⟨(h.pending r d hd).1, hm d⟩

theorem Step.watched {s s' : State} {a : Action} (h : Step s a s') (ho : Orderly s) (hi : Owned s)
    (hclr : clearsPending s a = false) (hw : s.thread = true → Watched s) :
    s'.thread = true → Watched s' := by
  have hns := ho.noStart
  intro ht
  cases h with
  | startNext hc | startFails hc | startWatch hc | startThread hc | startAborts hc =>
    exact absurd hc (hns _ _)
  | finishJoin => cases ht
  | finishEnd _ hm =>
    have hthread := ho.shutdown.closing _ _ hm
    rw [State.ret] at ht
    exact absurd (hthread.symm.trans ht) (by decide)
  | @emplace r d c hp hm =>
    refine ⟨fun d' hd => ((hw ht).set d' hd).imp id fun hd => ⟨?_, hd.2⟩, fun r' d' hpc => ?_⟩
    · exact Clients.mem_emplace.mpr (.inr hd.1)
    · cases hpc
      exact ⟨Clients.mem_emplace.mpr (.inl rfl), by simp [State.clearing, hm]⟩
  | @fdSet r d hp =>
    refine ⟨fun d' hd => ?_, by simp⟩
    by_cases hdd : d' = d
    · subst hdd
      exact .inr ((hw ht).pending r _ hp)
    · exact (hw ht).set d' (by simpa [FD_SET_apply, hdd] using hd)
  | disconnectEof hp =>
    exact ⟨fun d hd => ((hw ht).set d hd).imp id fun hd => ⟨by simpa using hd.1, hd.2⟩, by simp⟩
  | disconnectError hp =>
    exact ⟨fun d hd => ((hw ht).set d hd).imp id fun hd => ⟨by simpa using hd.1, hd.2⟩, by simp⟩
  | @deleteClr w h d c ans order hc hm =>
    obtain rfl := hi.clr _ _ _ _ hm
    have hne : ∀ r d', s.pc = .fdSet r d' → d' ≠ d := by
      rintro r d' hp rfl
      simp [clearsPending, hm, hp] at hclr
    refine ⟨fun d' hd => ?_, fun r d' hp => ⟨((hw ht).pending r d' hp).1, ?_⟩⟩
    · obtain ⟨hdd, hd⟩ : d' ≠ d ∧ s.fds d' = true := by simpa [FD_CLR_apply] using hd
      exact ((hw ht).set d' hd).imp id fun hd => ⟨hd.1, by simp [State.clearing, Ne.symm hdd]⟩
    · simp [State.clearing, Ne.symm (hne r d' hp)]
  | @deleteErase w h c ans order hc hm =>
    have hclearing : s.clearing h := ⟨w, c, hm⟩
    have herase : ∀ {d}, d ∈ s.clients ∧ ¬ s.clearing d → d ∈ s.clients.erase h := fun {d} hd =>
      AList.mem_erase.mpr ⟨by rintro rfl; exact hd.2 hclearing, hd.1⟩
    exact ⟨fun d hd => ((hw ht).set d hd).imp id fun hd => ⟨herase hd, by simp [State.clearing]⟩,
      fun r d hp => ⟨herase ((hw ht).pending r d hp), by simp [State.clearing]⟩⟩
  | deleteFound | deleteClose | bcastLock | bcastEnd | bcastSend | bcastFails | finishLock
  | finishClose => exact (hw ht).of_mutex rfl rfl rfl rfl (by simp [State.clearing])
  | _ => exact ⟨(hw ht).set, by first | exact (hw ht).pending | simp⟩

/-! ### The copy handed to `Select` -/

/-- A descriptor in the copy of `m_fds` is the listening socket or a client. -/
def Copied (s : State) : Prop :=
  ∀ readSet, s.pc.copied = some readSet → ∀ d, readSet d = true → d = s.sockfd ∨ d ∈ s.clients

theorem Copied.of_none {s : State} (h : s.pc.copied = none) : Copied s := by
  intro readSet hs
  rw [h] at hs
  cases hs

theorem Step.copied {s s' : State} {a : Action} (h : Step s a s') (ho : Orderly s)
    (herase : erasesCopied s a = false) (hw : s.thread = true → Watched s) (hi : Copied s) :
    Copied s' := by
  have hns := ho.noStart
  cases h with
  | startNext hc | startFails hc | startWatch hc | startThread hc | startAborts hc =>
    exact absurd hc (hns _ _)
  | copyFds hp =>
    have ht := ho.shutdown.running (by simp [Pc.stopped, hp])
    intro readSet hs d hd
    cases hs
    exact ((hw ht).set d hd).imp id fun hd => hd.1
  | findMaxFd hp =>
    intro readSet hs
    exact hi readSet (by rw [hp]; exact hs)
  | @deleteErase w h c ans order hc hm =>
    intro readSet hs d hd
    have hne : d ≠ h := by
      rintro rfl
      have hs : s.pc.copied = some readSet := hs
      simp [erasesCopied, hm, hs, hd] at herase
    exact (hi readSet hs d hd).imp id fun hd => AList.mem_erase.mpr ⟨hne, hd⟩
  | finishEnd _ hm =>
    refine .of_none ?_
    rcases ho.shutdown.joined (ho.shutdown.closing _ _ hm) with hp | hp <;> simp [hp, Pc.copied]
  | _ => first | exact hi | exact .of_none rfl

/-! ### Clients are watched -/

/-- A client whose `FD_SET` was executed is in `m_fds`, and so is the listening socket. -/
structure Covered (s : State) : Prop where
  /-- The listening socket. -/
  listen : s.fds s.sockfd = true
  /-- A client. -/
  client : ∀ d ∈ s.clients, (∀ r, s.pc ≠ .fdSet r d) → ¬ s.clearing d → s.fds d = true

/-- Nothing but the position of the server thread changes. -/
theorem Covered.move {s s' : State} (h : Covered s) (hf : s'.fds = s.fds) (hs : s'.sockfd = s.sockfd)
    (hc : ∀ d, d ∈ s'.clients ↔ d ∈ s.clients) (hp : ∀ r d, s.pc ≠ .fdSet r d)
    (hm : s'.mutex = s.mutex) : Covered s' where
  listen := by rw [hf, hs]; exact h.listen
  client d hd _ hcl := by
    rw [hf]
    refine h.client d ((hc d).mp hd) (fun r => hp r d) ?_
    simpa only [State.clearing, hm] using hcl

/-- Nothing but the position of a call changes. -/
theorem Covered.of_mutex {s s' : State} (h : Covered s) (hf : s'.fds = s.fds)
    (hs : s'.sockfd = s.sockfd) (hc : s'.clients = s.clients) (hp : s'.pc = s.pc)
    (hm : ∀ d, ¬ s.clearing d) : Covered s' where
  listen := by rw [hf, hs]; exact h.listen
  client d hd hpc _ := by
    rw [hc] at hd
    rw [hp] at hpc
    rw [hf]
    exact h.client d hd hpc (hm d)

theorem Step.covered {s s' : State} {a : Action} (h : Step s a s') (ho : Orderly s) (hi : Owned s)
    (hw : s.thread = true → Covered s) : s'.thread = true → Covered s' := by
  have hns := ho.noStart
  intro ht
  cases h with
  | startNext hc | startFails hc | startWatch hc | startThread hc | startAborts hc =>
    exact absurd hc (hns _ _)
  | finishJoin => cases ht
  | finishEnd _ hm =>
    have hthread := ho.shutdown.closing _ _ hm
    rw [State.ret] at ht
    exact absurd (hthread.symm.trans ht) (by decide)
  | @emplace r d c hp hm =>
    refine ⟨(hw ht).listen, fun d' hd hpc _ => ?_⟩
    rcases Clients.mem_emplace.mp hd with rfl | hd
    · exact absurd rfl (hpc r)
    · exact (hw ht).client d' hd (by simp [hp]) (by simp [State.clearing, hm])
  | @fdSet r d hp =>
    refine ⟨?_, fun d' hd _ hcl => ?_⟩
    · simp [FD_SET_apply, (hw ht).listen]
    · by_cases hdd : d' = d
      · simp [FD_SET_apply, hdd]
      · have := (hw ht).client d' hd (by simp [hp, Ne.symm hdd]) hcl
        simp [FD_SET_apply, this]
  | @deleteClr w h d c ans order hc hm =>
    obtain rfl := hi.clr _ _ _ _ hm
    obtain ⟨x, hx⟩ : ∃ x, s.registry.entry d = some (x, c) := by
      have := hi.reg.closable
      simpa [Registry.Closable, State.registry, hm, closingOf] using this
    have hne : s.sockfd ≠ d := Ne.symm (hi.reg.ne_listen hx)
    refine ⟨by simp [FD_CLR_apply, hne, (hw ht).listen], fun d' hd hpc hcl => ?_⟩
    have hdd : d' ≠ d := by
      rintro rfl
      exact hcl ⟨w, c, rfl⟩
    have := (hw ht).client d' hd hpc (by simp [State.clearing, hm])
    simp [FD_CLR_apply, hdd, this]
  | @deleteErase w h c ans order hc hm =>
    refine ⟨(hw ht).listen, fun d hd hpc _ => ?_⟩
    obtain ⟨hdh, hd⟩ := AList.mem_erase.mp hd
    exact (hw ht).client d hd hpc (by simp [State.clearing, hm, Ne.symm hdh])
  | deleteFound _ hm | deleteClose _ hm | bcastLock _ hm | bcastEnd _ hm | bcastSend _ hm
  | bcastFails _ hm | finishLock _ hm | finishClose _ hm =>
    exact (hw ht).of_mutex rfl rfl rfl rfl (by simp [State.clearing, hm])
  | disconnectEof hp | disconnectError hp =>
    exact (hw ht).move rfl rfl (fun _ => by simp) (by simp [hp]) rfl
  | _ =>
    first
    | exact ⟨(hw ht).listen, (hw ht).client⟩
    | exact (hw ht).move rfl rfl (fun _ => Iff.rfl) (by simp [*]) rfl

theorem Initial.watched {s : State} (h : Initial s) : Watched s where
  set d hd := by
    rw [h.fds] at hd
    by_cases hs : d = s.sockfd
    · exact .inl hs
    · simp [FD_SET_apply, FD_ZERO_apply, hs] at hd
  pending r d hp := by simp [h.pc] at hp

theorem Initial.covered {s : State} (h : Initial s) : Covered s where
  listen := by rw [h.fds]; simp [FD_SET_apply]
  client d hd := by simp [h.clients] at hd

/-! ### Any interleaving -/

/-- Every interleaving in which no `FD_CLR` falls between `emplace` and `FD_SET`. -/
def KeepsPending (s : State) (a : Action) : Prop := Concurrent s a ∧ clearsPending s a = false

/-- Every such interleaving in which no client is erased between the copy of `m_fds` and
`Select`. -/
def KeepsCopied (s : State) (a : Action) : Prop := KeepsPending s a ∧ erasesCopied s a = false

instance (s : State) (a : Action) : Decidable (KeepsPending s a) := inferInstanceAs (Decidable (_ ∧ _))

instance (s : State) (a : Action) : Decidable (KeepsCopied s a) := inferInstanceAs (Decidable (_ ∧ _))

theorem Account.watched {s₀ s : State} (h₀ : Account s₀) (hw : Watched s₀)
    (h : machine.Reach KeepsPending s₀ s) : s.thread = true → Watched s :=
  Machine.Reach.invariant_of (I := fun s => s.thread = true → Watched s)
    (fun _ hr => h₀.reach (hr.mono fun _ _ hok => hok.1)) (fun _ => hw)
    (fun _ _ _ hj hi hok hs => (Step.of_step hs).2.watched hj.orderly hj.owned hok.2 hi) h

/-- **The watch set keeps no dead descriptor**, as long as no `FD_CLR` falls between `emplace` and
`FD_SET`: at the head of the loop every descriptor in `m_fds` is the listening socket or a client.
If moreover no client is erased between the copy of `m_fds` and `Select`, neither is `Select` handed
a descriptor that was erased, nor, with no critical section in progress, one that is not open. -/
theorem watch_set_alive {s₀ s : State} (h₀ : Started s₀) :
    (machine.Reach KeepsPending s₀ s → s.pc = .loopHead →
      ∀ d, s.fds d = true → d = s.sockfd ∨ d ∈ s.clients) ∧
    (machine.Reach KeepsCopied s₀ s → ∀ readSet maxfds, s.pc = .select readSet maxfds →
      ∀ d, readSet d = true →
        (d = s.sockfd ∨ d ∈ s.clients) ∧ (s.mutex = none → ∃ c, s.os.owner d = some c)) := by
  have ha : ∀ {s}, machine.Reach KeepsPending s₀ s → Account s := fun hr =>
    h₀.initial.account.reach (hr.mono fun _ _ hok => hok.1)
  have hw : ∀ {s}, machine.Reach KeepsPending s₀ s → s.thread = true → Watched s := fun hr =>
    h₀.initial.account.watched h₀.initial.watched hr
  refine ⟨fun hr hp d hd => ?_, fun hr readSet maxfds hp d hd => ?_⟩
  · have ht := (ha hr).orderly.shutdown.running (by simp [Pc.stopped, hp])
    exact ((hw hr ht).set d hd).imp id fun hd => hd.1
  · have hr' : machine.Reach KeepsPending s₀ s := hr.mono fun _ _ hok => hok.1
    have hcopied : Copied s := Machine.Reach.invariant_of
      (fun _ hr => (hr.mono fun _ _ hok => hok.1 : machine.Reach KeepsPending s₀ _))
      (Copied.of_none (by rw [h₀.initial.pc]; rfl))
      (fun _ _ _ hj hi hok hs =>
        (Step.of_step hs).2.copied (ha hj).orderly hok.2 (hw hj) hi) hr
    have hmem := hcopied readSet (by rw [hp]; rfl) d hd
    refine ⟨hmem, fun hm => ?_⟩
    have ht := (ha hr').orderly.shutdown.running (by simp [Pc.stopped, hp])
    rcases hmem with rfl | hmem
    · exact (ha hr').owned.reg.listening ((ha hr').owned.listening ht)
    · obtain ⟨cl, hl⟩ := lookup_eq_some_of_mem hmem
      exact ⟨_, (ha hr').owned.live hm hl⟩

/-- `Select` is about to be handed the descriptor. -/
def Pc.hands (pc : Pc) (d : SOCKET) : Bool :=
  match pc with
  | .select readSet _ => readSet d
  | _ => false

theorem watch_set_alive_two_clients :
    (∃ s, machine.Reach KeepsPending started s ∧ s.pc = .loopHead ∧ s.fds 1 = true ∧
      (1 = s.sockfd ∨ 1 ∈ s.clients)) ∧
    ∃ s, machine.Reach KeepsCopied started s ∧ (2 = s.sockfd ∨ 2 ∈ s.clients) := by
  constructor
  · obtain ⟨s, hr, hp, hd⟩ : ∃ s, machine.Reach KeepsPending started s ∧
        s.pc = .loopHead ∧ s.fds 1 = true :=
      Machine.exists_reach (selectActions [0] ++ acceptActions 1 ++ [.forStep]) (by decide)
    exact ⟨s, hr, hp, hd, (watch_set_alive started_started).1 hr hp 1 hd⟩
  · obtain ⟨s, hr, hd⟩ : ∃ s, machine.Reach KeepsCopied started s ∧ s.pc.hands 2 = true :=
      Machine.exists_reach (List.flatten [selectActions [0], acceptActions 1, [.forStep], selectActions [0],
        acceptActions 2, deleteActions (.app 1) 1,
        [.forStep, .forStep, .testStop, .copyFds, .findMaxFd]]) (by decide)
    unfold Pc.hands at hd
    split at hd
    · next hp => exact ⟨s, hr, ((watch_set_alive started_started).2 hr _ _ hp 2 hd).1⟩
    · cases hd

/-- The client is deleted after `emplace` and before `FD_SET`: its descriptor, closed and erased,
stays in `m_fds`. -/
theorem watch_set_not_alive :
    ¬ ∀ s₀ s, Started s₀ → machine.Reach Concurrent s₀ s → s.pc = .loopHead → s.mutex = none →
      ∀ d, s.fds d = true → d = s.sockfd ∨ d ∈ s.clients := by
  intro hall
  obtain ⟨s, hr, hp, hm, hd, hdead⟩ : ∃ s, machine.Reach Concurrent started s ∧ s.pc = .loopHead ∧
      s.mutex = none ∧ s.fds 1 = true ∧ ¬ (1 = s.sockfd ∨ 1 ∈ s.clients) :=
    Machine.exists_reach (List.flatten [selectActions [0], [.forStep, .lookup, .accept (some (1, {})), .emplace],
      deleteActions (.app 1) 1, [.fdSet, .publish, .callbackReturns, .forStep]]) (by decide)
  exact hdead (hall started s started_started hr hp hm 1 hd)

end SocketsCpp.TcpServer
