import SocketsCpp.TcpServer.Sequential

/-!
# Connections whose `Recv` failed

`serverTask` clears `m_isConnected` when `Recv` returns `0` and when it fails, and deletes
the client only in the first case. So a client that is not connected is one that is being
deleted (`Flagged`), as long as no `Recv` fails.
-/

namespace SocketsCpp.TcpServer

open SocketsCpp.Library

/-- `Recv` fails. -/
def recvFails (a : Action) : Bool :=
  match a with
  | .recv none => true
  | _ => false

/-- Every interleaving in which no `Recv` fails. -/
def Receives (s : State) (a : Action) : Prop := Concurrent s a ∧ recvFails a = false

/-- Sequential runs in which no `Recv` fails. -/
def SequentialReceives (s : State) (a : Action) : Prop := Sequential s a ∧ recvFails a = false

instance (s : State) (a : Action) : Decidable (Receives s a) := inferInstanceAs (Decidable (_ ∧ _))

instance (s : State) (a : Action) : Decidable (SequentialReceives s a) :=
  inferInstanceAs (Decidable (_ ∧ _))

/-- The handle that a critical section of `deleteClient` is about. -/
def Section.deletes : Section → Option ClientHandle
  | .deleteClose h _ _ | .deleteClr h _ _ | .deleteErase h _ => some h
  | _ => none

/-- The server thread is deleting the client under `h`. -/
def State.taskDeletes (s : State) (h : ClientHandle) : Prop :=
  s.calls .serverTask = .deleteClient h ∨
    ∃ sec, s.mutex = some (.serverTask, sec) ∧ sec.deletes = some h

/-- No `Recv` failed, and a client that is not connected is being deleted. -/
structure Flagged (s : State) : Prop where
  /-- The client that is not connected. -/
  client : ∀ h cl, s.clients.lookup h = some cl → cl.isConnected = true ∨ s.taskDeletes h
  /-- The result of `Recv`. -/
  result : ∀ r c n, s.pc = .disconnected r c n → n = 0

/-- A call that does not delete a client goes on. -/
theorem State.taskDeletes.update {s s' : State} {h : ClientHandle} {w : Caller} {p q : CallPc}
    (ht : s.taskDeletes h) (hw : s.calls w = p) (hp : ∀ x, p ≠ .deleteClient x)
    (hc : s'.calls = Function.update s.calls w q)
    (hm : ∀ sec, s.mutex = some (.serverTask, sec) → sec.deletes = some h →
      s'.mutex = some (.serverTask, sec)) : s'.taskDeletes h := by
  rcases ht with ht | ⟨sec, hsec, hd⟩
  · have hne : .serverTask ≠ w := by
      rintro rfl
      exact hp h (hw.symm.trans ht)
    exact .inl (by rw [hc, Function.update_of_ne hne]; exact ht)
  · exact .inr ⟨sec, hm sec hsec hd, hd⟩

/-- No entry changes, and the deletions go on. -/
theorem Flagged.mono {s s' : State} (hf : Flagged s)
    (hc : ∀ h cl, s'.clients.lookup h = some cl → s.clients.lookup h = some cl)
    (ht : ∀ h, h ∈ s'.clients → s.taskDeletes h → s'.taskDeletes h) (hp : s'.pc = s.pc) : Flagged s' where
  client h cl hl := (hf.client h cl (hc h cl hl)).imp id (ht h (mem_of_lookup hl))
  result := by rw [hp]; exact hf.result

/-- The server thread is not deleting a client. -/
theorem Orderly.not_taskDeletes {s : State} (ho : Orderly s) (hp : ∀ r, s.pc ≠ .deleting r)
    (h : ClientHandle) : ¬ s.taskDeletes h := by
  have hidle := ho.placed.task_idle hp
  rintro (ht | ⟨sec, hm, -⟩)
  · rw [hidle] at ht
    cases ht
  · have := (ho.discipline .serverTask).mpr ⟨sec, hm⟩
    rw [hidle] at this
    cases this

theorem Step.flagged {s s' : State} {a : Action} (h : Step s a s') (ha : recvFails a = false)
    (ho : Orderly s) (hf : Flagged s) : Flagged s' := by
  have hns := ho.noStart
  cases h with
  | startNext hc | startFails hc | startWatch hc | startThread hc | startAborts hc =>
    exact absurd hc (hns _ _)
  | @recvEnd r c res hp hres =>
    refine ⟨hf.client, fun r' c' n he => ?_⟩
    cases he
    cases res with
    | none => cases ha
    | some bytes =>
      simp only [numOfBytesReceived] at hres ⊢
      omega
  | @disconnectEof r c hp =>
    refine ⟨fun x cl hl => ?_, by simp⟩
    obtain ⟨cl', hl', rfl⟩ := Option.map_eq_some_iff.mp ((Clients.lookup_disconnect _ _ _ _).symm.trans hl)
    by_cases hx : x = r.fd
    · subst hx
      exact .inr (.inl (by simp))
    · simp only [hx, false_and, if_false]
      exact .inl ((hf.client x cl' hl').resolve_right (ho.not_taskDeletes (by simp [hp]) x))
  | disconnectError hp hn => exact absurd (hf.result _ _ _ hp) hn
  | @emplace r d c hp hm =>
    refine ⟨fun x cl hl => ?_, by simp⟩
    by_cases hx : d ∉ s.clients ∧ x = d
    · obtain ⟨hn, rfl⟩ := hx
      simp only [Clients.lookup_emplace hn, if_true, Option.some.injEq] at hl
      exact .inl (hl ▸ rfl)
    · have hl : s.clients.lookup x = some cl := by
        by_cases hd : d ∈ s.clients
        · simpa [Clients.emplace, hd] using hl
        · have hxd : x ≠ d := fun he => hx ⟨hd, he⟩
          simpa [Clients.lookup_emplace hd, hxd] using hl
      exact hf.client x cl hl
  | @deleteFound w x cl ans order hc hm hl =>
    refine hf.mono (fun _ _ hl => hl) (fun y hy ht => ?_) rfl
    have ht := ht.resolve_right (by simp [hm])
    by_cases hw : w = .serverTask
    · subst hw
      rw [hc] at ht
      cases ht
      exact .inr ⟨_, rfl, rfl⟩
    · exact .inl (by simpa [Ne.symm hw] using ht)
  | @deleteNone w x ans order hc hm hl =>
    refine hf.mono (fun _ _ hl => hl) (fun y hy ht => ?_) rfl
    have ht := ht.resolve_right (by simp [hm])
    by_cases hw : w = .serverTask
    · subst hw
      rw [hc] at ht
      cases ht
      exact absurd hy (AList.lookup_eq_none.mp hl)
    · exact .inl (by simpa [Ne.symm hw] using ht)
  | deleteClose _ hm | deleteClr _ hm =>
    refine hf.mono (fun _ _ hl => hl) (fun y hy ht => ht.imp id ?_) rfl
    rintro ⟨sec, hs, hd⟩
    rw [hm] at hs
    cases hs
    exact ⟨_, rfl, hd⟩
  | @deleteErase w x c ans order hc hm =>
    refine hf.mono (fun _ _ hl => (lookup_erase_eq.mp hl).2) (fun y hy ht => ?_) rfl
    have hne : y ≠ x := (AList.mem_erase.mp hy).1
    refine ht.update hc (by simp) rfl fun sec hs hd => ?_
    rw [hm] at hs
    cases hs
    exact absurd (Option.some.inj hd).symm hne
  | bcastSend _ hm | finishClose _ hm =>
    refine hf.mono (fun _ _ hl => hl) (fun y hy ht => ht.imp id ?_) rfl
    rintro ⟨sec, hs, hd⟩
    rw [hm] at hs
    cases hs
    cases hd
  | finishEnd => exact ⟨by simp, hf.result⟩
  | bcastLock hc hm | finishLock hc hm =>
    exact hf.mono (fun _ _ hl => hl) (fun y _ ht => ht.update hc (by simp) rfl (by simp [hm])) rfl
  | bcastEnd hc hm | bcastFails hc hm =>
    exact hf.mono (fun _ _ hl => hl)
      (fun y _ ht => ht.update hc (by simp) rfl fun sec hs hd => by rw [hm] at hs; cases hs; cases hd) rfl
  | callApp hc | callCallback _ hc | sendFound hc | sendNone hc | send hc | infoFound hc | infoNone hc
  | finish hc | finishJoin hc | finishNoThread hc | finishSelf hc =>
    exact hf.mono (fun _ _ hl => hl) (fun y _ ht => ht.update hc (by simp) rfl fun _ hm _ => hm) rfl
  | _ => exact ⟨hf.client, by first | exact hf.result | simp⟩

/-! ### What `getClientInfo` reports -/

/-- `getClientInfo` reported every client connected. -/
def Reported (log : List Event) : Prop :=
  ∀ w h out, Event.getClientInfo w h true out ∈ log → out.connected = true

theorem Reported.record {log : List Event} (h : Reported log) {e : Event}
    (he : ∀ w x out, e = .getClientInfo w x true out → out.connected = true) : Reported (log ++ [e]) := by
  intro w x out hm
  rcases List.mem_append.mp hm with hm | hm
  · exact h w x out hm
  · exact he w x out (List.mem_singleton.mp hm).symm

/-- In sequential runs nobody sees a client that is being deleted by the server thread. -/
theorem InTurn.taskDeletes_alone {s : State} (hi : InTurn s) (ho : Orderly s) {h : ClientHandle}
    (ht : s.taskDeletes h) {w : Caller} (hw : w ≠ .serverTask) : s.calls w = .idle := by
  obtain ⟨r, hp⟩ : ∃ r, s.pc = .deleting r := by
    by_contra hp
    exact ho.not_taskDeletes (fun r hr => hp ⟨r, hr⟩) h ht
  cases w with
  | serverTask => exact absurd rfl hw
  | callback => exact ho.placed.callback_idle (by simp [hp])
  | app n =>
    by_contra hn
    exact absurd (hi.app n hn).2 (by simp [hp, Pc.isWaiting])

theorem Step.reported {s s' : State} {a : Action} (h : Step s a s') (ho : Orderly s) (hi : InTurn s)
    (hf : Flagged s) (hl : Reported s.os.log) : Reported s'.os.log := by
  have hns := ho.noStart
  cases h with
  | startNext hc | startFails hc | startWatch hc | startThread hc | startAborts hc =>
    exact absurd hc (hns _ _)
  | @infoFound w x out cl ans order hc hm hlookup =>
    refine hl.record fun w' x' out' he => ?_
    cases he
    rcases hf.client x cl hlookup with hcl | ht
    · exact hcl
    · by_cases hw : w = .serverTask
      · subst hw
        rcases ht with ht | ⟨sec, hs, -⟩
        · rw [hc] at ht; cases ht
        · rw [hm] at hs; cases hs
      · rw [hi.taskDeletes_alone ho ht hw] at hc
        cases hc
  | @publish r cb => exact hl.record (by cases cb <;> simp [Callback.event])
  | bcastSend => exact Client.sendMsg_log hl (fun _ _ _ _ => hl.record (by simp)) _ _ _
  | bcastFails | send =>
    exact (Client.sendMsg_log hl (fun _ _ _ _ => hl.record (by simp)) _ _ _).record (by simp)
  | finishEnd => exact (Os.closeValid_log hl fun _ => hl.record (by simp)).record (by simp)
  | _ => first | exact hl | exact hl.record (by simp)

theorem Initial.flagged {s : State} (h : Initial s) : Flagged s where
  client _ _ hl := by simp [h.clients] at hl
  result _ _ _ hp := by simp [h.pc] at hp

/-- **A client in the table is connected**, as long as no `Recv` fails: at the head of the loop of
the server thread every entry has its flag set, and in sequential runs `getClientInfo` never reports
a client that is not connected, so neither data is delivered nor a `Send` is issued after such a
report. -/
theorem clients_connected {s₀ s : State} (h₀ : Started s₀) :
    (machine.Reach Receives s₀ s → s.pc = .loopHead →
      ∀ h cl, s.clients.lookup h = some cl → cl.isConnected = true) ∧
    (machine.Reach SequentialReceives s₀ s →
      ∀ w h out, Event.getClientInfo w h true out ∈ s.os.log → out.connected = true) := by
  constructor
  · intro hr hp x cl hl
    have ha : ∀ s, machine.Reach Receives s₀ s → Account s := fun _ hr =>
      h₀.initial.account.reach (hr.mono fun _ _ hok => hok.1)
    have hf : Flagged s := Machine.Reach.invariant_of ha h₀.initial.flagged
      (fun _ _ _ hj hi hok hs => (Step.of_step hs).2.flagged hok.2 hj.orderly hi) hr
    exact (hf.client x cl hl).resolve_right ((ha s hr).orderly.not_taskDeletes (by simp [hp]) x)
  · intro hr
    have hs : ∀ s, machine.Reach SequentialReceives s₀ s → Settled s := fun _ hr =>
      h₀.initial.settled.reach (hr.mono fun _ _ hok => hok.1)
    have h₁ : Reported s₀.os.log := by
      intro w x out hm
      rcases h₀.initial.log _ hm with he | he <;> cases he
    exact (Machine.Reach.invariant_of (I := fun s => Flagged s ∧ Reported s.os.log) hs
      ⟨h₀.initial.flagged, h₁⟩ (fun _ _ _ hj hi hok hstep =>
        have ho := hj.account.orderly
        have hstep := (Step.of_step hstep).2
        ⟨hstep.flagged hok.2 ho hi.1, hstep.reported ho hj.inTurn hi.1 hi.2⟩) hr).2

/-- The client under `h` has its flag set, or cleared. -/
def Clients.flag (t : Clients) (h : ClientHandle) : Option Bool := (t.lookup h).map (·.isConnected)

theorem clients_connected_two_clients :
    (∃ s, machine.Reach Receives started s ∧ s.pc = .loopHead ∧ s.clients.flag 2 = some true) ∧
    ∃ s out, machine.Reach SequentialReceives started s ∧
      Event.getClientInfo .callback 2 true out ∈ s.os.log ∧ out.connected = true := by
  constructor
  · obtain ⟨s, hr, hp, hm⟩ : ∃ s, machine.Reach Receives started s ∧ s.pc = .loopHead ∧
        2 ∈ s.clients :=
      Machine.exists_reach (twoClients ++ selectActions [1] ++
        [.forStep, .forStep, .lookup, .recv (some []), .disconnect, go .serverTask, go .serverTask,
         go .serverTask, go .serverTask, .deleteReturns, .publish, .callbackReturns, .forStep, .forStep])
        (by decide)
    obtain ⟨cl, hl⟩ := lookup_eq_some_of_mem hm
    have := (clients_connected started_started).1 hr hp 2 cl hl
    exact ⟨s, hr, hp, by simp [Clients.flag, hl, this]⟩
  · obtain ⟨s, hr, hlog⟩ : ∃ s, machine.Reach SequentialReceives started s ∧
        ∃ e ∈ s.os.log, e = Event.getClientInfo .callback 2 true ⟨"0.0.0.0", 0, true⟩ :=
      Machine.exists_reach (twoClients ++ selectActions [1] ++
        [.forStep, .forStep, .lookup, .recv (some [7]), .publish,
         .call .callback (.getClientInfo 2 ⟨"", 0, false⟩), go .callback]) (by decide)
    obtain ⟨e, he, rfl⟩ := hlog
    exact ⟨s, _, hr, he, (clients_connected started_started).2 hr _ _ _ he⟩

/-- The `Recv` on client `1` fails: the client stays in the table, not connected. -/
theorem not_clients_connected :
    ¬ ∀ s₀ s, Started s₀ → machine.Reach Sequential s₀ s → s.pc = .loopHead →
      ∀ h cl, s.clients.lookup h = some cl → cl.isConnected = true := by
  intro hall
  obtain ⟨s, hr, hp, hflag⟩ : ∃ s, machine.Reach Sequential started s ∧ s.pc = .loopHead ∧
      s.clients.flag 1 = some false :=
    Machine.exists_reach (List.flatten [selectActions [0], acceptActions 1, [.forStep], selectActions [1],
      [.forStep, .forStep, .lookup, .recv none, .disconnect, .forStep]]) (by decide)
  obtain ⟨cl, hl, hcl⟩ := Option.map_eq_some_iff.mp hflag
  rw [hall started s started_started hr hp 1 cl hl] at hcl
  cases hcl

end SocketsCpp.TcpServer
