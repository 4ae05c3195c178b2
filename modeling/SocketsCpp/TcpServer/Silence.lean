import SocketsCpp.TcpServer.Callbacks
import SocketsCpp.Worker

/-!
# Deleted clients

Once a thread other than `serverTask` has deleted a client, the application does not expect to hear of it
until the number is given to a new one. `serverTask` looks a client up, receives from it and calls back in
separate steps, and does not look at what `deleteClient` returned; so a deletion between two of these
steps can be followed by a callback for the client deleted.

* `Silent` — no callback begins for a client that was deleted.
* `KeepsSilence` — no client is deleted between the steps that end in a callback for it.
* `deleteClient_silences` — in the runs that meet it every client deleted is silent.
-/

namespace SocketsCpp

open SocketsCpp.Library

/-! ### Histories -/

/-- `deleteClient(h)` returned true, `serverTask` not having called it. -/
def Event.silences (h : ClientHandle) : Event → Bool
  | .deleteClient w h' (some _) => h' = h && w ≠ .serverTask
  | _ => false

/-- `onClientConnect(h)` begins. -/
def Event.introduces (h : ClientHandle) : Event → Bool
  | .onClientConnect h' => h' = h
  | _ => false

/-- `onReceiveClientData(h, …)` or `onClientDisconnect(h, …)` begins. -/
def Event.speaks (h : ClientHandle) : Event → Bool
  | .onReceiveClientData h' _ | .onClientDisconnect h' _ => h' = h
  | _ => false

/-- An event of none of these kinds, for any client. -/
def Event.mum : Event → Bool
  | .deleteClient w _ (some _) => w = .serverTask
  | .onClientConnect _ | .onReceiveClientData _ _ | .onClientDisconnect _ _ => false
  | _ => true

theorem Event.of_mum {e : Event} (he : e.mum = true) (h : ClientHandle) :
    e.silences h = false ∧ e.introduces h = false ∧ e.speaks h = false := by
  cases e with
  | deleteClient w h' c => cases c <;> simp_all [Event.mum, Event.silences, Event.introduces, Event.speaks]
  | _ => first | exact ⟨rfl, rfl, rfl⟩ | cases he

/-- The client under `h` was deleted, and no new one was introduced since. -/
def silenced (h : ClientHandle) (log : List Event) : Bool :=
  (lastOf (fun e => e.silences h || e.introduces h) log).any (Event.silences h)

/-- A client that was deleted is silent until a new one is introduced. -/
def Silent (h : ClientHandle) (log : List Event) : Prop :=
  AtEach (Event.speaks h) (fun before => silenced h before = false) log

instance (h : ClientHandle) (log : List Event) : Decidable (Silent h log) :=
  inferInstanceAs (Decidable (AtEach _ _ _))

theorem silenced_append {h : ClientHandle} {log : List Event} {e : Event} :
    silenced h (log ++ [e]) = (e.silences h || (!e.introduces h && silenced h log)) := by
  unfold silenced
  rw [lastOf_append]
  cases hs : e.silences h <;> cases hi : e.introduces h <;> simp [hs]

theorem silenced_grows {h : ClientHandle} {log log' : List Event} (hg : Grows Event.mum log log') :
    silenced h log' = silenced h log := by
  unfold silenced
  rw [hg.lastOf_eq fun e he => by simp [(e.of_mum he h).1, (e.of_mum he h).2.1]]

namespace TcpServer

/-! ### What is about to be said -/

/-- A callback other than `onClientConnect` will follow for the client under `h`. -/
def Pc.tells (pc : Pc) (h : ClientHandle) : Bool :=
  match pc with
  | .disconnected r _ n => n = 0 && r.fd = h
  | .deleting r => r.fd = h
  | .publish _ (.data d _) | .publish _ (.disconnect d) => d = h
  | _ => false

/-- A thread other than `serverTask` erases a client of which a callback will follow. -/
def erasesTold (s : State) (a : Action) : Bool :=
  match a, s.mutex with
  | .step w _ _, some (w', .deleteErase h _) => w = w' && w ≠ .serverTask && s.pc.tells h
  | _, _ => false

/-- `Recv` returns bytes or the end of the connection for a client that was erased since the lookup. -/
def hearsErased (s : State) (a : Action) : Bool :=
  match a, s.pc with
  | .recv (some _), .recv r c => s.clients.conn r.fd ≠ some c
  | _, _ => false

/-- Every interleaving in which no client is erased by another thread between the lookup and the
callback that it ends in. -/
def KeepsSilence (s : State) (a : Action) : Prop :=
  Concurrent s a ∧ erasesTold s a = false ∧ hearsErased s a = false

instance (s : State) (a : Action) : Decidable (KeepsSilence s a) := inferInstanceAs (Decidable (_ ∧ _))

/-- Whoever was deleted is not heard of. -/
structure Hushed (s : State) : Prop where
  /-- No callback has begun for a client that was deleted. -/
  silent : ∀ h, Silent h s.os.log
  /-- The client is not in the table, unless a new one is about to be introduced. -/
  absent : ∀ h, silenced h s.os.log = true → h ∈ s.clients → s.pc.connecting h = true
  /-- No callback will follow for it. -/
  tells : ∀ h, silenced h s.os.log = true → s.pc.tells h = false

variable {s s' : State}

/-- A step that says nothing. -/
theorem Hushed.move (hi : Hushed s) (hlog : Grows Event.mum s.os.log s'.os.log)
    (hmem : ∀ h ∈ s'.clients, h ∈ s.clients)
    (hcon : ∀ h, s.pc.connecting h = true → s'.pc.connecting h = true)
    (htell : ∀ h, s'.pc.tells h = true → s.pc.tells h = true) : Hushed s' where
  silent h := (hi.silent h).grows hlog fun e he => (e.of_mum he h).2.2
  absent h hs hm := by
    rw [silenced_grows hlog] at hs
    exact hcon h (hi.absent h hs (hmem h hm))
  tells h hs := by
    rw [silenced_grows hlog] at hs
    have hold := hi.tells h hs
    by_contra hnew
    rw [htell h (by simpa using hnew)] at hold
    cases hold

/-- `Recv` returns for a client that is in the table. -/
theorem Hushed.recv (hi : Hushed s) {r : Round} {c : ConnId} (hp : s.pc = .recv r c)
    (hc : s.clients.conn r.fd = some c) (hlog : Grows Event.mum s.os.log s'.os.log)
    (hmem : s'.clients = s.clients) (htell : ∀ h, s'.pc.tells h = true → r.fd = h) : Hushed s' where
  silent h := (hi.silent h).grows hlog fun e he => (e.of_mum he h).2.2
  absent h hs hm := by
    rw [silenced_grows hlog] at hs
    rw [hmem] at hm
    have hcon := hi.absent h hs hm
    rw [hp] at hcon
    cases hcon
  tells h hs := by
    rw [silenced_grows hlog] at hs
    by_contra ht
    obtain rfl := htell h (by simpa using ht)
    have hcon := hi.absent r.fd hs (Clients.mem_of_conn hc)
    rw [hp] at hcon
    cases hcon

theorem Step.hushed {a : Action} (h : Step s a s') (hok : KeepsSilence s a) (ho : Orderly s)
    (hi : Hushed s) : Hushed s' := by
  have hns := ho.noStart
  cases h with
  | startNext hc | startFails hc | startWatch hc | startThread hc | startAborts hc =>
    exact absurd hc (hns _ _)
  | @recvEnd r c res hp hn =>
    cases res with
    | none =>
      exact hi.move (.one rfl) (fun _ => id) (by simp [hp, Pc.connecting]) (by simp [Pc.tells, numOfBytesReceived])
    | some bytes =>
      have hc : s.clients.conn r.fd = some c := by simpa [hearsErased, hp] using hok.2.2
      exact hi.recv hp hc (.one rfl) rfl (by simp [Pc.tells])
  | @recvData r c bytes hp =>
    have hc : s.clients.conn r.fd = some c := by simpa [hearsErased, hp] using hok.2.2
    exact hi.recv hp hc (.one rfl) rfl (by simp [Pc.tells])
  | @publish r cb hp =>
    refine ⟨fun x => AtEach.append_iff.mpr ⟨hi.silent x, fun hspeaks => ?_⟩, fun x hs hm => ?_, fun _ _ => rfl⟩
    · have ht : s.pc.tells x = true := by
        rw [hp]
        cases cb <;> simp_all [Callback.event, Event.speaks, Pc.tells]
      by_contra hs
      rw [hi.tells x (by simpa using hs)] at ht
      cases ht
    · -- the only client about to be introduced is introduced now
      simp only [Os.record_log, silenced_append] at hs
      cases cb with
      | connect h =>
        have hne : h ≠ x ∧ silenced x s.os.log = true := by
          simpa [Callback.event, Event.silences, Event.introduces] using hs
        have hcon := hi.absent x hne.2 hm
        rw [hp] at hcon
        exact absurd (of_decide_eq_true hcon) hne.1
      | _ =>
        have hcon := hi.absent x (by simpa [Callback.event, Event.silences, Event.introduces] using hs) hm
        rw [hp] at hcon
        cases hcon
  | @emplace r d c hp hm =>
    have hlog : Grows Event.mum s.os.log (s.os.record (.emplace d (decide (d ∉ s.clients)))).log := .one rfl
    refine ⟨fun x => (hi.silent x).append rfl, fun x hs hx => ?_, fun _ _ => rfl⟩
    rcases Clients.mem_emplace.mp hx with rfl | hx
    · simp [Pc.connecting]
    · rw [silenced_grows hlog] at hs
      have hcon := hi.absent x hs hx
      rw [hp] at hcon
      cases hcon
  | @deleteErase w x c _ _ hc hm =>
    have hsil : ∀ y, silenced y (s.os.log ++ [Event.deleteClient w x (some c)]) = true →
        (x = y ∧ w ≠ .serverTask) ∨ silenced y s.os.log = true := by
      intro y hs
      simpa [silenced_append, Event.silences, Event.introduces] using hs
    refine ⟨fun y => (hi.silent y).append rfl, fun y hs hy => ?_, fun y hs => ?_⟩
    · obtain ⟨hne, hy⟩ := AList.mem_erase.mp hy
      rcases hsil y hs with ⟨rfl, -⟩ | hs
      · exact absurd rfl hne
      · exact hi.absent y hs hy
    · rcases hsil y hs with ⟨rfl, hw⟩ | hs
      · simpa [erasesTold, hm, hw] using hok.2.1
      · exact hi.tells y hs
  | bcastSend =>
    exact hi.move (Client.sendMsg_grows (fun _ _ _ _ => rfl) _ _ _ _)
      (fun _ => id) (fun _ => id) fun _ => id
  | bcastFails | send =>
    exact hi.move (.append (Client.sendMsg_grows (fun _ _ _ _ => rfl) _ _ _ _) rfl) (fun _ => id) (fun _ => id)
      fun _ => id
  | finishEnd =>
    exact hi.move (.append (Os.closeValid_grows fun _ _ => rfl) rfl) (by simp) (fun _ => id) fun _ => id
  | deleteNone | infoFound | infoNone | sendNone | finish | finishJoin | deleteClose | deleteClr
  | finishClose | bcastEnd =>
    exact hi.move (.one rfl) (fun _ => id) (fun _ => id) fun _ => id
  | deleteFound | bcastLock | sendFound | finishNoThread | finishSelf | finishLock | callApp
  | callCallback =>
    exact hi.move .refl (fun _ => id) (fun _ => id) fun _ => id
  | _ =>
    exact hi.move (by first | exact .refl | exact .one rfl) (by simp) (by simp [Pc.connecting, *])
      (by simp [Pc.tells, *])

/-! ### Whole runs -/

/-- **A client that was deleted is silent**: in every interleaving in which no client is erased by another
thread between the lookup and the callback that it ends in, no callback begins for a client that was
deleted until a new one is introduced. -/
theorem deleteClient_silences {s₀ s : State} (h₀ : Started s₀) (h : machine.Reach KeepsSilence s₀ s)
    (x : ClientHandle) : Silent x s.os.log := by
  have hlog : Grows Event.mum [] s₀.os.log := .of_forall fun e he => by
    rcases h₀.initial.log e he with hs | rfl
    · cases e <;> first | rfl | cases hs
    · rfl
  have hinit : Hushed s₀ := by
    refine ⟨fun x => AtEach.nil.grows hlog fun e he => (e.of_mum he x).2.2, fun x _ hm => ?_, fun x _ => ?_⟩
    · simp [h₀.initial.clients] at hm
    · rw [h₀.initial.pc]
      rfl
  have hhushed : Hushed s := Machine.Reach.invariant_of
    (fun s hr => h₀.initial.account.reach (hr.mono fun _ _ hok => hok.1)) hinit
    (fun s a s' ha hi hok hs => (Step.of_step hs).2.hushed hok ha.orderly hi) h
  exact hhushed.silent x

/-- Client `1` is deleted, and the number is given to a new one, which is heard of. -/
theorem deleteClient_silences_recycled : ∃ s, machine.Reach KeepsSilence started s ∧
    .deleteClient (.app 1) 1 (some 1) ∈ s.os.log ∧ .onReceiveClientData 1 [7] ∈ s.os.log ∧
    Silent 1 s.os.log := by
  obtain ⟨s, hr, hd, hc⟩ : ∃ s, machine.Reach KeepsSilence started s ∧
      .deleteClient (.app 1) 1 (some 1) ∈ s.os.log ∧ .onReceiveClientData 1 [7] ∈ s.os.log :=
    Machine.exists_reach (List.flatten [selectActions [0], acceptActions 1, [.forStep], deleteActions (.app 1) 1,
      selectActions [0], acceptActions 1, [.forStep], selectActions [1],
      [.forStep, .forStep, .lookup, .recv (some [7]), .publish]]) (by decide)
  exact ⟨s, hr, hd, hc, deleteClient_silences started_started hr 1⟩

/-- Client `1` closes the connection; before `serverTask` deletes it the application does, and is called
back afterwards. -/
theorem not_deleteClient_silences :
    ¬ ∀ s₀ s, Started s₀ → machine.Reach Concurrent s₀ s → ∀ x, Silent x s.os.log := by
  intro hall
  obtain ⟨s, hr, hs⟩ : ∃ s, machine.Reach Concurrent started s ∧ ¬ Silent 1 s.os.log :=
    Machine.exists_reach (List.flatten [selectActions [0], acceptActions 1, [.forStep], selectActions [1],
      [.forStep, .forStep, .lookup, .recv (some []), .disconnect], deleteActions (.app 1) 1,
      [go .serverTask, .deleteReturns, .publish]]) (by decide)
  exact hs (hall started s started_started hr 1)

end TcpServer

end SocketsCpp
