import SocketsCpp.TcpServer.Started

/-!
# Every connection is closed once

What `deleteClient` and `finish` do to the descriptors over whole runs, the server
thread accepting in the meantime.

* `Erased` — a connection is erased from the table at most once.
* `Finished` — after `finish` nothing is open, and nothing will be closed.
* `closed_exactly_once` — the account of a whole run.
-/

namespace SocketsCpp.TcpServer

open SocketsCpp.Library

/-- The actions of runs in which `finish` is called by one thread of the application. -/
def Action.concurrent : Action → Bool
  | .call (.app (_ + 1)) .finish => false
  | a => a.regular

theorem Action.regular_of_concurrent {a : Action} (h : a.concurrent = true) : a.regular = true := by
  unfold concurrent at h
  split at h
  · cases h
  · exact h

/-- Every interleaving, `finish` being called by one thread of the application. -/
def Concurrent (_ : State) (a : Action) : Prop := a.concurrent = true

instance (s : State) (a : Action) : Decidable (Concurrent s a) :=
  inferInstanceAs (Decidable (_ = true))

/-! ### Erasing -/

/-- A connection is erased from the table at most once. -/
structure Erased (log : List Event) (r : Registry) : Prop where
  /-- The connection of an entry was not erased. -/
  entry : ∀ {h d c}, r.entry h = some (d, c) → log.countP (Event.deletes c) = 0
  /-- The connection in hand was not erased. -/
  hand : ∀ {d c}, r.hand = some (d, c) → log.countP (Event.deletes c) = 0
  /-- A connection to come was not erased. -/
  new : ∀ {c}, r.next ≤ c → log.countP (Event.deletes c) = 0
  /-- No connection was erased twice. -/
  once : ∀ c, log.countP (Event.deletes c) ≤ 1

namespace Registry

/-- The connection of an entry had its entry before, or was in hand. -/
theorem Move.entry_of {r r' : Registry} (h : Move r r') {x : ClientHandle} {d : SOCKET} {c : ConnId}
    (hx : r'.entry x = some (d, c)) : r.entry x = some (d, c) ∨ r.hand = some (d, c) := by
  cases h with
  | @emplace d' c' hh =>
    by_cases hd : x = d'
    · subst hd
      simp only [Registry.emplace, Function.update_self] at hx
      exact .inr (hx ▸ hh)
    · exact .inl (by simpa [Registry.emplace, hd] using hx)
  | @erase h' c' =>
    by_cases hd : x = h'
    · subst hd; simp [Registry.erase] at hx
    · exact .inl (by simpa [Registry.erase, hd] using hx)
  | clear => cases hx
  | _ => exact .inl hx

/-- The connection in hand was in hand before, or is new. -/
theorem Move.hand_of {r r' : Registry} (h : Move r r') {d : SOCKET} {c : ConnId}
    (hx : r'.hand = some (d, c)) : r.hand = some (d, c) ∨ c = r.next := by
  cases h with
  | accept =>
    simp only [Registry.accept, Option.some.injEq, Prod.mk.injEq] at hx
    exact .inr hx.2.symm
  | emplace => cases hx
  | _ => exact .inl hx

theorem Move.next_le {r r' : Registry} (h : Move r r') : r.next ≤ r'.next := by
  cases h with
  | accept => exact Nat.le_succ _
  | _ => exact Nat.le_refl _

end Registry

theorem Erased.move {log : List Event} {r r' : Registry} (h : Erased log r)
    (hm : Registry.Move r r') : Erased log r' where
  entry hx := (hm.entry_of hx).elim h.entry h.hand
  hand hx := (hm.hand_of hx).elim h.hand fun hc => h.new (Nat.le_of_eq hc.symm)
  new hc := h.new (Nat.le_trans hm.next_le hc)
  once := h.once

theorem Erased.record {log : List Event} {r : Registry} (h : Erased log r) {e : Event}
    (he : ∀ c, e.deletes c = false) : Erased (log ++ [e]) r := by
  have hc : ∀ c, (log ++ [e]).countP (Event.deletes c) = log.countP (Event.deletes c) := by
    simp [List.countP_append, he]
  refine ⟨fun hx => ?_, fun hx => ?_, fun hx => ?_, fun c => ?_⟩ <;> rw [hc]
  · exact h.entry hx
  · exact h.hand hx
  · exact h.new hx
  · exact h.once c

/-- `deleteClient` erases an entry. -/
theorem Erased.erase {log : List Event} {r : Registry} (h : Erased log r) (hr : r.Ok)
    {w : Caller} {x : ClientHandle} {c : ConnId} (hc : r.closing = .closed x c) :
    Erased (log ++ [.deleteClient w x (some c)]) (r.erase x) := by
  obtain ⟨d, hx⟩ : ∃ d, r.entry x = some (d, c) := by
    have := hr.closable
    simpa [Registry.Closable, hc] using this
  have hcount : ∀ c', (log ++ [Event.deleteClient w x (some c)]).countP (Event.deletes c') =
      log.countP (Event.deletes c') + if c = c' then 1 else 0 := by
    intro c'
    by_cases hcc : c = c' <;> simp [List.countP_append, Event.deletes, hcc]
  refine ⟨fun {x' d' c'} hx' => ?_, fun {d' c'} hh => ?_, fun {c'} hn => ?_, fun c' => ?_⟩ <;>
    rw [hcount]
  · have hne : x' ≠ x := by rintro rfl; simp [Registry.erase] at hx'
    have hx'' : r.entry x' = some (d', c') := by simpa [Registry.erase, hne] using hx'
    have hcc : c ≠ c' := by rintro rfl; exact hne (hr.distinct hx'' hx)
    rw [if_neg hcc, h.entry hx'']
  · rw [if_neg (hr.hand_conn hh hx), h.hand hh]
  · have hcc : c ≠ c' := by rintro rfl; exact absurd (hr.lt hx) (Nat.not_lt.mpr hn)
    rw [if_neg hcc, h.new hn]
  · by_cases hcc : c = c'
    · subst hcc; rw [if_pos rfl, h.entry hx]
    · rw [if_neg hcc]; exact h.once c'

theorem Step.erased {s s' : State} {a : Action} (h : Step s a s') (ho : Orderly s) (hi : Owned s)
    (he : Erased s.os.log s.registry) : Erased s'.os.log s'.registry := by
  have hm := he.move (h.registry_move ho hi)
  have hns := ho.noStart
  cases h with
  | startNext hc | startFails hc | startWatch hc | startThread hc | startAborts hc =>
    exact absurd hc (hns _ _)
  | @deleteErase w x c _ _ hc hmu =>
    have := he.erase hi.reg (w := w) (x := x) (c := c) (by simp [State.registry, hmu, closingOf])
    simpa [State.registry, Registry.erase, closingOf, Clients.entry_erase] using this
  | @publish r cb => exact hm.record fun _ => by cases cb <;> rfl
  | bcastSend =>
    exact Client.sendMsg_log (P := fun l => Erased l _) hm (fun _ _ _ _ => hm.record fun _ => rfl) _ _ _
  | bcastFails | send =>
    exact (Client.sendMsg_log (P := fun l => Erased l _) hm
      (fun _ _ _ _ => hm.record fun _ => rfl) _ _ _).record fun _ => rfl
  | finishEnd =>
    exact (Os.closeValid_log (P := fun l => Erased l _) hm fun _ => hm.record fun _ => rfl).record
      fun _ => rfl
  | _ => first | exact hm | exact hm.record fun _ => rfl

/-- `emplace` always inserts. -/
def Inserted (log : List Event) : Prop := ∀ h, Event.emplace h false ∉ log

theorem Inserted.record {log : List Event} (h : Inserted log) {e : Event}
    (he : ∀ x, e ≠ .emplace x false) : Inserted (log ++ [e]) := by
  intro x hx
  rcases List.mem_append.mp hx with hx | hx
  · exact h x hx
  · exact he x (List.mem_singleton.mp hx).symm

theorem Step.inserted {s s' : State} {a : Action} (h : Step s a s') (ho : Orderly s) (hi : Owned s)
    (hl : Inserted s.os.log) : Inserted s'.os.log := by
  have hns := ho.noStart
  cases h with
  | startNext hc | startFails hc | startWatch hc | startThread hc | startAborts hc =>
    exact absurd hc (hns _ _)
  | emplace hp hm => exact hl.record (by simp [hi.emplace_fresh hp hm])
  | @publish r cb => exact hl.record (by cases cb <;> simp [Callback.event])
  | bcastSend => exact Client.sendMsg_log hl (fun _ _ _ _ => hl.record (by simp)) _ _ _
  | bcastFails | send =>
    exact (Client.sendMsg_log hl (fun _ _ _ _ => hl.record (by simp)) _ _ _).record (by simp)
  | finishEnd => exact (Os.closeValid_log hl fun _ => hl.record (by simp)).record (by simp)
  | _ => first | exact hl | exact hl.record (by simp)

/-! ### After `finish` -/

/-- A critical section with nothing left to do to a client. -/
def Section.harmless : Section → Prop
  | .bcast _ [] | .finishClose [] => True
  | _ => False

/-- The server after `finish`. -/
structure Finished (s : State) : Prop where
  /-- There are no clients. -/
  clients : s.clients = ∅
  /-- There is no listening socket. -/
  sockfd : s.sockfd = INVALID_SOCKET
  /-- Nothing is open. -/
  owner : ∀ d, s.os.owner d = none
  /-- The server thread was joined. -/
  thread : s.thread = false
  /-- Nothing is being closed. -/
  mutex : ∀ w sec, s.mutex = some (w, sec) → sec.harmless

/-- **After `finish` nothing changes**: it stays that way, and nothing is closed. -/
theorem Step.finished {s s' : State} {a : Action} (h : Step s a s') (ho : Orderly s)
    (hf : Finished s) :
    Finished s' ∧ s'.os.log.filter Event.isClose = s.os.log.filter Event.isClose := by
  have hns := ho.noStart
  have hpc := ho.shutdown.joined hf.thread
  have hserver : ∀ {p : Prop}, ¬ s.pc.stopped → p := fun h => absurd hpc h
  have hlookup : ∀ x, s.clients.lookup x = none := by simp [hf.clients]
  have hempty : ∀ {order : List ClientHandle}, order.Perm s.clients.keys → order = [] := by
    intro order hperm
    simpa [hf.clients] using hperm
  cases h with
  | startNext hc | startFails hc | startWatch hc | startThread hc | startAborts hc =>
    exact absurd hc (hns _ _)
  | deleteClose _ hm | deleteClr _ hm | deleteErase _ hm | bcastSend _ hm | bcastFails _ hm
  | finishClose _ hm => exact absurd (hf.mutex _ _ hm) (by simp [Section.harmless])
  | deleteFound _ _ hl | sendFound _ _ hl | infoFound _ _ hl => rw [hlookup] at hl; cases hl
  | bcastLock _ _ hperm =>
    refine ⟨⟨hf.clients, hf.sockfd, hf.owner, hf.thread, fun w sec hm => ?_⟩, rfl⟩
    cases hm
    simp [Section.harmless, hempty hperm]
  | finishLock _ _ hperm =>
    refine ⟨⟨hf.clients, hf.sockfd, hf.owner, hf.thread, fun w sec hm => ?_⟩, rfl⟩
    cases hm
    simp [Section.harmless, hempty hperm]
  | bcastEnd =>
    exact ⟨⟨hf.clients, hf.sockfd, hf.owner, hf.thread, by simp⟩, by simp [Event.isClose]⟩
  | finishEnd =>
    refine ⟨⟨rfl, rfl, ?_, hf.thread, by simp⟩, ?_⟩ <;>
      simp [Os.closeValid, hf.sockfd, hf.owner, Event.isClose]
  | finish | finishJoin | finishNoThread | finishSelf | callApp | callCallback =>
    exact ⟨⟨hf.clients, hf.sockfd, hf.owner, by first | rfl | exact hf.thread, hf.mutex⟩,
      by simp [Event.isClose]⟩
  | deleteNone | sendNone | infoNone =>
    exact ⟨⟨hf.clients, hf.sockfd, hf.owner, hf.thread, hf.mutex⟩, by simp [Event.isClose]⟩
  | send =>
    refine ⟨⟨hf.clients, hf.sockfd, by simpa using hf.owner, hf.thread, hf.mutex⟩, ?_⟩
    rw [State.ret, Os.record_log, List.filter_append]
    exact Client.sendMsg_log (P := fun l => l.filter Event.isClose ++ _ = s.os.log.filter Event.isClose)
      (by simp [Event.isClose]) (by simp [Event.isClose]) _ _ _
  | _ => exact hserver (by simp [Pc.stopped, *])

/-- `finish` returns only with everything closed. -/
theorem Step.finishEnd_finished {s s' : State} {a : Action} (h : Step s a s') (ho : Orderly s)
    (hi : Owned s) (hf : (∃ w, Event.finishEnd w ∈ s.os.log) → Finished s) :
    (∃ w, Event.finishEnd w ∈ s'.os.log) → Finished s' := by
  by_cases hw : ∃ w, Event.finishEnd w ∈ s.os.log
  · exact fun _ => (h.finished ho (hf hw)).1
  · rintro ⟨w, hw'⟩
    have hnot : Event.finishEnd w ∉ s.os.log := fun hm => hw ⟨w, hm⟩
    have hrec : ∀ e : Event, e ≠ .finishEnd w → Event.finishEnd w ∉ s.os.log ++ [e] := by
      intro e he hm
      simp [hnot, Ne.symm he] at hm
    have hns := ho.noStart
    cases h with
    | startNext hc | startFails hc | startWatch hc | startThread hc | startAborts hc =>
      exact absurd hc (hns _ _)
    | finishEnd _ hm =>
      have hc : s.registry.closing = .all [] := by simp [State.registry, hm, closingOf]
      have hown := hi.reg.clear_owner hc fun ho => hi.os.nonneg ho
      refine ⟨rfl, rfl, fun d => ?_, ho.shutdown.closing _ _ hm, by simp⟩
      have := hown d
      simp only [Registry.clear, State.registry] at this
      simp only [State.ret, Os.closeValid, Os.record_owner]
      split <;> simp_all
    | @publish r cb => exact absurd hw' (hrec _ (by cases cb <;> simp [Callback.event]))
    | bcastSend =>
      exact absurd hw' (Client.sendMsg_log (P := fun l => _ ∉ l) hnot (fun _ _ _ _ => hrec _ (by simp)) _ _ _)
    | bcastFails | send =>
      refine absurd hw' (Client.sendMsg_log (P := fun l => _ ∉ l ++ [_]) (hrec _ (by simp)) ?_ _ _ _)
      simp [hnot]
    | _ => first | exact absurd hw' hnot | exact absurd hw' (hrec _ (by simp))

/-! ### A whole run -/

/-- What is known of a server in the middle of a run. -/
structure Account (s : State) : Prop where
  /-- Everybody is in place. -/
  orderly : Orderly s
  /-- The descriptors are in order. -/
  owned : Owned s
  /-- Connections were erased once. -/
  erased : Erased s.os.log s.registry
  /-- Connections were always inserted. -/
  inserted : Inserted s.os.log
  /-- After `finish` everything is closed. -/
  finished : (∃ w, Event.finishEnd w ∈ s.os.log) → Finished s

theorem Initial.account {s : State} (h : Initial s) : Account s where
  orderly := h.orderly
  owned := h.owned
  erased := by
    have hc : ∀ c, s.os.log.countP (Event.deletes c) = 0 := by
      intro c
      refine List.countP_eq_zero.mpr fun e he => ?_
      rcases h.log e he with hs | rfl
      · cases e <;> simp [Event.deletes, Event.setup] at hs ⊢
      · simp [Event.deletes]
    exact ⟨fun _ => hc _, fun _ => hc _, fun _ => hc _, fun c => by rw [hc]; exact Nat.zero_le 1⟩
  inserted x hx := by rcases h.log _ hx with hs | hs <;> cases hs
  finished := by
    rintro ⟨w, hw⟩
    rcases h.log _ hw with hs | hs <;> cases hs

theorem Step.account {s s' : State} {a : Action} (h : Step s a s') (ha : a.regular = true)
    (hi : Account s) : Account s' :=
  ⟨h.orderly ha hi.orderly, h.owned hi.orderly hi.owned, h.erased hi.orderly hi.owned hi.erased,
    h.inserted hi.orderly hi.owned hi.inserted, h.finishEnd_finished hi.orderly hi.owned hi.finished⟩

theorem Account.reach {s₀ s : State} (h₀ : Account s₀) (h : machine.Reach Concurrent s₀ s) : Account s :=
  h.invariant h₀ fun _ _ _ hi ha hs => (Step.of_step hs).2.account (Action.regular_of_concurrent ha) hi

/-- Once `finish` has returned, nothing is closed any more. -/
theorem Finished.reach {s₀ s : State} (h₀ : Account s₀) (hf : Finished s₀)
    (h : machine.Reach Concurrent s₀ s) :
    s.os.log.filter Event.isClose = s₀.os.log.filter Event.isClose :=
  (Machine.Reach.invariant_of
    (I := fun s => Finished s ∧ s.os.log.filter Event.isClose = s₀.os.log.filter Event.isClose)
    (fun _ hr => h₀.reach hr) ⟨hf, rfl⟩
    (fun _ _ _ hj hi _ hs =>
      have hstep := (Step.of_step hs).2.finished hj.orderly hi.1
      ⟨hstep.1, hstep.2.trans hi.2⟩) h).2

/-- **Each connection is closed exactly once, in every interleaving.** `Close` is called on open
descriptors only, and on each at most once; `deleteClient` returns true for a connection at most
once; `emplace` always inserts. Once `finish` has returned, every descriptor ever given out was
closed exactly once, the table is empty, there is no listening socket, and nothing will be closed
any more. -/
theorem closed_exactly_once {s₀ s : State} (h₀ : Started s₀) (h : machine.Reach Concurrent s₀ s) :
    (∀ e ∈ s.os.log, e.closesNothing = false) ∧
    (∀ c, s.os.closes c ≤ 1) ∧
    (∀ c, s.os.log.countP (Event.deletes c) ≤ 1) ∧
    (∀ h, Event.emplace h false ∉ s.os.log) ∧
    ((∃ w, Event.finishEnd w ∈ s.os.log) →
      (∀ c, (∃ e ∈ s.os.log, e.gives c = true) → s.os.closes c = 1) ∧
      s.clients = ∅ ∧ s.sockfd = INVALID_SOCKET ∧
      ∀ s', machine.Reach Concurrent s s' →
        s'.os.log.filter Event.isClose = s.os.log.filter Event.isClose) := by
  have ha : Account s := h₀.initial.account.reach h
  refine ⟨ha.owned.os.honest, ha.owned.os.closes_le_one, ha.erased.once, ha.inserted, fun hw => ?_⟩
  have hf := ha.finished hw
  refine ⟨fun c hc => ?_, hf.clients, hf.sockfd, fun s' hs' => hf.reach ha hs'⟩
  refine ha.owned.os.closes_closed (ha.owned.os.given.mp hc) fun d hd => ?_
  rw [hf.owner] at hd
  cases hd

/-- Client `1` is deleted by the application; between its `Close` and its `erase` the number is
given out again. Then the application calls `finish`. -/
def recycledRun : List Action :=
  selectActions [0] ++ acceptActions 1 ++ [.forStep] ++ selectActions [0] ++ [.forStep, .lookup] ++
  [.call (.app 1) (.deleteClient 1), go (.app 1), go (.app 1), .accept (some (1, {})), go (.app 1),
   go (.app 1), .emplace, .fdSet, .publish, .callbackReturns, .forStep, .forStep,
   .call (.app 0) .finish, go (.app 0), .testStop, go (.app 0), .step (.app 0) {} [1], go (.app 0),
   go (.app 0)]

theorem closed_exactly_once_recycled :
    ∃ s, machine.Reach Concurrent started s ∧ (∃ w, Event.finishEnd w ∈ s.os.log) ∧
      s.os.closes 0 = 1 ∧ s.os.closes 1 = 1 ∧ s.os.closes 2 = 1 := by
  obtain ⟨s, hr, hend, hgiven⟩ : ∃ s, machine.Reach Concurrent started s ∧
      Event.finishEnd (.app 0) ∈ s.os.log ∧ ∀ c ∈ ([0, 1, 2] : List ℕ), ∃ e ∈ s.os.log, e.gives c = true :=
    Machine.exists_reach recycledRun (by decide)
  have hclosed := ((closed_exactly_once started_started hr).2.2.2.2 ⟨_, hend⟩).1
  exact ⟨s, hr, ⟨_, hend⟩, hclosed 0 (hgiven 0 (by simp)), hclosed 1 (hgiven 1 (by simp)),
    hclosed 2 (hgiven 2 (by simp))⟩

end SocketsCpp.TcpServer
