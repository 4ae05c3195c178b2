import SocketsCpp.TcpServer.Registry
import SocketsCpp.TcpServer.Threads

/-!
# Ownership of descriptors

The registry of a state of the server, and what every interleaving keeps of it.
-/

namespace SocketsCpp.TcpServer

open SocketsCpp.Library

/-! ### The registry of a state -/

/-- The connection that the server thread has accepted and not yet emplaced. -/
def Pc.hand : Pc → Option (SOCKET × ConnId)
  | .emplace _ d c => some (d, c)
  | _ => Option.none

/-- What is being closed inside the critical section. -/
def closingOf : Option (Caller × Section) → Closing
  | some (_, .deleteClose h d c) => .found h d c
  | some (_, .deleteClr h _ c) => .closed h c
  | some (_, .deleteErase h c) => .closed h c
  | some (_, .finishClose rest) => .all rest
  | _ => .none

/-- The descriptor and the connection of the entry under a handle. -/
def Clients.entry (t : Clients) (h : ClientHandle) : Option (SOCKET × ConnId) :=
  (t.lookup h).map fun cl => (cl.sockfd, cl.conn)

/-- Who holds which descriptor in a state of the server. -/
def State.registry (s : State) : Registry where
  listen := s.sockfd
  entry := s.clients.entry
  owner := s.os.owner
  next := s.os.next
  hand := s.pc.hand
  closing := closingOf s.mutex

namespace Clients

theorem entry_eq_some {t : Clients} {h : ClientHandle} {cl : Client} (hl : t.lookup h = some cl) :
    t.entry h = some (cl.sockfd, cl.conn) := by
  simp [entry, hl]

theorem entry_ne_none {t : Clients} {h : ClientHandle} : t.entry h ≠ none ↔ h ∈ t := by
  rw [entry, Ne, Option.map_eq_none_iff, AList.lookup_eq_none, not_not]

theorem lookup_disconnect (t : Clients) (h h' : ClientHandle) (c : ConnId) :
    (t.disconnect h c).lookup h' =
      (t.lookup h').map fun cl => if h' = h ∧ cl.conn = c then { cl with isConnected := false } else cl :=
  lookup_mapValues _ _ _

@[simp] theorem entry_disconnect (t : Clients) (h : ClientHandle) (c : ConnId) :
    (t.disconnect h c).entry = t.entry := by
  funext h'
  rw [entry, lookup_disconnect, entry, Option.map_map]
  congr 1
  funext cl
  simp only [Function.comp]
  split <;> rfl

@[simp] theorem mem_disconnect {t : Clients} {h h' : ClientHandle} {c : ConnId} :
    h' ∈ t.disconnect h c ↔ h' ∈ t :=
  mem_mapValues

theorem lookup_emplace {t : Clients} {h : ClientHandle} (hn : h ∉ t) (cl : Client)
    (h' : ClientHandle) : (t.emplace h cl).lookup h' = if h' = h then some cl else t.lookup h' := by
  rw [emplace, if_neg hn]
  by_cases he : h' = h
  · subst he; simp
  · simp [he]

theorem entry_emplace {t : Clients} {h : ClientHandle} (hn : h ∉ t) (cl : Client) :
    (t.emplace h cl).entry = Function.update t.entry h (some (cl.sockfd, cl.conn)) := by
  funext h'
  rw [entry, lookup_emplace hn]
  by_cases he : h' = h
  · subst he; simp
  · simp [he, entry]

theorem mem_emplace {t : Clients} {h h' : ClientHandle} {cl : Client} :
    h' ∈ t.emplace h cl ↔ h' = h ∨ h' ∈ t := by
  unfold emplace
  split
  · next hm => exact ⟨.inr, fun ho => ho.elim (fun he => he ▸ hm) id⟩
  · exact AList.mem_insert t

theorem entry_erase (t : Clients) (h : ClientHandle) :
    entry (AList.erase h t) = Function.update t.entry h none := by
  funext h'
  by_cases he : h' = h
  · subst he; simp [entry]
  · simp [entry, he]

theorem entry_empty : entry ∅ = fun _ => none := by
  funext h
  simp [entry]

theorem conn_eq (t : Clients) (h : ClientHandle) : t.conn h = (t.entry h).map Prod.snd := by
  rw [conn, entry, Option.map_map]
  rfl

theorem conn_of_lookup {t : Clients} {h : ClientHandle} {cl : Client} (hl : t.lookup h = some cl) :
    t.conn h = some cl.conn := by
  simp [conn, hl]

theorem mem_of_conn {t : Clients} {h : ClientHandle} {c : ConnId} (hc : t.conn h = some c) : h ∈ t := by
  obtain ⟨cl, hl, -⟩ := Option.map_eq_some_iff.mp hc
  exact mem_of_lookup hl

@[simp] theorem conn_disconnect (t : Clients) (h : ClientHandle) (c : ConnId) :
    (t.disconnect h c).conn = t.conn := by
  funext h'
  rw [conn_eq, entry_disconnect, conn_eq]

theorem conn_emplace {t : Clients} {h : ClientHandle} (hn : h ∉ t) (cl : Client) :
    (t.emplace h cl).conn = Function.update t.conn h (some cl.conn) := by
  funext h'
  rw [conn_eq, entry_emplace hn]
  by_cases he : h' = h
  · subst he; simp
  · simp [he, conn_eq]

theorem conn_erase (t : Clients) (h : ClientHandle) :
    conn (AList.erase h t) = Function.update t.conn h none := by
  funext h'
  rw [conn_eq, entry_erase]
  by_cases he : h' = h
  · subst he; simp
  · simp [he, conn_eq]

end Clients

/-! ### `findMaxFd` -/

/-- The fold of `findMaxFd` is at least its start, and every descriptor on the way. -/
theorem le_foldl_max (es : List (Sigma fun _ : ClientHandle => Client)) : ∀ m : ℤ,
    m ≤ es.foldl (fun m e => max m e.2.sockfd) m ∧
      ∀ e ∈ es, e.2.sockfd ≤ es.foldl (fun m e => max m e.2.sockfd) m := by
  induction es with
  | nil => simp
  | cons e es ih =>
    intro m
    obtain ⟨hm, hes⟩ := ih (max m e.2.sockfd)
    simp only [List.foldl_cons, List.mem_cons, forall_eq_or_imp]
    exact ⟨Int.le_trans (Int.le_max_left _ _) hm, Int.le_trans (Int.le_max_right _ _) hm, hes⟩

/-- It is below any bound that they are below. -/
theorem foldl_max_lt {b : ℤ} (es : List (Sigma fun _ : ClientHandle => Client)) : ∀ m : ℤ, m < b →
    (∀ e ∈ es, e.2.sockfd < b) → es.foldl (fun m e => max m e.2.sockfd) m < b := by
  induction es with
  | nil => exact fun m hm _ => hm
  | cons e es ih =>
    intro m hm hes
    simp only [List.mem_cons, forall_eq_or_imp] at hes
    exact ih _ (Int.max_lt.mpr ⟨hm, hes.1⟩) hes.2

/-- `findMaxFd` stays within a bound of the listening socket and the clients. -/
theorem findMaxFd_le {b : ℤ} {sockfd : SOCKET} {t : Clients} (hs : sockfd < b)
    (ht : ∀ h cl, t.lookup h = some cl → cl.sockfd < b) : findMaxFd sockfd t ≤ b :=
  Int.add_one_le_of_lt (foldl_max_lt t.entries sockfd hs fun e he => ht e.1 e.2 (AList.mem_lookup_iff.mpr he))

theorem lt_findMaxFd {sockfd : SOCKET} {t : Clients} {h : ClientHandle} {cl : Client}
    (hl : t.lookup h = some cl) : cl.sockfd < findMaxFd sockfd t :=
  Int.lt_add_one_of_le ((le_foldl_max t.entries sockfd).2 _ (AList.mem_lookup_iff.mp hl))

theorem sockfd_lt_findMaxFd (sockfd : SOCKET) (t : Clients) : sockfd < findMaxFd sockfd t :=
  Int.lt_add_one_of_le (le_foldl_max t.entries sockfd).1

/-! ### Sending -/

theorem Client.sendMsg_os (cl : Client) (os : Os) (msg : List UInt8) (a : Answer) :
    (cl.sendMsg os msg a).1 = os ∨
      (cl.sendMsg os msg a).1 = os.record (.send cl.sockfd (os.owner cl.sockfd) msg a.ret) := by
  unfold Client.sendMsg
  split
  · right
    simp only
    split
    · rfl
    · split <;> rfl
  · left; rfl

@[simp] theorem Client.sendMsg_owner (cl : Client) (os : Os) (msg : List UInt8) (a : Answer) :
    (cl.sendMsg os msg a).1.owner = os.owner := by
  rcases cl.sendMsg_os os msg a with h | h <;> rw [h]; rfl

@[simp] theorem Client.sendMsg_next (cl : Client) (os : Os) (msg : List UInt8) (a : Answer) :
    (cl.sendMsg os msg a).1.next = os.next := by
  rcases cl.sendMsg_os os msg a with h | h <;> rw [h]; rfl

/-- What is kept by a call of `Send` is kept by `sendMsg`. -/
theorem Client.sendMsg_log {P : List Event → Prop} {os : Os} (h : P os.log)
    (hs : ∀ d c m r, P (os.log ++ [.send d c m r])) (cl : Client) (msg : List UInt8) (a : Answer) :
    P (cl.sendMsg os msg a).1.log := by
  rcases cl.sendMsg_os os msg a with he | he <;> rw [he]
  · exact h
  · exact hs _ _ _ _

/-- What `sendMsg` logs. -/
theorem Client.sendMsg_grows {p : Event → Bool} (h : ∀ d c m r, p (.send d c m r) = true) (cl : Client)
    (os : Os) (msg : List UInt8) (a : Answer) : Grows p os.log (cl.sendMsg os msg a).1.log :=
  Client.sendMsg_log (P := Grows p os.log) .refl (fun _ _ _ _ => .one (h _ _ _ _)) cl msg a

theorem Client.sendMsg_sound {os : Os} (h : os.Sound) (cl : Client) (msg : List UInt8) (a : Answer) :
    (cl.sendMsg os msg a).1.Sound := by
  rcases cl.sendMsg_os os msg a with he | he <;> rw [he]
  · exact h
  · exact h.record rfl

/-! ### What every interleaving keeps -/

/-- The descriptors are in order. -/
structure Owned (s : State) : Prop where
  /-- The operating system. -/
  os : s.os.Sound
  /-- Who holds which descriptor. -/
  reg : s.registry.Ok
  /-- `FD_CLR` is called on the descriptor under which the client is stored. -/
  clr : ∀ w h d c, s.mutex = some (w, .deleteClr h d c) → d = h
  /-- While the thread is joinable there is a listening socket. -/
  listening : s.thread = true → s.sockfd ≠ INVALID_SOCKET

/-- While the server thread runs, `finish` is not closing the clients. -/
theorem Orderly.not_closing {s : State} (h : Orderly s) (hp : ¬ s.pc.stopped)
    (rest : List ClientHandle) : s.registry.closing ≠ .all rest := by
  intro hc
  have hm : ∃ w, s.mutex = some (w, .finishClose rest) := by
    revert hc
    unfold State.registry closingOf
    split <;> simp_all
  obtain ⟨w, hm⟩ := hm
  exact hp (h.shutdown.joined (h.shutdown.closing w rest hm))

/-- **A fresh connection finds no entry under its descriptor.** -/
theorem Owned.emplace_fresh {s : State} (hi : Owned s) {r : Round} {d : SOCKET} {c : ConnId}
    (hp : s.pc = .emplace r d c) (hm : s.mutex = none) : d ∉ s.clients := by
  have hh : s.registry.hand = some (d, c) := by simp [State.registry, hp, Pc.hand]
  have hc : s.registry.closing = .none := by simp [State.registry, hm, closingOf]
  intro hd
  obtain ⟨x, hx⟩ := Option.ne_none_iff_exists'.mp (Clients.entry_ne_none.mpr hd)
  have hdead := hi.reg.hand_dead hh hx
  simp [Registry.Dead, hc] at hdead

theorem Step.registry_move {s s' : State} {a : Action} (h : Step s a s') (ho : Orderly s)
    (hi : Owned s) : Registry.Move s.registry s'.registry := by
  have hns := ho.noStart
  have hr := hi.reg
  cases h with
  | startNext hc | startFails hc | startWatch hc | startThread hc | startAborts hc =>
    exact absurd hc (hns _ _)
  | accept hp hd =>
    exact .accept (by simp [State.registry, hp, Pc.hand]) hd.1 hd.2
      (ho.not_closing (by simp [Pc.stopped, hp]))
  | @emplace r d c hp hm =>
    have hh : s.registry.hand = some (d, c) := by simp [State.registry, hp, Pc.hand]
    have hc : s.registry.closing = .none := by simp [State.registry, hm, closingOf]
    have hn := hi.emplace_fresh hp hm
    have := Registry.Move.emplace hh hc
    simpa [State.registry, Registry.emplace, Pc.hand, Clients.entry_emplace hn] using this
  | deleteFound hc hm hl =>
    have hf : s.registry.closing = .none := by simp [State.registry, hm, closingOf]
    have := Registry.Move.find hf (Clients.entry_eq_some hl)
    simpa [State.registry, Registry.find, closingOf] using this
  | @deleteClose w h d c _ _ hc hm =>
    have hf : s.registry.closing = .found h d c := by simp [State.registry, hm, closingOf]
    obtain ⟨rfl, -⟩ := hr.found hf
    have := Registry.Move.close hf
    simpa [State.registry, Registry.close, closingOf] using this
  | deleteClr hc hm => exact .of_eq (by simp [State.registry, hm, closingOf])
  | @deleteErase w h c _ _ hc hm =>
    have hf : s.registry.closing = .closed h c := by simp [State.registry, hm, closingOf]
    have := Registry.Move.erase hf
    simpa [State.registry, Registry.erase, closingOf, Clients.entry_erase] using this
  | bcastLock _ hm | bcastEnd _ hm | bcastSend _ hm | bcastFails _ hm =>
    exact .of_eq (by simp [State.registry, hm, closingOf])
  | @finishLock w _ order hc hm hperm =>
    have hstop : s.pc.hand = none := by
      rcases ho.shutdown.joined (ho.shutdown.lock w hc) with h | h <;> simp [h, Pc.hand]
    have hkeys : ∀ h, h ∈ order ↔ s.clients.entry h ≠ none := fun h => by
      rw [hperm.mem_iff, Clients.entry_ne_none, AList.mem_keys]
    have hf : s.registry.closing = .none := by simp [State.registry, hm, closingOf]
    have := Registry.Move.closeAll hf hstop
      (hperm.nodup_iff.mpr s.clients.nodupKeys) hkeys
    simpa [State.registry, Registry.closeAll, closingOf] using this
  | @finishClose w h rest cl _ _ hc hm hl =>
    have hf : s.registry.closing = .all (h :: rest) := by simp [State.registry, hm, closingOf]
    have hd : cl.sockfd = h := hr.key (Clients.entry_eq_some hl)
    have := Registry.Move.closeNext hf
    simpa [State.registry, Registry.closeNext, closingOf, hd] using this
  | finishEnd hc hm =>
    have hf : s.registry.closing = .all [] := by simp [State.registry, hm, closingOf]
    have := Registry.Move.clear hf
    by_cases hs : s.sockfd = INVALID_SOCKET <;>
      simpa [State.registry, Registry.clear, closingOf, Os.closeValid, hs, Clients.entry_empty] using this
  | _ => exact .of_eq (by simp [State.registry, Pc.hand, *])

theorem Owned.key {s : State} (hi : Owned s) {h : ClientHandle} {cl : Client}
    (hl : s.clients.lookup h = some cl) : cl.sockfd = h :=
  hi.reg.key (Clients.entry_eq_some hl)

theorem Step.sound {s s' : State} {a : Action} (h : Step s a s') (ho : Orderly s) (hi : Owned s) :
    s'.os.Sound := by
  have hns := ho.noStart
  have hos := hi.os
  cases h with
  | startNext hc | startFails hc | startWatch hc | startThread hc | startAborts hc =>
    exact absurd hc (hns _ _)
  | accept _ hd => exact hos.accept hd
  | @publish r cb => exact hos.record (by cases cb <;> rfl)
  | @deleteClose w h d c _ _ hc hm =>
    have hf : s.registry.closing = .found h d c := by simp [State.registry, hm, closingOf]
    obtain ⟨rfl, hown⟩ := hi.reg.found hf
    exact hos.close hown
  | bcastSend => exact Client.sendMsg_sound hos _ _ _
  | bcastFails => exact (Client.sendMsg_sound hos _ _ _).record rfl
  | send => exact (Client.sendMsg_sound hos _ _ _).record rfl
  | @finishClose w h rest cl _ _ hc hm hl =>
    have hdead : ¬ s.registry.Dead h := by simp [Registry.Dead, State.registry, hm, closingOf]
    have hown : s.os.owner h = some cl.conn := hi.reg.live (Clients.entry_eq_some hl) hdead
    rw [← hi.key hl] at hown
    exact hos.close hown
  | finishEnd hc hm =>
    exact (hos.closeValid hi.reg.listening).record rfl
  | _ => first | exact hos | exact hos.record rfl

theorem Step.owned {s s' : State} {a : Action} (h : Step s a s') (ho : Orderly s) (hi : Owned s) :
    Owned s' where
  os := h.sound ho hi
  reg := (h.registry_move ho hi).ok hi.reg fun hown => ⟨hi.os.lt hown, hi.os.nonneg hown⟩
  clr := by
    have hns := ho.noStart
    cases h with
    | startNext hc | startFails hc | startWatch hc | startThread hc | startAborts hc =>
      exact absurd hc (hns _ _)
    | @deleteClose w h d c _ _ hc hm =>
      intro w' h' d' c' he
      have hf : s.registry.closing = .found h d c := by simp [State.registry, hm, closingOf]
      cases he
      exact (hi.reg.found hf).1
    | _ => first | exact hi.clr | simp
  listening := by
    have hns := ho.noStart
    cases h with
    | startNext hc | startFails hc | startWatch hc | startThread hc | startAborts hc =>
      exact absurd hc (hns _ _)
    | finishJoin => intro ht; cases ht
    | finishEnd _ hm =>
      intro ht
      exact absurd ((ho.shutdown.closing _ _ hm).symm.trans ht) (by decide)
    | _ => exact hi.listening

/-- The entry of a client that is not being deleted is of the connection open under its handle. -/
theorem Owned.live {s : State} (hi : Owned s) (hm : s.mutex = none) {h : ClientHandle} {cl : Client}
    (hl : s.clients.lookup h = some cl) : s.os.owner h = some cl.conn :=
  hi.reg.live (Clients.entry_eq_some hl) (by simp [Registry.Dead, State.registry, hm, closingOf])

end SocketsCpp.TcpServer
