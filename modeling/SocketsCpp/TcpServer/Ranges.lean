import SocketsCpp.TcpServer.Lifecycle
import SocketsCpp.DescriptorSets

/-!
# The descriptor set of the server

The server keeps its set in `m_fds`: `start` puts the listening socket in it, the server thread each
client that it accepts, and `deleteClient` takes a client out. The server thread goes through a copy,
testing every number below `findMaxFd()`.

* `Pc.Bounded` — the server thread tests numbers below `FD_SETSIZE`.
* `Fitting` — the condition on the steps.
* `Step.ranged` — one step; `ranged_of_fitting` — every run whose steps meet the condition.
-/

namespace SocketsCpp.TcpServer

open SocketsCpp.Library

/-! ### The condition -/

/-- What an action of `start` stores to `m_sockfd`. -/
def startStores (s : State) : Action → Option SOCKET
  | .step w a _ => match s.calls w with
    | .start (i :: _) => i.op.stored a
    | _ => none
  | _ => none

/-- What `Accept` returns. -/
def accepted : Action → Option SOCKET
  | .accept res => res.map Prod.fst
  | _ => none

/-- The instructions left of `start`. -/
def CallPc.instrs : CallPc → Option (List Instr)
  | .start rest => some rest
  | _ => none

/-- The calls of `start`. -/
def State.starts (s : State) : Caller → Option (List Instr) := fun w => (s.calls w).instrs

/-- The condition on the steps. -/
structure Fitting (s : State) (a : Action) : Prop where
  /-- `Socket` returns a number below `FD_SETSIZE`. -/
  small : ∀ d ∈ startStores s a, d < FD_SETSIZE
  /-- So does `Accept`. -/
  accept : ∀ d ∈ accepted a, d < FD_SETSIZE
  /-- `m_sockfd` is made invalid only when no other call of `start` is past its `Socket`. -/
  unheld : ∀ w ans order, a = .step w ans order →
    (startStores s a = some INVALID_SOCKET ∨ s.mutex = some (w, .finishClose [])) →
      ∀ w' rest, w' ≠ w → s.starts w' = some rest → Opens rest

/-! ### What a run keeps -/

/-- The loop over the descriptors stays below `FD_SETSIZE`. -/
def Round.Bounded (r : Round) : Prop := 0 ≤ r.fd ∧ r.maxfds ≤ FD_SETSIZE

/-- The server thread stays below `FD_SETSIZE`, and the client that it brings in fits. -/
def Pc.Bounded : Pc → Prop
  | .select _ maxfds | .waiting _ maxfds _ => maxfds ≤ FD_SETSIZE
  | .forHead r | .lookup r | .recv r _ | .disconnected r _ _ | .deleting r | .publish r _ | .callback r _
  | .accept r => r.Bounded
  | .emplace r d _ | .fdSet r d => r.Bounded ∧ Fits d
  | _ => True

/-- What a run keeps. -/
structure Ranged (s : State) : Prop where
  /-- The number in `m_sockfd` is below `FD_SETSIZE`. -/
  small : s.sockfd < FD_SETSIZE
  /-- The descriptors of the clients fit. -/
  clients : ∀ h cl, s.clients.lookup h = some cl → Fits cl.sockfd
  /-- The server thread. -/
  pc : s.pc.Bounded
  /-- The descriptor of a client that is being deleted. -/
  deleting : ∀ w h d c, s.mutex = some (w, .deleteClose h d c) ∨ s.mutex = some (w, .deleteClr h d c) → Fits d
  /-- The calls of `start` hold their descriptors. -/
  held : Held s.starts s.sockfd
  /-- The log. -/
  log : ∀ e ∈ s.os.log, e.fits = true

theorem Round.Bounded.next {r : Round} (h : r.Bounded) : r.next.Bounded :=
  ⟨Int.le_trans h.1 (Int.le_add_of_nonneg_right (by decide)), h.2⟩

theorem Round.Bounded.fits {r : Round} (h : r.Bounded) (hlt : r.fd < r.maxfds) : Fits r.fd :=
  ⟨h.1, Int.lt_of_lt_of_le hlt h.2⟩

theorem starts_eq {s : State} {w : Caller} {rest : List Instr} (h : s.calls w = .start rest) :
    s.starts w = some rest := by
  simp [State.starts, CallPc.instrs, h]

theorem starts_update {s s' : State} {w : Caller} {q : CallPc}
    (h : s'.calls = Function.update s.calls w q) : s'.starts = Function.update s.starts w q.instrs := by
  unfold State.starts
  rw [h]
  exact Function.comp_update CallPc.instrs s.calls w q

section

variable {s s' : State} {a : Action}

theorem startStores_eq {w : Caller} {i : Instr} {rest : List Instr} {ans : Answer}
    {order : List ClientHandle} (hc : s.calls w = .start (i :: rest)) :
    startStores s (.step w ans order) = i.op.stored ans := by
  simp [startStores, hc]

/-- The server thread. -/
theorem Step.pc_bounded (h : Step s a s') (hok : Fitting s a) (hi : Ranged s) : s'.pc.Bounded := by
  have hpc := hi.pc
  cases h with
  | findMaxFd hp => exact findMaxFd_le hi.small fun h cl hl => (hi.clients h cl hl).2
  | selectReady hp => rw [hp] at hpc; exact ⟨Int.le_refl 0, hpc⟩
  | forSkip hp | disconnectError hp | callbackReturns hp | acceptFails hp =>
    rw [hp] at hpc; exact Round.Bounded.next hpc
  | accept hp hd => rw [hp] at hpc; exact ⟨hpc, hd.1, hok.accept _ rfl⟩
  | emplace hp => rw [hp] at hpc; exact hpc
  | fdSet hp => rw [hp] at hpc; exact hpc.1
  | testStop | taskReturns | copyFds | selectFails | forEnd | startThread => exact trivial
  | select hp | forReady hp | lookupClient hp | lookupNone hp | recvEnd hp | recvData hp
  | disconnectEof hp | deleteReturns hp | publish hp => rw [hp] at hpc; exact hpc
  | _ => exact hpc

/-- What a step logs fits. -/
theorem Step.fits (h : Step s a s') (hok : Fitting s a) (hi : Ranged s) :
    Grows Event.fits s.os.log s'.os.log := by
  have hpc := hi.pc
  cases h with
  | forReady hp hlt | forSkip hp hlt =>
    rw [hp] at hpc; exact .one (fits_access (Round.Bounded.fits hpc hlt)).2.2
  | accept hp hd => exact .one (fits_accept ⟨hd.1, hok.accept _ rfl⟩)
  | fdSet hp => rw [hp] at hpc; exact .one (fits_access hpc.2).1
  | deleteClr _ hm => exact .one (fits_access (hi.deleting _ _ _ _ (.inr hm))).2.1
  | startWatch hc hop => exact .one (fits_access ⟨(hi.held _ _ (starts_eq hc)).nonneg (.inr hop), hi.small⟩).1
  | startNext hc _ _ hadm => exact Op.exec_fits _ hadm (startStores_eq hc ▸ hok.small)
  | startFails hc _ _ hadm => exact .append (Op.exec_fits _ hadm (startStores_eq hc ▸ hok.small)) rfl
  | publish =>
    refine .one ?_
    cases ‹Callback› <;> rfl
  | bcastSend => exact Client.sendMsg_grows (fun _ _ _ _ => rfl) _ _ _ _
  | bcastFails | send => exact .append (Client.sendMsg_grows (fun _ _ _ _ => rfl) _ _ _ _) rfl
  | finishEnd => exact .append (Os.closeValid_grows fun _ _ => rfl) rfl
  | _ => first | exact .refl | exact .one rfl

/-- The descriptors of the clients fit. -/
theorem Step.clients_fit (h : Step s a s') (hi : Ranged s) :
    ∀ h cl, s'.clients.lookup h = some cl → Fits cl.sockfd := by
  cases h with
  | @emplace r d c hp =>
    intro h cl hl
    have hpc := hi.pc
    rw [hp] at hpc
    by_cases hd : d ∈ s.clients
    · exact hi.clients h cl (by simpa [Clients.emplace, hd] using hl)
    · rw [Clients.lookup_emplace hd] at hl
      split at hl
      · cases hl
        exact hpc.2
      · exact hi.clients h cl hl
  | disconnectEof | disconnectError =>
    intro h cl hl
    obtain ⟨cl', hl', rfl⟩ := Option.map_eq_some_iff.mp ((Clients.lookup_disconnect _ _ _ _).symm.trans hl)
    have hcl := hi.clients h cl' hl'
    split <;> exact hcl
  | deleteErase => exact fun h cl hl => hi.clients h cl (lookup_erase_eq.mp hl).2
  | finishEnd => simp
  | _ => exact hi.clients

/-- The descriptor of a client that is being deleted fits. -/
theorem Step.deleting_fits (h : Step s a s') (hi : Ranged s) :
    ∀ w h d c, s'.mutex = some (w, .deleteClose h d c) ∨ s'.mutex = some (w, .deleteClr h d c) →
      Fits d := by
  cases h with
  | @deleteFound w h cl _ _ _ _ hl =>
    rintro w' h' d' c' (he | he)
    · cases he
      exact hi.clients h cl hl
    · cases he
  | deleteClose _ hm =>
    rintro w' h' d' c' (he | he)
    · cases he
    · cases he
      exact hi.deleting _ _ _ _ (.inl hm)
  | deleteClr | deleteErase | bcastLock | bcastEnd | bcastSend | bcastFails | finishLock | finishClose
  | finishEnd => simp
  | _ => exact hi.deleting

/-- What an operation stores is a descriptor, if another call holds one. -/
theorem Fitting.exec {w : Caller} {i : Instr} {rest : List Instr} {ans : Answer}
    {order : List ClientHandle} (hok : Fitting s (.step w ans order)) (hc : s.calls w = .start (i :: rest))
    (hadm : i.op.Admissible ans s.os) :
    (i.op.exec ans s.toEndpoint s.os).1.sockfd = s.sockfd ∨
      0 ≤ (i.op.exec ans s.toEndpoint s.os).1.sockfd ∨
      ∀ w' rest, w' ≠ w → s.starts w' = some rest → Opens rest := by
  rcases Op.exec_sockfd_cases hadm s.toEndpoint with ⟨-, hfd⟩ | h0 | ⟨hst, -⟩
  · exact .inl hfd
  · exact .inr (.inl h0)
  · exact .inr (.inr (hok.unheld w ans order rfl (.inl ((startStores_eq hc).trans hst))))

/-- The calls of `start` hold their descriptors. -/
theorem Step.held (h : Step s a s') (hok : Fitting s a) (hi : Ranged s) : Held s'.starts s'.sockfd := by
  cases h with
  | @callApp n c | @callCallback _ _ c =>
    rw [starts_update (s := s) (q := c.begin) rfl]
    refine hi.held.update (.inl rfl) fun rest hr => .inl ?_
    cases c <;> cases hr
    exact opens_startScript _
  | @startNext w i rest ans order hc _ _ hadm hf =>
    rw [starts_update (s := s) (w := w) (q := .start rest) rfl]
    refine hi.held.update (hok.exec hc hadm) ?_
    rintro rest' hr
    cases hr
    exact (hi.held _ _ (starts_eq hc)).next hadm hf
  | @startFails w i rest ans order hc _ _ hadm hf =>
    rw [starts_update (s := s) (w := w) (q := .idle) rfl]
    exact hi.held.update (hok.exec hc hadm) (by simp [CallPc.instrs])
  | @startWatch w i rest ans order hc hop =>
    rw [starts_update (s := s) (w := w) (q := .start rest) rfl]
    refine hi.held.update (.inl rfl) ?_
    rintro rest' hr
    cases hr
    exact (hi.held _ _ (starts_eq hc)).tail (.inr hop)
  | @finishEnd w ans order hc hm =>
    rw [starts_update (s := s) (w := w) (q := .idle) rfl]
    exact hi.held.update (.inr (.inr (hok.unheld w ans order rfl (.inr hm)))) (by simp [CallPc.instrs])
  | disconnectEof | startThread | deleteFound | deleteNone | deleteErase | bcastLock | bcastEnd | bcastFails
  | sendFound | sendNone | send | infoFound | infoNone | finish | finishJoin | finishNoThread | finishSelf
  | finishLock =>
    rw [starts_update (s := s) rfl]
    exact hi.held.update (.inl rfl) (by simp [CallPc.instrs])
  | _ => exact hi.held

/-- **A step** that meets the condition. -/
theorem Step.ranged (h : Step s a s') (hok : Fitting s a) (hi : Ranged s) : Ranged s' where
  small := by
    cases h with
    | startNext hc | startFails hc =>
      exact Op.exec_sockfd_lt s.os hi.small (startStores_eq hc ▸ hok.small)
    | finishEnd => exact (by decide : INVALID_SOCKET < FD_SETSIZE)
    | _ => exact hi.small
  clients := h.clients_fit hi
  pc := h.pc_bounded hok hi
  deleting := h.deleting_fits hi
  held := h.held hok hi
  log e he := ((h.fits hok hi).mem he).elim (hi.log e) id

end

theorem Ranged.fresh (options : SocketOpt) (msg : List UInt8) : Ranged (fresh options msg) where
  small := (by decide : INVALID_SOCKET < FD_SETSIZE)
  clients := by simp [TcpServer.fresh]
  pc := trivial
  deleting := by simp [TcpServer.fresh]
  held := nofun
  log := nofun

/-- **Every run whose steps meet the condition.** -/
theorem ranged_of_fitting {options : SocketOpt} {msg : List UInt8} {s : State}
    (h : machine.Reach Fitting (fresh options msg) s) : Ranged s :=
  h.invariant (.fresh options msg) fun _ _ _ hi hok hs => (Step.of_step hs).2.ranged hok hi

/-! ### One thread -/

/-- One thread of the application makes the calls. -/
def solo : Action → Bool
  | .call w _ | .step w _ _ => w = .app 0
  | _ => true

/-- What there is to see of the condition at a step, one thread making the calls. -/
def FitsAlone (s : State) (a : Action) : Prop :=
  solo a = true ∧ (∀ d ∈ startStores s a, d < FD_SETSIZE) ∧ ∀ d ∈ accepted a, d < FD_SETSIZE

instance (s : State) (a : Action) : Decidable (FitsAlone s a) :=
  inferInstanceAs (Decidable (_ ∧ (∀ _ ∈ _, _) ∧ ∀ _ ∈ _, _))

/-- No other thread calls `start`. -/
def OneStarter (s : State) : Prop := ∀ w, w ≠ .app 0 → s.starts w = none

theorem OneStarter.update {s s' : State} {w : Caller} {q : CallPc} (h : OneStarter s)
    (hcalls : s'.calls = Function.update s.calls w q) (hq : w = .app 0 ∨ q.instrs = none) :
    OneStarter s' := by
  intro w' hw'
  rw [starts_update hcalls]
  by_cases hw : w' = w
  · subst hw
    rw [Function.update_self]
    exact hq.resolve_left hw'
  · rw [Function.update_of_ne hw]
    exact h w' hw'

theorem Step.oneStarter {s s' : State} {a : Action} (h : Step s a s') (ha : solo a = true)
    (hi : OneStarter s) : OneStarter s' := by
  cases h with
  | callApp | callCallback | startNext | startFails | startWatch | startThread =>
    exact hi.update rfl (.inl (of_decide_eq_true ha))
  | disconnectEof | deleteFound | deleteNone | deleteErase | bcastLock | bcastEnd | bcastFails | sendFound
  | sendNone | send | infoFound | infoNone | finish | finishJoin | finishNoThread | finishSelf | finishLock
  | finishEnd => exact hi.update rfl (.inr rfl)
  | _ => exact hi

theorem OneStarter.fitting {s : State} {a : Action} (hi : OneStarter s) (ha : FitsAlone s a) :
    Fitting s a := by
  obtain ⟨hsolo, hsmall, hacc⟩ := ha
  refine ⟨hsmall, hacc, ?_⟩
  rintro w ans order rfl - w' rest hw hs
  have happ : w = .app 0 := of_decide_eq_true hsolo
  rw [hi w' (happ ▸ hw)] at hs
  cases hs

/-- The runs in which one thread makes the calls. -/
theorem reach_fitting {options : SocketOpt} {msg : List UInt8} {s : State}
    (h : machine.Reach FitsAlone (fresh options msg) s) : machine.Reach Fitting (fresh options msg) s :=
  h.mono_of (J := OneStarter) (fun _ _ => rfl)
    (fun _ _ _ hi ha hs => (Step.of_step hs).2.oneStarter ha.1 hi) fun _ _ hi ha => hi.fitting ha

end SocketsCpp.TcpServer
