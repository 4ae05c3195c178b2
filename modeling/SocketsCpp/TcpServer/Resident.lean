import SocketsCpp.TcpServer.Failures
import SocketsCpp.TcpServer.Unicast

/-!
# Runs in which only the server thread deletes clients

Applications that leave `deleteClient` to `serverTask` and do not call `finish`: then a client is taken out of
the table only because its peer closed the connection, and the server thread goes from there straight to
`onClientDisconnect`.

* `Resident` — what holds throughout such a run.
* `State.announced` — the clients that the application has been told of; a step changes them only where a
  callback returns (`Step.announced_iff`).
* `Step.conn_kept` — a connection stays open under its handle until the server thread deletes it.
* `Step.closed_kept`, `Step.leaver_kept` — from there on its descriptor stays closed, and is not given to
  another connection, until `onClientDisconnect` has returned.
-/

namespace SocketsCpp.TcpServer

open SocketsCpp.Library

/-- The actions of such runs. -/
def Action.keepsClients : Action → Bool
  | .call _ (.start _) | .call _ (.deleteClient _) | .call _ .finish => false
  | _ => true

theorem Action.concurrent_of_keepsClients {a : Action} (h : a.keepsClients = true) : a.concurrent = true := by
  unfold concurrent
  split
  · cases h
  · cases a with
    | call w c => cases w <;> cases c <;> first | rfl | cases h
    | _ => rfl

/-- The client that is not announced yet, or is being announced. -/
def Pc.newcomer : Pc → Option ClientHandle
  | .fdSet _ d | .publish _ (.connect d) | .callback _ (.connect d) => some d
  | _ => Option.none

/-- The client that is being deleted, or whose end is being announced. -/
def Pc.leaver : Pc → Option ClientHandle
  | .deleting r => some r.fd
  | .publish _ (.disconnect h) | .callback _ (.disconnect h) => some h
  | _ => Option.none

/-- Clients are deleted by the server thread only. -/
structure Resident (s : State) : Prop where
  /-- The server thread was not joined. -/
  thread : s.thread = true
  /-- `finish` is not called. -/
  finish : ∀ w, ¬ (s.calls w).finishing
  /-- `deleteClient` is called by the server thread. -/
  caller : ∀ w h, s.calls w = .deleteClient h → w = .serverTask ∧ s.pc.leaver = some h
  /-- The server thread calls nothing else. -/
  task : s.calls .serverTask = .idle ∨ (∃ h, s.calls .serverTask = .deleteClient h) ∨
    s.calls .serverTask = .locked
  /-- It is in the critical section of `deleteClient`, and the application never is. -/
  closer : ∀ w sec, s.mutex = some (w, sec) →
    if w = .serverTask then ∃ h, sec.deletes = some h ∧ s.pc.leaver = some h else sec.deletes = none
  /-- A client that is being announced is in the table. -/
  newcomer : ∀ h, s.pc.newcomer = some h → h ∈ s.clients
  /-- A client that was deleted is not. -/
  leaver : ∀ h, s.pc.leaver = some h → s.calls .serverTask = .idle → h ∉ s.clients
  /-- The client that `serverTask` points at is in the table. -/
  pointing : Pointing s

namespace Resident

variable {s s' : State}

/-- A client is being deleted in the critical section by the server thread. -/
theorem deletes (hi : Resident s) {w : Caller} {sec : Section} {h : ClientHandle} (hm : s.mutex = some (w, sec))
    (hs : sec.deletes = some h) : w = .serverTask ∧ s.pc.leaver = some h := by
  have hc := hi.closer w sec hm
  split at hc
  · next hw =>
    obtain ⟨h', hs', hl⟩ := hc
    rw [hs] at hs'
    cases hs'
    exact ⟨hw, hl⟩
  · rw [hs] at hc
    cases hc

/-- The server thread is not in another critical section. -/
theorem ne_task (hi : Resident s) {w : Caller} {sec : Section} (hm : s.mutex = some (w, sec))
    (hs : sec.deletes = none) : w ≠ .serverTask := by
  rintro rfl
  have hc := hi.closer _ sec hm
  rw [if_pos rfl, hs] at hc
  obtain ⟨h, hc, -⟩ := hc
  cases hc

/-- `serverTask` takes a step of its own. -/
theorem move (hi : Resident s) (hc : s'.calls = s.calls) (hm : s'.mutex = s.mutex) (ht : s'.thread = s.thread)
    (hl : s.pc.leaver = none ∨ s'.pc.leaver = s.pc.leaver)
    (hn : ∀ h, s'.pc.newcomer = some h → h ∈ s'.clients)
    (hg : ∀ h, s'.pc.leaver = some h → s'.calls .serverTask = .idle → h ∉ s'.clients)
    (hp : Pointing s') : Resident s' where
  thread := ht.trans hi.thread
  finish w := by rw [hc]; exact hi.finish w
  caller w h hw := by
    obtain ⟨rfl, hlv⟩ := hi.caller w h (hc ▸ hw)
    rcases hl with hl | hl
    · rw [hl] at hlv; cases hlv
    · exact ⟨rfl, hl.trans hlv⟩
  task := by rw [hc]; exact hi.task
  closer w sec hw := by
    have hcl := hi.closer w sec (hm ▸ hw)
    rcases hl with hl | hl
    · split at hcl
      · obtain ⟨h, -, hlv⟩ := hcl
        rw [hl] at hlv
        cases hlv
      · next hww =>
        rw [if_neg hww]
        exact hcl
    · rw [hl]
      exact hcl
  newcomer := hn
  leaver := hg
  pointing := hp

/-- A call of the application goes on. -/
theorem update {w : Caller} {p : CallPc} (hi : Resident s) (hw : w ≠ .serverTask) (hp : ¬ p.finishing)
    (hd : ∀ h, p ≠ .deleteClient h) (hpc : s'.pc = s.pc) (hcl : s'.clients = s.clients)
    (hc : s'.calls = Function.update s.calls w p) (ht : s'.thread = s.thread)
    (hm : s'.mutex = s.mutex ∨ s'.mutex = none ∨ ∃ sec, s'.mutex = some (w, sec) ∧ sec.deletes = none) :
    Resident s' := by
  have htask : s'.calls .serverTask = s.calls .serverTask := by rw [hc, Function.update_of_ne (Ne.symm hw)]
  refine ⟨ht.trans hi.thread, fun w' => ?_, fun w' h hw' => ?_, by rw [htask]; exact hi.task,
    fun w' sec hm' => ?_, fun h hn => ?_, fun h hl hidle => ?_, fun h c hpt => ?_⟩
  · rw [hc]
    exact (Function.forall_update_iff s.calls fun _ q => ¬ q.finishing).mpr ⟨hp, fun w' _ => hi.finish w'⟩ w'
  · rw [hpc]
    rw [hc] at hw'
    exact hi.caller w' h (Caller.of_update (P := fun q : CallPc => q = .deleteClient h) (hd h) hw')
  · rw [hpc]
    rcases hm with hm | hm | ⟨sec', hm, hs⟩ <;> rw [hm] at hm'
    · exact hi.closer w' sec hm'
    · cases hm'
    · cases hm'
      rw [if_neg hw]
      exact hs
  · rw [hcl]; exact hi.newcomer h (hpc ▸ hn)
  · rw [hcl]; exact hi.leaver h (hpc ▸ hl) (htask ▸ hidle)
  · rw [hcl]; exact hi.pointing h c (hpc ▸ hpt)

theorem not_finishing (hi : Resident s) {w : Caller} {p : CallPc} (hc : s.calls w = p) : ¬ p.finishing :=
  hc ▸ hi.finish w

/-- Who makes a call other than `deleteClient` is not the server thread. -/
theorem ne_serverTask (hi : Resident s) {w : Caller} {p : CallPc} (hc : s.calls w = p)
    (hp : p ≠ .idle ∧ (∀ h, p ≠ .deleteClient h) ∧ p ≠ .locked) : w ≠ .serverTask := by
  rintro rfl
  rcases hi.task with h | ⟨h', h⟩ | h <;> rw [hc] at h
  · exact hp.1 h
  · exact hp.2.1 _ h
  · exact hp.2.2 h

end Resident

theorem Call.begin_keepsClients {w : Caller} {c : Call} (h : (Action.call w c).keepsClients = true) :
    ¬ c.begin.finishing ∧ ∀ x, c.begin ≠ .deleteClient x := by
  cases c <;> simp_all [Call.begin, CallPc.finishing, Action.keepsClients]

theorem Step.resident {s s' : State} {a : Action} (h : Step s a s') (ha : a.keepsClients = true)
    (ho : Orderly s) (hi : Resident s) : Resident s' := by
  have hns := ho.noStart
  cases h with
  | startNext hc | startFails hc | startWatch hc | startThread hc | startAborts hc =>
    exact absurd hc (hns _ _)
  | finish hc | finishJoin hc | finishNoThread hc | finishSelf hc | finishLock hc =>
    exact absurd trivial (hi.not_finishing hc)
  | finishClose _ hm | finishEnd _ hm =>
    exact absurd (ho.shutdown.closing _ _ hm) (by simp [hi.thread])
  | @lookupClient r cl hp hm hl =>
    refine hi.move rfl rfl rfl (.inl (by rw [hp]; rfl)) (by simp [Pc.newcomer]) (by simp [Pc.leaver]) ?_
    intro h' c hs
    cases hs
    simp [Clients.conn, hl]
  | recvEnd hp =>
    refine hi.move rfl rfl rfl (.inl (by rw [hp]; rfl)) (by simp [Pc.newcomer]) (by simp [Pc.leaver]) ?_
    intro h' c hs
    exact hi.pointing h' c (by rw [hp]; exact hs)
  | @disconnectEof r c hp =>
    have hleaver : s.pc.leaver = none := by rw [hp]; rfl
    refine ⟨hi.thread, fun w => ?_, fun w h hw => ?_, ?_, fun w sec hw => ?_, by simp [Pc.newcomer],
      fun h _ ht => by simp at ht, .of_none rfl⟩
    · exact (Function.forall_update_iff s.calls fun _ q => ¬ q.finishing).mpr
        ⟨id, fun w' _ => hi.finish w'⟩ w
    · by_cases hww : w = .serverTask
      · subst hww
        simp only [State.goto, Function.update_self, CallPc.deleteClient.injEq] at hw
        exact ⟨rfl, congrArg some hw⟩
      · simp only [State.goto, Function.update_of_ne hww] at hw
        exact absurd (hi.caller w h hw).1 hww
    · simp
    · have hc := hi.closer w sec hw
      rw [hleaver] at hc
      split at hc
      · obtain ⟨_, _, hc⟩ := hc
        cases hc
      · next hww =>
        rw [if_neg hww]
        exact hc
  | disconnectError hp =>
    exact hi.move rfl rfl rfl (.inl (by rw [hp]; rfl)) (by simp [Pc.newcomer]) (by simp [Pc.leaver])
      (.of_none rfl)
  | deleteReturns hp hidle =>
    refine hi.move rfl rfl rfl (.inr (by rw [hp]; rfl)) (by simp [Pc.newcomer]) (fun h hl _ => ?_) (.of_none rfl)
    exact hi.leaver h (by rw [hp]; exact hl) hidle
  | @publish r cb hp =>
    refine hi.move rfl rfl rfl (.inr (by rw [hp]; cases cb <;> rfl)) (fun h hn => ?_) (fun h hl hidle => ?_)
      (.of_none rfl)
    · exact hi.newcomer h (by rw [hp]; cases cb <;> exact hn)
    · exact hi.leaver h (by rw [hp]; cases cb <;> exact hl) hidle
  | @callbackReturns r cb hp hidle =>
    have htask := ho.placed.task_idle (by simp [hp])
    refine ⟨hi.thread, hi.finish, fun w h hw => ?_, hi.task, fun w sec hw => ?_, by simp [Pc.newcomer],
      by simp [Pc.leaver], .of_none rfl⟩
    · obtain rfl := (hi.caller w h hw).1
      rw [htask] at hw
      cases hw
    · have hww : w ≠ .serverTask := by
        rintro rfl
        have hlocked := (ho.discipline .serverTask).mpr ⟨sec, hw⟩
        rw [htask] at hlocked
        cases hlocked
      have hc := hi.closer w sec hw
      rw [if_neg hww] at hc ⊢
      exact hc
  | @emplace r d c hp hm =>
    refine hi.move rfl rfl rfl (.inl (by rw [hp]; rfl)) (fun h hn => ?_) (by simp [Pc.leaver]) (.of_none rfl)
    cases hn
    exact Clients.mem_emplace.mpr (.inl rfl)
  | fdSet hp =>
    refine hi.move rfl rfl rfl (.inl (by rw [hp]; rfl)) (fun h hn => ?_) (by simp [Pc.leaver]) (.of_none rfl)
    cases hn
    exact hi.newcomer _ (by rw [hp]; rfl)
  | callApp hc | callCallback _ hc =>
    obtain ⟨hf, hd⟩ := Call.begin_keepsClients ha
    exact hi.update (by simp) hf hd rfl rfl rfl rfl (.inl rfl)
  | @deleteFound w x cl _ _ hc hm hl =>
    obtain ⟨rfl, hlv⟩ := hi.caller _ _ hc
    refine ⟨hi.thread, fun w' => ?_, fun w' h hw => ?_, .inr (.inr (by simp)), fun w' sec hw => ?_, hi.newcomer,
      fun h _ ht => by simp at ht, hi.pointing⟩
    · exact (Function.forall_update_iff s.calls fun _ q => ¬ q.finishing).mpr
        ⟨id, fun w' _ => hi.finish w'⟩ w'
    · exact hi.caller w' h (Caller.of_update (P := fun q : CallPc => q = .deleteClient h) (by simp) hw)
    · cases hw
      exact ⟨x, rfl, hlv⟩
  | @deleteNone w x _ _ hc hm hl =>
    obtain ⟨rfl, hlv⟩ := hi.caller _ _ hc
    refine ⟨hi.thread, fun w' => ?_, fun w' h hw => ?_, .inl (by simp), hi.closer, hi.newcomer,
      fun h hh _ => ?_, hi.pointing⟩
    · exact (Function.forall_update_iff s.calls fun _ q => ¬ q.finishing).mpr
        ⟨id, fun w' _ => hi.finish w'⟩ w'
    · exact hi.caller w' h (Caller.of_update (P := fun q : CallPc => q = .deleteClient h) (by simp) hw)
    · rw [show s.pc.leaver = some h from hh] at hlv
      cases hlv
      exact AList.lookup_eq_none.mp hl
  | @deleteClose w x d c _ _ hc hm | @deleteClr w x d c _ _ hc hm =>
    obtain ⟨rfl, hlv⟩ := hi.deletes hm rfl
    refine ⟨hi.thread, hi.finish, hi.caller, hi.task, fun w' sec hw => ?_, hi.newcomer, hi.leaver, hi.pointing⟩
    cases hw
    exact ⟨x, rfl, hlv⟩
  | @deleteErase w x c _ _ hc hm =>
    obtain ⟨rfl, hlv⟩ := hi.deletes hm rfl
    obtain ⟨r, hp⟩ := ho.placed.task (by simp [hc])
    refine ⟨hi.thread, fun w' => ?_, fun w' h hw => ?_, .inl (by simp), by simp, ?_, fun h hh _ => ?_, ?_⟩
    · exact (Function.forall_update_iff s.calls fun _ q => ¬ q.finishing).mpr
        ⟨id, fun w' _ => hi.finish w'⟩ w'
    · exact hi.caller w' h (Caller.of_update (P := fun q : CallPc => q = .deleteClient h) (by simp) hw)
    · intro h hn
      simp [State.ret, hp, Pc.newcomer] at hn
    · rw [show s.pc.leaver = some h from hh] at hlv
      cases hlv
      simp
    · exact .of_none (by simp [State.ret, hp, Pc.pointer])
  | bcastLock hc =>
    exact hi.update (hi.ne_serverTask hc (by simp)) id (by simp) rfl rfl rfl rfl (.inr (.inr ⟨_, rfl, rfl⟩))
  | bcastEnd _ hm | bcastFails _ hm =>
    exact hi.update (hi.ne_task hm rfl) id (by simp) rfl rfl rfl rfl (.inr (.inl rfl))
  | bcastSend _ hm =>
    refine ⟨hi.thread, hi.finish, hi.caller, hi.task, fun w' sec hw => ?_, hi.newcomer, hi.leaver, hi.pointing⟩
    cases hw
    rw [if_neg (hi.ne_task hm rfl)]
    rfl
  | sendFound hc | sendNone hc | send hc | infoFound hc | infoNone hc =>
    exact hi.update (hi.ne_serverTask hc (by simp)) id (by simp) rfl rfl rfl rfl (.inl rfl)
  | testStop hp | taskReturns hp | copyFds hp | findMaxFd hp | select hp | selectFails hp | selectReady hp
  | forReady hp | forSkip hp | forEnd hp | lookupNone hp | recvData hp | acceptFails hp | accept hp =>
    refine hi.move rfl rfl rfl (.inl (by rw [hp]; rfl)) (fun h hn => ?_) (fun h hl => ?_) (.of_none rfl)
    · cases hn
    · cases hl

theorem Initial.resident {s : State} (h : Initial s) : Resident s where
  thread := h.thread
  finish w := by rw [h.calls w]; exact id
  caller w x hw := by rw [h.calls w] at hw; cases hw
  task := .inl (h.calls _)
  closer w sec hm := by rw [h.mutex] at hm; cases hm
  newcomer x hn := by rw [h.pc] at hn; cases hn
  leaver x hl := by rw [h.pc] at hl; cases hl
  pointing := .of_none (by rw [h.pc]; rfl)

/-- What holds throughout a run in which only the server thread deletes clients. -/
structure Tended (s : State) : Prop where
  /-- What holds in every interleaving. -/
  account : Account s
  /-- Clients are deleted by the server thread only. -/
  resident : Resident s

theorem Initial.tended {s : State} (h : Initial s) : Tended s := ⟨h.account, h.resident⟩

theorem Step.tended {s s' : State} {a : Action} (h : Step s a s') (ha : a.keepsClients = true)
    (hi : Tended s) : Tended s' :=
  ⟨h.account (Action.regular_of_concurrent (Action.concurrent_of_keepsClients ha)) hi.account,
    h.resident ha hi.account.orderly hi.resident⟩

section

variable {s s' : State} {a : Action} {x : ClientHandle} {c : ConnId}

/-! ### What a step leaves alone -/

/-- Whose call a step is about. -/
def Action.caller : Action → Option Caller
  | .call w _ | .step w _ _ => some w
  | .disconnect => some .serverTask
  | _ => none

theorem Step.calls_frame (h : Step s a s') {w : Caller} (hw : a.caller ≠ some w) : s'.calls w = s.calls w := by
  have hne : ∀ w', a.caller = some w' → w ≠ w' := by
    rintro w' ha rfl
    exact hw ha
  cases h with
  | deleteClose | deleteClr | bcastSend | finishClose | startAborts => rfl
  | disconnectEof => exact Function.update_of_ne (hne _ rfl) _ _
  | startNext | startFails | startWatch | startThread | callApp | callCallback | deleteFound | deleteNone
  | deleteErase | bcastLock | bcastEnd | bcastFails | sendFound | sendNone | send | infoFound | infoNone | finish
  | finishJoin | finishNoThread | finishSelf | finishLock | finishEnd =>
    exact Function.update_of_ne (hne _ rfl) _ _
  | _ => rfl

/-- The server thread stays in a callback until the callback returns. -/
theorem Step.pc_callback (h : Step s a s') (ho : Orderly s) {r : Round} {cb : Callback}
    (hp : s.pc = .callback r cb) (ha : a ≠ .callbackReturns) : s'.pc = .callback r cb := by
  have hns := ho.noStart
  cases h with
  | startThread hc => exact absurd hc (hns _ _)
  | callbackReturns => exact absurd rfl ha
  | testStop hp' | taskReturns hp' | copyFds hp' | findMaxFd hp' | select hp' | selectFails hp' | selectReady hp'
  | forReady hp' | forSkip hp' | forEnd hp' | lookupClient hp' | lookupNone hp' | recvEnd hp' | recvData hp'
  | disconnectEof hp' | disconnectError hp' | deleteReturns hp' | publish hp' | acceptFails hp' | accept hp'
  | emplace hp' | fdSet hp' =>
    rw [hp'] at hp
    cases hp
  | _ => exact hp

/-- A callback begins at its own step. -/
theorem Step.callback_of_pc (h : Step s a s') (ho : Orderly s) (ha : a ≠ .publish) {r : Round} {cb : Callback}
    (hp : s'.pc = .callback r cb) : s.pc = .callback r cb := by
  have hns := ho.noStart
  cases h with
  | startThread hc => exact absurd hc (hns _ _)
  | publish => exact absurd rfl ha
  | testStop | taskReturns | copyFds | findMaxFd | select | selectFails | selectReady | forReady | forSkip | forEnd
  | lookupClient | lookupNone | recvEnd | recvData | disconnectEof | disconnectError | deleteReturns
  | callbackReturns | acceptFails | accept | emplace | fdSet => cases hp
  | _ => exact hp

/-! ### Who has been announced -/

/-- The application has been told that the client connected, and not that it disconnected. -/
def State.announced (s : State) (h : ClientHandle) : Prop :=
  (h ∈ s.clients ∧ s.pc.newcomer ≠ some h) ∨ s.pc.leaver = some h

/-- The table changes only at `emplace`, and while the server thread deletes a client. -/
theorem Step.mem_clients (h : Step s a s') (ho : Orderly s) (hi : Resident s)
    (he : ∀ r d c, s.pc ≠ .emplace r d c) (hd : ∀ r, s.pc ≠ .deleting r) : x ∈ s'.clients ↔ x ∈ s.clients := by
  have hns := ho.noStart
  cases h with
  | emplace hp => exact absurd hp (he _ _ _)
  | deleteErase hc hm =>
    obtain ⟨rfl, -⟩ := hi.deletes hm rfl
    rw [ho.placed.task_idle hd] at hc
    cases hc
  | finishClose _ hm | finishEnd _ hm =>
    exact absurd (ho.shutdown.closing _ _ hm) (by simp [hi.thread])
  | disconnectEof | disconnectError => exact Clients.mem_disconnect
  | _ => exact Iff.rfl

/-- As long as no callback returns, the same clients have been announced. -/
theorem Step.announced_iff (h : Step s a s') (ho : Orderly s) (hown : Owned s) (hi : Resident s)
    (ha : a ≠ .callbackReturns) : s'.announced x ↔ s.announced x := by
  have hns := ho.noStart
  unfold State.announced
  cases h with
  | startThread hc => exact absurd hc (hns _ _)
  | callbackReturns => exact absurd rfl ha
  | finishClose _ hm | finishEnd _ hm =>
    exact absurd (ho.shutdown.closing _ _ hm) (by simp [hi.thread])
  | @emplace r d c hp hm =>
    have hn := hown.emplace_fresh hp hm
    by_cases hx : x = d
    · subst hx
      simp [hp, hn, Pc.newcomer, Pc.leaver]
    · simp [hp, Clients.mem_emplace, hx, Ne.symm hx, Pc.newcomer, Pc.leaver]
  | @disconnectEof r c hp =>
    have hmem : r.fd ∈ s.clients := Clients.mem_of_conn (hi.pointing r.fd c (by rw [hp]; rfl))
    simp only [hp, State.goto, Clients.mem_disconnect, Pc.newcomer, Pc.leaver]
    constructor
    · rintro (⟨hx, -⟩ | hx)
      · exact .inl ⟨hx, by simp⟩
      · cases hx
        exact .inl ⟨hmem, by simp⟩
    · rintro (⟨hx, -⟩ | hx)
      · exact .inl ⟨hx, by simp⟩
      · cases hx
  | @deleteErase w y c _ _ hc hm =>
    obtain ⟨rfl, hl⟩ := hi.deletes hm rfl
    by_cases hx : x = y
    · subst hx
      simp [State.ret, hl]
    · simp [State.ret, hx]
  | disconnectError hp => simp [hp, Pc.newcomer, Pc.leaver]
  | @publish r cb hp => cases cb <;> simp [hp, Pc.newcomer, Pc.leaver]
  | testStop hp | taskReturns hp | copyFds hp | findMaxFd hp | select hp | selectFails hp | selectReady hp
  | forReady hp | forSkip hp | forEnd hp | lookupClient hp | lookupNone hp | recvEnd hp | recvData hp
  | deleteReturns hp | acceptFails hp | accept hp | fdSet hp =>
    simp [hp, Pc.newcomer, Pc.leaver]
  | _ => exact Iff.rfl

/-! ### The end of a connection -/

/-- A connection stays open under its handle until the server thread deletes it. -/
theorem Step.conn_kept (h : Step s a s') (ho : Orderly s) (hown : Owned s) (hi : Resident s)
    (hc : s.clients.conn x = some c) (hx : s.os.owner x = some c) :
    s'.clients.conn x = some c ∧
      (s'.os.owner x = some c ∨ (s'.pc.leaver = some x ∧ s'.os.owner x = none)) := by
  have hns := ho.noStart
  cases h with
  | startNext hc | startFails hc | startWatch hc | startThread hc | startAborts hc =>
    exact absurd hc (hns _ _)
  | finishClose _ hm | finishEnd _ hm =>
    exact absurd (ho.shutdown.closing _ _ hm) (by simp [hi.thread])
  | @accept r d addr hp hd =>
    have hne : x ≠ d := by
      rintro rfl
      rw [hd.2] at hx
      cases hx
    exact ⟨hc, .inl (by simpa [hne] using hx)⟩
  | @emplace r d c' hp hm =>
    have hn := hown.emplace_fresh hp hm
    have hne : x ≠ d := by
      rintro rfl
      exact hn (Clients.mem_of_conn hc)
    refine ⟨?_, .inl hx⟩
    rw [Clients.conn_emplace hn, Function.update_of_ne hne]
    exact hc
  | @deleteClose w y d c' _ _ hl hm =>
    have hf : s.registry.closing = .found y d c' := by simp [State.registry, hm, closingOf]
    obtain ⟨rfl, -⟩ := hown.reg.found hf
    by_cases hne : x = d
    · subst hne
      exact ⟨hc, .inr ⟨(hi.deletes hm rfl).2, by simp⟩⟩
    · exact ⟨hc, .inl (by simpa [hne] using hx)⟩
  | @deleteErase w y c' _ _ hl hm =>
    have hne : x ≠ y := by
      rintro rfl
      obtain ⟨d, he⟩ := Clients.entry_of_conn hc
      exact hown.reg.dead_owner he (by simp [Registry.Dead, State.registry, hm, closingOf]) hx
    refine ⟨?_, .inl hx⟩
    show Clients.conn (AList.erase y s.clients) x = some c
    rw [Clients.conn_erase, Function.update_of_ne hne]
    exact hc
  | disconnectEof | disconnectError => exact ⟨by simpa using hc, .inl hx⟩
  | bcastSend | bcastFails | send => exact ⟨hc, .inl (by simpa using hx)⟩
  | _ => exact ⟨hc, .inl hx⟩

/-- While a client is being deleted nothing takes its place in the table. -/
theorem Step.conn_left (h : Step s a s') (hl : s.pc.leaver = some x) (hc : s'.clients.conn x = some c) :
    s.clients.conn x = some c := by
  cases h with
  | emplace hp | disconnectEof hp | disconnectError hp =>
    rw [hp] at hl
    cases hl
  | @deleteErase w y c' _ _ _ hm =>
    have hc : Clients.conn (AList.erase y s.clients) x = some c := hc
    rw [Clients.conn_erase] at hc
    by_cases hne : x = y
    · subst hne
      simp at hc
    · rwa [Function.update_of_ne hne] at hc
  | finishEnd => simp [Clients.conn] at hc
  | _ => exact hc

/-- The descriptor of a client that was closed stays closed as long as its end was not announced. -/
theorem Step.closed_kept (h : Step s a s') (ho : Orderly s) (hi : Resident s) (hl : s.pc.leaver = some x)
    (hx : s.os.owner x = none) : s'.os.owner x = none := by
  have hns := ho.noStart
  cases h with
  | startNext hc | startFails hc | startWatch hc | startThread hc | startAborts hc =>
    exact absurd hc (hns _ _)
  | finishClose _ hm | finishEnd _ hm =>
    exact absurd (ho.shutdown.closing _ _ hm) (by simp [hi.thread])
  | accept hp =>
    rw [hp] at hl
    cases hl
  | @deleteClose w y d c' _ _ hc hm =>
    by_cases hne : x = d
    · subst hne
      simp
    · simpa [hne] using hx
  | bcastSend | bcastFails | send => simpa using hx
  | _ => exact hx

/-- It is deleted, or its end announced, until `onClientDisconnect` has returned. -/
theorem Step.leaver_kept (h : Step s a s') (ho : Orderly s) (hl : s.pc.leaver = some x)
    (ha : a ≠ .callbackReturns) : s'.pc.leaver = some x := by
  have hns := ho.noStart
  cases h with
  | startThread hc => exact absurd hc (hns _ _)
  | callbackReturns => exact absurd rfl ha
  | deleteReturns hp =>
    rw [hp] at hl
    exact hl
  | @publish r cb hp =>
    rw [hp] at hl
    cases cb <;> exact hl
  | testStop hp | taskReturns hp | copyFds hp | findMaxFd hp | select hp | selectFails hp | selectReady hp
  | forReady hp | forSkip hp | forEnd hp | lookupClient hp | lookupNone hp | recvEnd hp | recvData hp
  | disconnectEof hp | disconnectError hp | acceptFails hp | accept hp | emplace hp | fdSet hp =>
    rw [hp] at hl
    cases hl
  | _ => exact hl

end

end SocketsCpp.TcpServer
