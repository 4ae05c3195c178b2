import SocketsCpp.ServerApp.Model

/-!
# The clients that the application knows

`m_clients` of the application against the table of the server, in every interleaving of the callbacks and of
`sendMsg`.

* `Hosted` — a callback of the application runs in the callback of the server that it is for.
* `Held` — the mutex is held by who is past its lock.
* `Sending` — a thread in `sendMsg` makes the call that `idx` asks for.
* `Listed` — `m_clients` holds the clients that the application has been told of.
* `clients_listed` — a client of the server is in `m_clients`, but for the one that is being announced.
-/

namespace SocketsCpp.ServerApp

open SocketsCpp.Library
open TcpServer (Thread Callback CallPc Round Tended)

/-! ### The callbacks -/

/-- A callback of the application is at a point of this callback of the server. -/
def HostPc.In : HostPc → Callback → Prop
  | .idle, _ => False
  | .connect h, cb | .asking h, cb | .insertLock h, cb | .insert h, cb => cb = .connect h
  | .eraseLock h, cb | .erase h, cb => cb = .disconnect h
  | .done, _ => True

theorem HostPc.begin_in (cb : Callback) : (HostPc.begin cb).In cb := by
  cases cb <;> trivial

/-- A callback of the application runs in the callback of the server that it is for. -/
structure Hosted (server : TcpServer.State) (host : HostPc) : Prop where
  /-- Outside the callbacks of the server none of the application runs. -/
  idle : (∀ r cb, server.pc ≠ .callback r cb) → host = .idle
  /-- The callback is the one that the server makes. -/
  running : ∀ r cb, server.pc = .callback r cb → host.In cb
  /-- `onClientConnect` calls `getClientInfo`. -/
  asking : ∀ h, host = .asking h → ∃ out, server.calls .callback = .getClientInfo h out
  /-- The callbacks call nothing else. -/
  silent : (∀ h, host ≠ .asking h) → server.calls .callback = .idle

namespace Hosted

variable {server server' : TcpServer.State} {host host' : HostPc} {a : TcpServer.Action}

theorem callback (hi : Hosted server host) (hne : host ≠ .idle) :
    ∃ r cb, server.pc = .callback r cb ∧ host.In cb := by
  by_contra hn
  refine hne (hi.idle fun r cb hp => hn ⟨r, cb, hp, hi.running r cb hp⟩)

/-- The callback moves on, without a call of a method. -/
theorem move (hi : Hosted server host) (hne : host ≠ .idle) (hh : ∀ h, host ≠ .asking h)
    (hh' : ∀ h, host' ≠ .asking h) (hin : ∀ cb, host.In cb → host'.In cb) : Hosted server host' where
  idle hp := by
    obtain ⟨r, cb, hp', -⟩ := hi.callback hne
    exact absurd hp' (hp r cb)
  running r cb hp := hin cb (hi.running r cb hp)
  asking h hx := absurd hx (hh' h)
  silent _ := hi.silent hh

/-- The server takes a step that the callback has no part in. -/
theorem apart (hi : Hosted server host) (ht : Tended server) (h : TcpServer.Step server a server')
    (hpub : a ≠ .publish) (hret : a ≠ .callbackReturns) (hcb : a.caller ≠ some .callback) :
    Hosted server' host where
  idle hp := hi.idle fun r cb hp' => hp r cb (h.pc_callback ht.account.orderly hp' hret)
  running r cb hp := hi.running r cb (h.callback_of_pc ht.account.orderly hpub hp)
  asking x hx := by
    obtain ⟨out, hc⟩ := hi.asking x hx
    exact ⟨out, (h.calls_frame hcb).trans hc⟩
  silent hx := (h.calls_frame hcb).trans (hi.silent hx)

end Hosted

section

variable {s s' : State} {server : TcpServer.State} {a : TcpServer.Action}

theorem hostAfter_asked {x : ClientHandle} {ans : Answer} {order : List ClientHandle}
    (hx : s.host = .asking x) (hidle : server.calls .callback = .idle) :
    s.hostAfter server (.step .callback ans order) =
      if found server.os.log.getLast? then .insertLock x else .done := by
  simp [State.hostAfter, hx, hidle, CallPc.isIdle]

/-- `getClientInfo` answers `onClientConnect`. -/
theorem Hosted.asked (hi : Hosted s.server s.host) {ans : Answer} {order : List ClientHandle}
    (h : TcpServer.Step s.server (.step .callback ans order) server) :
    ∃ x, s.host = .asking x ∧ server.pc = s.server.pc ∧ server.calls .callback = .idle ∧
      (s.hostAfter server (.step .callback ans order) = .insertLock x ∨
        (s.hostAfter server (.step .callback ans order) = .done ∧ x ∉ s.server.clients)) := by
  obtain ⟨x, hx⟩ : ∃ x, s.host = .asking x := by
    by_contra hne
    exact h.calls_ne_idle (hi.silent fun x hx => hne ⟨x, hx⟩)
  obtain ⟨out, hcall⟩ := hi.asking x hx
  refine ⟨x, hx, ?_⟩
  cases h with
  | infoFound hc hm hl =>
    rw [hcall] at hc
    cases hc
    refine ⟨rfl, by simp, .inl ?_⟩
    rw [hostAfter_asked hx (by simp)]
    simp [Os.record, found]
  | infoNone hc hm hl =>
    rw [hcall] at hc
    cases hc
    refine ⟨rfl, by simp, .inr ⟨?_, AList.lookup_eq_none.mp hl⟩⟩
    rw [hostAfter_asked hx (by simp)]
    simp [Os.record, found]
  | _ => simp_all

/-- The application calls a method of the server. -/
theorem step_call {server server' : TcpServer.State} {w : Caller} {c : TcpServer.Call}
    (h : TcpServer.machine.step server (.call w c) = some server') : server' = server.goto w c.begin := by
  cases (TcpServer.Step.of_step h).2 <;> rfl

/-- The server takes a step. -/
theorem Hosted.server_step (hi : Hosted s.server s.host) (ht : Tended s.server) (hal : s.allows a = true)
    (h : TcpServer.Step s.server a server) : Hosted server (s.hostAfter server a) := by
  cases a with
  | call => cases hal
  | publish =>
    cases h with
    | @publish r cb hp =>
      have hidle := hi.idle (by simp [hp])
      have hsilent := hi.silent (by simp [hidle])
      refine ⟨fun hn => absurd rfl (hn r cb), fun r' cb' hp' => ?_, fun x hx => ?_, fun _ => hsilent⟩
      · cases hp'
        exact HostPc.begin_in cb
      · cases cb <;> cases hx
  | callbackReturns =>
    cases h with
    | @callbackReturns r cb hp hidle =>
      refine ⟨fun _ => rfl, fun r' cb' hp' => ?_, fun x hx => ?_, fun _ => hidle⟩
      · cases hp'
      · cases hx
  | step w ans order =>
    cases w with
    | callback =>
      obtain ⟨x, hx, hp, hidle, hafter⟩ := hi.asked h
      have hcb := hi.callback (by simp [hx])
      rcases hafter with hafter | ⟨hafter, -⟩
      · refine ⟨fun hn => ?_, fun r cb hp' => ?_, fun y hy => ?_, fun _ => hidle⟩
        · obtain ⟨r, cb, hpc, -⟩ := hcb
          exact absurd (hp.trans hpc) (hn r cb)
        · have hin := hi.running r cb (hp ▸ hp')
          rw [hx] at hin
          rw [hafter]
          exact hin
        · rw [hafter] at hy
          cases hy
      · refine ⟨fun hn => ?_, fun r cb hp' => ?_, fun y hy => ?_, fun _ => hidle⟩
        · obtain ⟨r, cb, hpc, -⟩ := hcb
          exact absurd (hp.trans hpc) (hn r cb)
        · rw [hafter]
          trivial
        · rw [hafter] at hy
          cases hy
    | _ => exact hi.apart ht h (by simp) (by simp) (by simp [TcpServer.Action.caller])
  | _ => exact hi.apart ht h (by simp) (by simp) (by simp [TcpServer.Action.caller])

theorem Step.hosted {a : Action} (h : Step s a s') (ht : Tended s.server) (hi : Hosted s.server s.host) :
    Hosted s'.server s'.host := by
  cases h with
  | server hal hs => exact hi.server_step ht hal (TcpServer.Step.of_step hs).2
  | @connect x port connected server hh hs =>
    obtain rfl := step_call hs
    have hcb := hi.callback (by simp [hh])
    refine ⟨fun hn => ?_, fun r cb hp => ?_, fun y hy => ?_, fun hn => absurd rfl (hn x)⟩
    · obtain ⟨r, cb, hpc, -⟩ := hcb
      exact absurd hpc (hn r cb)
    · have hin := hi.running r cb hp
      rw [hh] at hin
      exact hin
    · cases hy
      exact ⟨⟨"", port, connected⟩, by simp [TcpServer.Call.begin]⟩
  | insertLock hh | insert hh | eraseLock hh | erase hh =>
    exact hi.move (by simp [hh]) (by simp [hh]) (by simp) (by simp [hh, HostPc.In])
  | sendCall _ _ hs =>
    exact hi.apart ht (TcpServer.Step.of_step hs).2 (by simp) (by simp) (by simp [TcpServer.Action.caller])
  | _ => exact hi

/-! ### The mutex -/

/-- A callback holds the mutex. -/
def HostPc.holds : HostPc → Bool
  | .insert _ | .erase _ => true
  | _ => false

/-- A call of `sendMsg` holds the mutex. -/
def SendPc.holds : SendPc → Bool
  | .locked _ _ | .sending _ _ => true
  | _ => false

/-- A thread holds the mutex, going by where it is. -/
def State.holds (s : State) : Thread → Bool
  | .server => s.host.holds
  | .app n => (s.calls n).holds

/-- The mutex is held by who is past its lock. -/
def Held (s : State) : Prop := ∀ t, s.holds t = true ↔ s.mutex = some t

namespace Held

/-- Only one thread holds the mutex. -/
theorem unique (hi : Held s) {t u : Thread} (ht : s.holds t = true) (hu : s.holds u = true) : t = u := by
  have hm := ((hi t).mp ht).symm.trans ((hi u).mp hu)
  cases hm
  rfl

/-- Everybody holds what they held. -/
theorem same (hi : Held s) (hh : ∀ t, s'.holds t = s.holds t) (hm : s'.mutex = s.mutex) : Held s' := by
  intro t
  rw [hh, hm]
  exact hi t

/-- A thread takes the mutex. -/
theorem take (hi : Held s) {t : Thread} (hfree : s.mutex = none) (ht : s'.holds t = true)
    (hh : ∀ u, u ≠ t → s'.holds u = s.holds u) (hm : s'.mutex = some t) : Held s' := by
  intro u
  rw [hm]
  by_cases hu : u = t
  · subst hu
    simp [ht]
  · have hnot : s.holds u ≠ true := fun h => by simpa [hfree] using (hi u).mp h
    rw [hh u hu]
    simp [hnot, Ne.symm hu]

/-- A thread releases the mutex. -/
theorem release (hi : Held s) {t : Thread} (ht : s.holds t = true) (ht' : s'.holds t = false)
    (hh : ∀ u, u ≠ t → s'.holds u = s.holds u) (hm : s'.mutex = none) : Held s' := by
  intro u
  rw [hm]
  by_cases hu : u = t
  · subst hu
    simp [ht']
  · have hnot : s.holds u ≠ true := fun h => hu (hi.unique h ht)
    rw [hh u hu]
    simp [hnot]

end Held

/-- A callback takes and releases the mutex in its own code. -/
theorem hostAfter_holds (hi : Hosted s.server s.host) (hal : s.allows a = true)
    (h : TcpServer.Step s.server a server) : (s.hostAfter server a).holds = s.host.holds := by
  cases a with
  | call => cases hal
  | publish =>
    cases h with
    | @publish r cb hp =>
      rw [hi.idle (by simp [hp])]
      cases cb <;> rfl
  | callbackReturns =>
    have hdone : s.host = .done := of_decide_eq_true hal
    rw [hdone]
    rfl
  | step w ans order =>
    cases w with
    | callback =>
      obtain ⟨x, hx, -, -, hafter⟩ := hi.asked h
      rw [hx]
      rcases hafter with hafter | ⟨hafter, -⟩ <;> rw [hafter] <;> rfl
    | _ => rfl
  | _ => rfl

theorem holds_update {n : ℕ} {p : SendPc} {t : Thread} (hne : t ≠ .app n)
    (hh : s'.host = s.host) (hc : s'.calls = Function.update s.calls n p) : s'.holds t = s.holds t := by
  cases t with
  | server => simp [State.holds, hh]
  | app m =>
    have hmn : m ≠ n := by
      rintro rfl
      exact hne rfl
    simp [State.holds, hc, hmn]

theorem Step.held {a : Action} (h : Step s a s') (hh : Hosted s.server s.host) (hi : Held s) : Held s' := by
  cases h with
  | server hal hs =>
    refine hi.same (fun t => ?_) rfl
    cases t with
    | server => exact hostAfter_holds hh hal (TcpServer.Step.of_step hs).2
    | app n => rfl
  | connect hc =>
    refine hi.same (fun t => ?_) rfl
    cases t with
    | server =>
      simp only [State.holds, hc]
      rfl
    | app n => rfl
  | insertLock _ hm | eraseLock _ hm =>
    refine hi.take (t := .server) hm rfl (fun u hu => ?_) rfl
    cases u with
    | server => exact absurd rfl hu
    | app n => rfl
  | insert hc | erase hc =>
    refine hi.release (t := .server) (by simp [State.holds, hc, HostPc.holds]) rfl (fun u hu => ?_) rfl
    cases u with
    | server => exact absurd rfl hu
    | app n => rfl
  | @sendMsg n idx data hc =>
    refine hi.same (fun t => ?_) rfl
    by_cases ht : t = .app n
    · subst ht
      simp [State.holds, hc, SendPc.holds]
    · exact holds_update ht rfl rfl
  | @sendLock n idx data hc hm =>
    exact hi.take (t := .app n) hm (by simp [State.holds, SendPc.holds]) (fun u hu => holds_update hu rfl rfl) rfl
  | @sendCall n idx data c server hc hcall hs =>
    refine hi.same (fun t => ?_) rfl
    by_cases ht : t = .app n
    · subst ht
      simp [State.holds, hc, SendPc.holds]
    · exact holds_update ht rfl rfl
  | @sendNone n idx data hc | @sendEnd n idx data hc =>
    exact hi.release (t := .app n) (by simp [State.holds, hc, SendPc.holds]) (by simp [State.holds, SendPc.holds])
      (fun u hu => holds_update hu rfl rfl) rfl

/-! ### The threads in `sendMsg` -/

/-- The call of a method that `sendMsg(idx, data, len)` makes, and where it is. -/
def Sends (idx : ℤ) (data : List UInt8) (p : CallPc) : Prop :=
  p = .idle ∨ (idx = 0 ∧ (p = .sendBcast data ∨ p = .locked)) ∨
    (idx ≠ 0 ∧ (p = .sendClientMessage idx data ∨ ∃ cl, p = .send idx cl data))

/-- The call of a method that a thread makes. -/
def SendPc.Makes : SendPc → CallPc → Prop
  | .sending idx data, p => Sends idx data p
  | _, p => p = .idle

/-- A thread in `sendMsg` makes the call that `idx` asks for. -/
structure Sending (s : State) : Prop where
  /-- The call. -/
  sender : ∀ n, (s.calls n).Makes (s.server.calls (.app n))
  /-- The client is in `m_clients`. -/
  member : ∀ n idx data, s.calls n = .sending idx data → idx ≠ 0 → idx ∈ s.clients

/-- A call that `sendMsg` makes goes on. -/
theorem Sends.step {server server' : TcpServer.State} {w : Caller} {ans : Answer} {order : List ClientHandle}
    {idx : ℤ} {data : List UInt8} (h : TcpServer.Step server (.step w ans order) server')
    (hi : Tended server) (hw : w ≠ .serverTask) (hs : Sends idx data (server.calls w)) :
    Sends idx data (server'.calls w) := by
  have ho := hi.account.orderly
  have hns := ho.noStart
  have hr := hi.resident
  cases h with
  | startNext hc | startFails hc | startWatch hc | startThread hc | startAborts hc =>
    exact absurd hc (hns _ _)
  | finish hc | finishJoin hc | finishNoThread hc | finishSelf hc | finishLock hc =>
    exact absurd trivial (hr.not_finishing hc)
  | finishClose _ hm | finishEnd _ hm =>
    exact absurd (ho.shutdown.closing _ _ hm) (by simp [hr.thread])
  | deleteFound hc => exact absurd (hr.caller _ _ hc).1 hw
  | deleteClose _ hm | deleteClr _ hm | deleteErase _ hm => exact absurd (hr.deletes hm rfl).1 hw
  | bcastSend => exact hs
  | bcastLock hc => simp_all [Sends]
  | sendFound hc => simp_all [Sends]
  | _ => exact .inl (by simp)

namespace Sending

/-- The server takes a step. -/
theorem server_step (hi : Sending s) (ht : Tended s.server) (hal : s.allows a = true)
    (h : TcpServer.Step s.server a server) (n : ℕ) : (s.calls n).Makes (server.calls (.app n)) := by
  have hmakes := hi.sender n
  by_cases hc : a.caller = some (.app n)
  · cases a with
    | call => cases hal
    | step w ans order =>
      cases hc
      cases hs : s.calls n with
      | sending idx data =>
        rw [hs] at hmakes
        exact Sends.step h ht (by simp) hmakes
      | _ =>
        rw [hs] at hmakes
        exact absurd hmakes h.calls_ne_idle
    | _ => cases hc
  · rw [h.calls_frame hc]
    exact hmakes

/-- `sendMsg` goes on in one thread. -/
theorem update {n : ℕ} {p : SendPc} (hi : Sending s) (hc : s'.calls = Function.update s.calls n p)
    (hcl : s'.clients = s.clients) (hs : ∀ m, m ≠ n → s'.server.calls (.app m) = s.server.calls (.app m))
    (hp : p.Makes (s'.server.calls (.app n)))
    (hm : ∀ idx data, p = .sending idx data → idx ≠ 0 → idx ∈ s.clients) : Sending s' := by
  refine ⟨fun m => ?_, fun m idx data hs' hne => ?_⟩
  · rw [hc]
    by_cases hmn : m = n
    · subst hmn
      rw [Function.update_self]
      exact hp
    · rw [Function.update_of_ne hmn, hs m hmn]
      exact hi.sender m
  · rw [hc] at hs'
    rw [hcl]
    by_cases hmn : m = n
    · subst hmn
      rw [Function.update_self] at hs'
      exact hm idx data hs' hne
    · rw [Function.update_of_ne hmn] at hs'
      exact hi.member m idx data hs' hne

/-- A thread that is not in a call of a method makes none. -/
theorem silent (hi : Sending s) {n : ℕ} (hn : ∀ idx data, s.calls n ≠ .sending idx data) :
    s.server.calls (.app n) = .idle := by
  have hmakes := hi.sender n
  cases hc : s.calls n with
  | sending idx data => exact absurd hc (hn idx data)
  | _ =>
    rw [hc] at hmakes
    exact hmakes

end Sending

theorem Step.sending {a : Action} (h : Step s a s') (ht : Tended s.server) (hh : Held s) (hi : Sending s) :
    Sending s' := by
  cases h with
  | server hal hs => exact ⟨hi.server_step ht hal (TcpServer.Step.of_step hs).2, hi.member⟩
  | connect hc hs =>
    obtain rfl := step_call hs
    exact ⟨fun n => by simpa using hi.sender n, hi.member⟩
  | insert => exact ⟨hi.sender, fun n idx data hc hne => Finset.mem_insert_of_mem (hi.member n idx data hc hne)⟩
  | erase hc =>
    refine ⟨hi.sender, fun n idx data hs => ?_⟩
    have heq := hh.unique (t := .server) (u := .app n) (by simp [State.holds, hc, HostPc.holds])
      (by simp [State.holds, SendPc.holds, show s.calls n = _ from hs])
    cases heq
  | @sendCall n idx data c server hc hcall hs =>
    obtain rfl := step_call hs
    refine hi.update rfl rfl (fun m hm => by simp [hm]) ?_ (fun idx' data' hp hne => ?_)
    · rcases hcall with ⟨hidx, rfl⟩ | ⟨hidx, -, rfl⟩
      · exact .inr (.inl ⟨hidx, .inl (by simp [TcpServer.Call.begin])⟩)
      · exact .inr (.inr ⟨hidx, .inl (by simp [TcpServer.Call.begin])⟩)
    · cases hp
      rcases hcall with ⟨hidx, -⟩ | ⟨-, hmem, -⟩
      · exact absurd hidx hne
      · exact hmem
  | sendMsg hc | sendLock hc | sendNone hc =>
    exact hi.update rfl rfl (fun _ _ => rfl) (hi.silent (by simp [hc])) (by simp)
  | sendEnd hc hidle => exact hi.update rfl rfl (fun _ _ => rfl) hidle (by simp)
  | _ => exact ⟨hi.sender, hi.member⟩

/-! ### The clients -/

/-- `m_clients` holds the clients that the application has been told of; at the end of a callback, those of
the server. -/
def Listed (s : State) : Prop :=
  ∀ h, h ∈ s.clients ↔ if s.host = .done then h ∈ s.server.clients else s.server.announced h

/-- Where no client is announced, those of the server have been. -/
theorem announced_iff_mem {server : TcpServer.State} {h : ClientHandle} (hn : server.pc.newcomer ≠ some h)
    (hl : server.pc.leaver ≠ some h) : server.announced h ↔ h ∈ server.clients := by
  simp [TcpServer.State.announced, hn, hl]

namespace Listed

/-- The server takes a step that the callback has no part in. -/
theorem apart (hi : Listed s) (ht : Tended s.server) (hh : Hosted s.server s.host)
    (h : TcpServer.Step s.server a server) (hret : a ≠ .callbackReturns) (hs : s'.server = server)
    (hg : s'.host = s.host) (hcl : s'.clients = s.clients) : Listed s' := by
  have ho := ht.account.orderly
  intro x
  rw [hs, hg, hcl, hi x]
  split
  · next hdone =>
    obtain ⟨r, cb, hp, -⟩ := hh.callback (by simp [hdone])
    exact (h.mem_clients ho ht.resident (by simp [hp]) (by simp [hp])).symm
  · exact (h.announced_iff ho ht.account.owned ht.resident hret).symm

/-- The server takes a step. -/
theorem server_step (hi : Listed s) (ht : Tended s.server) (hh : Hosted s.server s.host)
    (hal : s.allows a = true) (h : TcpServer.Step s.server a server) :
    Listed { s with server := server, host := s.hostAfter server a } := by
  have ho := ht.account.orderly
  have hann : a ≠ .callbackReturns → ∀ x, server.announced x ↔ s.server.announced x :=
    fun ha x => h.announced_iff ho ht.account.owned ht.resident ha
  cases a with
  | call => cases hal
  | publish =>
    intro x
    have hx := hi x
    rw [← hann (by simp) x] at hx
    cases h with
    | @publish r cb hp =>
      rw [hh.idle (by simp [hp]), if_neg (by simp)] at hx
      cases cb with
      | data h n =>
        rw [announced_iff_mem (by simp [TcpServer.Pc.newcomer]) (by simp [TcpServer.Pc.leaver])] at hx
        exact hx
      | _ => exact hx
  | callbackReturns =>
    intro x
    have hx := hi x
    rw [if_pos (of_decide_eq_true hal)] at hx
    cases h with
    | callbackReturns hp hidle =>
      rw [if_neg (by simp [State.hostAfter]),
        announced_iff_mem (by simp [TcpServer.Pc.newcomer]) (by simp [TcpServer.Pc.leaver])]
      exact hx
  | step w ans order =>
    cases w with
    | callback =>
      obtain ⟨x, hx, hp, hidle, hafter⟩ := hh.asked h
      obtain ⟨r, cb, hpc, hin⟩ := hh.callback (by simp [hx])
      rw [hx] at hin
      obtain rfl : cb = .connect x := hin
      have hmem := ht.resident.newcomer x (by rw [hpc]; rfl)
      -- the client that is announced is in the table, so `getClientInfo` finds it
      rcases hafter with hafter | ⟨-, hnot⟩
      · intro y
        have hy := hi y
        rw [hx, if_neg (by simp), ← hann (by simp) y] at hy
        rw [hy]
        simp [hafter]
      · exact absurd hmem hnot
    | _ => exact hi.apart ht hh h (by simp) rfl rfl rfl
  | _ => exact hi.apart ht hh h (by simp) rfl rfl rfl

end Listed

theorem Step.listed {a : Action} (h : Step s a s') (ht : Tended s.server) (hh : Hosted s.server s.host)
    (hi : Listed s) : Listed s' := by
  have ho := ht.account.orderly
  cases h with
  | server hal hs => exact hi.server_step ht hh hal (TcpServer.Step.of_step hs).2
  | @connect x port connected server hc hs =>
    intro y
    have hy := hi y
    rw [hc, if_neg (by simp), ← (TcpServer.Step.of_step hs).2.announced_iff ho ht.account.owned ht.resident
      (by simp)] at hy
    rw [if_neg (by simp)]
    exact hy
  | insertLock hc | eraseLock hc =>
    intro y
    have hy := hi y
    rw [hc, if_neg (by simp)] at hy
    rw [if_neg (by simp)]
    exact hy
  | @insert x _ _ hc =>
    obtain ⟨r, cb, hp, hin⟩ := hh.callback (by simp [hc])
    rw [hc] at hin
    obtain rfl : cb = .connect x := hin
    have hmem := ht.resident.newcomer x (by rw [hp]; rfl)
    intro y
    have hy := hi y
    rw [hc, if_neg (by simp)] at hy
    rw [if_pos rfl, Finset.mem_insert, hy]
    simp only [TcpServer.State.announced, hp, TcpServer.Pc.newcomer, TcpServer.Pc.leaver]
    constructor
    · rintro (rfl | ⟨hy, -⟩ | hy)
      · exact hmem
      · exact hy
      · cases hy
    · intro hy
      by_cases hyx : y = x
      · exact .inl hyx
      · exact .inr (.inl ⟨hy, by simp [Ne.symm hyx]⟩)
  | @erase x _ _ hc =>
    obtain ⟨r, cb, hp, hin⟩ := hh.callback (by simp [hc])
    rw [hc] at hin
    obtain rfl : cb = .disconnect x := hin
    have hnot := ht.resident.leaver x (by rw [hp]; rfl) (ho.placed.task_idle (by simp [hp]))
    intro y
    have hy := hi y
    rw [hc, if_neg (by simp)] at hy
    rw [if_pos rfl, Finset.mem_erase, hy]
    simp only [TcpServer.State.announced, hp, TcpServer.Pc.newcomer, TcpServer.Pc.leaver]
    constructor
    · rintro ⟨hyx, ⟨hy, -⟩ | hy⟩
      · exact hy
      · cases hy
        exact absurd rfl hyx
    · intro hy
      refine ⟨?_, .inl ⟨hy, by simp⟩⟩
      rintro rfl
      exact hnot hy
  | sendCall _ _ hs => exact hi.apart ht hh (TcpServer.Step.of_step hs).2 (by simp) rfl rfl rfl
  | _ => exact hi

end

/-! ### All together -/

/-- What holds throughout a run of the application. -/
structure Account (s : State) : Prop where
  /-- The server. -/
  server : Tended s.server
  /-- The callbacks. -/
  hosted : Hosted s.server s.host
  /-- The mutex. -/
  held : Held s
  /-- The threads in `sendMsg`. -/
  sending : Sending s
  /-- The clients. -/
  listed : Listed s

theorem init_account {server : TcpServer.State} (h : TcpServer.Initial server) : Account (init server) where
  server := h.tended
  hosted := by
    refine ⟨fun _ => rfl, fun r cb hp => ?_, fun x hx => ?_, fun _ => h.calls _⟩
    · rw [show (init server).server.pc = .loopHead from h.pc] at hp
      cases hp
    · cases hx
  held t := by cases t <;> simp [init, State.holds, HostPc.holds, SendPc.holds]
  sending := ⟨fun n => h.calls _, fun n idx data hc => by cases hc⟩
  listed x := by simp [init, TcpServer.State.announced, h.clients, h.pc, TcpServer.Pc.leaver]

theorem Account.reach {server : TcpServer.State} (h₀ : TcpServer.Initial server) {s : State}
    (h : machine.Reach Machine.Any (init server) s) : Account s :=
  h.invariant (init_account h₀) fun _ _ _ hi _ hs =>
    have hs := Step.of_step hs
    ⟨hs.tended hi.server, hs.hosted hi.server hi.hosted, hs.held hi.hosted hi.held,
      hs.sending hi.server hi.held hi.sending, hs.listed hi.server hi.hosted hi.listed⟩

/-- **The application knows the clients of its server.** In every interleaving of the server thread, the
callbacks and the threads in `sendMsg`, a client is in `m_clients` of the application if and only if it is in
the table of the server, but for the client that is being announced: that one is in the table all along, since
`getClientInfo` never fails in `onClientConnect`, and in `m_clients` once the callback has inserted it; and for
the client that is being deleted, which is in `m_clients` until `onClientDisconnect` has erased it. -/
theorem clients_listed {server : TcpServer.State} {s : State} (h₀ : TcpServer.Started server)
    (h : machine.Reach Machine.Any (init server) s) (x : ClientHandle) :
    (s.server.pc.newcomer ≠ some x → s.server.pc.leaver ≠ some x → (x ∈ s.clients ↔ x ∈ s.server.clients)) ∧
      (s.server.pc.newcomer = some x → x ∈ s.server.clients ∧ (x ∈ s.clients ↔ s.host = .done)) ∧
      (s.server.pc.leaver = some x → (x ∈ s.clients ↔ s.host ≠ .done)) := by
  have hi := Account.reach h₀.initial h
  have hr := hi.server.resident
  have hx := hi.listed x
  refine ⟨fun hn hl => ?_, fun hn => ⟨hr.newcomer x hn, ?_⟩, fun hl => ?_⟩
  · rwa [announced_iff_mem hn hl, ite_self] at hx
  · have hl : s.server.pc.leaver = none := by
      cases hp : s.server.pc with
      | publish r cb | callback r cb => cases cb <;> simp_all [TcpServer.Pc.newcomer, TcpServer.Pc.leaver]
      | deleting => rw [hp] at hn; cases hn
      | _ => rfl
    rw [hx]
    split
    · next hd => exact iff_of_true (hr.newcomer x hn) hd
    · next hd => exact iff_of_false (by simp [TcpServer.State.announced, hn, hl]) hd
  · rw [hx]
    split
    · next hd =>
      obtain ⟨r, cb, hp, -⟩ := hi.hosted.callback (by simp [hd])
      have hidle := hi.server.account.orderly.placed.task_idle (by simp [hp])
      exact iff_of_false (hr.leaver x hl hidle) (not_not_intro hd)
    · next hd => exact iff_of_true (.inr hl) hd

/-- The server thread accepts a client, and `onClientConnect` is at its lock. -/
def connectActions (d : SOCKET) : List Action :=
  ((TcpServer.acceptActions d).take 6).map .server ++ [.callback 0 false, .server (TcpServer.go .callback)]

/-- The server thread finds that client `d` has closed its connection, deletes it, and begins
`onClientDisconnect`. -/
def disconnectActions : List Action :=
  [.lookup, .recv (some []), .disconnect, TcpServer.go .serverTask, TcpServer.go .serverTask,
    TcpServer.go .serverTask, TcpServer.go .serverTask, .deleteReturns, .publish].map .server

/-- A client connects and disconnects, while a thread in `sendMsg` sends to it; the callback waits at its lock. -/
theorem clients_listed_waiting : ∃ s, machine.Reach Machine.Any (init TcpServer.started) s ∧
    s.host = .eraseLock 1 ∧ s.calls 0 = .sending 1 [7] ∧ 1 ∉ s.server.clients ∧
    (s.server.pc.leaver = some 1 → (1 ∈ s.clients ↔ s.host ≠ .done)) := by
  obtain ⟨s, hr, hh, hc, hm⟩ : ∃ s, machine.Reach Machine.Any (init TcpServer.started) s ∧
      s.host = .eraseLock 1 ∧ s.calls 0 = .sending 1 [7] ∧ 1 ∉ s.server.clients :=
    Machine.exists_reach (List.flatten [(TcpServer.selectActions [0]).map .server, connectActions 1,
      [.callback 0 false, .callback 0 false, .server .callbackReturns, .server .forStep, .sendMsg 0 1 [7],
       .send 0, .send 0, .server (TcpServer.go (.app 0))],
      (TcpServer.selectActions [1]).map .server, [.server .forStep, .server .forStep], disconnectActions])
      (by decide)
  exact ⟨s, hr, hh, hc, hm, (clients_listed TcpServer.started_started hr 1).2.2⟩

end SocketsCpp.ServerApp
