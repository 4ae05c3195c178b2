import SocketsCpp.Library.History
import SocketsCpp.Library.Replay
import SocketsCpp.TcpServer.Ownership
import SocketsCpp.TcpServer.Unicast

/-!
# The table of clients answers as if used by one thread

`m_clients` is used by the server thread, by callbacks and by the threads of the application at the same
time. What is done to it is written down beside the run, at the step that does it, with the answer that the
caller gets: the entry that it goes on with, or what it returns. In every run these answers are those of a table
that is used by one thread only (`Directory`): they never depend on what the other threads are in the middle of.

* `access` — what a step does to `m_clients`, with the answer. (`findMaxFd` reads it without the mutex, and is left
  out.)
* `Directory.Answers`, `Directory.after` — the table used by one thread.
* `linearizable` — it can replay the history of every run, and then has the entries of `m_clients`.
-/

namespace SocketsCpp.TcpServer

open SocketsCpp.Library

/-! ### The table used by one thread -/

/-- What is done to the table of clients, with the answer. -/
inductive Access where
  /-- `m_clients.count(h)` and `&m_clients[h]`: the connection of the entry, if there is one. -/
  | find (h : ClientHandle) (c : Option ConnId)
  /-- `m_clients.emplace(h, cl)`: whether the entry was inserted. -/
  | emplace (h : ClientHandle) (cl : Client) (inserted : Bool)
  /-- `client->m_isConnected = false` through a pointer to the entry of connection `c`; where it was erased
  meanwhile, the pointer dangles, and no entry is written to. -/
  | disconnect (h : ClientHandle) (c : ConnId)
  /-- `getClientInfo(h, …)`, its arguments holding `out`: what it returns, and what they hold then. -/
  | info (h : ClientHandle) (out : ClientInfo) (ret : Bool) (out' : ClientInfo)
  /-- The entries are walked in the order of their handles here. -/
  | walk (order : List ClientHandle)
  /-- `m_clients.erase(h)`, the entry of connection `c` having been found before. -/
  | erase (h : ClientHandle) (c : ConnId)
  /-- `m_clients.clear()`. -/
  | clear

/-- A table of clients, used by one thread only. -/
abbrev Directory := ClientHandle → Option Client

/-- The table answers so. -/
def Directory.Answers (t : Directory) : Access → Prop
  | .find h c => c = (t h).map (·.conn)
  | .emplace h _ inserted => inserted = (t h).isNone
  | .info h out ret out' =>
      match t h with
      | some cl => ret = true ∧ out' = ⟨cl.ip, cl.port, cl.isConnected⟩
      | none => ret = false ∧ out' = out
  | .walk order => order.Nodup ∧ ∀ h, h ∈ order ↔ (t h).isSome = true
  | .erase h c => (t h).map (·.conn) = some c
  | .disconnect _ _ | .clear => True

/-- The table after that. -/
def Directory.after (t : Directory) : Access → Directory
  | .emplace h cl inserted => if inserted then Function.update t h (some cl) else t
  | .disconnect h c => fun x =>
      (t x).map fun cl => if x = h ∧ cl.conn = c then { cl with isConnected := false } else cl
  | .erase h _ => Function.update t h none
  | .clear => fun _ => none
  | .find _ _ | .info _ _ _ _ | .walk _ => t

/-! ### What a step does to the table -/

/-- The entry that `serverTask` goes on with. -/
def Pc.target : Pc → Option ConnId
  | .recv _ c => some c
  | _ => Option.none

/-- The entry that `sendClientMessage` goes on with. -/
def CallPc.target : CallPc → Option ConnId
  | .send _ cl _ => some cl.conn
  | _ => none

/-- The entry that `deleteClient` goes on with. -/
def Section.target : Section → Option ConnId
  | .deleteClose _ _ c => some c
  | _ => none

/-- The entries that `sendBcast` or `finish` goes on with. -/
def Section.walked : Section → List ClientHandle
  | .bcast _ rest | .finishClose rest => rest
  | _ => []

/-- What is done at the end of a critical section. -/
def Section.access : Section → Option Access
  | .deleteErase h c => some (.erase h c)
  | .finishClose [] => some .clear
  | _ => none

/-- What a call does to the table, its next step leading to `s'`. -/
def callAccess (s s' : State) (w : Caller) : Option Access :=
  match s.calls w with
  | .deleteClient h => some (.find h (s'.mutex.bind fun x => x.2.target))
  | .sendClientMessage h _ => some (.find h (s'.calls w).target)
  | .getClientInfo h out =>
      match s'.os.log.getLast? with
      | some (.getClientInfo _ _ ret out') => some (.info h out ret out')
      | _ => none
  | .sendBcast _ | .finishLock => s'.mutex.map fun x => .walk x.2.walked
  | .locked => s.mutex.bind fun x => x.2.access
  | .idle | .start _ | .send _ _ _ | .finish | .finishJoin => none

/-- What a step from `s` to `s'` does to the table. -/
def access (s s' : State) : Action → Option Access
  | .lookup =>
      match s.pc with
      | .lookup r => some (.find r.fd s'.pc.target)
      | _ => none
  | .disconnect =>
      match s.pc with
      | .disconnected r c _ => some (.disconnect r.fd c)
      | _ => none
  | .emplace =>
      match s.pc, s'.os.log.getLast? with
      | .emplace _ d c, some (.emplace _ inserted) =>
          some (.emplace d ⟨inetNtop s.clientAddress.addr, d, s.clientAddress.port, true, c⟩ inserted)
      | _, _ => none
  | .step w _ _ => callAccess s s' w
  | .testStop | .copyFds | .findMaxFd | .select | .selectReturns _ _ | .forStep | .recv _ | .deleteReturns
  | .publish | .callbackReturns | .accept _ | .fdSet | .call _ _ => none

/-- The history of what was done to the table, after one more step. -/
def record (h : List Access) (s : State) (a : Action) : List Access :=
  h ++ ((machine.step s a).bind fun s' => access s s' a).toList

/-- `m_clients`, as the table that it is. -/
def State.directory (s : State) : Directory := fun h => s.clients.lookup h

/-! ### The steps -/

/-- The entry that `deleteClient` has found and not erased yet. -/
def Section.doomed : Section → Option (ClientHandle × ConnId)
  | .deleteClose h _ c | .deleteClr h _ c | .deleteErase h c => some (h, c)
  | _ => none

/-- It is in the table. -/
def Doomed (s : State) : Prop :=
  ∀ w sec h c, s.mutex = some (w, sec) → sec.doomed = some (h, c) → s.clients.conn h = some c

section

variable {s s' : State} {a : Action}

theorem Doomed.free (hm : s.mutex = none) : Doomed s := by
  intro w sec h c hs
  rw [hm] at hs
  cases hs

/-- The critical section goes on, and no entry is erased. -/
theorem Doomed.move {w : Caller} {sec sec' : Section} (hi : Doomed s) (hm : s.mutex = some (w, sec))
    (hm' : s'.mutex = some (w, sec')) (hd : sec'.doomed = sec.doomed) (hc : s'.clients = s.clients) : Doomed s' := by
  intro w' sec'' h c hs hsec
  rw [hm'] at hs
  cases hs
  rw [hc]
  exact hi w sec h c hm (hd ▸ hsec)

/-- A critical section is entered in which none is erased. -/
theorem Doomed.enter {w : Caller} {sec : Section} (hm : s'.mutex = some (w, sec)) (hd : sec.doomed = none) :
    Doomed s' := by
  intro w' sec' h c hs hsec
  rw [hm] at hs
  cases hs
  rw [hd] at hsec
  cases hsec

theorem Step.doomed (h : Step s a s') (hi : Doomed s) : Doomed s' := by
  cases h with
  | emplace _ hm => exact .free hm
  | deleteErase | bcastEnd | bcastFails | finishEnd => exact .free rfl
  | @deleteFound w x cl _ _ hc hm hl =>
    intro w' sec x' c hs hsec
    cases hs
    cases hsec
    exact Clients.conn_of_lookup hl
  | deleteClose _ hm | deleteClr _ hm => exact hi.move hm rfl rfl rfl
  | bcastSend _ hm | finishClose _ hm => exact .enter rfl rfl
  | bcastLock | finishLock => exact .enter rfl rfl
  | disconnectEof | disconnectError =>
    intro w sec x c hs hsec
    rw [← hi w sec x c hs hsec]
    simp
  | _ => exact hi

/-- A history that the table used by one thread can replay. -/
abbrev Linear (h : List Access) (s : State) : Prop :=
  Replays Directory.Answers Directory.after (fun _ => none) h s.directory

/-- The order in which a table is walked. -/
theorem answers_walk {order : List ClientHandle} (h : order.Perm s.clients.keys) :
    s.directory.Answers (.walk order) := by
  refine ⟨h.nodup_iff.mpr s.clients.nodupKeys, fun x => ?_⟩
  rw [h.mem_iff, ← AList.mem_keys]
  exact AList.lookup_isSome.symm

/-- A step, as the table sees it. -/
theorem Step.linear {h : List Access} (hs : Step s a s') (hd : Doomed s) (hi : Linear h s) :
    Linear (h ++ (access s s' a).toList) s' := by
  cases hs with
  | @lookupClient r cl hp hm hl =>
    simp only [access, hp, Pc.target]
    exact hi.answer (by simp [Directory.Answers, State.directory, hl]) rfl
  | @lookupNone r hp hm hl =>
    simp only [access, hp, Pc.target]
    exact hi.answer (by simp [Directory.Answers, State.directory, hl]) rfl
  | disconnectEof hp | disconnectError hp =>
    simp only [access, hp]
    exact hi.answer trivial (funext fun x => lookup_mapValues _ _ x)
  | @emplace r d c hp hm =>
    simp only [access, hp, Os.record_log, List.getLast?_append, List.getLast?_singleton, Option.some_or]
    refine hi.answer ?_ ?_
    · by_cases hn : d ∈ s.clients
      · obtain ⟨cl, hl⟩ := lookup_eq_some_of_mem hn
        simp [Directory.Answers, State.directory, hn, hl]
      · simp [Directory.Answers, State.directory, hn, AList.lookup_eq_none.mpr hn]
    · funext x
      by_cases hn : d ∈ s.clients
      · simp [Directory.after, State.directory, Clients.emplace, hn]
      · have hlookup := Clients.lookup_emplace hn ⟨inetNtop s.clientAddress.addr, d, s.clientAddress.port, true, c⟩ x
        simp [Directory.after, State.directory, hn, hlookup, Function.update_apply]
  | @deleteFound w x cl _ _ hc hm hl =>
    simp only [access, callAccess, hc]
    exact hi.answer (by simp [Directory.Answers, State.directory, hl, Section.target]) rfl
  | @deleteNone w x _ _ hc hm hl =>
    simp only [access, callAccess, hc]
    exact hi.answer (by simp [Directory.Answers, State.directory, hl, hm]) rfl
  | @deleteErase w x c _ _ hc hm =>
    simp only [access, callAccess, hc, hm, Option.bind_some, Section.access]
    refine hi.answer (hd w _ x c hm rfl) (funext fun y => ?_)
    by_cases hy : y = x
    · subst hy
      simp [Directory.after, State.directory]
    · simp [Directory.after, State.directory, hy]
  | bcastLock hc hm hperm | finishLock hc hm hperm =>
    simp only [access, callAccess, hc, State.enter, Option.map_some, Section.walked]
    exact hi.answer (answers_walk hperm) rfl
  | bcastEnd hc hm | bcastSend hc hm | bcastFails hc hm | deleteClose hc hm | deleteClr hc hm | finishClose hc hm =>
    simp only [access, callAccess, hc, hm, Option.bind_some, Section.access]
    exact hi.move rfl
  | finishEnd hc hm =>
    simp only [access, callAccess, hc, hm, Option.bind_some, Section.access]
    exact hi.answer trivial (funext fun x => AList.lookup_empty x)
  | @sendFound w x msg cl _ _ hc hm hl =>
    simp only [access, callAccess, hc]
    exact hi.answer (by simp [Directory.Answers, State.directory, hl, CallPc.target]) rfl
  | @sendNone w x msg _ _ hc hm hl =>
    simp only [access, callAccess, hc]
    exact hi.answer (by simp [Directory.Answers, State.directory, hl, CallPc.target]) rfl
  | @infoFound w x out cl _ _ hc hm hl =>
    simp only [access, callAccess, hc, State.ret, Os.record_log, List.getLast?_append, List.getLast?_singleton,
      Option.some_or]
    exact hi.answer (by simp [Directory.Answers, State.directory, hl]) rfl
  | @infoNone w x out _ _ hc hm hl =>
    simp only [access, callAccess, hc, State.ret, Os.record_log, List.getLast?_append, List.getLast?_singleton,
      Option.some_or]
    exact hi.answer (by simp [Directory.Answers, State.directory, hl]) rfl
  | startNext hc | startFails hc | startWatch hc | startThread hc | startAborts hc | send hc | finish hc
  | finishJoin hc | finishNoThread hc | finishSelf hc =>
    simp only [access, callAccess, hc]
    exact hi.move rfl
  | _ => exact hi.move rfl

end

/-- **The table of clients is linearizable.** In every run of a server, with any calls from any threads and
callbacks, what was done to `m_clients` can be replayed, in the order in which it was done, on a table that is used
by one thread only: every lookup in `serverTask`, `sendClientMessage` and `deleteClient`, what `getClientInfo`
returns and reports, whether `emplace` inserts, the walks of `sendBcast` and `finish`, the erasing and clearing. The
table then has the entries that `m_clients` has. -/
theorem linearizable {options : SocketOpt} {msg : List UInt8} {s : State} {h : List Access}
    (hr : (machine.withHistory record).Reach (Machine.Beside Machine.Any) (fresh options msg, []) (s, h)) :
    Replays Directory.Answers Directory.after (fun _ => none) h fun x => s.clients.lookup x := by
  have hd : ∀ s, machine.Reach Machine.Any (fresh options msg) s → Doomed s := fun s hr =>
    hr.invariant (.free rfl) fun _ _ _ hi _ hs => (Step.of_step hs).2.doomed hi
  have h₀ : Linear [] (fresh options msg) := .nil
  refine Machine.Reach.history_invariant (I := fun s h => Linear h s) hd h₀ (fun s h a s' hj hi _ hs => ?_) hr
  have hnext := (Step.of_step hs).2.linear hj hi
  rwa [record, hs]

/-- A callback deletes its client while the application asks for it, is answered, asks again, and is
answered otherwise. -/
theorem linearizable_deleted : ∃ s h,
    (machine.withHistory record).Reach (Machine.Beside Machine.Any) (fresh {} [], []) (s, h) ∧ h.length = 6 ∧
    s.clients.lookup 1 = none ∧
    Replays Directory.Answers Directory.after (fun _ => none) h fun x => s.clients.lookup x := by
  obtain ⟨⟨s, h⟩, hr, hlen, hl⟩ : ∃ x : State × List Access,
      (machine.withHistory record).Reach (Machine.Beside Machine.Any) (fresh {} [], []) x ∧
      x.2.length = 6 ∧ (x.1.clients.lookup 1).isNone = true :=
    Machine.exists_reach (List.flatten [startActions 80 (List.replicate 10 {}), selectActions [0],
      (acceptActions 1).take 6,
      [.call (.app 0) (.getClientInfo 1 ⟨"", 0, false⟩), .call .callback (.deleteClient 1), go (.app 0),
       go .callback, go .callback, .call (.app 0) (.sendClientMessage 1 [7]), go .callback, go .callback,
       go (.app 0)]]) (by decide)
  exact ⟨s, h, hr, hlen, Option.isNone_iff_eq_none.mp hl, linearizable hr⟩

end SocketsCpp.TcpServer
