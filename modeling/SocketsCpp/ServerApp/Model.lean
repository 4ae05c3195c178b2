import SocketsCpp.TcpServer.Resident
import SocketsCpp.TcpServer.Waits
import Mathlib.Data.Finset.Erase
import Mathlib.Data.Finset.Insert

/-!
# An application of the server

`ServerApp` of `serverApp.cpp` on top of the machine of `TcpServer`: a set of the clients that are connected,
kept by the callbacks under a mutex of its own, and `sendMsg`, which holds that mutex while it calls the
server. `sendMsg` may be called on any number of threads.

* `HostPc` — where a callback of the application is.
* `SendPc` — where a call of `sendMsg` is.
* `State`, `step`, `machine` — the application and the server.
* `Step` — the list of the steps.
* `reach_server` — in the application the server takes steps of its own, and only the server thread deletes
  clients.

What is printed is left out: no code reads it.
-/

namespace SocketsCpp.ServerApp

open SocketsCpp.Library
open TcpServer (Thread Callback)

/-- Where a callback of the application is. -/
inductive HostPc where
  /-- No callback is running. -/
  | idle
  /-- In `onClientConnect`, at `m_server.getClientInfo`. -/
  | connect (client : ClientHandle)
  /-- In `getClientInfo`. -/
  | asking (client : ClientHandle)
  /-- In `onClientConnect`, at the lock. -/
  | insertLock (client : ClientHandle)
  /-- At `m_clients.insert(client)`. -/
  | insert (client : ClientHandle)
  /-- In `onClientDisconnect`, at the lock. -/
  | eraseLock (client : ClientHandle)
  /-- At `m_clients.erase(client)`. -/
  | erase (client : ClientHandle)
  /-- At the end of a callback. -/
  | done
  deriving DecidableEq

/-- Where a call of `sendMsg` is. -/
inductive SendPc where
  /-- No call. -/
  | idle
  /-- At the lock. -/
  | lock (idx : ℤ) (data : List UInt8)
  /-- The lock is held, at `if (idx == 0)`. -/
  | locked (idx : ℤ) (data : List UInt8)
  /-- In `sendBcast` or in `sendClientMessage`, the lock held. -/
  | sending (idx : ℤ) (data : List UInt8)
  deriving DecidableEq

/-- The application with its server. -/
structure State where
  /-- `m_server`. -/
  server : TcpServer.State
  /-- `m_clients`. -/
  clients : Finset ℤ := ∅
  /-- `m_mutex`: the thread that holds it. -/
  mutex : Option Thread := none
  /-- Where the callback is. -/
  host : HostPc := .idle
  /-- Where the calls of `sendMsg` are. -/
  calls : ℕ → SendPc := fun _ => .idle

/-- A step of the application. -/
inductive Action where
  /-- A step in the code of the server. -/
  | server (a : TcpServer.Action)
  /-- The callback takes its next step; `port` and `connected` are what the variables that it does not
  initialize hold. -/
  | callback (port : UInt16) (connected : Bool)
  /-- Thread `n` calls `sendMsg(idx, data, len)`. -/
  | sendMsg (n : ℕ) (idx : ℤ) (data : List UInt8)
  /-- The `sendMsg` of thread `n` takes its next step. -/
  | send (n : ℕ)

/-- The first step of a callback. -/
def HostPc.begin : Callback → HostPc
  | .connect h => .connect h
  | .data _ _ => .done
  | .disconnect h => .eraseLock h

/-- What `getClientInfo` returned, the last thing that the server did. -/
def found : Option Event → Bool
  | some (.getClientInfo _ _ ret _) => ret
  | _ => false

/-- A step in the code of the server is possible as far as the application goes: it calls methods where its
own code does, and a callback returns at its end. -/
def State.allows (s : State) : TcpServer.Action → Bool
  | .call _ _ => false
  | .callbackReturns => s.host = .done
  | _ => true

/-- Where the callback is after a step in the code of the server. -/
def State.hostAfter (s : State) (server : TcpServer.State) : TcpServer.Action → HostPc
  | .publish =>
      match server.pc with
      | .callback _ cb => .begin cb
      | _ => s.host
  | .callbackReturns => .idle
  | .step .callback _ _ =>
      match s.host with
      | .asking client =>
          if (server.calls .callback).isIdle then
            if found server.os.log.getLast? then .insertLock client else .done
          else s.host
      | host => host
  | _ => s.host

/-- A step in the code of the server. -/
def serverStep (s : State) (a : TcpServer.Action) : Option State :=
  if s.allows a then
    (TcpServer.machine.step s.server a).map fun server =>
      { s with server := server, host := s.hostAfter server a }
  else none

/-- A method of the server is called. -/
def State.call (s : State) (w : Caller) (c : TcpServer.Call) : Option State :=
  (TcpServer.machine.step s.server (.call w c)).map fun server => { s with server := server }

/-- `onClientConnect`, `onClientDisconnect`. -/
def hostStep (s : State) (port : UInt16) (connected : Bool) : Option State :=
  match s.host with
  | .connect client =>
      (s.call .callback (.getClientInfo client ⟨"", port, connected⟩)).map fun s =>
        { s with host := .asking client }
  | .insertLock client =>
      if s.mutex.isSome then none else some { s with mutex := some .server, host := .insert client }
  | .insert client => some { s with clients := insert client s.clients, mutex := none, host := .done }
  | .eraseLock client =>
      if s.mutex.isSome then none else some { s with mutex := some .server, host := .erase client }
  | .erase client => some { s with clients := s.clients.erase client, mutex := none, host := .done }
  | _ => none

/-- `sendMsg`. -/
def sendStep (s : State) (n : ℕ) : Option State :=
  match s.calls n with
  | .idle => none
  | .lock idx data =>
      if s.mutex.isSome then none
      else some { s with mutex := some (.app n), calls := Function.update s.calls n (.locked idx data) }
  | .locked idx data =>
      if idx = 0 then
        (s.call (.app n) (.sendBcast data)).map fun s =>
          { s with calls := Function.update s.calls n (.sending idx data) }
      else if idx ∈ s.clients then
        (s.call (.app n) (.sendClientMessage idx data)).map fun s =>
          { s with calls := Function.update s.calls n (.sending idx data) }
      -- the client doesn't exist
      else some { s with mutex := none, calls := Function.update s.calls n .idle }
  | .sending _ _ =>
      if (s.server.calls (.app n)).isIdle then
        some { s with mutex := none, calls := Function.update s.calls n .idle }
      else none

/-- A step of the application. -/
def step (s : State) : Action → Option State
  | .server a => serverStep s a
  | .callback port connected => hostStep s port connected
  | .sendMsg n idx data =>
      if s.calls n = .idle then some { s with calls := Function.update s.calls n (.lock idx data) } else none
  | .send n => sendStep s n

/-- The application. -/
def machine : Machine State Action := ⟨step⟩

/-- The application after the constructor, in which the server was started. -/
def init (server : TcpServer.State) : State := { server := server }

/-! ### What a step of the application can do -/

/-- The steps of the machine. -/
inductive Step : State → Action → State → Prop where
  /-- A step in the code of the server. -/
  | server {s : State} {a : TcpServer.Action} {server : TcpServer.State} : s.allows a = true →
      TcpServer.machine.step s.server a = some server →
      Step s (.server a) { s with server := server, host := s.hostAfter server a }
  /-- `onClientConnect` calls `getClientInfo`. -/
  | connect {s : State} {client : ClientHandle} {port : UInt16} {connected : Bool} {server : TcpServer.State} :
      s.host = .connect client →
      TcpServer.machine.step s.server (.call .callback (.getClientInfo client ⟨"", port, connected⟩)) =
        some server →
      Step s (.callback port connected) { s with server := server, host := .asking client }
  /-- `onClientConnect` takes the lock. -/
  | insertLock {s : State} {client : ClientHandle} {port : UInt16} {connected : Bool} :
      s.host = .insertLock client → s.mutex = none →
      Step s (.callback port connected) { s with mutex := some .server, host := .insert client }
  /-- `m_clients.insert(client)`. -/
  | insert {s : State} {client : ClientHandle} {port : UInt16} {connected : Bool} : s.host = .insert client →
      Step s (.callback port connected)
        { s with clients := insert client s.clients, mutex := none, host := .done }
  /-- `onClientDisconnect` takes the lock. -/
  | eraseLock {s : State} {client : ClientHandle} {port : UInt16} {connected : Bool} :
      s.host = .eraseLock client → s.mutex = none →
      Step s (.callback port connected) { s with mutex := some .server, host := .erase client }
  /-- `m_clients.erase(client)`. -/
  | erase {s : State} {client : ClientHandle} {port : UInt16} {connected : Bool} : s.host = .erase client →
      Step s (.callback port connected)
        { s with clients := s.clients.erase client, mutex := none, host := .done }
  /-- `sendMsg` is called. -/
  | sendMsg {s : State} {n : ℕ} {idx : ℤ} {data : List UInt8} : s.calls n = .idle →
      Step s (.sendMsg n idx data) { s with calls := Function.update s.calls n (.lock idx data) }
  /-- `sendMsg` takes the lock. -/
  | sendLock {s : State} {n : ℕ} {idx : ℤ} {data : List UInt8} : s.calls n = .lock idx data →
      s.mutex = none →
      Step s (.send n)
        { s with mutex := some (.app n), calls := Function.update s.calls n (.locked idx data) }
  /-- `sendMsg` calls a method of the server: which, depends on `idx`. -/
  | sendCall {s : State} {n : ℕ} {idx : ℤ} {data : List UInt8} {c : TcpServer.Call}
      {server : TcpServer.State} : s.calls n = .locked idx data →
      (idx = 0 ∧ c = .sendBcast data ∨ idx ≠ 0 ∧ idx ∈ s.clients ∧ c = .sendClientMessage idx data) →
      TcpServer.machine.step s.server (.call (.app n) c) = some server →
      Step s (.send n) { s with server := server, calls := Function.update s.calls n (.sending idx data) }
  /-- There is no client `idx`. -/
  | sendNone {s : State} {n : ℕ} {idx : ℤ} {data : List UInt8} : s.calls n = .locked idx data → idx ≠ 0 →
      idx ∉ s.clients → Step s (.send n) { s with mutex := none, calls := Function.update s.calls n .idle }
  /-- The method of the server has returned, and so does `sendMsg`. -/
  | sendEnd {s : State} {n : ℕ} {idx : ℤ} {data : List UInt8} : s.calls n = .sending idx data →
      s.server.calls (.app n) = .idle →
      Step s (.send n) { s with mutex := none, calls := Function.update s.calls n .idle }

theorem Step.of_step {s s' : State} {a : Action} (h : machine.step s a = some s') : Step s a s' := by
  have h : ServerApp.step s a = some s' := h
  cases a with
  | server a =>
    simp only [ServerApp.step, serverStep] at h
    split at h
    · next hal =>
      obtain ⟨server, hs, rfl⟩ := Option.map_eq_some_iff.mp h
      exact .server hal hs
    · cases h
  | callback port connected =>
    simp only [ServerApp.step, hostStep] at h
    split at h
    · next hh =>
      obtain ⟨s₁, hs, rfl⟩ := Option.map_eq_some_iff.mp h
      obtain ⟨server, hcall, rfl⟩ := Option.map_eq_some_iff.mp hs
      exact .connect hh hcall
    · next hh =>
      split at h
      · cases h
      · next hm => cases h; exact .insertLock hh (TcpServer.isNone_of_not_isSome hm)
    · next hh => cases h; exact .insert hh
    · next hh =>
      split at h
      · cases h
      · next hm => cases h; exact .eraseLock hh (TcpServer.isNone_of_not_isSome hm)
    · next hh => cases h; exact .erase hh
    · cases h
  | sendMsg n idx data =>
    simp only [ServerApp.step] at h
    split at h
    · next hc => cases h; exact .sendMsg hc
    · cases h
  | send n =>
    simp only [ServerApp.step, sendStep] at h
    split at h
    · cases h
    · next hc =>
      split at h
      · cases h
      · next hm => cases h; exact .sendLock hc (TcpServer.isNone_of_not_isSome hm)
    · next hc =>
      split at h
      · next hidx =>
        obtain ⟨s₁, hs, rfl⟩ := Option.map_eq_some_iff.mp h
        obtain ⟨server, hcall, rfl⟩ := Option.map_eq_some_iff.mp hs
        exact .sendCall hc (.inl ⟨hidx, rfl⟩) hcall
      · next hidx =>
        split at h
        · next hmem =>
          obtain ⟨s₁, hs, rfl⟩ := Option.map_eq_some_iff.mp h
          obtain ⟨server, hcall, rfl⟩ := Option.map_eq_some_iff.mp hs
          exact .sendCall hc (.inr ⟨hidx, hmem, rfl⟩) hcall
        · next hmem => cases h; exact .sendNone hc hidx hmem
    · next hc =>
      split at h
      · next hidle => cases h; exact .sendEnd hc (TcpServer.CallPc.isIdle_iff.mp hidle)
      · cases h

/-! ### The server in the application -/

theorem Step.server_step {s s' : State} {a : Action} (h : Step s a s') :
    s'.server = s.server ∨
      ∃ a', a'.keepsClients = true ∧ TcpServer.machine.step s.server a' = some s'.server := by
  cases h with
  | @server a _ hal hs =>
    refine .inr ⟨a, ?_, hs⟩
    cases a with
    | call => cases hal
    | _ => rfl
  | connect _ hs => exact .inr ⟨_, rfl, hs⟩
  | sendCall _ hc hs =>
    refine .inr ⟨_, ?_, hs⟩
    rcases hc with ⟨-, rfl⟩ | ⟨-, -, rfl⟩ <;> rfl
  | _ => exact .inl rfl

/-- In the application the server takes steps of its own, and only the server thread deletes clients. -/
theorem reach_server {s₀ s : State} (h : machine.Reach Machine.Any s₀ s) :
    TcpServer.machine.Reach (fun _ a => a.keepsClients = true) s₀.server s.server := by
  induction h with
  | refl => exact .refl
  | step _ _ hs ih =>
    rcases (Step.of_step hs).server_step with he | ⟨a', ha, hs⟩
    · rw [he]
      exact ih
    · exact .step ih ha hs

theorem Step.tended {s s' : State} {a : Action} (h : Step s a s') (hi : TcpServer.Tended s.server) :
    TcpServer.Tended s'.server := by
  rcases h.server_step with he | ⟨a', ha, hs⟩
  · rw [he]
    exact hi
  · exact (TcpServer.Step.of_step hs).2.tended ha hi

end SocketsCpp.ServerApp
