import SocketsCpp.TcpServer.Dispatch
import SocketsCpp.Library.History
import Mathlib.Data.List.DropRight

/-!
# Rounds

A round of `serverTask`: `Select` reports a set of descriptors ready, and the loop visits them in
ascending order. Each is looked up in its turn, and then received from if it is a client, and accepted on
if it is not. What the lookup found is not in the state later; it is kept as a history (`Turns`).

* `Bounded` — the descriptors handed to `Select` are below `maxfds`.
* `Tally` — the socket calls of the round so far are those of the turns so far.
* `every_ready_descriptor_served` — at the end of a round every ready descriptor has had its one call.
-/

namespace SocketsCpp

open SocketsCpp.Library

/-! ### The calls of a round -/

/-- `Select` is called. -/
def Event.isSelect : Event → Bool
  | .select _ => true
  | _ => false

/-- `Recv` is called on `d`. -/
def Event.receivesOn (d : SOCKET) : Event → Bool
  | .recv d' _ _ => d' = d
  | _ => false

/-- `Accept` is called on `d`. -/
def Event.acceptsOn (d : SOCKET) : Event → Bool
  | .accept d' _ => d' = d
  | _ => false

/-- An event that is none of these calls. -/
def Event.offRound : Event → Bool
  | .select _ | .recv _ _ _ | .accept _ _ => false
  | _ => true

/-- The events since `Select` was called. -/
def sinceSelect (log : List Event) : List Event := log.rtakeWhile fun e => !e.isSelect

/-- How often `Recv` was called on `d` in the round. -/
def recvs (d : SOCKET) (log : List Event) : ℕ := (sinceSelect log).countP (Event.receivesOn d)

/-- How often `Accept` was called on `d` in the round. -/
def accepts (d : SOCKET) (log : List Event) : ℕ := (sinceSelect log).countP (Event.acceptsOn d)

section

variable {log log' : List Event} {d : SOCKET}

theorem sinceSelect_append {e : Event} (he : e.isSelect = false) :
    sinceSelect (log ++ [e]) = sinceSelect log ++ [e] :=
  List.rtakeWhile_concat_pos _ _ _ (by simp [he])

@[simp] theorem sinceSelect_select (n : ℤ) : sinceSelect (log ++ [.select n]) = [] :=
  List.rtakeWhile_concat_neg _ _ _ (by simp [Event.isSelect])

theorem recvs_append {e : Event} (he : e.isSelect = false) :
    recvs d (log ++ [e]) = recvs d log + if e.receivesOn d then 1 else 0 := by
  rw [recvs, sinceSelect_append he, List.countP_append, List.countP_singleton, recvs]

theorem accepts_append {e : Event} (he : e.isSelect = false) :
    accepts d (log ++ [e]) = accepts d log + if e.acceptsOn d then 1 else 0 := by
  rw [accepts, sinceSelect_append he, List.countP_append, List.countP_singleton, accepts]

theorem Event.of_offRound {e : Event} (he : e.offRound = true) (d : SOCKET) :
    e.isSelect = false ∧ e.receivesOn d = false ∧ e.acceptsOn d = false := by
  cases e <;> first | exact ⟨rfl, rfl, rfl⟩ | cases he

theorem calls_grows (h : Grows Event.offRound log log') :
    recvs d log' = recvs d log ∧ accepts d log' = accepts d log := by
  induction h with
  | refl => exact ⟨rfl, rfl⟩
  | append _ he ih =>
    obtain ⟨hs, hr, ha⟩ := Event.of_offRound he d
    rw [recvs_append hs, accepts_append hs, hr, ha]
    exact ih

end

namespace TcpServer

variable {s s' : State}

/-! ### The bound of a round -/

/-- The descriptors that were handed to `Select`, or that it reported ready, and the bound. -/
def Pc.selecting : Pc → Option (FdSet × ℤ)
  | .select readSet maxfds | .waiting readSet maxfds _ => some (readSet, maxfds)
  | .forHead r | .lookup r | .recv r _ | .disconnected r _ _ | .deleting r | .publish r _ | .callback r _
  | .accept r | .emplace r _ _ | .fdSet r _ => some (r.readSet, r.maxfds)
  | _ => Option.none

/-- The descriptors handed to `Select` are below the bound. -/
def Bounded (s : State) : Prop :=
  ∀ readSet maxfds, s.pc.selecting = some (readSet, maxfds) → ∀ d, readSet d = true → 0 ≤ d ∧ d < maxfds

/-- The listening socket and the clients are below `findMaxFd()`. -/
theorem Settled.lt_findMaxFd (hs : Settled s) {d : SOCKET} (hd : d = s.sockfd ∨ d ∈ s.clients) :
    0 ≤ d ∧ d < TcpServer.findMaxFd s.sockfd s.clients := by
  have ho := hs.account.owned
  rcases hd with rfl | hd
  · obtain ⟨c, hc⟩ := ho.reg.listening (ho.listening hs.inTurn.thread)
    exact ⟨ho.os.nonneg hc, sockfd_lt_findMaxFd _ _⟩
  · obtain ⟨cl, hl⟩ := lookup_eq_some_of_mem hd
    refine ⟨ho.reg.nonneg (Clients.entry_eq_some hl), ?_⟩
    have hlt : cl.sockfd < TcpServer.findMaxFd s.sockfd s.clients := TcpServer.lt_findMaxFd hl
    rwa [ho.key hl] at hlt

theorem Step.bounded {a : Action} (h : Step s a s') (hs : Settled s) (hc : Copied s) (hi : Bounded s) :
    Bounded s' := by
  have hns := hs.account.orderly.noStart
  cases h with
  | startNext hc | startFails hc | startWatch hc | startThread hc | startAborts hc =>
    exact absurd hc (hns _ _)
  | findMaxFd hp =>
    rintro readSet' maxfds' ⟨⟩ d hd
    exact hs.lt_findMaxFd (hc _ (by rw [hp]; rfl) d hd)
  | selectReady hp =>
    rintro readSet' maxfds' ⟨⟩ d hd
    rw [Bool.and_eq_true] at hd
    exact hi _ _ (by rw [hp]; rfl) d hd.1
  | testStop | taskReturns | copyFds | selectFails | forEnd => exact fun _ _ he => by cases he
  | _ => first | exact hi | exact fun _ _ he => hi _ _ (by rw [‹s.pc = _›]; exact he)

/-! ### Turns -/

/-- What the lookup in its turn found a descriptor to be in this round: whether it was a client. -/
abbrev Turns := SOCKET → Option Bool

/-- The turns are written down as they come, and forgotten when the next round begins. -/
def Turns.next (turns : Turns) (s : State) (a : Action) : Turns :=
  match a, s.pc with
  | .selectReturns _ _, _ => fun _ => none
  | .lookup, .lookup r => Function.update turns r.fd (some (decide (r.fd ∈ s.clients)))
  | _, _ => turns

/-- The descriptor whose turn it is, and for which the socket call is still to be made. -/
def Pc.owes : Pc → Option SOCKET
  | .recv r _ | .accept r => some r.fd
  | _ => Option.none

/-- The turns of the descriptors below `n`, and the socket calls made, but for one that is owed. -/
structure Tally (readSet : FdSet) (n : ℤ) (owed : Option SOCKET) (turns : Turns) (log : List Event) :
    Prop where
  /-- The ready descriptors had their turns. -/
  turn : ∀ d : ℤ, turns d ≠ none ↔ readSet d = true ∧ d < n
  /-- `Recv` was called once on each client. -/
  recv : ∀ d, recvs d log = if turns d = some true ∧ owed ≠ some d then 1 else 0
  /-- `Accept` was called once on any other descriptor. -/
  accept : ∀ d, accepts d log = if turns d = some false ∧ owed ≠ some d then 1 else 0

namespace Tally

variable {readSet : FdSet} {n : ℤ} {owed : Option SOCKET} {turns : Turns} {log log' : List Event}

/-- The round begins. -/
theorem init (hset : ∀ d, readSet d = true → 0 ≤ d) (hlog : ∀ d, recvs d log = 0 ∧ accepts d log = 0) :
    Tally readSet 0 none (fun _ => none) log where
  turn d := by
    constructor
    · exact fun h => absurd rfl h
    · rintro ⟨hd, hlt⟩
      exact absurd hlt (Int.not_lt.mpr (hset d hd))
  recv d := by simp [(hlog d).1]
  accept d := by simp [(hlog d).2]

/-- A descriptor that is not ready has no turn. -/
theorem skip (h : Tally readSet n owed turns log) (hn : readSet n = false) :
    Tally readSet (n + 1) owed turns log where
  turn d := by
    rw [h.turn]
    constructor
    · rintro ⟨hd, hlt⟩
      exact ⟨hd, by omega⟩
    · rintro ⟨hd, hlt⟩
      have hne : d ≠ n := by
        rintro rfl
        rw [hn] at hd
        cases hd
      exact ⟨hd, by omega⟩
  recv := h.recv
  accept := h.accept

/-- A ready descriptor has its turn, and is owed its call. -/
theorem take (h : Tally readSet n none turns log) (hn : readSet n = true) (key : Bool) :
    Tally readSet (n + 1) (some n) (Function.update turns n (some key)) log := by
  have hnone : turns n = none := by
    by_contra hne
    exact absurd ((h.turn n).mp hne).2 (Int.lt_irrefl n)
  refine ⟨fun d => ?_, fun d => ?_, fun d => ?_⟩
  · by_cases hd : d = n
    · subst hd
      have hlt : d < d + 1 := by omega
      simp only [Function.update_self, hn, hlt, and_self, iff_true]
      exact Option.some_ne_none key
    · rw [Function.update_of_ne hd, h.turn]
      have hlt : d < n + 1 ↔ d < n := by omega
      rw [hlt]
  · rw [h.recv]
    by_cases hd : d = n
    · subst hd
      simp [hnone]
    · simp [hd, Ne.symm hd]
  · rw [h.accept]
    by_cases hd : d = n
    · subst hd
      simp [hnone]
    · simp [hd, Ne.symm hd]

/-- The call that is owed to a client is made. -/
theorem receive {d : SOCKET} {c : Option ConnId} {res : Option (List UInt8)}
    (h : Tally readSet n (some d) turns log) (hd : turns d = some true) :
    Tally readSet n none turns (log ++ [.recv d c res]) := by
  refine ⟨h.turn, fun d' => ?_, fun d' => ?_⟩
  · rw [recvs_append rfl, h.recv]
    by_cases hdd : d = d'
    · subst hdd
      simp [hd, Event.receivesOn]
    · simp [hdd, Event.receivesOn]
  · rw [accepts_append rfl, h.accept]
    by_cases hdd : d = d'
    · subst hdd
      simp [hd, Event.acceptsOn]
    · simp [hdd, Event.acceptsOn]

/-- The call that is owed to another descriptor is made. -/
theorem acceptOn {d : SOCKET} {res : Option (SOCKET × ConnId)}
    (h : Tally readSet n (some d) turns log) (hd : turns d = some false) :
    Tally readSet n none turns (log ++ [.accept d res]) := by
  refine ⟨h.turn, fun d' => ?_, fun d' => ?_⟩
  · rw [recvs_append rfl, h.recv]
    by_cases hdd : d = d'
    · subst hdd
      simp [hd, Event.receivesOn]
    · simp [hdd, Event.receivesOn]
  · rw [accepts_append rfl, h.accept]
    by_cases hdd : d = d'
    · subst hdd
      simp [hd, Event.acceptsOn]
    · simp [hdd, Event.acceptsOn]

/-- Something else is done. -/
theorem grows (h : Tally readSet n owed turns log) (hlog : Grows Event.offRound log log') :
    Tally readSet n owed turns log' where
  turn := h.turn
  recv d := (calls_grows hlog).1.trans (h.recv d)
  accept d := (calls_grows hlog).2.trans (h.accept d)

end Tally

/-- The calls of the round are those of the turns. -/
structure Counted (s : State) (turns : Turns) : Prop where
  /-- While `Select` waits no call was made. -/
  waiting : ∀ readSet maxfds atSelect, s.pc = .waiting readSet maxfds atSelect →
    ∀ d, recvs d s.os.log = 0 ∧ accepts d s.os.log = 0
  /-- A descriptor that is looked up is ready. -/
  lookup : ∀ r, s.pc = .lookup r → r.readSet r.fd = true
  /-- The turns and the calls so far. -/
  tally : ∀ r n, s.pc.todo = some (r, n) → Tally r.readSet n s.pc.owes turns s.os.log
  /-- `Recv` is called on a client. -/
  recv : ∀ r c, s.pc = .recv r c → turns r.fd = some true
  /-- `Accept` is called on another descriptor. -/
  accept : ∀ r, s.pc = .accept r → turns r.fd = some false
  /-- The listening socket is not a client. -/
  listen : ∀ r n, s.pc.todo = some (r, n) → turns s.sockfd ≠ some true

namespace Counted

variable {turns : Turns}

/-- Outside of a round there is nothing to count. -/
theorem of_pc (hw : s.pc.isWaiting = false) (ht : s.pc.todo = none) : Counted s turns := by
  constructor
  · intro readSet maxfds atSelect hp
    rw [hp] at hw
    cases hw
  all_goals
    intros
    simp_all [Pc.todo]

/-- A step of a call. -/
theorem aside (hi : Counted s turns) (hp : s'.pc = s.pc) (hfd : s'.sockfd = s.sockfd)
    (hlog : Grows Event.offRound s.os.log s'.os.log) : Counted s' turns where
  waiting readSet maxfds atSelect h d := by
    rw [(calls_grows hlog).1, (calls_grows hlog).2]
    exact hi.waiting _ _ _ (hp ▸ h) d
  lookup r h := hi.lookup r (hp ▸ h)
  tally r n h := by
    rw [hp] at h ⊢
    exact (hi.tally r n h).grows hlog
  recv r c h := hi.recv r c (hp ▸ h)
  accept r h := hi.accept r (hp ▸ h)
  listen r n h := by
    rw [hfd]
    exact hi.listen r n (hp ▸ h)

/-- The server thread goes on in its round, no call being owed any more. -/
theorem goesOn {turns' : Turns} {r : Round} {n : ℤ} (hp : s'.pc.todo = some (r, n))
    (htally : Tally r.readSet n none turns' s'.os.log) (howes : s'.pc.owes = none)
    (hlookup : ∀ r, s'.pc = .lookup r → r.readSet r.fd = true)
    (hlisten : turns' s'.sockfd ≠ some true) : Counted s' turns' where
  waiting readSet maxfds atSelect h := by
    rw [h] at hp
    cases hp
  lookup := hlookup
  tally r' n' h := by
    rw [hp] at h
    cases h
    rwa [howes]
  recv r' c h := by
    rw [h] at howes
    cases howes
  accept r' h := by
    rw [h] at howes
    cases howes
  listen r' n' h := hlisten

/-- The server thread goes on, and no descriptor has its turn. -/
theorem stays (hi : Counted s turns) {r r' : Round} {n : ℤ} (hp : s.pc.todo = some (r, n))
    (howes : s.pc.owes = none) (hp' : s'.pc.todo = some (r', n)) (hr : r'.readSet = r.readSet)
    (howes' : s'.pc.owes = none) (hlookup : ∀ r, s'.pc = .lookup r → r.readSet r.fd = true)
    (hfd : s'.sockfd = s.sockfd) (hlog : Grows Event.offRound s.os.log s'.os.log) : Counted s' turns := by
  have htally := hi.tally r n hp
  rw [howes, ← hr] at htally
  exact .goesOn hp' (htally.grows hlog) howes' hlookup (by rw [hfd]; exact hi.listen r n hp)

/-- A descriptor has its turn. -/
theorem takes (hi : Counted s turns) {r : Round} (hp : s.pc = .lookup r) (key : Bool)
    (hkey : r.fd = s.sockfd → key = false) (hfd : s'.sockfd = s.sockfd) (hlog : s'.os.log = s.os.log)
    (hp' : (∃ c, s'.pc = .recv r c ∧ key = true) ∨ (s'.pc = .accept r ∧ key = false)) :
    Counted s' (Function.update turns r.fd (some key)) := by
  have htally : Tally r.readSet r.fd none turns s.os.log := by
    simpa [hp, Pc.owes] using hi.tally r r.fd (by rw [hp]; rfl)
  have htaken := htally.take (hi.lookup r hp) key
  have hlisten : Function.update turns r.fd (some key) s.sockfd ≠ some true := by
    by_cases hr : r.fd = s.sockfd
    · rw [hr, Function.update_self, hkey hr]
      simp
    · rw [Function.update_of_ne (Ne.symm hr)]
      exact hi.listen r r.fd (by rw [hp]; rfl)
  rw [← hlog] at htaken
  rw [← hfd] at hlisten
  rcases hp' with ⟨c, hp', rfl⟩ | ⟨hp', rfl⟩
  · refine ⟨by simp [hp'], by simp [hp'], fun r' n' h => ?_, fun r' c' h => ?_, by simp [hp'],
      fun _ _ _ => hlisten⟩
    · rw [hp'] at h ⊢
      cases h
      exact htaken
    · rw [hp'] at h
      cases h
      exact Function.update_self _ _ _
  · refine ⟨by simp [hp'], by simp [hp'], fun r' n' h => ?_, by simp [hp'], fun r' h => ?_,
      fun _ _ _ => hlisten⟩
    · rw [hp'] at h ⊢
      cases h
      exact htaken
    · rw [hp'] at h
      cases h
      exact Function.update_self _ _ _

end Counted

theorem Step.counted {a : Action} {turns : Turns} (h : Step s a s') (hs : Settled s) (hb : Bounded s)
    (hi : Counted s turns) : Counted s' (turns.next s a) := by
  have ho := hs.account.orderly
  have hns := ho.noStart
  cases h with
  | startNext hc | startFails hc | startWatch hc | startThread hc | startAborts hc =>
    exact absurd hc (hns _ _)
  | testStop | taskReturns | copyFds | findMaxFd | selectFails | forEnd => exact .of_pc rfl rfl
  | select hp =>
    refine ⟨fun _ _ _ _ d => ?_, by simp, ?_, by simp, by simp, ?_⟩
    · simp [recvs, accepts]
    all_goals
      intro r n he
      cases he
  | @selectReady readSet maxfds atSelect ret ready hp =>
    have hset : ∀ d, (readSet d && ready d) = true → 0 ≤ d := fun d hd =>
      (hb readSet maxfds (by rw [hp]; rfl) d (Bool.and_eq_true_iff.mp hd).1).1
    exact .goesOn rfl (.init hset (hi.waiting _ _ _ hp)) rfl (by simp) (by simp [Turns.next])
  | forReady hp hlt hr =>
    refine hi.stays (by rw [hp]; rfl) (by rw [hp]; rfl) rfl rfl rfl (fun r' he => ?_) rfl (.one rfl)
    cases he
    exact hr
  | @forSkip r hp hlt hr =>
    have htally : Tally r.readSet r.fd none turns s.os.log := by
      simpa [hp, Pc.owes] using hi.tally r r.fd (by rw [hp]; rfl)
    exact .goesOn rfl ((htally.skip hr).grows (.one rfl)) rfl (by simp)
      (hi.listen r r.fd (by rw [hp]; rfl))
  | @lookupClient r cl hp hm hl =>
    have hmem : r.fd ∈ s.clients := mem_of_lookup hl
    have hne : r.fd ≠ s.sockfd := hs.account.owned.reg.ne_listen (Clients.entry_eq_some hl)
    have hturn : turns.next s .lookup = Function.update turns r.fd (some true) := by
      simp [Turns.next, hp, hmem]
    rw [hturn]
    exact hi.takes hp true (fun he => absurd he hne) rfl rfl (.inl ⟨cl.conn, rfl, rfl⟩)
  | @lookupNone r hp hm hl =>
    have hmem : r.fd ∉ s.clients := AList.lookup_eq_none.mp hl
    have hturn : turns.next s .lookup = Function.update turns r.fd (some false) := by
      simp [Turns.next, hp, hmem]
    rw [hturn]
    exact hi.takes hp false (fun _ => rfl) rfl rfl (.inr ⟨rfl, rfl⟩)
  | @recvEnd r c res hp =>
    have htally : Tally r.readSet (r.fd + 1) (some r.fd) turns s.os.log := by
      simpa [hp, Pc.owes] using hi.tally r (r.fd + 1) (by rw [hp]; rfl)
    exact .goesOn rfl (htally.receive (hi.recv r c hp)) rfl (by simp)
      (hi.listen r (r.fd + 1) (by rw [hp]; rfl))
  | @recvData r c bytes hp =>
    have htally : Tally r.readSet (r.fd + 1) (some r.fd) turns s.os.log := by
      simpa [hp, Pc.owes] using hi.tally r (r.fd + 1) (by rw [hp]; rfl)
    exact .goesOn rfl (htally.receive (hi.recv r c hp)) rfl (by simp)
      (hi.listen r (r.fd + 1) (by rw [hp]; rfl))
  | @acceptFails r hp =>
    have htally : Tally r.readSet (r.fd + 1) (some r.fd) turns s.os.log := by
      simpa [hp, Pc.owes] using hi.tally r (r.fd + 1) (by rw [hp]; rfl)
    exact .goesOn rfl (htally.acceptOn (hi.accept r hp)) rfl (by simp)
      (hi.listen r (r.fd + 1) (by rw [hp]; rfl))
  | @accept r d addr hp =>
    have htally : Tally r.readSet (r.fd + 1) (some r.fd) turns s.os.log := by
      simpa [hp, Pc.owes] using hi.tally r (r.fd + 1) (by rw [hp]; rfl)
    exact .goesOn rfl (htally.acceptOn (hi.accept r hp)) rfl (by simp)
      (hi.listen r (r.fd + 1) (by rw [hp]; rfl))
  | disconnectEof hp | deleteReturns hp =>
    exact hi.stays (by rw [hp]; rfl) (by rw [hp]; rfl) rfl rfl rfl (by simp) rfl .refl
  | @disconnectError r c n hp =>
    exact hi.stays (r := r) (n := r.fd + 1) (by rw [hp]; rfl) (by rw [hp]; rfl) rfl rfl rfl (by simp) rfl .refl
  | @callbackReturns r cb hp =>
    exact hi.stays (r := r) (n := r.fd + 1) (by rw [hp]; rfl) (by rw [hp]; rfl) rfl rfl rfl (by simp) rfl .refl
  | publish hp =>
    refine hi.stays (by rw [hp]; rfl) (by rw [hp]; rfl) rfl rfl rfl (by simp) rfl (.one ?_)
    cases ‹Callback› <;> rfl
  | emplace hp | fdSet hp =>
    exact hi.stays (by rw [hp]; rfl) (by rw [hp]; rfl) rfl rfl rfl (by simp) rfl (.one rfl)
  | bcastSend =>
    exact hi.aside rfl rfl (Client.sendMsg_grows (fun _ _ _ _ => rfl) _ _ _ _)
  | bcastFails | send =>
    exact hi.aside rfl rfl (.append (Client.sendMsg_grows (fun _ _ _ _ => rfl) _ _ _ _) rfl)
  | finishEnd _ hm => exact absurd (ho.shutdown.closing _ _ hm) (by simp [hs.inTurn.thread])
  | _ => exact hi.aside rfl rfl (by first | exact .refl | exact .one rfl)

/-! ### Whole rounds -/

/-- What was called in a round that is over. -/
structure Served (s : State) (r : Round) (turns : Turns) : Prop where
  /-- Every ready descriptor had its turn, and no other. -/
  turn : ∀ d, turns d ≠ none ↔ r.readSet d = true
  /-- `Recv` was called once on each that was a client in its turn, and on no other. -/
  recv : ∀ d, recvs d s.os.log = if turns d = some true then 1 else 0
  /-- `Accept` was called once on each that was not, and on no other. -/
  accept : ∀ d, accepts d s.os.log = if turns d = some false then 1 else 0
  /-- `Accept` was called once on the listening socket if that was ready. -/
  listen : r.readSet s.sockfd = true → accepts s.sockfd s.os.log = 1
  /-- No descriptor was served twice. -/
  once : ∀ d, recvs d s.os.log + accepts d s.os.log ≤ 1
  /-- A descriptor that was not ready was not served. -/
  idle : ∀ d, r.readSet d = false → recvs d s.os.log = 0 ∧ accepts d s.os.log = 0

theorem Counted.served {turns : Turns} (hi : Counted s turns) (hb : Bounded s) {r : Round}
    (hp : s.pc = .forHead r) (hend : r.maxfds ≤ r.fd) : Served s r turns := by
  have htally : Tally r.readSet r.fd none turns s.os.log := by
    simpa [hp, Pc.owes] using hi.tally r r.fd (by rw [hp]; rfl)
  have hrecv : ∀ d, recvs d s.os.log = if turns d = some true then 1 else 0 := by
    simpa using htally.recv
  have haccept : ∀ d, accepts d s.os.log = if turns d = some false then 1 else 0 := by
    simpa using htally.accept
  have hturn : ∀ d, turns d ≠ none ↔ r.readSet d = true := by
    intro d
    rw [htally.turn]
    refine ⟨And.left, fun hd => ⟨hd, ?_⟩⟩
    exact Int.lt_of_lt_of_le (hb r.readSet r.maxfds (by rw [hp]; rfl) d hd).2 hend
  refine ⟨hturn, hrecv, haccept, fun hd => ?_, fun d => ?_, fun d hd => ?_⟩
  · have hsome := (hturn _).mpr hd
    have hkey := hi.listen r r.fd (by rw [hp]; rfl)
    rw [haccept, if_pos]
    cases ht : turns s.sockfd with
    | none => exact absurd ht hsome
    | some key => cases key <;> simp_all
  · rw [hrecv, haccept]
    cases turns d with
    | none => simp
    | some key => cases key <;> simp
  · have hnone : turns d = none := by
      by_contra hne
      rw [(hturn d).mp hne] at hd
      cases hd
    rw [hrecv, haccept]
    simp [hnone]

/-- **No ready client starves, and none is served twice.** In every sequential run, `findMaxFd()` is
above every descriptor in `m_fds` at the head of the loop; and at the end of every round, whatever
`Select` reported ready, each ready descriptor had one turn and one call in it, `Recv` if it was a client
in its turn and `Accept` if it was not, and no call was made on any other. -/
theorem every_ready_descriptor_served {s₀ : State} {turns₀ : Turns} {x : State × Turns}
    (h₀ : Started s₀)
    (h : (machine.withHistory Turns.next).Reach (Machine.Beside Sequential) (s₀, turns₀) x) :
    (x.1.pc = .loopHead → ∀ d, x.1.fds d = true → d < findMaxFd x.1.sockfd x.1.clients) ∧
    ∀ r, x.1.pc = .forHead r → r.maxfds ≤ r.fd → Served x.1 r x.2 := by
  have hpc := h₀.initial.pc
  have hsettled : ∀ s, machine.Reach Sequential s₀ s → Settled s := fun s hr =>
    h₀.initial.settled.reach hr
  have hboth : (Copied x.1 ∧ Bounded x.1) ∧ Counted x.1 x.2 := by
    refine Machine.Reach.history_invariant (I := fun s turns => (Copied s ∧ Bounded s) ∧ Counted s turns)
      hsettled ⟨⟨.of_none ?_, ?_⟩, .of_pc ?_ ?_⟩ (fun s turns a s' hs hi hok hstep => ?_) h
    · rw [hpc]; rfl
    · intro readSet maxfds he
      rw [hpc] at he
      cases he
    · rw [hpc]; rfl
    · rw [hpc]; rfl
    · have hstep := (Step.of_step hstep).2
      have ho := hs.account.orderly
      exact ⟨⟨hstep.copied ho (hs.inTurn.keepsCopied ho a) (fun _ => hs.watched) hi.1.1,
        hstep.bounded hs hi.1.1 hi.1.2⟩, hstep.counted hs hi.1.2 hi.2⟩
  obtain ⟨⟨-, hbounded⟩, hcounted⟩ := hboth
  have hs := hsettled _ h.forget
  refine ⟨fun hp d hd => ?_, fun r hp hend => hcounted.served hbounded hp hend⟩
  have hagree := hs.agree (hs.inTurn.mutex_free hs.account.orderly (by rw [hp]; rfl))
    (by simp [hp, Pc.hand]) (by simp [hp])
  exact (hs.lt_findMaxFd ((hagree.fds d).mp hd)).2

/-- The loop over the descriptors is at its end. -/
def Pc.roundOver : Pc → Bool
  | .forHead r => r.maxfds ≤ r.fd
  | _ => false

/-- The listening socket and clients `1` and `2` are ready, and `2` is deleted in the callback of `1`. -/
theorem every_ready_descriptor_served_two_clients :
    ∃ x r, (machine.withHistory Turns.next).Reach (Machine.Beside Sequential) (started, fun _ => none) x ∧
      x.2 0 = some false ∧ x.2 1 = some true ∧ x.2 2 = some false ∧ Served x.1 r x.2 := by
  obtain ⟨x, hr, hover, h0, h1, h2⟩ : ∃ x,
      (machine.withHistory Turns.next).Reach (Machine.Beside Sequential) (started, fun _ => none) x ∧
      x.1.pc.roundOver = true ∧ x.2 0 = some false ∧ x.2 1 = some true ∧ x.2 2 = some false :=
    Machine.exists_reach (List.flatten [twoClients, selectActions [0, 1, 2],
      [.forStep, .lookup, .accept none, .forStep, .lookup, .recv (some [7]), .publish],
      deleteActions .callback 2, [.callbackReturns, .forStep, .lookup, .accept none]]) (by decide)
  unfold Pc.roundOver at hover
  split at hover
  · next r hp =>
    exact ⟨x, r, hr, h0, h1, h2,
      (every_ready_descriptor_served started_started hr).2 r hp (of_decide_eq_true hover)⟩
  · cases hover

end TcpServer

end SocketsCpp
