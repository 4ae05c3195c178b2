import SocketsCpp.TcpServer.Sequential

/-!
# Dispatching ready descriptors

`serverTask` walks the descriptors that `Select` reported ready and takes each as a client
if it is in the table, and as the listening socket if it is not. That is right as long as
no client that is still to be visited leaves the table in the meantime: neither in a
callback of the same round (`erasesReady`) nor while `Select` waited (`reportsErased`).
-/

namespace SocketsCpp.TcpServer

open SocketsCpp.Library

/-- The round, and the first descriptor of it that is not visited yet. -/
def Pc.todo : Pc → Option (Round × ℤ)
  | .forHead r | .lookup r => some (r, r.fd)
  | .recv r _ | .disconnected r _ _ | .deleting r | .publish r _ | .callback r _ | .accept r
  | .emplace r _ _ | .fdSet r _ => some (r, r.fd + 1)
  | _ => Option.none

/-- `deleteClient` erases a client that is ready and not visited yet. -/
def erasesReady (s : State) (a : Action) : Bool :=
  match a, s.mutex, s.pc.todo with
  | .step w _ _, some (w', .deleteErase h _), some (r, n) => w = w' ∧ r.readSet h ∧ n ≤ h
  | _, _, _ => false

/-- `Select` reports a client ready that was erased while it waited. -/
def reportsErased (s : State) (a : Action) : Bool :=
  match a, s.pc with
  | .selectReturns _ ready, .waiting readSet maxfds atSelect =>
      (List.range maxfds.toNat).any fun d =>
        readSet d && ready d && (atSelect d).isSome && decide (s.clients.conn d ≠ atSelect d)
  | _, _ => false

/-- Sequential runs in which no client leaves the table between the call of `Select` and the
visit of its descriptor. -/
def KeepsReady (s : State) (a : Action) : Prop :=
  Sequential s a ∧ erasesReady s a = false ∧ reportsErased s a = false

instance (s : State) (a : Action) : Decidable (KeepsReady s a) := inferInstanceAs (Decidable (_ ∧ _))

/-- The descriptor is the listening socket, or the client that it was when `Select` was
called. -/
def SameAs (s : State) (atSelect : ClientHandle → Option ConnId) (d : SOCKET) : Prop :=
  d = s.sockfd ∨ ∃ c, atSelect d = some c ∧ s.clients.conn d = some c

theorem SameAs.mono {s s' : State} {atSelect : ClientHandle → Option ConnId} {d : SOCKET}
    (h : SameAs s atSelect d) (hs : s'.sockfd = s.sockfd)
    (hc : ∀ c, s.clients.conn d = some c → s'.clients.conn d = some c) : SameAs s' atSelect d :=
  h.imp (fun he => he.trans hs.symm) fun ⟨c, hat, hconn⟩ => ⟨c, hat, hc c hconn⟩

/-- What `Select` waits for is the listening socket and clients. -/
def Waiting (s : State) : Prop :=
  ∀ readSet maxfds atSelect, s.pc = .waiting readSet maxfds atSelect →
    ∀ d, readSet d = true → d = s.sockfd ∨ ∃ c, atSelect d = some c

theorem Step.waiting {s s' : State} {a : Action} (h : Step s a s') (hs : Settled s) (hc : Copied s)
    (hi : Waiting s) : Waiting s' := by
  have hns := hs.account.orderly.noStart
  cases h with
  | startNext hc | startFails hc | startWatch hc | startThread hc | startAborts hc =>
    exact absurd hc (hns _ _)
  | @select readSet maxfds hp =>
    intro readSet' maxfds' atSelect he d hd
    cases he
    refine (hc readSet (by rw [hp]; rfl) d hd).imp id fun hm => ?_
    obtain ⟨cl, hl⟩ := lookup_eq_some_of_mem hm
    exact ⟨cl.conn, by simp [Clients.conn, hl]⟩
  | finishEnd _ hm =>
    exact absurd (hs.account.orderly.shutdown.closing _ _ hm) (by simp [hs.inTurn.thread])
  | _ => first | exact hi | exact fun _ _ _ he => by simp at he

/-- The descriptors still to be visited are what they were when `Select` was called. -/
def Todo (s : State) : Prop :=
  ∀ r n, s.pc.todo = some (r, n) → 0 ≤ n ∧
    ∀ d, n ≤ d → d < r.maxfds → r.readSet d = true → SameAs s r.atSelect d

/-- The server thread moves on, and no client that is still to be visited leaves the table. -/
theorem Todo.move {s s' : State} (h : Todo s) {r r' : Round} {n n' : ℤ} (hp : s.pc.todo = some (r, n))
    (hp' : s'.pc.todo = some (r', n')) (hr : r' = { r with fd := r'.fd }) (hn : n ≤ n')
    (hs : s'.sockfd = s.sockfd) (hc : ∀ d c, s.clients.conn d = some c → s'.clients.conn d = some c) :
    Todo s' := by
  intro r'' n'' he
  rw [hp'] at he
  cases he
  obtain ⟨h0, htodo⟩ := h r n hp
  refine ⟨Int.le_trans h0 hn, fun d hd hlt hread => ?_⟩
  rw [hr] at hlt hread ⊢
  exact (htodo d (Int.le_trans hn hd) hlt hread).mono hs (hc d)

theorem Step.todo {s s' : State} {a : Action} (h : Step s a s') (hok : KeepsReady s a)
    (hs : Settled s) (hw : Waiting s) (hi : Todo s) : Todo s' := by
  have ho := hs.account.orderly
  have hns := ho.noStart
  obtain ⟨hseq, herase, hreport⟩ := hok
  cases h with
  | startNext hc | startFails hc | startWatch hc | startThread hc | startAborts hc =>
    exact absurd hc (hns _ _)
  | @selectReady readSet maxfds atSelect ret ready hp hret =>
    intro r n he
    cases he
    refine ⟨Int.le_refl _, fun d h0 hlt hd => ?_⟩
    obtain ⟨hread, hready⟩ : readSet d = true ∧ ready d = true := by simpa using hd
    refine (hw _ _ _ hp d hread).imp id fun ⟨c, hat⟩ => ⟨c, hat, ?_⟩
    lift d to ℕ using h0
    simp only [reportsErased, hp, List.any_eq_false, List.mem_range] at hreport
    have hlt : (d : ℤ) < maxfds := hlt
    have := hreport d (by omega)
    simpa [hread, hready, hat] using this
  | @emplace r d c hp hm =>
    refine hi.move (by rw [hp]; rfl) rfl rfl (Int.le_refl _) rfl fun d' c' hc => ?_
    have hn := hs.account.owned.emplace_fresh hp hm
    have hne : d' ≠ d := by rintro rfl; exact hn (Clients.mem_of_conn hc)
    simpa [Clients.conn_emplace hn, hne] using hc
  | disconnectEof hp | disconnectError hp =>
    exact hi.move (by rw [hp]; rfl) rfl rfl (Int.le_refl _) rfl fun d' c' hc => by simpa using hc
  | @deleteErase w h c ans order hc hm =>
    intro r n he
    obtain ⟨h0, htodo⟩ := hi r n he
    refine ⟨h0, fun d hd hlt hread => (htodo d hd hlt hread).mono rfl fun c' hc' => ?_⟩
    have hne : d ≠ h := by
      rintro rfl
      have he : s.pc.todo = some (r, n) := he
      simp [erasesReady, hm, he, hread, hd] at herase
    simpa [Clients.conn_erase, hne] using hc'
  | finishEnd _ hm =>
    exact absurd (ho.shutdown.closing _ _ hm) (by simp [hs.inTurn.thread])
  | forReady hp | recvEnd hp | recvData hp | deleteReturns hp | publish hp | callbackReturns hp
  | acceptFails hp | accept hp | fdSet hp =>
    exact hi.move (by rw [hp]; rfl) rfl rfl (Int.le_refl _) rfl fun _ _ hc => hc
  | forSkip hp | lookupClient hp | lookupNone hp =>
    exact hi.move (by rw [hp]; rfl) rfl rfl (Int.le_add_one (Int.le_refl _)) rfl fun _ _ hc => hc
  | _ => first | exact hi | exact fun _ _ he => by cases he

/-- A descriptor is taken for the listening socket, or for a client, only if it was that when
`Select` was called. -/
structure Dispatched (s : State) : Prop where
  /-- A descriptor that is looked up is ready. -/
  lookup : ∀ r, s.pc = .lookup r → r.fd < r.maxfds ∧ r.readSet r.fd = true
  /-- `Accept` is called on the listening socket. -/
  accept : ∀ r, s.pc = .accept r → r.fd = s.sockfd
  /-- `Recv` is called on a client that `Select` was told about. -/
  recv : ∀ r c, s.pc = .recv r c → r.atSelect r.fd = some c

theorem Dispatched.of_pc {s : State} (hl : ∀ r, s.pc ≠ .lookup r) (ha : ∀ r, s.pc ≠ .accept r)
    (hr : ∀ r c, s.pc ≠ .recv r c) : Dispatched s :=
  ⟨fun r h => absurd h (hl r), fun r h => absurd h (ha r), fun r c h => absurd h (hr r c)⟩

theorem Step.dispatched {s s' : State} {a : Action} (h : Step s a s') (hs : Settled s) (ht : Todo s)
    (hi : Dispatched s) : Dispatched s' := by
  have ho := hs.account.orderly
  have hns := ho.noStart
  cases h with
  | startNext hc | startFails hc | startWatch hc | startThread hc | startAborts hc =>
    exact absurd hc (hns _ _)
  | forReady hp hlt hread =>
    refine ⟨fun r' he => ?_, by simp, by simp⟩
    cases he
    exact ⟨hlt, hread⟩
  | @lookupClient r cl hp hm hl =>
    refine ⟨by simp, by simp, fun r' c' he => ?_⟩
    cases he
    obtain ⟨hlt, hread⟩ := hi.lookup r hp
    rcases (ht r r.fd (by rw [hp]; rfl)).2 r.fd (Int.le_refl _) hlt hread with hfd | ⟨c, hat, hconn⟩
    · exact absurd hfd (hs.account.owned.reg.ne_listen (Clients.entry_eq_some hl))
    · rw [Clients.conn_of_lookup hl] at hconn
      exact hat.trans hconn.symm
  | @lookupNone r hp hm hl =>
    refine ⟨by simp, fun r' he => ?_, by simp⟩
    cases he
    obtain ⟨hlt, hread⟩ := hi.lookup r hp
    rcases (ht r r.fd (by rw [hp]; rfl)).2 r.fd (Int.le_refl _) hlt hread with hfd | ⟨c, -, hconn⟩
    · exact hfd
    · exact absurd (Clients.mem_of_conn hconn) (AList.lookup_eq_none.mp hl)
  | finishEnd _ hm =>
    exact absurd (ho.shutdown.closing _ _ hm) (by simp [hs.inTurn.thread])
  | _ =>
    first
    | exact ⟨hi.lookup, hi.accept, hi.recv⟩
    | exact .of_pc (by simp) (by simp) (by simp)

/-- In sequential runs no client is erased between the copy of `m_fds` and `Select`. -/
theorem InTurn.keepsCopied {s : State} (hi : InTurn s) (ho : Orderly s) (a : Action) :
    erasesCopied s a = false := by
  unfold erasesCopied
  split
  · next hm hp =>
    have hfree := hi.mutex_free ho (by revert hp; cases s.pc <;> simp [Pc.copied, Pc.hosts])
    rw [hm] at hfree
    cases hfree
  · rfl

/-- **Ready descriptors are dispatched as what they were when `Select` reported them**, as long as
no client leaves the table between the call of `Select` and the visit of its descriptor: `Accept` is
called on the listening socket, and `Recv` on a connection that was in the table when `Select` was
called. -/
theorem dispatched_as_reported {s₀ s : State} (h₀ : Started s₀) (h : machine.Reach KeepsReady s₀ s) :
    (∀ r, s.pc = .accept r → r.fd = s.sockfd) ∧
    (∀ r c, s.pc = .recv r c → r.atSelect r.fd = some c ∧ s.os.owner r.fd = some c) := by
  have hsettled : ∀ {s}, machine.Reach KeepsReady s₀ s → Settled s := fun hr =>
    h₀.initial.settled.reach (hr.mono fun _ _ hok => hok.1)
  have hpc := h₀.initial.pc
  obtain ⟨-, -, -, hd⟩ : Copied s ∧ Waiting s ∧ Todo s ∧ Dispatched s :=
    Machine.Reach.invariant_of (I := fun s => Copied s ∧ Waiting s ∧ Todo s ∧ Dispatched s)
      (fun _ hr => hsettled hr)
      ⟨.of_none (by rw [hpc]; rfl), fun _ _ _ he => by simp [hpc] at he,
        fun _ _ he => by simp [hpc, Pc.todo] at he, .of_pc (by simp [hpc]) (by simp [hpc]) (by simp [hpc])⟩
      (fun s a s' hs hi hok hstep => by
        have hstep := (Step.of_step hstep).2
        obtain ⟨hcopied, hwaiting, htodo, hdispatched⟩ := hi
        have ho := hs.account.orderly
        exact ⟨hstep.copied ho (hs.inTurn.keepsCopied ho a) (fun _ => hs.watched) hcopied,
          hstep.waiting hs hcopied hwaiting, hstep.todo hok hs hwaiting htodo,
          hstep.dispatched hs htodo hdispatched⟩) h
  have hs := hsettled h
  refine ⟨hd.accept, fun r c hp => ⟨hd.recv r c hp, ?_⟩⟩
  have hconn := hs.pointing r.fd c (by rw [hp]; rfl)
  obtain ⟨cl, hl, rfl⟩ := Option.map_eq_some_iff.mp hconn
  exact hs.account.owned.live (hs.inTurn.mutex_free hs.account.orderly (by rw [hp]; rfl)) hl

/-- The server thread is about to call `Accept` on the descriptor. -/
def Pc.acceptsOn (pc : Pc) (d : SOCKET) : Bool :=
  match pc with
  | .accept r => r.fd = d
  | _ => false

/-- The server thread is about to call `Recv` on the descriptor. -/
def Pc.recvsOn (pc : Pc) (d : SOCKET) : Bool :=
  match pc with
  | .recv r _ => r.fd = d
  | _ => false

/-- Data from client `1`, in whose callback client `h` is deleted; then the loop goes on. -/
def deleteInCallback (h : ClientHandle) : List Action :=
  [.forStep, .forStep, .lookup, .recv (some [7]), .publish] ++ deleteActions .callback h ++
  [.callbackReturns, .forStep, .lookup]

theorem dispatched_as_reported_two_clients :
    ∃ s r c, machine.Reach KeepsReady started s ∧ s.pc = .recv r c ∧ r.fd = 2 ∧
      r.atSelect 2 = some c ∧ s.os.owner 2 = some c := by
  obtain ⟨s, hr, hp⟩ : ∃ s, machine.Reach KeepsReady started s ∧ s.pc.recvsOn 2 = true :=
    Machine.exists_reach (twoClients ++ selectActions [1, 2] ++ deleteInCallback 1) (by decide)
  unfold Pc.recvsOn at hp
  split at hp
  · next r c hpc =>
    have hfd : r.fd = 2 := by simpa using hp
    obtain ⟨hat, howner⟩ := (dispatched_as_reported started_started hr).2 r c hpc
    rw [hfd] at hat howner
    exact ⟨s, r, c, hr, hpc, hfd, hat, howner⟩
  · cases hp

/-- Clients `1` and `2` are ready, and the callback of `1` deletes `2`: the next call is
`Accept(2)`. -/
theorem not_dispatched_as_reported :
    ¬ ∀ s₀ s, Started s₀ → machine.Reach Sequential s₀ s → ∀ r, s.pc = .accept r → r.fd = s.sockfd := by
  intro hall
  obtain ⟨s, hr, hp, hs⟩ : ∃ s, machine.Reach Sequential started s ∧ s.pc.acceptsOn 2 = true ∧
      s.sockfd ≠ 2 :=
    Machine.exists_reach (twoClients ++ selectActions [1, 2] ++ deleteInCallback 2) (by decide)
  unfold Pc.acceptsOn at hp
  split at hp
  · next r hpc =>
    have hfd : r.fd = 2 := by simpa using hp
    exact hs ((hall started s started_started hr r hpc).symm.trans hfd)
  · cases hp

end SocketsCpp.TcpServer
