import SocketsCpp.TcpServer.Model

/-!
# Who holds which descriptor

An abstract account of the server's descriptors: which connection each entry of the
table was made for, which descriptors are open, which connection the server thread
holds in its hands between `Accept` and `emplace`, and which entries are being closed.
`Registry.Ok` says that these agree: every open descriptor has one holder, and an
entry that is not being closed has its connection open under its own handle.

The lemmas say that `Ok` survives each change that a step of the server makes:
`accept`, `emplace`, and the stages of `deleteClient` and `finish`.
-/

namespace SocketsCpp.TcpServer

/-- What is being closed. -/
inductive Closing where
  /-- Nothing. -/
  | none
  /-- The entry under `h`, not closed yet. -/
  | found (h : ClientHandle) (d : SOCKET) (c : ConnId)
  /-- The entry under `h`, closed and not erased yet. -/
  | closed (h : ClientHandle) (c : ConnId)
  /-- Every entry, but those under `rest` not yet. -/
  | all (rest : List ClientHandle)

/-- Who holds which descriptor. -/
structure Registry where
  /-- The listening socket. -/
  listen : SOCKET
  /-- The descriptor and the connection of an entry. -/
  entry : ClientHandle → Option (SOCKET × ConnId)
  /-- The connections open. -/
  owner : SOCKET → Option ConnId
  /-- The next connection number. -/
  next : ConnId
  /-- The connection accepted and not yet in the table. -/
  hand : Option (SOCKET × ConnId)
  /-- What is being closed. -/
  closing : Closing

namespace Registry

/-- The entry under `h` is closed already. -/
def Dead (r : Registry) (h : ClientHandle) : Prop :=
  match r.closing with
  | .closed h' _ => h = h'
  | .all rest => h ∉ rest
  | _ => False

/-- What is being closed is in the table. -/
def Closable (r : Registry) : Prop :=
  match r.closing with
  | .none => True
  | .found h d c => r.entry h = some (d, c)
  | .closed h c => ∃ d, r.entry h = some (d, c)
  | .all rest => r.hand = Option.none ∧ rest.Nodup ∧ ∀ h ∈ rest, r.entry h ≠ Option.none

/-- Descriptors, table and hands agree. -/
structure Ok (r : Registry) : Prop where
  /-- A client is stored under its own descriptor. -/
  key : ∀ {h d c}, r.entry h = some (d, c) → d = h
  /-- Handles are descriptors. -/
  nonneg : ∀ {h d c}, r.entry h = some (d, c) → 0 ≤ h
  /-- The listening socket is not a client. -/
  ne_listen : ∀ {h d c}, r.entry h = some (d, c) → h ≠ r.listen
  /-- An entry is of a connection given out. -/
  lt : ∀ {h d c}, r.entry h = some (d, c) → c < r.next
  /-- Two entries are of two connections. -/
  distinct : ∀ {h h' d d' c}, r.entry h = some (d, c) → r.entry h' = some (d', c) → h = h'
  /-- The connection of an entry that is not being closed is open. -/
  live : ∀ {h d c}, r.entry h = some (d, c) → ¬ r.Dead h → r.owner h = some c
  /-- An open descriptor has a holder. -/
  cover : ∀ {d c}, r.owner d = some c →
    d = r.listen ∨ r.hand = some (d, c) ∨ (¬ r.Dead d ∧ r.entry d = some (d, c))
  /-- The connection in hand is open. -/
  hand_owner : ∀ {d c}, r.hand = some (d, c) → r.owner d = some c
  /-- The connection in hand is not the listening socket. -/
  hand_listen : ∀ {d c}, r.hand = some (d, c) → d ≠ r.listen
  /-- An entry under the descriptor in hand is closed already. -/
  hand_dead : ∀ {d c x}, r.hand = some (d, c) → r.entry d = some x → r.Dead d
  /-- The connection in hand has no entry. -/
  hand_conn : ∀ {d c h d' c'}, r.hand = some (d, c) → r.entry h = some (d', c') → c' ≠ c
  /-- The listening socket is open. -/
  listening : r.listen ≠ INVALID_SOCKET → ∃ c, r.owner r.listen = some c
  /-- What is being closed is in the table. -/
  closable : r.Closable

/-! ### Accepting -/

/-- `Accept` returned `d`. -/
def accept (r : Registry) (d : SOCKET) : Registry :=
  { r with owner := Function.update r.owner d (some r.next), next := r.next + 1, hand := some (d, r.next) }

/-- The connection in hand is emplaced. -/
def emplace (r : Registry) (d : SOCKET) (c : ConnId) : Registry :=
  { r with entry := Function.update r.entry d (some (d, c)), hand := none }

theorem Ok.accept {r : Registry} (hr : r.Ok) {d : SOCKET} (hh : r.hand = none) (h0 : 0 ≤ d)
    (hd : r.owner d = none) (hc : ∀ rest, r.closing ≠ .all rest) : (r.accept d).Ok := by
  have hdead : ∀ h, (r.accept d).Dead h ↔ r.Dead h := fun _ => Iff.rfl
  have hlisten : d ≠ r.listen := by
    intro heq
    obtain ⟨c, hc⟩ := hr.listening (by rintro h; rw [heq, h] at h0; exact absurd h0 (by decide))
    rw [← heq, hd] at hc; cases hc
  have hentry : ∀ {x}, r.entry d = some x → r.Dead d := by
    rintro ⟨d', c⟩ hx
    by_contra hnd
    rw [hr.live hx hnd] at hd; cases hd
  constructor
  · exact hr.key
  · exact hr.nonneg
  · exact hr.ne_listen
  · intro h d' c hx; exact Nat.lt_succ_of_lt (hr.lt hx)
  · exact hr.distinct
  · intro h d' c hx hnd
    have hne : h ≠ d := by rintro rfl; exact hnd (hentry hx)
    simpa [Registry.accept, hne] using hr.live hx hnd
  · intro d' c hx
    by_cases hne : d' = d
    · subst hne
      simp only [Registry.accept, Function.update_self, Option.some.injEq] at hx
      subst hx
      exact .inr (.inl rfl)
    · simp only [Registry.accept, Function.update_of_ne hne] at hx
      rcases hr.cover hx with h | h | h
      · exact .inl h
      · rw [hh] at h; cases h
      · exact .inr (.inr h)
  · intro d' c hx
    simp only [Registry.accept, Option.some.injEq, Prod.mk.injEq] at hx
    obtain ⟨rfl, rfl⟩ := hx
    simp [Registry.accept]
  · intro d' c hx
    simp only [Registry.accept, Option.some.injEq, Prod.mk.injEq] at hx
    exact hx.1 ▸ hlisten
  · intro d' c x hx hy
    simp only [Registry.accept, Option.some.injEq, Prod.mk.injEq] at hx
    obtain ⟨rfl, -⟩ := hx
    exact hentry hy
  · intro d' c h d'' c' hx hy
    simp only [Registry.accept, Option.some.injEq, Prod.mk.injEq] at hx
    have := hr.lt hy
    rintro rfl
    exact absurd (hx.2 ▸ this) (Nat.lt_irrefl _)
  · intro hne
    obtain ⟨c, hc⟩ := hr.listening hne
    exact ⟨c, by simpa [Registry.accept, Ne.symm hlisten] using hc⟩
  · have h := hr.closable
    unfold Closable at h ⊢
    revert h
    cases hcl : r.closing with
    | all rest => exact absurd hcl (hc rest)
    | _ => simp [Registry.accept, hcl]

theorem Ok.emplace {r : Registry} (hr : r.Ok) {d : SOCKET} {c : ConnId} (hh : r.hand = some (d, c))
    (hl : ∀ {d' c}, r.owner d' = some c → c < r.next ∧ 0 ≤ d') (hc : r.closing = .none) :
    (r.emplace d c).Ok := by
  have hnd : ∀ h, ¬ r.Dead h := by intro h; simp [Dead, hc]
  have hnone : r.entry d = none := by
    cases hx : r.entry d with
    | none => rfl
    | some x => exact absurd (hr.hand_dead hh hx) (hnd d)
  have hcases : ∀ {h d' c'}, (r.emplace d c).entry h = some (d', c') →
      (h = d ∧ d' = d ∧ c' = c) ∨ (h ≠ d ∧ r.entry h = some (d', c')) := by
    intro h d' c' hx
    by_cases hne : h = d
    · subst hne
      simp only [Registry.emplace, Function.update_self, Option.some.injEq, Prod.mk.injEq] at hx
      exact .inl ⟨rfl, hx.1.symm, hx.2.symm⟩
    · simp only [Registry.emplace, Function.update_of_ne hne] at hx
      exact .inr ⟨hne, hx⟩
  have hown := hr.hand_owner hh
  constructor
  · intro h d' c' hx
    rcases hcases hx with ⟨rfl, rfl, -⟩ | ⟨-, hx⟩
    · rfl
    · exact hr.key hx
  · intro h d' c' hx
    rcases hcases hx with ⟨rfl, -, -⟩ | ⟨-, hx⟩
    · exact (hl hown).2
    · exact hr.nonneg hx
  · intro h d' c' hx
    rcases hcases hx with ⟨rfl, -, -⟩ | ⟨-, hx⟩
    · exact hr.hand_listen hh
    · exact hr.ne_listen hx
  · intro h d' c' hx
    rcases hcases hx with ⟨-, -, rfl⟩ | ⟨-, hx⟩
    · exact (hl hown).1
    · exact hr.lt hx
  · intro h h' d' d'' c' hx hy
    rcases hcases hx with ⟨h1, -, h2⟩ | ⟨-, hx'⟩ <;> rcases hcases hy with ⟨h3, -, h4⟩ | ⟨-, hy'⟩
    · exact h1.trans h3.symm
    · exact absurd h2 (hr.hand_conn hh hy')
    · exact absurd h4 (hr.hand_conn hh hx')
    · exact hr.distinct hx' hy'
  · intro h d' c' hx hnd'
    rcases hcases hx with ⟨rfl, -, rfl⟩ | ⟨-, hx⟩
    · exact hown
    · exact hr.live hx hnd'
  · intro d' c' hx
    rcases hr.cover hx with h | h | ⟨-, h⟩
    · exact .inl h
    · rw [hh] at h
      cases h
      exact .inr (.inr ⟨hnd _, by simp [Registry.emplace]⟩)
    · have hne : d' ≠ d := by rintro rfl; rw [hnone] at h; cases h
      exact .inr (.inr ⟨hnd _, by simpa [Registry.emplace, hne] using h⟩)
  · intro d' c' hx; cases hx
  · intro d' c' hx; cases hx
  · intro d' c' x hx; cases hx
  · intro d' c' h d'' c'' hx; cases hx
  · exact hr.listening
  · simp [Closable, Registry.emplace, hc]

/-! ### Deleting a client -/

/-- `deleteClient` found the entry under `h`. -/
def find (r : Registry) (h : ClientHandle) (d : SOCKET) (c : ConnId) : Registry :=
  { r with closing := .found h d c }

/-- `deleteClient` closed the entry under `h`. -/
def close (r : Registry) (h : ClientHandle) (c : ConnId) : Registry :=
  { r with owner := Function.update r.owner h none, closing := .closed h c }

/-- `deleteClient` erased the entry under `h`. -/
def erase (r : Registry) (h : ClientHandle) : Registry :=
  { r with entry := Function.update r.entry h none, closing := .none }

theorem Ok.find {r : Registry} (hr : r.Ok) {h : ClientHandle} {d : SOCKET} {c : ConnId}
    (hc : r.closing = .none) (he : r.entry h = some (d, c)) : (r.find h d c).Ok := by
  have hnd : ∀ h', ¬ r.Dead h' := by intro h'; simp [Dead, hc]
  refine ⟨hr.key, hr.nonneg, hr.ne_listen, hr.lt, hr.distinct, fun hx _ => hr.live hx (hnd _), ?_,
    hr.hand_owner, hr.hand_listen, fun hx hy => absurd (hr.hand_dead hx hy) (hnd _), hr.hand_conn,
    hr.listening, he⟩
  intro d' c' hx
  rcases hr.cover hx with h1 | h1 | ⟨-, h1⟩
  · exact .inl h1
  · exact .inr (.inl h1)
  · exact .inr (.inr ⟨fun hd => hd, h1⟩)

/-- The entry that `deleteClient` found is open under its own handle. -/
theorem Ok.found {r : Registry} (hr : r.Ok) {h : ClientHandle} {d : SOCKET} {c : ConnId}
    (hc : r.closing = .found h d c) : d = h ∧ r.owner h = some c := by
  have he : r.entry h = some (d, c) := by
    have := hr.closable
    simpa [Closable, hc] using this
  exact ⟨hr.key he, hr.live he (by simp [Dead, hc])⟩

theorem Ok.close {r : Registry} (hr : r.Ok) {h : ClientHandle} {d : SOCKET} {c : ConnId}
    (hc : r.closing = .found h d c) : (r.close h c).Ok := by
  have hnd : ∀ h', ¬ r.Dead h' := by intro h'; simp [Dead, hc]
  have hdead : ∀ h', (r.close h c).Dead h' ↔ h' = h := fun _ => Iff.rfl
  have he : r.entry h = some (d, c) := by
    have := hr.closable
    simpa [Closable, hc] using this
  have hown : r.owner h = some c := (hr.found hc).2
  have hhand : ∀ {d' c'}, r.hand = some (d', c') → d' ≠ h := by
    rintro d' c' hx rfl
    have := (hr.hand_owner hx).symm.trans hown
    exact hr.hand_conn hx he (Option.some.inj this).symm
  constructor
  · exact hr.key
  · exact hr.nonneg
  · exact hr.ne_listen
  · exact hr.lt
  · exact hr.distinct
  · intro h' d' c' hx hnd'
    rw [hdead] at hnd'
    simpa [Registry.close, hnd'] using hr.live hx (hnd h')
  · intro d' c' hx
    have hne : d' ≠ h := by rintro rfl; simp [Registry.close] at hx
    simp only [Registry.close, Function.update_of_ne hne] at hx
    rcases hr.cover hx with h1 | h1 | ⟨-, h1⟩
    · exact .inl h1
    · exact .inr (.inl h1)
    · exact .inr (.inr ⟨fun hd => hne ((hdead _).mp hd), h1⟩)
  · intro d' c' hx
    simpa [Registry.close, hhand hx] using hr.hand_owner hx
  · exact hr.hand_listen
  · intro d' c' x hx hy
    exact absurd (hr.hand_dead hx hy) (hnd d')
  · exact hr.hand_conn
  · intro hne
    obtain ⟨c', hc'⟩ := hr.listening hne
    exact ⟨c', by simpa [Registry.close, Ne.symm (hr.ne_listen he)] using hc'⟩
  · exact ⟨d, he⟩

theorem Ok.erase {r : Registry} (hr : r.Ok) {h : ClientHandle} {c : ConnId}
    (hc : r.closing = .closed h c) : (r.erase h).Ok := by
  have hdead : ∀ h', r.Dead h' ↔ h' = h := by intro h'; simp [Dead, hc]
  have hnd : ∀ h', ¬ (r.erase h).Dead h' := fun _ hd => hd
  have hcases : ∀ {h' x}, (r.erase h).entry h' = some x → h' ≠ h ∧ r.entry h' = some x := by
    intro h' x hx
    have hne : h' ≠ h := by rintro rfl; simp [Registry.erase] at hx
    exact ⟨hne, by simpa [Registry.erase, hne] using hx⟩
  constructor
  · intro h' d' c' hx; exact hr.key (hcases hx).2
  · intro h' d' c' hx; exact hr.nonneg (hcases hx).2
  · intro h' d' c' hx; exact hr.ne_listen (hcases hx).2
  · intro h' d' c' hx; exact hr.lt (hcases hx).2
  · intro h' h'' d' d'' c' hx hy; exact hr.distinct (hcases hx).2 (hcases hy).2
  · intro h' d' c' hx _
    exact hr.live (hcases hx).2 fun hd => (hcases hx).1 ((hdead _).mp hd)
  · intro d' c' hx
    rcases hr.cover hx with h1 | h1 | ⟨h1, h2⟩
    · exact .inl h1
    · exact .inr (.inl h1)
    · have hne : d' ≠ h := fun he => h1 ((hdead _).mpr he)
      exact .inr (.inr ⟨hnd _, by simpa [Registry.erase, hne] using h2⟩)
  · exact hr.hand_owner
  · exact hr.hand_listen
  · intro d' c' x hx hy
    exact absurd ((hdead _).mp (hr.hand_dead hx (hcases hy).2)) (hcases hy).1
  · intro d' c' h' d'' c'' hx hy; exact hr.hand_conn hx (hcases hy).2
  · exact hr.listening
  · trivial

/-! ### Closing everything -/

/-- `finish` begins to close the clients. -/
def closeAll (r : Registry) (rest : List ClientHandle) : Registry := { r with closing := .all rest }

/-- `finish` closed the entry under `h`. -/
def closeNext (r : Registry) (h : ClientHandle) (rest : List ClientHandle) : Registry :=
  { r with owner := Function.update r.owner h none, closing := .all rest }

/-- `finish` closed the listening socket and cleared the table. -/
def clear (r : Registry) : Registry :=
  { r with
    listen := INVALID_SOCKET, entry := fun _ => none
    owner := if r.listen ≠ INVALID_SOCKET then Function.update r.owner r.listen none else r.owner
    closing := .none }

theorem Ok.closeAll {r : Registry} (hr : r.Ok) {rest : List ClientHandle} (hc : r.closing = .none)
    (hh : r.hand = none) (hn : rest.Nodup) (hrest : ∀ h, h ∈ rest ↔ r.entry h ≠ none) :
    (r.closeAll rest).Ok := by
  have hnd : ∀ h, ¬ r.Dead h := by intro h; simp [Dead, hc]
  have hdead : ∀ h, (r.closeAll rest).Dead h ↔ h ∉ rest := fun _ => Iff.rfl
  refine ⟨hr.key, hr.nonneg, hr.ne_listen, hr.lt, hr.distinct, fun hx _ => hr.live hx (hnd _), ?_,
    hr.hand_owner, hr.hand_listen, ?_, hr.hand_conn, hr.listening, hh, hn, fun h hm => (hrest h).mp hm⟩
  · intro d c hx
    rcases hr.cover hx with h | h | ⟨-, h⟩
    · exact .inl h
    · exact .inr (.inl h)
    · exact .inr (.inr ⟨by rw [hdead, not_not, hrest, h]; simp, h⟩)
  · intro d c x hx
    exact absurd (hh.symm.trans hx) (by simp)

theorem Ok.closeNext {r : Registry} (hr : r.Ok) {h : ClientHandle} {rest : List ClientHandle}
    (hc : r.closing = .all (h :: rest)) : (r.closeNext h rest).Ok := by
  obtain ⟨hh, hn, hin⟩ : r.hand = none ∧ (h :: rest).Nodup ∧ ∀ h' ∈ h :: rest, r.entry h' ≠ none := by
    have := hr.closable
    simpa [Closable, hc] using this
  have hdead : ∀ h', r.Dead h' ↔ h' ∉ h :: rest := by intro h'; simp [Dead, hc]
  have hdead' : ∀ h', (r.closeNext h rest).Dead h' ↔ h' ∉ rest := fun _ => Iff.rfl
  have hne : ∀ h' ∈ rest, h' ≠ h := by
    rintro h' hm rfl
    exact (List.nodup_cons.mp hn).1 hm
  obtain ⟨⟨d, c⟩, he⟩ := Option.ne_none_iff_exists'.mp (hin h List.mem_cons_self)
  constructor
  · exact hr.key
  · exact hr.nonneg
  · exact hr.ne_listen
  · exact hr.lt
  · exact hr.distinct
  · intro h' d' c' hx hnd
    rw [hdead', not_not] at hnd
    have hlive := hr.live hx (by rw [hdead, not_not]; exact List.mem_cons_of_mem _ hnd)
    simpa [Registry.closeNext, hne h' hnd] using hlive
  · intro d' c' hx
    have hdh : d' ≠ h := by rintro rfl; simp [Registry.closeNext] at hx
    simp only [Registry.closeNext, Function.update_of_ne hdh] at hx
    rcases hr.cover hx with h1 | h1 | ⟨h1, h2⟩
    · exact .inl h1
    · exact .inr (.inl h1)
    · rw [hdead, not_not, List.mem_cons] at h1
      exact .inr (.inr ⟨by rw [hdead', not_not]; exact h1.resolve_left hdh, h2⟩)
  · intro d' c' hx; exact absurd (hh.symm.trans hx) (by simp)
  · exact hr.hand_listen
  · intro d' c' x hx; exact absurd (hh.symm.trans hx) (by simp)
  · exact hr.hand_conn
  · intro hl
    obtain ⟨c', hc'⟩ := hr.listening hl
    exact ⟨c', by simpa [Registry.closeNext, Ne.symm (hr.ne_listen he)] using hc'⟩
  · exact ⟨hh, (List.nodup_cons.mp hn).2, fun h' hm => hin h' (List.mem_cons_of_mem _ hm)⟩

/-- After `finish` nothing is open. -/
theorem Ok.clear_owner {r : Registry} (hr : r.Ok) (hc : r.closing = .all [])
    (hl : ∀ {d c}, r.owner d = some c → 0 ≤ d) (d : SOCKET) : r.clear.owner d = none := by
  have hh : r.hand = none := by
    have := hr.closable
    simp only [Closable, hc] at this
    exact this.1
  have hdead : ∀ h, r.Dead h := by intro h; simp [Dead, hc]
  by_contra hx
  obtain ⟨c, hx⟩ := Option.ne_none_iff_exists'.mp hx
  have hown : r.owner d = some c ∧ (r.listen ≠ INVALID_SOCKET → d ≠ r.listen) := by
    simp only [clear] at hx
    split at hx
    · have hne : d ≠ r.listen := by rintro rfl; simp at hx
      rw [Function.update_of_ne hne] at hx
      exact ⟨hx, fun _ => hne⟩
    · next h => exact ⟨hx, fun h' => absurd h' h⟩
  rcases hr.cover hown.1 with h | h | ⟨h, -⟩
  · have hinv : r.listen = INVALID_SOCKET := by
      by_contra hne
      exact hown.2 hne h
    have := hl hown.1
    rw [h, hinv] at this
    exact absurd this (by decide)
  · exact absurd (hh.symm.trans h) (by simp)
  · exact h (hdead d)

theorem Ok.clear {r : Registry} (hr : r.Ok) (hc : r.closing = .all [])
    (hl : ∀ {d c}, r.owner d = some c → 0 ≤ d) : r.clear.Ok := by
  have hown := hr.clear_owner hc hl
  have hh : r.hand = none := by
    have := hr.closable
    simp only [Closable, hc] at this
    exact this.1
  constructor
  · intro h d c hx; cases hx
  · intro h d c hx; cases hx
  · intro h d c hx; cases hx
  · intro h d c hx; cases hx
  · intro h h' d d' c hx; cases hx
  · intro h d c hx; cases hx
  · intro d c hx; rw [hown d] at hx; cases hx
  · intro d c hx; exact absurd (hh.symm.trans hx) (by simp)
  · intro d c hx; exact absurd (hh.symm.trans hx) (by simp)
  · intro d c x hx hy; cases hy
  · intro d c h d' c' hx hy; cases hy
  · intro hne; exact absurd rfl hne
  · trivial

/-! ### The changes together -/

/-- The changes of the registry. -/
inductive Move : Registry → Registry → Prop where
  /-- Nothing changes. -/
  | stay {r : Registry} : Move r r
  /-- `Accept` returned a descriptor that was not open. -/
  | accept {r : Registry} {d : SOCKET} : r.hand = none → 0 ≤ d → r.owner d = none →
      (∀ rest, r.closing ≠ .all rest) → Move r (r.accept d)
  /-- The connection in hand got its entry. -/
  | emplace {r : Registry} {d : SOCKET} {c : ConnId} : r.hand = some (d, c) → r.closing = .none →
      Move r (r.emplace d c)
  /-- `deleteClient` found an entry. -/
  | find {r : Registry} {h : ClientHandle} {d : SOCKET} {c : ConnId} : r.closing = .none →
      r.entry h = some (d, c) → Move r (r.find h d c)
  /-- `deleteClient` closed the entry. -/
  | close {r : Registry} {h : ClientHandle} {d : SOCKET} {c : ConnId} : r.closing = .found h d c →
      Move r (r.close h c)
  /-- `deleteClient` erased the entry. -/
  | erase {r : Registry} {h : ClientHandle} {c : ConnId} : r.closing = .closed h c → Move r (r.erase h)
  /-- `finish` begins to close the clients. -/
  | closeAll {r : Registry} {rest : List ClientHandle} : r.closing = .none → r.hand = none →
      rest.Nodup → (∀ h, h ∈ rest ↔ r.entry h ≠ none) → Move r (r.closeAll rest)
  /-- `finish` closed a client. -/
  | closeNext {r : Registry} {h : ClientHandle} {rest : List ClientHandle} :
      r.closing = .all (h :: rest) → Move r (r.closeNext h rest)
  /-- `finish` closed the listening socket and cleared the table. -/
  | clear {r : Registry} : r.closing = .all [] → Move r r.clear

theorem Move.of_eq {r r' : Registry} (h : r' = r) : Move r r' := h ▸ .stay

/-- **Every change keeps descriptors, table and hands in agreement.** -/
theorem Move.ok {r r' : Registry} (h : Move r r') (hr : r.Ok)
    (hl : ∀ {d c}, r.owner d = some c → c < r.next ∧ 0 ≤ d) : r'.Ok := by
  cases h with
  | stay => exact hr
  | accept hh h0 hd hc => exact hr.accept hh h0 hd hc
  | emplace hh hc => exact hr.emplace hh hl hc
  | find hc he => exact hr.find hc he
  | close hc => exact hr.close hc
  | erase hc => exact hr.erase hc
  | closeAll hc hh hn hrest => exact hr.closeAll hc hh hn hrest
  | closeNext hc => exact hr.closeNext hc
  | clear hc => exact hr.clear hc fun ho => (hl ho).2

end Registry

end SocketsCpp.TcpServer
