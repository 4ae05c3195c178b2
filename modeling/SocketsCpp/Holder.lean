import SocketsCpp.Setup

/-!
# The descriptor of an object

What the three classes have in common as to the descriptor in `m_sockfd`, as long as no client
is accepted (`Holder`). A method that sets the socket up stores to `m_sockfd`, first
`INVALID_SOCKET` in `TcpClient`, then what `Socket` returned; `finish` closes the descriptor
and then forgets it, in one critical section or in two steps. `Holder.Move` lists these moves,
each with whether it stores to `m_sockfd` for such a method.

## What is proved

* `Holder.Move.ok` — the descriptor stored is open, except between the two steps of `finish`.
* `Holder.Move.tight_iff` and `Holder.Move.leaks` — a move keeps every open descriptor in
  `m_sockfd` exactly if it does not store over one, and a descriptor once lost stays lost.
-/

namespace SocketsCpp

open SocketsCpp.Library

/-! ### Histories -/

/-- `Socket` is called, or `finish` returns. -/
def Event.turns : Event → Bool
  | .socket _ _ | .finishEnd _ => true
  | _ => false

/-- An event that has nothing to do with the descriptor. -/
def Event.plain (e : Event) : Bool := e.quiet && !e.turns

/-- `finish` was called, and `Socket` not since. -/
def Shut (log : List Event) : Prop := ∃ w, lastOf Event.turns log = some (.finishEnd w)

/-- **No descriptor is lost**: the only one open is the one stored, and after `finish` each
descriptor that was given out was closed exactly once. -/
def NoLeak (sockfd : SOCKET) (os : Os) : Prop :=
  (∀ d c, os.owner d = some c → d = sockfd) ∧
    (Shut os.log → ∀ c, (∃ e ∈ os.log, e.gives c = true) → os.closes c = 1)

/-- Nothing but events of a kind was logged. -/
structure Os.Notes (p : Event → Bool) (os os' : Os) : Prop where
  /-- The descriptors open. -/
  owner : os'.owner = os.owner
  /-- The next connection number. -/
  next : os'.next = os.next
  /-- The log. -/
  log : Grows p os.log os'.log

namespace Os.Notes

variable {os os' : Os}

theorem refl {p : Event → Bool} : os.Notes p os := ⟨rfl, rfl, .refl⟩

theorem one {p : Event → Bool} {e : Event} (h : p e = true) : os.Notes p (os.record e) :=
  ⟨rfl, rfl, .one h⟩

theorem trans {p : Event → Bool} {os'' : Os} (h : os.Notes p os') (h' : os'.Notes p os'') :
    os.Notes p os'' :=
  ⟨h'.owner.trans h.owner, h'.next.trans h.next, h.log.trans h'.log⟩

theorem sound (h : os.Notes Event.plain os') (hs : os.Sound) : os'.Sound := by
  obtain ⟨owner, next, log⟩ := os'
  obtain ⟨rfl, rfl, hlog⟩ := h
  replace hlog : Grows Event.plain os.log log := hlog
  induction hlog with
  | refl => exact hs
  | append _ hp ih =>
    simp only [Event.plain, Bool.and_eq_true] at hp
    exact ih.record hp.1

theorem shut (h : os.Notes Event.plain os') : Shut os'.log ↔ Shut os.log := by
  have hp : ∀ e : Event, e.plain = true → e.turns = false := by simp +contextual [Event.plain]
  simp only [Shut, h.log.lastOf_eq hp]

end Os.Notes

/-! ### The moves -/

/-- An object, as far as its descriptor is concerned. -/
structure Holder where
  /-- `m_sockfd`. -/
  sockfd : SOCKET
  /-- The operating system. -/
  os : Os
  /-- `finish` has closed the descriptor, and not yet forgotten it. -/
  closed : Prop

namespace Holder

variable {x y : Holder}

/-- What can happen to an object, as far as its descriptor is concerned. -/
inductive Move (x y : Holder) : Bool → Prop where
  /-- Nothing. -/
  | goesOn : y.sockfd = x.sockfd → x.os.Notes Event.plain y.os → (y.closed ↔ x.closed) → Move x y false
  /-- `m_sockfd = INVALID_SOCKET` in `connectTo`. -/
  | resets : ¬ x.closed → ¬ y.closed → y.sockfd = INVALID_SOCKET → x.os.Notes Event.plain y.os →
      Move x y true
  /-- `Socket` returns `d`. -/
  | opens {d : SOCKET} : ¬ x.closed → ¬ y.closed → d = INVALID_SOCKET ∨ x.os.Available d →
      y.sockfd = d → (x.os.socket d).Notes Event.plain y.os → Move x y true
  /-- `finish` closes the descriptor. -/
  | closes : ¬ x.closed → y.closed → y.sockfd = x.sockfd → y.os = x.os.closeValid x.sockfd →
      Move x y false
  /-- `finish` forgets the descriptor. -/
  | forgets {w : Caller} : x.closed → ¬ y.closed → y.sockfd = INVALID_SOCKET →
      y.os = x.os.record (.finishEnd w) → Move x y false
  /-- `finish` does both. -/
  | shuts {w : Caller} : ¬ x.closed → ¬ y.closed → y.sockfd = INVALID_SOCKET →
      y.os = (x.os.closeValid x.sockfd).record (.finishEnd w) → Move x y false

/-- An operation of a method that sets the socket up. -/
theorem Move.exec {op : Op} {a : Answer} {e : Endpoint} {os os' : Os} {p p' : Prop}
    (ha : op.Admissible a os) (h : (op.exec a e os).2.Notes Event.plain os') (hp : ¬ p) (hp' : ¬ p') :
    Move ⟨e.sockfd, os, p⟩ ⟨(op.exec a e os).1.sockfd, os', p'⟩ op.storesFd := by
  have hiff : p' ↔ p := iff_of_false hp' hp
  cases op with
  | socket => exact .opens hp hp' (ha rfl) rfl h
  | resetFd => exact .resets hp hp' rfl h
  | zeroAddr | setPort | setListenAddr | setGroup | watch | thread => exact .goesOn rfl h hiff
  | _ => exact .goesOn rfl (.trans (.one rfl) h) hiff

/-- The descriptor stored is in order. -/
structure Ok (x : Holder) : Prop where
  /-- The operating system. -/
  sound : x.os.Sound
  /-- The descriptor stored is open. -/
  stored : ¬ x.closed → x.sockfd ≠ INVALID_SOCKET → ∃ c, x.os.owner x.sockfd = some c
  /-- Or it was closed just now. -/
  shut : x.closed → x.os.owner x.sockfd = none
  /-- After `finish` no descriptor is stored. -/
  invalid : Shut x.os.log → x.sockfd = INVALID_SOCKET

theorem Ok.init {p : Prop} (hp : ¬ p) : Ok ⟨INVALID_SOCKET, {}, p⟩ where
  sound := .init
  stored _ h := absurd rfl h
  shut h := absurd h hp
  invalid _ := rfl

theorem Ok.owner_invalid (hx : Ok x) : x.os.owner INVALID_SOCKET = none := by
  cases h : x.os.owner INVALID_SOCKET with
  | none => rfl
  | some c => exact absurd (hx.sound.nonneg h) (by decide)

/-- What a guarded call of `Close` on the descriptor stored does. -/
theorem owner_closeValid (hx : Ok x) (d : SOCKET) :
    (x.os.closeValid x.sockfd).owner d = if d = x.sockfd then none else x.os.owner d := by
  unfold Os.closeValid
  split
  · by_cases h : d = x.sockfd <;> simp [h]
  · next h =>
    have h : x.sockfd = INVALID_SOCKET := by simpa using h
    by_cases hd : d = x.sockfd
    · rw [if_pos hd, hd, h]; exact hx.owner_invalid
    · rw [if_neg hd]

theorem shut_closeValid (os : Os) (d : SOCKET) : Shut (os.closeValid d).log ↔ Shut os.log :=
  Os.closeValid_log (P := fun log => Shut log ↔ Shut os.log) Iff.rfl
    fun c => by simp [Shut, Event.turns]

/-- **Every move keeps the descriptor stored in order.** -/
theorem Move.ok {b : Bool} (h : Move x y b) (hx : Ok x) : Ok y := by
  cases h with
  | goesOn hfd hos hcl =>
    refine ⟨hos.sound hx.sound, ?_, ?_, ?_⟩
    · rw [hcl, hfd, hos.owner]; exact hx.stored
    · rw [hcl, hfd, hos.owner]; exact hx.shut
    · rw [hos.shut, hfd]; exact hx.invalid
  | resets _ hcl hfd hos =>
    exact ⟨hos.sound hx.sound, fun _ h => absurd hfd h, fun h => absurd h hcl, fun _ => hfd⟩
  | @opens d _ hcl hd hfd hos =>
    refine ⟨hos.sound (hx.sound.socket hd), fun _ hne => ?_, fun h => absurd h hcl, fun hs => ?_⟩
    · rw [hfd] at hne ⊢
      rw [hos.owner, Os.socket, if_neg hne]
      exact ⟨x.os.next, by simp⟩
    · -- the last turn is the call of `Socket`
      obtain ⟨w, hs⟩ := hos.shut.mp hs
      unfold Os.socket at hs
      split at hs <;> simp [Event.turns] at hs
  | closes hncl hcl hfd hos =>
    refine ⟨?_, fun h => absurd hcl h, fun _ => ?_, ?_⟩
    · rw [hos]; exact hx.sound.closeValid (hx.stored hncl)
    · rw [hos, hfd, owner_closeValid hx, if_pos rfl]
    · rw [hos, hfd, shut_closeValid]; exact hx.invalid
  | forgets _ hcl hfd hos =>
    refine ⟨?_, fun _ h => absurd hfd h, fun h => absurd h hcl, fun _ => hfd⟩
    rw [hos]; exact hx.sound.record rfl
  | shuts hncl hcl hfd hos =>
    refine ⟨?_, fun _ h => absurd hfd h, fun h => absurd h hcl, fun _ => hfd⟩
    rw [hos]; exact (hx.sound.closeValid (hx.stored hncl)).record rfl

/-- Every open descriptor is in `m_sockfd`. -/
def Tight (x : Holder) : Prop := ∀ d c, x.os.owner d = some c → d = x.sockfd

/-- With `INVALID_SOCKET` stored, or the descriptor just closed, nothing is open. -/
theorem Tight.nothing (ht : Tight x) (h : x.os.owner x.sockfd = none) (d : SOCKET) :
    x.os.owner d = none := by
  cases hd : x.os.owner d with
  | none => rfl
  | some c =>
    rw [ht d c hd, h] at hd
    cases hd

/-- `Socket` gives out a descriptor that was not open. -/
theorem Ok.ne_of_open (hx : Ok x) {d d' : SOCKET} (hd : d = INVALID_SOCKET ∨ x.os.Available d)
    {c : ConnId} (h : x.os.owner d' = some c) : d' ≠ d := by
  rintro rfl
  have hnone : x.os.owner d' = none := hd.elim (fun he => he ▸ hx.owner_invalid) And.right
  rw [hnone] at h
  cases h

theorem owner_socket {os : Os} {d d' : SOCKET} (hne : d' ≠ d) :
    (os.socket d).owner d' = os.owner d' := by
  unfold Os.socket
  split
  · rfl
  · simp [hne]

/-- **A move keeps every open descriptor in `m_sockfd` exactly if it does not store over one.** -/
theorem Move.tight_iff {b : Bool} (h : Move x y b) (hx : Ok x) (ht : Tight x) :
    Tight y ↔ (b = true → x.sockfd = INVALID_SOCKET) := by
  have hfree : x.sockfd = INVALID_SOCKET → ∀ d, x.os.owner d = none := fun he =>
    ht.nothing (he ▸ hx.owner_invalid)
  cases h with
  | goesOn hfd hos =>
    refine iff_of_true (fun d c hd => ?_) (by simp)
    rw [hfd]
    exact ht d c (by rwa [hos.owner] at hd)
  | resets hcl _ hfd hos =>
    constructor
    · intro hy _
      by_contra hne
      obtain ⟨c, hc⟩ := hx.stored hcl hne
      exact hne ((hy x.sockfd c (by rwa [hos.owner])).trans hfd)
    · intro he d c hd
      rw [hos.owner, hfree (he rfl)] at hd
      cases hd
  | @opens d hcl _ hd hfd hos =>
    constructor
    · intro hy _
      by_contra hne
      obtain ⟨c, hc⟩ := hx.stored hcl hne
      have hxd : x.sockfd ≠ d := hx.ne_of_open hd hc
      exact hxd ((hy x.sockfd c (by rwa [hos.owner, owner_socket hxd])).trans hfd)
    · intro he d' c hd'
      by_contra hne
      rw [hfd] at hne
      rw [hos.owner, owner_socket hne, hfree (he rfl)] at hd'
      cases hd'
  | closes _ _ hfd hos =>
    refine iff_of_true (fun d c hd => ?_) (by simp)
    rw [hos, owner_closeValid hx] at hd
    split at hd
    · cases hd
    · rw [hfd]; exact ht d c hd
  | forgets hcl _ _ hos =>
    refine iff_of_true (fun d c hd => ?_) (by simp)
    rw [hos, Os.record_owner, ht.nothing (hx.shut hcl)] at hd
    cases hd
  | shuts _ _ _ hos =>
    refine iff_of_true (fun d c hd => ?_) (by simp)
    rw [hos, Os.record_owner, owner_closeValid hx] at hd
    split at hd
    · cases hd
    · next hne => exact absurd (ht d c hd) hne

/-- **A descriptor once lost stays lost.** -/
theorem Move.leaks {b : Bool} (h : Move x y b) (hx : Ok x) (hl : ¬ Tight x) : ¬ Tight y := by
  obtain ⟨d, c, hd, hne⟩ : ∃ d c, x.os.owner d = some c ∧ d ≠ x.sockfd := by
    simpa [Tight] using hl
  have hinv : d ≠ INVALID_SOCKET := hx.ne_of_open (.inl rfl) hd
  suffices hs : y.os.owner d = some c ∧ d ≠ y.sockfd from fun ht => hs.2 (ht d c hs.1)
  cases h with
  | goesOn hfd hos => exact ⟨by rwa [hos.owner], hfd ▸ hne⟩
  | resets _ _ hfd hos => exact ⟨by rwa [hos.owner], hfd ▸ hinv⟩
  | opens _ _ hav hfd hos =>
    have hdd := hx.ne_of_open hav hd
    exact ⟨by rwa [hos.owner, owner_socket hdd], hfd ▸ hdd⟩
  | closes _ _ hfd hos => exact ⟨by rw [hos, owner_closeValid hx, if_neg hne, hd], hfd ▸ hne⟩
  | forgets _ _ hfd hos => exact ⟨by rwa [hos, Os.record_owner], hfd ▸ hinv⟩
  | shuts _ _ hfd hos =>
    exact ⟨by rw [hos, Os.record_owner, owner_closeValid hx, if_neg hne, hd], hfd ▸ hinv⟩

/-- For a descriptor in order, no descriptor is lost exactly if every open one is stored. -/
theorem Ok.noLeak_iff (hx : Ok x) : NoLeak x.sockfd x.os ↔ Tight x := by
  refine ⟨And.left, fun ht => ⟨ht, fun hs c hc => ?_⟩⟩
  have hnone := ht.nothing (hx.invalid hs ▸ hx.owner_invalid)
  exact hx.sound.closes_closed (hx.sound.given.mp hc) fun d hd => by simp [hnone d] at hd

end Holder

end SocketsCpp
