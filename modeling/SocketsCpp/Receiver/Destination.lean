import SocketsCpp.Receiver.Lifecycle
import SocketsCpp.Library.History

/-!
# Where a UDP socket sends

`sendMsg` of `UdpSocket` sends to what `m_sockaddr` holds, a port of zero meaning nowhere. The methods
that start the socket write `m_sockaddr` at different points, before they know whether they succeed:
`startUnicast(remoteAddr, localPort, port)` sets it to zero before it looks the peer up, `startMcast`
stores the group before it joins it, and `startUnicast(localPort)` leaves it alone, as `finish` does.

* `Starts` — the history of the starts: which succeeded last, and with what address found.
* `destination` — where the socket is to send after the latest start that succeeded.
* `keeps` — the condition on the steps: a start that fails has not changed the destination by then, and
  a start that is to receive only succeeds where there is none.
* `Written` — what `m_sockaddr` holds in the middle of a start.
* `Step.tracks` — one step; `sendsTo_latest` — every run whose steps meet the condition.
-/

namespace SocketsCpp.Receiver

open SocketsCpp.Library

/-! ### The destination -/

/-- Where an address structure says to send; a port of zero is no destination. -/
def towards (addr : SockAddrIn) : Option SockAddrIn := if addr.port = 0 then none else some addr

theorem towards_eq_none {addr : SockAddrIn} : towards addr = none ↔ addr.port = 0 := by simp [towards]

/-- `sendMsg` sends every message to `dest`, or sends nothing. -/
def SendsTo (s : State) (dest : Option SockAddrIn) : Prop :=
  ∀ msg a, (sendMsg .udpSocket s msg a).1.log =
    s.os.log ++ dest.toList.map fun addr => .sendTo s.sockfd msg addr a.ret

/-- `sendMsg` sends where `m_sockaddr` says. -/
theorem sendsTo_towards (s : State) : SendsTo s (towards s.addr) := by
  intro msg a
  by_cases hport : s.addr.port = 0
  · simp [sendMsg, towards, hport]
  · simp only [sendMsg, towards, hport, ne_eq, not_false_eq_true, if_true, if_false]
    split
    · rfl
    · split <;> rfl

/-- It sends to one place. -/
theorem SendsTo.unique {s : State} {dest dest' : Option SockAddrIn} (h : SendsTo s dest)
    (h' : SendsTo s dest') : dest = dest' := by
  have hlog := (h [] {}).symm.trans (h' [] {})
  cases dest <;> cases dest' <;> simp_all

/-! ### The starts -/

/-- The instructions of a method that starts the socket. -/
def Call.script (c : Call) : List Instr :=
  match c.begin with
  | .start is => is
  | _ => []

/-- Where a start is to make the socket send, `found` being the address found for the peer. -/
def Call.target (found : InAddr) : Call → Option SockAddrIn
  | .startUnicast _ _ port => towards ⟨found, port⟩
  | .startMcast mcastAddr port _ _ => towards ⟨(inetPton mcastAddr).getD INADDR_ANY, port⟩
  | _ => none

/-- Where the socket is to send, given the latest start that succeeded. -/
def destination : Option (Call × InAddr) → Option SockAddrIn
  | some (c, found) => c.target found
  | none => none

/-- The starts that were made. -/
structure Starts where
  /-- The start being made, or else the last one. -/
  current : Call := .finish
  /-- The address that it has found for the peer. -/
  found : InAddr := INADDR_ANY
  /-- The latest start that succeeded, with the address that it found. -/
  latest : Option (Call × InAddr) := none

namespace Starts

/-- What an operation adds. -/
def exec (h : Starts) (op : Op) (a : Answer) : Starts :=
  match op with
  | .zeroAddr => { h with found := INADDR_ANY }
  | .lookupHost _ => { h with found := (lookupHost a h.found).2 }
  | .thread => { h with latest := some (h.current, h.found) }
  | _ => h

/-- What a step adds. -/
def next (h : Starts) (s : State) : Action → Starts
  | .call _ c => match c.begin with
    | .start _ => { h with current := c, found := INADDR_ANY }
    | _ => h
  | .step w a => match s.calls w with
    -- over a joinable thread the process is aborted, and no start succeeds
    | .start (i :: _) => if i.op = .thread ∧ s.thread = true then h else h.exec i.op a
    | _ => h
  | _ => h

/-- Where the socket sends with the instructions `rest` left of the start being made, which goes by what
that start has written by then. -/
def leaves (h : Starts) (rest : List Instr) : Option SockAddrIn :=
  match h.current with
  | .startUnicast _ _ port =>
      if .zeroAddr ∈ rest.map Instr.op then destination h.latest
      else if .setPort port ∈ rest.map Instr.op then none
      else h.current.target h.found
  | .startMcast mcastAddr port _ _ =>
      if .setGroup mcastAddr port ∈ rest.map Instr.op then destination h.latest
      else h.current.target h.found
  | _ => destination h.latest

/-- The start being made may fail with the instructions `rest` left. Towards a peer: before it sets the
destination to zero; while it looks the peer up, if there was no destination; and after that, if the peer was
the destination. For a group: before it stores the group, and after that if the group was the destination. -/
def mayFail (h : Starts) (rest : List Instr) : Bool :=
  match h.current with
  | .startUnicast _ _ port =>
      if .zeroAddr ∈ rest.map Instr.op then true
      else if .setPort port ∈ rest.map Instr.op then destination h.latest = none
      else destination h.latest = h.current.target h.found
  | .startMcast mcastAddr port _ _ =>
      .setGroup mcastAddr port ∈ rest.map Instr.op || destination h.latest = h.current.target h.found
  | _ => true

/-- The start being made may succeed: if it is to receive only, then there was no destination. -/
def maySucceed (h : Starts) : Bool :=
  match h.current with
  | .startUnicastLocal _ => destination h.latest = none
  | _ => true

theorem leaves_of_mayFail {h : Starts} {rest : List Instr} (hf : h.mayFail rest = true) :
    h.leaves rest = destination h.latest := by
  obtain ⟨c, found, latest⟩ := h
  unfold mayFail at hf
  unfold leaves
  cases c with
  | startUnicast remoteAddr localPort port =>
    simp only at hf ⊢
    by_cases hz : .zeroAddr ∈ rest.map Instr.op
    · rw [if_pos hz]
    · rw [if_neg hz] at hf ⊢
      by_cases hp : .setPort port ∈ rest.map Instr.op
      · rw [if_pos hp] at hf ⊢
        exact (of_decide_eq_true hf).symm
      · rw [if_neg hp] at hf ⊢
        exact (of_decide_eq_true hf).symm
  | startMcast mcastAddr port localIpAddr stack =>
    simp only at hf ⊢
    by_cases hg : .setGroup mcastAddr port ∈ rest.map Instr.op
    · rw [if_pos hg]
    · rw [if_neg hg]
      simpa [hg, eq_comm] using hf
  | _ => rfl

end Starts

/-- The condition on the steps: a start fails or succeeds only where it may. -/
def keeps (x : State × Starts) : Action → Bool
  | .step w a => match x.1.calls w with
    | .start (i :: rest) =>
        if i.op = .thread then x.2.maySucceed
        else !i.fails a || (x.2.exec i.op a).mayFail rest
    | _ => true
  | _ => true

/-- The condition on the steps: the calls follow each other, and the starts meet theirs. -/
def Kept (x : State × Starts) (a : Action) : Prop := InSequence x.1 a ∧ keeps x a = true

/-! ### What a start has written -/

/-- The operations that write `m_sockaddr`. -/
def writesAddr : Op → Bool
  | .zeroAddr | .lookupHost _ | .setPort _ | .setListenAddr _ | .setGroup _ _ => true
  | _ => false

theorem exec_addr {op : Op} (h : writesAddr op = false) (a : Answer) (e : Endpoint) (os : Os) :
    (op.exec a e os).1.addr = e.addr := by
  cases op <;> first | rfl | cases h

/-- A start ends by creating the thread. -/
theorem thread_last (c : Call) : Tails (fun i rest => i.op = .thread → rest = []) c.script := by
  cases c <;>
    simp [Call.script, Call.begin, Tails, TcpClient.connectScript, UdpSocket.startUnicastScript,
      UdpSocket.startMcastScript, UdpSocket.startUnicastLocalScript, UdpSocket.openScript, initializeInstr]

/-- `startUnicast(localPort)` does not write `m_sockaddr`. -/
theorem startUnicastLocal_writes (localPort : UInt16) :
    Tails (fun i _ => writesAddr i.op = false) (UdpSocket.startUnicastLocalScript localPort) := by
  simp [Tails, UdpSocket.startUnicastLocalScript, UdpSocket.openScript, initializeInstr, writesAddr]

/-- Where `startUnicast(remoteAddr, localPort, port)` writes `m_sockaddr`, and what it has still to do
then. -/
theorem startUnicast_writes (remoteAddr : String) (localPort port : UInt16) :
    Tails (fun i rest => writesAddr i.op = true → .zeroAddr ∉ rest.map Instr.op ∧
        ((i.op = .zeroAddr ∨ i.op = .lookupHost remoteAddr) ∧ .setPort port ∈ rest.map Instr.op ∨
          i.op = .setPort port ∧ .setPort port ∉ rest.map Instr.op))
      (UdpSocket.startUnicastScript remoteAddr localPort port) := by
  simp [Tails, UdpSocket.startUnicastScript, UdpSocket.startUnicastLocalScript, UdpSocket.openScript,
    initializeInstr, writesAddr]

/-- Where `startMcast` writes `m_sockaddr`. -/
theorem startMcast_writes (mcastAddr : String) (port : UInt16) (localIpAddr : Option String)
    (stack : InAddr) :
    Tails (fun i rest => writesAddr i.op = true →
        i.op = .setGroup mcastAddr port ∧ .setGroup mcastAddr port ∉ rest.map Instr.op)
      (UdpSocket.startMcastScript mcastAddr port localIpAddr stack) := by
  simp [Tails, UdpSocket.startMcastScript, UdpSocket.openScript, initializeInstr, writesAddr]

/-- With the instructions `rest` left of the start being made, `m_sockaddr` holds what that start has
written by then. -/
structure Written (h : Starts) (rest : List Instr) (addr : SockAddrIn) : Prop where
  /-- The start is one of the socket. -/
  belongs : h.current.belongs .udpSocket = true
  /-- The instructions are the last ones of the start. -/
  suffix : rest <:+ h.current.script
  /-- The destination. -/
  towards_eq : towards addr = h.leaves rest
  /-- The address is what the lookup has found, once it is set to zero. -/
  found_eq : .zeroAddr ∉ rest.map Instr.op →
    ∀ remoteAddr localPort port, h.current = .startUnicast remoteAddr localPort port → addr.addr = h.found

section

variable {h : Starts} {i : Instr} {rest : List Instr} {a : Answer} {e : Endpoint} {os : Os}

/-- An instruction that does not write `m_sockaddr`. -/
theorem leaves_cons (hi : writesAddr i.op = false) : h.leaves (i :: rest) = h.leaves rest := by
  have hne : ∀ op, writesAddr op = true → op ≠ i.op := by
    rintro op hop rfl
    rw [hi] at hop
    cases hop
  unfold Starts.leaves
  cases h.current <;>
    simp [List.mem_cons, hne .zeroAddr rfl, hne (.setPort _) rfl, hne (.setGroup _ _) rfl]

theorem exec_of_not_writes (hi : writesAddr i.op = false) (ht : i.op ≠ .thread) :
    h.exec i.op a = h := by
  unfold Starts.exec
  split <;> simp_all [writesAddr]

/-- The start goes on. -/
theorem Written.next (hw : Written h (i :: rest) e.addr) (ht : i.op ≠ .thread) :
    Written (h.exec i.op a) rest (i.op.exec a e os).1.addr := by
  have hs := (List.suffix_cons i rest).trans hw.suffix
  by_cases hi : writesAddr i.op = false
  · rw [exec_of_not_writes hi ht, exec_addr hi]
    refine ⟨hw.belongs, hs, hw.towards_eq.trans (leaves_cons hi), fun hz => hw.found_eq ?_⟩
    rw [List.map_cons, List.mem_cons, not_or]
    refine ⟨?_, hz⟩
    rintro hz
    rw [← hz] at hi
    cases hi
  · rw [Bool.not_eq_false] at hi
    obtain ⟨hb, hsuf, hd, hfound⟩ := hw
    obtain ⟨c, found, latest⟩ := h
    cases c with
    | startUnicast remoteAddr localPort port =>
      obtain ⟨hz, ⟨hop | hop, hp⟩ | ⟨hop, hp⟩⟩ :=
        (startUnicast_writes _ _ _).of_suffix hsuf hi
      · rw [hop]
        refine ⟨hb, hs, ?_, fun _ _ _ _ _ => ?_⟩
        · simp [Op.exec, Starts.exec, Starts.leaves, hz, hp, towards]
        · rfl
      · rw [hop]
        have hz' : .zeroAddr ∉ (i :: rest).map Instr.op := by simp [hop, hz]
        have haddr : e.addr.addr = found := hfound hz' _ _ _ rfl
        refine ⟨hb, hs, ?_, fun _ _ _ _ _ => ?_⟩
        · have hport : e.addr.port = 0 := by
            rw [← towards_eq_none, hd]
            simp [Starts.leaves, hop, hz, hp]
          simpa [Op.exec, Starts.exec, Starts.leaves, hz, hp, towards_eq_none] using hport
        · simp [Op.exec, Starts.exec, haddr]
      · rw [hop]
        have hz' : .zeroAddr ∉ (i :: rest).map Instr.op := by simp [hop, hz]
        have haddr : e.addr.addr = found := hfound hz' _ _ _ rfl
        refine ⟨hb, hs, ?_, fun _ _ _ _ _ => haddr⟩
        simp [Op.exec, Starts.exec, Starts.leaves, hz, hp, Call.target, haddr]
    | startMcast mcastAddr port localIpAddr stack =>
      obtain ⟨hop, hg⟩ := (startMcast_writes _ _ _ _).of_suffix hsuf hi
      rw [hop]
      refine ⟨hb, hs, ?_, fun _ _ _ _ hc => absurd hc (by simp [Starts.exec])⟩
      simp [Op.exec, Starts.exec, Starts.leaves, hg, Call.target]
    | startUnicastLocal => simp [(startUnicastLocal_writes _).of_suffix hsuf] at hi
    | connectTo => cases hb
    | sendMsg | finish => simp [Call.script, Call.begin] at hsuf

/-- The start succeeds. -/
theorem Written.succeeds {addr : SockAddrIn} (hw : Written h (i :: rest) addr) (ht : i.op = .thread)
    (hl : ∀ localPort, h.current = .startUnicastLocal localPort → destination h.latest = none) :
    towards addr = h.current.target h.found := by
  rw [hw.towards_eq, (thread_last _).of_suffix hw.suffix ht]
  obtain ⟨c, found, latest⟩ := h
  cases c with
  | startUnicastLocal localPort => exact hl localPort rfl
  | startUnicast | startMcast => simp [Starts.leaves, ht]
  | connectTo => exact nomatch hw.belongs
  | sendMsg | finish => exact absurd hw.suffix (by simp [Call.script, Call.begin])

/-- The start has written nothing yet. -/
theorem leaves_script (h : Starts) (hb : h.current.belongs .udpSocket = true) :
    h.leaves h.current.script = destination h.latest := by
  obtain ⟨c, found, latest⟩ := h
  cases c with
  | startUnicast | startMcast =>
    simp [Starts.leaves, Call.script, Call.begin, UdpSocket.startUnicastScript, UdpSocket.startMcastScript]
  | _ => rfl

end

/-! ### The steps -/

/-- What a run keeps. -/
structure Tracks (s : State) (h : Starts) : Prop where
  /-- The calls follow each other. -/
  alone : Alone s.calls
  /-- While a start is being made. -/
  during : ∀ w rest, s.calls w = .start rest → Written h rest s.addr
  /-- While none is. -/
  between : (∀ w rest, s.calls w ≠ .start rest) → towards s.addr = destination h.latest

theorem Tracks.fresh (options : SocketOpt) : Tracks (fresh options) {} :=
  ⟨.of_only (w := .app 0) fun _ hw => by simp [Receiver.fresh, CallPc.manages] at hw, nofun, fun _ => rfl⟩

section

variable {s s' : State} {h h' : Starts} {w : Caller} {q : CallPc}

/-- A call that is no start goes on or returns. -/
theorem Tracks.other (hi : Tracks s h) (hal : Alone s'.calls) (hcalls : s'.calls = Function.update s.calls w q)
    (haddr : s'.addr = s.addr) (hw : ∀ rest, s.calls w ≠ .start rest) (hq : ∀ rest, q ≠ .start rest) :
    Tracks s' h := by
  refine ⟨hal, fun w' rest hc => ?_, fun hidle => ?_⟩
  · rw [hcalls] at hc
    rw [haddr]
    exact hi.during w' rest (Caller.of_update (P := fun p : CallPc => p = .start rest) (hq rest) hc)
  · rw [haddr]
    refine hi.between fun w' rest hc => ?_
    by_cases hne : w' = w
    · exact hw rest (hne ▸ hc)
    · exact hidle w' rest (by rw [hcalls, Function.update_of_ne hne]; exact hc)

/-- A start goes on. -/
theorem Tracks.goesOn {rest : List Instr} (hal : Alone s'.calls)
    (hcalls : s'.calls = Function.update s.calls w (.start rest)) (hw : Written h' rest s'.addr) :
    Tracks s' h' := by
  have hc : s'.calls w = .start rest := by rw [hcalls, Function.update_self]
  refine ⟨hal, fun w' rest' hc' => ?_, fun hidle => absurd hc (hidle w rest)⟩
  have hww : w' = w := hal w' w (by rw [hc']; rfl) (by rw [hc]; rfl)
  rw [hww, hc] at hc'
  cases hc'
  exact hw

/-- A start returns. -/
theorem Tracks.returns {rest : List Instr} (hi : Tracks s h) (hal : Alone s'.calls)
    (hc : s.calls w = .start rest) (hcalls : s'.calls = Function.update s.calls w .idle)
    (hdest : towards s'.addr = destination h'.latest) : Tracks s' h' := by
  refine ⟨hal, fun w' rest' hc' => ?_, fun _ => hdest⟩
  rw [hcalls] at hc'
  have hold := Caller.of_update (P := fun p : CallPc => p = .start rest') (by simp) hc'
  have hww : w' = w := hi.alone w' w (by rw [hold]; rfl) (by rw [hc]; rfl)
  rw [hww, Function.update_self] at hc'
  cases hc'

/-- A method is called. -/
theorem Tracks.call (hi : Tracks s h) {c : Call} (hal : Alone (s.goto w c.begin).calls)
    (hseq : InSequence s (.call w c)) (hidle : s.calls w = .idle) (hb : c.belongs .udpSocket = true) :
    Tracks (s.goto w c.begin) (h.next s (.call w c)) := by
  by_cases hst : c.begin = .start c.script
  · have hnone : ∀ w' rest, s.calls w' ≠ .start rest := by
      intro w' rest hc
      have := hseq w c rfl (by rw [hst]; rfl) w'
      rw [hc] at this
      cases this
    have hw : Written { h with current := c, found := INADDR_ANY } c.script s.addr := by
      refine ⟨hb, List.suffix_rfl, ?_, ?_⟩
      · exact (hi.between hnone).trans (leaves_script { h with current := c, found := INADDR_ANY } hb).symm
      · rintro hz remoteAddr localPort port rfl
        exact absurd hz (by simp [Call.script, Call.begin, UdpSocket.startUnicastScript])
    have hnext : h.next s (.call w c) = { h with current := c, found := INADDR_ANY } := by
      simp [Starts.next, hst]
    rw [hnext]
    exact .goesOn hal (by rw [← hst]; rfl) hw
  · cases c with
    | sendMsg | finish => exact hi.other hal rfl rfl (by simp [hidle]) (by simp [Call.begin])
    | _ => exact absurd rfl hst

end

/-- **A step** that meets the condition. -/
theorem Step.tracks {s s' : State} {h : Starts} {a : Action} (hs : Step .udpSocket s a s')
    (hk : Kept (s, h) a) (hi : Tracks s h) : Tracks s' (h.next s a) := by
  obtain ⟨hseq, hk⟩ := hk
  have hal := hs.alone hseq hi.alone
  cases hs with
  | call hc hb => exact hi.call hal hseq hc hb
  | @startNext w i rest a hc ht _ _ =>
    have hnext : h.next s (.step w a) = h.exec i.op a := by simp [Starts.next, hc, ht]
    rw [hnext]
    exact .goesOn hal rfl ((hi.during w _ hc).next ht)
  | @startFails w i rest a hc ht _ hf =>
    have hnext : h.next s (.step w a) = h.exec i.op a := by simp [Starts.next, hc, ht]
    have hd := Starts.leaves_of_mayFail (show (h.exec i.op a).mayFail rest = true by
      simpa [keeps, hc, ht, hf] using hk)
    rw [hnext]
    exact hi.returns hal hc rfl (((hi.during w _ hc).next ht).towards_eq.trans hd)
  | @startThread w i rest a hc ht hth =>
    have hnext : h.next s (.step w a) = { h with latest := some (h.current, h.found) } := by
      simp [Starts.next, hc, ht, hth, Starts.exec]
    rw [hnext]
    refine hi.returns hal hc rfl ((hi.during w _ hc).succeeds ht ?_)
    intro localPort hcur
    simpa [keeps, Starts.maySucceed, hc, ht, hcur] using hk
  | @startAborts w i rest a hc ht hth =>
    have hnext : h.next s (.step w a) = h := by simp [Starts.next, hc, ht, hth]
    rw [hnext]
    exact ⟨hal, hi.during, hi.between⟩
  | sendMsg hc | finish hc | finishJoin hc | finishNoThread hc | finishSelf hc | finishClose hc
  | finishReset hc =>
    simp only [Starts.next, hc]
    exact hi.other hal rfl rfl (by simp [hc]) (by simp)
  | _ => exact ⟨hal, hi.during, hi.between⟩

/-! ### Runs -/

/-- The runs of a UDP socket with their starts. -/
abbrev ReachStarts (ok : State × Starts → Action → Prop) (options : SocketOpt) : State × Starts → Prop :=
  ((machine .udpSocket).withHistory Starts.next).Reach ok (fresh options, {})

/-- No start is being made. -/
def Settled (s : State) : Prop := ∀ w rest, s.calls w ≠ .start rest

/-- **Every run whose steps meet the condition.** -/
theorem tracks_of_kept {options : SocketOpt} {x : State × Starts} (h : ReachStarts Kept options x) :
    Tracks x.1 x.2 := by
  refine Machine.Reach.invariant (I := fun x : State × Starts => Tracks x.1 x.2) (.fresh options) ?_ h
  intro y a y' hy hk hs
  obtain ⟨hs, he⟩ := Machine.withHistory_step.mp hs
  rw [he]
  exact (Step.of_step hs).2.tracks hk hy

/-- The runs in which one thread of the application makes the calls. -/
theorem reachStarts_of_solo {ok : State × Starts → Action → Prop} {options : SocketOpt}
    {x : State × Starts} (h : ReachStarts (fun x a => solo x.1 a = true ∧ ok x a) options x)
    (hidle : x.1.calls (.app 0) = .idle) :
    ReachStarts (fun x a => InSequence x.1 a ∧ ok x a) options x ∧ Settled x.1 := by
  have hone : ∀ y a y', OneCaller y.1 → (solo y.1 a = true ∧ ok y a) →
      ((machine .udpSocket).withHistory Starts.next).step y a = some y' → OneCaller y'.1 :=
    fun y a y' hi ha hs => (Step.of_step (Machine.withHistory_step.mp hs).1).2.oneCaller ha.1 hi
  have hx : OneCaller x.1 := h.invariant (I := fun x => OneCaller x.1) (fun _ _ => rfl) hone
  refine ⟨h.mono_of (J := fun x => OneCaller x.1) (fun _ _ => rfl) hone
    fun y a hi ha => ⟨hi.inSequence ha.1, ha.2⟩, fun w rest hc => ?_⟩
  by_cases hw : w = .app 0
  · rw [hw, hidle] at hc
    cases hc
  · have := hx w hw
    rw [hc] at this
    cases this

/-- **The destination is that of the latest successful start**, in every run whose steps meet `keeps`:
`startUnicast(remoteAddr, …)` fails before it sets `m_sockaddr` to zero, or in the lookup of a socket without a
destination, or later with the destination there was for its peer; `startMcast` fails before it stores the group,
or with the group for the destination; and `startUnicast(localPort)` succeeds on a socket without a destination.
Then `sendMsg` sends, whenever no start is being made, where the latest start that succeeded says, and two sockets
for which that start is the same send to the same place. -/
theorem sendsTo_latest {options : SocketOpt} {x : State × Starts} (h : ReachStarts Kept options x)
    (hx : Settled x.1) :
    SendsTo x.1 (destination x.2.latest) ∧
      ∀ (options' : SocketOpt) (y : State × Starts), ReachStarts Kept options' y → Settled y.1 →
        y.2.latest = x.2.latest → ∀ dest, SendsTo y.1 dest ↔ SendsTo x.1 dest := by
  have hdest : ∀ (options' : SocketOpt) (y : State × Starts), ReachStarts Kept options' y →
      Settled y.1 → SendsTo y.1 (destination y.2.latest) := by
    intro options' y hr hy
    rw [← (tracks_of_kept hr).between hy]
    exact sendsTo_towards y.1
  have hxd := hdest options x h hx
  refine ⟨hxd, fun options' y hr hy heq dest => ?_⟩
  have hyd := hdest options' y hr hy
  rw [heq] at hyd
  constructor
  · intro hd
    rwa [hd.unique hyd]
  · intro hd
    rwa [hd.unique hxd]

/-! ### Single runs -/

deriving instance DecidableEq for Call

/-- The address of the peer. -/
def peer : InAddr := ⟨10, 0, 0, 1⟩

/-- `startUnicast` towards the peer succeeds, `Socket` returning `d`. -/
def startPeer (d : SOCKET) : List Action :=
  .call (.app 0) (.startUnicast "peer" 0 80) ::
    answered [{}, {}, { addr := some peer }, {}, {}, { ret := d }, {}, {}, {}, {}, {}]

/-- `finish`, the receive thread seeing the flag. -/
def finishPeer : List Action :=
  .call (.app 0) .finish :: answered [{}] ++ .testStop :: answered [{}, {}, {}]

/-- `startUnicast` towards a host that is not found. -/
def startUnknown : List Action :=
  .call (.app 0) (.startUnicast "nowhere" 0 80) :: answered [{}, {}, { ret := -2 }]

/-- `startMcast` in which `Socket` fails. -/
def startMcastFails : List Action :=
  .call (.app 0) (.startMcast "239.0.0.1" 90 none INADDR_ANY) :: answered [{}, { ret := -1 }]

/-- A run in which one thread makes the calls and that can be computed. -/
theorem exists_starts (ok : State × Starts → Action → Prop) [∀ x a, Decidable (ok x a)]
    (as : List Action) (latest : Option (Call × InAddr)) (dest : Option SockAddrIn)
    (h : (((machine .udpSocket).withHistory Starts.next).runOk
      (fun x a => solo x.1 a = true ∧ ok x a) (fresh {}, {}) as).any (fun x =>
        (x.1.calls (.app 0)).isIdle = true ∧ x.2.latest = latest ∧ towards x.1.addr = dest) = true) :
    ∃ x, ReachStarts (fun x a => InSequence x.1 a ∧ ok x a) {} x ∧ Settled x.1 ∧ x.2.latest = latest ∧
      towards x.1.addr = dest := by
  obtain ⟨x, hr, hidle, hl, hd⟩ := Machine.exists_reach as h
  obtain ⟨hr, hs⟩ := reachStarts_of_solo hr (CallPc.isIdle_iff.mp hidle)
  exact ⟨x, hr, hs, hl, hd⟩

/-- The socket was started towards the peer and shut down, and a start failed. -/
theorem sendsTo_latest_after_finish : ∃ x, ReachStarts Kept {} x ∧ Settled x.1 ∧
    x.2.latest = some (.startUnicast "peer" 0 80, peer) ∧ SendsTo x.1 (some ⟨peer, 80⟩) := by
  obtain ⟨x, hr, hs, hl, -⟩ := exists_starts (fun x a => keeps x a = true)
    (startPeer 3 ++ finishPeer ++ startMcastFails) (some (.startUnicast "peer" 0 80, peer))
    (some ⟨peer, 80⟩) (by decide)
  have hsend := (sendsTo_latest hr hs).1
  rw [hl] at hsend
  exact ⟨x, hr, hs, hl, hsend⟩

/-- Of two sockets whose latest successful start is the same, the one on which another start has failed to
find its peer since sends nothing; and one that was started to receive only sends to the peer of the
start before. -/
theorem not_sendsTo_latest : ∃ x y z, ReachStarts (Machine.Beside InSequence) {} x ∧
    ReachStarts (Machine.Beside InSequence) {} y ∧ ReachStarts (Machine.Beside InSequence) {} z ∧
    Settled x.1 ∧ Settled y.1 ∧ Settled z.1 ∧
    (x.2.latest = y.2.latest ∧ SendsTo x.1 (some ⟨peer, 80⟩) ∧ SendsTo y.1 none) ∧
    z.2.latest = some (.startUnicastLocal 80, INADDR_ANY) ∧ SendsTo z.1 (some ⟨peer, 80⟩) := by
  obtain ⟨x, hx, hsx, hlx, hdx⟩ := exists_starts Machine.Any
    (startPeer 3 ++ finishPeer) (some (.startUnicast "peer" 0 80, peer)) (some ⟨peer, 80⟩) (by decide)
  obtain ⟨y, hy, hsy, hly, hdy⟩ := exists_starts Machine.Any
    (startPeer 3 ++ finishPeer ++ startUnknown) (some (.startUnicast "peer" 0 80, peer)) none (by decide)
  obtain ⟨z, hz, hsz, hlz, hdz⟩ := exists_starts Machine.Any
    (startPeer 3 ++ finishPeer ++ startUnicastOk 4) (some (.startUnicastLocal 80, INADDR_ANY))
    (some ⟨peer, 80⟩) (by decide)
  refine ⟨x, y, z, hx.mono fun _ _ => And.left, hy.mono fun _ _ => And.left, hz.mono fun _ _ => And.left,
    hsx, hsy, hsz, ⟨hlx.trans hly.symm, ?_, ?_⟩, hlz, ?_⟩
  · rw [← hdx]
    exact sendsTo_towards x.1
  · rw [← hdy]
    exact sendsTo_towards y.1
  · rw [← hdz]
    exact sendsTo_towards z.1

end SocketsCpp.Receiver
