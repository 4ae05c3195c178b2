import SocketsCpp.Startup
import SocketsCpp.Library.Log

/-!
# Where a socket listens

`TcpServer::start` and `UdpSocket::startUnicast` bind to the address that `inet_pton` makes of `m_listenAddr`,
in a structure that is zero before. They do not look at what `inet_pton` returns, and zero is `INADDR_ANY`.

* `Listens` — a call binds where `m_listenAddr` says, or fails.
* `beforeBind` — the instructions that come before `Bind`.
* `listens_iff` — the calls that listen where they were told to.
-/

namespace SocketsCpp

open SocketsCpp.Library

/-! ### What a call logs -/

/-- The address given to `Bind`. -/
def Event.bound : Event → Option InAddr
  | .bind _ addr _ => some addr.addr
  | _ => none

/-- A call of which `log` is the log listens where `listenAddr` says. -/
structure Listens (listenAddr : String) (log : List Event) : Prop where
  /-- If it reports success, then `Bind` was given the address that `listenAddr` denotes. -/
  success : .start .ok ∈ log → ∃ x, inetPton listenAddr = some x ∧ log.filterMap Event.bound = [x]
  /-- If `listenAddr` is no address, then `Bind` is not called, and the call fails. -/
  refused : inetPton listenAddr = none →
    log.filterMap Event.bound = [] ∧ ∀ ret, .start ret ∈ log → ret.success = false

/-- The operations that call `Bind`. -/
def Op.binds : Op → Bool
  | .bindAddr | .bindListenAddr _ | .bindAny _ => true
  | _ => false

/-- The instructions before `Bind`. -/
def beforeBind (is : List Instr) : List Instr := is.takeWhile fun i => !i.op.binds

/-- Not a call of `Bind`. -/
def Event.unbound (e : Event) : Bool := e.bound.isNone

/-- Neither a call of `Bind` nor the return of a call that succeeds. -/
def Event.preliminary : Event → Bool
  | .bind _ _ _ => false
  | .start ret => !ret.success
  | _ => true

theorem Event.unbound_of_preliminary {e : Event} (h : e.preliminary = true) : e.unbound = true := by
  cases e <;> first | rfl | cases h

theorem Op.exec_preliminary {op : Op} (h : op.binds = false) (a : Answer) (e : Endpoint) (os : Os) :
    Grows Event.preliminary os.log (op.exec a e os).2.log := by
  refine exec_grows (fun ev hm => ?_) a e os
  cases hm <;> first | rfl | cases h

theorem Op.exec_sockOptions (op : Op) (a : Answer) (e : Endpoint) (os : Os) :
    (op.exec a e os).1.sockOptions = e.sockOptions := by
  cases op <;> rfl

section

variable {i : Instr} {x : Endpoint × Os}

theorem Instr.perform_sockOptions (a : Answer) : (i.perform a x).1.sockOptions = x.1.sockOptions := by
  unfold perform
  split
  · rfl
  · split <;> rfl
  · dsimp only
    split <;> exact Op.exec_sockOptions _ _ _ _

/-- An instruction that does not call `Bind`. -/
theorem Instr.perform_unbound (h : i.op.binds = false) (a : Answer) :
    Grows Event.unbound x.2.log (i.perform a x).2.log :=
  perform_grows ((Op.exec_preliminary h _ _ _).mono fun _ => Event.unbound_of_preliminary) (fun _ => rfl)
    (fun _ => rfl) fun _ => rfl

/-- One that does not create the thread either. -/
theorem Instr.perform_preliminary (h : i.op.binds = false) (ht : i.op ≠ .thread) (a : Answer) :
    Grows Event.preliminary x.2.log (i.perform a x).2.log :=
  perform_grows (Op.exec_preliminary h _ _ _) (fun _ => rfl) (fun _ => rfl) fun hop => absurd hop ht

end

/-! ### One call -/

theorem filterMap_bound_of_unbound {log : List Event} (h : ∀ e ∈ log, e.unbound = true) :
    log.filterMap Event.bound = [] :=
  List.filterMap_eq_nil_iff.mpr fun e he => Option.isNone_iff_eq_none.mp (h e he)

/-- A call that comes as far as `Bind`. -/
theorem listens_iff_of_bound {listenAddr : String} {es fs : List Event} {d : SOCKET} {port : UInt16} {r : ℤ}
    (hes : ∀ e ∈ es, e.unbound = true) (hfs : ∀ e ∈ fs, e.unbound = true) :
    Listens listenAddr (es ++
        .bind d ⟨(inetPton (cStr listenAddr)).getD INADDR_ANY, port⟩ r :: fs) ↔
      (inetPton listenAddr).isSome = true := by
  have hbound : (es ++ Event.bind d ⟨(inetPton (cStr listenAddr)).getD INADDR_ANY, port⟩ r :: fs).filterMap
      Event.bound = [(inetPton (cStr listenAddr)).getD INADDR_ANY] := by
    rw [List.filterMap_append, filterMap_bound_of_unbound hes, List.filterMap_cons]
    simp [Event.bound, filterMap_bound_of_unbound hfs]
  constructor
  · intro h
    by_contra hnone
    have := (h.refused (by simpa using hnone)).1
    rw [hbound] at this
    cases this
  · intro hsome
    obtain ⟨x, hx⟩ := Option.isSome_iff_exists.mp hsome
    refine ⟨fun _ => ⟨x, hx, ?_⟩, fun hnone => ?_⟩
    · rw [hbound, inetPton_eq_some.mp hx, cStr_inetNtop, inetPton_eq_some.mpr rfl]
      rfl
    · rw [hnone] at hx
      cases hx

/-- A call that does not. -/
theorem listens_of_preliminary {listenAddr : String} {es : List Event}
    (hes : ∀ e ∈ es, e.preliminary = true) : Listens listenAddr es where
  success hm := absurd (hes _ hm) (by decide)
  refused _ := by
    refine ⟨filterMap_bound_of_unbound fun e he => Event.unbound_of_preliminary (hes e he), fun ret hm => ?_⟩
    simpa [Event.preliminary] using hes _ hm

/-- A call that binds to the listen address, `pre` being the instructions before `Bind`. -/
theorem startup_listens_iff (pre : List Instr) (b : Instr) (post : List Instr) {as : List Answer}
    {x : Endpoint × Os} (hpre : ∀ i ∈ pre, i.op.binds = false ∧ i.op ≠ .thread)
    (hpost : ∀ i ∈ post, i.op.binds = false) (hw : b.op ≠ .watch) (ht : b.op ≠ .thread)
    (hb : ∀ a y, y = Script.result Instr.perform (pre.zip as) x → pre.length < as.length →
      ∃ d port, (b.op.exec a y.1 y.2).2.log = y.2.log ++
        [.bind d ⟨(inetPton (cStr x.1.sockOptions.listenAddr)).getD INADDR_ANY, port⟩ a.ret]) :
    ∃ es, (startup (pre ++ b :: post) as x).2.log = x.2.log ++ es ∧
      (Listens x.1.sockOptions.listenAddr es ↔ (inetPton x.1.sockOptions.listenAddr).isSome = true ∨
        ¬ Script.Passes Instr.fails pre as) := by
  have hbefore : ∀ ps : List (Instr × Answer), (∀ p ∈ ps, p.1 ∈ pre) →
      Grows Event.preliminary x.2.log (Script.result Instr.perform ps x).2.log := by
    refine fun ps hps => result_grows ps x fun p hp y => ?_
    obtain ⟨hbind, ht⟩ := hpre p.1 (hps p hp)
    exact Instr.perform_preliminary hbind ht p.2
  by_cases hpass : Script.Passes Instr.fails pre as
  · -- the instructions before `Bind`, `Bind`, and those after it
    obtain ⟨es, hes, hun⟩ := (hbefore (pre.zip as) fun p hp => (List.of_mem_zip hp).1).exists_append
    obtain ⟨a, as', hstartup⟩ := startup_of_passes hpass
    set y := Script.result Instr.perform (pre.zip as) x with hy
    obtain ⟨d, port, hbind⟩ := hb a y hy hpass.1
    have hreturn : Grows Event.unbound (b.op.exec a y.1 y.2).2.log (b.perform a y).2.log :=
      Instr.exec_grows_perform hw ht fun _ => rfl
    have hafter : Grows Event.unbound (b.perform a y).2.log (Script.result Instr.perform
        (if b.fails a then [] else Script.performed Instr.fails post as') (b.perform a y)).2.log := by
      refine result_grows _ _ fun p hp z => ?_
      split at hp
      · cases hp
      · exact Instr.perform_unbound (hpost p.1 (Script.mem_of_mem_performed hp)) p.2
    obtain ⟨fs, hfs, hunfs⟩ := (hreturn.trans hafter).exists_append
    refine ⟨es ++ .bind d ⟨(inetPton (cStr x.1.sockOptions.listenAddr)).getD INADDR_ANY, port⟩ a.ret :: fs,
      ?_, ?_⟩
    · rw [hstartup, ← hy, hfs, hbind, hes]
      simp
    · rw [listens_iff_of_bound (fun e he => Event.unbound_of_preliminary (hun e he)) hunfs]
      simp [hpass]
  · obtain ⟨es, hes, hun⟩ := (hbefore (Script.performed Instr.fails pre as) fun p hp =>
      Script.mem_of_mem_performed hp).exists_append
    refine ⟨es, ?_, iff_of_true (listens_of_preliminary hun) (.inr hpass)⟩
    rw [startup_of_not_passes hpass]
    exact hes

/-- `m_sockOptions` stays what it is. -/
theorem result_sockOptions (ps : List (Instr × Answer)) (x : Endpoint × Os) :
    (Script.result Instr.perform ps x).1.sockOptions = x.1.sockOptions :=
  Script.result_invariant (I := fun y : Endpoint × Os => y.1.sockOptions = x.1.sockOptions)
    (fun p _ _ hy => (Instr.perform_sockOptions p.2).trans hy) rfl

theorem startScript_listens_iff (port : UInt16) (as : List Answer) (x : Endpoint × Os) :
    ∃ es, (startup (TcpServer.startScript port) as x).2.log = x.2.log ++ es ∧
      (Listens x.1.sockOptions.listenAddr es ↔ (inetPton x.1.sockOptions.listenAddr).isSome = true ∨
        ¬ Script.Passes Instr.fails (beforeBind (TcpServer.startScript port)) as) := by
  have hpre : beforeBind (TcpServer.startScript port) =
      (TcpServer.startScript port).take 5 ++ [{ op := .setListenAddr port }] := by
    simp [beforeBind, TcpServer.startScript, initializeInstr, Op.binds]
  have hscript : TcpServer.startScript port = beforeBind (TcpServer.startScript port) ++
      ⟨.bindAddr, isMinusOne, errnoMsg "Error: errno "⟩ :: (TcpServer.startScript port).drop 7 := by
    rw [hpre]
    simp [TcpServer.startScript]
  rw [hscript]
  refine startup_listens_iff _ _ _ ?_ (by simp [TcpServer.startScript, Op.binds]) (by simp) (by simp) ?_
  · rw [hpre]
    simp [TcpServer.startScript, initializeInstr, Op.binds]
  · rintro a y rfl hlen
    have hlen' : ((TcpServer.startScript port).take 5).length < as.length := by
      rw [hpre] at hlen
      simp at hlen ⊢
      omega
    obtain ⟨b, hzip⟩ := Script.zip_concat (i := { op := .setListenAddr port }) hlen'
    rw [hpre, hzip, Script.result_concat, Instr.perform_of_passes (by simp) (by simp) rfl,
      ← result_sockOptions (((TcpServer.startScript port).take 5).zip as) x]
    exact ⟨_, port, rfl⟩

theorem startUnicastLocalScript_listens_iff (localPort : UInt16) (as : List Answer) (x : Endpoint × Os) :
    ∃ es, (startup (UdpSocket.startUnicastLocalScript localPort) as x).2.log = x.2.log ++ es ∧
      (Listens x.1.sockOptions.listenAddr es ↔ (inetPton x.1.sockOptions.listenAddr).isSome = true ∨
        ¬ Script.Passes Instr.fails (beforeBind (UdpSocket.startUnicastLocalScript localPort)) as) := by
  have hpre : beforeBind (UdpSocket.startUnicastLocalScript localPort) = UdpSocket.openScript := by
    simp [beforeBind, UdpSocket.startUnicastLocalScript, UdpSocket.openScript, initializeInstr, Op.binds]
  rw [hpre]
  refine startup_listens_iff _ _ _ ?_ (by simp [Op.binds]) (by simp) (by simp) ?_
  · simp [UdpSocket.openScript, initializeInstr, Op.binds]
  · rintro a y rfl -
    rw [← result_sockOptions (UdpSocket.openScript.zip as) x]
    exact ⟨_, localPort, rfl⟩

/-- **A call listens where it was told to** exactly if `m_listenAddr` is an address, or one of the calls before
`Bind` fails: whatever the system answers, on `TcpServer::start` and on `UdpSocket::startUnicast`. -/
theorem listens_iff (w : Caller) (port : UInt16) (as : List Answer) :
    (∀ s s' : TcpServer.State,
      TcpServer.machine.run s (.call w (.start port) :: as.map fun a => .step w a []) = some s' →
      ∃ es, s'.os.log = s.os.log ++ es ∧
        (Listens s.sockOptions.listenAddr es ↔ (inetPton s.sockOptions.listenAddr).isSome = true ∨
          ¬ Script.Passes Instr.fails (beforeBind (TcpServer.startScript port)) as)) ∧
    ∀ s s' : Receiver.State,
      (Receiver.machine .udpSocket).run s (.call w (.startUnicastLocal port) :: as.map (.step w)) = some s' →
      ∃ es, s'.os.log = s.os.log ++ es ∧
        (Listens s.sockOptions.listenAddr es ↔ (inetPton s.sockOptions.listenAddr).isSome = true ∨
          ¬ Script.Passes Instr.fails (beforeBind (UdpSocket.startUnicastLocalScript port)) as) := by
  constructor
  · intro s s' hr
    have hos : s'.os = (startup (TcpServer.startScript port) as (s.toEndpoint, s.os)).2 :=
      congrArg Prod.snd (TcpServer.run_startup hr)
    rw [hos]
    exact startScript_listens_iff port as (s.toEndpoint, s.os)
  · intro s s' hr
    have hos : s'.os = (startup (UdpSocket.startUnicastLocalScript port) as (s.toEndpoint, s.os)).2 :=
      congrArg Prod.snd (Receiver.run_startup rfl hr)
    rw [hos]
    exact startUnicastLocalScript_listens_iff port as (s.toEndpoint, s.os)

/-- Calls in which every call to the system succeeds. -/
def okAnswers (n : ℕ) : List Answer := List.replicate n {}

/-- On the loopback address. -/
theorem listens_iff_loopback : ∃ s u,
    (TcpServer.machine.run (TcpServer.fresh { listenAddr := "127.0.0.1" } [])
        (.call (.app 0) (.start 80) :: (okAnswers 10).map fun a => .step (.app 0) a []) = some s ∧
      .start .ok ∈ s.os.log ∧ Listens "127.0.0.1" s.os.log) ∧
    (Receiver.machine .udpSocket).run (Receiver.fresh { listenAddr := "127.0.0.1" })
        (.call (.app 0) (.startUnicastLocal 80) :: (okAnswers 7).map (.step (.app 0))) = some u ∧
      .start .ok ∈ u.os.log ∧ Listens "127.0.0.1" u.os.log := by
  obtain ⟨s, hs, hok⟩ : ∃ s, TcpServer.machine.run (TcpServer.fresh { listenAddr := "127.0.0.1" } [])
      (.call (.app 0) (.start 80) :: (okAnswers 10).map fun a => .step (.app 0) a []) = some s ∧
      .start .ok ∈ s.os.log := Machine.exists_run (by decide)
  obtain ⟨u, hu, hok'⟩ : ∃ u, (Receiver.machine .udpSocket).run (Receiver.fresh { listenAddr := "127.0.0.1" })
      (.call (.app 0) (.startUnicastLocal 80) :: (okAnswers 7).map (.step (.app 0))) = some u ∧
      .start .ok ∈ u.os.log := Machine.exists_run (by decide)
  have hvalid : (inetPton "127.0.0.1").isSome = true := by decide
  obtain ⟨es, hes, hl⟩ := (listens_iff (.app 0) 80 (okAnswers 10)).1 _ s hs
  obtain ⟨fs, hfs, hl'⟩ := (listens_iff (.app 0) 80 (okAnswers 7)).2 _ u hu
  rw [TcpServer.fresh, List.nil_append] at hes
  rw [Receiver.fresh, List.nil_append] at hfs
  refine ⟨s, u, ⟨hs, hok, ?_⟩, hu, hok', ?_⟩
  · rw [hes]
    exact hl.mpr (.inl hvalid)
  · rw [hfs]
    exact hl'.mpr (.inl hvalid)

/-- With a host name for a listen address both calls report success, having bound to all interfaces. -/
theorem not_listens : ∃ s u,
    (TcpServer.machine.run (TcpServer.fresh { listenAddr := "localhost" } [])
        (.call (.app 0) (.start 80) :: (okAnswers 10).map fun a => .step (.app 0) a []) = some s ∧
      .start .ok ∈ s.os.log ∧ s.os.log.filterMap Event.bound = [INADDR_ANY] ∧
      ¬ Listens "localhost" s.os.log) ∧
    (Receiver.machine .udpSocket).run (Receiver.fresh { listenAddr := "localhost" })
        (.call (.app 0) (.startUnicastLocal 80) :: (okAnswers 7).map (.step (.app 0))) = some u ∧
      .start .ok ∈ u.os.log ∧ u.os.log.filterMap Event.bound = [INADDR_ANY] ∧
      ¬ Listens "localhost" u.os.log := by
  have hrefused : ∀ log, .start .ok ∈ log → ¬ Listens "localhost" log := by
    intro log hok hl
    have := (hl.refused (by decide)).2 _ hok
    cases this
  obtain ⟨s, hs, hok, hb⟩ : ∃ s, TcpServer.machine.run (TcpServer.fresh { listenAddr := "localhost" } [])
      (.call (.app 0) (.start 80) :: (okAnswers 10).map fun a => .step (.app 0) a []) = some s ∧
      .start .ok ∈ s.os.log ∧ s.os.log.filterMap Event.bound = [INADDR_ANY] := Machine.exists_run (by decide)
  obtain ⟨u, hu, hok', hb'⟩ : ∃ u, (Receiver.machine .udpSocket).run (Receiver.fresh { listenAddr := "localhost" })
      (.call (.app 0) (.startUnicastLocal 80) :: (okAnswers 7).map (.step (.app 0))) = some u ∧
      .start .ok ∈ u.os.log ∧ u.os.log.filterMap Event.bound = [INADDR_ANY] := Machine.exists_run (by decide)
  exact ⟨s, u, ⟨hs, hok, hb, hrefused _ hok⟩, hu, hok', hb', hrefused _ hok'⟩

end SocketsCpp
