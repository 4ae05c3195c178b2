import SocketsCpp.Startup

/-!
# On which interface a multicast socket joins and sends

`startMcast` sets two options that name an interface: `IP_ADD_MEMBERSHIP`, where the group is joined, and
`IP_MULTICAST_IF`, where messages to it leave. The value of the second is a local variable `addr` without an
initial value. Where `localIpAddr` is absent the code stores `INADDR_ANY` to the value of the first option once
more, and `addr` keeps what the stack held.

* `interfaceOf` — the interface that `localIpAddr` asks for.
* `SameInterface` — a call joins and sends on the one interface.
* `multicast_interface_iff` — the calls that do, and the pairs of calls that the stack does not tell apart.
-/

namespace SocketsCpp

open SocketsCpp.Library

/-! ### What a call logs -/

/-- The interface on which the group is joined. -/
def Event.joinsOn : Event → Option InAddr
  | .setSockOpt _ (.addMembership _ interface) _ => some interface
  | _ => none

/-- The interface on which messages leave. -/
def Event.leavesOn : Event → Option InAddr
  | .setSockOpt _ (.multicastIf addr) _ => some addr
  | _ => none

/-- Where both options are set, both name the interface `iface`. -/
def SameInterface (iface : InAddr) (log : List Event) : Prop :=
  ∀ i ∈ log.filterMap Event.joinsOn, ∀ x ∈ log.filterMap Event.leavesOn, x = i ∧ i = iface

/-- The interface that `localIpAddr` asks for; none if it is no address. -/
def interfaceOf : Option String → Option InAddr
  | some ip => inetPton ip
  | none => some INADDR_ANY

/-- The instructions before `IP_MULTICAST_IF` is set. -/
def beforeMulticastIf (mcastAddr : String) (port : UInt16) (localIpAddr : Option String) : List Instr :=
  UdpSocket.openScript ++
  [⟨.bindAny port, isNegative, errnoMsg "Error: bind() failed: errno "⟩,
   { op := .setGroup mcastAddr port },
   ⟨.addMembership mcastAddr localIpAddr, isNegative,
     errnoMsg "Error: setsockopt(IP_ADD_MEMBERSHIP) failed: errno "⟩]

/-- Not `IP_MULTICAST_IF`. -/
def Event.inward (e : Event) : Bool := e.leavesOn.isNone

/-- Neither of the two options. -/
def Event.offGroup (e : Event) : Bool := e.joinsOn.isNone && e.leavesOn.isNone

/-- The operations that set `IP_MULTICAST_IF`. -/
def Op.setsOutward : Op → Bool
  | .multicastIf _ _ => true
  | _ => false

/-- The operations that set one of the two options. -/
def Op.setsGroup : Op → Bool
  | .addMembership _ _ | .multicastIf _ _ => true
  | _ => false

theorem Op.exec_inward {op : Op} (h : op.setsOutward = false) (a : Answer) (e : Endpoint) (os : Os) :
    Grows Event.inward os.log (op.exec a e os).2.log := by
  refine exec_grows (fun ev hm => ?_) a e os
  cases hm <;> first | rfl | cases h

theorem Op.exec_offGroup {op : Op} (h : op.setsGroup = false) (a : Answer) (e : Endpoint) (os : Os) :
    Grows Event.offGroup os.log (op.exec a e os).2.log := by
  refine exec_grows (fun ev hm => ?_) a e os
  cases hm <;> first | rfl | cases h

theorem filterMap_of_offGroup {log : List Event} (h : ∀ e ∈ log, e.offGroup = true) :
    log.filterMap Event.joinsOn = [] ∧ log.filterMap Event.leavesOn = [] := by
  have hboth : ∀ e ∈ log, e.joinsOn = none ∧ e.leavesOn = none := by
    intro e he
    simpa [Event.offGroup] using h e he
  exact ⟨List.filterMap_eq_nil_iff.mpr fun e he => (hboth e he).1,
    List.filterMap_eq_nil_iff.mpr fun e he => (hboth e he).2⟩

/-! ### One call -/

section

variable {mcastAddr : String} {port : UInt16} {localIpAddr : Option String} {iface : InAddr}
  {as : List Answer} {x : Endpoint × Os}

theorem startMcastScript_eq (stack : InAddr) : UdpSocket.startMcastScript mcastAddr port localIpAddr stack =
    beforeMulticastIf mcastAddr port localIpAddr ++
      ⟨.multicastIf localIpAddr stack, isNegative,
        errnoMsg "Error: setsockopt(IP_MULTICAST_IF) failed: errno "⟩ :: [{ op := .thread }] := by
  simp [UdpSocket.startMcastScript, beforeMulticastIf]

/-- Before `IP_MULTICAST_IF` the group was joined, on the interface asked for. -/
theorem beforeMulticastIf_joins (hiface : interfaceOf localIpAddr = some iface)
    (hpass : Script.Passes Instr.fails (beforeMulticastIf mcastAddr port localIpAddr) as) :
    ∃ es, (Script.result Instr.perform ((beforeMulticastIf mcastAddr port localIpAddr).zip as) x).2.log =
        x.2.log ++ es ∧ es.filterMap Event.joinsOn = [iface] ∧ es.filterMap Event.leavesOn = [] := by
  set join : Instr := ⟨.addMembership mcastAddr localIpAddr, isNegative,
    errnoMsg "Error: setsockopt(IP_ADD_MEMBERSHIP) failed: errno "⟩ with hjoin
  set pre : List Instr := UdpSocket.openScript ++
    [⟨.bindAny port, isNegative, errnoMsg "Error: bind() failed: errno "⟩, { op := .setGroup mcastAddr port }]
    with hpre
  have hsplit : beforeMulticastIf mcastAddr port localIpAddr = pre ++ [join] := by
    simp [beforeMulticastIf, hpre, hjoin]
  rw [hsplit] at hpass ⊢
  have hlen : pre.length < as.length := by
    have := hpass.1
    rw [List.length_append] at this
    omega
  obtain ⟨a, hzip⟩ := Script.zip_concat (i := join) hlen
  have hf : join.fails a = false := hpass.2 (join, a) (by rw [hzip]; simp)
  have hgrows : Grows Event.offGroup x.2.log (Script.result Instr.perform (pre.zip as) x).2.log := by
    refine result_grows _ x fun p hp y => ?_
    have hmem : p.1 ∈ pre := (List.of_mem_zip hp).1
    have hgroup : ∀ i ∈ pre, i.op.setsGroup = false := by
      simp [hpre, UdpSocket.openScript, initializeInstr, Op.setsGroup]
    exact Instr.perform_grows (Op.exec_offGroup (hgroup _ hmem) _ _ _) (fun _ => rfl) (fun _ => rfl) fun _ => rfl
  obtain ⟨es, hes, hoff⟩ := hgrows.exists_append
  obtain ⟨hj, hs⟩ := filterMap_of_offGroup hoff
  set y := Script.result Instr.perform (pre.zip as) x with hy
  refine ⟨es ++ [.setSockOpt y.1.sockfd (.addMembership ((inetPton mcastAddr).getD INADDR_ANY) iface) a.ret],
    ?_, by simp [hj, Event.joinsOn], by simp [hs, Event.leavesOn]⟩
  rw [hzip, Script.result_concat, ← hy, Instr.perform_of_passes (by simp [hjoin]) (by simp [hjoin]) hf, hjoin]
  cases localIpAddr with
  | none =>
    cases hiface
    simp [Op.exec, hes]
  | some ip =>
    have hip : inetPton ip = some iface := hiface
    simp [Op.exec, hes, hip]

/-- The stack shows in `IP_MULTICAST_IF` only where `localIpAddr` is absent. -/
theorem exec_multicastIf (hiface : interfaceOf localIpAddr = some iface) (stack : InAddr) (a : Answer)
    (e : Endpoint) (os : Os) : (Op.multicastIf localIpAddr stack).exec a e os =
      (e, os.record (.setSockOpt e.sockfd
        (.multicastIf (if localIpAddr.isSome = true then iface else stack)) a.ret)) := by
  cases localIpAddr with
  | none => rfl
  | some ip =>
    have hip : inetPton ip = some iface := hiface
    simp [Op.exec, hip]

/-- What follows `IP_MULTICAST_IF`: the call fails, or creates the thread. -/
theorem after_multicastIf (e : Endpoint) (a : Answer) (as : List Answer) (msg : Answer → String) :
    ∃ fs : List Event, (∀ f ∈ fs, f.offGroup = true) ∧ ∀ os : Os, (Script.result Instr.perform
        (if isNegative a then [] else Script.performed Instr.fails [{ op := .thread }] as)
        (e, if isNegative a then os.record (.start (.fail (msg a))) else os)).2.log = os.log ++ fs := by
  cases hneg : isNegative a with
  | true => exact ⟨[.start (.fail (msg a))], by simp [Event.offGroup, Event.joinsOn, Event.leavesOn], fun _ => rfl⟩
  | false =>
    cases as with
    | nil => exact ⟨[], by simp, fun os => (List.append_nil os.log).symm⟩
    | cons b as =>
      have hone : Script.performed Instr.fails [{ op := .thread }] (b :: as) = [({ op := .thread }, b)] := by
        rw [Script.performed_cons]
        rfl
      cases hth : e.thread with
      | true =>
        refine ⟨[], by simp, fun os => ?_⟩
        simp [hone, Script.result, Instr.perform_thread, hth]
      | false =>
        refine ⟨[.start .ok], by simp [Event.offGroup, Event.joinsOn, Event.leavesOn], fun os => ?_⟩
        simp [hone, Script.result, Instr.perform_thread, hth]

/-- A call that comes as far as `IP_MULTICAST_IF`. -/
theorem startMcast_of_passes (hiface : interfaceOf localIpAddr = some iface)
    (hpass : Script.Passes Instr.fails (beforeMulticastIf mcastAddr port localIpAddr) as) :
    ∃ es fs d r, es.filterMap Event.joinsOn = [iface] ∧ es.filterMap Event.leavesOn = [] ∧
      (∀ f ∈ fs, f.offGroup = true) ∧
      ∀ stack, (startup (UdpSocket.startMcastScript mcastAddr port localIpAddr stack) as x).2.log =
        x.2.log ++ (es ++
          .setSockOpt d (.multicastIf (if localIpAddr.isSome = true then iface else stack)) r :: fs) := by
  obtain ⟨es, hes, hj, hs⟩ := beforeMulticastIf_joins (x := x) hiface hpass
  obtain ⟨a, as', hstartup⟩ := startup_of_passes hpass
  set y := Script.result Instr.perform ((beforeMulticastIf mcastAddr port localIpAddr).zip as) x with hy
  obtain ⟨fs, hoff, hfs⟩ := after_multicastIf y.1 a as'
    (errnoMsg "Error: setsockopt(IP_MULTICAST_IF) failed: errno ")
  refine ⟨es, fs, y.1.sockfd, a.ret, hj, hs, hoff, fun stack => ?_⟩
  have hperform : ∀ i : Instr, i.op = .multicastIf localIpAddr stack → i.perform a y =
      (y.1, if i.fails a then (y.2.record (.setSockOpt y.1.sockfd
          (.multicastIf (if localIpAddr.isSome = true then iface else stack)) a.ret)).record (.start (.fail (i.msg a)))
        else y.2.record (.setSockOpt y.1.sockfd
          (.multicastIf (if localIpAddr.isSome = true then iface else stack)) a.ret)) := by
    intro i hop
    cases hf : i.fails a with
    | true => rw [Instr.perform_of_fails (by simp [hop]) (by simp [hop]) hf, hop, exec_multicastIf hiface]; rfl
    | false => rw [Instr.perform_of_passes (by simp [hop]) (by simp [hop]) hf, hop, exec_multicastIf hiface]; rfl
  rw [startMcastScript_eq, hstartup, ← hy, hperform _ rfl]
  refine (hfs _).trans ?_
  simp [hes]

/-- A call that does not. -/
theorem startMcast_of_not_passes
    (hpass : ¬ Script.Passes Instr.fails (beforeMulticastIf mcastAddr port localIpAddr) as) :
    ∃ es, es.filterMap Event.leavesOn = [] ∧ ∀ stack,
      (startup (UdpSocket.startMcastScript mcastAddr port localIpAddr stack) as x).2.log = x.2.log ++ es := by
  have hgrows : Grows Event.inward x.2.log
      (startup (beforeMulticastIf mcastAddr port localIpAddr) as x).2.log := by
    refine result_grows _ x fun p hp y => ?_
    have hin : ∀ i ∈ beforeMulticastIf mcastAddr port localIpAddr, i.op.setsOutward = false := by
      simp [beforeMulticastIf, UdpSocket.openScript, initializeInstr, Op.setsOutward]
    exact Instr.perform_grows (Op.exec_inward (hin _ (Script.mem_of_mem_performed hp)) _ _ _) (fun _ => rfl)
      (fun _ => rfl) fun _ => rfl
  obtain ⟨es, hes, hin⟩ := hgrows.exists_append
  refine ⟨es, List.filterMap_eq_nil_iff.mpr fun e he => Option.isNone_iff_eq_none.mp (hin e he), fun stack => ?_⟩
  rw [startMcastScript_eq, startup_of_not_passes hpass, hes]

end

namespace Receiver

/-- **Multicast joins and sends on one interface** exactly if `localIpAddr` is given, the stack happens to hold
`INADDR_ANY`, or one of the calls before `IP_MULTICAST_IF` fails. Two calls that differ in what the stack holds
make the same calls and report the same exactly if `localIpAddr` is given, the stack holds the same, or one of
the calls before `IP_MULTICAST_IF` fails. -/
theorem multicast_interface_iff {s s₁ s₂ : State} {w : Caller} {mcastAddr : String} {port : UInt16}
    {localIpAddr : Option String} {stack₁ stack₂ iface : InAddr} {as : List Answer}
    (hiface : interfaceOf localIpAddr = some iface)
    (h₁ : (machine .udpSocket).run s
      (.call w (.startMcast mcastAddr port localIpAddr stack₁) :: as.map (.step w)) = some s₁)
    (h₂ : (machine .udpSocket).run s
      (.call w (.startMcast mcastAddr port localIpAddr stack₂) :: as.map (.step w)) = some s₂) :
    (∃ es, s₁.os.log = s.os.log ++ es ∧ (SameInterface iface es ↔
      localIpAddr.isSome = true ∨ stack₁ = INADDR_ANY ∨
        ¬ Script.Passes Instr.fails (beforeMulticastIf mcastAddr port localIpAddr) as)) ∧
    (s₁.os.log = s₂.os.log ↔ localIpAddr.isSome = true ∨ stack₁ = stack₂ ∨
      ¬ Script.Passes Instr.fails (beforeMulticastIf mcastAddr port localIpAddr) as) := by
  have hos₁ : s₁.os = (startup _ as (s.toEndpoint, s.os)).2 := congrArg Prod.snd (run_startup rfl h₁)
  have hos₂ : s₂.os = (startup _ as (s.toEndpoint, s.os)).2 := congrArg Prod.snd (run_startup rfl h₂)
  by_cases hpass : Script.Passes Instr.fails (beforeMulticastIf mcastAddr port localIpAddr) as
  · obtain ⟨es, fs, d, r, hj, hs, hoff, hlog⟩ := startMcast_of_passes (x := (s.toEndpoint, s.os)) hiface hpass
    obtain ⟨hjf, hsf⟩ := filterMap_of_offGroup hoff
    simp only [hpass, not_true_eq_false, or_false]
    constructor
    · refine ⟨_, hos₁ ▸ hlog stack₁, ?_⟩
      have hsame : SameInterface iface (es ++ .setSockOpt d
          (.multicastIf (if localIpAddr.isSome = true then iface else stack₁)) r :: fs) ↔
          (if localIpAddr.isSome = true then iface else stack₁) = iface := by
        simp [SameInterface, List.filterMap_append, List.filterMap_cons, hj, hs, hjf, hsf, Event.joinsOn,
          Event.leavesOn]
      rw [hsame]
      cases localIpAddr with
      | none =>
        cases hiface
        simp
      | some ip => simp
    · rw [hos₁, hos₂, hlog, hlog]
      cases localIpAddr <;> simp
  · obtain ⟨es, hs, hlog⟩ := startMcast_of_not_passes (x := (s.toEndpoint, s.os)) hpass
    refine ⟨⟨es, hos₁ ▸ hlog stack₁, ?_⟩, ?_⟩
    · refine iff_of_true (fun i _ x hx => ?_) (.inr (.inr hpass))
      rw [hs] at hx
      cases hx
    · refine iff_of_true ?_ (.inr (.inr hpass))
      rw [hos₁, hos₂]
      exact (hlog stack₁).trans (hlog stack₂).symm

/-- With a local address, whatever the stack holds. -/
theorem multicast_interface_iff_local : ∃ s₁ s₂ es,
    (machine .udpSocket).run (fresh {}) (.call (.app 0) (.startMcast "239.0.0.1" 90 (some "10.0.0.1") ⟨1, 2, 3, 4⟩) ::
      (List.replicate 10 {}).map (.step (.app 0))) = some s₁ ∧
    (machine .udpSocket).run (fresh {}) (.call (.app 0) (.startMcast "239.0.0.1" 90 (some "10.0.0.1") INADDR_ANY) ::
      (List.replicate 10 {}).map (.step (.app 0))) = some s₂ ∧
    .start .ok ∈ s₁.os.log ∧ s₁.os.log = es ∧ SameInterface ⟨10, 0, 0, 1⟩ es ∧ s₁.os.log = s₂.os.log := by
  obtain ⟨s₁, h₁, hok⟩ : ∃ s, (machine .udpSocket).run (fresh {})
      (.call (.app 0) (.startMcast "239.0.0.1" 90 (some "10.0.0.1") ⟨1, 2, 3, 4⟩) ::
        (List.replicate 10 {}).map (.step (.app 0))) = some s ∧ .start .ok ∈ s.os.log :=
    Machine.exists_run (by decide)
  obtain ⟨s₂, h₂, -⟩ : ∃ s, (machine .udpSocket).run (fresh {})
      (.call (.app 0) (.startMcast "239.0.0.1" 90 (some "10.0.0.1") INADDR_ANY) ::
        (List.replicate 10 {}).map (.step (.app 0))) = some s ∧ .start .ok ∈ s.os.log :=
    Machine.exists_run (by decide)
  have hiface : interfaceOf (some "10.0.0.1") = some ⟨10, 0, 0, 1⟩ := by decide
  obtain ⟨⟨es, hes, hsame⟩, hequal⟩ := multicast_interface_iff hiface h₁ h₂
  exact ⟨s₁, s₂, es, h₁, h₂, hok, hes, hsame.mpr (.inl rfl), hequal.mpr (.inl rfl)⟩

/-- Without one the group is joined on any interface, and messages leave on the one that the stack names: the
two calls report success, and do not set the same option. -/
theorem not_multicast_interface : ∃ s₁ s₂,
    (machine .udpSocket).run (fresh {}) (.call (.app 0) (.startMcast "239.0.0.1" 90 none ⟨1, 2, 3, 4⟩) ::
      (List.replicate 10 {}).map (.step (.app 0))) = some s₁ ∧
    (machine .udpSocket).run (fresh {}) (.call (.app 0) (.startMcast "239.0.0.1" 90 none INADDR_ANY) ::
      (List.replicate 10 {}).map (.step (.app 0))) = some s₂ ∧
    .start .ok ∈ s₁.os.log ∧ s₁.os.log.filterMap Event.joinsOn = [INADDR_ANY] ∧
    s₁.os.log.filterMap Event.leavesOn = [⟨1, 2, 3, 4⟩] ∧ ¬ SameInterface INADDR_ANY s₁.os.log ∧
    s₁.os.log ≠ s₂.os.log := by
  obtain ⟨s₁, h₁, hok, hj, hs⟩ : ∃ s, (machine .udpSocket).run (fresh {})
      (.call (.app 0) (.startMcast "239.0.0.1" 90 none ⟨1, 2, 3, 4⟩) ::
        (List.replicate 10 {}).map (.step (.app 0))) = some s ∧ .start .ok ∈ s.os.log ∧
      s.os.log.filterMap Event.joinsOn = [INADDR_ANY] ∧ s.os.log.filterMap Event.leavesOn = [⟨1, 2, 3, 4⟩] :=
    Machine.exists_run (by decide)
  obtain ⟨s₂, h₂, hs₂⟩ : ∃ s, (machine .udpSocket).run (fresh {})
      (.call (.app 0) (.startMcast "239.0.0.1" 90 none INADDR_ANY) ::
        (List.replicate 10 {}).map (.step (.app 0))) = some s ∧ s.os.log.filterMap Event.leavesOn = [INADDR_ANY] :=
    Machine.exists_run (by decide)
  refine ⟨s₁, s₂, h₁, h₂, hok, hj, hs, fun hsame => ?_, fun heq => ?_⟩
  · have := (hsame INADDR_ANY (by rw [hj]; simp) ⟨1, 2, 3, 4⟩ (by rw [hs]; simp)).1
    exact absurd this (by decide)
  · rw [heq, hs₂] at hs
    exact absurd hs (by decide)

end Receiver

end SocketsCpp
