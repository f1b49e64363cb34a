import CcOciRuntime.Proxy.Registry

/-!
# Clients and the VMs they are attached to

A hello publishes its VM before `Connect` has opened the VM's sockets, so an attach may look up a VM
that is not connected yet, or never will be. `AttachesSettled` is the schedule that excludes this:
no attach looks up a VM whose hello is still in flight. In every run of such steps clients are
attached to connected VMs only, and every request carried out on a VM finds its sockets open
(`attached_only_connected`), so that no request panics (`exec_settled_not_crashed`).

Reference: `helloHandler` (`proxy/proxy.go:94-132`), `attachHandler` (`proxy/proxy.go:135-157`).
-/

namespace CcOciRuntime

namespace Proxy

/-- An attach looks up a VM only when no hello is in flight on it. -/
def AttachesSettled (s : Sys) : Label → Prop
  | .run c _ => ∀ attach v, s.pc c = some (.attachLookup attach) →
    s.proxy.vms attach.containerID = some v → ∀ d, ¬ s.Connecting d v
  | _ => True

/-- The VM that a request is carried out on. -/
def Pc.usedVm : Pc → Option VmRef
  | .allocate v _ => some v
  | .hyper v _ => some v
  | _ => none

/-- The VM that a request is carried out on or about to store in its client. -/
def Pc.holds : Pc → Option VmRef
  | .attachSet v => some v
  | pc => pc.usedVm

theorem Pc.holds_of_usedVm {pc : Pc} {v : VmRef} (h : pc.usedVm = some v) :
    pc.holds = some v := by
  cases pc <;> first | exact h | cases h

/-- Clients, and the requests that hold a VM, hold connected ones. -/
structure Sys.Settled (s : Sys) : Prop where
  clients : ∀ c v, (s.proxy.clients c).vm = some v → (s.proxy.heap v).connected = true
  pcs : ∀ c pc v, s.pc c = some pc → pc.holds = some v → (s.proxy.heap v).connected = true

section
variable {s t : Sys} {l : Label} {d : ClientRef} {v : VmRef}

theorem Sys.Wf.lt_of_holds (hs : s.Wf) {pc : Pc} (hpc : s.pc d = some pc)
    (hv : pc.holds = some v) : v < s.proxy.nextVm := by
  have hok := hs.pcs d pc hpc
  cases pc <;> cases hv <;> exact hok

/-- A request that holds a VM after a step did so before, or it is one of the client's VM that has
just begun, or an attach that has just looked the VM up. -/
theorem step_holds (h : step s l = some t) {pc : Pc} (hpc : t.pc d = some pc)
    (hv : pc.holds = some v) :
    s.pc d = some pc ∨ (s.proxy.clients d).vm = some v ∨
    ∃ env attach, l = .run d env ∧ s.pc d = some (.attachLookup attach) ∧
      s.proxy.vms attach.containerID = some v := by
  obtain ⟨c, req, rfl, hc, rfl⟩ | ⟨c, env, pc', p, n, rfl, hc, hr, rfl⟩ |
    ⟨c, env, pc', fault, rfl, hc, hr, rfl⟩ | ⟨w, closeCtl, closeIo, rfl, hw, rfl⟩ := step_cases h
  · by_cases hd : d = c
    · subst hd
      rw [Sys.next_pc_self] at hpc
      obtain ⟨_, rfl⟩ | ⟨_, rfl⟩ | ⟨_, rfl⟩ | ⟨w, hw, ⟨_, rfl⟩ | ⟨_, rfl⟩⟩ := begin_pc hpc <;>
        cases hv
      · exact .inr (.inl hw)
      · exact .inr (.inl hw)
    · exact .inl (by rwa [Sys.next_pc_of_ne hd] at hpc)
  · by_cases hd : d = c
    · subst hd
      rw [Sys.next_pc_self] at hpc
      cases hr <;> cases hpc <;> cases hv
      exact .inr (.inr ⟨env, _, rfl, hc, ‹_›⟩)
    · exact .inl (by rwa [Sys.next_pc_of_ne hd] at hpc)
  · exact .inl hpc
  · exact .inl hpc

/-- A step whose attach is settled keeps clients and requests to connected VMs. -/
theorem Sys.Settled.of_step (hs : s.Wf) (hset : s.Settled) (hl : AttachesSettled s l)
    (h : step s l = some t) : t.Settled where
  clients := by
    intro d v hv
    obtain hold | ⟨env, -, hpc | ⟨hello, hpc⟩⟩ := step_clients h hv
    · exact step_connected h (hs.clients d v hold) (hset.clients d v hold)
    · exact step_connected h (hs.pcs d _ hpc) (hset.pcs d _ v hpc rfl)
    · -- the end of a hello: its `Connect` has no step left
      obtain ⟨hlt, -, hp⟩ := hs.pcs d _ hpc
      cases hp with
      | done hc => exact step_connected h hlt hc
  pcs := by
    intro d pc v hpc hv
    obtain hold | hvm | ⟨env, attach, rfl, hlook, hreg⟩ := step_holds h hpc hv
    · exact step_connected h (hs.lt_of_holds hold hv) (hset.pcs d pc v hold hv)
    · exact step_connected h (hs.clients d v hvm) (hset.clients d v hvm)
    · -- a registered VM on which no hello is in flight
      have hcon : (s.proxy.heap v).connected = true := by
        obtain hcon | ⟨c, hcon⟩ := hs.covered _ v hreg
        · exact hcon
        · exact absurd hcon (hl attach v hlook hreg c)
      exact step_connected h (hs.registered _ v hreg).1 hcon

theorem Sys.init_settled (enableVMConsole : Bool) (ids : ClientRef → UInt64) :
    (Sys.init enableVMConsole ids).Settled where
  clients := nofun
  pcs := nofun

/-- Every run of settled attaches leads to a settled state. -/
theorem exec_settled {enableVMConsole : Bool} {ids : ClientRef → UInt64} {ls : List Label}
    (hm : Meets step AttachesSettled (.init enableVMConsole ids) ls)
    (h : exec step (.init enableVMConsole ids) ls = some t) : t.Wf ∧ t.Settled := by
  have hstep : ∀ a l b, a.Wf ∧ a.Settled → AttachesSettled a l → step a l = some b →
      b.Wf ∧ b.Settled := fun a l b ha hl hab => ⟨ha.1.of_step hab, ha.2.of_step ha.1 hl hab⟩
  exact exec_invariant hstep ⟨Sys.init_wf _ _, Sys.init_settled _ _⟩ hm h

/-- Only a command to a VM without a control socket panics. -/
theorem resume_error {p : ProxyState} {c : ClientRef} {env : Env} {pc : Pc} {fault : Fault}
    (h : resume p c env pc = .error fault) :
    ∃ v hyper, pc = .hyper v hyper ∧ (p.heap v).hyperHandler.ctl = none := by
  cases pc with
  | hyper v hyper =>
    rw [resume] at h
    cases hsend : sendCtlMessage (p.heap v).hyperHandler.ctl hyper.hyperName env.rawLen env.ctl with
    | error fault' => exact ⟨v, hyper, rfl, ctl_of_sendCtlMessage hsend⟩
    | ok err =>
      rw [hsend] at h
      cases h
  | helloConnect v hello stages =>
    cases stages with
    | nil => cases h
    | cons st sts =>
      rw [resume] at h
      split at h <;> cases h
  | helloRegister | attachLookup | byeLookup =>
    rw [resume] at h
    split at h <;> cases h
  | helloUnregister | attachSet | byeDelete | allocate => cases h

/-- In a settled state no step panics. -/
theorem Sys.Settled.not_crashed (hs : s.Wf) (hset : s.Settled) (hn : s.crashed = false)
    (h : step s l = some t) : t.crashed = false := by
  obtain ⟨c, req, rfl, hc, rfl⟩ | ⟨c, env, pc', p, n, rfl, hc, hr, rfl⟩ |
    ⟨c, env, pc', fault, rfl, hc, hr, rfl⟩ | ⟨w, closeCtl, closeIo, rfl, hw, rfl⟩ := step_cases h
  · rwa [Sys.next_crashed]
  · rwa [Sys.next_crashed]
  · obtain ⟨v, hyper, rfl, hnil⟩ := resume_error hr
    have hopen : (s.proxy.heap v).hyperHandler.ctl.isSome :=
      (hs.opened v (hset.pcs c _ v hc rfl)).1
    rw [hnil] at hopen
    cases hopen
  · exact hn

end

/-- **No request panics** in a run whose attaches are settled. -/
theorem exec_settled_not_crashed {enableVMConsole : Bool} {ids : ClientRef → UInt64}
    {ls : List Label} {t : Sys} (hm : Meets step AttachesSettled (.init enableVMConsole ids) ls)
    (h : exec step (.init enableVMConsole ids) ls = some t) : t.crashed = false := by
  have hstep : ∀ a l b, a.Wf ∧ a.Settled ∧ a.crashed = false → AttachesSettled a l →
      step a l = some b → b.Wf ∧ b.Settled ∧ b.crashed = false := fun a l b ha hl hab =>
    ⟨ha.1.of_step hab, ha.2.1.of_step ha.1 hl hab, ha.2.1.not_crashed ha.1 ha.2.2 hab⟩
  exact (exec_invariant hstep ⟨Sys.init_wf _ _, Sys.init_settled _ _, rfl⟩ hm h).2.2

/-- What clients are owed in a state: a client's VM is one whose `Connect` has returned success, and
a request carried out on a VM finds both its sockets opened. -/
structure OnlyConnected (s : Sys) : Prop where
  attached : ∀ c v, (s.proxy.clients c).vm = some v → (s.proxy.heap v).connected = true
  used : ∀ c pc v, s.pc c = some pc → pc.usedVm = some v → (s.proxy.heap v).Opened

/-- **Clients are only attached to connected VMs**, in every run whose attaches are settled. -/
theorem attached_only_connected (enableVMConsole : Bool) (ids : ClientRef → UInt64)
    (ls : List Label) (t : Sys)
    (hm : Meets step AttachesSettled (.init enableVMConsole ids) ls)
    (h : exec step (.init enableVMConsole ids) ls = some t) : OnlyConnected t := by
  obtain ⟨hwf, hset⟩ := exec_settled hm h
  exact ⟨hset.clients, fun c pc v hpc hv =>
    hwf.opened v (hset.pcs c pc v hpc (Pc.holds_of_usedVm hv))⟩

/-- A client whose request is the only one in flight attaches to a settled VM. -/
theorem Sys.Alone.attachesSettled {s : Sys} {c : ClientRef} {env : Env} (hs : s.Alone c) :
    AttachesSettled s (.run c env) := by
  rintro attach v hpc - d ⟨pc, hd, hcon⟩
  by_cases hdc : d = c
  · subst hdc
    obtain rfl := Option.some.inj (hpc.symm.trans hd)
    cases hcon
  · rw [hs d hdc] at hd
    cases hd

/-- A hello, and then an attach of another client. -/
def attachedRun : List Label :=
  uninterrupted 0 (helloRequest "pod") 6 willingEnv ++
    uninterrupted 1 (containerRequest "attach" "pod") 2 willingEnv

/-- A run with an attached client. -/
theorem attached_only_connected_attachedRun :
    ∃ t, exec step (.init false fun _ => 1) attachedRun = some t ∧
      (t.proxy.clients 1).vm = some 0 ∧ OnlyConnected t := by
  have hinit : (Sys.init false fun _ => 1).Alone 0 := fun d _ => rfl
  have hmeets : Meets step AttachesSettled (.init false fun _ => 1) attachedRun :=
    hinit.meets_append (fun _ _ _ => trivial) (fun _ _ _ h => h.attachesSettled) rfl rfl
  exact ⟨_, rfl, rfl, attached_only_connected false (fun _ => 1) attachedRun _ hmeets rfl⟩

/-- A hello has registered its VM; before its `Connect`, another client attaches and sends a
command. -/
def earlyAttachRun : List Label :=
  uninterrupted 0 (helloRequest "pod") 1 willingEnv ++
    uninterrupted 1 (containerRequest "attach" "pod") 2 willingEnv ++
    [.request 1 { id := "hyper", data := some (.obj [("hyperName", .str "ping")]) }]

/-- The client is attached to a VM that is not connected, and its command panics on the control
socket that was never opened. -/
theorem early_attach_crashes :
    ∃ s t, exec step (.init false fun _ => 1) earlyAttachRun = some s ∧
      (s.proxy.clients 1).vm = some 0 ∧ (s.proxy.heap 0).connected = false ∧ ¬ OnlyConnected s ∧
      step s (.run 1 willingEnv) = some t ∧ t.crashed = true :=
  ⟨_, _, rfl, rfl, rfl, fun h => absurd (h.attached 1 0 rfl) (by decide), rfl, rfl⟩

end Proxy

end CcOciRuntime
