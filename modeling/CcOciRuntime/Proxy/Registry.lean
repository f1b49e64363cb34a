import CcOciRuntime.Proxy.Concurrent

/-!
# The registry of VMs under interleaved requests

A hello publishes its VM before `Connect` opens the VM's sockets, and both a bye and a failed hello
delete by name in a critical section of their own. `Sys.Wf` collects what holds of every reachable
state whatever the schedule (`Sys.Wf.of_step`, `Sys.init_wf`): who refers to which VM object, how
far each `Connect` has come, and that a registered VM is connected or has its hello still in flight.
The two guarded results build on it, in `CcOciRuntime.Proxy.Registration` and
`CcOciRuntime.Proxy.Attachment`.

Reference: `proxy/proxy.go:81-192`, `Connect` (`proxy/vm.go:179`).
-/

namespace CcOciRuntime

namespace Proxy

/-- How far `Connect` has come on a VM, by the steps that are left of it. -/
inductive Vm.Progress (vm : Vm) : List ConnectStage → Prop
  | start (h : vm.connected = false) : vm.Progress [.console, .ctl, .io, .ready]
  | console (h : vm.connected = false) : vm.Progress [.ctl, .io, .ready]
  | ctl (h : vm.connected = false) (hctl : vm.hyperHandler.ctl.isSome) : vm.Progress [.io, .ready]
  | io (h : vm.connected = false) (hctl : vm.hyperHandler.ctl.isSome)
    (hio : vm.hyperHandler.io.isSome) : vm.Progress [.ready]
  | done (h : vm.connected = true) : vm.Progress []

/-- The part of a VM that only its own `Connect` changes. -/
def Vm.link (vm : Vm) : Bool × Option Conn × Option Conn :=
  (vm.connected, vm.hyperHandler.ctl, vm.hyperHandler.io)

/-- Both sockets to the agent have been opened. -/
def Vm.Opened (vm : Vm) : Prop := vm.hyperHandler.ctl.isSome ∧ vm.hyperHandler.io.isSome

section
variable {vm vm' : Vm} {env : ConnectEnv} {st : ConnectStage} {sts : List ConnectStage}

/-- Progress is about the link. -/
theorem Vm.Progress.congr (h : vm'.link = vm.link) (hp : vm.Progress sts) : vm'.Progress sts := by
  simp only [Vm.link, Prod.mk.injEq] at h
  obtain ⟨hc, hctl, hio⟩ := h
  cases hp with
  | start hu => exact .start (hc.trans hu)
  | console hu => exact .console (hc.trans hu)
  | ctl hu h1 => exact .ctl (hc.trans hu) (hctl ▸ h1)
  | io hu h1 h2 => exact .io (hc.trans hu) (hctl ▸ h1) (hio ▸ h2)
  | done hd => exact .done (hc.trans hd)

theorem Vm.Progress.unconnected (hp : vm.Progress (st :: sts)) : vm.connected = false := by
  cases hp <;> assumption

/-- A step of `Connect` that succeeds is one step further. -/
theorem Vm.Progress.step (hp : vm.Progress (st :: sts))
    (h : vm.connectStep env st = (vm', none)) : vm'.Progress sts := by
  cases hp with
  | start hu =>
    simp only [Vm.connectStep] at h
    repeat' split at h
    all_goals cases h
    all_goals exact .console hu
  | console hu =>
    simp only [Vm.connectStep] at h
    split at h <;> cases h
    exact .ctl hu rfl
  | ctl hu hctl =>
    simp only [Vm.connectStep] at h
    split at h <;> cases h
    exact .io hu hctl rfl
  | io hu hctl hio =>
    simp only [Vm.connectStep] at h
    split at h <;> cases h
    exact .done rfl

/-- A step of `Connect` that fails leaves the VM unconnected. -/
theorem Vm.Progress.failed (hp : vm.Progress (st :: sts)) {err : String}
    (h : vm.connectStep env st = (vm', some err)) : vm'.connected = false := by
  have hu := hp.unconnected
  cases st <;> simp only [Vm.connectStep] at h <;> repeat' split at h
  all_goals cases h
  all_goals exact hu

/-- Only the last step of `Connect` connects the VM, and then both sockets are open. -/
theorem Vm.Progress.opened (hp : vm.Progress (st :: sts))
    (hc : (vm.connectStep env st).1.connected = true) : (vm.connectStep env st).1.Opened := by
  have hu := hp.unconnected
  rcases h : vm.connectStep env st with ⟨vm', err⟩
  rw [h] at hc
  cases err with
  | some err => exact absurd hc (by simp [hp.failed h])
  | none =>
    cases hp with
    | io _ hctl hio =>
      simp only [Vm.connectStep] at h
      split at h <;> cases h
      exact ⟨hctl, hio⟩
    | start | console | ctl =>
      -- the step before the last is not the one that connects
      simp only [Vm.connectStep] at h
      repeat' split at h
      all_goals cases h
      all_goals exact absurd (hc.symm.trans hu) (by decide)

theorem Vm.connectStep_connected (hc : vm.connected = true) :
    (vm.connectStep env st).1.connected = true := by
  cases st <;> simp only [Vm.connectStep] <;> repeat' split
  all_goals first | exact hc | rfl

theorem Hyperstart.closeSockets_conns (h : Hyperstart) (closeCtl closeIo : Bool) :
    (h.closeSockets closeCtl closeIo).ctl = h.ctl ∧
    (h.closeSockets closeCtl closeIo).io = h.io := by
  unfold Hyperstart.closeSockets
  repeat' split
  all_goals exact ⟨rfl, rfl⟩

/-- Closing a VM's sockets keeps the connections it had. -/
theorem Vm.close_link (vm : Vm) (closeCtl closeIo : Bool) :
    (vm.close closeCtl closeIo).link = vm.link := by
  obtain ⟨hctl, hio⟩ := vm.hyperHandler.closeSockets_conns closeCtl closeIo
  simp only [Vm.link, Vm.close, hctl, hio]

theorem helloVm_connected (enableVMConsole : Bool) (hello : Hello) :
    (helloVm enableVMConsole hello).connected = false := by
  unfold helloVm
  split <;> rfl

theorem helloVm_containerID (enableVMConsole : Bool) (hello : Hello) :
    (helloVm enableVMConsole hello).containerID = hello.containerID := by
  unfold helloVm
  split <;> rfl

end

/-! ## What holds of every reachable state -/

/-- The VM that a hello in flight has registered and not yet connected. -/
def Pc.connecting : Pc → Option VmRef
  | .helloConnect v _ (_ :: _) => some v
  | .helloUnregister v _ _ => some v
  | _ => none

/-- The client `c` has a hello in flight on the VM `v`: it has registered `v`, and its `Connect` has
not returned nil. -/
def Sys.Connecting (s : Sys) (c : ClientRef) (v : VmRef) : Prop :=
  ∃ pc, s.pc c = some pc ∧ pc.connecting = some v

/-- What a request in flight relies on: the VM it refers to exists, and a hello's VM has the hello's
ID and the sockets its `Connect` has opened so far. -/
def PcOk (p : ProxyState) : Pc → Prop
  | .helloConnect v hello stages =>
    v < p.nextVm ∧ (p.heap v).containerID = hello.containerID ∧ (p.heap v).Progress stages
  | .helloUnregister v hello _ =>
    v < p.nextVm ∧ (p.heap v).containerID = hello.containerID ∧ (p.heap v).connected = false
  | .attachSet v => v < p.nextVm
  | .byeDelete v => v < p.nextVm
  | .allocate v _ => v < p.nextVm
  | .hyper v _ => v < p.nextVm
  | .helloRegister _ | .attachLookup _ | .byeLookup _ => True

/-- The invariant of every schedule. -/
structure Sys.Wf (s : Sys) : Prop where
  pcs : ∀ c pc, s.pc c = some pc → PcOk s.proxy pc
  clients : ∀ c v, (s.proxy.clients c).vm = some v → v < s.proxy.nextVm
  /-- a registered VM exists under its own ID -/
  registered : ∀ id v, s.proxy.vms id = some v →
    v < s.proxy.nextVm ∧ (s.proxy.heap v).containerID = id
  /-- a registered VM is connected, or its hello is in flight -/
  covered : ∀ id v, s.proxy.vms id = some v →
    (s.proxy.heap v).connected = true ∨ ∃ c, s.Connecting c v
  /-- a VM has one hello -/
  unique : ∀ c d v, s.Connecting c v → s.Connecting d v → c = d
  /-- a connected VM has its sockets -/
  opened : ∀ v, (s.proxy.heap v).connected = true → (s.proxy.heap v).Opened

section
variable {s t : Sys} {l : Label} {c d : ClientRef} {v : VmRef}

/-- A hello in flight on a VM: the VM exists, and it is not connected. -/
theorem Sys.Wf.connecting (h : s.Wf) (hc : s.Connecting c v) :
    v < s.proxy.nextVm ∧ (s.proxy.heap v).connected = false := by
  obtain ⟨pc, hpc, hv⟩ := hc
  have hok := h.pcs c pc hpc
  cases pc with
  | helloConnect w hello stages =>
    cases stages with
    | nil => cases hv
    | cons st sts =>
      cases hv
      exact ⟨hok.1, hok.2.2.unconnected⟩
  | helloUnregister w hello err =>
    cases hv
    exact ⟨hok.1, hok.2.2⟩
  | _ => cases hv

/-- New references only grow. -/
theorem step_nextVm (h : step s l = some t) : s.proxy.nextVm ≤ t.proxy.nextVm := by
  obtain ⟨c, req, rfl, hc, rfl⟩ | ⟨c, env, pc, p, n, rfl, hc, hr, rfl⟩ |
    ⟨c, env, pc, fault, rfl, hc, hr, rfl⟩ | ⟨w, closeCtl, closeIo, rfl, hw, rfl⟩ := step_cases h
  · rw [Sys.next_proxy]
  · rw [Sys.next_proxy]
    cases hr <;> first | exact le_rfl | exact Nat.le_succ _
  · exact le_rfl
  · exact le_rfl

/-- A step keeps the ID of a VM that exists, and its connection state unless the step belongs to
its own `Connect`. -/
theorem step_old_vm (h : step s l = some t) (hv : v < s.proxy.nextVm) :
    (t.proxy.heap v).containerID = (s.proxy.heap v).containerID ∧
    ((t.proxy.heap v).link = (s.proxy.heap v).link ∨
      ∃ c env hello st sts, l = .run c env ∧ s.pc c = some (.helloConnect v hello (st :: sts)) ∧
        t.proxy.heap v = ((s.proxy.heap v).connectStep env.connect st).1) := by
  obtain heq | ⟨hello, hnew, -⟩ | ⟨c, env, hello, st, sts, hl, hpc, heq⟩ |
    ⟨c, env, a, p, f, -, -, -, -, heq⟩ | ⟨closeCtl, closeIo, heq⟩ := step_heap h v
  · rw [heq]
    exact ⟨rfl, .inl rfl⟩
  · exact absurd hnew (Nat.ne_of_lt hv)
  · refine ⟨?_, .inr ⟨c, env, hello, st, sts, hl, hpc, heq⟩⟩
    rw [heq]
    exact (Vm.connectStep_frame _ _ _).1
  · rw [heq]
    exact ⟨rfl, .inl rfl⟩
  · rw [heq]
    exact ⟨rfl, .inl (Vm.close_link _ _ _)⟩

/-- A connected VM stays connected. -/
theorem step_connected (h : step s l = some t) (hv : v < s.proxy.nextVm)
    (hc : (s.proxy.heap v).connected = true) : (t.proxy.heap v).connected = true := by
  obtain ⟨-, hlink | ⟨c, env, hello, st, sts, -, -, heq⟩⟩ := step_old_vm h hv
  · exact (congrArg Prod.fst hlink).trans hc
  · rw [heq]
    exact Vm.connectStep_connected hc

/-- What a request relies on survives a step of another client. -/
theorem Sys.Wf.pcOk_other (hs : s.Wf) (h : step s l = some t) (hl : ∀ env, l ≠ .run d env)
    {pc : Pc} (hpc : s.pc d = some pc) : PcOk t.proxy pc := by
  have hok := hs.pcs d pc hpc
  have hmono := step_nextVm h
  cases pc with
  | helloConnect v hello stages =>
    obtain ⟨hv, hid, hp⟩ := hok
    obtain ⟨hcid, hlink⟩ := step_old_vm h hv
    refine ⟨Nat.lt_of_lt_of_le hv hmono, hcid.trans hid, ?_⟩
    obtain hlink | ⟨c, env, hello', st, sts, rfl, hc, heq⟩ := hlink
    · exact hp.congr hlink
    · -- the VM has one hello, which is not the one that took the step
      have hcv : s.Connecting c v := ⟨_, hc, rfl⟩
      cases stages with
      | nil =>
        cases hp with
        | done hd => exact absurd (hd.symm.trans (hs.connecting hcv).2) (by decide)
      | cons st' sts' =>
        obtain rfl := hs.unique c d v hcv ⟨_, hpc, rfl⟩
        exact absurd rfl (hl env)
  | helloUnregister v hello err =>
    obtain ⟨hv, hid, hu⟩ := hok
    obtain ⟨hcid, hlink⟩ := step_old_vm h hv
    refine ⟨Nat.lt_of_lt_of_le hv hmono, hcid.trans hid, ?_⟩
    obtain hlink | ⟨c, env, hello', st, sts, rfl, hc, heq⟩ := hlink
    · exact (congrArg Prod.fst hlink).trans hu
    · obtain rfl := hs.unique c d v ⟨_, hc, rfl⟩ ⟨_, hpc, rfl⟩
      exact absurd rfl (hl env)
  | attachSet v | byeDelete v | allocate v a | hyper v hy => exact Nat.lt_of_lt_of_le hok hmono
  | helloRegister | attachLookup | byeLookup => trivial

/-- A request that begins refers to no VM but its client's. -/
theorem begin_pc {p : ProxyState} {req : Request} {pc : Pc} (h : (begin p c req).pc = some pc) :
    (∃ hello, pc = .helloRegister hello) ∨ (∃ attach, pc = .attachLookup attach) ∨
    (∃ bye, pc = .byeLookup bye) ∨
    ∃ v, (p.clients c).vm = some v ∧
      ((∃ a, pc = .allocate v a) ∨ ∃ hyper, pc = .hyper v hyper) := by
  simp only [begin] at h
  repeat' split at h
  all_goals cases h
  · exact .inl ⟨_, rfl⟩
  · exact .inr (.inl ⟨_, rfl⟩)
  · exact .inr (.inr (.inl ⟨_, rfl⟩))
  · exact .inr (.inr (.inr ⟨_, ‹_›, .inl ⟨_, rfl⟩⟩))
  · exact .inr (.inr (.inr ⟨_, ‹_›, .inr ⟨_, rfl⟩⟩))

/-- **What a step does to the registry.** An entry after it was there before, or the step is the
insertion of a hello. -/
theorem step_vms (h : step s l = some t) {id : String} (hv : t.proxy.vms id = some v) :
    s.proxy.vms id = some v ∨
    ∃ c env hello, l = .run c env ∧ s.pc c = some (.helloRegister hello) ∧
      id = hello.containerID ∧ s.proxy.vms id = none ∧ v = s.proxy.nextVm ∧
      t = s.next c (s.proxy.register hello)
        (.goto (.helloConnect s.proxy.nextVm hello connectStages)) := by
  have hdelete : ∀ {key : String},
      Function.update s.proxy.vms key none id = some v → s.proxy.vms id = some v := by
    intro key hk
    rw [Function.update_apply] at hk
    split_ifs at hk
    exact hk
  obtain ⟨c, req, rfl, hc, rfl⟩ | ⟨c, env, pc, p, n, rfl, hc, hr, rfl⟩ |
    ⟨c, env, pc, fault, rfl, hc, hr, rfl⟩ | ⟨w, closeCtl, closeIo, rfl, hw, rfl⟩ := step_cases h
  · exact .inl (by rwa [Sys.next_proxy] at hv)
  · rw [Sys.next_proxy] at hv
    cases hr with
    | @register hello hfree =>
      by_cases hid : id = hello.containerID
      · subst hid
        refine .inr ⟨c, env, hello, rfl, hc, rfl, hfree, ?_, rfl⟩
        simpa [ProxyState.register, eq_comm] using hv
      · exact .inl (by simpa [ProxyState.register, hid] using hv)
    | unregister | byeDelete => exact .inl (hdelete hv)
    | _ => exact .inl hv
  · exact .inl hv
  · exact .inl hv

/-- A client's VM after a step is the one it had, or the step is its own attach or the end of its
own hello. -/
theorem step_clients (h : step s l = some t) (hv : (t.proxy.clients d).vm = some v) :
    (s.proxy.clients d).vm = some v ∨
    ∃ env, l = .run d env ∧ (s.pc d = some (.attachSet v) ∨
      ∃ hello, s.pc d = some (.helloConnect v hello [])) := by
  obtain ⟨c, req, rfl, hc, rfl⟩ | ⟨c, env, pc, p, n, rfl, hc, hr, rfl⟩ |
    ⟨c, env, pc, fault, rfl, hc, hr, rfl⟩ | ⟨w, closeCtl, closeIo, rfl, hw, rfl⟩ := step_cases h
  · exact .inl (by rwa [Sys.next_proxy] at hv)
  · rw [Sys.next_proxy] at hv
    by_cases hd : d = c
    · subst hd
      cases hr with
      | @connected w hello =>
        obtain rfl : w = v := by simpa [ProxyState.attach] using hv
        exact .inr ⟨env, rfl, .inr ⟨hello, hc⟩⟩
      | @attachSet w =>
        obtain rfl : w = v := by simpa [ProxyState.attach] using hv
        exact .inr ⟨env, rfl, .inl hc⟩
      | byeDelete => simp [ProxyState.attach] at hv
      | _ => exact .inl hv
    · cases hr with
      | connected | attachSet => exact .inl (by simpa [ProxyState.attach, hd] using hv)
      | byeDelete => exact .inl (by simpa [ProxyState.attach, ProxyState.unregister, hd] using hv)
      | _ => exact .inl hv
  · exact .inl hv
  · exact .inl hv

/-- A hello in flight after a step was so before, or the step has registered its VM. -/
theorem step_connecting (h : step s l = some t) (hv : t.Connecting d v) :
    s.Connecting d v ∨ (v = s.proxy.nextVm ∧ ∃ env, l = .run d env) := by
  obtain ⟨pc', hpc, hcon⟩ := hv
  obtain ⟨c, req, rfl, hc, rfl⟩ | ⟨c, env, pc, p, n, rfl, hc, hr, rfl⟩ |
    ⟨c, env, pc, fault, rfl, hc, hr, rfl⟩ | ⟨w, closeCtl, closeIo, rfl, hw, rfl⟩ := step_cases h
  · by_cases hd : d = c
    · subst hd
      rw [Sys.next_pc_self] at hpc
      obtain ⟨_, rfl⟩ | ⟨_, rfl⟩ | ⟨_, rfl⟩ | ⟨_, -, ⟨_, rfl⟩ | ⟨_, rfl⟩⟩ := begin_pc hpc <;>
        cases hcon
    · rw [Sys.next_pc_of_ne hd] at hpc
      exact .inl ⟨pc', hpc, hcon⟩
  · by_cases hd : d = c
    · subst hd
      rw [Sys.next_pc_self] at hpc
      cases hr <;> cases hpc <;> try cases hcon
      · exact .inr ⟨rfl, env, rfl⟩
      · exact .inl ⟨_, hc, rfl⟩
      · rename_i sts vm hcs
        cases sts <;> cases hcon
        exact .inl ⟨_, hc, rfl⟩
    · rw [Sys.next_pc_of_ne hd] at hpc
      exact .inl ⟨pc', hpc, hcon⟩
  · exact .inl ⟨pc', hpc, hcon⟩
  · exact .inl ⟨pc', hpc, hcon⟩

/-- A hello in flight stays so, connects its VM, or fails and deletes its entry. -/
theorem Sys.Wf.step_connecting_or (hs : s.Wf) (h : step s l = some t) (hv : s.Connecting d v) :
    t.Connecting d v ∨ (t.proxy.heap v).connected = true ∨
    ∃ env hello err, l = .run d env ∧ s.pc d = some (.helloUnregister v hello err) ∧
      t.proxy.vms = Function.update s.proxy.vms hello.containerID none := by
  obtain ⟨pc', hpc, hcon⟩ := hv
  obtain ⟨c, req, rfl, hc, rfl⟩ | ⟨c, env, pc, p, n, rfl, hc, hr, rfl⟩ |
    ⟨c, env, pc, fault, rfl, hc, hr, rfl⟩ | ⟨w, closeCtl, closeIo, rfl, hw, rfl⟩ := step_cases h
  · have hd : d ≠ c := by
      rintro rfl
      rw [hc] at hpc
      cases hpc
    exact .inl ⟨pc', by rwa [Sys.next_pc_of_ne hd], hcon⟩
  · by_cases hd : d = c
    · subst hd
      obtain rfl := Option.some.inj (hpc.symm.trans hc)
      have hok := hs.pcs d pc' hc
      cases hr with
      | @connectFailed w hello st sts vm err hcs =>
        cases hcon
        exact .inl ⟨_, Sys.next_pc_self _, rfl⟩
      | @connectStep w hello st sts vm hcs =>
        cases hcon
        cases sts with
        | nil =>
          -- the last step of `Connect`
          refine .inr (.inl ?_)
          cases hok.2.2.step hcs with
          | done hdone => simpa [ProxyState.setVm] using hdone
        | cons st' sts' => exact .inl ⟨_, Sys.next_pc_self _, rfl⟩
      | @unregister w hello err =>
        cases hcon
        exact .inr (.inr ⟨env, hello, err, rfl, hc, by rw [Sys.next_proxy]; rfl⟩)
      | _ => cases hcon
    · exact .inl ⟨pc', by rwa [Sys.next_pc_of_ne hd], hcon⟩
  · exact .inl ⟨pc', hpc, hcon⟩
  · exact .inl ⟨pc', hpc, hcon⟩

/-- Where a step leads its own request, the request may rely on what it needs. -/
theorem Sys.Wf.pcOk_self (hs : s.Wf) {env : Env} {pc pc' : Pc} {p : ProxyState} {n : Next}
    (hc : s.pc c = some pc) (hr : Resumes s.proxy c env pc p n) (hn : n.pc = some pc') :
    PcOk p pc' := by
  have hok := hs.pcs c pc hc
  cases hr <;> cases hn
  case register hello hfree =>
    refine ⟨Nat.lt_succ_self _, ?_, .start ?_⟩
    · simp [ProxyState.register, helloVm_containerID]
    · simp [ProxyState.register, helloVm_connected]
  case connectFailed v hello st sts vm err hcs =>
    have hcid := (Vm.connectStep_frame (s.proxy.heap v) env.connect st).1
    rw [hcs] at hcid
    refine ⟨hok.1, ?_, ?_⟩
    · simpa [ProxyState.setVm] using hcid.trans hok.2.1
    · simpa [ProxyState.setVm] using hok.2.2.failed hcs
  case connectStep v hello st sts vm hcs =>
    have hcid := (Vm.connectStep_frame (s.proxy.heap v) env.connect st).1
    rw [hcs] at hcid
    refine ⟨hok.1, ?_, ?_⟩
    · simpa [ProxyState.setVm] using hcid.trans hok.2.1
    · simpa [ProxyState.setVm] using hok.2.2.step hcs
  case attachFound attach v hv => exact (hs.registered _ v hv).1
  case byeFound bye v hv => exact (hs.registered _ v hv).1

/-- Every client stays where it can be. -/
theorem Sys.Wf.step_pcs (hs : s.Wf) (h : step s l = some t) (d : ClientRef) (pc : Pc)
    (hpc : t.pc d = some pc) : PcOk t.proxy pc := by
  obtain ⟨c, req, rfl, hc, rfl⟩ | ⟨c, env, pc', p, n, rfl, hc, hr, rfl⟩ |
    ⟨c, env, pc', fault, rfl, hc, hr, rfl⟩ | ⟨w, closeCtl, closeIo, rfl, hw, rfl⟩ := step_cases h
  · by_cases hd : d = c
    · subst hd
      rw [Sys.next_pc_self] at hpc
      rw [Sys.next_proxy]
      obtain ⟨_, rfl⟩ | ⟨_, rfl⟩ | ⟨_, rfl⟩ | ⟨v, hv, ⟨_, rfl⟩ | ⟨_, rfl⟩⟩ := begin_pc hpc
      · trivial
      · trivial
      · trivial
      · exact hs.clients d v hv
      · exact hs.clients d v hv
    · rw [Sys.next_pc_of_ne hd] at hpc
      refine hs.pcOk_other h ?_ hpc
      rintro env' ⟨⟩
  · by_cases hd : d = c
    · subst hd
      rw [Sys.next_pc_self] at hpc
      rw [Sys.next_proxy]
      exact hs.pcOk_self hc hr hpc
    · rw [Sys.next_pc_of_ne hd] at hpc
      refine hs.pcOk_other h ?_ hpc
      rintro env' ⟨⟩
      exact hd rfl
  · exact hs.pcs d pc hpc
  · refine hs.pcOk_other h ?_ hpc
    rintro env' ⟨⟩

/-- A client refers to a VM that exists. -/
theorem Sys.Wf.step_clients (hs : s.Wf) (h : step s l = some t) (d : ClientRef) (v : VmRef)
    (hv : (t.proxy.clients d).vm = some v) : v < t.proxy.nextVm := by
  refine Nat.lt_of_lt_of_le ?_ (step_nextVm h)
  obtain hold | ⟨env, -, hpc | ⟨hello, hpc⟩⟩ := Proxy.step_clients h hv
  · exact hs.clients d v hold
  · exact hs.pcs d _ hpc
  · exact (hs.pcs d _ hpc).1

/-- A VM is registered under its own ID. -/
theorem Sys.Wf.step_registered (hs : s.Wf) (h : step s l = some t) (id : String) (v : VmRef)
    (hv : t.proxy.vms id = some v) :
    v < t.proxy.nextVm ∧ (t.proxy.heap v).containerID = id := by
  obtain hold | ⟨c, env, hello, -, -, rfl, -, rfl, rfl⟩ := step_vms h hv
  · obtain ⟨hlt, hid⟩ := hs.registered id v hold
    exact ⟨Nat.lt_of_lt_of_le hlt (step_nextVm h), (step_old_vm h hlt).1.trans hid⟩
  · refine ⟨Nat.lt_succ_self _, ?_⟩
    simp [ProxyState.register, helloVm_containerID]

/-- A registered VM is connected or being connected. -/
theorem Sys.Wf.step_covered (hs : s.Wf) (h : step s l = some t) (id : String) (v : VmRef)
    (hv : t.proxy.vms id = some v) :
    (t.proxy.heap v).connected = true ∨ ∃ c, t.Connecting c v := by
  obtain hold | ⟨c, env, hello, -, -, rfl, -, rfl, rfl⟩ := step_vms h hv
  · obtain ⟨hlt, hid⟩ := hs.registered id v hold
    obtain hcon | ⟨c, hcon⟩ := hs.covered id v hold
    · exact .inl (step_connected h hlt hcon)
    · obtain hcon | hdone | ⟨env, hello, err, -, hpc, hvms⟩ := hs.step_connecting_or h hcon
      · exact .inr ⟨c, hcon⟩
      · exact .inl hdone
      · -- the failed hello has deleted the entry of its own VM
        have hname : hello.containerID = id := (hs.pcs c _ hpc).2.1.symm.trans hid
        simp [hvms, hname] at hv
  · exact .inr ⟨c, _, Sys.next_pc_self _, rfl⟩

/-- One client connects a VM. -/
theorem Sys.Wf.step_unique (hs : s.Wf) (h : step s l = some t) (c d : ClientRef) (v : VmRef)
    (hc : t.Connecting c v) (hd : t.Connecting d v) : c = d := by
  obtain hc | ⟨rfl, env, rfl⟩ := step_connecting h hc
  · obtain hd | ⟨rfl, -⟩ := step_connecting h hd
    · exact hs.unique c d v hc hd
    · exact absurd (hs.connecting hc).1 (Nat.lt_irrefl _)
  · obtain hd | ⟨-, env', hl⟩ := step_connecting h hd
    · exact absurd (hs.connecting hd).1 (Nat.lt_irrefl _)
    · cases hl
      rfl

/-- A connected VM has its sockets open. -/
theorem Sys.Wf.step_opened (hs : s.Wf) (h : step s l = some t) (v : VmRef)
    (hc : (t.proxy.heap v).connected = true) : (t.proxy.heap v).Opened := by
  obtain heq | ⟨hello, -, heq⟩ | ⟨c, env, hello, st, sts, -, hpc, heq⟩ |
    ⟨c, env, a, p, f, -, -, -, -, heq⟩ | ⟨closeCtl, closeIo, heq⟩ := step_heap h v
  · rw [heq] at hc ⊢
    exact hs.opened v hc
  · rw [heq, helloVm_connected] at hc
    cases hc
  · rw [heq] at hc ⊢
    exact (hs.pcs c _ hpc).2.2.opened hc
  · rw [heq] at hc ⊢
    exact hs.opened v hc
  · rw [heq] at hc ⊢
    obtain ⟨hctl, hio⟩ := (s.proxy.heap v).hyperHandler.closeSockets_conns closeCtl closeIo
    simp only [Vm.Opened, Vm.close, hctl, hio]
    exact hs.opened v hc

/-- A step keeps the invariant, whatever the scheduler chooses. -/
theorem Sys.Wf.of_step (hs : s.Wf) (h : step s l = some t) : t.Wf where
  pcs := hs.step_pcs h
  clients := hs.step_clients h
  registered := hs.step_registered h
  covered := hs.step_covered h
  unique := hs.step_unique h
  opened := hs.step_opened h

/-- The start is well formed. -/
theorem Sys.init_wf (enableVMConsole : Bool) (ids : ClientRef → UInt64) :
    (Sys.init enableVMConsole ids).Wf where
  pcs := nofun
  clients := nofun
  registered := nofun
  covered := nofun
  unique := by
    rintro c d v ⟨pc, hpc, -⟩
    cases hpc
  opened := nofun

end

end Proxy

end CcOciRuntime
