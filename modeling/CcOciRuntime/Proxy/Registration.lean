import CcOciRuntime.Proxy.Registry

/-!
# Deletions from the registry

A bye looks up a VM in one critical section and deletes by its name in another, and a hello that
fails deletes by name too. If a hello registers the same ID in between, the deletion takes the new
VM out. `RegistersAlone` is the schedule that excludes this: no hello registers an ID while another
request is still going to delete under it. In every run of such steps each deletion takes out the
VM its request means, and a VM of a successful hello stays registered until a bye that looked it up
(`registration_kept`).

Reference: `helloHandler` (`proxy/proxy.go:94-121`), `byeHandler` (`proxy/proxy.go:176-189`).
-/

namespace CcOciRuntime

namespace Proxy

/-- The entry that a request in flight may still delete, and the VM it means by it. A hello may do
so until its `Connect` has returned nil. -/
def Pc.deletes (p : ProxyState) : Pc → Option (String × VmRef)
  | .helloConnect v hello (_ :: _) => some (hello.containerID, v)
  | .helloUnregister v hello _ => some (hello.containerID, v)
  | .byeDelete v => some ((p.heap v).containerID, v)
  | _ => none

/-- The request of `c` may still delete the entry `id`, and means the VM `v` by it. -/
def Sys.MayDelete (s : Sys) (c : ClientRef) (id : String) (v : VmRef) : Prop :=
  ∃ pc, s.pc c = some pc ∧ pc.deletes s.proxy = some (id, v)

/-- The entry that a step deletes, and the VM its request looked up or inserted. -/
def deletion (s : Sys) : Label → Option (String × VmRef)
  | .run c _ =>
    match s.pc c with
    | some (.helloUnregister v hello _) => some (hello.containerID, v)
    | some (.byeDelete v) => some ((s.proxy.heap v).containerID, v)
    | _ => none
  | _ => none

/-- A hello registers a free ID only when no request in flight may still delete it. -/
def RegistersAlone (s : Sys) : Label → Prop
  | .run c _ => ∀ hello, s.pc c = some (.helloRegister hello) →
    s.proxy.vms hello.containerID = none → ∀ d v, ¬ s.MayDelete d hello.containerID v
  | _ => True

/-- Whoever may still delete an entry means the VM that is there. -/
def Sys.DeletesOwn (s : Sys) : Prop :=
  ∀ c id v, s.MayDelete c id v → ∀ w, s.proxy.vms id = some w → w = v

section
variable {s t : Sys} {l : Label} {d : ClientRef} {id : String} {v : VmRef}

/-- The request that takes a step may delete where it could before, or it has just inserted or
looked up the VM it means. -/
theorem Sys.Wf.mayDelete_self (hs : s.Wf) {env : Env} {pc pc' : Pc} {p : ProxyState} {n : Next}
    (hc : s.pc d = some pc) (hr : Resumes s.proxy d env pc p n) (hn : n.pc = some pc')
    (hdel : pc'.deletes p = some (id, v)) :
    s.MayDelete d id v ∨
    (∃ hello, pc = .helloRegister hello ∧ id = hello.containerID ∧ s.proxy.vms id = none ∧
      v = s.proxy.nextVm) ∨
    s.proxy.vms id = some v := by
  cases hr <;> cases hn
  case register hello hfree =>
    cases hdel
    exact .inr (.inl ⟨hello, rfl, rfl, hfree, rfl⟩)
  case connectFailed w hello st sts vm err hcs =>
    cases hdel
    exact .inl ⟨_, hc, rfl⟩
  case connectStep w hello st sts vm hcs =>
    cases sts <;> cases hdel
    exact .inl ⟨_, hc, rfl⟩
  case attachFound attach w hw => cases hdel
  case byeFound bye w hw =>
    cases hdel
    exact .inr (.inr (by rwa [(hs.registered _ v hw).2]))

/-- A request that may delete after a step could before, or it has just inserted or looked up the VM
it means. -/
theorem Sys.Wf.step_mayDelete (hs : s.Wf) (h : step s l = some t) (hd : t.MayDelete d id v) :
    s.MayDelete d id v ∨
    (∃ env hello, l = .run d env ∧ s.pc d = some (.helloRegister hello) ∧
      id = hello.containerID ∧ s.proxy.vms id = none ∧ v = s.proxy.nextVm) ∨
    s.proxy.vms id = some v := by
  obtain ⟨pc', hpc, hdel⟩ := hd
  -- what a request means to delete does not change while it is at the same place
  have hsame : s.pc d = some pc' → s.MayDelete d id v := by
    intro hold
    refine ⟨pc', hold, ?_⟩
    cases pc' with
    | byeDelete w =>
      have hw : w < s.proxy.nextVm := hs.pcs d _ hold
      rwa [Pc.deletes, (step_old_vm h hw).1] at hdel
    | helloConnect w hello stages =>
      cases stages with
      | nil => cases hdel
      | cons st sts => exact hdel
    | helloUnregister => exact hdel
    | _ => cases hdel
  obtain ⟨c, req, rfl, hc, rfl⟩ | ⟨c, env, pc, p, n, rfl, hc, hr, rfl⟩ |
    ⟨c, env, pc, fault, rfl, hc, hr, rfl⟩ | ⟨w, closeCtl, closeIo, rfl, hw, rfl⟩ := step_cases h
  · by_cases hd : d = c
    · subst hd
      rw [Sys.next_pc_self] at hpc
      obtain ⟨_, rfl⟩ | ⟨_, rfl⟩ | ⟨_, rfl⟩ | ⟨_, -, ⟨_, rfl⟩ | ⟨_, rfl⟩⟩ := begin_pc hpc <;>
        cases hdel
    · exact .inl (hsame (by rwa [Sys.next_pc_of_ne hd] at hpc))
  · by_cases hd : d = c
    · subst hd
      rw [Sys.next_pc_self] at hpc
      rw [Sys.next_proxy] at hdel
      obtain hd | ⟨hello, rfl, hid, hfree, hv⟩ | hv := hs.mayDelete_self hc hr hpc hdel
      · exact .inl hd
      · exact .inr (.inl ⟨env, hello, rfl, hc, hid, hfree, hv⟩)
      · exact .inr (.inr hv)
    · exact .inl (hsame (by rwa [Sys.next_pc_of_ne hd] at hpc))
  · exact .inl (hsame hpc)
  · exact .inl (hsame hpc)

/-- A step that registers alone keeps every pending deletion to its own VM. -/
theorem Sys.DeletesOwn.of_step (hs : s.Wf) (hown : s.DeletesOwn) (hl : RegistersAlone s l)
    (h : step s l = some t) : t.DeletesOwn := by
  intro d id v hd w hw
  obtain hold | ⟨c, env, hello, rfl, hpc, rfl, hfree, rfl, rfl⟩ := step_vms h hw
  · obtain hd | ⟨env, hello, rfl, hpc, rfl, hfree, rfl⟩ | hv := hs.step_mayDelete h hd
    · exact hown d id v hd w hold
    · rw [hfree] at hold
      cases hold
    · exact Option.some.inj (hold.symm.trans hv)
  · obtain hd | ⟨env', hello', -, -, -, -, rfl⟩ | hv := hs.step_mayDelete h hd
    · exact absurd hd (hl hello hpc hfree d v)
    · rfl
    · rw [hfree] at hv
      cases hv

/-- The step that takes a VM out of the registry is the bye that looked it up, or its own failed
hello. -/
theorem Sys.DeletesOwn.step_unregistered (hown : s.DeletesOwn) (h : step s l = some t)
    (hv : s.proxy.vms id = some v) (hn : t.proxy.vms id ≠ some v) :
    ∃ c env, l = .run c env ∧ (s.pc c = some (.byeDelete v) ∨
      ∃ hello err, s.pc c = some (.helloUnregister v hello err)) := by
  -- an entry that is gone is the one that was deleted
  have hkey : ∀ {key : String}, t.proxy.vms = Function.update s.proxy.vms key none →
      key = id := by
    intro key hk
    by_contra hne
    rw [hk, Function.update_of_ne (Ne.symm hne)] at hn
    exact hn hv
  obtain ⟨c, req, rfl, hc, rfl⟩ | ⟨c, env, pc, p, n, rfl, hc, hr, rfl⟩ |
    ⟨c, env, pc, fault, rfl, hc, hr, rfl⟩ | ⟨w, closeCtl, closeIo, rfl, hw, rfl⟩ := step_cases h
  · exact absurd (by rwa [Sys.next_proxy]) hn
  · refine ⟨c, env, rfl, ?_⟩
    cases hr with
    | @register hello hfree =>
      have hne : id ≠ hello.containerID := by
        rintro rfl
        rw [hv] at hfree
        cases hfree
      exact absurd (by simpa [ProxyState.register, hne] using hv) hn
    | @unregister w hello err =>
      have hid := hkey (by rw [Sys.next_proxy]; rfl)
      obtain rfl := hown c id w ⟨_, hc, by rw [Pc.deletes, hid]⟩ v hv
      exact .inr ⟨hello, err, hc⟩
    | @byeDelete w =>
      have hid := hkey (by rw [Sys.next_proxy]; rfl)
      obtain rfl := hown c id w ⟨_, hc, by rw [Pc.deletes, hid]⟩ v hv
      exact .inl hc
    | _ => exact absurd (by rwa [Sys.next_proxy]) hn
  · exact absurd hv hn
  · exact absurd hv hn

/-- A VM whose hello has failed: it exists, it is not connected, and no hello is in flight on it. -/
def Sys.Failed (s : Sys) (v : VmRef) : Prop :=
  v < s.proxy.nextVm ∧ (s.proxy.heap v).connected = false ∧ ∀ c, ¬ s.Connecting c v

/-- A failed connection stays failed. -/
theorem Sys.Failed.of_step (hf : s.Failed v) (h : step s l = some t) : t.Failed v := by
  obtain ⟨hlt, hu, hno⟩ := hf
  refine ⟨Nat.lt_of_lt_of_le hlt (step_nextVm h), ?_, fun c hc => ?_⟩
  · obtain ⟨-, hlink | ⟨c, env, hello, st, sts, -, hpc, -⟩⟩ := step_old_vm h hlt
    · exact (congrArg Prod.fst hlink).trans hu
    · exact absurd ⟨_, hpc, rfl⟩ (hno c)
  · obtain hc | ⟨rfl, -⟩ := step_connecting h hc
    · exact hno c hc
    · exact Nat.lt_irrefl _ hlt

/-- The deletion of a failed hello is the end of its VM. -/
theorem Sys.Wf.failed_of_unregister (hs : s.Wf) {env : Env} (h : step s (.run d env) = some t)
    {hello : Hello} {err : String} (hpc : s.pc d = some (.helloUnregister v hello err)) :
    t.Failed v := by
  have hcon : s.Connecting d v := ⟨_, hpc, rfl⟩
  obtain ⟨hlt, hu⟩ := hs.connecting hcon
  have ht : t = s.next d (s.proxy.unregister hello.containerID)
      (.done ((helloCheck hello).setError err)) := by
    simp only [step] at h
    split_ifs at h
    simp only [hpc, resume] at h
    exact (Option.some.inj h).symm
  refine ⟨Nat.lt_of_lt_of_le hlt (step_nextVm h), by rw [ht]; exact hu, fun c hc => ?_⟩
  obtain hc' | ⟨rfl, -⟩ := step_connecting h hc
  · obtain rfl := hs.unique c d v hc' hcon
    obtain ⟨pc, hpc', -⟩ := hc
    rw [ht, Sys.next_pc_self] at hpc'
    cases hpc'
  · exact Nat.lt_irrefl _ hlt

end

/-! ## Whole runs -/

/-- What a registration is owed between the states `s` and `t`, which the steps `ms` lead from one
to the other: a deletion takes out the VM its request means, and a VM that was registered and whose
`Connect` succeeded is only gone when a bye that looked it up has deleted it. -/
structure RegistrationKept (s t : Sys) (ms : List Label) : Prop where
  own : ∀ l id v w, deletion t l = some (id, v) → t.proxy.vms id = some w → w = v
  kept : ∀ id v, s.proxy.vms id = some v → (t.proxy.heap v).connected = true →
    t.proxy.vms id ≠ some v → ∃ ms₁ c env ms₂ u, ms = ms₁ ++ .run c env :: ms₂ ∧
      exec step s ms₁ = some u ∧ u.pc c = some (.byeDelete v)

section
variable {s t : Sys}

/-- A deletion is of the own VM. -/
theorem Sys.DeletesOwn.eq_of_deletion (hown : s.DeletesOwn) {l : Label} {id : String} {v w : VmRef}
    (hd : deletion s l = some (id, v)) (hw : s.proxy.vms id = some w) : w = v := by
  cases l with
  | run c env =>
    simp only [deletion] at hd
    split at hd <;> cases hd
    · exact hown c _ v ⟨_, ‹_›, rfl⟩ w hw
    · exact hown c _ v ⟨_, ‹_›, rfl⟩ w hw
  | request | lost => cases hd

/-- The induction is on the steps: either the VM is still registered after the first of them, or
that step took it out. -/
theorem exec_kept : ∀ {ms : List Label} {s t : Sys}, s.Wf ∧ s.DeletesOwn →
    Meets step RegistersAlone s ms → exec step s ms = some t → ∀ id v,
    s.proxy.vms id = some v → (t.proxy.heap v).connected = true → t.proxy.vms id ≠ some v →
    ∃ ms₁ c env ms₂ u, ms = ms₁ ++ .run c env :: ms₂ ∧ exec step s ms₁ = some u ∧
      u.pc c = some (.byeDelete v)
  | [], s, t, _, _, h, id, v, hv, _, hn => by
    cases h
    exact absurd hv hn
  | l :: ms, s, t, ⟨hs, hown⟩, hm, h, id, v, hv, hc, hn => by
    obtain ⟨u, hu, hut⟩ := exec_cons_eq_some.1 h
    have hnext : u.Wf ∧ u.DeletesOwn := ⟨hs.of_step hu, hown.of_step hs hm.1 hu⟩
    by_cases huv : u.proxy.vms id = some v
    · obtain ⟨ms₁, c, env, ms₂, w, rfl, hw, hpc⟩ :=
        exec_kept hnext (hm.tail hu) hut id v huv hc hn
      exact ⟨l :: ms₁, c, env, ms₂, w, rfl, exec_cons_eq_some.2 ⟨u, hu, hw⟩, hpc⟩
    · obtain ⟨c, env, rfl, hpc | ⟨hello, err, hpc⟩⟩ := hown.step_unregistered hu hv huv
      · exact ⟨[], c, env, ms, s, rfl, rfl, hpc⟩
      · -- a failed hello: its VM is never connected
        have hstep : ∀ a l b, a.Failed v → True → step a l = some b → b.Failed v :=
          fun a l b hf _ hab => hf.of_step hab
        have hfail := exec_invariant hstep (hs.failed_of_unregister hu hpc) (meets_true _ _) hut
        exact absurd (hc.symm.trans hfail.2.1) (by decide)

end

/-- **No registration is lost to another request**, in every run whose hellos register alone:
whichever states `s` and `t` the run passes through, a deletion from `t` takes out the VM its
request means, and a VM registered in `s` whose `Connect` succeeded is only gone from `t` when a bye
that looked it up has deleted it in between. -/
theorem registration_kept (enableVMConsole : Bool) (ids : ClientRef → UInt64)
    (ls ms : List Label) (s t : Sys)
    (hm : Meets step RegistersAlone (.init enableVMConsole ids) (ls ++ ms))
    (hs : exec step (.init enableVMConsole ids) ls = some s) (ht : exec step s ms = some t) :
    RegistrationKept s t ms := by
  have hstep : ∀ a l b, a.Wf ∧ a.DeletesOwn → RegistersAlone a l → step a l = some b →
      b.Wf ∧ b.DeletesOwn := fun a l b ha hl hab => ⟨ha.1.of_step hab, ha.2.of_step ha.1 hl hab⟩
  have hinit : (Sys.init enableVMConsole ids).Wf ∧ (Sys.init enableVMConsole ids).DeletesOwn :=
    ⟨Sys.init_wf _ _, fun c id v hd w hw => nomatch hw⟩
  obtain ⟨hls, hms⟩ := hm.split hs
  have hs' := exec_invariant hstep hinit hls hs
  have ht' := exec_invariant hstep hs' hms ht
  exact ⟨fun l id v w => ht'.2.eq_of_deletion, exec_kept hs' hms ht⟩

/-- A client whose request is the only one in flight registers alone. -/
theorem Sys.Alone.registersAlone {s : Sys} {c : ClientRef} {env : Env} (hs : s.Alone c) :
    RegistersAlone s (.run c env) := by
  rintro hello hpc - d v ⟨pc, hd, hdel⟩
  by_cases hdc : d = c
  · subst hdc
    obtain rfl := Option.some.inj (hpc.symm.trans hd)
    cases hdel
  · rw [hs d hdc] at hd
    cases hd

/-- A hello for a container. -/
def helloRun : List Label := uninterrupted 0 (helloRequest "pod") 6 willingEnv

/-- A bye for the container, by another client. -/
def byeRun : List Label := uninterrupted 1 (containerRequest "bye" "pod") 2 willingEnv

/-- A VM that is registered and unregistered. -/
theorem registration_kept_helloBye :
    ∃ s t, exec step (.init false fun _ => 1) helloRun = some s ∧ exec step s byeRun = some t ∧
      s.proxy.vms "pod" = some 0 ∧ t.proxy.vms "pod" = none ∧ RegistrationKept s t byeRun := by
  have hinit : (Sys.init false fun _ => 1).Alone 0 := fun d _ => rfl
  have hmeets : Meets step RegistersAlone (.init false fun _ => 1) (helloRun ++ byeRun) :=
    hinit.meets_append (fun _ _ _ => trivial) (fun _ _ _ h => h.registersAlone) rfl rfl
  exact ⟨_, _, rfl, rfl, rfl, rfl, registration_kept false (fun _ => 1) helloRun byeRun _ _
    hmeets rfl rfl⟩

/-- A container is registered; a bye of client 1 looks it up; client 2 says bye to the same
container, and client 3 registers the name again. -/
def lateByeRun : List Label :=
  helloRun ++ uninterrupted 1 (containerRequest "bye" "pod") 1 willingEnv ++
    uninterrupted 2 (containerRequest "bye" "pod") 2 willingEnv ++
    uninterrupted 3 (helloRequest "pod") 6 willingEnv

/-- The deletion of client 1, which looked up the first VM, takes out the second. -/
theorem late_bye_deletes_new_vm :
    ∃ s t, exec step (.init false fun _ => 1) lateByeRun = some s ∧
      deletion s (.run 1 willingEnv) = some ("pod", 0) ∧ s.proxy.vms "pod" = some 1 ∧
      (s.proxy.heap 1).connected = true ∧ step s (.run 1 willingEnv) = some t ∧
      t.proxy.vms "pod" = none ∧ ¬ RegistrationKept s s [] :=
  ⟨_, _, rfl, rfl, rfl, rfl, rfl, rfl, fun h =>
    absurd (h.own (.run 1 willingEnv) "pod" 0 1 rfl rfl) (by decide)⟩

end Proxy

end CcOciRuntime
