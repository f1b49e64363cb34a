import CcOciRuntime.Runtime.Delete

/-!
# A second delete

A `delete` that fails can be run again. Until it has taken leave of the proxy nothing has changed,
so that the second run is like a first one. The proxy forgets the container when it handles the bye,
and from then on it refuses every other bye for it: a later `delete` fails before it cleans up
(`delete_retry_iff`). Only when the state file is already gone does a later `delete` succeed, and it
does nothing then.
-/

namespace CcOciRuntime

namespace Runtime

section
variable {env first second : StopEnv} {id : String} {m : Machine}

/-! ## Taking leave of the proxy -/

theorem unmarshalBye_byeRequest (id : String) :
    Proxy.unmarshalBye (byeRequest id).data = .ok { containerID := id } := by
  have hfield : Proxy.matchesField "containerId" "containerId" = true := by decide
  simp [Proxy.unmarshalBye, Proxy.unmarshal, byeRequest, hfield, Proxy.setString]
  rfl

/-- The response to a bye, and the registry after it. -/
theorem handleRequest_byeRequest (s : Proxy.ProxyState) (c : Proxy.ClientRef) (env : Proxy.Env)
    (id : String) :
    Proxy.handleRequest s c env (byeRequest id) = .ok
      (match s.vms id with
      | none => (s, .failure (Proxy.unknownContainer id), none)
      | some v =>
        ((s.unregister (s.heap v).containerID).attach c none,
          { success := true, error := "", data := [] }, none)) := by
  have hhandle : Proxy.handle s c env "bye" (byeRequest id).data =
      some (.ok (Proxy.byeHandler s c (byeRequest id).data)) := by
    simp [Proxy.handle]
  have hrequest : Proxy.handleRequest s c env (byeRequest id) =
      (.ok (Proxy.byeHandler s c (byeRequest id).data) :
        Except Proxy.Fault (Proxy.ProxyState × Proxy.HandlerResponse)).map
          fun r => (r.1, r.2.response, r.2.file) := by
    have hid : (byeRequest id).id = "bye" := rfl
    rw [Proxy.handleRequest, hid, if_neg (by decide), hhandle]
  rw [hrequest, Proxy.byeHandler, unmarshalBye_byeRequest]
  dsimp only
  cases s.vms id <;> rfl

/-- Once the proxy has handled a bye, it does not know the container. -/
theorem proxyCmdBye_unregistered {s : Proxy.ProxyState}
    (hnamed : ∀ v, s.vms id = some v → (s.heap v).containerID = id) (hsent : env.bye ≠ .unsent) :
    (proxyCmdBye env s id).1.vms id = none := by
  unfold proxyCmdBye
  rw [handleRequest_byeRequest]
  cases hv : s.vms id with
  | none =>
    cases hbye : env.bye with
    | unsent => exact absurd hbye hsent
    | unanswered | answered => exact hv
  | some v =>
    have hgone : (s.unregister (s.heap v).containerID).vms id = none := by
      rw [hnamed v hv]
      exact Function.update_self _ _ _
    cases hbye : env.bye with
    | unsent => exact absurd hbye hsent
    | unanswered | answered => exact hgone

/-- A bye for a container that the proxy does not know. -/
theorem proxyCmdBye_unknown {s : Proxy.ProxyState} (h : s.vms id = none) :
    (proxyCmdBye env s id).2 = false := by
  unfold proxyCmdBye
  rw [handleRequest_byeRequest, h]
  cases env.bye <;> rfl

theorem proxyCmdBye_unsent {s : Proxy.ProxyState} (h : env.bye = .unsent) :
    proxyCmdBye env s id = (s, false) := by
  rw [proxyCmdBye, h]

/-! ## One delete -/

/-- The `delete` gets to the bye, and the proxy handles it. -/
def byeHandled (env : StopEnv) (id : String) (m : Machine) : Bool :=
  match stopState env id m.host with
  | some (_, st) => !(vmRunning env st && !env.destroyed) && decide (env.bye ≠ .unsent)
  | none => false

/-- A `delete` that succeeds and leaves neither the files of the container nor a mount that is not
in the table `M`. -/
def RemovesAll (env : StopEnv) (id : String) (M : List Mount) (m : Machine) : Prop :=
  (handleCommandStop env id m).ok = true ∧ Gone env id (handleCommandStop env id m).machine.host ∧
    (handleCommandStop env id m).machine.host.mounts = M

instance (env : StopEnv) (id : String) (M : List Mount) (m : Machine) :
    Decidable (RemovesAll env id M m) :=
  inferInstanceAs (Decidable (_ ∧ _))

theorem stat_isSome_of_stopState {host : Host} {r : Config × OciState}
    (h : stopState env id host = some r) :
    (host.stat env.host.cwd (stateFilePath env.rootDir id)).isSome := by
  rw [Option.isSome_iff_ne_none]
  intro hnone
  rw [stopState, readFile, hnone] at h
  cases h

/-- Without a state the machine stays. -/
theorem machine_of_stopState_none (h : stopState env id m.host = none) :
    (handleCommandStop env id m).machine = m := by
  unfold handleCommandStop
  split
  · rfl
  · split
    · rfl
    · next h' =>
      rw [h] at h'
      cases h'

/-- What `delete` does with such a container. -/
theorem OwnVm.exists_ociStop (h : OwnVm env id m) : ∃ c st sc,
    stopState env id m.host = some (c, st) ∧ podIsVm (configUpdate sc.config st) = true ∧
      handleCommandStop env id m = ociStop env id sc st m := by
  obtain ⟨c, st, hstate, sc, hsc, hvm⟩ := h
  refine ⟨c, st, sc, hstate, hvm, ?_⟩
  rw [handleCommandStop_eq (stat_isSome_of_stopState hstate) hstate, hsc]

/-- A stop that gets to the bye. -/
theorem ociStop_bye (id : String) (m : Machine) {sc : SpecConfig} {st : OciState}
    (hrunning : (vmRunning env st && !env.destroyed) = false)
    (hvm : podIsVm (configUpdate sc.config st) = true) :
    (ociStop env id sc st m).machine.proxy = (proxyCmdBye env m.proxy id).1 ∧
      ((proxyCmdBye env m.proxy id).2 = false → (ociStop env id sc st m).ok = false ∧
        (ociStop env id sc st m).machine.host = m.host) := by
  obtain ⟨htrue, -⟩ | ⟨-, proxy, bye, hbye, heq⟩ := ociStop_cases env id sc st m
  · cases hrunning.symm.trans htrue
  · rw [hvm, if_pos rfl] at hbye
    rw [hbye, heq]
    cases bye with
    | false => exact ⟨rfl, fun _ => ⟨rfl, rfl⟩⟩
    | true => exact ⟨rfl, fun h => nomatch h⟩

/-- A VM that is not destroyed stops `delete`. -/
theorem ociStop_not_destroyed {sc : SpecConfig} {st : OciState}
    (hrunning : (vmRunning env st && !env.destroyed) = true) :
    ociStop env id sc st m = { machine := m, ok := false } := by
  obtain ⟨-, heq⟩ | ⟨hfalse, -⟩ := ociStop_cases env id sc st m
  · exact heq
  · cases hrunning.symm.trans hfalse

/-- A `delete` that does not get to the bye, or whose bye does not get to the proxy, changes
nothing. -/
theorem machine_of_not_byeHandled (h : OwnVm env id m) (hbye : byeHandled env id m = false) :
    (handleCommandStop env id m).machine = m := by
  obtain ⟨c, st, sc, hstate, hvm, heq⟩ := h.exists_ociStop
  rw [heq]
  rw [byeHandled, hstate] at hbye
  cases hrunning : vmRunning env st && !env.destroyed with
  | true => rw [ociStop_not_destroyed hrunning]
  | false =>
    have hunsent : env.bye = .unsent := by simpa [hrunning] using hbye
    obtain ⟨hproxy, hfailed⟩ := ociStop_bye id m hrunning hvm
    rw [proxyCmdBye_unsent hunsent] at hproxy hfailed
    have hhost := (hfailed rfl).2
    cases m
    exact congrArg₂ Machine.mk hhost hproxy

/-- A handled `bye` unregisters the VM. -/
theorem unregistered_of_byeHandled (h : OwnVm env id m) (hbye : byeHandled env id m = true)
    (hnamed : ∀ v, m.proxy.vms id = some v → (m.proxy.heap v).containerID = id) :
    (handleCommandStop env id m).machine.proxy.vms id = none := by
  obtain ⟨c, st, sc, hstate, hvm, heq⟩ := h.exists_ociStop
  rw [byeHandled, hstate] at hbye
  obtain ⟨hrunning, hsent⟩ := Bool.and_eq_true_iff.1 hbye
  rw [heq, (ociStop_bye id m (Bool.not_eq_true' _ ▸ hrunning) hvm).1]
  exact proxyCmdBye_unregistered hnamed (of_decide_eq_true hsent)

/-- **No `delete` succeeds** once the proxy does not know the container. -/
theorem not_ok_of_unregistered (h : OwnVm env id m) (hgone : m.proxy.vms id = none) :
    (handleCommandStop env id m).ok = false := by
  obtain ⟨c, st, sc, -, hvm, heq⟩ := h.exists_ociStop
  rw [heq]
  cases hrunning : vmRunning env st && !env.destroyed with
  | true => rw [ociStop_not_destroyed hrunning]
  | false => exact ((ociStop_bye id m hrunning hvm).2 (proxyCmdBye_unknown hgone)).1

/-! ## Two deletes -/

/-- What is read does not depend on the rest of the environment. -/
theorem OwnVm.congr (hroot : first.rootDir = second.rootDir)
    (hcwd : first.host.cwd = second.host.cwd) (h : OwnVm second id m) : OwnVm first id m := by
  have hread : readFile first.host = readFile second.host := by
    funext host path
    rw [readFile, readFile, hcwd]
  have hconfig : stopConfig first.host = stopConfig second.host := by
    funext host c hfresh
    rw [stopConfig, stopConfig, hread]
  obtain ⟨c, st, hstate, sc, hsc, hvm⟩ := h
  have hstate' : stopState first id m.host = some (c, st) := by
    rw [stopState, hread, hroot]
    exact hstate
  exact ⟨c, st, hstate', sc, hconfig ▸ hsc, hvm⟩

/-- **A second `delete`**, of a container that is a VM of its own and that it would have removed in
place of the first one. The first leaves the directory of the container. Then the second removes the
container exactly when the proxy has not handled the bye of the first. -/
theorem delete_retry_iff {M : List Mount} (hroot : first.rootDir = second.rootDir)
    (hcwd : first.host.cwd = second.host.cwd)
    (hnamed : ∀ v, m.proxy.vms id = some v → (m.proxy.heap v).containerID = id)
    (hown : OwnVm second id m) (hdelete : RemovesAll second id M m)
    (hdir : ((handleCommandStop first id m).machine.host.lookup second.host.cwd
      (runtimePath second.rootDir id).text).isSome)
    (hstill : (stopState second id (handleCommandStop first id m).machine.host).isSome →
      OwnVm second id (handleCommandStop first id m).machine) :
    RemovesAll second id M (handleCommandStop first id m).machine ↔
      byeHandled first id m = false := by
  have hfirst : OwnVm first id m := hown.congr hroot hcwd
  constructor
  · intro hretry
    rw [Bool.eq_false_iff]
    intro hbye
    have hgone := unregistered_of_byeHandled hfirst hbye hnamed
    generalize handleCommandStop first id m = r at hretry hdir hstill hgone
    cases hstate : stopState second id r.machine.host with
    | some st =>
      have hstill' := hstill (by rw [hstate]; rfl)
      cases (not_ok_of_unregistered hstill' hgone).symm.trans hretry.1
    | none =>
      -- the second `delete` does nothing
      have hsame := machine_of_stopState_none hstate
      have hmissing := hretry.2.1.1
      rw [hsame] at hmissing
      rw [hmissing] at hdir
      cases hdir
  · intro hbye
    rw [machine_of_not_byeHandled hfirst hbye]
    exact hdelete

end

/-! ## Samples -/

/-- The container `c1`. -/
def sampleMachine : Machine := ⟨containerFiles (some (.obj [])), sampleProxy⟩

/-- The sample has a VM of its own. -/
theorem ownVm_sample : OwnVm sampleStop "c1" sampleMachine := by
  have hpod : (stopState sampleStop "c1" sampleMachine.host).any (fun r => r.2.pod.isNone) =
      true := by
    decide +kernel
  obtain ⟨⟨c, st⟩, hstate, hpod⟩ := (Option.any_eq_true _ _).1 hpod
  obtain ⟨sc, hsc⟩ := Option.isSome_iff_exists.1 (stopConfig_sample c st hstate)
  obtain ⟨v, n, hsame⟩ := stopConfig_same hsc
  refine ⟨c, st, hstate, sc, hsc, ?_⟩
  rw [podIsVm, configUpdate, hsame, Option.isNone_iff_eq_none.1 hpod,
    (stateRead_of_stopState hstate).pod]
  rfl

/-- A bye that does not get to the proxy. -/
def unsentStop : StopEnv := { sampleStop with bye := .unsent }

/-- A `delete` whose request is not sent, and once more. -/
theorem delete_retry_unsent :
    (handleCommandStop unsentStop "c1" sampleMachine).ok = false ∧
      RemovesAll sampleStop "c1" [] (handleCommandStop unsentStop "c1" sampleMachine).machine := by
  have hroot : unsentStop.rootDir = sampleStop.rootDir := rfl
  have hcwd : unsentStop.host.cwd = sampleStop.host.cwd := rfl
  have hdelete : RemovesAll sampleStop "c1" [] sampleMachine := by decide +kernel
  have hbye : byeHandled unsentStop "c1" sampleMachine = false := by decide +kernel
  have hown : OwnVm unsentStop "c1" sampleMachine := OwnVm.congr hroot hcwd ownVm_sample
  have hnamed : ∀ v, sampleMachine.proxy.vms "c1" = some v →
      (sampleMachine.proxy.heap v).containerID = "c1" := fun _ _ => rfl
  have hsame := machine_of_not_byeHandled hown hbye
  refine ⟨by decide +kernel, (delete_retry_iff hroot hcwd hnamed ownVm_sample hdelete ?_ ?_).2 hbye⟩
  · decide +kernel
  · rw [hsame]
    exact fun _ => ownVm_sample

/-- The container with something mounted on a directory of the host. -/
def mountedMachine : Machine :=
  let host : Host := ((containerFiles (some (.obj []))).mkdirs [] (fun _ => true) "/data").1
  let host := (host.store [] "/run/c1/state.json" (stateFileCreate
    { sampleConfig with oci.mounts := [{ dest := .copy "/data" }] } (some "now") true)).getD .bare
  ⟨(mountOn {} host (bindMount "/data" "") "/data").1, sampleProxy⟩

/-- The results of two deletes, of which the first has the environment `first`, and whether the
container's directory and a mount are left. -/
def deleteTwice (first : StopEnv) : Bool × Bool × Bool × Bool :=
  let r := handleCommandStop first "c1" mountedMachine
  let r' := handleCommandStop sampleStop "c1" r.machine
  (r.ok, r'.ok, (r'.machine.host.lookup [] "/run/c1").isSome, !r'.machine.host.mounts.isEmpty)

/-- Whether the response to the bye, an unmount or the removal of the state file fails: the second
`delete` fails, too. If the removal of the directory fails, the second succeeds and leaves it. -/
theorem delete_retry_fails :
    deleteTwice sampleStop = (true, true, false, false) ∧
    deleteTwice { sampleStop with bye := .unanswered } = (false, false, true, true) ∧
    deleteTwice { sampleStop with host := { umountOk := fun _ _ => false } } =
      (false, false, true, true) ∧
    deleteTwice { sampleStop with host := { unlinkOk := fun _ _ => false } } =
      (false, false, true, false) ∧
    deleteTwice { sampleStop with host := { rmOk := fun _ _ => false } } =
      (false, true, true, false) := by
  decide +kernel

end Runtime

end CcOciRuntime
