import CcOciRuntime.Proxy.Handlers
import CcOciRuntime.Runtime.Hooks
import CcOciRuntime.Runtime.Unmounts

/-!
# The command `delete`

`delete` finds the container by its state file, reads the hooks of the bundle's `config.json` once
more, stops the VM, takes leave of the proxy, runs the poststop hooks and cleans up: it unmounts,
removes the state file and then the container's directory. It works on the host's files and on the
registry of the proxy (`Machine`). One variable holds its result, and it is true from the moment the
state file has been read, so that a `config.json` which cannot be read makes `delete` report a
success with nothing done: `delete_removes_iff`.

Reference: `handle_command_stop` (`src/command.c:148`), `cc_oci_stop` (`src/oci.c:894`),
`cc_oci_cleanup` (`src/oci.c:430`).
-/

namespace CcOciRuntime

namespace Runtime

/-- What `delete` works on. -/
structure Machine where
  host : Host
  proxy : Proxy.ProxyState

/-- What becomes of the request that takes leave of the proxy. -/
inductive ByeFate
  /-- the proxy is not reached -/
  | unsent
  /-- the proxy handles the request, and its response is lost -/
  | unanswered
  | answered
  deriving DecidableEq

/-- What the environment answers to a `delete`. -/
structure StopEnv where
  host : HostEnv := {}
  rootDir : Option String := none
  /-- the processes that can be sent a signal -/
  alive : Int32 → Bool := fun _ => false
  /-- the command `destroypod`, with its connection and its attach -/
  destroyed : Bool := true
  /-- the connection of the bye -/
  client : Proxy.ClientRef := 0
  proxy : Proxy.Env := Proxy.willingEnv
  bye : ByeFate := .answered
  hooks : HooksEnv

/-- What a `delete` leaves: the machine, its result, and the poststop hooks that it has started. -/
structure StopResult where
  machine : Machine
  ok : Bool
  started : List OciCfgHook := []

/-! ## Reading -/

/-- The document of a file, if the file is there and can be parsed. -/
def readFile (env : HostEnv) (host : Host) (path : String) : Option Json :=
  match host.stat env.cwd path with
  | some (.file doc) => doc
  | _ => none

/-- The configuration of a command that only knows the container's ID. -/
def idConfig (rootDir : Option String) (id : String) : Config :=
  { configCreate with rootDir, optargContainerId := some id }

/-- The path of the container's state file. -/
def stateFilePath (rootDir : Option String) (id : String) : String :=
  (stateFileGet (runtimePath rootDir id)).text

/-- Reference: `src/command.c:178`, with `cc_oci_state_file_get` and `cc_oci_state_file_read`. -/
def stopState (env : StopEnv) (id : String) (host : Host) : Option (Config × OciState) :=
  getConfigAndState (idConfig env.rootDir id)
    (readFile env.host host (stateFilePath env.rootDir id))

/-- The configuration once the state file has been read. -/
structure StateRead (env : StopEnv) (id : String) (c : Config) (st : OciState) : Prop where
  oci : c.oci = {}
  pod : c.pod = none
  bundlePath : c.bundlePath = st.bundlePath
  runtimePath : c.state.runtimePath = Runtime.runtimePath env.rootDir id

/-- The state that `delete` works on was read from the file. -/
theorem stateRead_of_stopState {env : StopEnv} {id : String} {host : Host} {c : Config}
    {st : OciState} (h : stopState env id host = some (c, st)) : StateRead env id c st := by
  unfold stopState getConfigAndState at h
  split at h
  · next id' st' hid hread =>
    split at h
    · cases h
      cases hid
      exact ⟨rfl, rfl, rfl, rfl⟩
    · cases h
  · cases h

theorem mounts_of_stopState {env : StopEnv} {id : String} {host : Host} {c : Config} {st : OciState}
    (h : stopState env id host = some (c, st)) : c.oci.mounts = [] := by
  rw [(stateRead_of_stopState h).oci]

/-- Reading `config.json` with the handler of the hooks. Reference: `src/command.c:183-196`. -/
def stopConfig (env : HostEnv) (host : Host) (config : Config) (hfresh : config.oci.mounts = []) :
    Option SpecConfig :=
  match config.bundlePath.bind configFilePath with
  | none => none
  | some path =>
    match readFile env host path with
    | none => none
    | some doc =>
      (specProcessConfig stopSpecHandlers (jsonParse path doc) (.ofConfig config hfresh)).toOption

/-! ## Stopping -/

/-- Reference: `cc_oci_vm_running` (`src/oci.c:321`). -/
def vmRunning (env : StopEnv) (st : OciState) : Bool :=
  match st.vm with
  | some vm => vm.pid ≠ 0 && env.alive vm.pid
  | none => false

/-- The request that takes leave. Reference: `src/proxy.c:802-813`. -/
def byeRequest (id : String) : Proxy.Request :=
  { id := "bye", data := some (.obj [("containerId", .str id)]) }

/-- Reference: `cc_proxy_cmd_bye` (`src/proxy.c:778`). -/
def proxyCmdBye (env : StopEnv) (s : Proxy.ProxyState) (id : String) : Proxy.ProxyState × Bool :=
  match env.bye, Proxy.handleRequest s env.client env.proxy (byeRequest id) with
  | .unsent, _ => (s, false)
  | .unanswered, .ok (s, _) => (s, false)
  | .answered, .ok (s, response, _) => (s, response.success)
  | _, .error _ => (s, false)

/-- Reference: `cc_oci_state_file_delete` (`src/state.c:952`). -/
def stateFileDelete (env : HostEnv) (host : Host) (config : Config) : Option Host :=
  let path := (stateFileGet config.state.runtimePath).text
  if env.unlinkOk host path then host.unlink env.cwd path else none

/-- Reference: `cc_oci_cleanup` (`src/oci.c:430`). -/
def ociCleanup (env : HostEnv) (host : Host) (config : Config) : Host × Bool :=
  match handleUnmounts env host config.oci.mounts with
  | (host, false) => (host, false)
  | (host, true) =>
    match stateFileDelete env host config with
    | none => (host, false)
    | some host => runtimeDirDelete env host config

/-- Reference: `cc_oci_stop` (`src/oci.c:894`). -/
def ociStop (env : StopEnv) (id : String) (sc : SpecConfig) (st : OciState) (m : Machine) :
    StopResult :=
  if vmRunning env st && !env.destroyed then { machine := m, ok := false }
  else
    let config := configUpdate sc.config st
    let (proxy, bye) := if podIsVm config then proxyCmdBye env m.proxy id else (m.proxy, true)
    if !bye then { machine := { m with proxy }, ok := false }
    else
      -- the result of the hooks is not looked at
      let started := (runHooks sc.hooks.poststop env.hooks false).started
      let (host, ok) := ociCleanup env.host m.host config
      { machine := { host, proxy }, ok, started }

/-- A container without a state file counts as deleted, and one whose `config.json` cannot be read
or is rejected leaves the result as the state file has left it. Reference: `handle_command_stop`
(`src/command.c:148`). -/
def handleCommandStop (env : StopEnv) (id : String) (m : Machine) : StopResult :=
  if (m.host.stat env.host.cwd (stateFilePath env.rootDir id)).isNone then
    { machine := m, ok := true }
  else
    match h : stopState env id m.host with
    | none => { machine := m, ok := false }
    | some (config, st) =>
      match stopConfig env.host m.host config (mounts_of_stopState h) with
      | none => { machine := m, ok := true }
      | some sc => ociStop env id sc st m

/-- A container that is a VM of its own, whose state file and `config.json` can be read. -/
def OwnVm (env : StopEnv) (id : String) (m : Machine) : Prop :=
  ∃ c st, ∃ h : stopState env id m.host = some (c, st), ∃ sc,
    stopConfig env.host m.host c (mounts_of_stopState h) = some sc ∧
      podIsVm (configUpdate sc.config st) = true

/-! ## What a successful delete has done -/

section
variable {env : StopEnv} {id : String} {m : Machine}

/-- The configuration is the same, but for the version and the host name. -/
def Config.SameButTexts (c c' : Config) : Prop :=
  ∃ ociVersion hostname, c' = { c with oci := { c.oci with ociVersion, hostname } }

/-- The handler of the hooks leaves the rest of the configuration alone. -/
theorem specSection_stop_config {sc sc' : SpecConfig} {node : GNode}
    (h : specSection stopSpecHandlers sc node = .ok sc') : sc.config.SameButTexts sc'.config := by
  unfold specSection at h
  split at h
  · cases h
    exact ⟨_, _, rfl⟩
  · next name hname =>
    have hscalars : sc.config.SameButTexts (sc.scalars name node).config := by
      unfold SpecConfig.scalars
      split_ifs <;> exact ⟨_, _, rfl⟩
    have hhooks : sc'.config = (sc.scalars name node).config := by
      rw [runSpecHandler, stopSpecHandlers, lookup_cons_eq_ite] at h
      split_ifs at h
      · obtain ⟨hooks, -, rfl⟩ := Option.map_eq_some_iff.1 (orRejected_eq_ok h)
        rfl
      · cases h
        rfl
    rwa [hhooks]

/-- So does the whole specification. -/
theorem specProcessConfig_stop_config {sc sc' : SpecConfig} {root : GNode}
    (h : specProcessConfig stopSpecHandlers root sc = .ok sc') :
    sc.config.SameButTexts sc'.config := by
  refine foldlM_invariant (P := fun t : SpecConfig => sc.config.SameButTexts t.config) ?_
    ⟨_, _, rfl⟩ h
  intro sc₁ sc₂ node hsame hnode
  obtain ⟨v, n, hsc₁⟩ := hsame
  obtain ⟨v', n', hsc₂⟩ := specSection_stop_config hnode
  exact ⟨v', n', by rw [hsc₂, hsc₁]⟩

/-- `delete` changes two texts at most. -/
theorem stopConfig_same {env : HostEnv} {host : Host} {c : Config} {hfresh : c.oci.mounts = []}
    {sc : SpecConfig} (h : stopConfig env host c hfresh = some sc) : c.SameButTexts sc.config := by
  unfold stopConfig at h
  split at h
  · cases h
  · split at h
    · cases h
    · exact specProcessConfig_stop_config (eq_ok_of_toOption h)

/-- What a cleanup that succeeds has done. -/
theorem ociCleanup_eq_true {env : HostEnv} {host host' : Host} {config : Config}
    (h : ociCleanup env host config = (host', true)) :
    ∃ host₁ host₂, handleUnmounts env host config.oci.mounts = (host₁, true) ∧
      stateFileDelete env host₁ config = some host₂ ∧
      runtimeDirDelete env host₂ config = (host', true) := by
  unfold ociCleanup at h
  split at h
  · cases h
  · next host₁ hunmount =>
    split at h
    · cases h
    · next host₂ hdelete => exact ⟨host₁, host₂, hunmount, hdelete, h⟩

/-- There is nothing left under a container's path whose removal succeeds. -/
theorem runtimeDirDelete_eq_true {env : HostEnv} {host host' : Host} {config : Config}
    (h : runtimeDirDelete env host config = (host', true)) :
    Absolute config.state.runtimePath.text ∧
      (ShellPlain config.state.runtimePath.text →
        host'.lookup env.cwd config.state.runtimePath.text = none) := by
  unfold runtimeDirDelete at h
  split_ifs at h with habs
  · cases h
  · refine ⟨not_not.1 habs, fun hplain => ?_⟩
    have hok : (ociRmRf env host config.state.runtimePath.text).2 = true := by rw [h]
    have hgone := lookup_of_ociRmRf hplain hok
    rwa [h] at hgone

/-- There is no state file in a directory that is not there. -/
theorem lookup_stateFileGet {host : Host} {cwd : Path} {path : PathBuf} (habs : Absolute path.text)
    (h : host.lookup cwd path.text = none) : host.lookup cwd (stateFileGet path).text = none := by
  obtain ⟨us, hus, htext⟩ := path.copy_append ("/" ++ "state.json")
  rw [stateFileGet, String.append_assoc, htext]
  cases us with
  | nil => rwa [String.ofList_nil, String.append_empty]
  | cons u us =>
    have hlist : ("/" ++ "state.json").toList = '/' :: "state.json".toList := by decide
    rw [hlist] at hus
    obtain ⟨rfl, -⟩ := List.cons_prefix_cons.1 hus
    have hslash : path.text ++ String.ofList ('/' :: us) =
        path.text ++ "/" ++ String.ofList us := by
      rw [← String.toList_inj]
      simp
    rw [hslash, String.append_assoc, lookup_absolute habs.append, ← String.append_assoc,
      components_append_slash, FileTree.walk_append, ← lookup_absolute habs, h]
    rfl

/-- Without a state nothing is done. -/
theorem handleCommandStop_of_none
    (hexists : (m.host.stat env.host.cwd (stateFilePath env.rootDir id)).isSome)
    (hstate : stopState env id m.host = none) :
    handleCommandStop env id m = { machine := m, ok := false } := by
  have hsome := Option.isSome_iff_ne_none.1 hexists
  rw [handleCommandStop, if_neg (mt Option.isNone_iff_eq_none.1 hsome)]
  split
  · rfl
  · next h =>
    rw [hstate] at h
    cases h

/-- What `delete` does once the state file has been read. -/
theorem handleCommandStop_eq
    (hexists : (m.host.stat env.host.cwd (stateFilePath env.rootDir id)).isSome)
    {c : Config} {st : OciState} (hstate : stopState env id m.host = some (c, st)) :
    handleCommandStop env id m =
      match stopConfig env.host m.host c (mounts_of_stopState hstate) with
      | none => { machine := m, ok := true }
      | some sc => ociStop env id sc st m := by
  have hsome := Option.isSome_iff_ne_none.1 hexists
  rw [handleCommandStop, if_neg (mt Option.isNone_iff_eq_none.1 hsome)]
  split
  · next h =>
    rw [hstate] at h
    cases h
  · next c' st' h =>
    rw [hstate] at h
    cases h
    rfl

/-- What a stop does: nothing when the VM runs and cannot be stopped; otherwise a container that is
a VM takes leave of the proxy, and only when that succeeds are the hooks run and the files
removed. -/
theorem ociStop_cases (env : StopEnv) (id : String) (sc : SpecConfig) (st : OciState)
    (m : Machine) :
    ((vmRunning env st && !env.destroyed) = true ∧
      ociStop env id sc st m = { machine := m, ok := false }) ∨
    (vmRunning env st && !env.destroyed) = false ∧ ∃ proxy bye,
      (if podIsVm (configUpdate sc.config st) then proxyCmdBye env m.proxy id
        else (m.proxy, true)) = (proxy, bye) ∧
      ociStop env id sc st m =
        if bye then
          { machine := { host := (ociCleanup env.host m.host (configUpdate sc.config st)).1, proxy }
            ok := (ociCleanup env.host m.host (configUpdate sc.config st)).2
            started := (runHooks sc.hooks.poststop env.hooks false).started }
        else { machine := { m with proxy }, ok := false } := by
  unfold ociStop
  cases vmRunning env st && !env.destroyed with
  | true => exact .inl ⟨rfl, rfl⟩
  | false =>
    dsimp only
    generalize (if podIsVm (configUpdate sc.config st) then proxyCmdBye env m.proxy id
      else (m.proxy, true)) = r
    obtain ⟨proxy, bye⟩ := r
    refine .inr ⟨rfl, proxy, bye, rfl, ?_⟩
    cases bye <;> rfl

/-- A stop that succeeds has run the poststop hooks and removed the files. -/
theorem ociStop_ok {sc : SpecConfig} {st : OciState} (h : (ociStop env id sc st m).ok = true) :
    ociCleanup env.host m.host (configUpdate sc.config st) =
        ((ociStop env id sc st m).machine.host, true) ∧
      (ociStop env id sc st m).started = (runHooks sc.hooks.poststop env.hooks false).started := by
  obtain ⟨-, heq⟩ | ⟨-, proxy, bye, -, heq⟩ := ociStop_cases env id sc st m
  · rw [heq] at h
    cases h
  · cases bye with
    | false =>
      rw [heq] at h
      cases h
    | true =>
      rw [heq] at h ⊢
      exact ⟨Prod.ext rfl h, rfl⟩

/-- Neither the state file nor the directory of the container is there. -/
def Gone (env : StopEnv) (id : String) (host : Host) : Prop :=
  host.lookup env.host.cwd (runtimePath env.rootDir id).text = none ∧
    host.lookup env.host.cwd (stateFilePath env.rootDir id) = none

instance (env : StopEnv) (id : String) (host : Host) : Decidable (Gone env id host) :=
  inferInstanceAs (Decidable (_ ∧ _))

/-- **When a successful `delete` removes the container**, whose state file is there and whose path
the shell takes as it stands: exactly when the bundle's `config.json` can be read, provided that the
state file can. -/
theorem delete_removes_iff
    (hexists : (m.host.stat env.host.cwd (stateFilePath env.rootDir id)).isSome)
    (hplain : ShellPlain (runtimePath env.rootDir id).text) :
    ((handleCommandStop env id m).ok = true →
        Gone env id (handleCommandStop env id m).machine.host) ↔
      ∀ c st (h : stopState env id m.host = some (c, st)),
        (stopConfig env.host m.host c (mounts_of_stopState h)).isSome := by
  constructor
  · intro hgone c st hstate
    rw [handleCommandStop_eq hexists hstate] at hgone
    cases hread : stopConfig env.host m.host c (mounts_of_stopState hstate) with
    | some sc => rfl
    | none =>
      -- nothing has been done, and the state file is still there
      rw [hread] at hgone
      rw [FileSystem.stat, (hgone rfl).2] at hexists
      cases hexists
  · intro hread hok
    cases hstate : stopState env id m.host with
    | none =>
      rw [handleCommandStop_of_none hexists hstate] at hok
      cases hok
    | some r =>
      obtain ⟨c, st⟩ := r
      obtain ⟨sc, hsc⟩ := Option.isSome_iff_exists.1 (hread c st hstate)
      rw [handleCommandStop_eq hexists hstate, hsc] at hok ⊢
      have hpath : (configUpdate sc.config st).state.runtimePath = runtimePath env.rootDir id := by
        obtain ⟨v, n, hsame⟩ := stopConfig_same hsc
        rw [configUpdate, hsame]
        exact (stateRead_of_stopState hstate).runtimePath
      obtain ⟨host₁, host₂, -, -, hdelete⟩ := ociCleanup_eq_true (ociStop_ok hok).1
      obtain ⟨habs, hlookup⟩ := runtimeDirDelete_eq_true hdelete
      rw [hpath] at habs hlookup
      exact ⟨hlookup hplain, lookup_stateFileGet habs (hlookup hplain)⟩

end

/-! ## Samples -/

/-- The files of the container `c1`, with `config.json` in its bundle if it is given. -/
def containerFiles (spec : Option Json) : Host :=
  let host : Host := (FileSystem.bare.mkdirs [] (fun _ => true) "/run/c1").1
  let host := (host.mkdirs [] (fun _ => true) "/bundle").1
  let host := (host.store [] "/run/c1/state.json"
    (stateFileCreate { sampleConfig with oci.mounts := [] } (some "now") true)).getD .bare
  match spec with
  | none => host
  | some doc => (host.store [] "/bundle/config.json" (some doc)).getD .bare

/-- A proxy that knows the container `c1`. -/
def sampleProxy : Proxy.ProxyState :=
  { Proxy.newProxy false (fun _ => 0) with
    vms := fun id => if id = "c1" then some 0 else none
    heap := fun _ => Proxy.newVM "c1" "" ""
    nextVm := 1 }

def sampleStop : StopEnv where
  rootDir := some "/run"
  hooks := { stateLength := some 100, process := fun _ => {} }

/-- The configuration of the sample is read. -/
theorem stopConfig_sample (c : Config) (st : OciState)
    (h : stopState sampleStop "c1" (containerFiles (some (.obj []))) = some (c, st)) :
    (stopConfig sampleStop.host (containerFiles (some (.obj []))) c
      (mounts_of_stopState h)).isSome := by
  have hfile : readFile sampleStop.host (containerFiles (some (.obj []))) "/bundle/config.json" =
      some (.obj []) := rfl
  have hbundle : (stopState sampleStop "c1" (containerFiles (some (.obj [])))).map
      (fun r => r.1.bundlePath.bind configFilePath) = some (some "/bundle/config.json") := by
    decide +kernel
  rw [h, Option.map_some, Option.some_inj] at hbundle
  rw [stopConfig, show c.bundlePath.bind configFilePath = _ from hbundle]
  dsimp only
  rw [hfile]
  rfl

/-- A container that is removed. -/
theorem delete_removes_sample :
    let m : Machine := ⟨containerFiles (some (.obj [])), sampleProxy⟩
    (handleCommandStop sampleStop "c1" m).ok = true ∧
      Gone sampleStop "c1" (handleCommandStop sampleStop "c1" m).machine.host := by
  have hok : (handleCommandStop sampleStop "c1" ⟨containerFiles (some (.obj [])), sampleProxy⟩).ok =
      true := by
    decide +kernel
  exact ⟨hok, (delete_removes_iff (by decide +kernel) (by decide +kernel)).2 stopConfig_sample hok⟩

/-- The bundle has no `config.json` any more. The command reports a success, and the state file is
still there. -/
theorem delete_without_config_keeps_container :
    let m : Machine := ⟨containerFiles none, sampleProxy⟩
    (m.host.stat [] (stateFilePath (some "/run") "c1")).isSome = true ∧
      (handleCommandStop sampleStop "c1" m).ok = true ∧
      ((handleCommandStop sampleStop "c1" m).machine.host.stat []
        (stateFilePath (some "/run") "c1")).isSome = true ∧
      (handleCommandStop sampleStop "c1" m).machine.host.lookup [] "/run/c1" =
        some (place "/run/c1") := by
  decide +kernel

end Runtime

end CcOciRuntime
