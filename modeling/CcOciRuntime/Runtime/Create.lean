import CcOciRuntime.Runtime.Commands
import CcOciRuntime.Runtime.Launch

/-!
# The command `create`

`create` reads `config.json` into a fresh configuration, completes it, prepares the host and
launches the VM and the shim, or only the shim of a container in a pod. The launch writes the state
file from which the other commands work (`CcOciRuntime.Runtime.Commands`).

Reference: `cc_oci_create` (`src/oci.c:536`), `handle_command_setup` (`src/command.c:233`).
-/

namespace CcOciRuntime

namespace Runtime

/-- What the environment answers to the calls of `create`. The VM of the system's own file, the
comparison of the version and the result of the mounts are answers too. -/
structure CreateEnv where
  /-- the working directory is found, and the bundle's can be entered -/
  chdir : Bool
  spec : SpecEnv
  vmFile : Option CcOciVmCfg
  supported : String → Bool
  dirMade : Bool
  namespaces : Bool
  mounts : Config → Option (List CcOciMount)
  launch : LaunchEnv

/-- The VM of the system's configuration, when the container's has none. Reference:
`get_spec_vm_from_cfg_file` (`src/spec_handler.c:38`). -/
def specVmFromCfgFile (env : CreateEnv) (config : Config) : Option Config :=
  match config.vm with
  | some _ => some config
  | none => env.vmFile.map fun vm => { config with vm := some vm }

/-- Reading `config.json`, whose content is `file`. Reference: `cc_oci_config_file_parse`
(`src/oci.c:458`). -/
def configFileParse (env : CreateEnv) (file : Option Json) (config : Config) : Option Config :=
  match config.bundlePath.bind configFilePath, file with
  | some path, some doc =>
    if env.chdir then
      (processConfig env.spec (jsonParse path doc) config).bind (specVmFromCfgFile env)
    else none
  | _, _ => none

/-- Reference: `cc_oci_config_check` (`src/oci-config.c:64`). -/
def configCheck (env : CreateEnv) (config : Config) : Bool :=
  match config.oci.ociVersion with
  | some version => env.supported version
  | none => false

/-- The paths of the container's files. Reference: `cc_oci_runtime_dir_setup`
(`src/runtime.c:68`). -/
def runtimeDirSetup (env : CreateEnv) (config : Config) : Option Config :=
  let path :=
    if config.state.runtimePath.text = "" then
      config.optargContainerId.map (runtimePath config.rootDir)
    else some config.state.runtimePath
  match path with
  | none => none
  | some path =>
    if env.dirMade then
      some { config with
        state := { config.state with
          runtimePath := path
          commsPath := .copy (path.text ++ "/" ++ "hypervisor.sock")
          procsockPath := .copy (path.text ++ "/" ++ "process.sock") } }
    else none

/-- Reference: `cc_oci_handle_mounts` (`src/mount.c:216`). -/
def handleMounts (env : CreateEnv) (config : Config) : Option Config :=
  (env.mounts config).map fun mounts => { config with oci := { config.oci with mounts } }

/-- The configuration that is launched, when everything before the launch succeeds. Reference:
`src/oci.c:540-577`. -/
def prepare (env : CreateEnv) (file : Option Json) (config : Config) : Option Config :=
  (configFileParse env file config).bind fun config =>
    if configCheck env config then
      (runtimeDirSetup env config).bind fun config =>
        if env.namespaces then handleMounts env config else none
    else none

/-- A container that is a VM of its own: one without a pod, or the sandbox of a pod. Reference:
`cc_pod_is_vm` (`src/pod.c:434`). -/
def podIsVm (config : Config) : Bool :=
  match config.pod with
  | some pod => pod.sandbox
  | none => true

/-- Reference: `cc_oci_create` (`src/oci.c:536`). -/
def ociCreate (env : CreateEnv) (file : Option Json) (config : Config) : Launch :=
  match prepare env file config with
  | none => { ending := .returned false, regs := { config } }
  | some config =>
    if config.dryRunMode then { ending := .returned true, regs := { config } }
    else if podIsVm config then vmLaunch env.launch config
    else podContainerCreate env.launch config

/-- The arguments and options of the command, with the canonical form of the bundle's path. -/
structure CreateOptions where
  id : String
  bundle : Option String
  rootDir : Option String := none
  console : Option String := none
  pidFile : Option String := none
  dryRun : Bool := false
  detach : Bool := false

/-- Reference: `handle_command_setup` (`src/command.c:233`). -/
def commandSetup (opts : CreateOptions) : Config :=
  { configCreate with
    optargContainerId := some opts.id
    bundlePath := opts.bundle
    rootDir := opts.rootDir
    console := opts.console
    pidFile := opts.pidFile
    dryRunMode := opts.dryRun
    detachedMode := opts.detach }

/-- Reference: `handler_create` (`src/commands/create.c:62`). -/
def runCreate (opts : CreateOptions) (env : CreateEnv) (file : Option Json) : Launch :=
  ociCreate env file (commandSetup opts)

/-! ## What a launch keeps, and what it writes -/

/-- What a launch does to the registers `s`: it keeps the workload's user and root, and the
documents that it adds are made from a configuration. -/
structure Launching.Kept (s s' : Launching) : Prop where
  user : s'.config.oci.process.user = s.config.oci.process.user
  root : s'.config.oci.root = s.config.oci.root
  writes : ∀ doc ∈ s'.writes,
    doc ∈ s.writes ∨ ∃ c created saved, stateFileCreate c created saved = some doc

section
variable {env : LaunchEnv} {s s' t : Launching}

theorem Launching.Kept.refl (s : Launching) : s.Kept s :=
  ⟨rfl, rfl, fun _ h => .inl h⟩

theorem Launching.Kept.trans (h : s.Kept s') (h' : s'.Kept t) : s.Kept t := by
  refine ⟨h'.user.trans h.user, h'.root.trans h.root, fun doc hdoc => ?_⟩
  obtain hold | hnew := h'.writes doc hdoc
  · exact h.writes doc hold
  · exact .inr hnew

@[simp] theorem stateOf_check (s : Launching) (ok : Bool) (exit : LaunchExit) :
    stateOf (s.check ok exit) = s := by
  cases ok <;> rfl

@[simp] theorem stateOf_assign (s : Launching) (ok : Bool) :
    stateOf (s.assign ok) = { s with ret := ok } := by
  cases ok <;> rfl

/-- A call whose success changes the configuration. -/
theorem Launching.Kept.assign_map {f : Launching → Launching} (hf : ∀ s : Launching, s.Kept (f s))
    (s : Launching) (ok : Bool) : s.Kept (stateOf ((s.assign ok).map f)) := by
  cases ok with
  | false => exact ⟨rfl, rfl, fun _ h => .inl h⟩
  | true =>
    have hret : s.Kept { s with ret := true } := ⟨rfl, rfl, fun _ h => .inl h⟩
    exact hret.trans (hf _)

/-- A write of the state file keeps what is kept. -/
theorem Launching.Kept.writeState (s : Launching) (timestamp : Option String) (saved : Bool) :
    s.Kept (stateOf (s.writeState timestamp saved)) := by
  unfold Launching.writeState
  cases hdoc : stateFileCreate s.config timestamp saved with
  | none => exact ⟨rfl, rfl, fun _ h => .inl h⟩
  | some doc =>
    refine ⟨rfl, rfl, fun d hd => ?_⟩
    obtain hold | hnew := List.mem_append.1 hd
    · exact .inl hold
    · rw [List.mem_singleton.1 hnew]
      exact .inr ⟨_, _, _, hdoc⟩

/-- One step. -/
theorem runStep_kept (env : LaunchEnv) (s : Launching) (k : LaunchStep) :
    s.Kept (stateOf (runStep env s k)) := by
  cases k with
  | timestamp | attach | childErrPipe | hypervisorArgsPipe | netlinkInit | netcfgGet | networkCreate
  | joinArgs | writeArgsLen | writeArgs | hyperPodCreate | proxyFd | writeProxyFd | allocateIo
  | writeIoBase | socketConnection =>
    rw [runStep, stateOf_check]
    exact .refl s
  | connect | fork | shimLaunch =>
    rw [runStep, stateOf_check]
    exact ⟨rfl, rfl, fun _ h => .inl h⟩
  | prestartHooks => exact .refl s
  | disconnect => exact ⟨rfl, rfl, fun _ h => .inl h⟩
  | stateFile | recreateStateFile => exact .writeState s _ _
  | vmArgsGet | sendFd =>
    refine .assign_map ?_ s _
    intro s
    exact ⟨rfl, rfl, fun _ h => .inl h⟩
  | childSetup | shimSetup =>
    rw [runStep, Launching.checkChild]
    split_ifs
    · rw [stateOf_assign]
      exact ⟨rfl, rfl, fun _ h => .inl h⟩
    · exact .refl s
  | waitUntilReady =>
    rw [runStep]
    cases waitUntilReady env s.config with
    | none => exact .refl s
    | some ok =>
      dsimp only
      rw [stateOf_check]
      exact .refl s
  | pidFile =>
    rw [runStep]
    cases s.config.pidFile with
    | none => exact .refl s
    | some path =>
      dsimp only
      rw [stateOf_assign]
      exact ⟨rfl, rfl, fun _ h => .inl h⟩

/-- A sequence of steps. -/
theorem foldlM_runStep_kept (env : LaunchEnv) (ks : List LaunchStep) (s : Launching) :
    s.Kept (stateOf (ks.foldlM (runStep env) s)) :=
  foldlM_keeps (fun s' k h => h.trans (runStep_kept env s' k)) ks (.refl s)

/-- The launch of a VM ends in the state in which its steps do. -/
theorem vmLaunch_regs (env : LaunchEnv) (config : Config) :
    (vmLaunch env config).regs = stateOf (launchSteps.foldlM (runStep env) { config }) := by
  unfold vmLaunch
  rcases launchSteps.foldlM (runStep env) { config } with ⟨exit, s⟩ | s
  · cases exit <;> rfl
  · rfl

/-- The launch of a container in a pod does so too, or it does nothing. -/
theorem podContainerCreate_regs (env : LaunchEnv) (config : Config) :
    (podContainerCreate env config).regs = { config } ∨ (podContainerCreate env config).regs =
      stateOf (podContainerSteps.foldlM (runStep env) { config }) := by
  unfold podContainerCreate
  split_ifs
  · exact .inl rfl
  · refine .inr ?_
    rcases podContainerSteps.foldlM (runStep env) { config } with ⟨exit, s⟩ | s
    · cases exit <;> rfl
    · rfl

theorem vmLaunch_kept (env : LaunchEnv) (config : Config) :
    Launching.Kept { config } (vmLaunch env config).regs := by
  rw [vmLaunch_regs]
  exact foldlM_runStep_kept env launchSteps { config }

/-- A container of a pod keeps it. -/
theorem podContainerCreate_kept (env : LaunchEnv) (config : Config) :
    Launching.Kept { config } (podContainerCreate env config).regs := by
  obtain h | h := podContainerCreate_regs env config
  · rw [h]
    exact .refl _
  · rw [h]
    exact foldlM_runStep_kept env podContainerSteps { config }

end

/-- What `create` does to the configuration that it has prepared. -/
theorem ociCreate_kept {env : CreateEnv} {file : Option Json} {config config' : Config}
    (h : prepare env file config = some config') :
    Launching.Kept { config := config' } (ociCreate env file config).regs := by
  rw [ociCreate, h]
  dsimp only
  split_ifs
  · exact .refl _
  · exact vmLaunch_kept _ _
  · exact podContainerCreate_kept _ _

end Runtime

end CcOciRuntime
