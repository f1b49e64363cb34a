import CcOciRuntime.Runtime.Delete
import CcOciRuntime.Runtime.EarlyFailure
import CcOciRuntime.Runtime.SectionParts

/-!
# Creating a container that exists

`create` on the host's files: the directory of the container is made, the mounts are made and the
launch writes the state file. `CcOciRuntime.Runtime.Create` takes the results of these as given;
`hostCreate_refines` says that it is this model with the results that the files lead to.

`create` means to refuse a container that exists by the failure of making its directory. Making a
directory that is there succeeds. So nothing tells an existing container from a new one
(`hostCreate_existing`), and `create` is refused only when one of its calls fails before anything is
mounted and before the state file is written (`recreate_refused_iff`).

Reference: `cc_oci_create` (`src/oci.c:536`), `cc_oci_runtime_dir_setup` (`src/runtime.c:68`).
-/

namespace CcOciRuntime

namespace Runtime

/-- What the environment answers to `create`, apart from what the files say. -/
structure HostCreateEnv where
  create : CreateEnv
  spec : SpecHost
  host : HostEnv := {}

/-- `get_spec_vm_from_cfg_file` (`src/spec_handler.c:38`), for the whole configuration. -/
def SpecConfig.vmFromCfgFile (env : CreateEnv) (sc : SpecConfig) : Option SpecConfig :=
  match sc.config.vm with
  | some _ => some sc
  | none => env.vmFile.map fun vm =>
    { sc with config := { sc.config with vm := some vm }, fresh := sc.fresh }

/-- Reference: `cc_oci_config_file_parse` (`src/oci.c:458`). -/
def specFileParse (env : HostCreateEnv) (file : Option Json) (config : Config)
    (hfresh : config.oci.mounts = []) : Option SpecConfig :=
  match config.bundlePath.bind configFilePath, file with
  | some path, some doc =>
    if env.create.chdir then
      (specProcessConfig (startSpecHandlers env.spec) (jsonParse path doc)
        (.ofConfig config hfresh)).toOption.bind (SpecConfig.vmFromCfgFile env.create)
    else none
  | _, _ => none

/-- The path of the container's directory. Reference: `src/runtime.c:81-85`. -/
def runtimeDirPath (config : Config) : Option PathBuf :=
  if config.state.runtimePath.text = "" then
    config.optargContainerId.map (runtimePath config.rootDir)
  else some config.state.runtimePath

/-- The directory above is made first, and a failure of that is only reported. Reference:
`src/runtime.c:99-110`. -/
def makeRuntimeDir (env : HostEnv) (host : Host) (path : String) : Host × Bool :=
  mkdirWithParents env (mkdirWithParents env host (pathGetDirname path)).1 path

/-- Reference: `cc_oci_runtime_dir_setup` (`src/runtime.c:68`). -/
def hostRuntimeDirSetup (env : HostCreateEnv) (host : Host) (config : Config) :
    Host × Option Config :=
  match runtimeDirPath config with
  | none => (host, none)
  | some path =>
    let (host, dirMade) := makeRuntimeDir env.host host path.text
    (host, runtimeDirSetup { env.create with dirMade } config)

/-- A document that is written to the state file. -/
def storeState (env : HostEnv) (path : PathBuf) (host : Host) (doc : Json) : Host :=
  (host.store env.cwd (stateFileGet path).text (some doc)).getD host

/-- The mounts and the launch, for a configuration whose directory is there. Without a result of the
launch, the mounts have failed. Reference: `src/oci.c:573-598`. -/
def mountAndLaunch (env : HostCreateEnv) (config : Config) (specs : List MountSpec) (host : Host) :
    Host × Option Launch :=
  match hostHandleMounts env.host host config specs with
  | (host, _, false) => (host, none)
  | (host, mounts, true) =>
    let launch := createLaunch env.create.launch { config with oci.mounts := mounts }
    (launch.regs.writes.foldl (storeState env.host config.state.runtimePath) host, some launch)

/-- Reference: `cc_oci_create` (`src/oci.c:536`). -/
def hostCreate (env : HostCreateEnv) (file : Option Json) (config : Config)
    (hfresh : config.oci.mounts = []) (host : Host) : Host × Launch :=
  let failed : Launch := { ending := .returned false, regs := { config } }
  match specFileParse env file config hfresh with
  | none => (host, failed)
  | some sc =>
    if !configCheck env.create sc.config then (host, failed)
    else
      match hostRuntimeDirSetup env host sc.config with
      | (host, none) => (host, failed)
      | (host, some config) =>
        if !env.create.namespaces then (host, failed)
        else
          let (host, launch) := mountAndLaunch env config sc.mountSpecs host
          (host, launch.getD failed)

/-! ## The results that the files lead to -/

section
variable {env : HostCreateEnv} {file : Option Json} {config : Config}
  {hfresh : config.oci.mounts = []} {host : Host}

/-- The mounts that the configuration is given if they all go well. -/
def mountAnswer (env : HostEnv) (host : Host) (specs : List MountSpec) (config : Config) :
    Option (List CcOciMount) :=
  let r := hostHandleMounts env host config specs
  if r.2.2 then some r.2.1 else none

/-- What the model without files is told: whether the directory is made, and what becomes of the
mounts. -/
def HostCreateEnv.answers (env : HostCreateEnv) (file : Option Json) (config : Config)
    (hfresh : config.oci.mounts = []) (host : Host) : CreateEnv :=
  let sc := specFileParse env file config hfresh
  let dir := sc.bind fun sc => (runtimeDirPath sc.config).map fun path =>
    makeRuntimeDir env.host host path.text
  { env.create with
    spec := env.spec.toSpecEnv
    dirMade := (dir.map Prod.snd).getD false
    mounts := mountAnswer env.host ((dir.map Prod.fst).getD host)
      ((sc.map SpecConfig.mountSpecs).getD []) }

theorem map_vmFromCfgFile (env : CreateEnv) (sc : SpecConfig) :
    (sc.vmFromCfgFile env).map SpecConfig.config = specVmFromCfgFile env sc.config := by
  unfold SpecConfig.vmFromCfgFile specVmFromCfgFile
  cases sc.config.vm with
  | some vm => rfl
  | none =>
    cases env.vmFile <;> rfl

/-- Reading the file, without the parts that the other model leaves out. -/
theorem map_specFileParse {doc : Json} (env : HostCreateEnv)
    (hnames : ((jsonParseAux false doc).filterMap GNode.data).Nodup) (config : Config)
    (hfresh : config.oci.mounts = []) :
    (specFileParse env (some doc) config hfresh).map SpecConfig.config =
      configFileParse { env.create with spec := env.spec.toSpecEnv } (some doc) config := by
  unfold specFileParse configFileParse
  cases config.bundlePath.bind configFilePath with
  | none => rfl
  | some path =>
    dsimp only
    split_ifs
    · have hrefines : processConfig env.spec.toSpecEnv (jsonParse path doc) config =
          (specProcessConfig (startSpecHandlers env.spec) (jsonParse path doc)
            (.ofConfig config hfresh)).toOption.map SpecConfig.config :=
        foldlM_processSection_refines env.spec (.ofConfig config hfresh) hnames (fun _ => rfl)
          (fun _ => rfl) fun _ => rfl
      rw [hrefines, Option.map_bind, Option.bind_map]
      exact congrArg _ (funext fun sc => map_vmFromCfgFile _ sc)
    · rfl

/-- The answers, once the file has been read and the path of the directory is known. -/
theorem answers_eq {sc : SpecConfig} {path : PathBuf}
    (hsc : specFileParse env file config hfresh = some sc)
    (hpath : runtimeDirPath sc.config = some path) :
    env.answers file config hfresh host =
      { env.create with
        spec := env.spec.toSpecEnv
        dirMade := (makeRuntimeDir env.host host path.text).2
        mounts := mountAnswer env.host (makeRuntimeDir env.host host path.text).1
          sc.mountSpecs } := by
  simp [HostCreateEnv.answers, hsc, hpath]

theorem runtimeDirSetup_of_none {env : CreateEnv} (h : runtimeDirPath config = none) :
    runtimeDirSetup env config = none := by
  unfold runtimeDirPath at h
  rw [runtimeDirSetup, h]

/-- **The model of `create` without files** is this one with the results that the files lead to. -/
theorem hostCreate_refines {doc : Json} (env : HostCreateEnv)
    (hnames : ((jsonParseAux false doc).filterMap GNode.data).Nodup) (config : Config)
    (hfresh : config.oci.mounts = []) (host : Host) :
    (hostCreate env (some doc) config hfresh host).2 =
      ociCreate (env.answers (some doc) config hfresh host) (some doc) config := by
  have hparse : configFileParse (env.answers (some doc) config hfresh host) (some doc) config =
      (specFileParse env (some doc) config hfresh).map SpecConfig.config :=
    (map_specFileParse env hnames config hfresh).symm
  unfold hostCreate ociCreate prepare
  rw [hparse]
  cases hsc : specFileParse env (some doc) config hfresh with
  | none => rfl
  | some sc =>
    have hcheck : configCheck (env.answers (some doc) config hfresh host) sc.config =
        configCheck env.create sc.config := rfl
    have hns : (env.answers (some doc) config hfresh host).namespaces = env.create.namespaces := rfl
    have hlaunch : (env.answers (some doc) config hfresh host).launch = env.create.launch := rfl
    rw [Option.map_some, Option.bind_some, hcheck]
    dsimp only
    rw [hns, hlaunch]
    cases configCheck env.create sc.config with
    | false => rfl
    | true =>
      cases hpath : runtimeDirPath sc.config with
      | none =>
        rw [hostRuntimeDirSetup, hpath, runtimeDirSetup_of_none hpath]
        rfl
      | some path =>
        rw [hostRuntimeDirSetup, hpath, answers_eq hsc hpath]
        dsimp only
        generalize makeRuntimeDir env.host host path.text = r
        obtain ⟨host₁, dirMade⟩ := r
        dsimp only
        have hsetup : runtimeDirSetup { env.create with
              spec := env.spec.toSpecEnv, dirMade
              mounts := mountAnswer env.host host₁ sc.mountSpecs } sc.config =
            runtimeDirSetup { env.create with dirMade } sc.config := rfl
        rw [hsetup]
        cases runtimeDirSetup { env.create with dirMade } sc.config with
        | none => rfl
        | some config' =>
          cases env.create.namespaces with
          | false => rfl
          | true =>
            simp only [mountAndLaunch, handleMounts, mountAnswer, Option.bind_some, if_true,
              Bool.not_true, Bool.false_eq_true, if_false]
            generalize hostHandleMounts env.host host₁ config' sc.mountSpecs = r
            obtain ⟨host₂, mounts, _ | _⟩ := r
            · rfl
            · rfl

end

/-! ## What the command line has set -/

/-- The paths of the container, its name and the root directory are the same. -/
structure Config.SameCommand (c c' : Config) : Prop where
  state : c'.state = c.state
  id : c'.optargContainerId = c.optargContainerId
  rootDir : c'.rootDir = c.rootDir

theorem Config.SameCommand.trans {c c' c'' : Config} (h : c.SameCommand c')
    (h' : c'.SameCommand c'') : c.SameCommand c'' :=
  ⟨h'.state.trans h.state, h'.id.trans h.id, h'.rootDir.trans h.rootDir⟩

section
variable {host : SpecHost} {sc sc' : SpecConfig}

theorem Slot.set_sameCommand (s : Slot) (sc : SpecConfig) (v : s.Val) :
    sc.config.SameCommand (s.set sc v).config := by
  cases s <;> exact ⟨rfl, rfl, rfl⟩

/-- No section is about what the command line sets. -/
theorem specSection_sameCommand {node : GNode}
    (h : specSection (startSpecHandlers host) sc node = .ok sc') :
    sc.config.SameCommand sc'.config := by
  cases hname : node.data with
  | none =>
    rw [specSection, hname] at h
    cases h
    exact ⟨rfl, rfl, rfl⟩
  | some name =>
    cases hs : sectionSlot name node with
    | none =>
      rw [specSection_of_sectionSlot_none hname hs] at h
      cases h
      exact ⟨rfl, rfl, rfl⟩
    | some s =>
      have hset := (specSection_confined host hname hs).writes sc sc' h
      rw [hset]
      exact s.set_sameCommand sc _

/-- The specification leaves the command alone. -/
theorem specProcessConfig_sameCommand {root : GNode}
    (h : specProcessConfig (startSpecHandlers host) root sc = .ok sc') :
    sc.config.SameCommand sc'.config := by
  refine foldlM_invariant (P := fun t : SpecConfig => sc.config.SameCommand t.config) ?_
    ⟨rfl, rfl, rfl⟩ h
  intro sc₁ sc₂ node hsame hnode
  exact hsame.trans (specSection_sameCommand hnode)

theorem vmFromCfgFile_sameCommand {env : CreateEnv} (h : sc.vmFromCfgFile env = some sc') :
    sc.config.SameCommand sc'.config := by
  unfold SpecConfig.vmFromCfgFile at h
  split at h
  · cases h
    exact ⟨rfl, rfl, rfl⟩
  · obtain ⟨vm, -, rfl⟩ := Option.map_eq_some_iff.1 h
    exact ⟨rfl, rfl, rfl⟩

end

section
variable {env : HostCreateEnv} {opts : CreateOptions} {file : Option Json} {host : Host}

/-- The directory of the container is the one that its name and the root directory say. -/
theorem runtimeDirPath_of_specFileParse {sc : SpecConfig}
    (h : specFileParse env file (commandSetup opts) rfl = some sc) :
    runtimeDirPath sc.config = some (runtimePath opts.rootDir opts.id) := by
  have hsame : (commandSetup opts).SameCommand sc.config := by
    unfold specFileParse at h
    split at h
    · split_ifs at h
      obtain ⟨sc₁, hprocess, hvm⟩ := Option.bind_eq_some_iff.1 h
      have hrun := eq_ok_of_toOption hprocess
      exact (specProcessConfig_sameCommand hrun).trans (vmFromCfgFile_sameCommand hvm)
    · cases h
  rw [runtimeDirPath, hsame.state, hsame.id, hsame.rootDir]
  rfl

theorem exists_runtimeDirSetup {config : Config} {path : PathBuf} (env : CreateEnv)
    (h : runtimeDirPath config = some path) :
    ∃ config', runtimeDirSetup { env with dirMade := true } config = some config' ∧
      config'.state.runtimePath = path := by
  unfold runtimeDirPath at h
  rw [runtimeDirSetup, h]
  exact ⟨_, rfl, rfl⟩

/-! ## An existing container -/

theorem makeRuntimeDir_of_isDir {env : HostEnv} {path : String} (h : host.IsDir env.cwd path) :
    (makeRuntimeDir env host path).2 = true := by
  have hdir : (mkdirWithParents env host (pathGetDirname path)).1.IsDir env.cwd path :=
    isDir_grows (FileSystem.grows_mkdirs _ _) h
  rw [makeRuntimeDir, mkdirWithParents, FileSystem.mkdirs_of_isDir _ hdir]

/-- The place of the container's state file. -/
def stateFilePlace (env : HostCreateEnv) (opts : CreateOptions) : Path :=
  let path := stateFilePath opts.rootDir opts.id
  resolve (FileSystem.origin env.host.cwd path) (components path)

/-- Making the directory only makes what is missing. -/
theorem makes_makeRuntimeDir {sf : Path} (env : HostEnv) (path : String)
    (hsf : host.tree.Exists sf) :
    FileSystem.Makes (fun q => host.real q ≠ host.real sf) host
      (makeRuntimeDir env host path).1 := by
  have hmk : ∀ (host' : Host) (text : String), host'.tree.Exists sf → FileSystem.Makes
      (fun q => host'.real q ≠ host'.real sf) host' (mkdirWithParents env host' text).1 := by
    intro host' text hex
    refine (FileSystem.makes_mkdirs _ _).mono fun q hq hreal => hq.1 ?_
    rw [FileTree.Exists, FileSystem.tree_node, hreal]
    exact hex
  have hfirst := hmk host (pathGetDirname path) hsf
  have hsecond := hmk _ path (hfirst.tree.exists_of hsf)
  exact hfirst.trans (hsecond.mono fun q hq => by rwa [hfirst.real_eq, hfirst.real_eq] at hq)

/-- What `create` checks: `config.json` can be read, its version is supported, and the namespaces
can be entered. -/
def checkedSpec (env : HostCreateEnv) (opts : CreateOptions) (file : Option Json) :
    Option SpecConfig :=
  (specFileParse env file (commandSetup opts) rfl).filter fun sc =>
    configCheck env.create sc.config && env.create.namespaces

/-- What `create` does once the directory is there. -/
def goOn (env : HostCreateEnv) (opts : CreateOptions) (sc : SpecConfig) (host : Host) :
    Host × Launch :=
  let failed : Launch := { ending := .returned false, regs := { config := commandSetup opts } }
  match runtimeDirSetup { env.create with dirMade := true } sc.config with
  | none => (host, failed)
  | some config =>
    let (host, launch) := mountAndLaunch env config sc.mountSpecs host
    (host, launch.getD failed)

/-- `create` fails and leaves the state file and the mounts untouched. -/
structure Refused (env : HostCreateEnv) (opts : CreateOptions) (host : Host) (r : Host × Launch) :
    Prop where
  ending : r.2.ending = .returned false
  stateFile : r.1.stat env.host.cwd (stateFilePath opts.rootDir opts.id) =
    host.stat env.host.cwd (stateFilePath opts.rootDir opts.id)
  spared : Spared (stateFilePlace env opts) host r.1

/-- Mounting and launching fail untimely: no mount is made and nothing is done to the state file,
and a mount fails, or the launch does before its first write. -/
def FailsUntouched (env : HostCreateEnv) (sf : Path) (config : Config) (specs : List MountSpec)
    (host : Host) : Prop :=
  EachTurn (MountSpec.Harmless env.host config.dryRunMode (getWorkloadDir config) sf) env.host
      config.dryRunMode (getWorkloadDir config) host specs ∧
    (¬ EachTurn (fun host m => m.Skipped env.host host ∨
        m.failure env.host config.dryRunMode (getWorkloadDir config) host = none) env.host
        config.dryRunMode (getWorkloadDir config) host specs ∨
      config.dryRunMode = false ∧ FailsUnwritten env.create.launch config)

/-- **An existing container is not told from a new one.** `create` goes on if its checks succeed. -/
theorem hostCreate_existing {sc : SpecConfig}
    (hdir : host.IsDir env.host.cwd (runtimePath opts.rootDir opts.id).text)
    (hsc : checkedSpec env opts file = some sc) :
    hostCreate env file (commandSetup opts) rfl host =
      goOn env opts sc
        (makeRuntimeDir env.host host (runtimePath opts.rootDir opts.id).text).1 := by
  obtain ⟨hparse, hchecks⟩ := Option.filter_eq_some_iff.1 hsc
  obtain ⟨hcheck, hns⟩ := Bool.and_eq_true_iff.1 hchecks
  unfold hostCreate goOn
  rw [hparse]
  dsimp only
  rw [hcheck, hostRuntimeDirSetup, runtimeDirPath_of_specFileParse hparse]
  dsimp only
  rw [makeRuntimeDir_of_isDir hdir]
  cases runtimeDirSetup { env.create with dirMade := true } sc.config with
  | none => rfl
  | some config =>
    dsimp only
    rw [hns]
    rfl

section
variable {old : Option Json}

theorem node_of_stat (h : host.stat env.host.cwd (stateFilePath opts.rootDir opts.id) =
    some (.file old)) : host.tree.node (stateFilePlace env opts) = some (.file old) := by
  obtain ⟨p, hp, hnode⟩ := Option.bind_eq_some_iff.1 h
  rw [stateFilePlace, FileSystem.resolve_of_lookup hp]
  exact hnode

theorem exists_of_stat (h : host.stat env.host.cwd (stateFilePath opts.rootDir opts.id) =
    some (.file old)) : host.tree.Exists (stateFilePlace env opts) := by
  rw [FileTree.Exists, node_of_stat h]
  exact Option.some_ne_none _

/-- A failure that makes nothing where the state file is stored. -/
theorem refused_of_makes (hfile : host.stat env.host.cwd (stateFilePath opts.rootDir opts.id) =
      some (.file old)) {r : Host × Launch} (hending : r.2.ending = .returned false)
    (hmakes : FileSystem.Makes
      (fun q => host.real q ≠ host.real (stateFilePlace env opts)) host r.1) :
    Refused env opts host r :=
  ⟨hending, (hmakes.stat hfile fun _ hq => hq).trans hfile.symm, .of_makes hmakes⟩

/-- `create` is refused if one of its checks fails. -/
theorem refused_of_checkedSpec_none
    (hfile : host.stat env.host.cwd (stateFilePath opts.rootDir opts.id) = some (.file old))
    (hsc : checkedSpec env opts file = none) :
    Refused env opts host (hostCreate env file (commandSetup opts) rfl host) := by
  unfold hostCreate
  cases hparse : specFileParse env file (commandSetup opts) rfl with
  | none => exact refused_of_makes hfile rfl (.refl host)
  | some sc =>
    have hchecks : (configCheck env.create sc.config && env.create.namespaces) = false := by
      rw [checkedSpec, hparse] at hsc
      simpa [Option.filter] using hsc
    dsimp only
    cases hcheck : configCheck env.create sc.config with
    | false => exact refused_of_makes hfile rfl (.refl host)
    | true =>
      -- the directory is made before the namespaces are entered
      rw [hcheck, Bool.true_and] at hchecks
      rw [hchecks, hostRuntimeDirSetup, runtimeDirPath_of_specFileParse hparse]
      have hmakes := makes_makeRuntimeDir env.host (runtimePath opts.rootDir opts.id).text
        (exists_of_stat hfile)
      dsimp only
      cases runtimeDirSetup _ sc.config with
      | none => exact refused_of_makes hfile rfl hmakes
      | some config => exact refused_of_makes hfile rfl hmakes

/-- The mounts do not decide which call of a launch fails. -/
theorem failsUnwritten_mounts (env : LaunchEnv) (config : Config) (mounts : List CcOciMount) :
    FailsUnwritten env { config with oci.mounts := mounts } ↔ FailsUnwritten env config := by
  have hnoticed : noticed env { config with oci.mounts := mounts } = noticed env config := by
    funext k
    cases k with
    | stateFile | recreateStateFile =>
      have hsame : Config.SameParts ({ config with oci.mounts := mounts }.withStatus .created)
          (config.withStatus .created) := ⟨rfl, rfl, rfl, rfl, rfl, rfl, rfl, rfl, rfl⟩
      exact hsame.isNone_stateFileCreate rfl _ _
    | _ => rfl
  unfold FailsUnwritten
  rw [hnoticed]
  exact Iff.rfl

/-- The documents of a launch are stored in the state file. -/
theorem makes_storeState {path : PathBuf} : ∀ (docs : List Json) (host : Host),
    FileSystem.Makes (· = resolve (FileSystem.origin env.host.cwd (stateFileGet path).text)
      (components (stateFileGet path).text)) host (docs.foldl (storeState env.host path) host)
  | [], host => .refl host
  | doc :: docs, host => by
    have hfirst : FileSystem.Makes (· = resolve (FileSystem.origin env.host.cwd
        (stateFileGet path).text) (components (stateFileGet path).text)) host
        (storeState env.host path host doc) := by
      unfold storeState
      cases hstore : host.store env.host.cwd (stateFileGet path).text (some doc) with
      | none => exact .refl host
      | some host' => exact (FileSystem.store_spec hstore).1
    exact hfirst.trans (makes_storeState docs _)

/-- A document that is stored in the state file is done to it. -/
theorem writes_of_spared {path : PathBuf} {sf : Path} {docs : List Json}
    (hfile : host.stat env.host.cwd (stateFileGet path).text = some (.file old))
    (hsf : sf = resolve (FileSystem.origin env.host.cwd (stateFileGet path).text)
      (components (stateFileGet path).text))
    (h : Spared sf host (docs.foldl (storeState env.host path) host)) : docs = [] := by
  cases docs with
  | nil => rfl
  | cons doc docs =>
    obtain ⟨host', hstore⟩ := FileSystem.exists_store hfile (some doc)
    have hstate : storeState env.host path host doc = host' := by rw [storeState, hstore]; rfl
    obtain ⟨new, hnew, haway⟩ := h.untouched
    obtain ⟨later, hlater, -⟩ := (@makes_storeState env path docs host').touched
    rw [List.foldl_cons, hstate, hlater, FileSystem.store_touched hstore, ← hsf,
      List.append_cons] at hnew
    have hmem : sf ∈ new :=
      List.append_cancel_right hnew ▸ List.mem_append_right _ List.mem_cons_self
    exact absurd rfl (haway sf hmem)

/-- Mounting and launching are refused exactly if they fail before anything is mounted and before
the state file is written. -/
theorem refused_mountAndLaunch_iff {host₁ : Host} {config : Config} {specs : List MountSpec}
    {failed : Launch} (hfailed : failed.ending = .returned false)
    (hfile : host.stat env.host.cwd (stateFilePath opts.rootDir opts.id) = some (.file old))
    (hpath : config.state.runtimePath = runtimePath opts.rootDir opts.id)
    (hmakes : FileSystem.Makes
      (fun q => host.real q ≠ host.real (stateFilePlace env opts)) host host₁) :
    Refused env opts host ((mountAndLaunch env config specs host₁).1,
        (mountAndLaunch env config specs host₁).2.getD failed) ↔
      FailsUntouched env (stateFilePlace env opts) config specs host₁ := by
  have hfile₁ := hmakes.stat hfile fun _ hq => hq
  have hnode := node_of_stat hfile₁
  have hreal : host₁.real = host.real := funext hmakes.real_eq
  have hok := @mounts_ok_iff env.host config.dryRunMode (getWorkloadDir config) specs host₁
  have hadds := handleMountList_adds env.host config.dryRunMode (getWorkloadDir config) specs host₁
  obtain ⟨hharmless, hspared⟩ := @mounts_harmless_iff env.host config.dryRunMode
    (getWorkloadDir config) (stateFilePlace env opts) old specs host₁ hnode
  rw [hreal] at hharmless
  have hbefore : host.mounts <:+ host₁.mounts ∧ host.touched <:+ host₁.touched := by
    obtain ⟨new, hnew, -⟩ := hmakes.touched
    exact ⟨hmakes.mounts ▸ List.suffix_rfl, new, hnew.symm⟩
  unfold FailsUntouched mountAndLaunch hostHandleMounts
  rw [← hok]
  generalize handleMountList env.host config.dryRunMode (getWorkloadDir config) host₁ specs = r
    at hadds hharmless hspared
  obtain ⟨host₂, mounts, ok⟩ := r
  cases ok with
  | false =>
    constructor
    · intro h
      exact ⟨hspared (h.spared.split hbefore hadds).2, .inl fun h => by cases h⟩
    · intro h
      exact refused_of_makes hfile hfailed (hmakes.trans (hharmless h.1))
  | true =>
    have hlaunch := launch_unwritten_iff env.create.launch { config with oci.mounts := mounts }
    rw [failsUnwritten_mounts] at hlaunch
    dsimp only [Option.getD_some]
    generalize
      createLaunch env.create.launch { config with oci.mounts := mounts } = launch at hlaunch
    constructor
    · intro h
      -- nothing is mounted, so the state file is still seen after the mounts
      have hstores := @makes_storeState env config.state.runtimePath launch.regs.writes host₂
      have hafter :
          host₂.mounts <:+ (launch.regs.writes.foldl
            (storeState env.host config.state.runtimePath) host₂).mounts ∧
          host₂.touched <:+ (launch.regs.writes.foldl
            (storeState env.host config.state.runtimePath) host₂).touched := by
        obtain ⟨new, hnew, -⟩ := hstores.touched
        exact ⟨hstores.mounts ▸ List.suffix_rfl, new, hnew.symm⟩
      have hadds₂ : host.mounts <:+ host₂.mounts ∧ host.touched <:+ host₂.touched :=
        ⟨hbefore.1.trans hadds.1, hbefore.2.trans hadds.2⟩
      obtain ⟨hfirst, hwrites⟩ := h.spared.split hadds₂ hafter
      have hturns := hspared (hfirst.split hbefore hadds).2
      have hfile₂ := (hmakes.trans (hharmless hturns)).stat hfile fun _ hq => hq
      have hnil : launch.regs.writes = [] := by
        have hget : (stateFileGet config.state.runtimePath).text =
            stateFilePath opts.rootDir opts.id := by rw [hpath]; rfl
        refine @writes_of_spared env host₂ old _ _ _ ?_ ?_ hwrites
        · rw [hget]
          exact hfile₂
        · rw [hget]
          rfl
      exact ⟨hturns, .inr (hlaunch.1 ⟨h.ending, hnil⟩)⟩
    · rintro ⟨hturns, hnot | hfails⟩
      · exact absurd rfl hnot
      · obtain ⟨hending, hnil⟩ := hlaunch.2 hfails
        rw [hnil]
        exact refused_of_makes hfile hending (hmakes.trans (hharmless hturns))

end

end

/-! ## Samples -/

def recreateOptions : CreateOptions :=
  { id := "c1", bundle := some "/bundle", rootDir := some "/run" }

/-- The environment of a `create`, in which every call succeeds. -/
def recreateEnv : HostCreateEnv where
  create := sampleHost
  spec := { resolvePath := fun path => some ("/bundle/" ++ path)
            isDir := fun _ => true
            pathExists := fun _ => true }

/-- A bundle with one mount. -/
def mountingSpec : Json :=
  .obj (sampleSpec ++ [("mounts", .arr [.obj [("destination", .str "/data"), ("type", .str "bind"),
    ("source", .str "/bundle"), ("options", .arr [.str "bind"])]])])

/-- The container `c1` exists. -/
def existingHost : Host := containerFiles (some mountingSpec)

/-- An environment in which the version of the file is not supported. -/
def unsupportedEnv : HostCreateEnv :=
  { recreateEnv with create := { sampleHost with supported := fun _ => false } }

/-- The process of the workload in the state file of `c1`. -/
def storedPid (host : Host) : Option Int32 :=
  ((readFile {} host "/run/c1/state.json").bind stateFileRead).map OciState.pid

end Runtime

end CcOciRuntime
