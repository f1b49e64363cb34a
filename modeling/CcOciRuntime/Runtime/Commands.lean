import CcOciRuntime.Runtime.StateFile

/-!
# The lifecycle commands

`start`, `kill`, `pause` and `resume` run as processes of their own. Each reads the state file,
fills in a fresh configuration from it, acts, and writes the file anew from that configuration. A
command is a function from the content of the file and the answers of its environment to the
documents it writes, in order, and whether it succeeds.

Reference: `src/oci.c`, `src/command.c`, `src/commands/start.c`, `kill.c`, `pause.c`, `resume.c`.
-/

namespace CcOciRuntime

namespace Runtime

/-! ## From the state to the configuration -/

/-- Reference: `cc_oci_runtime_path_get` (`src/runtime.c:40`). -/
def runtimePath (rootDir : Option String) (id : String) : PathBuf :=
  .copy (rootDir.getD runtimeDirPrefix ++ "/" ++ id)

/-- The configuration file of a bundle; there is none for an empty path. Reference:
`cc_oci_config_file_path` (`src/oci-config.c:101`), `cc_oci_get_bundlepath_file`
(`src/oci.c:123`). -/
def configFilePath (bundlePath : String) : Option String :=
  if bundlePath = "" then none else some (bundlePath ++ "/config.json")

/-- Reading the state file and filling in the paths, the pid and the status. Reference:
`cc_oci_get_config_and_state` (`src/oci.c:171`). -/
def getConfigAndState (config : Config) (file : Option Json) : Option (Config × OciState) :=
  match config.optargContainerId, file.bind stateFileRead with
  | some id, some st =>
    match st.bundlePath.bind configFilePath with
    | some _ => some
      ({ config with
          bundlePath := st.bundlePath
          state := { config.state with
            runtimePath := runtimePath config.rootDir id
            workloadPid := st.pid
            status := st.status
            commsPath := .copy (st.commsPath.getD "")
            procsockPath := .copy (st.procsockPath.getD "") } }, st)
    | none => none
  | _, _ => none

/-- Moving elements of the state to the configuration. What is moved is not used in the state
afterwards. Reference: `cc_oci_config_update` (`src/oci.c:1470`). -/
def configUpdate (config : Config) (st : OciState) : Config :=
  { config with
    oci := { config.oci with
      mounts :=
        match st.mounts with
        | [] => config.oci.mounts
        | m :: ms => m :: ms
      process :=
        match st.process, config.oci.process.args with
        | some p, none => p
        | _, _ => config.oci.process }
    console := st.console.or config.console
    vm := st.vm.or config.vm
    proxy := st.proxy.or config.proxy
    pod := st.pod.or config.pod
    state := { config.state with
      procsockPath :=
        match st.procsockPath with
        | some path => .copy path
        | none => config.state.procsockPath } }

/-! ## The environment of a command -/

/-- What the environment answers to a command: whether the file could be written, for each time it
is, and the results of the calls that the commands make. -/
structure CommandEnv where
  rootDir : Option String := none
  /-- the writes of the state file -/
  saved : Nat → Bool
  /-- `kill(2)`, and the kill through the proxy -/
  killed : Bool := true
  hyperKilled : Bool := true
  /-- pausing or resuming the VM -/
  toggled : Bool := true
  /-- the option `--bundle` of a start, and the canonical form of its path -/
  bundle : Option String := none
  resolvePath : String → Option String := some
  /-- the terminal of a start, the process socket and the monitor for it -/
  isTty : Bool := false
  procsockExists : Bool := true
  monitored : Bool := true
  /-- the calls of the proxy -/
  connected : Bool := true
  attached : Bool := true
  hyperCmd : Bool := true
  /-- the entries of a passwd file: user ID and home directory -/
  passwd : String → Option (List (UInt32 × String)) := fun _ => none
  /-- the end of a start that waits: the lock of the shim, the state file then, the cleanup -/
  shimLocked : Bool := true
  fileAtExit : Option Json := none
  cleanedUp : Bool := true

/-- The documents a command writes, in order, and whether it succeeds. -/
structure Outcome where
  writes : List Json
  ok : Bool

/-- A command that ends with a write of the state file, after the documents `before`. -/
def Outcome.writing (before : List Json) (doc : Option Json) (ok : Bool) : Outcome :=
  match doc with
  | some doc => ⟨before ++ [doc], ok⟩
  | none => ⟨before, false⟩

/-- Reference: `cc_pod_is_sandbox` (`src/pod.c:414`). -/
def podIsSandbox (config : Config) : Bool :=
  match config.pod with
  | some pod => pod.sandbox
  | none => false

/-! ## Kill -/

/-- Reference: `cc_oci_kill` (`src/oci.c:229`). -/
def ociKill (config : Config) (st : OciState) (signum : Int) (env : CommandEnv) : Outcome :=
  if podIsSandbox config then
    .writing [] (stateFileCreate (config.withStatus .stopped) st.createTime (env.saved 0)) true
  else
    match stateFileCreate (config.withStatus .stopping) st.createTime (env.saved 0) with
    | none => ⟨[], false⟩
    | some stopping =>
      if ¬ env.killed then
        -- the status is put back
        .writing [stopping] (stateFileCreate config st.createTime (env.saved 1)) false
      else if (signum = 9 ∨ signum = 19) ∧ ¬ env.hyperKilled then ⟨[stopping], false⟩
      else
        .writing [stopping]
          (stateFileCreate (config.withStatus .stopped) st.createTime (env.saved 1))
          true

/-! ## Pause and resume -/

/-- The status that a pause or a resume leads to. -/
def destStatus (pause : Bool) : OciStatus := if pause then .paused else .running

/-- Reference: `cc_oci_toggle` (`src/oci.c:958`). -/
def ociToggle (config : Config) (st : OciState) (pause : Bool) (env : CommandEnv) : Outcome :=
  if st.status = destStatus pause then ⟨[], true⟩
  else if ¬ env.toggled then ⟨[], false⟩
  else
    .writing [] (stateFileCreate (config.withStatus (destStatus pause)) st.createTime (env.saved 0))
      true

/-! ## Start -/

/-- Reference: `get_user_home_dir` (`src/oci.c:340`). -/
def getUserHomeDir (env : CommandEnv) (config : Config) (passwdPath : String) : Option String :=
  (env.passwd passwdPath).bind fun entries =>
    (entries.find? fun e => e.1 = config.oci.process.user.uid).map Prod.snd

/-- The passwd file below the container's root. Reference: `src/oci.c:394`, `PASSWD_PATH`
(`src/oci.h:135`). -/
def passwdPath (config : Config) : String := config.oci.root.path.text ++ "/" ++ "/etc/passwd"

/-- Reference: `src/oci.c:400`, `STATELESS_PASSWD_PATH` (`src/oci.h:138`). -/
def statelessPasswdPath (config : Config) : String :=
  config.oci.root.path.text ++ "/" ++ "/usr/share/defaults/etc/passwd"

/-- The home directory of the workload's user. -/
def homeDir (env : CommandEnv) (config : Config) : String :=
  match getUserHomeDir env config (passwdPath config) with
  | some home => home
  | none => (getUserHomeDir env config (statelessPasswdPath config)).getD "/"

/-- An environment variable that sets the home directory. -/
def isHome (var : String) : Bool := "HOME=".toList.isPrefixOf var.toList

/-- Reference: `set_env_home` (`src/oci.c:374`). -/
def setEnvHome (env : CommandEnv) (config : Config) : Config :=
  match config.oci.process.env with
  | none => config
  | some vars =>
    if vars.any isHome then config
    else { config with
      oci.process.env := some (("HOME=" ++ homeDir env config) :: vars) }

/-- Reference: `cc_proxy_run_hyper_new_container` (`src/proxy.c:1267`). -/
def runHyperNewContainer (env : CommandEnv) (config : Config) : Config × Bool :=
  let config := setEnvHome env config
  (config, ((config.oci.process.env.getD []).all fun var => '=' ∈ var.toList) && env.hyperCmd)

/-- Reference: `cc_proxy_hyper_new_pod_container` (`src/proxy.c:1392`). -/
def hyperNewPodContainer (env : CommandEnv) (config : Config) : Config × Bool :=
  if config.proxy.isNone ∨ ¬ env.connected ∨ ¬ env.attached then (config, false)
  else if config.oci.process.stdioStream < 0 ∨ config.oci.process.stderrStream < 0 then
    (config, false)
  else runHyperNewContainer env config

/-- The call of the proxy that starts the workload: its result is not looked at for a sandbox, and a
container of a pod needs the sandbox's name. Reference: `src/oci.c:739-754`,
`cc_pod_container_start` (`src/pod.c:358`). -/
def startWorkload (env : CommandEnv) (config : Config) : Config × Bool :=
  match config.pod with
  | none => hyperNewPodContainer env config
  | some pod =>
    if pod.sandbox then ((hyperNewPodContainer env config).1, true)
    else if pod.sandboxName.isNone then (config, false)
    else hyperNewPodContainer env config

/-- The result of a start that waits for the shim: the state file is read again, and a container
that was not stopped is cleaned up. Reference: `src/oci.c:771-813`. -/
def waitForShim (env : CommandEnv) (config : Config) : Bool :=
  env.shimLocked &&
    match getConfigAndState config env.fileAtExit with
    | none => false
    | some (config, _) =>
      config.state.status = .stopped || config.state.status = .stopping || env.cleanedUp

/-- The configuration of a start, with the bundle path of its option. Reference:
`src/oci.c:683-691`. -/
def Config.withBundle (config : Config) (env : CommandEnv) : Config :=
  match env.bundle with
  | some bundle =>
    { config with bundlePath := if bundle = "" then none else env.resolvePath bundle }
  | none => config

/-- Reference: `cc_oci_start` (`src/oci.c:647`). -/
def ociStart (config : Config) (st : OciState) (env : CommandEnv) : Outcome :=
  if st.status ≠ .created then ⟨[], false⟩
  else
    let config := config.withBundle env
    let wait := env.isTty && !config.detachedMode && config.pod.isNone
    if wait && !env.procsockExists && !env.monitored then ⟨[], false⟩
    else
      let (config, started) := startWorkload env config
      if ¬ started then ⟨[], false⟩
      else
        let config := config.withStatus .running
        .writing [] (stateFileCreate config st.createTime (env.saved 0))
          (!wait || waitForShim env config)

/-! ## The commands -/

/-- The commands that rewrite the state file; a kill with the number of its signal. -/
inductive Command
  | start
  | kill (signum : Int)
  | pause
  | resume
  deriving DecidableEq

/-- A command on the container `id`, whose state file has the content `file`. Reference:
`handler_start` (`src/commands/start.c:47`), `handler_kill` (`src/commands/kill.c:27`),
`handle_command_toggle` (`src/command.c:81`). -/
def runCommand (cmd : Command) (id : String) (env : CommandEnv) (file : Option Json) : Outcome :=
  match getConfigAndState
      { configCreate with rootDir := env.rootDir, optargContainerId := some id } file with
  | none => ⟨[], false⟩
  | some (config, st) =>
    let config := configUpdate config st
    match cmd with
    | .start => ociStart config st env
    | .kill signum => ociKill config st signum env
    | .pause => ociToggle config st true env
    | .resume => ociToggle config st false env

end Runtime

end CcOciRuntime
