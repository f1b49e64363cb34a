import CcOciRuntime.Lib.Stages
import CcOciRuntime.Runtime.StateFile

/-!
# Launching the VM and the shim

`create` launches a container by a long sequence of calls, each of which can fail. The functions
keep one result variable `ret` and leave by one of a few exits: the label `out`, which kills the
shim when `ret` is false, a plain return before the shim exists, and the label `child_failed`, which
is meant for the child process and ends the process it is reached in. The sequence is a list of
steps (`launchSteps`), run with the registers of the function (`Launching`); the answers of the
environment to all calls are one record (`LaunchEnv`). A container of a pod has a sequence of its
own over the same steps (`podContainerSteps`).

Reference: `cc_oci_vm_launch` (`src/process.c:859`), `cc_shim_launch` (`:605`),
`cc_proxy_wait_until_ready` (`src/proxy.c:988`), `cc_pod_container_create` (`src/pod.c:205`).
-/

namespace CcOciRuntime

namespace Runtime

/-! ## The environment -/

/-- The process ID of a child, as `fork` returns it to the parent. -/
abbrev Pid := { pid : Int32 // 0 < pid }

/-- How the setup of a child process ends. The parent reads a pipe that `exec` closes. -/
inductive ChildEnd
  /-- the program runs -/
  | exec
  /-- the setup failed, and the child wrote to the pipe -/
  | reported
  /-- the setup failed with nothing written, as when `exec` fails and the child aborts -/
  | silent
  deriving DecidableEq

/-- The result of the parent's read of the pipe, where `readable` says that the read succeeds.
Reference: `src/process.c:1140`, `:1224`. -/
def ChildEnd.bytes (child : ChildEnd) (readable : Bool) : Int :=
  if readable then
    match child with
    | .reported => 1
    | .exec | .silent => 0
  else -1

/-- What becomes of the agent's control socket, which the hypervisor creates. -/
inductive CtlSocket
  /-- it is there -/
  | present
  /-- it is not there, and no file monitor could be made -/
  | unmonitored
  /-- it appears while the runtime waits -/
  | appears
  /-- it never appears -/
  | never
  deriving DecidableEq

/-- The answers to the calls that launch a shim. -/
structure ShimEnv where
  errPipe : Bool
  argsPipe : Bool
  socketpair : Bool
  flock : Bool
  fork : Option Pid
  /-- the end of its setup, and the read of its error pipe -/
  child : ChildEnd
  readable : Bool

/-- The answers of the environment to the calls of a launch. -/
structure LaunchEnv where
  timestamp : Option String
  /-- the runtime has the privileges for networking -/
  networking : Bool
  connected : Bool
  attached : Bool
  childErrPipe : Bool
  hypervisorArgsPipe : Bool
  fork : Option Pid
  shim : ShimEnv
  /-- the two writes of the state file -/
  saved : Bool
  resaved : Bool
  hooks : Bool
  netlink : Bool
  netcfg : Bool
  network : Bool
  vmArgs : Bool
  joined : Bool
  argsLenWritten : Bool
  argsWritten : Bool
  /-- the end of the hypervisor's setup, and the read of its error pipe -/
  child : ChildEnd
  readable : Bool
  ctlSocket : CtlSocket
  hello : Bool
  startpod : Bool
  proxyFd : Bool
  proxyFdWritten : Bool
  /-- the first stream of an allocation -/
  ioBase : Option Int32
  ioBaseWritten : Bool
  shimConnection : Bool
  fdSent : Bool
  disconnected : Bool
  pidFileWritten : Bool

/-! ## The functions that a launch calls -/

/-- The result, and what is then in `workload_pid`. Reference: `cc_shim_launch`
(`src/process.c:605`). -/
def shimLaunch (env : ShimEnv) (config : Config) : Option Pid × Int32 :=
  if config.proxy.isNone then (none, config.state.workloadPid)
  else if ¬ env.errPipe ∨ ¬ env.argsPipe ∨ ¬ env.socketpair ∨ ¬ env.flock then
    (none, config.state.workloadPid)
  else
    match env.fork with
    | none => (none, -1)
    | some pid => (some pid, pid.1)

/-- The result, or `none` when the call never returns. The hello is not sent when the file monitor
could not be made. Reference: `cc_proxy_wait_until_ready` (`src/proxy.c:988`). -/
def waitUntilReady (env : LaunchEnv) (config : Config) : Option Bool :=
  match config.proxy.bind CcProxy.agentCtlSocket with
  | none => some false
  | some _ =>
    match env.ctlSocket with
    | .present | .appears => some env.hello
    | .unmonitored => some true
    | .never => none

/-- Reference: `cc_oci_create_pidfile` (`src/util.c:173`). -/
def createPidfile (path : String) (pid : Int32) (written : Bool) : Bool :=
  decide (path.toList.head? = some '/') && decide (0 < pid) && written

/-- The path of a file in a directory: the separators at the end of the directory become one.
Reference: `g_build_path`, for a file name without separators. -/
def buildPath (dir file : String) : String :=
  let leading := dir.toList.takeWhile (· = '/')
  let rest := ((dir.toList.drop leading.length).reverse.dropWhile (· = '/')).reverse
  String.ofList (leading ++ (if rest = [] then [] else rest ++ ['/']) ++ file.toList)

/-- The hypervisor's process; the caller has made sure that there is a VM. Reference:
`src/process.c:928`. -/
def Config.withVmPid (config : Config) (fork : Option Pid) : Config :=
  let pid := match fork with
    | some pid => pid.1
    | none => -1
  { config with vm := config.vm.map fun vm => { vm with pid := pid } }

/-- The workload's process, which is the shim. Reference: `src/process.c:656`. -/
def Config.withWorkloadPid (config : Config) (pid : Int32) : Config :=
  { config with state := { config.state with workloadPid := pid } }

/-- The sockets of a VM, which building the hypervisor's arguments sets. Reference:
`src/hypervisor.c:254-273`. -/
def Config.withSockets (config : Config) : Config :=
  let path := buildPath config.state.runtimePath.text
  { config with
    proxy := config.proxy.map fun _ =>
      { vmConsoleSocket := some (path "console.sock")
        agentCtlSocket := some (path "ga-ctl.sock")
        agentTtySocket := some (path "ga-tty.sock") } }

/-- The streams of the workload: with a terminal, its errors go the same way as its output.
Reference: `src/process.c:1208-1217`. -/
def Config.withStreams (config : Config) (ioBase : Int32) : Config :=
  { config with
    oci.process.stdioStream := ioBase
    oci.process.stderrStream := if config.oci.process.terminal then 0 else ioBase + 1 }

/-! ## The steps -/

/-- The steps of a launch, in the order of the source. -/
inductive LaunchStep
  | timestamp
  | connect
  | attach
  | childErrPipe
  | hypervisorArgsPipe
  | fork
  | shimLaunch
  | stateFile
  | prestartHooks
  | netlinkInit
  | netcfgGet
  | networkCreate
  | vmArgsGet
  | joinArgs
  | writeArgsLen
  | writeArgs
  | childSetup
  | waitUntilReady
  | hyperPodCreate
  | proxyFd
  | writeProxyFd
  | allocateIo
  | writeIoBase
  | socketConnection
  | sendFd
  | shimSetup
  | recreateStateFile
  | disconnect
  | pidFile
  deriving DecidableEq

/-- The ways to leave a launch before its end. -/
inductive LaunchExit
  /-- the label `out` -/
  | out
  /-- a plain `return false` -/
  | returned
  /-- the label `child_failed`, which ends the process -/
  | childFailed
  /-- a call that never returns -/
  | blocked
  deriving DecidableEq

/-- The registers of a launch: the result variable, the configuration, the shim that has been
launched, and the documents that have been written to the state file. -/
structure Launching where
  ret : Bool := false
  config : Config
  shim : Option Pid := none
  writes : List Json := []

/-- A call whose failure leaves by an exit, with the result variable as it stands. -/
def Launching.check (s : Launching) (ok : Bool) (exit : LaunchExit) :
    Except (LaunchExit × Launching) Launching :=
  if ok then .ok s else .error (exit, s)

/-- A call whose result goes to the result variable, and whose failure leaves by `out`. -/
def Launching.assign (s : Launching) (ok : Bool) : Except (LaunchExit × Launching) Launching :=
  { s with ret := ok }.check ok .out

/-- Writing the state file. -/
def Launching.writeState (s : Launching) (timestamp : Option String) (saved : Bool) :
    Except (LaunchExit × Launching) Launching :=
  match stateFileCreate s.config timestamp saved with
  | none => s.assign false
  | some doc => { s with writes := s.writes ++ [doc] }.assign true

/-- The check of a child's setup. -/
def Launching.checkChild (s : Launching) (bytes : Int) :
    Except (LaunchExit × Launching) Launching :=
  if 0 < bytes then s.assign false else .ok s

/-- One step of a launch. Reference: `src/process.c:891-1261`, `src/pod.c:224-340`. -/
def runStep (env : LaunchEnv) (s : Launching) :
    LaunchStep → Except (LaunchExit × Launching) Launching
  | .timestamp => s.check env.timestamp.isSome .out
  | .connect =>
    { s with config := s.config.withStatus .created }.check
      (s.config.proxy.isSome && env.connected) .returned
  | .attach => s.check env.attached .out
  | .childErrPipe => s.check env.childErrPipe .out
  | .hypervisorArgsPipe => s.check env.hypervisorArgsPipe .out
  | .fork =>
    { s with config := s.config.withVmPid env.fork }.check env.fork.isSome .out
  | .shimLaunch =>
    let (shim, workloadPid) := shimLaunch env.shim s.config
    { s with shim, config := s.config.withWorkloadPid workloadPid }.check shim.isSome .out
  | .stateFile => s.writeState env.timestamp env.saved
  -- the status of the hooks is not looked at again
  | .prestartHooks => .ok s
  | .netlinkInit => s.check (!env.networking || env.netlink) .childFailed
  | .netcfgGet => s.check (!env.networking || env.netcfg) .childFailed
  | .networkCreate => s.check (!env.networking || env.network) .childFailed
  | .vmArgsGet =>
    -- a failed call may have set the sockets as well, which is not read then
    (s.assign (s.config.proxy.isSome && env.vmArgs)).map fun s =>
      { s with config := s.config.withSockets }
  | .joinArgs => s.check env.joined .out
  | .writeArgsLen => s.check env.argsLenWritten .out
  | .writeArgs => s.check env.argsWritten .out
  | .childSetup => s.checkChild (env.child.bytes env.readable)
  | .waitUntilReady =>
    match waitUntilReady env s.config with
    | some ok => s.check ok .out
    | none => .error (.blocked, s)
  | .hyperPodCreate => s.check env.startpod .out
  | .proxyFd => s.check env.proxyFd .out
  | .writeProxyFd => s.check env.proxyFdWritten .out
  | .allocateIo => s.check env.ioBase.isSome .out
  | .writeIoBase => s.check env.ioBaseWritten .out
  | .socketConnection => s.check env.shimConnection .out
  | .sendFd =>
    (s.assign env.fdSent).map fun s =>
      { s with config := s.config.withStreams (env.ioBase.getD (-1)) }
  | .shimSetup => s.checkChild (env.shim.child.bytes env.shim.readable)
  | .recreateStateFile => s.writeState env.timestamp env.resaved
  -- the result is overwritten when there is a pid file
  | .disconnect => .ok { s with ret := env.disconnected }
  | .pidFile =>
    match s.config.pidFile with
    | none => .ok s
    | some path => s.assign (createPidfile path s.config.state.workloadPid env.pidFileWritten)

/-! ## The launch of a VM -/

/-- The steps of `cc_oci_vm_launch`. -/
def launchSteps : List LaunchStep :=
  [.timestamp, .connect, .childErrPipe, .hypervisorArgsPipe, .fork, .shimLaunch, .stateFile,
    .prestartHooks, .netlinkInit, .netcfgGet, .networkCreate, .vmArgsGet, .joinArgs, .writeArgsLen,
    .writeArgs, .childSetup, .waitUntilReady, .hyperPodCreate, .proxyFd, .writeProxyFd, .allocateIo,
    .writeIoBase, .socketConnection, .sendFd, .shimSetup, .recreateStateFile, .disconnect, .pidFile]

/-- The end of a launch, as its caller sees it. -/
inductive LaunchEnd
  | returned (ok : Bool)
  /-- the process has ended -/
  | exited
  /-- the call does not return -/
  | blocked
  deriving DecidableEq

/-- What a launch leaves: its end, the registers, and the process that it has killed. -/
structure Launch where
  ending : LaunchEnd
  regs : Launching
  killed : Option Int32 := none

/-- The label `out`. Reference: `src/process.c:1262-1288`. -/
def Launching.out (s : Launching) : Launch where
  ending := .returned s.ret
  regs := s
  killed :=
    if s.ret = false ∧ 0 < s.config.state.workloadPid then some s.config.state.workloadPid else none

/-- Reference: `cc_oci_vm_launch` (`src/process.c:859`). -/
def vmLaunch (env : LaunchEnv) (config : Config) : Launch :=
  match launchSteps.foldlM (runStep env) { config } with
  | .ok s | .error (.out, s) => s.out
  | .error (.returned, s) => { ending := .returned false, regs := s }
  | .error (.childFailed, s) => { ending := .exited, regs := s }
  | .error (.blocked, s) => { ending := .blocked, regs := s }

/-- An environment in which every step of a launch succeeds. -/
def willingLaunch : LaunchEnv where
  timestamp := some "now"
  networking := true
  connected := true
  attached := true
  childErrPipe := true
  hypervisorArgsPipe := true
  fork := some ⟨12, by decide⟩
  shim := { errPipe := true, argsPipe := true, socketpair := true, flock := true,
            fork := some ⟨13, by decide⟩, child := .exec, readable := true }
  saved := true
  resaved := true
  hooks := true
  netlink := true
  netcfg := true
  network := true
  vmArgs := true
  joined := true
  argsLenWritten := true
  argsWritten := true
  child := .exec
  readable := true
  ctlSocket := .appears
  hello := true
  startpod := true
  proxyFd := true
  proxyFdWritten := true
  ioBase := some 1
  ioBaseWritten := true
  shimConnection := true
  fdSent := true
  disconnected := true
  pidFileWritten := true

/-! ## The launch of a container in a pod -/

/-- The steps of `cc_pod_container_create`. -/
def podContainerSteps : List LaunchStep :=
  [.timestamp, .connect, .attach, .shimLaunch, .pidFile, .proxyFd, .writeProxyFd, .allocateIo,
    .writeIoBase, .socketConnection, .sendFd, .shimSetup, .stateFile, .disconnect]

/-- Nothing is killed here. Reference: `cc_pod_container_create` (`src/pod.c:205`). -/
def podContainerCreate (env : LaunchEnv) (config : Config) : Launch :=
  if config.pod.isNone ∨ config.proxy.isNone then { ending := .returned false, regs := { config } }
  else
    match podContainerSteps.foldlM (runStep env) { config } with
    | .ok s | .error (.out, s) => { ending := .returned s.ret, regs := s }
    | .error (.returned, s) => { ending := .returned false, regs := s }
    | .error (.childFailed, s) => { ending := .exited, regs := s }
    | .error (.blocked, s) => { ending := .blocked, regs := s }

end Runtime

end CcOciRuntime
