import CcOciRuntime.Runtime.HyperCommands
import CcOciRuntime.Runtime.KillFailure
import CcOciRuntime.Runtime.StateComplete

/-!
# Running another process in a container

`exec` attaches to the VM of a container, gets streams for the process, has the agent start it, and
starts a shim for the streams. The agent comes before the shim, so a shim that cannot be started
leaves the process in the container. What is then signalled is whatever `workload_pid` holds: it is
read from the state file, where it is the shim of the container itself, and overwritten by `fork`
only. `handlerExec_signals` says whom the command signals, `handlerExec_started` what a
successful one has done.

Reference: `handler_exec` (`src/commands/exec.c:135`), `cc_oci_exec` (`src/oci.c:1045`),
`cc_oci_vm_connect` (`src/process.c:1494`), `cc_oci_exec_shim` (`src/process.c:1363`).
-/

namespace CcOciRuntime

namespace Runtime

/-! ## The command -/

/-- The options of the command that it reads. `process` is the tree of the file of `--process`, or
`some none` when the file cannot be parsed. -/
structure ExecOptions where
  containerId : String
  args : List String := []
  user : OciCfgUser := {}
  env : Option (List String) := none
  console : Option String := none
  cwd : Option String := none
  process : Option (Option GNode) := none
  pidFile : Option String := none

/-- The answers to the calls of the command. -/
structure ExecEnv where
  /-- the calls of the proxy, the users of the container and the terminal -/
  command : CommandEnv
  /-- the first stream of an allocation -/
  ioBase : Option Int32
  shim : ShimEnv
  proxyFd : Bool := true
  proxyFdWritten : Bool := true
  ioBaseWritten : Bool := true
  shimConnection : Bool := true
  fdSent : Bool := true
  /-- the exit code of the shim -/
  exitCode : Int32 := 0
  pidFileWritten : Bool := true

/-- What the command leaves: its result, the container to whose VM it is attached, the request that
the agent has accepted, the shim, the process that it has signalled, and the pid file. -/
structure ExecRun where
  ok : Bool := false
  attached : Option String := none
  accepted : Option Json := none
  shim : Option Pid := none
  signalled : Option Int32 := none
  pidFile : Option (String × Int32) := none

/-- The shim gets what it waits for, and does not report a failure. Reference:
`src/process.c:1389-1447`. -/
def ExecEnv.passes (env : ExecEnv) : Bool :=
  env.proxyFd && env.proxyFdWritten && env.ioBaseWritten && env.shimConnection && env.fdSent &&
    decide (env.shim.child.bytes env.shim.readable ≤ 0)

/-- The result, the configuration, the shim and the process that is signalled. Reference:
`cc_oci_exec_shim` (`src/process.c:1363`). -/
def execShim (env : ExecEnv) (config : Config) : Bool × Config × Option Pid × Option Int32 :=
  let (shim, workloadPid) := shimLaunch env.shim config
  let ret := shim.isSome && env.passes
  -- the label `out` does not ask whether there is a shim
  (ret, config.withWorkloadPid workloadPid, shim, if ret then none else some workloadPid)

/-- The runtime waits for the shim on a terminal; `detached_mode` is not set from the options of
this command. Reference: `cc_oci_vm_connect` (`src/process.c:1494`), `cc_oci_is_attach_mode`
(`src/process.c:1468`). -/
def vmConnect (env : ExecEnv) (config : Config) : Config × ExecRun :=
  if config.proxy.isNone ∨ ¬ env.command.connected then (config, {})
  else
    match podContainerId config with
    | none => (config, {})
    | some id =>
      if ¬ env.command.attached then (config, {})
      else
        match env.ioBase with
        | none => (config, { attached := some id })
        | some ioBase =>
          match hyperExecCommand env.command (config.withStreams ioBase) with
          | (config, none) => (config, { attached := some id })
          | (config, some message) =>
            if ¬ env.command.hyperCmd then (config, { attached := some id })
            else
              let (ret, config, shim, signalled) := execShim env config
              let waited := !(env.command.isTty && !config.detachedMode) || env.exitCode == 0
              (config, { ok := ret && waited, attached := some id, accepted := some message, shim,
                         signalled })

/-- The process of a file, unless it cannot be parsed; the result of the handler is not looked at.
Reference: `cc_oci_process_exec_file` (`src/oci.c:1000`). -/
def processExecFile (file : Option GNode) (process : OciCfgProcess) :
    Option (Option OciCfgProcess) :=
  match file with
  | none => some none
  | some root => (processHandleSection process root).map fun p => some p.1

/-- The pid file, after the process was started. Reference: `src/oci.c:1077-1083`. -/
def ExecRun.writePidfile (run : ExecRun) (env : ExecEnv) (workloadPid : Int32) :
    Option String → ExecRun
  | none => run
  | some path =>
    if run.ok = false then run
    else if createPidfile path workloadPid env.pidFileWritten then
      { run with pidFile := some (path, workloadPid) }
    else { run with ok := false }

/-- The end of the command with a process. Reference: `src/oci.c:1063-1088`. -/
def execProcess (opts : ExecOptions) (env : ExecEnv) (config : Config) (st : OciState)
    (process : OciCfgProcess) : ExecRun :=
  let (config, run) := vmConnect env
    { config with oci.process := process, pod := st.pod.or config.pod }
  run.writePidfile env config.state.workloadPid opts.pidFile

/-- The command, or `none` when the handler of the section ends the runtime. Reference:
`cc_oci_exec` (`src/oci.c:1045`). -/
def ociExec (opts : ExecOptions) (env : ExecEnv) (config : Config) (st : OciState) :
    Option ExecRun :=
  match opts.process with
  | none => some (execProcess opts env config st config.oci.process)
  | some file =>
    (processExecFile file config.oci.process).map fun process =>
      match process with
      | none => {}
      | some process => execProcess opts env config st process

/-- The configuration that the options give. Reference: `src/commands/exec.c:154-188`. -/
def execConfig (opts : ExecOptions) (env : CommandEnv) : Config :=
  { configCreate with
    rootDir := env.rootDir
    optargContainerId := some opts.containerId
    oci.process :=
      { user := opts.user
        env := opts.env
        terminal := decide (opts.console.getD "" ≠ "")
        cwd := .copy (opts.cwd.getD "")
        args := if opts.args = [] then none else some opts.args } }

/-- The command, for a container whose state file has the content `file`. Reference: `handler_exec`
(`src/commands/exec.c:135`). -/
def handlerExec (opts : ExecOptions) (env : ExecEnv) (file : Option Json) : Option ExecRun :=
  if opts.args = [] ∧ opts.process = none then some {}
  else
    match getConfigAndState (execConfig opts env.command) file with
    | none => some {}
    | some (config, st) => ociExec opts env { config with console := opts.console } st

/-! ## What it has done -/

/-- The calls before the `fork` succeed. -/
def ShimEnv.channels (env : ShimEnv) : Bool :=
  env.errPipe && env.argsPipe && env.socketpair && env.flock

/-- The container and the process in a request. -/
def sentProcess (message : Json) : Option (Json × Json) :=
  (message.member "data").bind fun data => (data.member "data").bind fun payload =>
    (payload.member "container").bind fun container =>
      (payload.member "process").map fun process => (container, process)

/-- The variables that a process with the variables `own` is started with: these, and a home
directory in front if there are some and none of them sets it. -/
def StartVars (own : Option (List String)) (vars : List String) : Prop :=
  vars = own.getD [] ∨
    ∃ home, own.isSome = true ∧ (own.getD []).any isHome = false ∧
      vars = ("HOME=" ++ home) :: own.getD []

/-- A request that starts the process `p` of the container `id`. The user of the process is not a
part of it. -/
structure StartsProcess (id : String) (p : OciCfgProcess) (message : Json) : Prop where
  streams : 0 ≤ p.stdioStream ∧ 0 ≤ p.stderrStream
  sent : ∃ process vars es, sentProcess message = some (.str id, process) ∧
    process.member "terminal" = some (.bool p.terminal) ∧
    process.member "stdio" = some (.int p.stdioStream.toInt) ∧
    process.member "stderr" = some (.int p.stderrStream.toInt) ∧
    process.member "workdir" = (if p.cwd.text = "" then none else some (.str p.cwd.text)) ∧
    process.member "args" = some (.arr ((p.args.getD []).map .str)) ∧
    StartVars p.env vars ∧ vars.mapM splitVar = some es ∧
    process.member "envs" = some (.arr (es.map envVar)) ∧ process.member "user" = none

section
variable {opts : ExecOptions} {env : ExecEnv} {config config' : Config} {file : Option Json}
  {run : ExecRun} {message : Json}

/-- The home directory is the only change. -/
theorem setEnvHome_eq (env : CommandEnv) (config : Config) :
    ∃ vars, setEnvHome env config = { config with oci.process.env := vars } ∧
      StartVars config.oci.process.env (vars.getD []) := by
  rw [setEnvHome]
  cases hown : config.oci.process.env with
  | none => exact ⟨config.oci.process.env, rfl, .inl (by rw [hown])⟩
  | some own =>
    dsimp only
    split_ifs with hhome
    · exact ⟨config.oci.process.env, rfl, .inl (by rw [hown])⟩
    · exact ⟨_, rfl, .inr ⟨_, rfl, Bool.eq_false_of_not_eq_true hhome, rfl⟩⟩

/-- What is sent. -/
theorem hyperExecCommand_sent {env : CommandEnv} {id : String}
    (hid : config.optargContainerId = some id)
    (h : hyperExecCommand env config = (config', some message)) :
    StartsProcess id config.oci.process message ∧
      ∃ vars, config' = { config with oci.process.env := vars } := by
  obtain ⟨vars, hvars, hstart⟩ := setEnvHome_eq env config
  by_cases hproxy : config.proxy.isNone = true
  · rw [hyperExecCommand, if_pos hproxy] at h
    cases h
  by_cases hstreams : config.oci.process.stdioStream < 0 ∨ config.oci.process.stderrStream < 0
  · rw [hyperExecCommand, if_neg hproxy, if_pos hstreams] at h
    cases h
  rw [hyperExecCommand, if_neg hproxy, if_neg hstreams] at h
  rw [not_or, Int32.not_lt, Int32.not_lt] at hstreams
  simp only [hvars, Prod.mk.injEq, Option.map_eq_some_iff, envsArray] at h
  obtain ⟨rfl, envs, ⟨es, hes, rfl⟩, rfl⟩ := h
  let process : Json := .obj (processFields config.oci.process ++
    (if config.oci.process.cwd.text = "" then []
      else [("workdir", .str config.oci.process.cwd.text)]) ++
    processArrays config.oci.process (.arr (es.map envVar)))
  refine ⟨⟨hstreams, process, vars.getD [], es, ?_⟩, vars, rfl⟩
  by_cases hcwd : config.oci.process.cwd.text = "" <;>
    simp [process, sentProcess, hyperMessage, hid, jsonText, processFields, processArrays,
      Json.find_cons, hcwd, hstart, hes]

/-- How no shim is started. -/
theorem shimLaunch_none {env : ShimEnv} (hproxy : config.proxy.isNone = false)
    (h : (shimLaunch env config).1 = none) :
    env.channels = true ∧ env.fork = none ∧ (shimLaunch env config).2 = -1 ∨
      env.channels = false ∧ (shimLaunch env config).2 = config.state.workloadPid := by
  have hnot : ¬ config.proxy.isNone = true := by simp [hproxy]
  rw [shimLaunch, if_neg hnot] at h ⊢
  cases hchannels : env.channels with
  | false =>
    refine .inr ⟨rfl, ?_⟩
    rw [if_pos]
    revert hchannels
    rw [ShimEnv.channels]
    cases env.errPipe <;> cases env.argsPipe <;> cases env.socketpair <;> cases env.flock <;> simp
  | true =>
    have hall : ¬ (¬ env.errPipe ∨ ¬ env.argsPipe ∨ ¬ env.socketpair ∨ ¬ env.flock) := by
      simpa [ShimEnv.channels, and_assoc] using hchannels
    rw [if_neg hall] at h ⊢
    cases hfork : env.fork with
    | none => exact .inl ⟨rfl, rfl, rfl⟩
    | some pid =>
      rw [hfork] at h
      cases h

/-- The process that is started, with its streams. -/
def OciCfgProcess.onStreams (p : OciCfgProcess) (ioBase : Int32) : OciCfgProcess :=
  { p with stdioStream := ioBase, stderrStream := if p.terminal then 0 else ioBase + 1 }

/-- Nothing was started. -/
def ExecRun.Idle (run : ExecRun) : Prop :=
  run.ok = false ∧ run.accepted = none ∧ run.shim = none ∧ run.signalled = none ∧
    run.pidFile = none

theorem ExecRun.idle_attached (a : Option String) : ({ attached := a } : ExecRun).Idle :=
  ⟨rfl, rfl, rfl, rfl, rfl⟩

/-- **The connection with a VM.** Nothing is started, or the agent has started the process before
the shim. -/
theorem vmConnect_cases {id : String} (hid : config.optargContainerId = some id)
    (h : vmConnect env config = (config', run)) :
    run.Idle ∨ ∃ ioBase message launched,
      env.ioBase = some ioBase ∧ run.attached = podContainerId config ∧
      run.accepted = some message ∧
      StartsProcess id (config.oci.process.onStreams ioBase) message ∧
      launched.proxy.isNone = false ∧ launched.state = config.state ∧
      run.shim = (shimLaunch env.shim launched).1 ∧
      config'.state.workloadPid = (shimLaunch env.shim launched).2 ∧
      run.signalled = (if run.shim.isSome && env.passes then none
        else some (shimLaunch env.shim launched).2) ∧
      run.pidFile = none ∧
      run.ok = (run.shim.isSome && env.passes &&
        (!(env.command.isTty && !config.detachedMode) || env.exitCode == 0)) := by
  have hidle : ∀ {c : Config} {a : Option String},
      (c, ({ attached := a } : ExecRun)) = (config', run) → run.Idle := by
    intro c a heq
    obtain ⟨-, rfl⟩ := Prod.mk.inj heq
    exact ExecRun.idle_attached a
  rw [vmConnect] at h
  by_cases hconnected : config.proxy.isNone ∨ ¬ env.command.connected
  · rw [if_pos hconnected] at h
    exact .inl (hidle h)
  rw [if_neg hconnected] at h
  cases htarget : podContainerId config with
  | none =>
    rw [htarget] at h
    exact .inl (hidle h)
  | some target =>
  simp only [htarget] at h
  by_cases hattached : ¬ env.command.attached
  · rw [if_pos hattached] at h
    exact .inl (hidle h)
  rw [if_neg hattached] at h
  cases hbase : env.ioBase with
  | none =>
    rw [hbase] at h
    exact .inl (hidle h)
  | some ioBase =>
  simp only [hbase] at h
  rcases hsent : hyperExecCommand env.command (config.withStreams ioBase) with
    ⟨launched, _ | message⟩
  · rw [hsent] at h
    exact .inl (hidle h)
  simp only [hsent] at h
  by_cases haccepted : ¬ env.command.hyperCmd
  · rw [if_pos haccepted] at h
    exact .inl (hidle h)
  rw [if_neg haccepted] at h
  obtain ⟨hstarts, vars, rfl⟩ := hyperExecCommand_sent
    (show (config.withStreams ioBase).optargContainerId = some id from hid) hsent
  obtain ⟨rfl, rfl⟩ := Prod.mk.inj h
  refine .inr ⟨ioBase, message, _, rfl, rfl, rfl, hstarts, ?_, rfl, rfl, rfl, rfl, rfl,
    rfl⟩
  exact Bool.eq_false_iff.2 fun hnone => hconnected (.inl hnone)

/-- The process is the one of the command line, or what the handler of the section makes of the
process file, whatever it says about it. -/
def ExecOptions.CommandProcess (opts : ExecOptions) (env : CommandEnv) (process : OciCfgProcess) :
    Prop :=
  match opts.process with
  | none => process = (execConfig opts env).oci.process
  | some file => ∃ root ok, file = some root ∧
    processHandleSection (execConfig opts env).oci.process root = some (process, ok)

/-- The configuration with which the command connects. -/
structure Connects (opts : ExecOptions) (env : ExecEnv) (st : OciState) (config : Config) :
    Prop where
  id : config.optargContainerId = some opts.containerId
  pod : config.pod = st.pod
  pid : config.state.workloadPid = st.pid
  attachMode : config.detachedMode = false
  process : opts.CommandProcess env.command config.oci.process

/-- The state file gives the bundle and the state of the container, and in it the process ID. -/
theorem getConfigAndState_exec {st : OciState}
    (h : getConfigAndState (execConfig opts env.command) file = some (config, st)) :
    file.bind stateFileRead = some st ∧ ∃ bundlePath state,
      config = { execConfig opts env.command with bundlePath, state } ∧
        state.workloadPid = st.pid := by
  rw [getConfigAndState] at h
  split at h
  · next id st' hid hread =>
    split at h
    · cases h
      exact ⟨hread, _, _, rfl, rfl⟩
    · cases h
  · cases h

/-- **The command** starts nothing, or connects with what the options and the state file say. -/
theorem handlerExec_cases (h : handlerExec opts env file = some run) :
    run.Idle ∨ ∃ st config, file.bind stateFileRead = some st ∧ Connects opts env st config ∧
      run = (vmConnect env config).2.writePidfile env
        (vmConnect env config).1.state.workloadPid opts.pidFile := by
  have hidle : ∀ {run : ExecRun}, some {} = some run → run.Idle := by
    intro run heq
    obtain rfl := Option.some.inj heq
    exact ExecRun.idle_attached none
  rw [handlerExec] at h
  by_cases husage : opts.args = [] ∧ opts.process = none
  · rw [if_pos husage] at h
    exact .inl (hidle h)
  rw [if_neg husage] at h
  rcases hstate : getConfigAndState (execConfig opts env.command) file with _ | ⟨config, st⟩
  · rw [hstate] at h
    exact .inl (hidle h)
  simp only [hstate] at h
  obtain ⟨hread, bundlePath, state, rfl, hpid⟩ := getConfigAndState_exec hstate
  have hwith : ∀ process, opts.CommandProcess env.command process →
      Connects opts env st
        { execConfig opts env.command with
          bundlePath, state, console := opts.console, oci.process := process,
          pod := st.pod.or none } := fun process hsame =>
    ⟨rfl, Option.or_none, hpid, rfl, hsame⟩
  rw [ociExec] at h
  cases hfile : opts.process with
  | none =>
    rw [hfile] at h
    obtain rfl := Option.some.inj h
    exact .inr ⟨st, _, hread, hwith _ (by rw [ExecOptions.CommandProcess, hfile]), rfl⟩
  | some root =>
    simp only [hfile, Option.map_eq_some_iff] at h
    obtain ⟨_ | process, hsection, rfl⟩ := h
    · exact .inl (ExecRun.idle_attached none)
    · refine .inr ⟨st, _, hread, hwith process ?_, rfl⟩
      rw [ExecOptions.CommandProcess, hfile]
      cases root with
      | none => cases hsection
      | some root =>
        obtain ⟨⟨p, ok⟩, hp, hsame⟩ := Option.map_eq_some_iff.1 hsection
        obtain rfl := Option.some.inj hsame
        exact ⟨root, ok, rfl, hp⟩

/-- Writing the pid file changes the result at most. -/
theorem ExecRun.writePidfile_same (run : ExecRun) (env : ExecEnv) (pid : Int32)
    (path : Option String) :
    (run.writePidfile env pid path).accepted = run.accepted ∧
      (run.writePidfile env pid path).attached = run.attached ∧
      (run.writePidfile env pid path).shim = run.shim ∧
      (run.writePidfile env pid path).signalled = run.signalled ∧
      ((run.writePidfile env pid path).ok = true → run.ok = true ∧
        (run.pidFile = none →
          (run.writePidfile env pid path).pidFile = path.map fun path => (path, pid))) := by
  cases path with
  | none => exact ⟨rfl, rfl, rfl, rfl, fun hok => ⟨hok, fun hnone => hnone⟩⟩
  | some path =>
    rw [writePidfile]
    split_ifs with hok
    · exact ⟨rfl, rfl, rfl, rfl, fun htrue => by simp [hok] at htrue⟩
    · exact ⟨rfl, rfl, rfl, rfl, fun _ => ⟨by simpa using hok, fun _ => rfl⟩⟩
    · exact ⟨rfl, rfl, rfl, rfl, fun htrue => by cases htrue⟩

/-- **Whom the command signals.** Before the agent has accepted the process nothing is started
and nobody is signalled. Afterwards the process runs in the container, and what is signalled is the
new shim, if there is one and it did not get through; if it could not be forked, every process that
the runtime may signal; and if its channels could not be made, the shim of the container itself. -/
theorem handlerExec_signals (opts : ExecOptions) (env : ExecEnv) (file : Option Json)
    (run : ExecRun) (h : handlerExec opts env file = some run) :
    run.accepted = none ∧ run.shim = none ∧ run.signalled = none ∨
    run.accepted ≠ none ∧
      ((∃ shim, run.shim = some shim ∧
          run.signalled = if env.passes then none else some shim.1) ∨
        run.shim = none ∧
          (env.shim.channels = true ∧ env.shim.fork = none ∧ run.signalled = some (-1) ∨
            env.shim.channels = false ∧
              ∃ st, file.bind stateFileRead = some st ∧ run.signalled = some st.pid)) := by
  rcases handlerExec_cases h with
    ⟨-, haccepted, hshim, hsignalled, -⟩ | ⟨st, config, hread, hc, rfl⟩
  · exact .inl ⟨haccepted, hshim, hsignalled⟩
  rcases hconnect : vmConnect env config with ⟨config', run⟩
  obtain ⟨haccepted', -, hshim', hsignalled', -⟩ :=
    run.writePidfile_same env config'.state.workloadPid opts.pidFile
  rw [haccepted', hshim', hsignalled']
  obtain ⟨-, haccepted, hshim, hsignalled, -⟩ | ⟨ioBase, message, launched, -, -, haccepted, -,
    hproxy, hstate, hshim, -, hsignalled, -, -⟩ := vmConnect_cases hc.id hconnect
  · exact .inl ⟨haccepted, hshim, hsignalled⟩
  refine .inr ⟨by simp [haccepted], ?_⟩
  cases hlaunch : (shimLaunch env.shim launched).1 with
  | some shim =>
    rw [hlaunch] at hshim
    rw [hshim, shimLaunch_snd hlaunch] at hsignalled
    exact .inl ⟨shim, hshim, hsignalled⟩
  | none =>
    rw [hlaunch] at hshim
    rw [hshim] at hsignalled
    refine .inr ⟨hshim, ?_⟩
    rcases shimLaunch_none hproxy hlaunch with ⟨hchannels, hfork, hpid⟩ | ⟨hchannels, hpid⟩
    · exact .inl ⟨hchannels, hfork, by rw [hsignalled, hpid]; rfl⟩
    · refine .inr ⟨hchannels, st, hread, ?_⟩
      rw [hsignalled, hpid, hstate, hc.pid]
      rfl

end

/-- The command `sh`, with a pid file. -/
def shOptions : ExecOptions := { containerId := "c1", args := ["sh"], pidFile := some "/run/sh" }

/-- The state file of a container whose shim has the process ID 11. -/
def runningFile : Json :=
  stateFileWith "running" [("ctlSocket", .str "/ctl"), ("ioSocket", .str "/io")]

/-- The shim would be process 9; all calls succeed, except that the pipe for its arguments may not
be made. -/
def willingExec (argsPipe : Bool) : ExecEnv where
  command := { saved := fun _ => true }
  ioBase := some 3
  shim :=
    { errPipe := true
      argsPipe
      socketpair := true
      flock := true
      fork := some ⟨9, by decide⟩
      child := .exec
      readable := true }

/-- Without the pipe, the shim of the container is signalled. -/
theorem handlerExec_signals_container :
    ∃ run, handlerExec shOptions (willingExec false) (some runningFile) = some run ∧
      run.accepted ≠ none ∧ run.shim = none ∧ run.signalled = some 11 := by
  obtain ⟨run, hrun, haccepted, hshim⟩ : ∃ run, handlerExec shOptions (willingExec false)
      (some runningFile) = some run ∧ run.accepted.isSome = true ∧ run.shim = none :=
    ⟨_, rfl, rfl, rfl⟩
  have hsome := Option.isSome_iff_ne_none.1 haccepted
  refine ⟨run, hrun, hsome, hshim, ?_⟩
  rcases handlerExec_signals _ _ _ run hrun with ⟨hnone, -⟩ | ⟨-, hcases⟩
  · exact absurd hnone hsome
  rcases hcases with ⟨shim, hshim', -⟩ | ⟨-, ⟨hchannels, -⟩ | ⟨-, st, hread, hsignalled⟩⟩
  · rw [hshim] at hshim'
    cases hshim'
  · cases hchannels
  · have hpid : ((some runningFile).bind stateFileRead).map OciState.pid = some 11 := rfl
    rw [hread] at hpid
    exact hsignalled.trans hpid

end Runtime

end CcOciRuntime
