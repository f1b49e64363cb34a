import CcOciRuntime.Runtime.Launch
import CcOciRuntime.Runtime.StateRoundTrip

/-!
# What a failed launch leaves behind

A launch should be all or nothing: either every step succeeds, or the caller sees a failure and the
shim is killed (`AllOrNothing`). The result variable is true from the first write of the state file
on, so that a later step that leaves by `out` without clearing it reports success. A step is
*handled* when its failure is reported and the shim killed; `vmLaunch_allOrNothing_iff` says that a
launch is all or nothing exactly when nothing fails or the failure that ends it is a handled one.
Some failures end nothing: a child that dies without a report, and a missing file monitor, for which
the hello is left out.

Reference: `cc_oci_vm_launch` (`src/process.c:859`).
-/

namespace CcOciRuntime

namespace Runtime

/-! ## Failures -/

/-- The failures that end a launch at the step, by the answers of the environment and the
configuration that the launch is given. -/
def noticed (env : LaunchEnv) (config : Config) : LaunchStep → Bool
  | .timestamp => env.timestamp.isNone
  | .connect => !(config.proxy.isSome && env.connected)
  | .attach => !env.attached
  | .childErrPipe => !env.childErrPipe
  | .hypervisorArgsPipe => !env.hypervisorArgsPipe
  | .fork => env.fork.isNone
  | .shimLaunch => (shimLaunch env.shim config).1.isNone
  | .stateFile => (stateFileCreate (config.withStatus .created) env.timestamp env.saved).isNone
  | .prestartHooks => false
  | .netlinkInit => !(!env.networking || env.netlink)
  | .netcfgGet => !(!env.networking || env.netcfg)
  | .networkCreate => !(!env.networking || env.network)
  | .vmArgsGet => !(config.proxy.isSome && env.vmArgs)
  | .joinArgs => !env.joined
  | .writeArgsLen => !env.argsLenWritten
  | .writeArgs => !env.argsWritten
  | .childSetup => decide (env.child = .reported) && env.readable
  | .waitUntilReady =>
    match env.ctlSocket with
    | .present | .appears => !env.hello
    | .unmonitored => false
    | .never => true
  | .hyperPodCreate => !env.startpod
  | .proxyFd => !env.proxyFd
  | .writeProxyFd => !env.proxyFdWritten
  | .allocateIo => env.ioBase.isNone
  | .writeIoBase => !env.ioBaseWritten
  | .socketConnection => !env.shimConnection
  | .sendFd => !env.fdSent
  | .shimSetup => decide (env.shim.child = .reported) && env.shim.readable
  | .recreateStateFile =>
    (stateFileCreate (config.withStatus .created) env.timestamp env.resaved).isNone
  | .disconnect => false
  | .pidFile =>
    match config.pidFile with
    | none => false
    | some path => !(decide (path.toList.head? = some '/') && env.pidFileWritten)

/-- The failures that a launch goes past: those of a child whose report does not arrive, and the
hello that is not sent. -/
def missed (env : LaunchEnv) : LaunchStep → Bool
  | .childSetup => decide (env.child = .silent) || decide (env.child = .reported) && !env.readable
  | .waitUntilReady => decide (env.ctlSocket = .unmonitored)
  | .shimSetup =>
    decide (env.shim.child = .silent) || decide (env.shim.child = .reported) && !env.shim.readable
  | _ => false

/-- Every step of the launch succeeds. -/
def Succeeds (env : LaunchEnv) (config : Config) : Prop :=
  ∀ k ∈ launchSteps, noticed env config k = false ∧ missed env k = false

/-- The steps whose failure leaves with the result variable false, or by the plain return. -/
def handledSteps : List LaunchStep :=
  [.timestamp, .connect, .childErrPipe, .hypervisorArgsPipe, .fork, .shimLaunch, .stateFile,
    .vmArgsGet, .childSetup, .sendFd, .shimSetup, .recreateStateFile, .pidFile]

/-- The launch is ended by a failure that is handled. Without a pid file, a failed disconnection at
the very end is one. -/
def FailsHandled (env : LaunchEnv) (config : Config) : Prop :=
  match launchSteps.find? (noticed env config) with
  | some k => k ∈ handledSteps
  | none => config.pidFile = none ∧ env.disconnected = false

/-- The caller sees a failure, and the shim is killed if there is one. -/
def Launch.Nothing (l : Launch) : Prop :=
  l.ending = .returned false ∧ ∀ pid, l.regs.shim = some pid → l.killed = some pid.1

/-- A launch that reports success only when every step succeeds, and that otherwise reports a
failure after it has killed the shim, if there is one. -/
def AllOrNothing (env : LaunchEnv) (config : Config) : Prop :=
  ((vmLaunch env config).ending = .returned true → Succeeds env config) ∧
  (¬ Succeeds env config → (vmLaunch env config).Nothing)

/-! ## What the steps keep of the configuration -/

/-- Two configurations that can be written to a state file together. -/
structure Config.SameParts (c c' : Config) : Prop where
  id : c.optargContainerId = c'.optargContainerId
  bundlePath : c.bundlePath = c'.bundlePath
  runtimePath : c.state.runtimePath = c'.state.runtimePath
  commsPath : c.state.commsPath = c'.state.commsPath
  procsockPath : c.state.procsockPath = c'.state.procsockPath
  args : c.oci.process.args = c'.oci.process.args
  cwd : c.oci.process.cwd = c'.oci.process.cwd
  vm : c.vm.isSome = c'.vm.isSome
  proxy : c.proxy.isSome = c'.proxy.isSome

section
variable {env : LaunchEnv} {config c c' : Config} {k : LaunchStep} {pre post : List LaunchStep}
  {s : Launching}

/-- The same parts are found. -/
theorem Config.SameParts.exists_parts {created : Option String} {parts : StateParts}
    (h : c.SameParts c') (hstatus : c.state.status = c'.state.status)
    (hparts : parts.Of c created) :
    ∃ parts' : StateParts, parts'.Of c' created := by
  obtain ⟨args, hargs, hcwd, -⟩ := processToJson_eq_some.1 hparts.process
  obtain ⟨vm, hvm⟩ : ∃ vm, c'.vm = some vm := by
    rw [← Option.isSome_iff_exists, ← h.vm, hparts.vm, Option.isSome_some]
  obtain ⟨proxy, hproxy⟩ : ∃ proxy, c'.proxy = some proxy := by
    rw [← Option.isSome_iff_exists, ← h.proxy, hparts.proxy, Option.isSome_some]
  refine ⟨{ parts with vm, proxy, process := .obj (processMembers c'.oci.process args) },
    h.id ▸ hparts.id, hparts.id_ne, h.bundlePath ▸ hparts.bundlePath,
    h.runtimePath ▸ hparts.runtimePath, h.commsPath ▸ hparts.commsPath,
    h.procsockPath ▸ hparts.procsockPath, hparts.created, hstatus ▸ hparts.status, ?_, hvm, hproxy⟩
  exact processToJson_eq_some.2 ⟨args, h.args ▸ hargs, h.cwd ▸ hcwd, rfl⟩

theorem Config.SameParts.symm (h : c.SameParts c') : c'.SameParts c :=
  ⟨h.id.symm, h.bundlePath.symm, h.runtimePath.symm, h.commsPath.symm, h.procsockPath.symm,
    h.args.symm, h.cwd.symm, h.vm.symm, h.proxy.symm⟩

/-- When the state file is written. -/
theorem isNone_stateFileCreate_iff {created : Option String} {saved : Bool} :
    (stateFileCreate c created saved).isNone = false ↔
      saved = true ∧ ∃ parts : StateParts, parts.Of c created := by
  cases saved with
  | false => simp [stateFileCreate]
  | true =>
    simp only [stateFileCreate, stateDocument, if_true, Option.isNone_map, true_and]
    rw [Option.isNone_eq_false_iff, Option.isSome_iff_exists]
    exact exists_congr fun parts => stateParts_eq_some

/-- Whether a state file can be written is the same for both. -/
theorem Config.SameParts.isNone_stateFileCreate (h : c.SameParts c')
    (hstatus : c.state.status = c'.state.status) (created : Option String) (saved : Bool) :
    (stateFileCreate c created saved).isNone = (stateFileCreate c' created saved).isNone := by
  rw [← Bool.not_inj_iff, Bool.eq_iff_iff, Bool.not_eq_true', Bool.not_eq_true',
    isNone_stateFileCreate_iff, isNone_stateFileCreate_iff]
  refine and_congr_right fun _ => ⟨?_, ?_⟩
  · rintro ⟨parts, hparts⟩
    exact h.exists_parts hstatus hparts
  · rintro ⟨parts, hparts⟩
    exact h.symm.exists_parts hstatus.symm hparts

/-! ## The registers along a launch -/

/-- The result variable after the steps `pre`: it is true from the first state file on, until the
disconnection sets it. -/
def retAt (env : LaunchEnv) (config : Config) (pre : List LaunchStep) : Bool :=
  if .disconnect ∈ pre then env.disconnected || config.pidFile.isSome && decide (.pidFile ∈ pre)
  else decide (.stateFile ∈ pre)

/-- What holds of the registers after the steps `pre`. -/
structure Launching.At (env : LaunchEnv) (config : Config) (pre : List LaunchStep) (s : Launching) :
    Prop where
  ret : s.ret = retAt env config pre
  shim : s.shim.isSome = decide (.shimLaunch ∈ pre)
  pid : ∀ pid, s.shim = some pid → s.config.state.workloadPid = pid.1
  status : .connect ∈ pre → s.config.state.status = .created
  socket : .vmArgsGet ∈ pre → (s.config.proxy.bind CcProxy.agentCtlSocket).isSome
  same : s.config.SameParts config
  pidFile : s.config.pidFile = config.pidFile

theorem mem_snoc {j : LaunchStep} (hne : j ≠ k) : j ∈ pre ++ [k] ↔ j ∈ pre := by
  simp [hne]

theorem retAt_snoc (h : k ∉ [.stateFile, .disconnect, .pidFile]) :
    retAt env config (pre ++ [k]) = retAt env config pre := by
  simp only [List.mem_cons, List.not_mem_nil, or_false, not_or] at h
  obtain ⟨hstate, hdisconnect, hpid⟩ := h
  simp only [retAt, mem_snoc (Ne.symm hstate), mem_snoc (Ne.symm hdisconnect),
    mem_snoc (Ne.symm hpid)]

/-- A step that sets the result variable and writes the state file, at most. -/
theorem Launching.At.snoc_ret (h : s.At env config pre)
    (hk : k ∉ [.connect, .shimLaunch, .vmArgsGet]) (ret : Bool) (writes : List Json)
    (hret : ret = retAt env config (pre ++ [k])) :
    { s with ret, writes }.At env config (pre ++ [k]) := by
  simp only [List.mem_cons, List.not_mem_nil, or_false, not_or] at hk
  obtain ⟨hconnect, hshim, hargs⟩ := hk
  refine ⟨hret, ?_, h.pid, ?_, ?_, h.same, h.pidFile⟩
  · simp only [mem_snoc (Ne.symm hshim)]
    exact h.shim
  · rw [mem_snoc (Ne.symm hconnect)]
    exact h.status
  · rw [mem_snoc (Ne.symm hargs)]
    exact h.socket

/-- A step that leaves the registers as they are. -/
theorem Launching.At.snoc (h : s.At env config pre)
    (hk : k ∉ [.connect, .shimLaunch, .vmArgsGet, .stateFile, .disconnect, .pidFile]) :
    s.At env config (pre ++ [k]) := by
  refine h.snoc_ret ?_ s.ret s.writes ?_
  · simp only [List.mem_cons, not_or] at hk ⊢
    exact ⟨hk.1, hk.2.1, hk.2.2.1, List.not_mem_nil⟩
  · rw [retAt_snoc, h.ret]
    simp only [List.mem_cons, not_or] at hk ⊢
    exact hk.2.2.2

theorem Launching.check_ok {ok : Bool} {exit : LaunchExit} (hok : ok = true) :
    s.check ok exit = .ok s := by
  subst hok
  rfl

theorem Launching.check_error {ok : Bool} {exit : LaunchExit} (hok : ok = false) :
    s.check ok exit = .error (exit, s) := by
  subst hok
  rfl

/-- The steps before a step of the launch. -/
theorem eq_before (hpre : launchSteps = pre ++ k :: post) :
    pre = launchSteps.takeWhile (· ≠ k) :=
  eq_takeWhile_of_nodup (by decide) hpre

/-- A write of the state file, when the file can be written. -/
theorem Launching.writeState_ok (h : s.config.SameParts config)
    (hstatus : s.config.state.status = .created) {saved : Bool}
    (hk : (stateFileCreate (config.withStatus .created) env.timestamp saved).isNone = false) :
    ∃ doc, s.writeState env.timestamp saved =
      .ok { s with ret := true, writes := s.writes ++ [doc] } := by
  have hsame : s.config.SameParts (config.withStatus .created) := { h with }
  rw [← hsame.isNone_stateFileCreate hstatus, Option.isNone_eq_false_iff] at hk
  obtain ⟨doc, hdoc⟩ := Option.isSome_iff_exists.1 hk
  exact ⟨doc, by rw [Launching.writeState, hdoc]; rfl⟩

theorem Launching.writeState_error (h : s.config.SameParts config)
    (hstatus : s.config.state.status = .created) {saved : Bool}
    (hk : (stateFileCreate (config.withStatus .created) env.timestamp saved).isNone = true) :
    s.writeState env.timestamp saved = .error (.out, { s with ret := false }) := by
  have hsame : s.config.SameParts (config.withStatus .created) := { h with }
  rw [← hsame.isNone_stateFileCreate hstatus, Option.isNone_iff_eq_none] at hk
  rw [Launching.writeState, hk]
  rfl

theorem shimLaunch_congr (h : c.proxy.isSome = c'.proxy.isSome) (env : ShimEnv) :
    (shimLaunch env c).1 = (shimLaunch env c').1 := by
  unfold shimLaunch
  rw [← Option.not_isSome, ← Option.not_isSome, h]
  split_ifs
  · rfl
  · rfl
  · cases env.fork <;> rfl

theorem isSome_shimLaunch (h : c.proxy.isSome = config.proxy.isSome) :
    (shimLaunch env.shim c).1.isSome = !noticed env config .shimLaunch := by
  rw [shimLaunch_congr h, noticed, Option.not_isNone]

theorem connected_eq (h : c.proxy.isSome = config.proxy.isSome) :
    (c.proxy.isSome && env.connected) = !noticed env config .connect := by
  rw [h, noticed, Bool.not_not]

/-- The process ID that is recorded is the shim's. -/
theorem shimLaunch_snd {env : ShimEnv} {pid : Pid} (h : (shimLaunch env c).1 = some pid) :
    (shimLaunch env c).2 = pid.1 := by
  unfold shimLaunch at h ⊢
  split_ifs at h ⊢
  revert h
  cases env.fork with
  | none => intro h; cases h
  | some pid' => intro h; cases h; rfl

/-! ### Single steps

What a step does is said once, by whether its failure is noticed. -/

theorem Launching.checkChild_eq (child : ChildEnd) (readable : Bool) :
    s.checkChild (child.bytes readable) =
      if decide (child = .reported) && readable then .error (.out, { s with ret := false })
      else .ok s := by
  cases child <;> cases readable <;> rfl

theorem Launching.At.runStep_vmArgsGet (h : s.At env config pre) :
    runStep env s .vmArgsGet =
      if noticed env config .vmArgsGet then .error (.out, { s with ret := false })
      else .ok { s with ret := true, config := s.config.withSockets } := by
  rw [runStep, noticed, h.same.proxy]
  cases config.proxy.isSome && env.vmArgs <;> rfl

theorem runStep_sendFd (env : LaunchEnv) (config : Config) (s : Launching) :
    runStep env s .sendFd =
      if noticed env config .sendFd then .error (.out, { s with ret := false })
      else .ok { s with ret := true, config := s.config.withStreams (env.ioBase.getD (-1)) } := by
  rw [runStep, noticed]
  cases env.fdSent <;> rfl

/-- The wait for the control socket, which building the arguments has set. -/
theorem Launching.At.runStep_waitUntilReady (h : s.At env config pre) (hargs : .vmArgsGet ∈ pre) :
    runStep env s .waitUntilReady =
      if noticed env config .waitUntilReady then
        .error (if env.ctlSocket = .never then .blocked else .out, s)
      else .ok s := by
  obtain ⟨path, hpath⟩ := Option.isSome_iff_exists.1 (h.socket hargs)
  cases hsocket : env.ctlSocket <;> cases hhello : env.hello <;>
    simp [runStep, noticed, waitUntilReady, Launching.check, hpath, hsocket, hhello]

/-- The pid file, which is written for a shim that has been launched. -/
theorem runStep_pidFile (hpid : 0 < s.config.state.workloadPid)
    (hfile : s.config.pidFile = config.pidFile) :
    runStep env s .pidFile =
      if noticed env config .pidFile then .error (.out, { s with ret := false })
      else .ok { s with ret := s.ret || config.pidFile.isSome } := by
  rw [runStep, noticed, hfile]
  cases config.pidFile with
  | none => simp
  | some path =>
    have hok : createPidfile path s.config.state.workloadPid env.pidFileWritten =
        (decide (path.toList.head? = some '/') && env.pidFileWritten) := by
      rw [createPidfile, decide_eq_true hpid, Bool.and_true]
    simp only [hok, Option.isSome_some, Bool.or_true]
    cases decide (path.toList.head? = some '/') && env.pidFileWritten <;> rfl

/-- A launched shim has a PID. -/
theorem Launching.At.pid_pos (h : s.At env config pre) (hshim : .shimLaunch ∈ pre) :
    0 < s.config.state.workloadPid := by
  have hsome := h.shim
  rw [decide_eq_true hshim] at hsome
  obtain ⟨pid, hpid⟩ := Option.isSome_iff_exists.1 hsome
  rw [h.pid pid hpid]
  exact pid.2

/-- **One step that goes on.** -/
theorem runStep_goes (hpre : launchSteps = pre ++ k :: post) (h : s.At env config pre)
    (hk : noticed env config k = false) :
    ∃ s', runStep env s k = .ok s' ∧ s'.At env config (pre ++ [k]) := by
  have hbefore := eq_before hpre
  have hnot : ¬ noticed env config k = true := by rw [hk]; decide
  cases k with
  | timestamp | attach | childErrPipe | hypervisorArgsPipe | netlinkInit | netcfgGet | networkCreate
  | joinArgs | writeArgsLen | writeArgs | hyperPodCreate | proxyFd | writeProxyFd | allocateIo
  | writeIoBase | socketConnection =>
    refine ⟨s, Launching.check_ok ?_, h.snoc (by decide)⟩
    simpa only [noticed, Bool.not_eq_false', Option.isNone_eq_false_iff] using hk
  | prestartHooks => exact ⟨s, rfl, h.snoc (by decide)⟩
  | connect =>
    have hok : (s.config.proxy.isSome && env.connected) = true := by
      rw [connected_eq h.same.proxy, hk, Bool.not_false]
    refine ⟨_, Launching.check_ok hok, ?_, ?_, h.pid, fun _ => rfl, ?_, { h.same with }, h.pidFile⟩
    · rw [retAt_snoc (by decide)]
      exact h.ret
    · simp only [mem_snoc (show LaunchStep.shimLaunch ≠ .connect by decide)]
      exact h.shim
    · rw [mem_snoc (by decide)]
      exact h.socket
  | fork =>
    have hnext := h.snoc (k := .fork) (by decide)
    refine ⟨_, Launching.check_ok (by simpa [noticed] using hk), ?_⟩
    exact { hnext with
      same := { h.same with vm := by simpa [Config.withVmPid] using h.same.vm } }
  | shimLaunch =>
    have hshim : (shimLaunch env.shim s.config).1.isSome = true := by
      rw [isSome_shimLaunch h.same.proxy, hk, Bool.not_false]
    refine ⟨{ s with shim := (shimLaunch env.shim s.config).1
                     config := s.config.withWorkloadPid (shimLaunch env.shim s.config).2 },
      Launching.check_ok hshim, ?_, ?_, ?_, ?_, ?_, { h.same with }, h.pidFile⟩
    · rw [retAt_snoc (by decide)]
      exact h.ret
    · simpa using hshim
    · intro pid hpid
      exact shimLaunch_snd hpid
    · rw [mem_snoc (by decide)]
      exact h.status
    · rw [mem_snoc (by decide)]
      exact h.socket
  | stateFile | recreateStateFile =>
    obtain ⟨doc, hdoc⟩ := Launching.writeState_ok h.same (h.status (by subst hbefore; decide)) hk
    exact ⟨_, hdoc, h.snoc_ret (by decide) _ _ (by subst hbefore; rfl)⟩
  | vmArgsGet =>
    have hproxy : s.config.proxy.isSome = true := by
      rw [h.same.proxy]
      simp only [noticed, Bool.not_eq_false', Bool.and_eq_true] at hk
      exact hk.1
    obtain ⟨proxy, hproxy⟩ := Option.isSome_iff_exists.1 hproxy
    refine ⟨_, h.runStep_vmArgsGet.trans (if_neg hnot), ?_, ?_, h.pid, ?_, ?_, ?_, h.pidFile⟩
    · subst hbefore
      rfl
    · simp only [mem_snoc (show LaunchStep.shimLaunch ≠ .vmArgsGet by decide)]
      exact h.shim
    · rw [mem_snoc (by decide)]
      exact h.status
    · intro _
      simp [Config.withSockets, hproxy]
    · exact { h.same with proxy := by simpa [Config.withSockets] using h.same.proxy }
  | childSetup | shimSetup =>
    exact ⟨s, (Launching.checkChild_eq _ _).trans (if_neg hnot), h.snoc (by decide)⟩
  | waitUntilReady =>
    have hargs : LaunchStep.vmArgsGet ∈ pre := by subst hbefore; decide
    exact ⟨s, (h.runStep_waitUntilReady hargs).trans (if_neg hnot), h.snoc (by decide)⟩
  | sendFd =>
    have hnext := h.snoc (k := .sendFd) (by decide)
    refine ⟨_, (runStep_sendFd env config s).trans (if_neg hnot), ?_⟩
    exact { hnext with
      ret := by subst hbefore; rfl
      same := { h.same with } }
  | disconnect =>
    refine ⟨_, rfl, h.snoc_ret (by decide) _ s.writes ?_⟩
    subst hbefore
    change env.disconnected = (env.disconnected || config.pidFile.isSome && false)
    rw [Bool.and_false, Bool.or_false]
  | pidFile =>
    have hshim : LaunchStep.shimLaunch ∈ pre := by subst hbefore; decide
    refine ⟨_, (runStep_pidFile (h.pid_pos hshim) h.pidFile).trans (if_neg hnot),
      h.snoc_ret (by decide) _ s.writes ?_⟩
    rw [h.ret]
    subst hbefore
    change ((env.disconnected || config.pidFile.isSome && false) || config.pidFile.isSome) =
      (env.disconnected || config.pidFile.isSome && true)
    rw [Bool.and_false, Bool.or_false, Bool.and_true]

/-- An exit that is a failure to the caller, with the shim killed. -/
def Clean (exit : LaunchExit) (s : Launching) : Prop :=
  exit = .returned ∧ s.shim = none ∨
    exit = .out ∧ s.ret = false ∧ ∀ pid, s.shim = some pid → s.config.state.workloadPid = pid.1

/-- An exit that is not a failure to the caller. -/
def Unclean (exit : LaunchExit) (s : Launching) : Prop :=
  exit ≠ .returned ∧ (exit = .out → s.ret = true)

/-- **One step that stops.** -/
theorem runStep_stops (hpre : launchSteps = pre ++ k :: post) (h : s.At env config pre)
    (hk : noticed env config k = true) :
    ∃ exit s', runStep env s k = .error (exit, s') ∧
      if k ∈ handledSteps then Clean exit s' else Unclean exit s' := by
  have hbefore := eq_before hpre
  have hret := h.ret
  -- a result variable that a failed call has set
  have hassign : ∀ s' : Launching, s'.shim = s.shim →
      s'.config.state.workloadPid = s.config.state.workloadPid → s'.ret = false →
      Clean .out s' := by
    intro s' hshim hpid hfalse
    refine .inr ⟨rfl, hfalse, fun pid hp => ?_⟩
    rw [hpid, h.pid pid (hshim ▸ hp)]
  cases k with
  | timestamp | childErrPipe | hypervisorArgsPipe =>
    subst hbefore
    refine ⟨_, _, Launching.check_error ?_, hassign s rfl rfl hret⟩
    simpa [noticed] using hk
  | netlinkInit | netcfgGet | networkCreate =>
    refine ⟨_, _, Launching.check_error ?_, by decide, ?_⟩
    · simpa only [noticed, Bool.not_eq_true'] using hk
    · intro hout
      cases hout
  | joinArgs | writeArgsLen | writeArgs | hyperPodCreate | proxyFd | writeProxyFd | allocateIo
  | writeIoBase | socketConnection =>
    subst hbefore
    refine ⟨_, _, Launching.check_error ?_, by decide, fun _ => hret⟩
    simpa [noticed] using hk
  | attach =>
    have hmem : LaunchStep.attach ∈ launchSteps := by simp [hpre]
    exact absurd hmem (by decide)
  | prestartHooks | disconnect => cases hk
  | connect =>
    refine ⟨_, _, Launching.check_error ?_, .inl ⟨rfl, ?_⟩⟩
    · rw [connected_eq h.same.proxy, hk, Bool.not_true]
    · have hnone := h.shim
      subst hbefore
      exact Option.not_isSome_iff_eq_none.1 (Bool.eq_false_iff.1 hnone)
  | fork =>
    subst hbefore
    refine ⟨_, _, Launching.check_error ?_, hassign _ rfl rfl hret⟩
    simpa [noticed] using hk
  | shimLaunch =>
    have hfalse : (shimLaunch env.shim s.config).1.isSome = false := by
      rw [isSome_shimLaunch h.same.proxy, hk, Bool.not_true]
    subst hbefore
    refine ⟨_, _, Launching.check_error hfalse, .inr ⟨rfl, hret, fun pid hp => ?_⟩⟩
    have hnone : (shimLaunch env.shim s.config).1 = none := by
      simpa using hfalse
    cases hnone.symm.trans hp
  | stateFile | recreateStateFile =>
    exact ⟨_, _, Launching.writeState_error h.same (h.status (by subst hbefore; decide)) hk,
      hassign _ rfl rfl rfl⟩
  | vmArgsGet => exact ⟨_, _, h.runStep_vmArgsGet.trans (if_pos hk), hassign _ rfl rfl rfl⟩
  | sendFd => exact ⟨_, _, (runStep_sendFd env config s).trans (if_pos hk), hassign _ rfl rfl rfl⟩
  | childSetup | shimSetup =>
    exact ⟨_, _, (Launching.checkChild_eq _ _).trans (if_pos hk), hassign _ rfl rfl rfl⟩
  | waitUntilReady =>
    have hargs : LaunchStep.vmArgsGet ∈ pre := by subst hbefore; decide
    refine ⟨_, _, (h.runStep_waitUntilReady hargs).trans (if_pos hk), ?_, fun _ => ?_⟩
    · split <;> decide
    · subst hbefore
      exact hret
  | pidFile =>
    have hshim : LaunchStep.shimLaunch ∈ pre := by subst hbefore; decide
    exact ⟨_, _, (runStep_pidFile (h.pid_pos hshim) h.pidFile).trans (if_pos hk),
      hassign _ rfl rfl rfl⟩

/-- The registers when a launch starts. -/
theorem Launching.At.start (env : LaunchEnv) (config : Config) :
    Launching.At env config [] { config } :=
  ⟨rfl, rfl, fun _ h => (by cases h), fun h => (by cases h), fun h => (by cases h),
    ⟨rfl, rfl, rfl, rfl, rfl, rfl, rfl, rfl, rfl⟩, rfl⟩

/-! ## Whole launches -/

/-- **A whole launch.** It takes all its steps, or the first failure that is noticed ends it. -/
theorem launch_cases (env : LaunchEnv) (config : Config) :
    (launchSteps.find? (noticed env config) = none ∧
      ∃ s : Launching, s.At env config launchSteps ∧ vmLaunch env config = s.out) ∨
    ∃ k exit s, launchSteps.find? (noticed env config) = some k ∧
      launchSteps.foldlM (runStep env) { config } = .error (exit, s) ∧
      if k ∈ handledSteps then Clean exit s else Unclean exit s := by
  obtain ⟨hnone, s, hrun, hs⟩ | ⟨pre, k, post, s, hfind, hpre, hs, hrun⟩ :=
    foldlM_stages (runStep env) (noticed env config) (Launching.At env config) launchSteps [] _
      (.start env config) (fun pre k post s hpre hs hk => runStep_goes hpre hs hk)
  · refine .inl ⟨hnone, s, hs, ?_⟩
    rw [vmLaunch, hrun]
  · obtain ⟨exit, s', herror, hclean⟩ := runStep_stops hpre hs (List.find?_some hfind)
    exact .inr ⟨k, exit, s', hfind, hrun _ herror, hclean⟩

/-- The label `out`, reached with the result variable false. -/
theorem Launching.out_nothing (hret : s.ret = false)
    (hpid : ∀ pid, s.shim = some pid → s.config.state.workloadPid = pid.1) : s.out.Nothing := by
  refine ⟨congrArg LaunchEnd.returned hret, fun pid hp => ?_⟩
  have hpos : 0 < s.config.state.workloadPid := hpid pid hp ▸ pid.2
  change (if s.ret = false ∧ 0 < s.config.state.workloadPid then _ else _) = _
  rw [if_pos ⟨hret, hpos⟩, hpid pid hp]

/-- A failure that is handled. -/
theorem vmLaunch_of_clean {exit : LaunchExit}
    (hrun : launchSteps.foldlM (runStep env) { config } = .error (exit, s)) (h : Clean exit s) :
    (vmLaunch env config).Nothing := by
  rw [vmLaunch, hrun]
  obtain ⟨rfl, hshim⟩ | ⟨rfl, hret, hpid⟩ := h
  · refine ⟨rfl, fun pid hp => ?_⟩
    cases hshim.symm.trans hp
  · exact Launching.out_nothing hret hpid

/-- A failure that is not handled. -/
theorem vmLaunch_of_unclean {exit : LaunchExit}
    (hrun : launchSteps.foldlM (runStep env) { config } = .error (exit, s)) (h : Unclean exit s) :
    (vmLaunch env config).ending ≠ .returned false := by
  rw [vmLaunch, hrun]
  intro hending
  cases exit with
  | out =>
    have hret : s.ret = false := LaunchEnd.returned.inj hending
    cases (h.2 rfl).symm.trans hret
  | returned => exact h.1 rfl
  | childFailed | blocked => cases hending

/-- A launch that a failure ends returns `false` exactly when the failure is handled. -/
theorem vmLaunch_returned_false_iff (hfirst : launchSteps.find? (noticed env config) = some k) :
    (vmLaunch env config).ending = .returned false ↔ k ∈ handledSteps := by
  obtain ⟨hnone, -⟩ | ⟨k', exit, s, hfind, hrun, hclean⟩ := launch_cases env config
  · cases hnone.symm.trans hfirst
  · cases Option.some.inj (hfind.symm.trans hfirst)
    by_cases hk : k ∈ handledSteps
    · rw [if_pos hk] at hclean
      exact iff_of_true (vmLaunch_of_clean hrun hclean).1 hk
    · rw [if_neg hk] at hclean
      exact iff_of_false (vmLaunch_of_unclean hrun hclean) hk

/-- **When a launch is all or nothing.** For every pattern of successes and failures of the steps:
exactly when all steps succeed, or the failure that ends the launch is one that is handled. -/
theorem vmLaunch_allOrNothing_iff (env : LaunchEnv) (config : Config) :
    AllOrNothing env config ↔ Succeeds env config ∨ FailsHandled env config := by
  constructor
  · rintro ⟨-, hfail⟩
    refine or_iff_not_imp_left.2 fun hs => ?_
    have hnothing : (vmLaunch env config).Nothing := hfail hs
    unfold FailsHandled
    obtain ⟨hnone, s, hat, hlaunch⟩ | ⟨k, exit, s, hfind, hrun, hclean⟩ := launch_cases env config
    · -- no failure is noticed, and the result is that of the last two steps
      rw [hnone]
      have hret : (env.disconnected || config.pidFile.isSome && true) = false := by
        have hending := hnothing.1
        rw [hlaunch] at hending
        exact hat.ret.symm.trans (LaunchEnd.returned.inj hending)
      simp only [Bool.and_true, Bool.or_eq_false_iff, Option.isSome_eq_false_iff,
        Option.isNone_iff_eq_none] at hret
      exact hret.symm
    · rw [hfind]
      refine Decidable.byContradiction fun hk => ?_
      rw [if_neg hk] at hclean
      exact vmLaunch_of_unclean hrun hclean hnothing.1
  · rintro (hs | hhandled)
    · exact ⟨fun _ => hs, fun hns => absurd hs hns⟩
    · have hnothing : (vmLaunch env config).Nothing := by
        unfold FailsHandled at hhandled
        obtain ⟨hnone, s, hat, hlaunch⟩ | ⟨k, exit, s, hfind, hrun, hclean⟩ :=
          launch_cases env config
        · rw [hnone] at hhandled
          rw [hlaunch]
          refine Launching.out_nothing ?_ hat.pid
          have hret : s.ret = (env.disconnected || config.pidFile.isSome && true) := hat.ret
          rw [hret, hhandled.1, hhandled.2]
          rfl
        · rw [hfind] at hhandled
          rw [if_pos hhandled] at hclean
          exact vmLaunch_of_clean hrun hclean
      refine ⟨fun htrue => ?_, fun _ => hnothing⟩
      cases hnothing.1.symm.trans htrue

end

example : (vmLaunch willingLaunch sampleConfig).ending = .returned true := by decide

/-- The agent refuses to start the pod. -/
def refusedPod : LaunchEnv := { willingLaunch with startpod := false }

/-- The launch reports success, and the shim lives on. -/
theorem failed_startpod_reports_success :
    noticed refusedPod sampleConfig .hyperPodCreate = true ∧
      (vmLaunch refusedPod sampleConfig).ending = .returned true ∧
      (vmLaunch refusedPod sampleConfig).regs.shim = some ⟨13, by decide⟩ ∧
      (vmLaunch refusedPod sampleConfig).killed = none ∧
      ¬ AllOrNothing refusedPod sampleConfig := by
  refine ⟨by decide, by decide, rfl, rfl, fun h => ?_⟩
  have hsucceeds : Succeeds refusedPod sampleConfig := h.1 (by decide)
  exact absurd (hsucceeds .hyperPodCreate (by decide)).1 (by decide)

end Runtime

end CcOciRuntime
