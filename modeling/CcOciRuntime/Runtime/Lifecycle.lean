import CcOciRuntime.Lib.Transition
import CcOciRuntime.Runtime.Commands
import CcOciRuntime.Runtime.StateRoundTrip

/-!
# What the lifecycle commands leave of the state file

Every document a command writes comes from a configuration that was filled in from the document
before it (`Config.Reloads`). So its elements other than the status are those of the document
before, with two exceptions of `start`: the option `--bundle` sets another bundle path, and a
process whose environment does not set the home directory gets one (`lifecycle_frame`). The
annotations are not filled in, and are gone from every document that a command writes
(`Config.Reloads.annotations`). Over whole runs of commands the elements that no command changes
stay as `create` wrote them (`exec_lifecycleStep`).

Reference: `cc_oci_config_update` (`src/oci.c:1470`), `cc_oci_state_file_create`
(`src/state.c:733`).
-/

namespace CcOciRuntime

namespace Runtime

/-! ## Objects written, read and written again -/

@[simp] theorem vmToJson_readVm (vm : CcOciVmCfg) : vmToJson (readVm vm) = vmToJson vm := rfl

@[simp] theorem proxyToJson_readProxy (p : CcProxy) :
    proxyToJson (readProxy p) = proxyToJson p := rfl

theorem getD_readStrv (v : Option (List String)) : (readStrv v).getD [] = v.getD [] := by
  unfold readStrv
  split
  · rfl
  · next h =>
    cases v with
    | none => rfl
    | some ss =>
      cases ss with
      | nil => rfl
      | cons s ss => exact absurd rfl (h s ss)

theorem of_readStrv {v : Option (List String)} {ss : List String} (h : readStrv v = some ss) :
    v = some ss := by
  unfold readStrv at h
  split at h
  · exact h
  · cases h

/-- A process that can be written again is written as before. -/
theorem processToJson_readProcess {p : OciCfgProcess} {doc : Json}
    (h : processToJson (readProcess p) = some doc) : processToJson p = some doc := by
  obtain ⟨args, hargs, hcwd, rfl⟩ := processToJson_eq_some.1 h
  refine processToJson_eq_some.2 ⟨args, of_readStrv hargs, hcwd, ?_⟩
  simp only [processMembers, readProcess, getD_readStrv]

/-! ## The configuration of a command -/

/-- A configuration has the elements that a document of `config` and `parts` holds, other than the
status, the bundle path, the process and the annotations; of those last it has none. -/
structure Config.Reloads (c : Config) (config : Config) (parts : StateParts) : Prop where
  id : c.optargContainerId = some parts.id
  pid : c.state.workloadPid = config.state.workloadPid
  commsPath : c.state.commsPath = config.state.commsPath
  procsockPath : c.state.procsockPath = config.state.procsockPath
  mounts : c.oci.mounts = config.oci.mounts.filter fun m => !m.ignoreMount
  annotations : c.oci.annotations = []
  console : c.console = config.console
  vm : c.vm = some (readVm parts.vm)
  proxy : c.proxy = some (readProxy parts.proxy)
  pod : c.pod = config.pod.map readPod

/-- A configuration that the command `cmd` may write the state file from, when it has read a
document of `config` and `parts`. -/
structure Config.Rewrites (c : Config) (cmd : Command) (env : CommandEnv) (config : Config)
    (parts : StateParts) : Prop where
  reloads : c.Reloads config parts
  /-- the bundle path that was read, or the one of the option of a start -/
  bundlePath : c.bundlePath = config.bundlePath ∨
    cmd = .start ∧ ∀ path, c.bundlePath = some path → env.bundle.bind env.resolvePath = some path
  /-- the process that was read, or that with a home directory -/
  process : c.oci.process = readProcess config.oci.process ∨
    cmd = .start ∧ ∃ vars home, readStrv config.oci.process.env = some vars ∧
      vars.any isHome = false ∧ c.oci.process =
        { readProcess config.oci.process with env := some (("HOME=" ++ home) :: vars) }

section
variable {config c : Config} {created : Option String} {parts : StateParts} {cmd : Command}
  {env : CommandEnv}

/-- What a command works on: the configuration filled in from the state file. -/
theorem getConfigAndState_document (hparts : parts.Of config created) {rootDir : Option String}
    {st : OciState}
    (h : getConfigAndState { configCreate with rootDir, optargContainerId := some parts.id }
      (some (.obj (stateMembers config parts))) = some (c, st)) :
    st = readBack config parts ∧ ∀ cmd env, (configUpdate c st).Rewrites cmd env config parts := by
  have hread : (some (Json.obj (stateMembers config parts))).bind stateFileRead =
      some (readBack config parts) := stateFileRead_stateMembers hparts
  simp only [getConfigAndState, hread] at h
  split at h
  · obtain ⟨rfl, rfl⟩ := Prod.mk.inj (Option.some.inj h)
    refine ⟨rfl, fun cmd env => ⟨⟨rfl, rfl, ?_, ?_, ?_, rfl, ?_, rfl, rfl, ?_⟩,
      .inl hparts.bundlePath.symm, .inl rfl⟩⟩
    · simp [configUpdate, readBack]
    · simp [configUpdate, readBack]
    · simp only [configUpdate, readBack, configCreate]
      cases config.oci.mounts.filter fun m => !m.ignoreMount <;> rfl
    · simp [configUpdate, readBack, configCreate]
    · simp [configUpdate, readBack, configCreate]
  · cases h

/-! ### Its updates -/

theorem Config.Rewrites.withStatus (hc : c.Rewrites cmd env config parts) (status : OciStatus) :
    (c.withStatus status).Rewrites cmd env config parts :=
  ⟨{ hc.reloads with }, hc.bundlePath, hc.process⟩

/-- `start` sets the bundle. -/
theorem Config.Rewrites.withBundle (hc : c.Rewrites .start env config parts) :
    (c.withBundle env).Rewrites .start env config parts := by
  unfold Config.withBundle
  split
  · next bundle hbundle =>
    refine ⟨{ hc.reloads with }, .inr ⟨rfl, ?_⟩, hc.process⟩
    intro path hpath
    split_ifs at hpath
    rw [hbundle]
    exact hpath
  · exact hc

theorem isHome_append (home : String) : isHome ("HOME=" ++ home) = true := by
  simp [isHome]

/-- A home directory is added to the process that was read, and to no other. -/
theorem Config.Rewrites.setEnvHome (hc : c.Rewrites .start env config parts) :
    (setEnvHome env c).Rewrites .start env config parts := by
  unfold Runtime.setEnvHome
  split
  · exact hc
  · next vars hvars =>
    split
    · exact hc
    · next hhome =>
      refine ⟨{ hc.reloads with }, hc.bundlePath, .inr ⟨rfl, ?_⟩⟩
      obtain hprocess | ⟨-, vars', home, -, -, hprocess⟩ := hc.process
      · rw [hprocess] at hvars
        exact ⟨vars, _, hvars, Bool.eq_false_iff.2 hhome, congrArg
          (fun p : OciCfgProcess => { p with env := some (("HOME=" ++ homeDir env c) :: vars) })
          hprocess⟩
      · -- a process that has one already
        rw [hprocess] at hvars
        rw [← Option.some.inj hvars, List.any_cons, isHome_append, Bool.true_or] at hhome
        exact absurd rfl hhome

/-! ## What the commands write -/

theorem mem_writing {before : List Json} {made : Option Json} {ok : Bool} {doc : Json}
    (h : doc ∈ (Outcome.writing before made ok).writes) : doc ∈ before ∨ made = some doc := by
  cases made with
  | none => exact .inl h
  | some d =>
    obtain h | h := List.mem_append.1 h
    · exact .inl h
    · exact .inr (congrArg some (List.mem_singleton.1 h).symm)

/-- The documents of a kill: none, one that says that the container is stopped or stopping, or two,
of which the first says that it is stopping and the second that it is stopped or what was there. -/
theorem ociKill_cases (c : Config) (st : OciState) (signum : Int) (env : CommandEnv) :
    (ociKill c st signum env).writes = [] ∨
    (∃ doc status saved, (ociKill c st signum env).writes = [doc] ∧
      (status = .stopped ∨ status = .stopping) ∧
      stateFileCreate (c.withStatus status) st.createTime saved = some doc) ∨
    ∃ stopping doc status saved saved', (ociKill c st signum env).writes = [stopping, doc] ∧
      stateFileCreate (c.withStatus .stopping) st.createTime saved = some stopping ∧
      (status = .stopped ∨ status = c.state.status) ∧
      stateFileCreate (c.withStatus status) st.createTime saved' = some doc := by
  unfold ociKill
  split
  · cases hdoc : stateFileCreate (c.withStatus .stopped) st.createTime (env.saved 0) with
    | none => exact .inl rfl
    | some doc => exact .inr (.inl ⟨doc, _, _, rfl, .inl rfl, hdoc⟩)
  · cases hstopping : stateFileCreate (c.withStatus .stopping) st.createTime (env.saved 0) with
    | none => exact .inl rfl
    | some stopping =>
      have hone : ∃ doc status saved, [stopping] = [doc] ∧
          (status = OciStatus.stopped ∨ status = .stopping) ∧
          stateFileCreate (c.withStatus status) st.createTime saved = some doc :=
        ⟨stopping, _, _, rfl, .inr rfl, hstopping⟩
      dsimp only
      split
      · cases hdoc : stateFileCreate c st.createTime (env.saved 1) with
        | none => exact .inr (.inl hone)
        | some doc => exact .inr (.inr ⟨stopping, doc, _, _, _, rfl, hstopping, .inr rfl, hdoc⟩)
      · split
        · exact .inr (.inl hone)
        · cases hdoc : stateFileCreate (c.withStatus .stopped) st.createTime (env.saved 1) with
          | none => exact .inr (.inl hone)
          | some doc => exact .inr (.inr ⟨stopping, doc, _, _, _, rfl, hstopping, .inl rfl, hdoc⟩)

/-- A kill writes its configuration with another status. -/
theorem ociKill_writes {st : OciState} {signum : Int} {env : CommandEnv} {doc : Json}
    (h : doc ∈ (ociKill c st signum env).writes) :
    ∃ status saved, stateFileCreate (c.withStatus status) st.createTime saved = some doc := by
  obtain hws | ⟨doc', _, _, hws, -, hdoc⟩ | ⟨stopping, doc', _, _, _, hws, hstopping, -, hdoc⟩ :=
    ociKill_cases c st signum env
  · rw [hws] at h
    cases h
  · rw [hws, List.mem_singleton] at h
    exact ⟨_, _, h ▸ hdoc⟩
  · rw [hws, List.mem_pair] at h
    obtain rfl | rfl := h
    · exact ⟨_, _, hstopping⟩
    · exact ⟨_, _, hdoc⟩

/-- A pause or a resume writes its configuration with another status. -/
theorem ociToggle_writes {st : OciState} {pause : Bool} {env : CommandEnv} {doc : Json}
    (h : doc ∈ (ociToggle c st pause env).writes) :
    ∃ status saved, stateFileCreate (c.withStatus status) st.createTime saved = some doc := by
  unfold ociToggle at h
  split at h
  · cases h
  · split at h
    · cases h
    · obtain h | h := mem_writing h
      · cases h
      · exact ⟨_, _, h⟩

/-- The call of the proxy keeps what a start may write. -/
theorem Config.Rewrites.startWorkload (hc : c.Rewrites .start env config parts) :
    (startWorkload env c).1.Rewrites .start env config parts := by
  have hnew : (hyperNewPodContainer env c).1.Rewrites .start env config parts := by
    unfold hyperNewPodContainer
    split_ifs
    · exact hc
    · exact hc
    · exact hc.setEnvHome
  unfold Runtime.startWorkload
  split
  · exact hnew
  · split_ifs
    · exact hnew
    · exact hc
    · exact hnew

/-- A start writes its configuration as running, after the updates of its option and of the call of
the proxy. -/
theorem ociStart_writes {st : OciState} {doc : Json} (h : doc ∈ (ociStart c st env).writes) :
    ∃ saved, stateFileCreate ((startWorkload env (c.withBundle env)).1.withStatus .running)
      st.createTime saved = some doc := by
  unfold ociStart at h
  split at h
  · cases h
  · dsimp only at h
    split at h
    · cases h
    · split at h
      · cases h
      · obtain h | h := mem_writing h
        · cases h
        · exact ⟨_, h⟩

/-- **What a command writes**: a configuration that it may write, with the creation time of the
document that it has read. -/
theorem runCommand_writes (hparts : parts.Of config created) {new : Json}
    (hnew : new ∈ (runCommand cmd parts.id env (some (.obj (stateMembers config parts)))).writes) :
    ∃ c saved, c.Rewrites cmd env config parts ∧
      stateFileCreate c (some parts.created) saved = some new := by
  unfold runCommand at hnew
  split at hnew
  · cases hnew
  · next c st hget =>
    obtain ⟨rfl, hc⟩ := getConfigAndState_document hparts hget
    cases cmd with
    | start =>
      obtain ⟨saved, hwritten⟩ := ociStart_writes hnew
      exact ⟨_, saved, (hc _ env).withBundle.startWorkload.withStatus _, hwritten⟩
    | kill signum =>
      obtain ⟨status, saved, hwritten⟩ := ociKill_writes hnew
      exact ⟨_, saved, (hc _ env).withStatus status, hwritten⟩
    | pause | resume =>
      obtain ⟨status, saved, hwritten⟩ := ociToggle_writes hnew
      exact ⟨_, saved, (hc _ env).withStatus status, hwritten⟩

/-! ## The frame -/

/-- The names of the elements that no command changes. -/
def Untouched (k : String) : Prop :=
  k ≠ "status" ∧ k ≠ "annotations" ∧ k ≠ "bundlePath" ∧ k ≠ "process"

/-- The document of a reloaded configuration has the elements of the one before. -/
theorem Config.Reloads.find_eq {parts' : StateParts} (hc : c.Reloads config parts)
    (hparts' : parts'.Of c (some parts.created)) {k : String} (hk : Untouched k) :
    Json.find k (stateMembers c parts') = Json.find k (stateMembers config parts) := by
  obtain ⟨hstatus, hann, hbundle, hprocess⟩ := hk
  have hid : parts'.id = parts.id := Option.some.inj (hparts'.id.symm.trans hc.id)
  have hcreated : parts'.created = parts.created := (Option.some.inj hparts'.created).symm
  have hvm : parts'.vm = readVm parts.vm := Option.some.inj (hparts'.vm.symm.trans hc.vm)
  have hproxy : parts'.proxy = readProxy parts.proxy :=
    Option.some.inj (hparts'.proxy.symm.trans hc.proxy)
  have hmounts : mountsToJson c = mountsToJson config := by
    simp [mountsToJson, hc.mounts, List.filter_filter]
  have hpod : podMembers c = podMembers config := by
    unfold podMembers
    rw [hc.pod]
    cases config.pod <;> rfl
  have hnone : ∀ c' : Config, Json.find k (annotationsMembers c') = none := by
    intro c'
    unfold annotationsMembers
    split
    · rfl
    · rw [Json.find_cons, if_neg hann.symm, Json.find_nil]
  have hrequired : Json.find k (requiredMembers c parts') =
      Json.find k (requiredMembers config parts) := by
    refine Json.find_congr ?_
    simp only [requiredMembers, List.forall₂_cons, List.Forall₂.nil, hid, hcreated, hvm, hproxy,
      hmounts, hc.pid, hc.commsPath, hc.procsockPath, hc.console, vmToJson_readVm,
      proxyToJson_readProxy, hstatus.symm, hbundle.symm, hprocess.symm, and_true, implies_true,
      false_implies]
  simp only [stateMembers, Json.find_append, hrequired, hpod, hnone]

/-- The bundle path of a document. -/
theorem find_bundlePath (c : Config) (parts : StateParts) :
    Json.find "bundlePath" (stateMembers c parts) = some (.str parts.bundlePath) := rfl

/-- The process of a document. -/
theorem find_process (c : Config) (parts : StateParts) :
    Json.find "process" (stateMembers c parts) = some parts.process := rfl

/-- The environment of a process element has got a home directory, which it had not set. -/
def HomeAdded (old new : Option Json) : Prop :=
  ∃ ms vars home, old = some (.obj ms) ∧ Json.find "env" ms = some (.arr (vars.map .str)) ∧
    vars ≠ [] ∧ vars.any isHome = false ∧
    new = some (.obj (Json.setMember "env" (.arr ((("HOME=" ++ home) :: vars).map .str)) ms))

/-- What a command leaves of a state file. Nothing is said of the status and the annotations. -/
structure FrameKept (cmd : Command) (env : CommandEnv) (old new : Json) : Prop where
  elements : ∀ k, Untouched k → new.member k = old.member k
  /-- the bundle path is as before, or the one of the option of a start -/
  bundlePath : new.member "bundlePath" = old.member "bundlePath" ∨
    cmd = .start ∧ ∃ path, env.bundle.bind env.resolvePath = some path ∧
      new.member "bundlePath" = some (.str path)
  /-- the process is as before, or a start has added a home directory -/
  process : new.member "process" = old.member "process" ∨
    cmd = .start ∧ HomeAdded (old.member "process") (new.member "process")

/-- A process that was read, and written with another environment. -/
theorem homeAdded_of_env {p : OciCfgProcess} {vars : List String} {home : String} {old new : Json}
    (hold : processToJson p = some old) (hvars : readStrv p.env = some vars)
    (hhome : vars.any isHome = false)
    (hnew : processToJson { readProcess p with env := some (("HOME=" ++ home) :: vars) } =
      some new) : HomeAdded (some old) (some new) := by
  obtain ⟨args, hargs, -, rfl⟩ := processToJson_eq_some.1 hold
  obtain ⟨args', hargs', -, rfl⟩ := processToJson_eq_some.1 hnew
  obtain rfl : args' = args := Option.some.inj ((of_readStrv hargs').symm.trans hargs)
  have henv : p.env = some vars := of_readStrv hvars
  have hne : vars ≠ [] := by
    rintro rfl
    rw [henv] at hvars
    cases hvars
  refine ⟨_, vars, home, rfl, ?_, hne, hhome, rfl⟩
  simp [processMembers, henv, Json.find_cons]

/-- The document of a configuration that a command may write. -/
theorem Config.Rewrites.frameKept {parts' : StateParts} (hparts : parts.Of config created)
    (hc : c.Rewrites cmd env config parts) (hparts' : parts'.Of c (some parts.created)) :
    FrameKept cmd env (.obj (stateMembers config parts)) (.obj (stateMembers c parts')) := by
  refine ⟨fun k hk => hc.reloads.find_eq hparts' hk, ?_, ?_⟩
  · rw [Json.member_obj, Json.member_obj, find_bundlePath, find_bundlePath]
    obtain hold | ⟨hstart, hpath⟩ := hc.bundlePath
    · rw [hparts'.bundlePath, hparts.bundlePath] at hold
      exact .inl (congrArg (some ∘ Json.str) (Option.some.inj hold))
    · exact .inr ⟨hstart, _, hpath _ hparts'.bundlePath, rfl⟩
  · rw [Json.member_obj, Json.member_obj, find_process, find_process]
    have hnew := hparts'.process
    obtain hold | ⟨hstart, vars, home, hvars, hhome, hadded⟩ := hc.process
    · rw [hold] at hnew
      exact .inl ((processToJson_readProcess hnew).symm.trans hparts.process)
    · rw [hadded] at hnew
      exact .inr ⟨hstart, homeAdded_of_env hparts.process hvars hhome hnew⟩

/-- **What the lifecycle commands change.** Whatever configuration `create` wrote the state file
from, and whatever command then runs on the container: each document it writes has the elements of
the file before it, apart from the status and the annotations, and apart from the bundle path and
the home directory that a start may set. -/
theorem lifecycle_frame (config : Config) (created : Option String) (saved : Bool) (id : String)
    (doc : Json) (hid : config.optargContainerId = some id)
    (hdoc : stateFileCreate config created saved = some doc) (cmd : Command) (env : CommandEnv)
    (new : Json) (hnew : new ∈ (runCommand cmd id env (some doc)).writes) :
    FrameKept cmd env doc new := by
  obtain ⟨parts, hparts, rfl⟩ := stateFileCreate_eq_some hdoc
  obtain rfl : id = parts.id := Option.some.inj (hid.symm.trans hparts.id)
  obtain ⟨c, saved', hc, hwritten⟩ := runCommand_writes hparts hnew
  obtain ⟨parts', hparts', rfl⟩ := stateFileCreate_eq_some hwritten
  exact hc.frameKept hparts hparts'

end

/-- The state file of the sample container. -/
def sampleFile : Option Json := stateFileCreate sampleConfig (some "now") true

/-- A container that is killed. -/
theorem lifecycle_frame_kill :
    ∃ doc stopping stopped, sampleFile = some doc ∧
      runCommand (.kill 15) "c1" { saved := fun _ => true } (some doc) =
        ⟨[stopping, stopped], true⟩ ∧
      FrameKept (.kill 15) { saved := fun _ => true } doc stopped :=
  ⟨_, _, _, rfl, rfl, lifecycle_frame sampleConfig (some "now") true "c1" _ rfl rfl (.kill 15)
    { saved := fun _ => true } _ (.tail _ (.head _))⟩

/-- A start of the sample succeeds, with the environment of its process and its annotations not as
they were. -/
theorem start_changes_env_and_annotations :
    ∃ doc new, sampleFile = some doc ∧
      runCommand .start "c1" { saved := fun _ => true } (some doc) = ⟨[new], true⟩ ∧
      (doc.member "process").bind (Json.member "env") = some (.arr [.str "TERM=xterm"]) ∧
      (new.member "process").bind (Json.member "env") =
        some (.arr [.str "HOME=/", .str "TERM=xterm"]) ∧
      doc.member "annotations" = some (.obj [("owner", .str "ops")]) ∧
      new.member "annotations" = none :=
  ⟨_, _, rfl, rfl, rfl, rfl, rfl, rfl⟩

/-! ## Runs of commands -/

/-- One command on the container `id`: the file is what the command wrote last. -/
def lifecycleStep (id : String) : Stepper Json (Command × CommandEnv) :=
  fun file l => some ((runCommand l.1 id l.2 (some file)).writes.getLastD file)

/-- A process has one home directory added at most. -/
theorem not_homeAdded_twice {p q r : Option Json} (hpq : HomeAdded p q) : ¬ HomeAdded q r := by
  rintro ⟨ms', vars', _, hq', hfind, -, hhome, -⟩
  obtain ⟨ms, vars, home, -, -, -, -, hq⟩ := hpq
  obtain rfl := Json.obj.inj (Option.some.inj (hq'.symm.trans hq))
  rw [Json.find_setMember] at hfind
  have hvars : ((("HOME=" ++ home) :: vars).map Json.str) = vars'.map Json.str :=
    Json.arr.inj (Option.some.inj hfind)
  obtain rfl := List.map_injective_iff.2 (fun _ _ => Json.str.inj) hvars
  rw [List.any_cons, isHome_append] at hhome
  cases hhome

/-- What holds of the state file along a run of commands on the container `id`, whose `create` wrote
`doc`. -/
structure Descends (id : String) (doc file : Json) : Prop where
  created : ∃ config created saved, config.optargContainerId = some id ∧
    stateFileCreate config created saved = some file
  elements : ∀ k, Untouched k → file.member k = doc.member k
  process : file.member "process" = doc.member "process" ∨
    HomeAdded (doc.member "process") (file.member "process")

/-- A document that a command writes. -/
theorem Descends.of_write {id : String} {doc file new : Json} {cmd : Command} {env : CommandEnv}
    (h : Descends id doc file) (hnew : new ∈ (runCommand cmd id env (some file)).writes) :
    Descends id doc new := by
  obtain ⟨config, created, saved, hid, hfile⟩ := h.created
  obtain ⟨parts, hparts, rfl⟩ := stateFileCreate_eq_some hfile
  obtain rfl : id = parts.id := Option.some.inj (hid.symm.trans hparts.id)
  obtain ⟨c, saved', hc, hwritten⟩ := runCommand_writes hparts hnew
  have hkept : FrameKept cmd env (.obj (stateMembers config parts)) new := by
    obtain ⟨parts', hparts', rfl⟩ := stateFileCreate_eq_some hwritten
    exact hc.frameKept hparts hparts'
  refine ⟨⟨c, _, saved', hc.reloads.id, hwritten⟩, fun k hk => ?_, ?_⟩
  · exact (hkept.elements k hk).trans (h.elements k hk)
  · obtain hsame | ⟨-, hadded⟩ := hkept.process
    · rw [hsame]
      exact h.process
    · obtain hold | hold := h.process
      · rw [hold] at hadded
        exact .inr hadded
      · exact absurd hadded (not_homeAdded_twice hold)

/-- One command. -/
theorem Descends.of_step {id : String} {doc file file' : Json} {l : Command × CommandEnv}
    (h : Descends id doc file) (hstep : lifecycleStep id file l = some file') :
    Descends id doc file' := by
  obtain rfl := Option.some.inj hstep
  obtain hnil | ⟨new, hlast⟩ := Option.eq_none_or_eq_some
      (runCommand l.1 id l.2 (some file)).writes.getLast?
  · rw [List.getLastD_eq_getLast?, hnil]
    exact h
  · rw [List.getLastD_eq_getLast?, hlast]
    exact h.of_write (List.mem_of_getLast? hlast)

/-- **Runs of lifecycle commands.** However many commands run on a container, in any order and with
any answers of the environment: the state file has the elements that `create` wrote, and its process
is the one that `create` wrote or that with one home directory. -/
theorem exec_lifecycleStep {config : Config} {created : Option String} {saved : Bool} {id : String}
    {doc file : Json} {ls : List (Command × CommandEnv)}
    (hid : config.optargContainerId = some id)
    (hdoc : stateFileCreate config created saved = some doc)
    (hrun : exec (lifecycleStep id) doc ls = some file) : Descends id doc file :=
  exec_invariant (fun _ _ _ h _ hstep => h.of_step hstep)
    ⟨⟨config, created, saved, hid, hdoc⟩, fun _ _ => rfl, .inl rfl⟩ (meets_true ls doc) hrun

end Runtime

end CcOciRuntime
