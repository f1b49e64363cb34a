import CcOciRuntime.Runtime.Delete
import CcOciRuntime.Runtime.SectionParts

/-!
# The hooks of a container's life

A container is created, started and deleted by three processes, and each builds a configuration of
its own. `create` reads `config.json` with all handlers and `delete` with the one of the hooks, and
both find the same hooks (`specProcessConfig_stop_hooks`). `start` reads the state file only, in
which there are no hooks. So the poststart hooks are never run, and the prestart hooks of a
container in a pod are not either, for it is launched in another way (`hooks_in_their_phases_iff`).

Reference: `cc_oci_create` (`src/oci.c:536`), `cc_oci_start` (`src/oci.c:647`),
`handle_command_stop` (`src/command.c:148`).
-/

namespace CcOciRuntime

namespace Runtime

/-! ## The hooks that are read -/

section
variable {host : SpecHost} {sc sc' sc₁ : SpecConfig} {node : GNode}

/-- The handler of the hooks looks at nothing but the hooks. -/
theorem hooksSpecHandler_hooks (h : hooksSpecHandler sc node = .ok sc₁)
    (hhooks : sc'.hooks = sc.hooks) :
    ∃ sc₂, hooksSpecHandler sc' node = .ok sc₂ ∧ sc₂.hooks = sc₁.hooks := by
  obtain ⟨hooks, hread, rfl⟩ := Option.map_eq_some_iff.1 (orRejected_eq_ok h)
  refine ⟨{ sc' with hooks }, ?_, rfl⟩
  rw [hooksSpecHandler, hhooks, hread]
  rfl

/-- One member of the file, which `create` accepts. -/
theorem specSection_stop_hooks (h : specSection (startSpecHandlers host) sc node = .ok sc₁)
    (hhooks : sc'.hooks = sc.hooks) :
    ∃ sc₂, specSection stopSpecHandlers sc' node = .ok sc₂ ∧ sc₂.hooks = sc₁.hooks := by
  cases hname : node.data with
  | none =>
    rw [specSection, hname] at h
    cases h
    exact ⟨sc', by rw [specSection, hname], hhooks⟩
  | some name =>
    have hscalars : ∀ sc : SpecConfig, (sc.scalars name node).hooks = sc.hooks :=
      fun sc => (scalars_keeps sc name node).1
    by_cases hsection : name = "hooks"
    · have hstart : specSection (startSpecHandlers host) sc node =
          hooksSpecHandler (sc.scalars name node) node := by
        rw [specSection, hname, hsection]
        rfl
      have hstop : specSection stopSpecHandlers sc' node =
          hooksSpecHandler (sc'.scalars name node) node := by
        rw [specSection, hname, hsection]
        rfl
      rw [hstart] at h
      rw [hstop]
      exact hooksSpecHandler_hooks h (by rw [hscalars, hscalars, hhooks])
    · have hkept : sc₁.hooks = sc.hooks :=
        specSection_keeps (t := .hooks) hname (Ne.symm hsection) (by decide) (by simp) h
      have hstop : specSection stopSpecHandlers sc' node = .ok (sc'.scalars name node) := by
        rw [specSection, hname]
        dsimp only
        rw [runSpecHandler, stopSpecHandlers, lookup_cons_eq_ite, if_neg hsection]
        rfl
      exact ⟨_, hstop, by rw [hscalars, hhooks, hkept]⟩

/-- **The hooks of `create` and of `delete`.** A file that `create` accepts is accepted by `delete`,
with the same hooks. -/
theorem specProcessConfig_stop_hooks {root : GNode} (root' : GNode)
    (hroot : root'.children = root.children)
    (h : specProcessConfig (startSpecHandlers host) root sc = .ok sc₁)
    (hhooks : sc'.hooks = sc.hooks) :
    ∃ sc₂, specProcessConfig stopSpecHandlers root' sc' = .ok sc₂ ∧ sc₂.hooks = sc₁.hooks := by
  unfold specProcessConfig at h ⊢
  rw [hroot]
  generalize root.children = nodes at h
  induction nodes generalizing sc sc' with
  | nil =>
    cases h
    exact ⟨sc', rfl, hhooks⟩
  | cons node nodes ih =>
    obtain ⟨sc₀, hnode, hnodes⟩ := foldlM_cons_eq_ok_iff.1 h
    obtain ⟨sc₀', hstop, hhooks₀⟩ := specSection_stop_hooks hnode hhooks
    obtain ⟨sc₂, hrest, hhooks₂⟩ := ih hhooks₀ hnodes
    exact ⟨sc₂, foldlM_cons_eq_ok_iff.2 ⟨sc₀', hstop, hrest⟩, hhooks₂⟩

end

/-! ## Three processes -/

/-- The three processes of a container's life, with what they get: the options and the answers of
`create`, the answers of `start` and of `delete`, and what the hooks of each phase do. -/
structure Phases where
  opts : CreateOptions
  /-- the content of `config.json` -/
  spec : Json
  specHost : SpecHost
  create : CreateEnv
  prestart : HooksEnv
  start : CommandEnv
  poststart : HooksEnv
  stop : StopEnv
  /-- what `delete` finds -/
  machine : Machine

namespace Phases

variable (p : Phases)

/-- What `create` reads. -/
def read : Option SpecConfig :=
  (p.opts.bundle.bind configFilePath).bind fun path =>
    (specProcessConfig (startSpecHandlers p.specHost) (jsonParse path p.spec)
      (.ofConfig (commandSetup p.opts) rfl)).toOption

/-- The hooks that the container is configured with. -/
def hooks : OciCfgHooks := (p.read.map SpecConfig.hooks).getD {}

def createEnv : CreateEnv :=
  { p.create with
    spec := p.specHost.toSpecEnv
    launch := p.create.launch.withHooks p.hooks.prestart p.prestart }

/-- The process `create`. -/
def created : Launch := runCreate p.opts p.createEnv (some p.spec)

/-- The configuration that is launched. -/
def prepared : Option Config := prepare p.createEnv (some p.spec) (commandSetup p.opts)

/-- The container is a VM of its own, or the sandbox of a pod. -/
def ownVm : Bool := p.prepared.any podIsVm

/-- The prestart hooks that `create` starts. Reference: `src/process.c:1069`. -/
def prestartStarted : List OciCfgHook :=
  if p.prepared.any (fun c => !c.dryRunMode && podIsVm c && hooksReached p.createEnv.launch c) then
    (runHooks p.hooks.prestart p.prestart true).started
  else []

/-- The process `start`, with the state file that `create` has left. -/
def started : Outcome := runCommand .start p.opts.id p.start p.created.regs.writes.getLast?

/-- The hooks of a configuration for which no section has been read, as `start` has it. Reference:
`cc_oci_config_create` (`src/oci-config.c:118`), `cc_oci_config_update` (`src/oci.c:1470`). -/
def startHooks : OciCfgHooks := (SpecConfig.ofConfig configCreate mounts_configCreate).hooks

/-- The poststart hooks that `start` starts, once the state file says that the container runs.
Reference: `src/oci.c:768`. -/
def poststartStarted : List OciCfgHook :=
  match p.started.writes with
  | [] => []
  | _ :: _ => (runHooks startHooks.poststart p.poststart false).started

/-- The process `delete`. -/
def deleted : StopResult := handleCommandStop p.stop p.opts.id p.machine

/-- The place of the state file, as `delete` has it. -/
def stateFile : String := stateFilePath p.stop.rootDir p.opts.id

/-- The state file is there when `delete` begins. -/
def stateFileKept : Bool := (p.machine.host.stat p.stop.host.cwd p.stateFile).isSome

/-- The three processes succeed one after the other, on the same container. -/
structure Successful : Prop where
  /-- no section is given twice -/
  names : ((jsonParseAux false p.spec).filterMap GNode.data).Nodup
  created : p.created.ending = .returned true
  started : p.started.ok = true
  /-- the state file is as `start` has left it; a `start` that waits for the end of the workload can
  have removed it -/
  file : readFile p.stop.host p.machine.host p.stateFile = p.started.writes.getLast? ∨
    p.start.isTty = true ∧ p.stateFileKept = false
  /-- the `config.json` that `delete` finds is that of `create` -/
  config : ∀ c st, stopState p.stop p.opts.id p.machine.host = some (c, st) →
    ∀ path, c.bundlePath.bind configFilePath = some path →
      readFile p.stop.host p.machine.host path = some p.spec
  deleted : p.deleted.ok = true

/-- Every hook is started once in its phase, in the order of its list. -/
def RunsHooks : Prop :=
  p.prestartStarted = p.hooks.prestart ∧ p.poststartStarted = p.hooks.poststart ∧
    p.deleted.started = p.hooks.poststop

end Phases

/-! ## What is started -/

/-- A launch that succeeds has got to the hooks. -/
theorem hooksReached_of_returned {env : LaunchEnv} {config : Config}
    (h : (vmLaunch env config).ending = .returned true) : hooksReached env config = true := by
  refine (isOk_foldlM_iff (launchSteps.dropWhile (· ≠ .prestartHooks)) rfl).2 ?_
  by_contra hfailed
  obtain ⟨k, hk⟩ := Option.ne_none_iff_exists'.1 hfailed
  have hfirst : launchSteps.find? (noticed env config) = some k := by
    change (launchSteps.takeWhile (· ≠ .prestartHooks) ++
      launchSteps.dropWhile (· ≠ .prestartHooks)).find? _ = some k
    rw [List.find?_append, hk, Option.some_or]
  -- every failure before the hooks is handled
  have hhandled : ∀ k ∈ launchSteps.takeWhile (· ≠ .prestartHooks), k ∈ handledSteps := by decide
  have hfalse := (vmLaunch_returned_false_iff hfirst).2 (hhandled k (List.mem_of_find?_eq_some hk))
  cases h.symm.trans hfalse

/-- There is a path for `config.json` once the state file has been read. -/
theorem configFilePath_of_stopState {env : StopEnv} {id : String} {host : Host} {c : Config}
    {st : OciState} (h : stopState env id host = some (c, st)) :
    ∃ path, c.bundlePath.bind configFilePath = some path := by
  unfold stopState getConfigAndState at h
  split at h
  · split at h
    · next path hpath =>
      cases h
      exact ⟨path, hpath⟩
    · cases h
  · cases h

namespace Phases

variable {p : Phases}

/-- The configuration that a successful `create` has launched. -/
theorem Successful.exists_prepared (h : p.Successful) : ∃ c, p.prepared = some c ∧
    c.dryRunMode = false ∧ (podIsVm c = true → hooksReached p.createEnv.launch c = true) := by
  have hcreated := h.created
  have hstarted := h.started
  unfold Phases.started at hstarted
  unfold Phases.created runCreate ociCreate at hcreated hstarted
  cases hprepared : prepare p.createEnv (some p.spec) (commandSetup p.opts) with
  | none =>
    rw [hprepared] at hcreated
    cases hcreated
  | some c =>
    rw [hprepared] at hcreated hstarted
    dsimp only at hcreated hstarted
    refine ⟨c, hprepared, ?_, fun hvm => ?_⟩
    · -- a dry run writes no state file
      rw [Bool.eq_false_iff]
      intro hdry
      rw [if_pos hdry] at hstarted
      cases hstarted
    · split_ifs at hcreated with hdry
      · rw [if_pos hdry] at hstarted
        cases hstarted
      · exact hooksReached_of_returned hcreated

/-- `create` has read the file. -/
theorem Successful.exists_read (h : p.Successful) : ∃ path sc, p.read = some sc ∧
    specProcessConfig (startSpecHandlers p.specHost) (jsonParse path p.spec)
      (.ofConfig (commandSetup p.opts) rfl) = .ok sc := by
  obtain ⟨c, hprepared, -, -⟩ := h.exists_prepared
  obtain ⟨c', hparse, -⟩ := Option.bind_eq_some_iff.1 hprepared
  unfold configFileParse at hparse
  have hbundle : (commandSetup p.opts).bundlePath = p.opts.bundle := rfl
  rw [hbundle] at hparse
  split at hparse
  · next path doc hpath hdoc =>
    cases hdoc
    split_ifs at hparse
    obtain ⟨c₀, hprocess, -⟩ := Option.bind_eq_some_iff.1 hparse
    have hrefines := foldlM_processSection_refines p.specHost (.ofConfig (commandSetup p.opts) rfl)
      h.names (fun _ => rfl) (fun _ => rfl) fun _ => rfl
    have hread : (specProcessConfig (startSpecHandlers p.specHost) (jsonParse path p.spec)
        (.ofConfig (commandSetup p.opts) rfl)).toOption.map SpecConfig.config = some c₀ :=
      hrefines.symm.trans hprocess
    obtain ⟨sc, hsc, -⟩ := Option.map_eq_some_iff.1 hread
    refine ⟨path, sc, ?_, eq_ok_of_toOption hsc⟩
    rw [Phases.read, hpath]
    exact hsc
  · cases hparse

/-- The prestart hooks are run for a container that is a VM of its own. -/
theorem Successful.prestartStarted_eq (h : p.Successful) : p.prestartStarted =
    if p.ownVm then (runHooks p.hooks.prestart p.prestart true).started else [] := by
  obtain ⟨c, hprepared, hdry, hreached⟩ := h.exists_prepared
  rw [prestartStarted, ownVm, hprepared, Option.any_some, Option.any_some, hdry]
  cases hvm : podIsVm c with
  | false => rfl
  | true => rw [hreached hvm]; rfl

theorem poststartStarted_eq_nil (p : Phases) : p.poststartStarted = [] := by
  unfold poststartStarted
  split <;> rfl

/-- The poststop hooks are run if there is a state file. -/
theorem Successful.deleted_started (h : p.Successful) : p.deleted.started =
    if p.stateFileKept then (runHooks p.hooks.poststop p.stop.hooks false).started else [] := by
  have hok := h.deleted
  unfold Phases.deleted at hok ⊢
  cases hkept : p.stateFileKept with
  | false =>
    have hnone : (p.machine.host.stat p.stop.host.cwd
        (stateFilePath p.stop.rootDir p.opts.id)).isNone = true :=
      Option.isSome_eq_false_iff.1 hkept
    rw [handleCommandStop, if_pos hnone]
    rfl
  | true =>
    cases hstate : stopState p.stop p.opts.id p.machine.host with
    | none =>
      rw [handleCommandStop_of_none hkept hstate] at hok
      cases hok
    | some r =>
      obtain ⟨c, st⟩ := r
      obtain ⟨path, hpath⟩ := configFilePath_of_stopState hstate
      obtain ⟨path₀, sc₁, hread, hrun⟩ := h.exists_read
      have hfresh : (SpecConfig.ofConfig c (mounts_of_stopState hstate)).hooks =
          (SpecConfig.ofConfig (commandSetup p.opts) rfl).hooks := rfl
      obtain ⟨sc₂, hstop, hhooks⟩ :=
        specProcessConfig_stop_hooks (jsonParse path p.spec) rfl hrun hfresh
      have hconfig : stopConfig p.stop.host p.machine.host c (mounts_of_stopState hstate) =
          some sc₂ := by
        rw [stopConfig, hpath]
        dsimp only
        rw [h.config c st hstate path hpath]
        dsimp only
        rw [hstop]
        rfl
      have hown : p.hooks = sc₂.hooks := by
        rw [Phases.hooks, hread, hhooks]
        rfl
      rw [handleCommandStop_eq hkept hstate, hconfig] at hok ⊢
      rw [(ociStop_ok hok).2, hown]
      rfl

/-- A list of hooks that is started under a condition is started as a whole. -/
theorem ite_started_eq_iff {b : Prop} [Decidable b] {hooks : List OciCfgHook} {env : HooksEnv}
    {stop : Bool} :
    (if b then (runHooks hooks env stop).started else []) = hooks ↔
      hooks = [] ∨ b ∧ env.StartsAll stop hooks := by
  split_ifs with hb
  · rw [runHooks_started_eq_iff]
    exact ⟨fun h => .inr ⟨hb, h⟩, fun h => h.elim .inl And.right⟩
  · constructor
    · intro h
      exact .inl h.symm
    · rintro (h | h)
      · exact h.symm
      · exact absurd h.1 hb

end Phases

/-- **The hooks of a container's life**: they are all started in their phases exactly when there are
no poststart hooks, no prestart hook is configured for a container in a pod or kept from starting by
one before it, and the poststop hooks find the state file. -/
theorem hooks_in_their_phases_iff (p : Phases) (h : p.Successful) :
    p.RunsHooks ↔
      (p.hooks.prestart = [] ∨ p.ownVm = true ∧ p.prestart.StartsAll true p.hooks.prestart) ∧
      p.hooks.poststart = [] ∧
      (p.hooks.poststop = [] ∨
        p.stateFileKept = true ∧ p.stop.hooks.StartsAll false p.hooks.poststop) := by
  rw [Phases.RunsHooks, h.prestartStarted_eq, p.poststartStarted_eq_nil, h.deleted_started,
    Phases.ite_started_eq_iff, Phases.ite_started_eq_iff, @eq_comm _ [] p.hooks.poststart]

/-! ## Samples -/

/-- A hook of `config.json`. -/
def hookEntry (path : String) : Json := .obj [("path", .str path)]

/-- The files of the container `c1`, with these documents. -/
def filesWith (spec : Json) (state : Option Json) : Host :=
  ((containerFiles (some spec)).store [] "/run/c1/state.json" state).getD .bare

/-- A container whose configuration has the sections `ms`, too. -/
def samplePhases (ms : List (String × Json)) (prestart : HooksEnv) : Phases :=
  let spec := Json.obj (sampleSpec ++ ms)
  let p : Phases :=
    { opts := { id := "c1", bundle := some "/bundle", rootDir := some "/run" }
      spec
      specHost := { resolvePath := fun path => some ("/bundle/" ++ path)
                    isDir := fun _ => true
                    pathExists := fun _ => true }
      create := sampleHost
      prestart
      start := { rootDir := some "/run", saved := fun _ => true }
      poststart := { stateLength := some 100, process := fun _ => {} }
      stop := sampleStop
      machine := ⟨.bare, sampleProxy⟩ }
  { p with machine.host := filesWith spec p.started.writes.getLast? }

theorem readFile_state (spec : Json) (state : Option Json) :
    readFile {} (filesWith spec state) "/run/c1/state.json" = state := rfl

theorem readFile_spec (spec : Json) (state : Option Json) :
    readFile {} (filesWith spec state) "/bundle/config.json" = some spec := rfl

/-- What remains to be computed of a sample. -/
def Phases.Computes (p : Phases) : Prop :=
  ((jsonParseAux false p.spec).filterMap GNode.data).Nodup ∧ p.created.ending = .returned true ∧
    p.started.ok = true ∧
    (stopState sampleStop "c1" p.machine.host).map (fun r => r.1.bundlePath.bind configFilePath) =
      some (some "/bundle/config.json") ∧
    p.deleted.ok = true

instance (p : Phases) : Decidable p.Computes := inferInstanceAs (Decidable (_ ∧ _))

/-- The phases succeed if they are computed. -/
theorem samplePhases_successful {ms : List (String × Json)} {prestart : HooksEnv}
    (h : (samplePhases ms prestart).Computes) : (samplePhases ms prestart).Successful where
  names := h.1
  created := h.2.1
  started := h.2.2.1
  file := .inl (readFile_state _ _)
  config := by
    intro c st hstate path hpath
    obtain ⟨-, -, -, hbundle, -⟩ := h
    have hstate' : stopState sampleStop "c1" (samplePhases ms prestart).machine.host =
      some (c, st) := hstate
    rw [hstate', Option.map_some, Option.some_inj] at hbundle
    cases hpath.symm.trans hbundle
    exact readFile_spec _ _
  deleted := h.2.2.2.2

/-- Hooks that all succeed. -/
def willingHooks : HooksEnv := { stateLength := some 100, process := fun _ => {} }

/-- A hook before and one after. -/
def twoPhases : Phases :=
  samplePhases [("hooks", .obj [("prestart", .arr [hookEntry "/bin/up"]),
    ("poststop", .arr [hookEntry "/bin/down"])])] willingHooks

/-- A hook in each of two phases. -/
theorem hooks_in_their_phases_twoPhases : twoPhases.hooks.prestart.length = 1 ∧
    twoPhases.hooks.poststop.length = 1 ∧ twoPhases.RunsHooks := by
  have hsuccess : twoPhases.Successful := samplePhases_successful (by decide +kernel)
  refine ⟨by decide +kernel, by decide +kernel,
    (hooks_in_their_phases_iff _ hsuccess).2 ⟨?_, ?_, ?_⟩⟩
  · exact .inr ⟨by decide +kernel, (runHooks_started_eq_iff _ _ _).1 (by decide +kernel)⟩
  · decide +kernel
  · exact .inr ⟨by decide +kernel, (runHooks_started_eq_iff _ _ _).1 (by decide +kernel)⟩

/-- A hook for after the start. -/
def poststartPhase : Phases :=
  samplePhases [("hooks", .obj [("poststart", .arr [hookEntry "/bin/up"])])] willingHooks

/-- The first of two hooks before the start fails. -/
def prestartPhase : Phases :=
  samplePhases [("hooks", .obj [("prestart", .arr [hookEntry "/bin/false", hookEntry "/bin/up"])])]
    failingHooks

/-- Hooks that are not started in two successful lives: the one after the start, and the one after a
hook that has failed. -/
theorem hooks_not_started :
    (poststartPhase.Successful ∧ poststartPhase.hooks.poststart.length = 1 ∧
      poststartPhase.poststartStarted = []) ∧
    (prestartPhase.Successful ∧ prestartPhase.hooks.prestart.length = 2 ∧
      prestartPhase.prestartStarted.length = 1) := by
  refine ⟨⟨?_, by decide +kernel, by decide +kernel⟩, ⟨?_, by decide +kernel, by decide +kernel⟩⟩
  · exact samplePhases_successful (by decide +kernel)
  · exact samplePhases_successful (by decide +kernel)

end Runtime

end CcOciRuntime
