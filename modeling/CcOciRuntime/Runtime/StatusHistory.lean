import CcOciRuntime.Runtime.Hooks
import CcOciRuntime.Runtime.Lifecycle

/-!
# The history of a container's status

The commands on a container share nothing but the status in its state file. `start` asks for the
status `created`, and a `kill` only puts back what was there. `pause` and `resume` look at the
status only to see whether there is nothing to do, `start` does not look at the answer for a
sandbox, and `create` writes over a state file. With a guard for these the status says `running` or
`paused` only if hyperstart has accepted the container and no `kill` has stopped it
(`status_of_guarded_history`).

Reference: `cc_oci_start` (`src/oci.c:647`), `cc_oci_kill` (`src/oci.c:229`), `cc_oci_toggle`
(`src/oci.c:958`).
-/

namespace CcOciRuntime

namespace Runtime

/-! ## The stored status -/

/-- The status that a state file says. -/
def storedStatus (doc : Json) : Option OciStatus := (stateFileRead doc).map OciState.status

/-- The status is written as it is. -/
theorem storedStatus_of_stateFileCreate {config : Config} {created : Option String} {saved : Bool}
    {doc : Json} (h : stateFileCreate config created saved = some doc) :
    storedStatus doc = some config.state.status := by
  obtain ⟨parts, hparts, rfl⟩ := stateFileCreate_eq_some h
  rw [storedStatus, stateFileRead_stateMembers hparts, Option.map_some, readBack,
    strToStatus_of_statusToStr hparts.status]

/-- The container is said to run, if only to be paused. -/
def OciStatus.active : OciStatus → Bool
  | .running | .paused => true
  | .created | .stopped | .stopping | .invalid => false

/-! ## What the commands store -/

section
variable {config : Config} {st : OciState} {env : CommandEnv} {doc : Json}

/-- A kill stores that it stops the container, or the status that it has found. -/
theorem ociKill_status {signum : Int} (h : doc ∈ (ociKill config st signum env).writes) :
    storedStatus doc = some .stopped ∨ storedStatus doc = some .stopping ∨
      storedStatus doc = some config.state.status := by
  obtain hws | ⟨doc', _, _, hws, hstatus, hdoc⟩ |
      ⟨first, doc', _, _, _, hws, hfirst, hstatus, hdoc⟩ := ociKill_cases config st signum env
  · rw [hws] at h
    cases h
  · rw [hws, List.mem_singleton] at h
    rw [h, storedStatus_of_stateFileCreate hdoc]
    obtain rfl | rfl := hstatus
    · exact .inl rfl
    · exact .inr (.inl rfl)
  · rw [hws, List.mem_pair] at h
    obtain rfl | rfl := h
    · exact .inr (.inl (storedStatus_of_stateFileCreate hfirst))
    · rw [storedStatus_of_stateFileCreate hdoc]
      obtain rfl | rfl := hstatus
      · exact .inl rfl
      · exact .inr (.inr rfl)

/-- A kill that has stored that the container is stopped stores nothing after that. -/
theorem ociKill_stopped_last {signum : Int} (h : doc ∈ (ociKill config st signum env).writes)
    (hstopped : storedStatus doc = some .stopped) :
    (ociKill config st signum env).writes.getLast? = some doc := by
  obtain hws | ⟨doc', _, _, hws, -, -⟩ | ⟨first, doc', _, _, _, hws, hfirst, -, -⟩ :=
    ociKill_cases config st signum env
  · rw [hws] at h
    cases h
  · rw [hws, List.mem_singleton] at h
    rw [hws, h]
    rfl
  · rw [hws, List.mem_pair] at h
    obtain rfl | rfl := h
    · cases hstopped.symm.trans (storedStatus_of_stateFileCreate hfirst)
    · rw [hws]
      rfl

/-- The call that has hyperstart make the container. A container of a pod needs the sandbox's name
for it. -/
def hyperAccepts (env : CommandEnv) (config : Config) : Bool :=
  match config.pod with
  | some pod => (pod.sandbox || pod.sandboxName.isSome) && (hyperNewPodContainer env config).2
  | none => (hyperNewPodContainer env config).2

/-- A start gets to that call. Reference: `src/oci.c:661-737`. -/
def startReaches (env : CommandEnv) (config : Config) (st : OciState) : Bool :=
  decide (st.status = .created) &&
    !(env.isTty && !config.detachedMode && config.pod.isNone && !env.procsockExists &&
      !env.monitored)

/-- A start that succeeds was accepted, or is of a sandbox. -/
theorem accepts_of_startWorkload (h : (startWorkload env config).2 = true) :
    hyperAccepts env config = true ∨ podIsSandbox config = true := by
  unfold startWorkload at h
  unfold hyperAccepts podIsSandbox
  cases hpod : config.pod with
  | none =>
    rw [hpod] at h
    exact .inl h
  | some pod =>
    rw [hpod] at h
    dsimp only at h ⊢
    split_ifs at h with hsandbox hname
    · exact .inr hsandbox
    · have hsome : pod.sandboxName.isSome = true := Option.isSome_iff_ne_none.2 fun hnone =>
        hname (Option.isNone_iff_eq_none.2 hnone)
      exact .inl (by rw [hsome, h, Bool.or_true, Bool.and_true])

theorem podIsSandbox_withBundle (config : Config) (env : CommandEnv) :
    podIsSandbox (config.withBundle env) = podIsSandbox config := by
  unfold Config.withBundle
  split <;> rfl

/-- A start stores that a created container runs, which hyperstart has accepted or is not asked
about. -/
theorem ociStart_status (h : doc ∈ (ociStart config st env).writes) :
    storedStatus doc = some .running ∧ st.status = .created ∧
      ((startReaches env (config.withBundle env) st &&
          hyperAccepts env (config.withBundle env)) = true ∨
        podIsSandbox config = true) := by
  refine ⟨?_, ?_⟩
  · obtain ⟨saved, hdoc⟩ := ociStart_writes h
    exact storedStatus_of_stateFileCreate hdoc
  · unfold ociStart at h
    by_cases hstatus : st.status ≠ .created
    · rw [if_pos hstatus] at h
      cases h
    rw [if_neg hstatus] at h
    dsimp only at h
    split_ifs at h with hmonitor hstarted
    · cases h
    · have hcreated : st.status = .created := not_not.1 hstatus
      have hreaches : startReaches env (config.withBundle env) st = true := by
        rw [startReaches, decide_eq_true hcreated, Bool.true_and, Bool.not_eq_true',
          Bool.eq_false_iff]
        exact hmonitor
      rw [hreaches, Bool.true_and, ← podIsSandbox_withBundle config env]
      exact ⟨hcreated, accepts_of_startWorkload hstarted⟩
    · cases h

/-- A pause or a resume stores its status. -/
theorem ociToggle_status {pause : Bool} (h : doc ∈ (ociToggle config st pause env).writes) :
    storedStatus doc = some (destStatus pause) := by
  unfold ociToggle at h
  split at h
  · cases h
  · split at h
    · cases h
    · obtain h | h := mem_writing h
      · cases h
      · exact storedStatus_of_stateFileCreate h

end

/-! ## What `create` stores -/

/-- The status is `created`, here and in every document that has been written. -/
structure Launching.AsCreated (s : Launching) : Prop where
  config : s.config.state.status = .created
  writes : ∀ doc ∈ s.writes, storedStatus doc = some .created

section
variable {env : LaunchEnv} {s : Launching}

/-- A write stores the same status. -/
theorem Launching.AsCreated.writeState (h : s.AsCreated) (timestamp : Option String)
    (saved : Bool) : (stateOf (s.writeState timestamp saved)).AsCreated := by
  unfold Launching.writeState
  cases hdoc : stateFileCreate s.config timestamp saved with
  | none => exact ⟨h.config, h.writes⟩
  | some doc =>
    refine ⟨h.config, fun d hd => ?_⟩
    obtain hold | hnew := List.mem_append.1 hd
    · exact h.writes d hold
    · rw [List.mem_singleton.1 hnew, storedStatus_of_stateFileCreate hdoc, h.config]

theorem Launching.AsCreated.assign_map {f : Launching → Launching}
    (hf : ∀ s : Launching, s.AsCreated → (f s).AsCreated) (h : s.AsCreated) (ok : Bool) :
    (stateOf ((s.assign ok).map f)).AsCreated := by
  cases ok with
  | false => exact ⟨h.config, h.writes⟩
  | true => exact hf _ ⟨h.config, h.writes⟩

/-- One step. -/
theorem runStep_asCreated (env : LaunchEnv) (s : Launching) (k : LaunchStep) (h : s.AsCreated) :
    (stateOf (runStep env s k)).AsCreated := by
  cases k with
  | timestamp | attach | childErrPipe | hypervisorArgsPipe | netlinkInit | netcfgGet | networkCreate
  | joinArgs | writeArgsLen | writeArgs | hyperPodCreate | proxyFd | writeProxyFd | allocateIo
  | writeIoBase | socketConnection =>
    rw [runStep, stateOf_check]
    exact h
  | connect =>
    rw [runStep, stateOf_check]
    exact ⟨rfl, h.writes⟩
  | fork | shimLaunch =>
    rw [runStep, stateOf_check]
    exact ⟨h.config, h.writes⟩
  | prestartHooks => exact h
  | disconnect => exact ⟨h.config, h.writes⟩
  | stateFile | recreateStateFile => exact h.writeState _ _
  | vmArgsGet | sendFd =>
    refine .assign_map ?_ h _
    intro s hs
    exact ⟨hs.config, hs.writes⟩
  | childSetup | shimSetup =>
    rw [runStep, Launching.checkChild]
    split_ifs
    · rw [stateOf_assign]
      exact ⟨h.config, h.writes⟩
    · exact h
  | waitUntilReady =>
    rw [runStep]
    cases waitUntilReady env s.config with
    | none => exact h
    | some ok =>
      dsimp only
      rw [stateOf_check]
      exact h
  | pidFile =>
    rw [runStep]
    cases s.config.pidFile with
    | none => exact h
    | some path =>
      dsimp only
      rw [stateOf_assign]
      exact ⟨h.config, h.writes⟩

/-- A launch sets the status before it writes anything. -/
theorem foldlM_runStep_created (env : LaunchEnv) (config : Config) (ks : List LaunchStep) :
    ∀ doc ∈ (stateOf ((.timestamp :: .connect :: ks).foldlM (runStep env) { config })).writes,
      storedStatus doc = some .created := by
  rw [List.foldlM_cons, runStep]
  cases env.timestamp.isSome with
  | false =>
    intro doc hdoc
    cases hdoc
  | true =>
    change ∀ doc ∈ (stateOf ((.connect :: ks).foldlM (runStep env) { config })).writes, _
    rw [List.foldlM_cons]
    have hconnect : (stateOf (runStep env { config } .connect)).AsCreated := by
      rw [runStep, stateOf_check]
      refine ⟨rfl, fun doc hdoc => ?_⟩
      cases hdoc
    cases hrun : runStep env { config } .connect with
    | error e =>
      rw [hrun] at hconnect
      exact hconnect.writes
    | ok s =>
      rw [hrun] at hconnect
      exact (foldlM_keeps (runStep_asCreated env) ks hconnect).writes

/-- **`create` stores the status `created`** and no other. -/
theorem ociCreate_status {env : CreateEnv} {file : Option Json} {config : Config} {doc : Json}
    (h : doc ∈ (ociCreate env file config).regs.writes) : storedStatus doc = some .created := by
  unfold ociCreate at h
  split at h
  · cases h
  · next config' _ =>
    split_ifs at h
    · cases h
    · rw [vmLaunch_regs] at h
      exact foldlM_runStep_created env.launch config' _ doc h
    · obtain hregs | hregs := podContainerCreate_regs env.launch config'
      · rw [hregs] at h
        cases h
      · rw [hregs] at h
        exact foldlM_runStep_created env.launch config' _ doc h

end

/-! ## Histories -/

/-- A command on the container, with what it gets from its environment, or the end of a `start` that
has waited for the shim: it cleans up unless the container is stopped by then. -/
inductive HistoryEvent
  | create (opts : CreateOptions) (env : CreateEnv) (spec : Option Json)
  | command (cmd : Command) (env : CommandEnv)
  | shimExit (cleanedUp : Bool)

/-- The state file and what has happened by now: hyperstart has accepted the container in a `start`,
and a `kill` has stored that it is stopped. -/
structure History where
  file : Option Json := none
  accepted : Bool := false
  killed : Bool := false

/-- The status that a state file says, if there is one. -/
def fileStatus (file : Option Json) : Option OciStatus := file.bind storedStatus

theorem fileStatus_eq (file : Option Json) :
    fileStatus file = (file.bind stateFileRead).map OciState.status := by
  cases file <;> rfl

/-- The configuration that a command works with, and the state it has read. -/
def commandConfig (id : String) (env : CommandEnv) (file : Option Json) :
    Option (Config × OciState) :=
  (getConfigAndState { configCreate with rootDir := env.rootDir, optargContainerId := some id }
    file).map fun r => (configUpdate r.1 r.2, r.2)

section
variable (id : String) (file : Option Json)

/-- The documents that a command writes. -/
def HistoryEvent.writes : HistoryEvent → List Json
  | .create opts env spec => (runCreate { opts with id } env spec).regs.writes
  | .command cmd env => (runCommand cmd id env file).writes
  | .shimExit _ => []

/-- The state file that is left. A cleanup removes it. Reference: `src/oci.c:797-810`. -/
def HistoryEvent.leaves : HistoryEvent → Option Json
  | .shimExit cleanedUp =>
    if cleanedUp = true ∧ fileStatus file ≠ some .stopped ∧ fileStatus file ≠ some .stopping then
      none
    else file
  | e => (e.writes id file).getLast?.or file

/-- Hyperstart accepts the container. -/
def HistoryEvent.accepts : HistoryEvent → Bool
  | .command .start env => (commandConfig id env file).any fun r =>
    startReaches env (r.1.withBundle env) r.2 && hyperAccepts env (r.1.withBundle env)
  | _ => false

/-- A kill stores that the container is stopped. -/
def HistoryEvent.kills : HistoryEvent → Bool
  | .command (.kill signum) env => (runCommand (.kill signum) id env file).writes.any fun doc =>
    decide (storedStatus doc = some .stopped)
  | _ => false

/-- One command. -/
def historyStep : Stepper History HistoryEvent := fun s e => some
  { file := e.leaves id s.file
    accepted := s.accepted || e.accepts id s.file
    killed := s.killed || e.kills id s.file }

/-- What the commands do not check by themselves: only a container that runs is paused or resumed,
hyperstart has accepted a sandbox that is started, and a container is created once. -/
def guarded (s : History) : HistoryEvent → Bool
  | .create _ _ _ => s.file.isNone
  | .command .start env =>
    !(commandConfig id env s.file).any (fun r => podIsSandbox r.1) ||
      (HistoryEvent.command .start env).accepts id s.file
  | .command .pause _ | .command .resume _ => (fileStatus s.file).any OciStatus.active
  | .command (.kill _) _ | .shimExit _ => true

/-- The statuses that a command can store. -/
inductive Stores : HistoryEvent → OciStatus → Prop
  | create {opts env spec} : Stores (.create opts env spec) .created
  | start {env} (hcreated : fileStatus file = some .created)
      (haccepted : (HistoryEvent.command .start env).accepts id file = true ∨
        (commandConfig id env file).any (fun r => podIsSandbox r.1) = true) :
      Stores (.command .start env) .running
  | pause {env} : Stores (.command .pause env) .paused
  | resume {env} : Stores (.command .resume env) .running
  | stopping {signum env} : Stores (.command (.kill signum) env) .stopping
  | stopped {signum env} : Stores (.command (.kill signum) env) .stopped
  | putBack {signum env status} (hstatus : fileStatus file = some status) :
      Stores (.command (.kill signum) env) status

end

section
variable {id : String} {file : Option Json} {e : HistoryEvent}

/-- The commands work on the configuration that is read. -/
theorem runCommand_eq (cmd : Command) (env : CommandEnv) :
    runCommand cmd id env file =
      match commandConfig id env file with
      | none => ⟨[], false⟩
      | some (config, st) =>
        match cmd with
        | .start => ociStart config st env
        | .kill signum => ociKill config st signum env
        | .pause => ociToggle config st true env
        | .resume => ociToggle config st false env := by
  unfold runCommand commandConfig
  cases getConfigAndState { configCreate with rootDir := env.rootDir, optargContainerId := some id }
    file <;> rfl

/-- A command works with the status of the file. -/
theorem fileStatus_of_commandConfig {env : CommandEnv} {config : Config} {st : OciState}
    (h : commandConfig id env file = some (config, st)) :
    fileStatus file = some st.status ∧ config.state.status = st.status := by
  obtain ⟨⟨c, st'⟩, hget, heq⟩ := Option.map_eq_some_iff.1 h
  obtain ⟨rfl, rfl⟩ := Prod.mk.inj heq
  unfold getConfigAndState at hget
  split at hget
  · next hread =>
    split at hget
    · cases hget
      refine ⟨?_, rfl⟩
      rw [fileStatus_eq, hread]
      rfl
    · cases hget
  · cases hget

/-- **What a command stores.** -/
theorem exists_stores {doc : Json} (h : doc ∈ e.writes id file) :
    ∃ status, storedStatus doc = some status ∧ Stores id file e status := by
  cases e with
  | create opts env spec => exact ⟨_, ociCreate_status h, .create⟩
  | command cmd env =>
    rw [HistoryEvent.writes, runCommand_eq] at h
    cases hconfig : commandConfig id env file with
    | none =>
      rw [hconfig] at h
      cases h
    | some r =>
      obtain ⟨config, st⟩ := r
      rw [hconfig] at h
      obtain ⟨hfile, hstatus⟩ := fileStatus_of_commandConfig hconfig
      cases cmd with
      | start =>
        obtain ⟨hrunning, hcreated, haccepted⟩ := ociStart_status h
        refine ⟨_, hrunning, .start (hcreated ▸ hfile) ?_⟩
        rw [HistoryEvent.accepts, hconfig]
        exact haccepted
      | kill signum =>
        obtain hs | hs | hs := ociKill_status h
        · exact ⟨_, hs, .stopped⟩
        · exact ⟨_, hs, .stopping⟩
        · exact ⟨_, hs, .putBack (hstatus ▸ hfile)⟩
      | pause => exact ⟨_, ociToggle_status h, .pause⟩
      | resume => exact ⟨_, ociToggle_status h, .resume⟩
  | shimExit cleanedUp => cases h

/-- What is left is what was written last, or what was there, or nothing of a container that was not
stopped. -/
theorem leaves_cases (id : String) (file : Option Json) (e : HistoryEvent) :
    (∃ doc, (e.writes id file).getLast? = some doc ∧ e.leaves id file = some doc) ∨
    (e.writes id file).getLast? = none ∧ (e.leaves id file = file ∨
      e.leaves id file = none ∧ fileStatus file ≠ some .stopped ∧
        fileStatus file ≠ some .stopping) := by
  have hwritten : e.leaves id file = (e.writes id file).getLast?.or file →
      (∃ doc, (e.writes id file).getLast? = some doc ∧ e.leaves id file = some doc) ∨
      (e.writes id file).getLast? = none ∧ e.leaves id file = file := by
    intro h
    rw [h]
    cases (e.writes id file).getLast? with
    | none => exact .inr ⟨rfl, rfl⟩
    | some doc => exact .inl ⟨doc, rfl, rfl⟩
  cases e with
  | create opts env spec => exact (hwritten rfl).imp_right fun h => ⟨h.1, .inl h.2⟩
  | command cmd env => exact (hwritten rfl).imp_right fun h => ⟨h.1, .inl h.2⟩
  | shimExit cleanedUp =>
    refine .inr ⟨rfl, ?_⟩
    rw [HistoryEvent.leaves]
    split_ifs with hclean
    · exact .inr ⟨rfl, hclean.2⟩
    · exact .inl rfl

/-- A command that kills leaves the status `stopped`. -/
theorem last_of_kills (h : e.kills id file = true) :
    ∃ last, (e.writes id file).getLast? = some last ∧ storedStatus last = some .stopped := by
  unfold HistoryEvent.kills at h
  split at h
  · next signum env =>
    obtain ⟨doc, hdoc, hstopped⟩ := List.any_eq_true.1 h
    rw [HistoryEvent.writes]
    rw [runCommand_eq] at hdoc ⊢
    cases hconfig : commandConfig id env file with
    | none =>
      rw [hconfig] at hdoc
      cases hdoc
    | some r =>
      rw [hconfig] at hdoc
      have hstatus := of_decide_eq_true hstopped
      exact ⟨doc, ociKill_stopped_last hdoc hstatus, hstatus⟩
  · cases h

end

/-! ## Guarded histories -/

/-- The status says that the container runs only if hyperstart has accepted it, and after a kill it
says that the container is stopped or stopping. -/
structure History.Sound (s : History) : Prop where
  accepted : ∀ status, fileStatus s.file = some status → status.active = true → s.accepted = true
  killed : s.killed = true →
    fileStatus s.file = some .stopped ∨ fileStatus s.file = some .stopping

section
variable {id : String} {s : History} {e : HistoryEvent} {status : OciStatus}

/-- Nothing that says that the container runs can be stored in place of a status after a kill. -/
theorem History.Sound.not_killed (hs : s.Sound) {old : OciStatus}
    (hold : fileStatus s.file = some old) (hne : old ≠ .stopped ∧ old ≠ .stopping) :
    s.killed = false := by
  rw [Bool.eq_false_iff]
  intro hkilled
  obtain h | h := hs.killed hkilled
  · exact hne.1 (Option.some.inj (hold.symm.trans h))
  · exact hne.2 (Option.some.inj (hold.symm.trans h))

/-- What a guarded command stores. -/
theorem History.Sound.stores (hs : s.Sound) (hg : guarded id s e = true)
    (h : Stores id s.file e status) :
    (status.active = true →
      (s.accepted || e.accepts id s.file) = true ∧ s.killed = false) ∧
      (s.killed = true → status = .stopped ∨ status = .stopping) := by
  have hactive : ∀ old, fileStatus s.file = some old → old.active = true →
      (s.accepted || e.accepts id s.file) = true ∧ s.killed = false := by
    intro old hold hact
    refine ⟨by rw [hs.accepted old hold hact, Bool.true_or], hs.not_killed hold ?_⟩
    constructor <;> (rintro rfl; cases hact)
  have hrunning : ∀ {old}, fileStatus s.file = some old → old ≠ .stopped ∧ old ≠ .stopping →
      s.killed = true → status = .stopped ∨ status = .stopping := by
    intro old hold hne hkilled
    rw [hs.not_killed hold hne] at hkilled
    cases hkilled
  cases h with
  | create =>
    refine ⟨fun hact => (nomatch hact), fun hkilled => ?_⟩
    -- there is no file that a kill could have left
    have hnone : s.file = none := Option.isNone_iff_eq_none.1 hg
    have hkept := hs.killed hkilled
    rw [hnone] at hkept
    obtain h | h := hkept <;> cases h
  | start hcreated haccepted =>
    have hne : OciStatus.created ≠ .stopped ∧ OciStatus.created ≠ .stopping := by decide
    refine ⟨fun _ => ⟨?_, hs.not_killed hcreated hne⟩, hrunning hcreated hne⟩
    rw [Bool.or_eq_true]
    right
    obtain h | hsandbox := haccepted
    · exact h
    · rw [guarded, hsandbox, Bool.not_true, Bool.false_or] at hg
      exact hg
  | pause | resume =>
    obtain ⟨old, hold, hact⟩ := (Option.any_eq_true _ _).1 hg
    refine ⟨fun _ => hactive old hold hact, hrunning hold ?_⟩
    constructor <;> (rintro rfl; cases hact)
  | stopping => exact ⟨fun hact => (nomatch hact), fun _ => .inr rfl⟩
  | stopped => exact ⟨fun hact => (nomatch hact), fun _ => .inl rfl⟩
  | putBack hstatus =>
    refine ⟨hactive status hstatus, fun hkilled => ?_⟩
    obtain h | h := hs.killed hkilled
    · exact .inl (Option.some.inj (hstatus.symm.trans h))
    · exact .inr (Option.some.inj (hstatus.symm.trans h))

/-- One guarded command. -/
theorem History.Sound.step {t : History} (hs : s.Sound) (hg : guarded id s e = true)
    (h : historyStep id s e = some t) : t.Sound := by
  obtain rfl := Option.some.inj h
  obtain ⟨doc, hlast, hfile⟩ | ⟨hlast, hkept⟩ := leaves_cases id s.file e
  · obtain ⟨status, hstatus, hstores⟩ := exists_stores (List.mem_of_getLast? hlast)
    obtain ⟨hactive, hkept⟩ := hs.stores hg hstores
    have hnew : fileStatus (e.leaves id s.file) = some status := by
      rw [hfile, fileStatus, Option.bind_some, hstatus]
    refine ⟨fun status' hstatus' hact => ?_, fun hkilled => ?_⟩
    · obtain rfl := Option.some.inj (hnew.symm.trans hstatus')
      exact (hactive hact).1
    · dsimp only
      rw [hnew]
      obtain hbefore | hkills := Bool.or_eq_true_iff.1 hkilled
      · obtain rfl | rfl := hkept hbefore
        · exact .inl rfl
        · exact .inr rfl
      · obtain ⟨last, hsome, hstopped⟩ := last_of_kills hkills
        obtain rfl := Option.some.inj (hlast.symm.trans hsome)
        exact .inl (hstatus.symm.trans hstopped)
  · -- nothing has been written
    have hkills : e.kills id s.file = false := by
      rw [Bool.eq_false_iff]
      intro hkills
      obtain ⟨last, hsome, -⟩ := last_of_kills hkills
      cases hlast.symm.trans hsome
    refine ⟨fun status hstatus hact => ?_, fun hkilled => ?_⟩
    · obtain hsame | ⟨hnone, -⟩ := hkept
      · rw [hsame] at hstatus
        dsimp only
        rw [hs.accepted status hstatus hact, Bool.true_or]
      · rw [hnone] at hstatus
        cases hstatus
    · rw [hkills, Bool.or_false] at hkilled
      obtain hsame | ⟨-, hstopped, hstopping⟩ := hkept
      · rw [hsame]
        exact hs.killed hkilled
      · obtain h | h := hs.killed hkilled
        · exact absurd h hstopped
        · exact absurd h hstopping

end

/-- **The status along a guarded history**, from the time there is no container: it says that the
container runs or is paused only if hyperstart has accepted it in a `start`, and after a kill has
stored that it is stopped no command stores that it runs or is paused. -/
theorem status_of_guarded_history (id : String) {ls : List HistoryEvent} {s : History}
    (hm : Meets (historyStep id) (fun s e => guarded id s e = true) {} ls)
    (h : exec (historyStep id) {} ls = some s) :
    (∀ status, fileStatus s.file = some status → status.active = true → s.accepted = true) ∧
    ∀ e, guarded id s e = true → ∀ doc ∈ e.writes id s.file, ∀ status,
      storedStatus doc = some status → status.active = true →
        (s.accepted || e.accepts id s.file) = true ∧ s.killed = false := by
  have hinit : History.Sound {} := ⟨fun _ h => (nomatch h), fun h => (nomatch h)⟩
  have hs : s.Sound := exec_invariant (fun _ _ _ hs hg hstep => hs.step hg hstep) hinit hm h
  refine ⟨hs.accepted, fun e hg doc hdoc status hstatus hact => ?_⟩
  obtain ⟨status', hstatus', hstores⟩ := exists_stores hdoc
  obtain rfl := Option.some.inj (hstatus.symm.trans hstatus')
  exact (hs.stores hg hstores).1 hact

/-! ## Samples -/

/-- The `create` of the sample, with the members `ms` of `config.json`, too. -/
def sampleCreated (ms : List (String × Json)) : HistoryEvent :=
  .create sampleOptions sampleHost (some (.obj (sampleSpec ++ ms)))

/-- A command to which everything in its environment answers well. -/
def willing (cmd : Command) : HistoryEvent := .command cmd { saved := fun _ => true }

/-- The status, whether hyperstart has accepted the container, and whether a kill has stopped it. -/
def outcome (ls : List HistoryEvent) : Option (Option OciStatus × Bool × Bool) :=
  (exec (historyStep "c1") {} ls).map fun s => (fileStatus s.file, s.accepted, s.killed)

/-- A container that is paused. -/
theorem status_of_guarded_history_paused : ∃ s,
    exec (historyStep "c1") {} [sampleCreated [], willing .start, willing .pause] = some s ∧
      fileStatus s.file = some .paused ∧ s.accepted = true := by
  have hpaused : outcome [sampleCreated [], willing .start, willing .pause] =
      some (some .paused, true, false) := by
    decide +kernel
  obtain ⟨s, hs, heq⟩ := Option.map_eq_some_iff.1 hpaused
  have hstatus : fileStatus s.file = some .paused := (Prod.mk.inj heq).1
  refine ⟨s, hs, hstatus, ?_⟩
  exact (status_of_guarded_history "c1" (by decide +kernel) hs).1 _ hstatus rfl

/-- The sandbox of a pod. -/
def sandboxMember : String × Json :=
  ("annotations", .obj [("ocid/container_type", .str "sandbox")])

/-- A container is paused that has never been started, one is resumed after a kill, one that is
created again after a kill is started, and a sandbox is said to run that hyperstart has refused. -/
theorem unguarded_histories :
    outcome [sampleCreated [], willing .pause] = some (some .paused, false, false) ∧
    outcome [sampleCreated [], willing (.kill 15), willing .resume] =
      some (some .running, false, true) ∧
    outcome [sampleCreated [], willing (.kill 15), sampleCreated [], willing .start] =
      some (some .running, true, true) ∧
    outcome [sampleCreated [sandboxMember],
        .command .start { saved := fun _ => true, hyperCmd := false }] =
      some (some .running, false, false) := by
  decide +kernel

end Runtime

end CcOciRuntime
