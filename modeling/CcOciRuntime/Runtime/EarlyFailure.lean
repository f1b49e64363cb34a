import CcOciRuntime.Runtime.PodCreate
import CcOciRuntime.Runtime.Create
import CcOciRuntime.Runtime.Unmounts

/-!
# Failures before anything is mounted or written

`create` makes the mounts and then launches the container. Which of its calls fails first decides
what it has done by then. `launch_unwritten_iff` says when a launch fails before the first write of
the state file, and `mounts_harmless_iff` when a list of mounts neither mounts anything nor does
something to a given file.

Reference: `src/oci.c:573-598`.
-/

namespace CcOciRuntime

namespace Runtime

/-- The launch of a container whose mounts are made. Reference: `src/oci.c:578-598`. -/
def createLaunch (env : LaunchEnv) (config : Config) : Launch :=
  if config.dryRunMode then { ending := .returned true, regs := { config } }
  else if podIsVm config then vmLaunch env config
  else podContainerCreate env config

/-! ## The first write of the state file -/

section
variable {env : LaunchEnv} {config : Config} {k : LaunchStep} {s : Launching}

/-- What one step writes: nothing, or a document if it is a write of the state file that goes
well. -/
theorem runStep_writes (env : LaunchEnv) (s : Launching) (k : LaunchStep) :
    (stateOf (runStep env s k)).writes = s.writes ∧
        (k = .stateFile → ∃ e, runStep env s k = .error e) ∨
      k ∈ [.stateFile, .recreateStateFile] ∧
        ∃ s' doc, runStep env s k = .ok s' ∧ s'.writes = s.writes ++ [doc] := by
  cases k with
  | timestamp | attach | childErrPipe | hypervisorArgsPipe | netlinkInit | netcfgGet | networkCreate
  | joinArgs | writeArgsLen | writeArgs | hyperPodCreate | proxyFd | writeProxyFd | allocateIo
  | writeIoBase | socketConnection | connect | fork | shimLaunch =>
    refine .inl ⟨?_, fun h => by cases h⟩
    rw [runStep, stateOf_check]
  | prestartHooks | disconnect => exact .inl ⟨rfl, fun h => by cases h⟩
  | stateFile | recreateStateFile =>
    rw [runStep, Launching.writeState]
    cases stateFileCreate s.config env.timestamp _ with
    | none => exact .inl ⟨rfl, fun _ => ⟨_, rfl⟩⟩
    | some doc => exact .inr ⟨by decide, _, doc, rfl, rfl⟩
  | vmArgsGet =>
    refine .inl ⟨?_, fun h => by cases h⟩
    rw [runStep]
    cases s.config.proxy.isSome && env.vmArgs <;> rfl
  | sendFd =>
    refine .inl ⟨?_, fun h => by cases h⟩
    rw [runStep]
    cases env.fdSent <;> rfl
  | childSetup | shimSetup =>
    refine .inl ⟨?_, fun h => by cases h⟩
    rw [runStep, Launching.checkChild_eq]
    split_ifs <;> rfl
  | waitUntilReady =>
    refine .inl ⟨?_, fun h => by cases h⟩
    rw [runStep]
    cases waitUntilReady env s.config with
    | none => rfl
    | some ok => exact congrArg Launching.writes (stateOf_check s ok _)
  | pidFile =>
    refine .inl ⟨?_, fun h => by cases h⟩
    rw [runStep]
    cases s.config.pidFile with
    | none => rfl
    | some path =>
      dsimp only
      rw [stateOf_assign]

/-- A run whose steps stop where a failure is noticed has written something exactly if the first
write is among the steps before that. -/
theorem writes_foldlM {ls : List LaunchStep} (J : List LaunchStep → Launching → Prop)
    (hstart : J [] { config })
    (hgoes : ∀ pre k post s, ls = pre ++ k :: post → J pre s → noticed env config k = false →
      ∃ s', runStep env s k = .ok s' ∧ J (pre ++ [k]) s')
    (hstops : ∀ pre k post s, ls = pre ++ k :: post → J pre s → noticed env config k = true →
      ∃ e, runStep env s k = .error e)
    (hnodup : ls.Nodup) (hfirst : .stateFile ∈ ls.takeWhile (· ≠ .recreateStateFile)) :
    (stateOf (ls.foldlM (runStep env) { config })).writes = [] ↔
      ∃ k, ls.find? (noticed env config) = some k ∧ .stateFile ∉ ls.takeWhile (· ≠ k) := by
  have hstep : ∀ pre k post s, [] ++ ls = pre ++ k :: post →
      J pre s ∧ (s.writes = [] ↔ .stateFile ∉ pre) → noticed env config k = false →
      ∃ s', runStep env s k = .ok s' ∧ J (pre ++ [k]) s' ∧
        (s'.writes = [] ↔ .stateFile ∉ pre ++ [k]) := by
    rintro pre k post s hls ⟨hJ, hwrites⟩ hk
    obtain ⟨s', hs', hJ'⟩ := hgoes pre k post s hls hJ hk
    refine ⟨s', hs', hJ', ?_⟩
    obtain ⟨hsame, hnot⟩ | ⟨hmem, s'', doc, hs'', hdoc⟩ := runStep_writes env s k
    · have hne : LaunchStep.stateFile ≠ k := by
        rintro rfl
        obtain ⟨e, he⟩ := hnot rfl
        cases hs'.symm.trans he
      rw [hs'] at hsame
      rw [mem_snoc hne, ← hwrites]
      exact hsame ▸ Iff.rfl
    · obtain rfl := Except.ok.inj (hs'.symm.trans hs'')
      refine iff_of_false (by rw [hdoc]; simp) (not_not.2 ?_)
      simp only [List.mem_cons, List.not_mem_nil, or_false] at hmem
      obtain rfl | rfl := hmem
      · exact List.mem_append_right _ List.mem_cons_self
      · rw [eq_takeWhile_of_nodup hnodup hls]
        exact List.mem_append_left _ hfirst
  obtain ⟨hnone, s, hrun, -, hwrites⟩ | ⟨pre, k, post, s, hfind, hls, ⟨hJ, hwrites⟩, hrun⟩ :=
    foldlM_stages (runStep env) (noticed env config) (fun pre s => J pre s ∧
      (s.writes = [] ↔ .stateFile ∉ pre)) ls [] _ ⟨hstart, iff_of_true rfl List.not_mem_nil⟩ hstep
  · rw [hrun]
    refine iff_of_false (fun h => hwrites.1 h ?_) ?_
    · exact (List.takeWhile_prefix _).subset hfirst
    · rintro ⟨k, hk, -⟩
      cases hnone.symm.trans hk
  · obtain ⟨e, he⟩ := hstops pre k post s hls hJ (List.find?_some hfind)
    have hsame : e.2.writes = s.writes := by
      obtain ⟨hsame, -⟩ | ⟨-, s', doc, hs', -⟩ := runStep_writes env s k
      · rwa [he] at hsame
      · cases he.symm.trans hs'
    rw [hrun e he, hfind]
    obtain ⟨exit, s'⟩ := e
    have hpre := eq_takeWhile_of_nodup hnodup hls
    constructor
    · intro h
      exact ⟨k, rfl, hpre ▸ hwrites.1 (hsame.symm.trans h)⟩
    · rintro ⟨k', hk', hnot⟩
      obtain rfl := Option.some.inj hk'
      exact hsame.trans (hwrites.2 (hpre ▸ hnot))

/-- The calls of a launch up to the first write of the state file. -/
def upToWrite (ls : List LaunchStep) : List LaunchStep :=
  ls.takeWhile (· ≠ .stateFile) ++ [.stateFile]

/-- A launch fails before the first write of the state file: a call up to it fails. For a container
of a pod with a pid file, it must not be one of those whose failure is not checked. -/
def FailsUnwritten (env : LaunchEnv) (config : Config) : Prop :=
  if podIsVm config then ∃ k ∈ upToWrite launchSteps, noticed env config k = true
  else ∃ k, (upToWrite podContainerSteps).find? (noticed env config) = some k ∧
    (k ∈ uncheckedPodSteps → config.pidFile = none)

/-- The first noticed failure is up to the write, or there is none there. -/
theorem find?_upToWrite {ls : List LaunchStep} (hls : upToWrite ls <+: ls) :
    (∃ k, ls.find? (noticed env config) = some k ∧ k ∈ upToWrite ls ∧
      (upToWrite ls).find? (noticed env config) = some k) ∨
    (upToWrite ls).find? (noticed env config) = none := by
  obtain ⟨rest, hrest⟩ := hls
  cases hfind : (upToWrite ls).find? (noticed env config) with
  | none => exact .inr rfl
  | some k =>
    refine .inl ⟨k, ?_, List.mem_of_find?_eq_some hfind, rfl⟩
    rw [← hrest, List.find?_append, hfind]
    rfl

/-- The launch of a VM. -/
theorem vmLaunch_unwritten_iff (env : LaunchEnv) (config : Config) :
    (vmLaunch env config).ending = .returned false ∧ (vmLaunch env config).regs.writes = [] ↔
      ∃ k ∈ upToWrite launchSteps, noticed env config k = true := by
  have hwrites := @writes_foldlM env config launchSteps (Launching.At env config)
    (.start env config) (fun _ _ _ _ h hs hk => runStep_goes h hs hk)
    (fun _ _ _ _ h hs hk => by
      obtain ⟨exit, s', he, -⟩ := runStep_stops h hs hk
      exact ⟨_, he⟩) (by decide) (by decide)
  rw [vmLaunch_regs, hwrites]
  constructor
  · rintro ⟨-, k, hfind, hk⟩
    refine ⟨k, ?_, List.find?_some hfind⟩
    have hall : ∀ k ∈ launchSteps, .stateFile ∉ launchSteps.takeWhile (· ≠ k) →
        k ∈ upToWrite launchSteps := by decide
    exact hall k (List.mem_of_find?_eq_some hfind) hk
  · rintro ⟨k, hk, hnoticed⟩
    obtain ⟨k', hfind, hk', -⟩ | hnone := @find?_upToWrite env config launchSteps (by decide)
    · have hhandled : ∀ k ∈ upToWrite launchSteps, k ∈ handledSteps ∧
          .stateFile ∉ launchSteps.takeWhile (· ≠ k) := by decide
      exact ⟨(vmLaunch_returned_false_iff hfind).2 (hhandled k' hk').1, k', hfind,
        (hhandled k' hk').2⟩
    · exact absurd hnoticed (List.find?_eq_none.1 hnone k hk)

/-- The launch of a container in a pod. -/
theorem podContainerCreate_unwritten_iff (env : LaunchEnv) (hpod : config.pod.isNone = false) :
    (podContainerCreate env config).ending = .returned false ∧
        (podContainerCreate env config).regs.writes = [] ↔
      ∃ k, (upToWrite podContainerSteps).find? (noticed env config) = some k ∧
        (k ∈ uncheckedPodSteps → config.pidFile = none) := by
  have hwrites : (podContainerCreate env config).regs.writes = [] ↔
      ∃ k, podContainerSteps.find? (noticed env config) = some k ∧
        .stateFile ∉ podContainerSteps.takeWhile (· ≠ k) := by
    by_cases hproxy : config.proxy.isNone = true
    · rw [podContainerCreate, if_pos (.inr hproxy)]
      obtain ⟨k, hfind, hk⟩ := @find?_noticed_of_no_proxy env config hproxy
      have hearly : ∀ k ∈ [LaunchStep.timestamp, .connect],
          .stateFile ∉ podContainerSteps.takeWhile (· ≠ k) := by decide
      exact iff_of_true rfl ⟨k, hfind, hearly k hk⟩
    · have hregs : (podContainerCreate env config).regs =
          stateOf (podContainerSteps.foldlM (runStep env) { config }) := by
        rw [podContainerCreate, if_neg (by rw [hpod]; simp [hproxy])]
        rcases podContainerSteps.foldlM (runStep env) { config } with ⟨exit, s⟩ | s
        · cases exit <;> rfl
        · rfl
      rw [hregs]
      exact writes_foldlM (Launching.PodAt env config) (.start env config)
        (fun _ _ _ _ h hs hk => pod_runStep_goes h hs hk)
        (fun _ _ _ _ h hs hk => by
          obtain ⟨exit, s', he, -⟩ := pod_runStep_stops h hs hk
          exact ⟨_, he⟩) (by decide) (by decide)
  have hchecked : ∀ k : LaunchStep, LaunchEnd.returned
      (config.pidFile.isSome && decide (k ∈ uncheckedPodSteps)) = .returned false ↔
        (k ∈ uncheckedPodSteps → config.pidFile = none) := by
    intro k
    rw [LaunchEnd.returned.injEq, Bool.and_eq_false_iff, decide_eq_false_iff_not,
      Option.isSome_eq_false_iff, Option.isNone_iff_eq_none, or_comm, imp_iff_not_or]
  rw [hwrites, podContainerCreate_ending hpod]
  constructor
  · rintro ⟨hending, k, hfind, hk⟩
    rw [hfind] at hending
    have hall : ∀ k ∈ podContainerSteps, .stateFile ∉ podContainerSteps.takeWhile (· ≠ k) →
        k ∈ upToWrite podContainerSteps := by decide
    have hmem := hall k (List.mem_of_find?_eq_some hfind) hk
    obtain ⟨k', hfind', -, hup⟩ | hnone := @find?_upToWrite env config podContainerSteps (by decide)
    · obtain rfl := Option.some.inj (hfind'.symm.trans hfind)
      exact ⟨k', hup, (hchecked k').1 hending⟩
    · exact absurd (List.find?_some hfind) (List.find?_eq_none.1 hnone k hmem)
  · rintro ⟨k, hup, hpid⟩
    obtain ⟨k', hfind, hmem, hup'⟩ | hnone :=
      @find?_upToWrite env config podContainerSteps (by decide)
    · obtain rfl := Option.some.inj (hup'.symm.trans hup)
      have hearly : ∀ k ∈ upToWrite podContainerSteps,
          .stateFile ∉ podContainerSteps.takeWhile (· ≠ k) := by decide
      rw [hfind]
      exact ⟨(hchecked k').2 hpid, k', rfl, hearly k' hmem⟩
    · cases hnone.symm.trans hup

/-- **When a launch fails before the first write of the state file.** -/
theorem launch_unwritten_iff (env : LaunchEnv) (config : Config) :
    (createLaunch env config).ending = .returned false ∧
        (createLaunch env config).regs.writes = [] ↔
      config.dryRunMode = false ∧ FailsUnwritten env config := by
  unfold createLaunch FailsUnwritten
  cases config.dryRunMode with
  | true => simp
  | false =>
    rw [if_neg Bool.false_ne_true]
    cases hvm : podIsVm config with
    | true =>
      rw [if_pos rfl, if_pos rfl, vmLaunch_unwritten_iff]
      simp
    | false =>
      have hpod : config.pod.isNone = false := by
        unfold podIsVm at hvm
        cases hpod : config.pod with
        | none =>
          rw [hpod] at hvm
          cases hvm
        | some pod => rfl
      rw [if_neg Bool.false_ne_true, if_neg Bool.false_ne_true,
        podContainerCreate_unwritten_iff env hpod]
      simp

end

/-! ## Mounts that leave the table and a file alone -/

/-- The calls of a mount whose failure ends the command; `source` is the look at its source. -/
inductive MountStep
  | mkdir
  | source
  | creat
  | mount
  deriving DecidableEq

/-- The place of a mount's destination. -/
def MountSpec.destPlace (env : HostEnv) (wd : String) (m : MountSpec) : Path :=
  resolve (FileSystem.origin env.cwd (destination wd m.dir)) (components (destination wd m.dir))

/-- The host on which the mount is performed. -/
def MountSpec.withDirectory (env : HostEnv) (wd : String) (host : Host) (m : MountSpec) : Host :=
  (mkdirWithParents env host (mountDirectory env host m (destination wd m.dir))).1

/-- The source of the mount is a regular file. -/
def MountSpec.isFile (env : HostEnv) (host : Host) (m : MountSpec) : Bool :=
  match host.stat env.cwd m.fsname with
  | some (.file _) => true
  | _ => false

/-- The host on which `mount(2)` is called: a regular file is mounted on a file, which is created.
-/
def MountSpec.prepared (env : HostEnv) (host : Host) (m : MountSpec) (dest : String) :
    Option Host :=
  if m.isFile env host then
    if env.creatOk host dest then host.creat env.cwd dest none else none
  else some host

/-- The call at which performing a mount fails. -/
def MountSpec.performFailure (env : HostEnv) (host : Host) (m : MountSpec) (dest : String) :
    Option MountStep :=
  if (host.stat env.cwd m.fsname).isNone then some .source
  else
    match m.prepared env host dest with
    | none => some .creat
    | some host₁ => if (mountOn env host₁ m dest).2 then none else some .mount

/-- The call at which a mount fails that is neither ignored nor skipped. -/
def MountSpec.failure (env : HostEnv) (dryRun : Bool) (wd : String) (host : Host) (m : MountSpec) :
    Option MountStep :=
  let dest := destination wd m.dir
  if (mkdirWithParents env host (mountDirectory env host m dest)).2 then
    if dryRun then none else m.performFailure env (m.withDirectory env wd host) dest
  else some .mkdir

/-- The mount neither mounts anything nor does something to the file at `sf`: it is skipped, it
fails before anything is done at its destination, or what is done there is done elsewhere and is not
a new mount. -/
def MountSpec.Harmless (env : HostEnv) (dryRun : Bool) (wd : String) (sf : Path) (host : Host)
    (m : MountSpec) : Prop :=
  m.Skipped env host ∨
    match m.failure env dryRun wd host with
    | some .mount => m.isFile env (m.withDirectory env wd host) = false ∨
      host.real (m.destPlace env wd) ≠ host.real sf
    | some _ => True
    | none => dryRun = true ∨
      m.makesMount = false ∧ host.real (m.destPlace env wd) ≠ host.real sf

/-- From `host` to `host'` nothing is mounted, and nothing is done to the file at `sf`. -/
structure Spared (sf : Path) (host host' : Host) : Prop where
  mounts : host'.mounts = host.mounts
  untouched : ∃ new, host'.touched = new ++ host.touched ∧ ∀ q ∈ new, host.real q ≠ host.real sf

section
variable {env : HostEnv} {dryRun : Bool} {wd dest : String} {sf : Path} {host host₁ host' : Host}
  {m : MountSpec}

theorem Spared.of_makes (h : FileSystem.Makes (fun q => host.real q ≠ host.real sf) host host') :
    Spared sf host host' :=
  ⟨h.mounts, h.touched⟩

/-- Performing a mount, call by call. -/
theorem performMount_eq (env : HostEnv) (host : Host) (m : MountSpec) (dest : String) :
    performMount env false host m dest =
      if (host.stat env.cwd m.fsname).isNone then (host, false)
      else
        match m.prepared env host dest with
        | none => (host, false)
        | some host₁ => mountOn env host₁ m dest := by
  unfold performMount MountSpec.prepared MountSpec.isFile
  cases host.stat env.cwd m.fsname with
  | none => rfl
  | some k => cases k <;> rfl

/-- What the creation of a file for a mount does: something at the destination, unless that is a
special file. -/
theorem prepared_spec (h : m.prepared env host dest = some host₁) :
    m.isFile env host = false ∧ host₁ = host ∨ m.isFile env host = true ∧ FileSystem.Makes
        (· = resolve (FileSystem.origin env.cwd dest) (components dest)) host host₁ ∧
      (host₁.touched = resolve (FileSystem.origin env.cwd dest) (components dest) :: host.touched ∨
        host.stat env.cwd dest = some .other) := by
  unfold MountSpec.prepared at h
  split_ifs at h with hfile hok
  · refine .inr ⟨hfile, (FileSystem.creat_spec h).1, ?_⟩
    unfold FileSystem.creat at h
    split at h
    · rename_i hother
      exact .inr hother
    · refine .inl ?_
      exact FileSystem.store_touched h
  · exact .inl ⟨Bool.not_eq_true _ ▸ hfile, (Option.some.inj h).symm⟩

/-- What performing a mount does, by the call at which it fails. -/
theorem performMount_effect (env : HostEnv) (host : Host) (m : MountSpec) (dest : String) :
    (performMount env false host m dest).2 = (m.performFailure env host dest).isNone ∧
    match m.performFailure env host dest with
    | some .mount => m.prepared env host dest = some (performMount env false host m dest).1
    | some _ => (performMount env false host m dest).1 = host
    | none => ∃ host₁, m.prepared env host dest = some host₁ ∧
        mountOn env host₁ m dest = ((performMount env false host m dest).1, true) := by
  rw [performMount_eq]
  unfold MountSpec.performFailure
  split_ifs
  · exact ⟨rfl, rfl⟩
  · cases m.prepared env host dest with
    | none => exact ⟨rfl, rfl⟩
    | some host₁ =>
      dsimp only
      obtain hmount | ⟨p, -, ⟨-, hmount⟩ | ⟨-, s, hcan, hmount⟩⟩ := mountOn_cases env host₁ m dest
      · rw [hmount]
        exact ⟨rfl, rfl⟩
      · rw [hmount]
        exact ⟨rfl, host₁, rfl, hmount⟩
      · rw [hmount]
        exact ⟨rfl, host₁, rfl, hmount⟩

/-- What a mount does that is neither ignored nor skipped, by the call at which it fails. -/
theorem handleMount_effect (hign : m.ignored = false) (hskip : ¬ m.Skipped env host) :
    (handleMount env dryRun wd host m).2.2 = (m.failure env dryRun wd host).isNone ∧
    match m.failure env dryRun wd host with
    | some .mount => m.prepared env (m.withDirectory env wd host) (destination wd m.dir) =
        some (handleMount env dryRun wd host m).1
    | some _ => (handleMount env dryRun wd host m).1 = m.withDirectory env wd host
    | none =>
      dryRun = true ∧ (handleMount env dryRun wd host m).1 = m.withDirectory env wd host ∨
      dryRun = false ∧ ∃ host₂,
        m.prepared env (m.withDirectory env wd host) (destination wd m.dir) = some host₂ ∧
        mountOn env host₂ m (destination wd m.dir) =
          ((handleMount env dryRun wd host m).1, true) := by
  rw [handleMount_reached hign hskip]
  unfold MountSpec.failure
  dsimp only
  cases (mkdirWithParents env host (mountDirectory env host m (destination wd m.dir))).2 with
  | false => exact ⟨rfl, rfl⟩
  | true =>
    cases dryRun with
    | true => exact ⟨rfl, .inl ⟨rfl, rfl⟩⟩
    | false =>
      obtain ⟨hok, heffect⟩ := performMount_effect env (m.withDirectory env wd host) m
        (destination wd m.dir)
      refine ⟨hok, ?_⟩
      rw [if_pos rfl, if_neg Bool.false_ne_true, if_pos rfl]
      revert heffect
      cases m.performFailure env (m.withDirectory env wd host) (destination wd m.dir) with
      | none => exact fun h => .inr ⟨rfl, h⟩
      | some k =>
        cases k with
        | mkdir | source | creat | mount => exact id

theorem makes_withDirectory (hsf : host.tree.Exists sf) (m : MountSpec) :
    FileSystem.Makes (fun q => host.real q ≠ host.real sf) host (m.withDirectory env wd host) := by
  refine (FileSystem.makes_mkdirs _ _).mono fun q hq hreal => hq.1 ?_
  rw [FileTree.Exists, FileSystem.tree_node, hreal]
  exact hsf

/-- A mount that is harmless leaves the table and the file alone. -/
theorem makes_of_harmless (hsf : host.tree.Exists sf) (hign : m.ignored = false)
    (h : m.Harmless env dryRun wd sf host) :
    FileSystem.Makes (fun q => host.real q ≠ host.real sf) host
      (handleMount env dryRun wd host m).1 := by
  by_cases hskip : m.Skipped env host
  · rw [handleMount_skipped hign hskip]
    exact .refl host
  have hdir := @makes_withDirectory env wd sf host hsf m
  obtain ⟨-, heffect⟩ := @handleMount_effect env dryRun wd host m hign hskip
  have h := h.resolve_left hskip
  cases hfail : m.failure env dryRun wd host with
  | none =>
    rw [hfail] at h heffect
    obtain ⟨hdry, hfinal⟩ | ⟨hlive, host₂, hprep, hmount⟩ := heffect
    · rwa [hfinal]
    · obtain ⟨hnot, hapart⟩ := h.resolve_left fun hdry => by cases hlive.symm.trans hdry
      have hprepared : FileSystem.Makes (fun q => host.real q ≠ host.real sf) host host₂ := by
        obtain ⟨-, rfl⟩ | ⟨-, hmakes, -⟩ := prepared_spec hprep
        · exact hdir
        · exact hdir.trans (hmakes.mono fun q hq => hq ▸ hapart)
      obtain hfails | ⟨p, hlook, ⟨-, htouch⟩ | ⟨hnew, -⟩⟩ := mountOn_cases env host₂ m _
      · cases (Prod.mk.inj (hmount.symm.trans hfails)).2
      · rw [(Prod.mk.inj (hmount.symm.trans htouch)).1]
        obtain rfl := FileSystem.resolve_of_lookup hlook
        exact hprepared.trans (FileSystem.makes_touch.mono fun q hq => hq ▸ hapart)
      · cases hnot.symm.trans hnew
  | some k =>
    rw [hfail] at h heffect
    cases k with
    | mkdir | source | creat =>
      have hfinal : (handleMount env dryRun wd host m).1 = m.withDirectory env wd host := heffect
      rwa [hfinal]
    | mount =>
      obtain ⟨-, hfinal⟩ | ⟨hfile, hmakes, -⟩ := prepared_spec heffect
      · rwa [hfinal]
      · have hapart := h.resolve_left fun hno => by cases hno.symm.trans hfile
        exact hdir.trans (hmakes.mono fun q hq => hq ▸ hapart)

/-- A mount that leaves the table and the file alone is harmless. -/
theorem harmless_of_spared {content : Option Json} (hsf : host.tree.node sf = some (.file content))
    (hign : m.ignored = false) (h : Spared sf host (handleMount env dryRun wd host m).1) :
    m.Harmless env dryRun wd sf host := by
  have hex : host.tree.Exists sf := fun hnone => by cases hnone.symm.trans hsf
  refine or_iff_not_imp_left.2 fun hskip => ?_
  have hdir := @makes_withDirectory env wd sf host hex m
  obtain ⟨new, hnew, haway⟩ := h.untouched
  -- something that is done at the destination shows in the log
  have hlog : ∀ rest : List Path, (handleMount env dryRun wd host m).1.touched =
      m.destPlace env wd :: rest ++ (m.withDirectory env wd host).touched →
      host.real (m.destPlace env wd) ≠ host.real sf := by
    intro rest hrest
    obtain ⟨made, hmade, -⟩ := hdir.touched
    rw [hmade, ← List.append_assoc, hnew] at hrest
    exact haway _ (List.append_cancel_right hrest ▸ List.mem_cons_self)
  -- a special file is not the file
  have hother : (m.withDirectory env wd host).stat env.cwd (destination wd m.dir) = some .other →
      host.real (m.destPlace env wd) ≠ host.real sf := by
    intro hstat hreal
    obtain ⟨p, hlook, hnode⟩ := Option.bind_eq_some_iff.1 hstat
    rw [← FileSystem.resolve_of_lookup hlook, FileSystem.tree_node, hdir.real_eq] at hnode
    rw [MountSpec.destPlace] at hreal
    rw [hreal] at hnode
    have hsame : (m.withDirectory env wd host).stored.node (host.real sf) =
        host.stored.node (host.real sf) := by
      by_contra hchange
      obtain ⟨q, hq, hqs⟩ := hdir.stored _ hchange
      exact hq hqs
    rw [hsame] at hnode
    cases hnode.symm.trans hsf
  obtain ⟨-, heffect⟩ := @handleMount_effect env dryRun wd host m hign hskip
  cases hfail : m.failure env dryRun wd host with
  | none =>
    rw [hfail] at heffect
    obtain ⟨hdry, -⟩ | ⟨-, host₂, hprep, hmount⟩ := heffect
    · exact .inl hdry
    · have hprepared : host₂.mounts = host.mounts ∧
          ∃ made, host₂.touched = made ++ (m.withDirectory env wd host).touched := by
        obtain ⟨-, rfl⟩ | ⟨-, hmakes, -⟩ := prepared_spec hprep
        · exact ⟨hdir.mounts, [], rfl⟩
        · obtain ⟨made, hmade, -⟩ := hmakes.touched
          exact ⟨hmakes.mounts.trans hdir.mounts, made, hmade⟩
      obtain ⟨hmounts, made, hmade⟩ := hprepared
      obtain hfails | ⟨p, hlook, ⟨hnot, htouch⟩ | ⟨-, s, hcan, hnew'⟩⟩ :=
        mountOn_cases env host₂ m _
      · cases (Prod.mk.inj (hmount.symm.trans hfails)).2
      · refine .inr ⟨hnot, hlog made ?_⟩
        rw [(Prod.mk.inj (hmount.symm.trans htouch)).1, MountSpec.destPlace,
          FileSystem.resolve_of_lookup hlook, List.cons_append, ← hmade]
        rfl
      · have hlen := congrArg List.length h.mounts
        rw [(Prod.mk.inj (hmount.symm.trans hnew')).1, ← hmounts] at hlen
        exact absurd hlen (Nat.succ_ne_self _)
  | some k =>
    rw [hfail] at heffect
    cases k with
    | mkdir | source | creat => trivial
    | mount =>
      obtain ⟨hno, -⟩ | ⟨-, -, htouch | hspecial⟩ := prepared_spec heffect
      · exact .inl hno
      · exact .inr (hlog [] htouch)
      · exact .inr (hother hspecial)

/-- Mounting only adds to the table and to the log. -/
theorem handleMount_adds (env : HostEnv) (dryRun : Bool) (wd : String) (host : Host)
    (m : MountSpec) : host.mounts <:+ (handleMount env dryRun wd host m).1.mounts ∧
      host.touched <:+ (handleMount env dryRun wd host m).1.touched := by
  cases hign : m.ignored with
  | true =>
    rw [handleMount_ignored hign]
    exact ⟨List.suffix_rfl, List.suffix_rfl⟩
  | false =>
    by_cases hskip : m.Skipped env host
    · rw [handleMount_skipped hign hskip]
      exact ⟨List.suffix_rfl, List.suffix_rfl⟩
    · rw [handleMount_reached hign hskip]
      dsimp only
      have hmk := @FileSystem.makes_mkdirs _ host env.cwd (env.mkdirOk host)
        (mountDirectory env host m (destination wd m.dir))
      obtain ⟨new, hnew, -⟩ := hmk.touched
      split_ifs
      · obtain ⟨host₂, hmakes, -, ⟨hsame, -⟩ | ⟨-, -, p, s, hcan, -, hperform⟩⟩ :=
          performMount_cases env dryRun
            (mkdirWithParents env host (mountDirectory env host m (destination wd m.dir))).1 m
            (destination wd m.dir)
        · obtain ⟨new', hnew', -⟩ := hmakes.touched
          rw [hsame]
          refine ⟨(hmakes.mounts.trans hmk.mounts) ▸ List.suffix_rfl, new' ++ new, ?_⟩
          rw [hnew', List.append_assoc]
          exact congrArg _ hnew.symm
        · obtain ⟨new', hnew', -⟩ := hmakes.touched
          rw [hperform]
          refine ⟨⟨[_], congrArg (_ :: ·) (hmakes.mounts.trans hmk.mounts).symm⟩,
            p :: (new' ++ new), ?_⟩
          change _ = p :: host₂.touched
          rw [hnew', List.cons_append, List.append_assoc]
          exact congrArg (p :: new' ++ ·) hnew.symm
      · exact ⟨hmk.mounts ▸ List.suffix_rfl, ⟨new, hnew.symm⟩⟩

/-- Mounts and entries of the log are only added. -/
theorem handleMountList_adds (env : HostEnv) (dryRun : Bool) (wd : String) :
    ∀ (specs : List MountSpec) (host : Host),
    host.mounts <:+ (handleMountList env dryRun wd host specs).1.mounts ∧
      host.touched <:+ (handleMountList env dryRun wd host specs).1.touched
  | [], _ => ⟨List.suffix_rfl, List.suffix_rfl⟩
  | m :: specs, host => by
    have hfirst := handleMount_adds env dryRun wd host m
    rw [handleMountList]
    generalize handleMount env dryRun wd host m = first at hfirst
    obtain ⟨host₁, m', _ | _⟩ := first
    · exact hfirst
    · obtain ⟨hmounts, htouched⟩ := handleMountList_adds env dryRun wd specs host₁
      exact ⟨hfirst.1.trans hmounts, hfirst.2.trans htouched⟩

/-- A run that spares the file does so in both of its parts. -/
theorem Spared.split (h : Spared sf host host')
    (h₁ : host.mounts <:+ host₁.mounts ∧ host.touched <:+ host₁.touched)
    (h₂ : host₁.mounts <:+ host'.mounts ∧ host₁.touched <:+ host'.touched) :
    Spared sf host host₁ ∧ Spared sf host₁ host' := by
  have hmounts : host₁.mounts = host.mounts := by
    refine (h₁.1.eq_of_length ?_).symm
    exact le_antisymm h₁.1.length_le (h.mounts ▸ h₂.1.length_le)
  have hreal : host₁.real = host.real := by
    funext q
    rw [FileSystem.real, FileSystem.real, hmounts]
  obtain ⟨new, hnew, haway⟩ := h.untouched
  obtain ⟨new₁, hnew₁⟩ := h₁.2
  obtain ⟨new₂, hnew₂⟩ := h₂.2
  have heq : new = new₂ ++ new₁ := by
    refine List.append_cancel_right (hnew.symm.trans ?_)
    rw [← hnew₂, ← hnew₁, List.append_assoc]
  subst heq
  refine ⟨⟨hmounts, new₁, hnew₁.symm, fun q hq => haway q (List.mem_append_right _ hq)⟩,
    h.mounts.trans hmounts.symm, new₂, hnew₂.symm, fun q hq => ?_⟩
  rw [hreal]
  exact haway q (List.mem_append_left _ hq)

/-- **A list of mounts that leaves the table and a file alone**: exactly one whose mounts are all
harmless, each on the host that it meets. -/
theorem mounts_harmless_iff {content : Option Json} : ∀ {specs : List MountSpec} {host : Host},
    host.tree.node sf = some (.file content) →
    (EachTurn (MountSpec.Harmless env dryRun wd sf) env dryRun wd host specs → FileSystem.Makes
      (fun q => host.real q ≠ host.real sf) host (handleMountList env dryRun wd host specs).1) ∧
    (Spared sf host (handleMountList env dryRun wd host specs).1 →
      EachTurn (MountSpec.Harmless env dryRun wd sf) env dryRun wd host specs)
  | [], host, _ => ⟨fun _ => .refl host, fun _ => trivial⟩
  | m :: specs, host, hsf => by
    have hex : host.tree.Exists sf := by
      rw [FileTree.Exists, hsf]
      exact Option.some_ne_none _
    have hadds := handleMount_adds env dryRun wd host m
    -- the file is still there for the mounts behind the first
    have hrest : ∀ host₁, FileSystem.Makes (fun q => host.real q ≠ host.real sf) host host₁ →
        host₁.tree.node sf = some (.file content) := by
      intro host₁ hmakes
      rw [FileSystem.tree_node, hmakes.real_eq]
      refine Eq.trans ?_ hsf
      by_contra hchange
      obtain ⟨q, hq, hqs⟩ := hmakes.stored _ hchange
      exact hq hqs
    have hone : (m.ignored = false → m.Harmless env dryRun wd sf host) → FileSystem.Makes
        (fun q => host.real q ≠ host.real sf) host (handleMount env dryRun wd host m).1 := by
      intro h
      cases hign : m.ignored with
      | true =>
        rw [handleMount_ignored hign]
        exact .refl host
      | false => exact makes_of_harmless hex hign (h hign)
    have hback : Spared sf host (handleMount env dryRun wd host m).1 → m.ignored = false →
        m.Harmless env dryRun wd sf host := fun h hign => harmless_of_spared hsf hign h
    rw [handleMountList, EachTurn]
    generalize handleMount env dryRun wd host m = first at hadds hone hback
    obtain ⟨host₁, m', ok⟩ := first
    have hreal : ∀ h : Spared sf host host₁, host₁.real = host.real := by
      intro h
      funext q
      rw [FileSystem.real, FileSystem.real, h.mounts]
    cases ok with
    | false => exact ⟨fun h => hone h.1, fun h => ⟨hback h, fun hok => by cases hok⟩⟩
    | true =>
      dsimp only
      constructor
      · rintro ⟨hfirst, hlater⟩
        have hmakes := hone hfirst
        have hmore := (mounts_harmless_iff (hrest host₁ hmakes)).1 (hlater rfl)
        rw [hreal (.of_makes hmakes)] at hmore
        exact hmakes.trans hmore
      · intro h
        obtain ⟨hfirst, hlater⟩ := h.split hadds (handleMountList_adds env dryRun wd specs host₁)
        have hmakes := hone (hback hfirst)
        exact ⟨hback hfirst, fun _ => (mounts_harmless_iff (hrest host₁ hmakes)).2 hlater⟩

/-- All mounts go well exactly if none fails. -/
theorem mounts_ok_iff : ∀ {specs : List MountSpec} {host : Host},
    (handleMountList env dryRun wd host specs).2.2 = true ↔
      EachTurn (fun host m => m.Skipped env host ∨ m.failure env dryRun wd host = none) env dryRun
        wd host specs
  | [], _ => iff_of_true rfl trivial
  | m :: specs, host => by
    have hone : (handleMount env dryRun wd host m).2.2 = true ↔ (m.ignored = false →
        m.Skipped env host ∨ m.failure env dryRun wd host = none) := by
      cases hign : m.ignored with
      | true =>
        rw [handleMount_ignored hign]
        exact iff_of_true rfl fun h => by cases h
      | false =>
        by_cases hskip : m.Skipped env host
        · rw [handleMount_skipped hign hskip]
          exact iff_of_true rfl fun _ => .inl hskip
        · rw [(handleMount_effect hign hskip).1, Option.isNone_iff_eq_none]
          exact ⟨fun h _ => .inr h, fun h => (h rfl).resolve_left hskip⟩
    rw [handleMountList, EachTurn, ← hone]
    generalize handleMount env dryRun wd host m = first
    obtain ⟨host₁, m', _ | _⟩ := first
    · exact iff_of_false (fun h => by cases h) fun h => by cases h.1
    · exact mounts_ok_iff.trans ⟨fun h => ⟨rfl, fun _ => h⟩, fun h => h.2 rfl⟩

end

end Runtime

end CcOciRuntime
