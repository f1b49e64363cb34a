import CcOciRuntime.Runtime.Identity
import CcOciRuntime.Runtime.LaunchFailure
import CcOciRuntime.Runtime.SpecSections

/-!
# Running hooks

The hooks of a phase are programs that are run one after the other, with the content of the state
file on their input. Before `start` a hook that fails ends the run; after `start` and after the end
of the container the others are still run. What the processes do is the environment's.

`create` runs the prestart hooks while the hypervisor's child waits for its command line. Their
result is only reported: `failing_prestart_hook_iff` says that the command line is held back and
`create` fails only if building that command line fails, too.

Reference: `cc_run_hook` (`src/process.c:320`), `cc_run_hooks` (`:1301`).
-/

namespace CcOciRuntime

namespace Runtime

/-! ## The runner -/

/-- The result of a write to the input of a hook; `epipe` is the error of a hook that has closed
it. -/
inductive PipeWrite
  | written
  | epipe
  | failed
  deriving DecidableEq

/-- What the process of a hook does, as far as the runtime sees it: whether it could be started, the
two writes to its input, and the exit code that has been noted when the main loop ends. -/
structure HookProcess where
  spawned : Bool := true
  state : PipeWrite := .written
  newline : PipeWrite := .written
  exitCode : Int32 := 0

/-- A hook that has closed its input counts as a success. Reference: `cc_run_hook`
(`src/process.c:320`). -/
def runHook (stateLength : Nat) (process : HookProcess) : Bool :=
  if stateLength = 0 ∨ ¬ process.spawned then false
  else
    match process.state, process.newline with
    | .failed, _ => false
    | .epipe, _ => true
    | .written, .failed => false
    | .written, .epipe => true
    | .written, .written => process.exitCode = 0

/-- A hook is started unless the state is empty or the process cannot be made. -/
def startsHook (stateLength : Nat) (process : HookProcess) : Bool :=
  0 < stateLength && process.spawned

/-- The answers to the calls that run the hooks of a phase: the main loop, the length of the state
file if it can be read, and the process of the hook at each position. -/
structure HooksEnv where
  loop : Bool := true
  stateLength : Option Nat
  process : Nat → HookProcess

/-- The result, and the hooks that have been started, in their order. -/
structure HooksRun where
  ok : Bool
  started : List OciCfgHook

/-- The hooks from position `i` on. Reference: `src/process.c:1334-1341`. -/
def runHookList (stateLength : Nat) (process : Nat → HookProcess) (stopOnFailure : Bool) :
    Nat → List OciCfgHook → HooksRun
  | _, [] => ⟨true, []⟩
  | i, hook :: hooks =>
    let started := if startsHook stateLength (process i) then [hook] else []
    if !runHook stateLength (process i) && stopOnFailure then ⟨false, started⟩
    else
      let rest := runHookList stateLength process stopOnFailure (i + 1) hooks
      ⟨rest.ok, started ++ rest.started⟩

/-- Reference: `cc_run_hooks` (`src/process.c:1301`). -/
def runHooks (hooks : List OciCfgHook) (env : HooksEnv) (stopOnFailure : Bool) : HooksRun :=
  match hooks with
  | [] => ⟨true, []⟩
  | _ :: _ =>
    match env.loop, env.stateLength with
    | true, some length => runHookList length env.process stopOnFailure 0 hooks
    | _, _ => ⟨false, []⟩

/-! ## The hooks that are started -/

section
variable {length i : Nat} {process : Nat → HookProcess} {stop : Bool} {hook : OciCfgHook}
  {hooks : List OciCfgHook} {env : HooksEnv}

/-- The first hook and those behind it. -/
theorem runHookList_started_cons :
    (runHookList length process stop i (hook :: hooks)).started =
      (if startsHook length (process i) then [hook] else []) ++
        if !runHook length (process i) && stop then []
        else (runHookList length process stop (i + 1) hooks).started := by
  rw [runHookList]
  cases !runHook length (process i) && stop
  · rfl
  · exact (List.append_nil _).symm

/-- Hooks are started in their order, and each at most once. -/
theorem runHookList_started_sublist (hooks : List OciCfgHook) :
    (runHookList length process stop i hooks).started.Sublist hooks := by
  induction hooks generalizing i with
  | nil => exact List.Sublist.refl []
  | cons hook hooks ih =>
    rw [runHookList_started_cons]
    have hhead : (if startsHook length (process i) then [hook] else []).Sublist [hook] := by
      split_ifs
      · exact List.Sublist.refl _
      · exact List.nil_sublist _
    refine hhead.append ?_
    split_ifs
    · exact List.nil_sublist _
    · exact ih

/-- The hooks from position `i` on can all be started; when a failure stops the run, all but the
last succeed. -/
def AllStart (length : Nat) (process : Nat → HookProcess) (stop : Bool) :
    Nat → List OciCfgHook → Prop
  | _, [] => True
  | i, _ :: hooks =>
    startsHook length (process i) = true ∧
      (stop = true → hooks ≠ [] → runHook length (process i) = true) ∧
      AllStart length process stop (i + 1) hooks

/-- **All hooks of a list are started** exactly when they can be and no failure stops the run. -/
theorem runHookList_started_eq_iff (hooks : List OciCfgHook) :
    (runHookList length process stop i hooks).started = hooks ↔
      AllStart length process stop i hooks := by
  induction hooks generalizing i with
  | nil => exact iff_of_true rfl trivial
  | cons hook hooks ih =>
    rw [runHookList_started_cons, AllStart]
    by_cases hstarts : startsHook length (process i) = true
    · rw [if_pos hstarts, List.singleton_append, List.cons_inj_right, and_iff_right hstarts]
      by_cases hstop : (!runHook length (process i) && stop) = true
      · -- the run ends here, so that this must be the last hook
        obtain ⟨hfails, hstop'⟩ := Bool.and_eq_true_iff.1 hstop
        rw [if_pos hstop]
        constructor
        · rintro rfl
          exact ⟨fun _ hne => absurd rfl hne, trivial⟩
        · rintro ⟨hruns, -⟩
          by_contra hne
          rw [hruns hstop' (Ne.symm hne)] at hfails
          cases hfails
      · have hruns : stop = true → hooks ≠ [] → runHook length (process i) = true := by
          intro hstop' _
          simpa [hstop'] using hstop
        rw [if_neg hstop, ih, and_iff_right hruns]
    · refine iff_of_false ?_ fun h => hstarts h.1
      rw [if_neg hstarts, List.nil_append]
      intro heq
      have hsub : (hook :: hooks).Sublist hooks := by
        rw [← heq]
        split_ifs
        · exact List.nil_sublist _
        · exact runHookList_started_sublist hooks
      exact absurd hsub.length_le (by simp)

end

/-- What the hooks of a phase need to be all started. -/
def HooksEnv.StartsAll (env : HooksEnv) (stop : Bool) (hooks : List OciCfgHook) : Prop :=
  hooks = [] ∨ env.loop = true ∧
    ∃ length, env.stateLength = some length ∧ AllStart length env.process stop 0 hooks

/-- When all hooks are started. -/
theorem runHooks_started_eq_iff (hooks : List OciCfgHook) (env : HooksEnv) (stop : Bool) :
    (runHooks hooks env stop).started = hooks ↔ env.StartsAll stop hooks := by
  cases hooks with
  | nil => exact iff_of_true rfl (.inl rfl)
  | cons hook hooks =>
    unfold runHooks HooksEnv.StartsAll
    cases env.loop with
    | false => simp
    | true =>
      cases env.stateLength with
      | none => simp
      | some length => simp [runHookList_started_eq_iff]

/-! ## A failing prestart hook -/

/-- A launch with these prestart hooks. -/
def LaunchEnv.withHooks (launch : LaunchEnv) (prestart : List OciCfgHook) (env : HooksEnv) :
    LaunchEnv :=
  { launch with hooks := (runHooks prestart env true).ok }

/-- The steps before the check of the hypervisor's child are all taken: its command line has been
written to the pipe that it reads. -/
def commandLineSent (env : LaunchEnv) (config : Config) : Bool :=
  ((launchSteps.takeWhile (· ≠ .childSetup)).foldlM (runStep env) { config }).isOk

/-- The steps before the prestart hooks are all taken. -/
def hooksReached (env : LaunchEnv) (config : Config) : Bool :=
  ((launchSteps.takeWhile (· ≠ .prestartHooks)).foldlM (runStep env) { config }).isOk

/-- The first steps of a launch are all taken exactly when no failure of theirs is noticed. -/
theorem isOk_foldlM_iff {env : LaunchEnv} {config : Config} {pre : List LaunchStep}
    (post : List LaunchStep) (hpre : launchSteps = pre ++ post) :
    (pre.foldlM (runStep env) { config }).isOk = true ↔ pre.find? (noticed env config) = none := by
  obtain ⟨hnone, s, hrun, -⟩ | ⟨pre', k, post', s, hfind, hpre', hs, hrun⟩ :=
    foldlM_stages (runStep env) (noticed env config) (Launching.At env config) pre [] _
      (.start env config) fun pre' k post' s hpre' hs hk => by
        have hsteps : launchSteps = pre' ++ k :: (post' ++ post) := by
          rw [hpre, ← List.nil_append pre, hpre', List.append_assoc, List.cons_append]
        exact runStep_goes hsteps hs hk
  · rw [hrun, hnone]
    exact iff_of_true rfl rfl
  · have hsteps : launchSteps = pre' ++ k :: (post' ++ post) := by
      rw [hpre, ← List.nil_append pre, hpre', List.append_assoc, List.cons_append]
    obtain ⟨exit, s', hstop, -⟩ := runStep_stops hsteps hs (List.find?_some hfind)
    rw [hrun _ hstop, hfind]
    exact iff_of_false (fun h => nomatch h) (fun h => nomatch h)

/-- The steps between the hooks and the check of the child. -/
def afterHooks : List LaunchStep :=
  [.prestartHooks, .netlinkInit, .netcfgGet, .networkCreate, .vmArgsGet, .joinArgs, .writeArgsLen,
    .writeArgs]

/-- **A failing prestart hook.** When `create` runs prestart hooks and the runner reports a failure:
the command line is not sent and `create` returns `false` exactly when the first failure that the
launch notices is the one of building that command line. -/
theorem failing_prestart_hook_iff (env : CreateEnv) (file : Option Json) (config config' : Config)
    (prestart : List OciCfgHook) (hooks : HooksEnv)
    (hprepared : prepare env file config = some config')
    (hdry : config'.dryRunMode = false) (hvm : podIsVm config' = true)
    (hreached : hooksReached env.launch config' = true)
    (hfailed : (runHooks prestart hooks true).ok = false) :
    let launch := env.launch.withHooks prestart hooks
    launch.hooks = false ∧
      ((commandLineSent launch config' = false ∧
          (ociCreate { env with launch } file config).ending = .returned false) ↔
        launchSteps.find? (noticed env.launch config') = some .vmArgsGet) := by
  intro launch
  refine ⟨hfailed, ?_⟩
  have hcreate : ociCreate { env with launch } file config = vmLaunch launch config' := by
    have hprepared' : prepare { env with launch } file config = some config' := hprepared
    rw [ociCreate, hprepared']
    dsimp only
    rw [hdry, hvm]
    rfl
  -- a launch does not look at the result of the hooks
  have hnoticed : noticed launch config' = noticed env.launch config' := by
    funext k
    cases k <;> rfl
  have hbefore : (launchSteps.takeWhile (· ≠ .prestartHooks)).find? (noticed launch config') =
      none := by
    rw [hnoticed]
    exact (isOk_foldlM_iff (launchSteps.dropWhile (· ≠ .prestartHooks)) rfl).1 hreached
  have hsent : commandLineSent launch config' = true ↔
      afterHooks.find? (noticed launch config') = none := by
    refine (isOk_foldlM_iff (launchSteps.dropWhile (· ≠ .childSetup)) rfl).trans ?_
    change (launchSteps.takeWhile (· ≠ .prestartHooks) ++ afterHooks).find? _ = none ↔ _
    rw [List.find?_append, hbefore, Option.none_or]
  rw [hcreate, ← hnoticed, ← Bool.not_eq_true, hsent]
  constructor
  · rintro ⟨hnotSent, hending⟩
    obtain ⟨k, hk⟩ := Option.ne_none_iff_exists'.1 hnotSent
    have hfirst : launchSteps.find? (noticed launch config') = some k := by
      change (launchSteps.takeWhile (· ≠ .prestartHooks) ++
        (afterHooks ++ launchSteps.dropWhile (· ≠ .childSetup))).find? _ = some k
      rw [List.find?_append, hbefore, Option.none_or, List.find?_append, hk, Option.some_or]
    have hhandled : k ∈ handledSteps := (vmLaunch_returned_false_iff hfirst).1 hending
    have honly : ∀ k ∈ afterHooks, k ∈ handledSteps → k = .vmArgsGet := by decide
    rw [hfirst, honly k (List.mem_of_find?_eq_some hk) hhandled]
  · intro hfirst
    refine ⟨fun hnone => ?_, (vmLaunch_returned_false_iff hfirst).2 (by decide)⟩
    exact List.find?_eq_none.1 hnone .vmArgsGet (by decide) (List.find?_some hfirst)

def falseHook : OciCfgHook := { path := .copy "/bin/false" }

/-- Every hook of this environment exits with an error. -/
def failingHooks : HooksEnv := { stateLength := some 100, process := fun _ => { exitCode := 256 } }

def sampleOptions : CreateOptions := { id := "c1", bundle := some "/bundle" }

/-- A host on which the arguments of the hypervisor cannot be built. -/
def argsFail : CreateEnv := { sampleHost with launch := { willingLaunch with vmArgs := false } }

/-- A failing hook where there are no arguments to send. -/
theorem failing_prestart_hook_args : ∃ config',
    prepare argsFail (some (.obj sampleSpec)) (commandSetup sampleOptions) =
        some config' ∧
      commandLineSent (argsFail.launch.withHooks [falseHook] failingHooks) config' = false ∧
      (ociCreate { argsFail with launch := argsFail.launch.withHooks [falseHook] failingHooks }
        (some (.obj sampleSpec)) (commandSetup sampleOptions)).ending =
          .returned false := by
  have hany : (prepare argsFail (some (.obj sampleSpec))
      (commandSetup sampleOptions)).any (fun c =>
        decide (c.dryRunMode = false ∧ podIsVm c = true ∧ hooksReached argsFail.launch c = true ∧
          launchSteps.find? (noticed argsFail.launch c) = some .vmArgsGet)) = true := by
    decide +kernel
  obtain ⟨config', hprepared, hconfig⟩ := (Option.any_eq_true _ _).1 hany
  obtain ⟨hdry, hvm, hreached, hargs⟩ := of_decide_eq_true hconfig
  have hiff := (failing_prestart_hook_iff argsFail _ _ config' [falseHook] failingHooks hprepared
    hdry hvm hreached (by decide)).2
  exact ⟨config', hprepared, hiff.2 hargs⟩

/-- The hook fails, the hypervisor is sent its command line, and `create` succeeds. -/
theorem failing_prestart_hook_ignored :
    (runHooks [falseHook] failingHooks true).ok = false ∧
      (prepare sampleHost (some (.obj sampleSpec))
        (commandSetup sampleOptions)).any (fun c =>
          hooksReached (willingLaunch.withHooks [falseHook] failingHooks) c &&
            commandLineSent (willingLaunch.withHooks [falseHook] failingHooks) c) = true ∧
      (runCreate sampleOptions
        { sampleHost with launch := willingLaunch.withHooks [falseHook] failingHooks }
        (some (.obj sampleSpec))).ending = .returned true := by
  decide +kernel

end Runtime

end CcOciRuntime
