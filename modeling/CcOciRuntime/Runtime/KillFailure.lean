import CcOciRuntime.Runtime.StatusHistory

/-!
# What a failed kill leaves behind

A kill first stores that the container is stopping. When `kill(2)` fails, the status is put back, in
the configuration and in the state file; when the agent cannot be told about a signal that the shim
does not catch, it is not. `ociKill_failed_iff` says that a kill that fails although every state
file was written leaves the status as it was exactly if `kill(2)` failed, or there was nothing to
put back.

Reference: `cc_oci_kill` (`src/oci.c:229`), `cc_proxy_hyper_kill_container` (`src/proxy.c:1456`).
-/

namespace CcOciRuntime

namespace Runtime

/-- Reference: `cc_pod_container_id` (`src/pod.c:391`). -/
def podContainerId (config : Config) : Option String :=
  match config.pod with
  | some pod => if pod.sandbox then config.optargContainerId else pod.sandboxName
  | none => config.optargContainerId

/-- The result; `hyperCmd` is the answer of the agent to the command `killcontainer`. Reference:
`cc_proxy_hyper_kill_container` (`src/proxy.c:1456`). -/
def hyperKillContainer (env : CommandEnv) (config : Config) : Bool :=
  config.proxy.isSome && (podContainerId config).isSome && env.connected && env.attached &&
    env.hyperCmd

/-- What a kill leaves: the results of its calls that write the state file, the status in the
configuration, and whether it succeeds. -/
structure KillEnd where
  creates : List (Option Json)
  status : OciStatus
  ok : Bool

/-- The end of a kill at a call that writes the state file, after the results `before`: the status
is the configuration's, or `last` when the call fails. -/
def KillEnd.writing (before : List (Option Json)) (doc : Option Json) (status last : OciStatus) :
    KillEnd where
  creates := before ++ [doc]
  status := if doc.isSome then status else last
  ok := doc.isSome

/-- `cc_oci_kill` with the configuration and the calls that it makes; the VM's agent is reached
through the proxy. Reference: `src/oci.c:229-311`. -/
def ociKillEnd (config : Config) (st : OciState) (signum : Int) (env : CommandEnv) : KillEnd :=
  let create (status : OciStatus) (saved : Bool) :=
    stateFileCreate (config.withStatus status) st.createTime saved
  let lastStatus := config.state.status
  if podIsSandbox config then .writing [] (create .stopped (env.saved 0)) .stopped lastStatus
  else
    match create .stopping (env.saved 0) with
    | none => .writing [] none .stopping lastStatus
    | some stopping =>
      if ¬ env.killed then
        -- the result of this call is not looked at
        { creates := [some stopping, create lastStatus (env.saved 1)], status := lastStatus,
          ok := false }
      else if (signum = 9 ∨ signum = 19) ∧ ¬ hyperKillContainer env config then
        { creates := [some stopping], status := .stopping, ok := false }
      else .writing [some stopping] (create .stopped (env.saved 1)) .stopped .stopping

/-- Every call wrote the state file. -/
def KillEnd.saved (e : KillEnd) : Bool := e.creates.all Option.isSome

/-- The content of the state file after a kill. -/
def KillEnd.file (e : KillEnd) (file : Json) : Json := e.creates.reduceOption.getLastD file

section
variable {config : Config} {st : OciState} {signum : Int} {env : CommandEnv}

/-- An end at a call that writes the state file fails with the call. -/
theorem KillEnd.not_saved_writing {before : List (Option Json)} {doc : Option Json}
    {status last : OciStatus} (h : (KillEnd.writing before doc status last).ok = false) :
    (KillEnd.writing before doc status last).saved ≠ true := by
  cases doc with
  | none => simp [KillEnd.saved, KillEnd.writing]
  | some doc => cases h

/-- **The failures of a kill** that do not come from the state file: the signal could not be sent,
and the status is put back, or the agent could not be told. -/
theorem ociKillEnd_failed (hfail : (ociKillEnd config st signum env).ok = false)
    (hsaved : (ociKillEnd config st signum env).saved = true) :
    ∃ stopping, storedStatus stopping = some .stopping ∧
      (env.killed = false ∧ (∃ doc, storedStatus doc = some config.state.status ∧
          (ociKillEnd config st signum env).creates = [some stopping, some doc]) ∧
        (ociKillEnd config st signum env).status = config.state.status ∨
      env.killed = true ∧ (ociKillEnd config st signum env).creates = [some stopping] ∧
        (ociKillEnd config st signum env).status = .stopping) := by
  unfold ociKillEnd at hfail hsaved ⊢
  dsimp only at hfail hsaved ⊢
  by_cases hsandbox : podIsSandbox config = true
  · rw [if_pos hsandbox] at hfail hsaved
    exact absurd hsaved (KillEnd.not_saved_writing hfail)
  rw [if_neg hsandbox] at hfail hsaved ⊢
  cases hstopping : stateFileCreate (config.withStatus .stopping) st.createTime (env.saved 0) with
  | none =>
    rw [hstopping] at hsaved
    cases hsaved
  | some stopping =>
    rw [hstopping] at hfail hsaved
    refine ⟨stopping, storedStatus_of_stateFileCreate hstopping, ?_⟩
    dsimp only at hfail hsaved ⊢
    split_ifs at hfail hsaved ⊢ with hkilled hhyper
    · exact .inr ⟨hkilled, rfl, rfl⟩
    · exact absurd hsaved (KillEnd.not_saved_writing hfail)
    · cases hdoc : stateFileCreate (config.withStatus config.state.status) st.createTime
          (env.saved 1) with
      | none =>
        rw [hdoc] at hsaved
        cases hsaved
      | some doc =>
        exact .inl ⟨Bool.not_eq_true _ ▸ hkilled,
          ⟨doc, storedStatus_of_stateFileCreate hdoc, rfl⟩, rfl⟩

/-- **A failed kill changes nothing** exactly if `kill(2)` has failed or the container was stopping
already. The configuration is filled in from the state file, so that both say the same status
before; the kill fails, and not for a state file that could not be written. -/
theorem ociKill_failed_iff (config : Config) (st : OciState) (signum : Int) (env : CommandEnv)
    (file : Json) (hfile : storedStatus file = some config.state.status)
    (hfail : (ociKillEnd config st signum env).ok = false)
    (hsaved : (ociKillEnd config st signum env).saved = true) :
    (storedStatus ((ociKillEnd config st signum env).file file) = storedStatus file ∧
      (ociKillEnd config st signum env).status = config.state.status) ↔
    env.killed = false ∨ config.state.status = .stopping := by
  rw [KillEnd.file, hfile]
  obtain ⟨stopping, hstopping, hcases⟩ := ociKillEnd_failed hfail hsaved
  rcases hcases with ⟨hkilled, ⟨doc, hdoc, hends⟩, hstatus⟩ | ⟨hkilled, hends, hstatus⟩
  · rw [hends, hstatus]
    exact ⟨fun _ => .inl hkilled, fun _ => ⟨hdoc, rfl⟩⟩
  · rw [hends, hstatus, hkilled]
    constructor
    · exact fun h => .inr h.2.symm
    · rintro (h | h)
      · cases h
      · rw [h]
        exact ⟨hstopping, rfl⟩

end

/-- A running container whose process is gone. -/
theorem ociKill_failed_no_process :
    let config := sampleConfig.withStatus .running
    let env : CommandEnv := { saved := fun _ => true, killed := false }
    let st : OciState := { createTime := some "now" }
    ∃ file, stateFileCreate config (some "now") true = some file ∧
      (ociKillEnd config st 9 env).ok = false ∧
      (storedStatus ((ociKillEnd config st 9 env).file file) = storedStatus file ∧
          (ociKillEnd config st 9 env).status = .running ↔
        env.killed = false ∨ config.state.status = .stopping) := by
  intro config env st
  obtain ⟨file, hfile⟩ : ∃ file, stateFileCreate config (some "now") true = some file := ⟨_, rfl⟩
  refine ⟨file, hfile, rfl, ?_⟩
  exact ociKill_failed_iff config st 9 env file (storedStatus_of_stateFileCreate hfile) rfl rfl

/-- A kill of a running container by the signal 9 whose agent does not answer: it fails, and the
state file and the configuration say that the container is stopping. -/
theorem ociKill_failed_stopping :
    let config := sampleConfig.withStatus .running
    let env : CommandEnv := { saved := fun _ => true, hyperCmd := false }
    let st : OciState := { createTime := some "now" }
    ∃ file, stateFileCreate config (some "now") true = some file ∧
      storedStatus file = some .running ∧
      (ociKillEnd config st 9 env).ok = false ∧ (ociKillEnd config st 9 env).saved = true ∧
      storedStatus ((ociKillEnd config st 9 env).file file) = some .stopping ∧
      (ociKillEnd config st 9 env).status = .stopping := by
  intro config env st
  obtain ⟨file, hfile⟩ : ∃ file, stateFileCreate config (some "now") true = some file := ⟨_, rfl⟩
  obtain ⟨stopping, hstopping⟩ :
      ∃ doc, stateFileCreate (config.withStatus .stopping) (some "now") true = some doc := ⟨_, rfl⟩
  have hends : (ociKillEnd config st 9 env).creates =
      [stateFileCreate (config.withStatus .stopping) (some "now") true] := rfl
  refine ⟨file, hfile, storedStatus_of_stateFileCreate hfile, rfl, rfl, ?_, rfl⟩
  rw [KillEnd.file, hends, hstopping]
  exact storedStatus_of_stateFileCreate hstopping

end Runtime

end CcOciRuntime
