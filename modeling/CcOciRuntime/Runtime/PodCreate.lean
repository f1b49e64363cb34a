import CcOciRuntime.Runtime.LaunchFailure

/-!
# The creation of a container in a pod

The launch of a container in a pod writes the pid file before it has told the shim anything. The
result of the pid file stays in the result variable, so that with a pid file the failures after it
that leave by `out` without clearing the variable report success; without one they do not.
`podContainerCreate_sound_iff` says when a creation that reports success has taken all its steps.

Reference: `cc_pod_container_create` (`src/pod.c:205`).
-/

namespace CcOciRuntime

namespace Runtime

/-- Every step succeeds, except that the disconnection at the end may fail. -/
def PodSucceeds (env : LaunchEnv) (config : Config) : Prop :=
  ∀ k ∈ podContainerSteps, noticed env config k = false ∧ missed env k = false

/-- A creation that reports success only when every step succeeds. -/
def PodSound (env : LaunchEnv) (config : Config) : Prop :=
  (podContainerCreate env config).ending = .returned true → PodSucceeds env config

/-- The steps whose failure leaves with what the pid file has left in the result variable. -/
def uncheckedPodSteps : List LaunchStep :=
  [.proxyFd, .writeProxyFd, .allocateIo, .writeIoBase, .socketConnection]

section
variable {env : LaunchEnv} {config : Config} {k : LaunchStep} {pre post : List LaunchStep}
  {s : Launching}

/-- The result variable after the steps `pre`. -/
def podRetAt (env : LaunchEnv) (config : Config) (pre : List LaunchStep) : Bool :=
  if .disconnect ∈ pre then env.disconnected
  else config.pidFile.isSome && decide (.pidFile ∈ pre) || decide (.sendFd ∈ pre)

/-- What holds of the registers after the steps `pre`. -/
structure Launching.PodAt (env : LaunchEnv) (config : Config) (pre : List LaunchStep)
    (s : Launching) : Prop where
  ret : s.ret = podRetAt env config pre
  pid : .shimLaunch ∈ pre → 0 < s.config.state.workloadPid
  status : .connect ∈ pre → s.config.state.status = .created
  same : s.config.SameParts config
  pidFile : s.config.pidFile = config.pidFile

/-- The steps before a step of the creation. -/
theorem eq_before_pod (hpre : podContainerSteps = pre ++ k :: post) :
    pre = podContainerSteps.takeWhile (· ≠ k) :=
  eq_takeWhile_of_nodup (by decide) hpre

/-- A step that sets the result variable and writes the state file, at most. -/
theorem Launching.PodAt.snoc_ret (h : s.PodAt env config pre) (hk : k ∉ [.connect, .shimLaunch])
    (ret : Bool) (writes : List Json) (hret : ret = podRetAt env config (pre ++ [k])) :
    { s with ret, writes }.PodAt env config (pre ++ [k]) := by
  simp only [List.mem_cons, List.not_mem_nil, or_false, not_or] at hk
  refine ⟨hret, ?_, ?_, h.same, h.pidFile⟩
  · rw [mem_snoc (Ne.symm hk.2)]
    exact h.pid
  · rw [mem_snoc (Ne.symm hk.1)]
    exact h.status

/-- **One step that goes on.** -/
theorem pod_runStep_goes (hpre : podContainerSteps = pre ++ k :: post)
    (h : s.PodAt env config pre) (hk : noticed env config k = false) :
    ∃ s', runStep env s k = .ok s' ∧ s'.PodAt env config (pre ++ [k]) := by
  have hbefore := eq_before_pod hpre
  have hnot : ¬ noticed env config k = true := by rw [hk]; decide
  have hret := h.ret
  cases k with
  | timestamp | attach | proxyFd | writeProxyFd | allocateIo | writeIoBase | socketConnection =>
    refine ⟨s, Launching.check_ok ?_, h.snoc_ret (by decide) s.ret s.writes ?_⟩
    · simpa only [noticed, Bool.not_eq_false', Option.isNone_eq_false_iff] using hk
    · subst hbefore
      exact hret
  | connect =>
    have hok : (s.config.proxy.isSome && env.connected) = true := by
      rw [connected_eq h.same.proxy, hk, Bool.not_false]
    refine ⟨_, Launching.check_ok hok, ?_, ?_, fun _ => rfl, { h.same with }, h.pidFile⟩
    · subst hbefore
      exact hret
    · rw [mem_snoc (by decide)]
      exact h.pid
  | shimLaunch =>
    have hshim : (shimLaunch env.shim s.config).1.isSome = true := by
      rw [isSome_shimLaunch h.same.proxy, hk, Bool.not_false]
    refine ⟨{ s with shim := (shimLaunch env.shim s.config).1
                     config := s.config.withWorkloadPid (shimLaunch env.shim s.config).2 },
      Launching.check_ok hshim, ?_, fun _ => ?_, ?_, { h.same with }, h.pidFile⟩
    · subst hbefore
      exact hret
    · obtain ⟨pid, hpid⟩ := Option.isSome_iff_exists.1 hshim
      exact shimLaunch_snd hpid ▸ pid.2
    · rw [mem_snoc (by decide)]
      exact h.status
  | pidFile =>
    have hpid := h.pid (by subst hbefore; decide)
    refine ⟨_, (runStep_pidFile hpid h.pidFile).trans (if_neg hnot),
      h.snoc_ret (by decide) _ s.writes ?_⟩
    rw [hret]
    subst hbefore
    change (config.pidFile.isSome && false || false || config.pidFile.isSome) =
      (config.pidFile.isSome && true || false)
    rw [Bool.and_false, Bool.and_true, Bool.or_false, Bool.or_false, Bool.false_or]
  | sendFd =>
    refine ⟨_, (runStep_sendFd env config s).trans (if_neg hnot), ?_, ?_, ?_, { h.same with },
      h.pidFile⟩
    · subst hbefore
      exact (Bool.or_true _).symm
    · rw [mem_snoc (by decide)]
      exact h.pid
    · rw [mem_snoc (by decide)]
      exact h.status
  | shimSetup =>
    refine ⟨s, (Launching.checkChild_eq _ _).trans (if_neg hnot),
      h.snoc_ret (by decide) s.ret s.writes ?_⟩
    subst hbefore
    exact hret
  | stateFile =>
    obtain ⟨doc, hdoc⟩ := Launching.writeState_ok h.same (h.status (by subst hbefore; decide)) hk
    refine ⟨_, hdoc, h.snoc_ret (by decide) _ _ ?_⟩
    subst hbefore
    exact (Bool.or_true _).symm
  | disconnect =>
    refine ⟨_, rfl, h.snoc_ret (by decide) _ s.writes ?_⟩
    subst hbefore
    rfl
  | childErrPipe | hypervisorArgsPipe | fork | prestartHooks | netlinkInit | netcfgGet
  | networkCreate | vmArgsGet | joinArgs | writeArgsLen | writeArgs | childSetup | waitUntilReady
  | hyperPodCreate | recreateStateFile =>
    exact absurd (hpre ▸ List.mem_append_right pre List.mem_cons_self) (by decide)

/-- An exit after which the creation returns `ret`. -/
def Leaves (ret : Bool) (exit : LaunchExit) (s : Launching) : Prop :=
  exit = .out ∧ s.ret = ret ∨ exit = .returned ∧ ret = false

/-- **One step that stops**, with the result of the pid file if the failure is not checked. -/
theorem pod_runStep_stops (hpre : podContainerSteps = pre ++ k :: post)
    (h : s.PodAt env config pre) (hk : noticed env config k = true) :
    ∃ exit s', runStep env s k = .error (exit, s') ∧
      Leaves (config.pidFile.isSome && decide (k ∈ uncheckedPodSteps)) exit s' := by
  have hbefore := eq_before_pod hpre
  have hret := h.ret
  -- a result variable that a failed call has set
  have hassign : ∀ s' : Launching, s'.ret = false →
      Leaves (config.pidFile.isSome && false) .out s' := fun s' hfalse =>
    .inl ⟨rfl, hfalse.trans (Bool.and_false _).symm⟩
  cases k with
  | timestamp | attach | proxyFd | writeProxyFd | allocateIo | writeIoBase | socketConnection =>
    refine ⟨_, _, Launching.check_error ?_, .inl ⟨rfl, ?_⟩⟩
    · simpa [noticed] using hk
    · subst hbefore
      exact hret.trans (Bool.or_false _)
  | connect =>
    refine ⟨_, _, Launching.check_error ?_, .inr ⟨rfl, Bool.and_false _⟩⟩
    rw [connected_eq h.same.proxy, hk, Bool.not_true]
  | shimLaunch =>
    have hfalse : (shimLaunch env.shim s.config).1.isSome = false := by
      rw [isSome_shimLaunch h.same.proxy, hk, Bool.not_true]
    refine ⟨_, _, Launching.check_error hfalse, .inl ⟨rfl, ?_⟩⟩
    subst hbefore
    exact hret.trans (Bool.or_false _)
  | pidFile =>
    have hpid := h.pid (by subst hbefore; decide)
    exact ⟨_, _, (runStep_pidFile hpid h.pidFile).trans (if_pos hk), hassign _ rfl⟩
  | sendFd => exact ⟨_, _, (runStep_sendFd env config s).trans (if_pos hk), hassign _ rfl⟩
  | shimSetup => exact ⟨_, _, (Launching.checkChild_eq _ _).trans (if_pos hk), hassign _ rfl⟩
  | stateFile =>
    have hcreated := h.status (by subst hbefore; decide)
    exact ⟨_, _, Launching.writeState_error h.same hcreated hk, hassign _ rfl⟩
  | disconnect => cases hk
  | childErrPipe | hypervisorArgsPipe | fork | prestartHooks | netlinkInit | netcfgGet
  | networkCreate | vmArgsGet | joinArgs | writeArgsLen | writeArgs | childSetup | waitUntilReady
  | hyperPodCreate | recreateStateFile =>
    exact absurd (hpre ▸ List.mem_append_right pre List.mem_cons_self) (by decide)

/-- The registers when a creation starts. -/
theorem Launching.PodAt.start (env : LaunchEnv) (config : Config) :
    Launching.PodAt env config [] { config } :=
  ⟨by simp [podRetAt], fun h => (by cases h), fun h => (by cases h),
    ⟨rfl, rfl, rfl, rfl, rfl, rfl, rfl, rfl, rfl⟩, rfl⟩

/-- Without a proxy, a creation does not get past the connection. -/
theorem find?_noticed_of_no_proxy (h : config.proxy.isNone = true) :
    ∃ k, podContainerSteps.find? (noticed env config) = some k ∧ k ∈ [.timestamp, .connect] := by
  have hconnect : noticed env config .connect = true := by
    rw [noticed, ← Option.not_isNone, h]
    rfl
  cases htimestamp : noticed env config .timestamp with
  | true => exact ⟨.timestamp, List.find?_cons_of_pos htimestamp, by decide⟩
  | false =>
    refine ⟨.connect, ?_, by decide⟩
    rw [podContainerSteps, List.find?_cons_of_neg (by rw [htimestamp]; decide),
      List.find?_cons_of_pos hconnect]

/-- **What a creation returns**: with no failure noticed the result of the disconnection, else
whether the failure is not checked and there is a pid file. -/
theorem podContainerCreate_ending (hpod : config.pod.isNone = false) :
    (podContainerCreate env config).ending =
      .returned (match podContainerSteps.find? (noticed env config) with
        | some k => config.pidFile.isSome && decide (k ∈ uncheckedPodSteps)
        | none => env.disconnected) := by
  rw [podContainerCreate, hpod]
  by_cases hproxy : config.proxy.isNone = true
  · obtain ⟨k, hfind, hk⟩ := @find?_noticed_of_no_proxy env config hproxy
    have hearly : ∀ k ∈ [LaunchStep.timestamp, .connect], k ∉ uncheckedPodSteps := by decide
    rw [if_pos (.inr hproxy), hfind]
    dsimp only
    rw [decide_eq_false (hearly k hk), Bool.and_false]
  rw [if_neg (by rintro (h | h); cases h; exact hproxy h)]
  obtain ⟨hnone, s, hrun, hs⟩ | ⟨pre, k, post, s, hfind, hpre, hs, hrun⟩ :=
    foldlM_stages (runStep env) (noticed env config) (Launching.PodAt env config) podContainerSteps
      [] _ (.start env config) (fun pre k post s hpre hs hk => pod_runStep_goes hpre hs hk)
  · rw [hnone, hrun]
    exact congrArg LaunchEnd.returned hs.ret
  · obtain ⟨exit, s', herror, hleaves⟩ := pod_runStep_stops hpre hs (List.find?_some hfind)
    rw [hfind, hrun _ herror]
    obtain ⟨rfl, hret⟩ | ⟨rfl, hret⟩ := hleaves
    · exact congrArg LaunchEnd.returned hret
    · exact congrArg LaunchEnd.returned hret.symm

/-- The only failure that a creation goes past is that of the shim's setup. -/
theorem missed_of_mem_podContainerSteps (hk : k ∈ podContainerSteps)
    (h : missed env .shimSetup = false) : missed env k = false := by
  cases k with
  | shimSetup => exact h
  | childSetup | waitUntilReady => exact absurd hk (by decide)
  | _ => rfl

/-- The failure that ends a creation, if one does, is checked or finds no pid file; and one that
nobody notices, of the shim's setup, is followed by a failed disconnection. -/
def PodFailsHandled (env : LaunchEnv) (config : Config) : Prop :=
  match podContainerSteps.find? (noticed env config) with
  | some k => k ∈ uncheckedPodSteps → config.pidFile = none
  | none => missed env .shimSetup = true → env.disconnected = false

/-- **When the success of a creation is sound.** For every pattern of successes and failures of the
steps, with or without a pid file: a creation that returns true has taken all its steps exactly if
there is no pod, or the failures are handled. -/
theorem podContainerCreate_sound_iff (env : LaunchEnv) (config : Config) :
    PodSound env config ↔ config.pod = none ∨ PodFailsHandled env config := by
  unfold PodSound
  cases hpod : config.pod.isNone with
  | true =>
    have hending : (podContainerCreate env config).ending = .returned false := by
      rw [podContainerCreate, if_pos (.inl hpod)]
    rw [hending]
    exact iff_of_true (fun h => by cases h) (.inl (Option.isNone_iff_eq_none.1 hpod))
  | false =>
    have hsome : config.pod ≠ none := fun h => by rw [h] at hpod; cases hpod
    rw [or_iff_right hsome, podContainerCreate_ending hpod, PodFailsHandled]
    cases hfind : podContainerSteps.find? (noticed env config) with
    | some k =>
      have hfails : ¬ PodSucceeds env config := fun h => by
        have hk := (h k (List.mem_of_find?_eq_some hfind)).1
        rw [List.find?_some hfind] at hk
        cases hk
      dsimp only
      rw [imp_iff_not hfails, LaunchEnd.returned.injEq, Bool.and_eq_true, decide_eq_true_eq,
        Option.isSome_iff_ne_none, not_and, not_imp_comm, not_not]
    | none =>
      have hnoticed : ∀ k ∈ podContainerSteps, noticed env config k = false := fun k hk =>
        Bool.eq_false_iff.2 (List.find?_eq_none.1 hfind k hk)
      have hsucceeds : PodSucceeds env config ↔ missed env .shimSetup = false := by
        refine ⟨fun h => (h .shimSetup (by decide)).2, fun h k hk => ⟨hnoticed k hk, ?_⟩⟩
        exact missed_of_mem_podContainerSteps hk h
      rw [hsucceeds, LaunchEnd.returned.injEq]
      dsimp only
      cases env.disconnected <;> cases missed env .shimSetup <;> decide

end

/-- The sample container in a pod, with a pid file. -/
def podConfig : Config :=
  { sampleConfig with
    pod := some { sandbox := false, sandboxName := some "sandbox" }
    pidFile := some "/run/c1.pid" }

/-- The proxy refuses to allocate streams. -/
def refusedIo : LaunchEnv := { willingLaunch with ioBase := none }

/-- The creation reports success without the streams, the shim's setup and the state file; without
the pid file it reports the failure. -/
theorem failed_allocateIo_reports_success :
    noticed refusedIo podConfig .allocateIo = true ∧
      (podContainerCreate refusedIo podConfig).ending = .returned true ∧
      (podContainerCreate refusedIo podConfig).regs.writes.length = 0 ∧
      (podContainerCreate refusedIo { podConfig with pidFile := none }).ending = .returned false ∧
      ¬ PodSound refusedIo podConfig := by
  refine ⟨by decide, by decide, rfl, by decide, fun h => ?_⟩
  have hsucceeds : PodSucceeds refusedIo podConfig := h (by decide)
  exact absurd (hsucceeds .allocateIo (by decide)).1 (by decide)

end Runtime

end CcOciRuntime
