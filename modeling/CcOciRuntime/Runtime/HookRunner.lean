import CcOciRuntime.Runtime.Hooks

/-!
# The verdict on the hooks

The hooks of a phase share one main loop. The runner starts a hook, adds a watch for its end, writes
the state to its input, and runs the loop until a watch quits it. A write that finds the input
closed ends the wait for this hook before it has begun: the hook counts as a success, and its watch
stays in the loop, where it can end the wait for a later hook and overwrite that hook's exit code.

`timedHooks` is the runner with the processes' ends in time, as far as the environment decides them
(`HookTiming`); it refines `runHooks` (`timedHooks_eq_runHooks`). `hooks_verdict_iff` says for which
hooks the verdict is right whatever the timing.

Reference: `cc_run_hook` (`src/process.c:320`), `cc_run_hooks` (`:1301`), `cc_oci_hook_watcher`
(`:268`).
-/

namespace CcOciRuntime

namespace Runtime

/-! ## The runner in time -/

/-- What comes of the two writes to the input of a hook: the first that is not accepted decides. -/
def HookProcess.input (process : HookProcess) : PipeWrite :=
  match process.state with
  | .written => process.newline
  | ret => ret

/-- What the environment decides about the ends of the processes. -/
structure HookTiming where
  /-- the process `j`, whose end has not been noticed, has ended when the hook `k` is started, or,
  for the number of hooks, when the runner returns -/
  ended : Nat → Nat → Bool
  /-- the loop of the hook `i` dispatches the watch of the process `j` -/
  fired : Nat → Nat → Bool
  /-- the exit code of the hook `i` once a watch has been dispatched whose hook has returned: it
  writes through a pointer to a variable that is gone -/
  clobbered : Nat → Int32

/-- The start of a hook, with the processes whose ends have not been noticed by then. -/
structure HookStart where
  position : Nat
  hook : OciCfgHook
  unnoticed : List Nat

/-- A run of hooks: the result, the starts in their order, and the processes whose ends have not
been noticed when it returns. -/
structure HookTrace where
  ok : Bool
  starts : List HookStart
  unnoticed : List Nat

/-- The watches that the loop of the hook `i` dispatches before it ends: at least one, and that of
the hook if there is no other. -/
def HookTiming.dispatched (t : HookTiming) (i : Nat) (watches : List Nat) : List Nat :=
  match watches.filter (t.fired i) with
  | [] => [i]
  | j :: js => j :: js

/-- The wait for the hook `i`, whose process exits with `exitCode`, with the other watches that are
left from earlier hooks: the exit code noted, and the watches that stay. Reference:
`src/process.c:489-497`. -/
def HookTiming.wait (t : HookTiming) (i : Nat) (exitCode : Int32) (pending : List Nat) :
    Int32 × List Nat :=
  let dispatched := t.dispatched i (i :: pending)
  (if dispatched = [i] then exitCode else t.clobbered i,
    (i :: pending).filter (· ∉ dispatched))

/-- A hook that has been started: the result, and the watches that stay. Reference:
`src/process.c:454-501`. -/
def HookTiming.finish (t : HookTiming) (i : Nat) (process : HookProcess) (pending : List Nat) :
    Bool × List Nat :=
  match process.input with
  | .failed => (false, i :: pending)
  | .epipe => (true, i :: pending)
  | .written =>
    let (exitCode, pending) := t.wait i process.exitCode pending
    (decide (exitCode = 0), pending)

/-- The hooks from position `i` on, which a failure stops; `exitCode` is now the status with which
the process exits. Reference: `src/process.c:1334-1341`. -/
def timedHookList (length : Nat) (process : Nat → HookProcess) (t : HookTiming) :
    (i : Nat) → (pending : List Nat) → List OciCfgHook → HookTrace
  | _, pending, [] => ⟨true, [], pending⟩
  | i, pending, hook :: hooks =>
    if startsHook length (process i) then
      let start : HookStart := ⟨i, hook, pending⟩
      let (ok, pending) := t.finish i (process i) pending
      if ok then
        let rest := timedHookList length process t (i + 1) pending hooks
        { rest with starts := start :: rest.starts }
      else ⟨false, [start], pending⟩
    else ⟨false, [], pending⟩

/-- Reference: `cc_run_hooks` (`src/process.c:1301`). -/
def timedHooks (hooks : List OciCfgHook) (env : HooksEnv) (t : HookTiming) : HookTrace :=
  match hooks with
  | [] => ⟨true, [], []⟩
  | _ :: _ =>
    match env.loop, env.stateLength with
    | true, some length => timedHookList length env.process t 0 [] hooks
    | _, _ => ⟨false, [], []⟩

section
variable {length i : Nat} {process : Nat → HookProcess} {t : HookTiming} {pending : List Nat}
  {hook : OciCfgHook} {hooks : List OciCfgHook}

theorem timedHookList_not_started (h : startsHook length (process i) = false) :
    timedHookList length process t i pending (hook :: hooks) = ⟨false, [], pending⟩ := by
  rw [timedHookList, h]
  rfl

/-- A hook that fails is the last. -/
theorem timedHookList_fails (hstarts : startsHook length (process i) = true)
    (h : (t.finish i (process i) pending).1 = false) :
    timedHookList length process t i pending (hook :: hooks) =
      ⟨false, [⟨i, hook, pending⟩], (t.finish i (process i) pending).2⟩ := by
  rw [timedHookList, if_pos hstarts]
  dsimp only
  rw [h]
  rfl

/-- A hook that succeeds is not. -/
theorem timedHookList_goes (hstarts : startsHook length (process i) = true)
    (h : (t.finish i (process i) pending).1 = true) :
    timedHookList length process t i pending (hook :: hooks) =
      let rest := timedHookList length process t (i + 1) (t.finish i (process i) pending).2 hooks
      { rest with starts := ⟨i, hook, pending⟩ :: rest.starts } := by
  rw [timedHookList, if_pos hstarts]
  dsimp only
  rw [if_pos h]

/-! ## The runner without time -/

/-- The exit code that is noted for a hook. -/
theorem runHook_noted (hstarts : startsHook length (process i) = true) :
    runHook length { process i with exitCode := (t.wait i (process i).exitCode pending).1 } =
      (t.finish i (process i) pending).1 := by
  unfold startsHook at hstarts
  obtain ⟨hlength, hspawned⟩ := (Bool.and_eq_true_iff).1 hstarts
  have hnot : ¬ (length = 0 ∨ ¬ (process i).spawned = true) := by
    rintro (h | h)
    · exact absurd (of_decide_eq_true hlength) (by omega)
    · exact h hspawned
  unfold runHook HookTiming.finish HookProcess.input
  rw [if_neg hnot]
  cases (process i).state <;> cases (process i).newline <;> rfl

theorem runHookList_congr {process process' : Nat → HookProcess} {stop : Bool}
    (hooks : List OciCfgHook) (h : ∀ j, i ≤ j → process j = process' j) :
    runHookList length process stop i hooks = runHookList length process' stop i hooks := by
  induction hooks generalizing i with
  | nil => rfl
  | cons hook hooks ih =>
    rw [runHookList, runHookList, h i (Nat.le_refl i),
      ih fun j hj => h j (Nat.le_of_succ_le hj)]

/-- What the runner notes of the processes makes the same run without time. -/
theorem exists_noted (hooks : List OciCfgHook) : ∀ (i : Nat) (pending : List Nat),
    ∃ noted : Nat → HookProcess, (∀ j, ∃ code, noted j = { process j with exitCode := code }) ∧
      (runHookList length noted true i hooks).ok =
        (timedHookList length process t i pending hooks).ok ∧
      (runHookList length noted true i hooks).started =
        (timedHookList length process t i pending hooks).starts.map HookStart.hook := by
  induction hooks with
  | nil => exact fun i pending => ⟨process, fun j => ⟨_, rfl⟩, rfl, rfl⟩
  | cons hook hooks ih =>
    intro i pending
    cases hstarts : startsHook length (process i) with
    | false =>
      have hfails : runHook length (process i) = false := by
        rw [runHook, if_pos]
        by_contra hnot
        simp_all [startsHook, Nat.pos_iff_ne_zero]
      refine ⟨process, fun j => ⟨_, rfl⟩, ?_, ?_⟩ <;>
        rw [runHookList, timedHookList_not_started hstarts, hfails, hstarts] <;> rfl
    | true =>
      obtain ⟨noted, hnoted, hok, hstarted⟩ := ih (i + 1) (t.finish i (process i) pending).2
      let here : HookProcess :=
        { process i with exitCode := (t.wait i (process i).exitCode pending).1 }
      have hhere : runHook length here = (t.finish i (process i) pending).1 := runHook_noted hstarts
      have hstarts' : startsHook length here = true := hstarts
      have hrest : runHookList length (Function.update noted i here) true (i + 1) hooks =
          runHookList length noted true (i + 1) hooks :=
        runHookList_congr hooks fun j hj => Function.update_of_ne (by omega) _ _
      refine ⟨Function.update noted i here, fun j => ?_, ?_⟩
      · by_cases hj : j = i
        · subst hj
          exact ⟨_, Function.update_self _ _ _⟩
        · rw [Function.update_of_ne hj]
          exact hnoted j
      · rw [runHookList, Function.update_self, hhere, hrest, hstarts']
        cases hfinish : (t.finish i (process i) pending).1 with
        | false =>
          rw [timedHookList_fails hstarts hfinish]
          exact ⟨rfl, rfl⟩
        | true =>
          rw [timedHookList_goes hstarts hfinish]
          exact ⟨hok, congrArg (hook :: ·) hstarted⟩

/-- **The runner in time** is the runner without it, on the exit codes that are noted. -/
theorem timedHooks_eq_runHooks (hooks : List OciCfgHook) (env : HooksEnv) (t : HookTiming) :
    ∃ noted : Nat → HookProcess, (∀ j, ∃ code, noted j = { env.process j with exitCode := code }) ∧
      runHooks hooks { env with process := noted } true =
        ⟨(timedHooks hooks env t).ok, (timedHooks hooks env t).starts.map HookStart.hook⟩ := by
  cases hooks with
  | nil => exact ⟨env.process, fun j => ⟨_, rfl⟩, rfl⟩
  | cons hook hooks =>
    unfold timedHooks runHooks
    cases env.loop with
    | false => exact ⟨env.process, fun j => ⟨_, rfl⟩, rfl⟩
    | true =>
      cases env.stateLength with
      | none => exact ⟨env.process, fun j => ⟨_, rfl⟩, rfl⟩
      | some length =>
        obtain ⟨noted, hnoted, hok, hstarted⟩ :=
          @exists_noted length env.process t (hook :: hooks) 0 []
        refine ⟨noted, hnoted, ?_⟩
        dsimp only
        rw [← hok, ← hstarted]

/-! ## The verdict -/

/-- The verdict on the hooks from position `i` on is right: they are started in their order, each
after the earlier ones have ended and none after one that fails, and the result is true exactly if
every hook was started and has ended with status 0. -/
structure HookVerdict (process : Nat → HookProcess) (t : HookTiming) (i : Nat)
    (hooks : List OciCfgHook) (trace : HookTrace) : Prop where
  order : trace.starts.map (fun s => (s.hook, s.position)) =
    (hooks.zipIdx i).take trace.starts.length
  after : ∀ s ∈ trace.starts, ∀ j ∈ s.unnoticed, t.ended s.position j = true
  stops : ∀ s ∈ trace.starts, ∀ j, i ≤ j → j < s.position → (process j).exitCode = 0
  result : trace.ok = true ↔ trace.starts.length = hooks.length ∧
    ∀ j, i ≤ j → j < i + hooks.length →
      (process j).exitCode = 0 ∧ (j ∈ trace.unnoticed → t.ended (i + hooks.length) j = true)

/-- The hooks from position `i` on for which the verdict is right whatever the timing. Of the hooks
that are reached, one that is started accepts both writes; or it has closed its input and the next
one cannot be started; or a write fails, and it is not the last or does not succeed. -/
def HooksSound (length : Nat) (process : Nat → HookProcess) : Nat → List OciCfgHook → Prop
  | _, [] => True
  | i, _ :: hooks =>
    startsHook length (process i) = true →
      match (process i).input with
      | .written => (process i).exitCode = 0 → HooksSound length process (i + 1) hooks
      | .epipe => hooks ≠ [] ∧ startsHook length (process (i + 1)) = false
      | .failed => hooks ≠ [] ∨ (process i).exitCode ≠ 0

/-- The wait for a hook with no watch left from another is for that hook. -/
theorem wait_nil (exitCode : Int32) : t.wait i exitCode [] = (exitCode, []) := by
  have hdispatched : t.dispatched i [i] = [i] := by
    unfold HookTiming.dispatched
    cases hfired : t.fired i i <;> simp [hfired]
  rw [HookTiming.wait, hdispatched]
  simp

theorem mem_wait {exitCode : Int32} {j : Nat} (h : j ∈ (t.wait i exitCode pending).2) :
    j = i ∨ j ∈ pending :=
  List.mem_cons.1 (List.mem_filter.1 h).1

theorem mem_finish {j : Nat} (h : j ∈ (t.finish i (process i) pending).2) :
    j = i ∨ j ∈ pending := by
  unfold HookTiming.finish at h
  split at h
  · exact List.mem_cons.1 h
  · exact List.mem_cons.1 h
  · exact mem_wait (show j ∈ (t.wait i (process i).exitCode pending).2 from h)

/-- The processes whose ends are not noticed were started here or are left from before. -/
theorem mem_unnoticed {j : Nat}
    (h : j ∈ (timedHookList length process t i pending hooks).unnoticed) : i ≤ j ∨ j ∈ pending := by
  induction hooks generalizing i pending with
  | nil => exact .inr h
  | cons hook hooks ih =>
    have hfinish : ∀ {j}, j ∈ (t.finish i (process i) pending).2 → i ≤ j ∨ j ∈ pending := by
      intro j hj
      obtain rfl | hj := mem_finish hj
      · exact .inl (Nat.le_refl j)
      · exact .inr hj
    cases hstarts : startsHook length (process i) with
    | false =>
      rw [timedHookList_not_started hstarts] at h
      exact .inr h
    | true =>
      cases hok : (t.finish i (process i) pending).1 with
      | false =>
        rw [timedHookList_fails hstarts hok] at h
        exact hfinish h
      | true =>
        rw [timedHookList_goes hstarts hok] at h
        obtain hj | hj := ih h
        · exact .inl (Nat.le_of_succ_le hj)
        · exact hfinish hj

/-- A verdict of failure is right when the hook that has been started is not the last or has not
succeeded. -/
theorem HookVerdict.failed {unnoticed : List Nat} (h : hooks ≠ [] ∨ (process i).exitCode ≠ 0) :
    HookVerdict process t i (hook :: hooks) ⟨false, [⟨i, hook, []⟩], unnoticed⟩ where
  order := rfl
  after s hs j hj := by
    rw [List.mem_singleton.1 hs] at hj
    cases hj
  stops s hs j hij hj := by
    rw [List.mem_singleton.1 hs] at hj
    exact absurd hij (Nat.not_le.2 hj)
  result := by
    refine iff_of_false Bool.false_ne_true ?_
    rintro ⟨hlength, hall⟩
    obtain h | h := h
    · exact h (List.length_eq_zero_iff.1 (Nat.succ.inj hlength).symm)
    · exact h (hall i (Nat.le_refl i) (Nat.lt_add_of_pos_right (Nat.succ_pos _))).1

/-- A verdict before any hook is started is one of failure. -/
theorem HookVerdict.not_started : HookVerdict process t i (hook :: hooks) ⟨false, [], pending⟩ where
  order := rfl
  after s hs := by cases hs
  stops s hs := by cases hs
  result := iff_of_false Bool.false_ne_true fun h => by cases h.1

/-- **One hook that succeeds**: the verdict is that on the hooks after it. -/
theorem hookVerdict_cons {trace : HookTrace} (hcode : (process i).exitCode = 0)
    (hi : i ∉ trace.unnoticed) :
    HookVerdict process t i (hook :: hooks)
        { trace with starts := ⟨i, hook, []⟩ :: trace.starts } ↔
      HookVerdict process t (i + 1) hooks trace := by
  have hlength : i + (hook :: hooks).length = i + 1 + hooks.length := by
    rw [List.length_cons, Nat.add_assoc, Nat.add_comm 1]
  have hall : (∀ j, i ≤ j → j < i + (hook :: hooks).length → (process j).exitCode = 0 ∧
        (j ∈ trace.unnoticed → t.ended (i + (hook :: hooks).length) j = true)) ↔
      ∀ j, i + 1 ≤ j → j < i + 1 + hooks.length → (process j).exitCode = 0 ∧
        (j ∈ trace.unnoticed → t.ended (i + 1 + hooks.length) j = true) := by
    rw [hlength]
    refine ⟨fun h j hj => h j (Nat.le_of_succ_le hj), fun h j hj hlt => ?_⟩
    obtain rfl | hj := Nat.eq_or_lt_of_le hj
    · exact ⟨hcode, fun hmem => absurd hmem hi⟩
    · exact h j hj hlt
  constructor
  · intro h
    exact ⟨(List.cons.inj h.order).2, fun s hs => h.after s (List.mem_cons_of_mem _ hs),
      fun s hs j hj => h.stops s (List.mem_cons_of_mem _ hs) j (Nat.le_of_succ_le hj),
      h.result.trans (and_congr Nat.succ_inj hall)⟩
  · intro h
    refine ⟨congrArg ((hook, i) :: ·) h.order, fun s hs => ?_, fun s hs j hij hj => ?_,
      h.result.trans (and_congr Nat.succ_inj hall).symm⟩
    · obtain rfl | hs := List.mem_cons.1 hs
      · exact fun j hj => by cases hj
      · exact h.after s hs
    · obtain rfl | hs := List.mem_cons.1 hs
      · exact absurd hij (Nat.not_le.2 hj)
      · obtain rfl | hij := Nat.eq_or_lt_of_le hij
        · exact hcode
        · exact h.stops s hs j hij hj

/-- A timing in which a process whose end is not noticed has ended, or not. -/
def HookTiming.always (ended : Bool) : HookTiming :=
  ⟨fun _ _ => ended, fun _ _ => true, fun _ => 0⟩

theorem finish_written (hinput : (process i).input = .written) :
    t.finish i (process i) [] = (decide ((process i).exitCode = 0), []) := by
  rw [HookTiming.finish, hinput]
  dsimp only
  rw [wait_nil]

theorem finish_epipe (hinput : (process i).input = .epipe) :
    t.finish i (process i) pending = (true, i :: pending) := by
  rw [HookTiming.finish, hinput]

theorem finish_failed (hinput : (process i).input = .failed) :
    t.finish i (process i) pending = (false, i :: pending) := by
  rw [HookTiming.finish, hinput]

/-- A hook that has closed its input is not waited for: the verdict is right for every timing only
if another hook comes and cannot be started. -/
theorem hookVerdict_epipe (hstarts : startsHook length (process i) = true)
    (hinput : (process i).input = .epipe) :
    (∀ t, HookVerdict process t i (hook :: hooks)
        (timedHookList length process t i [] (hook :: hooks))) ↔
      hooks ≠ [] ∧ startsHook length (process (i + 1)) = false := by
  have hgoes : ∀ t : HookTiming, timedHookList length process t i [] (hook :: hooks) =
      let rest := timedHookList length process t (i + 1) [i] hooks
      { rest with starts := ⟨i, hook, []⟩ :: rest.starts } := by
    intro t
    rw [timedHookList_goes hstarts (by rw [finish_epipe hinput]), finish_epipe hinput]
  cases hooks with
  | nil =>
    refine iff_of_false (fun h => ?_) fun h => h.1 rfl
    have hresult := (h (.always false)).result
    rw [hgoes] at hresult
    have hover := ((hresult.1 rfl).2 i (Nat.le_refl i) (Nat.lt_succ_self i)).2 List.mem_cons_self
    cases hover
  | cons next hooks =>
    cases hnext : startsHook length (process (i + 1)) with
    | false =>
      refine iff_of_true (fun t => ?_) ⟨List.cons_ne_nil _ _, rfl⟩
      rw [hgoes, timedHookList_not_started hnext]
      exact .failed (.inl (List.cons_ne_nil _ _))
    | true =>
      refine iff_of_false (fun h => ?_) fun h => by cases h.2
      -- the next hook is started while this one may still be running
      have hstart : ⟨i + 1, next, [i]⟩ ∈ (timedHookList length process (.always false) (i + 1) [i]
          (next :: hooks)).starts := by
        cases hok : ((HookTiming.always false).finish (i + 1) (process (i + 1)) [i]).1 with
        | false =>
          rw [timedHookList_fails hnext hok]
          exact List.mem_cons_self
        | true =>
          rw [timedHookList_goes hnext hok]
          exact List.mem_cons_self
      have hafter := (h (.always false)).after ⟨i + 1, next, [i]⟩
      rw [hgoes] at hafter
      cases hafter (List.mem_cons_of_mem _ hstart) i List.mem_cons_self

/-- **The verdict on a list of hooks** is right for every timing exactly if they are sound. -/
theorem hookVerdict_iff (hooks : List OciCfgHook) (i : Nat) :
    (∀ t, HookVerdict process t i hooks (timedHookList length process t i [] hooks)) ↔
      HooksSound length process i hooks := by
  induction hooks generalizing i with
  | nil =>
    refine iff_of_true (fun t => ⟨rfl, fun s hs => (by cases hs), fun s hs => (by cases hs), ?_⟩)
      trivial
    exact iff_of_true rfl ⟨rfl, fun j hj hlt => absurd hj (Nat.not_le.2 hlt)⟩
  | cons hook hooks ih =>
    rw [HooksSound]
    cases hstarts : startsHook length (process i) with
    | false =>
      refine iff_of_true (fun t => ?_) fun h => by cases h
      rw [timedHookList_not_started hstarts]
      exact .not_started
    | true =>
      rw [forall_prop_of_true rfl]
      cases hinput : (process i).input with
      | epipe => exact hookVerdict_epipe hstarts hinput
      | failed =>
        have hfails : ∀ t : HookTiming, timedHookList length process t i [] (hook :: hooks) =
            ⟨false, [⟨i, hook, []⟩], [i]⟩ := fun t => by
          rw [timedHookList_fails hstarts (by rw [finish_failed hinput]), finish_failed hinput]
        refine ⟨fun h => ?_, fun h t => by rw [hfails]; exact .failed h⟩
        by_contra hnot
        obtain ⟨hlast, hcode⟩ := not_or.1 hnot
        obtain rfl := not_not.1 hlast
        have hresult := (h (.always true)).result
        rw [hfails] at hresult
        refine Bool.false_ne_true (hresult.2 ⟨rfl, fun j hj hlt => ⟨?_, fun _ => rfl⟩⟩)
        obtain rfl := Nat.le_antisymm hj (Nat.le_of_lt_succ hlt)
        exact not_not.1 hcode
      | written =>
        by_cases hcode : (process i).exitCode = 0
        · have hgoes : ∀ t : HookTiming, timedHookList length process t i [] (hook :: hooks) =
              let rest := timedHookList length process t (i + 1) [] hooks
              { rest with starts := ⟨i, hook, []⟩ :: rest.starts } := fun t => by
            rw [timedHookList_goes hstarts (by rw [finish_written hinput, hcode]; rfl),
              finish_written hinput]
          dsimp only
          rw [forall_prop_of_true hcode, ← ih]
          refine forall_congr' fun t => ?_
          rw [hgoes]
          refine hookVerdict_cons hcode fun hmem => ?_
          obtain h | h := mem_unnoticed hmem
          · exact Nat.not_succ_le_self i h
          · cases h
        · refine iff_of_true (fun t => ?_) fun h => absurd h hcode
          have hok : (t.finish i (process i) []).1 = false := by
            rw [finish_written hinput]
            exact decide_eq_false hcode
          rw [timedHookList_fails hstarts hok]
          exact .failed (.inr hcode)

end

/-- **The verdict of the hook runner.** For every list of hooks, state file and behaviour of the
processes: it is right in every timing exactly if the state cannot be read or the hooks are sound
with its length. -/
theorem hooks_verdict_iff (hooks : List OciCfgHook) (env : HooksEnv) :
    (∀ t, HookVerdict env.process t 0 hooks (timedHooks hooks env t)) ↔
      ∀ length, env.loop = true → env.stateLength = some length →
        HooksSound length env.process 0 hooks := by
  cases hooks with
  | nil => exact iff_of_true ((@hookVerdict_iff 0 env.process [] 0).2 trivial) fun _ _ _ => trivial
  | cons hook hooks =>
    unfold timedHooks
    cases env.loop with
    | false => exact iff_of_true (fun t => .not_started) fun _ h => by cases h
    | true =>
      cases env.stateLength with
      | none => exact iff_of_true (fun t => .not_started) fun _ _ h => by cases h
      | some length =>
        refine (hookVerdict_iff (hook :: hooks) 0).trans ⟨?_, fun h => h length rfl rfl⟩
        rintro h _ - ⟨⟩
        exact h

/-- A hook that exits with an error and has not read its input: the write finds the input closed,
and the hooks are reported to have succeeded. -/
theorem hooks_verdict_closed_input :
    let env : HooksEnv :=
      { stateLength := some 100, process := fun _ => { state := .epipe, exitCode := 256 } }
    (∀ t, (timedHooks [falseHook] env t).ok = true) ∧
      ¬ ∃ t, HookVerdict env.process t 0 [falseHook] (timedHooks [falseHook] env t) := by
  intro env
  have hok : ∀ t, (timedHooks [falseHook] env t).ok = true := fun _ => rfl
  refine ⟨hok, ?_⟩
  rintro ⟨t, h⟩
  have hcode := ((h.result.1 (hok t)).2 0 (Nat.le_refl 0) (by decide)).1
  exact absurd hcode (by decide)

end Runtime

end CcOciRuntime
