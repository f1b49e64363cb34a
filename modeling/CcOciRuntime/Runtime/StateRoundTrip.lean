import CcOciRuntime.Runtime.StateFile
import Mathlib.Data.List.Induction
import Mathlib.Data.List.Nodup

/-!
# The state file read back

`readBack` is the state that the reader makes of a configuration's document, and
`stateFileRead_document` says that it does: the sections with lists are inductions over the nodes
that the lists become, and the other sections are read off. The document cannot hold two annotations
of one key, so of those only the last is read back (`state_file_round_trip`).

Reference: `src/state.c`, `cc_oci_json_parse_aux` (`src/json.c:82`), `cc_oci_process_to_json`
(`src/oci.c:1527`).
-/

namespace CcOciRuntime

namespace Runtime

/-! ## What is read back -/

/-- A vector as it comes back: an empty one has become null. -/
def readStrv : Option (List String) → Option (List String)
  | some (s :: ss) => some (s :: ss)
  | _ => none

/-- Reference: `handle_state_process_section` (`src/state.c:496`) on the object of
`cc_oci_process_to_json` (`src/oci.c:1527`). -/
def readProcess (p : OciCfgProcess) : OciCfgProcess :=
  { p with args := readStrv p.args, env := readStrv p.env, user := {} }

/-- The annotation of a member of the annotations' object; a null has none. -/
def readAnnotation : String × Json → Option OciCfgAnnotation
  | (key, .str s) => some { key, value := some s }
  | _ => none

def readVm (vm : CcOciVmCfg) : CcOciVmCfg :=
  { vm with kernelParams := some (vm.kernelParams.getD "") }

def readProxy (p : CcProxy) : CcProxy where
  agentCtlSocket := some (p.agentCtlSocket.getD "")
  agentTtySocket := some (p.agentTtySocket.getD "")
  vmConsoleSocket := some (p.vmConsoleSocket.getD "")

/-- The sandbox's directory is not part of the file. -/
def readPod (p : CcPod) : CcPod where
  sandbox := p.sandbox
  sandboxName := some (p.sandboxName.getD "")

/-- The state that comes back from a configuration's document. -/
def readBack (config : Config) (parts : StateParts) : OciState where
  ociVersion := some supportedSpecVersion
  id := some parts.id
  pid := config.state.workloadPid
  bundlePath := some parts.bundlePath
  commsPath := some config.state.commsPath.text
  procsockPath := some config.state.procsockPath.text
  status := strToStatus parts.status
  createTime := some parts.created
  mounts := config.oci.mounts.filter fun m => !m.ignoreMount
  annotations := ((annotationMembers config.oci.annotations).filterMap readAnnotation).reverse
  console := config.console
  vm := some (readVm parts.vm)
  proxy := some (readProxy parts.proxy)
  pod := config.pod.map readPod
  process := some (readProcess config.oci.process)

/-! ## The sections with lists -/

section
variable {st : OciState} {n : Nat}

/-- The nodes of one mount add the mount. -/
theorem foldl_mountMembers {m : CcOciMount} (hm : m.ignoreMount = false) :
    (blankNode :: jsonParseMembers (mountMembers m)).foldl handleStateMountsSection ⟨st, n⟩ =
      ⟨{ st with mounts := st.mounts ++ [m] }, n⟩ := by
  obtain ⟨dest, ignoreMount, directoryCreated⟩ := m
  cases hm
  cases directoryCreated with
  | none => simp [mountMembers, jsonParseMembers, jsonParseAux, jsonString, blankNode,
      handleStateMountsSection, onNamedValue, GNode.namedValue, GNode.childData]
  | some d => simp [mountMembers, jsonParseMembers, jsonParseAux, jsonString, blankNode,
      handleStateMountsSection, onNamedValue, GNode.namedValue, GNode.childData,
      List.modifyLast_concat]

/-- The nodes of the mounts add the mounts, in order. -/
theorem foldl_mounts {ms : List CcOciMount} (hms : ∀ m ∈ ms, m.ignoreMount = false) :
    (jsonParseElements (ms.map fun m => .obj (mountMembers m))).foldl handleStateMountsSection
      ⟨st, n⟩ = ⟨{ st with mounts := st.mounts ++ ms }, n⟩ := by
  induction ms generalizing st with
  | nil => simp [jsonParseElements]
  | cons m ms ih =>
    have hm : m.ignoreMount = false := hms m (by simp)
    rw [List.map_cons, jsonParseElements, jsonParseAux, List.foldl_append, foldl_mountMembers hm,
      ih fun m' hm' => hms m' (by simp [hm'])]
    simp

/-- The nodes of annotations with a text or null add those with a text, the last one first. -/
theorem foldl_annotations {ms : List (String × Json)} (hms : ∀ m ∈ ms, ∃ v, m.2 = jsonStr v) :
    (jsonParseMembers ms).foldl handleStateAnnotationsSection ⟨st, n⟩ =
      ⟨{ st with annotations := (ms.filterMap readAnnotation).reverse ++ st.annotations }, n⟩ := by
  induction ms generalizing st with
  | nil => simp [jsonParseMembers]
  | cons m ms ih =>
    obtain ⟨key, value⟩ := m
    obtain ⟨v, rfl⟩ : ∃ v, value = jsonStr v := hms (key, value) (by simp)
    have hrest : ∀ m ∈ ms, ∃ v, m.2 = jsonStr v := fun m hm => hms m (by simp [hm])
    rw [jsonParseMembers, List.foldl_cons]
    cases v with
    | none =>
      have hskip : handleStateAnnotationsSection ⟨st, n⟩
          (.mk (some key) (jsonParseAux false (jsonStr none))) = ⟨st, n⟩ := rfl
      have hread : readAnnotation (key, jsonStr none) = none := rfl
      rw [hskip, ih hrest, List.filterMap_cons_none hread]
    | some s =>
      have hadd : handleStateAnnotationsSection ⟨st, n⟩
          (.mk (some key) (jsonParseAux false (jsonStr (some s)))) =
          ⟨{ st with annotations := { key, value := some s } :: st.annotations }, n⟩ := rfl
      have hread : readAnnotation (key, jsonStr (some s)) = some { key, value := some s } := rfl
      rw [hadd, ih hrest, List.filterMap_cons_some hread]
      simp

end

/-- An array of texts under `args`. -/
theorem handleProcessSection_args (p : OciCfgProcess) (ss : List String) (hp : p.args = none) :
    handleProcessSection p (.mk (some "args") (jsonParseElements (ss.map .str))) =
      some { p with args := readStrv (some ss) } := by
  rw [jsonParseElements_str]
  cases ss with
  | nil =>
    obtain ⟨args, cwd, env, terminal, user, stdioStream, stderrStream⟩ := p
    cases hp
    rfl
  | cons s ss =>
    have hstrv := nodeToStrv_str (some "args") (s :: ss)
    rw [List.map_cons] at hstrv ⊢
    simp [handleProcessSection, hstrv, readStrv]

/-- An array of texts under `env`. -/
theorem handleProcessSection_env (p : OciCfgProcess) (v : Option (List String))
    (hp : p.env = none) :
    handleProcessSection p (.mk (some "env") (jsonParseElements ((v.getD []).map .str))) =
      some { p with env := readStrv v } := by
  rw [jsonParseElements_str]
  obtain ⟨args, cwd, env, terminal, user, stdioStream, stderrStream⟩ := p
  cases hp
  cases v with
  | none => rfl
  | some ss =>
    cases ss with
    | nil => rfl
    | cons s ss =>
      have hstrv := nodeToStrv_str (some "env") (s :: ss)
      rw [List.map_cons] at hstrv
      simp [handleProcessSection, hstrv, readStrv]

/-- The number of a stream. -/
theorem handleProcessSection_stream (p : OciCfgProcess) (n : Int32) :
    handleProcessSection p (.mk (some "stdio_stream") (jsonParseAux false (.int n.toInt))) =
      some { p with stdioStream := n } ∧
    handleProcessSection p (.mk (some "stderr_stream") (jsonParseAux false (.int n.toInt))) =
      some { p with stderrStream := n } := by
  have hout : handleProcessSection p
      (.mk (some "stdio_stream") (jsonParseAux false (.int n.toInt))) =
      some { p with stdioStream := atoi (toString n.toInt) } := rfl
  have herr : handleProcessSection p
      (.mk (some "stderr_stream") (jsonParseAux false (.int n.toInt))) =
      some { p with stderrStream := atoi (toString n.toInt) } := rfl
  rw [hout, herr, atoi_toString]
  exact ⟨rfl, rfl⟩

theorem handleProcessSection_terminal (p : OciCfgProcess) (b : Bool) :
    handleProcessSection p (.mk (some "terminal") (jsonParseAux false (.bool b))) =
      some { p with terminal := b } := by
  cases b <;> rfl

/-- The process that the reader makes of a process's object. -/
theorem handleStateProcessSection_processToJson {p : OciCfgProcess} {doc : Json}
    (h : processToJson p = some doc) (st : OciState) (name : Option String) :
    handleStateProcessSection st (.mk name (jsonParseAux false doc)) =
      some { st with process := some (readProcess p) } := by
  obtain ⟨args, hargs, -, rfl⟩ := processToJson_eq_some.1 h
  have hblank : ∀ q, handleProcessSection q blankNode = some q := fun q => rfl
  have hcwd : ∀ q s, handleProcessSection q (.mk (some "cwd") (jsonParseAux false (.str s))) =
      some { q with cwd := .copy s } := fun q s => rfl
  have huser : ∀ q, handleProcessSection q (.mk (some "user") (jsonParseAux false (.obj []))) =
      some q := fun q => rfl
  have hfold : (blankNode :: jsonParseMembers (processMembers p args)).foldlM handleProcessSection
      { stdioStream := -1, stderrStream := -1 } = some (readProcess p) := by
    simp only [processMembers, jsonParseMembers, List.foldlM_cons, List.foldlM_nil,
      Option.bind_eq_bind, Option.bind_some, hblank, hcwd, handleProcessSection_terminal, huser]
    rw [jsonParseAux, handleProcessSection_args _ _ rfl, Option.bind_some, jsonParseAux,
      handleProcessSection_env _ _ rfl, Option.bind_some, (handleProcessSection_stream _ _).1,
      Option.bind_some, (handleProcessSection_stream _ _).2]
    simp [readProcess, hargs]
  simp only [handleStateProcessSection, processHandleSection, GNode.children_mk, jsonParseAux]
  rw [hfold]
  rfl

/-! ## The whole document -/

/-- The reading after a section: the state it leaves, with `k` more elements counted for it. -/
def Reading.record (r : Reading) (name : String) (k : Nat) (st : OciState) : Reading :=
  ⟨st, Function.update r.counts name (r.counts name + k)⟩

/-- Every handler has counted what it needs. -/
def Reading.Complete (r : Reading) : Prop :=
  ∀ h ∈ stateHandlers, h.subelementsNeeded ≤ r.counts h.name

section
variable {r : Reading}

@[simp] theorem Reading.record_state (name : String) (k : Nat) (st : OciState) :
    (r.record name k st).state = st := rfl

theorem Reading.record_counts (name n : String) (k : Nat) (st : OciState) :
    (r.record name k st).counts n = if n = name then r.counts name + k else r.counts n :=
  Function.update_apply ..

theorem Reading.Complete.record (h : r.Complete) (name : String) (k : Nat) (st : OciState) :
    (r.record name k st).Complete := by
  intro handler hh
  rw [Reading.record_counts]
  split_ifs with hn
  · rw [← hn]
    exact (h handler hh).trans (Nat.le_add_right _ _)
  · exact h handler hh

/-- A section with a handler. -/
theorem handleStateSections_eq {name : String} {h : StateHandler}
    (hh : stateHandlers.find? (fun h => h.name = name) = some h) {cs : List GNode} {st : OciState}
    {k : Nat} (hf : cs.foldl h.handleSection ⟨r.state, r.counts name⟩ = ⟨st, r.counts name + k⟩) :
    handleStateSections r (.mk (some name) cs) = some (r.record name k st) := by
  simp only [handleStateSections, GNode.data_mk, GNode.children_mk, hh, hf, Reading.record]

/-- The sections with one text. -/
theorem handleStateSections_text (s : String) :
    (handleStateSections r (.mk (some "ociVersion") (jsonParseAux false (.str s))) =
      some (r.record "ociVersion" 1 { r.state with ociVersion := some s })) ∧
    (handleStateSections r (.mk (some "id") (jsonParseAux false (.str s))) =
      some (r.record "id" 1 { r.state with id := some s })) ∧
    (handleStateSections r (.mk (some "bundlePath") (jsonParseAux false (.str s))) =
      some (r.record "bundlePath" 1 { r.state with bundlePath := some s })) ∧
    (handleStateSections r (.mk (some "commsPath") (jsonParseAux false (.str s))) =
      some (r.record "commsPath" 1 { r.state with commsPath := some s })) ∧
    (handleStateSections r (.mk (some "processPath") (jsonParseAux false (.str s))) =
      some (r.record "processPath" 1 { r.state with procsockPath := some s })) ∧
    (handleStateSections r (.mk (some "status") (jsonParseAux false (.str s))) =
      some (r.record "status" 1 { r.state with status := strToStatus s })) ∧
    (handleStateSections r (.mk (some "created") (jsonParseAux false (.str s))) =
      some (r.record "created" 1 { r.state with createTime := some s })) :=
  ⟨rfl, rfl, rfl, rfl, rfl, rfl, rfl⟩

/-- The PID is read back. -/
theorem handleStateSections_pid (n : Int32) :
    handleStateSections r (.mk (some "pid") (jsonParseAux false (.int n.toUInt32.toNat))) =
      some (r.record "pid" 1 { r.state with pid := n }) := by
  refine handleStateSections_eq rfl ?_
  simp only [jsonParseAux, jsonString, List.foldl_cons, List.foldl_nil, handleStatePidSection,
    GNode.data_mk, strtoll_toUInt32, ofInt_toUInt32]
  rfl

/-- The mounts are read back. -/
theorem handleStateSections_mounts (config : Config) :
    handleStateSections r (.mk (some "mounts") (jsonParseAux false (mountsToJson config))) =
      some (r.record "mounts" 0 { r.state with
        mounts := r.state.mounts ++ config.oci.mounts.filter fun m => !m.ignoreMount }) := by
  refine handleStateSections_eq rfl ?_
  rw [mountsToJson, jsonParseAux]
  exact foldl_mounts fun m hm => by simpa using (List.mem_filter.1 hm).2

/-- The console is read back. -/
theorem handleStateSections_console (v : Option String) (hr : r.state.console = none) :
    handleStateSections r (.mk (some "console") (jsonParseAux false (consoleToJson v))) =
      some (r.record "console" v.toList.length { r.state with console := v }) := by
  obtain ⟨st, counts⟩ := r
  cases st
  cases hr
  cases v with
  | none => exact handleStateSections_eq rfl rfl
  | some path => exact handleStateSections_eq rfl rfl

/-- The VM is read back. -/
theorem handleStateSections_vm (vm : CcOciVmCfg) (hr : r.state.vm = some {}) :
    handleStateSections r (.mk (some "vm") (jsonParseAux false (vmToJson vm))) =
      some (r.record "vm" 6 { r.state with vm := some (readVm vm) }) := by
  refine handleStateSections_eq rfl ?_
  obtain ⟨st, counts⟩ := r
  cases st
  cases hr
  have hpid : ∀ data, handleStateVmSection data
      (.mk (some "pid") (jsonParseAux false (.int vm.pid.toUInt32.toNat))) =
      data.found (data.state.updateVm fun v => { v with pid := vm.pid }) := by
    intro data
    simp only [handleStateVmSection, onNamedValue, GNode.namedValue, GNode.data_mk, GNode.childData,
      jsonParseAux, jsonString, GNode.children_mk, strtoll_toUInt32, ofInt_toUInt32]
    rfl
  have hblank : ∀ data, handleStateVmSection data blankNode = data := fun data => rfl
  simp only [vmToJson, jsonParseAux, jsonParseMembers, List.foldl_cons] at hpid ⊢
  rw [hblank, hpid]
  simp [jsonString, readVm, handleStateVmSection, onNamedValue, GNode.namedValue, GNode.childData,
    HandlerData.found, OciState.updateVm]

/-- The proxy is read back. -/
theorem handleStateSections_proxy (p : CcProxy) (hr : r.state.proxy = some {}) :
    handleStateSections r (.mk (some "proxy") (jsonParseAux false (proxyToJson p))) =
      some (r.record "proxy" 3 { r.state with proxy := some (readProxy p) }) := by
  obtain ⟨st, counts⟩ := r
  cases st
  cases hr
  exact handleStateSections_eq rfl rfl

/-- The pod is read back. -/
theorem handleStateSections_pod (p : CcPod) (hr : r.state.pod = none) :
    handleStateSections r (.mk (some "pod") (jsonParseAux false (podToJson p))) =
      some (r.record "pod" 2 { r.state with pod := some (readPod p) }) := by
  obtain ⟨st, counts⟩ := r
  cases st
  cases hr
  obtain ⟨sandbox, name, workloads⟩ := p
  cases sandbox <;> exact handleStateSections_eq rfl rfl

theorem annotationMembers_append (as : List OciCfgAnnotation) (a : OciCfgAnnotation) :
    annotationMembers (as ++ [a]) =
      Json.setMember a.key (jsonStr a.value) (annotationMembers as) := by
  rw [annotationMembers, List.foldl_append]
  rfl

theorem annotationMembers_nodup (as : List OciCfgAnnotation) :
    ((annotationMembers as).map Prod.fst).Nodup := by
  induction as using List.reverseRecOn with
  | nil => exact List.nodup_nil
  | append_singleton as a ih =>
    rw [annotationMembers_append]
    exact Json.nodup_setMember ih

/-- The members of the annotations' object: for each key, the last annotation of it. -/
theorem mem_annotationMembers {as : List OciCfgAnnotation} {key : String} {value : Json} :
    (key, value) ∈ annotationMembers as ↔
      ∃ a, as.reverse.find? (fun a => a.key = key) = some a ∧ value = jsonStr a.value := by
  induction as using List.reverseRecOn with
  | nil => simp [annotationMembers]
  | append_singleton as a ih =>
    rw [annotationMembers_append, Json.mem_setMember (annotationMembers_nodup as), ih,
      List.reverse_append, List.reverse_singleton, List.singleton_append]
    by_cases hk : a.key = key
    · subst hk
      simp
    · simp [hk, Ne.symm hk]

/-- The annotations are read back. -/
theorem handleStateSections_annotations (config : Config) :
    handleStateSections r
      (.mk (some "annotations") (jsonParseAux false (annotationsToJson config))) =
      some (r.record "annotations" 0 { r.state with annotations :=
        ((annotationMembers config.oci.annotations).filterMap readAnnotation).reverse ++
          r.state.annotations }) := by
  refine handleStateSections_eq rfl ?_
  rw [annotationsToJson, jsonParseAux, List.foldl_cons]
  refine foldl_annotations fun m hm => ?_
  obtain ⟨a, -, hv⟩ := mem_annotationMembers.1 hm
  exact ⟨a.value, hv⟩

end

/-- The sections that every document has and that hold one text or one number. -/
def plainSections : List String :=
  ["ociVersion", "id", "pid", "bundlePath", "commsPath", "processPath", "status", "created"]

/-- The plain sections are read into a state that has nothing but its objects. -/
theorem foldlM_plainMembers (config : Config) (parts : StateParts) :
    ∃ r : Reading, (∀ name ∈ plainSections, 1 ≤ r.counts name) ∧
      r.state = { vm := some {}, proxy := some {}, ociVersion := some supportedSpecVersion,
                  id := some parts.id, pid := config.state.workloadPid,
                  bundlePath := some parts.bundlePath,
                  commsPath := some config.state.commsPath.text,
                  procsockPath := some config.state.procsockPath.text,
                  status := strToStatus parts.status, createTime := some parts.created } ∧
      (blankNode :: jsonParseMembers ((requiredMembers config parts).take 8)).foldlM
        handleStateSections ⟨{ vm := some {}, proxy := some {} }, fun _ => 0⟩ = some r := by
  have hblank : ∀ r, handleStateSections r blankNode = some r := fun r => rfl
  simp only [requiredMembers, List.take_succ_cons, List.take_zero, jsonParseMembers,
    List.foldlM_cons, List.foldlM_nil, Option.bind_eq_bind, Option.bind_some, hblank,
    handleStateSections_text, handleStateSections_pid, Reading.record_state]
  refine ⟨_, ?_, rfl, rfl⟩
  simp [plainSections, Reading.record_counts]

/-- The other sections that every document has. -/
theorem foldlM_objectMembers {config : Config} {created : Option String} {parts : StateParts}
    (hparts : parts.Of config created) {r : Reading}
    (hcounts : ∀ name ∈ plainSections, 1 ≤ r.counts name) (hmounts : r.state.mounts = [])
    (hconsole : r.state.console = none) (hvm : r.state.vm = some {})
    (hproxy : r.state.proxy = some {}) :
    ∃ r' : Reading, r'.Complete ∧
      r'.state = { r.state with
        mounts := config.oci.mounts.filter fun m => !m.ignoreMount
        process := some (readProcess config.oci.process)
        console := config.console
        vm := some (readVm parts.vm)
        proxy := some (readProxy parts.proxy) } ∧
      (jsonParseMembers ((requiredMembers config parts).drop 8)).foldlM handleStateSections r =
        some r' := by
  have hprocess : ∀ r, handleStateSections r (.mk (some "process")
      (jsonParseAux false parts.process)) = some { r with
        state := { r.state with process := some (readProcess config.oci.process) } } := by
    intro r
    have hfind : stateHandlers.find? (fun h => h.name = "process") = none := rfl
    simp only [handleStateSections, GNode.data_mk, hfind,
      handleStateProcessSection_processToJson hparts.process]
    rfl
  simp only [requiredMembers, List.drop_succ_cons, List.drop_zero, jsonParseMembers,
    List.foldlM_cons, List.foldlM_nil, Option.bind_eq_bind, Option.bind_some,
    handleStateSections_mounts, hprocess, handleStateSections_console, Reading.record_state,
    hmounts, hconsole, hvm, hproxy, List.nil_append]
  rw [handleStateSections_vm _ rfl, Option.bind_some, handleStateSections_proxy _ rfl,
    Option.bind_some]
  refine ⟨_, ?_, rfl, rfl⟩
  -- each plain section has been counted before, and the others count for themselves
  simp only [plainSections, List.forall_mem_cons] at hcounts
  simp [Reading.Complete, stateHandlers, Reading.record_counts, hcounts]

/-- The sections that every document has. -/
theorem foldlM_requiredMembers {config : Config} {created : Option String} {parts : StateParts}
    (hparts : parts.Of config created) :
    ∃ r : Reading, r.Complete ∧
      r.state = { readBack config parts with pod := none, annotations := [] } ∧
      (blankNode :: jsonParseMembers (requiredMembers config parts)).foldlM handleStateSections
        ⟨{ vm := some {}, proxy := some {} }, fun _ => 0⟩ = some r := by
  obtain ⟨r, hcounts, hstate, hplain⟩ := foldlM_plainMembers config parts
  obtain ⟨r', hcomplete, hstate', hobjects⟩ := foldlM_objectMembers hparts hcounts
    (by rw [hstate]) (by rw [hstate]) (by rw [hstate]) (by rw [hstate])
  refine ⟨r', hcomplete, ?_, ?_⟩
  · rw [hstate', hstate]
    rfl
  · rw [← List.take_append_drop 8 (requiredMembers config parts), jsonParseMembers_append,
      ← List.cons_append, List.foldlM_append, hplain]
    exact hobjects

/-- The section of the pod, if there is one. -/
theorem foldlM_podMembers (config : Config) {r : Reading} (hr : r.state.pod = none)
    (hcomplete : r.Complete) :
    ∃ r' : Reading, r'.Complete ∧ r'.state = { r.state with pod := config.pod.map readPod } ∧
      (jsonParseMembers (podMembers config)).foldlM handleStateSections r = some r' := by
  unfold podMembers
  cases config.pod with
  | none =>
    refine ⟨r, hcomplete, ?_, rfl⟩
    rw [Option.map_none, ← hr]
  | some pod =>
    refine ⟨_, hcomplete.record "pod" 2 { r.state with pod := some (readPod pod) }, rfl, ?_⟩
    rw [jsonParseMembers, jsonParseMembers, List.foldlM_cons, handleStateSections_pod pod hr]
    rfl

/-- The section of the annotations, if there are any. -/
theorem foldlM_annotationsMembers (config : Config) {r : Reading} (hr : r.state.annotations = [])
    (hcomplete : r.Complete) :
    ∃ r' : Reading, r'.Complete ∧ r'.state = { r.state with annotations :=
        ((annotationMembers config.oci.annotations).filterMap readAnnotation).reverse } ∧
      (jsonParseMembers (annotationsMembers config)).foldlM handleStateSections r = some r' := by
  unfold annotationsMembers
  split
  · next h =>
    have hnone :
        ((annotationMembers config.oci.annotations).filterMap readAnnotation).reverse = [] := by
      rw [h]
      rfl
    refine ⟨r, hcomplete, ?_, rfl⟩
    rw [hnone, ← hr]
  · have hsection := @handleStateSections_annotations r config
    rw [hr, List.append_nil] at hsection
    refine ⟨_, hcomplete.record "annotations" 0 _, rfl, ?_⟩
    rw [jsonParseMembers, jsonParseMembers, List.foldlM_cons, hsection]
    rfl

/-- **What the reader makes of a written document.** -/
theorem stateFileRead_stateMembers {config : Config} {created : Option String} {parts : StateParts}
    (hparts : parts.Of config created) :
    stateFileRead (.obj (stateMembers config parts)) = some (readBack config parts) := by
  obtain ⟨r, hcomplete, hstate, hfold⟩ := foldlM_requiredMembers hparts
  obtain ⟨r', hcomplete', hstate', hpod⟩ :=
    foldlM_podMembers config (by rw [hstate]) hcomplete
  obtain ⟨r'', hcomplete'', hstate'', hannotations⟩ :=
    foldlM_annotationsMembers config (by rw [hstate', hstate]) hcomplete'
  have hall : (jsonParse "state.json" (.obj (stateMembers config parts))).children.foldlM
      handleStateSections ⟨{ vm := some {}, proxy := some {} }, fun _ => 0⟩ = some r'' := by
    rw [jsonParse, GNode.children_mk, jsonParseAux, stateMembers, jsonParseMembers_append,
      jsonParseMembers_append, ← List.cons_append, ← List.cons_append, List.foldlM_append,
      List.foldlM_append, hfold]
    simp only [Option.bind_eq_bind, Option.bind_some, hpod, hannotations]
  have hcheck : (stateHandlers.all fun h => h.subelementsNeeded ≤ r''.counts h.name) = true :=
    List.all_eq_true.2 fun h hh => decide_eq_true (hcomplete'' h hh)
  have hfinal : r''.state = readBack config parts := by
    rw [hstate'', hstate', hstate]
    rfl
  simp only [stateFileRead, hall, hcheck, if_true, hfinal]

/-! ## The round trip -/

/-- An annotation is the last one of its key in a list. -/
def LastOfKey (as : List OciCfgAnnotation) (a : OciCfgAnnotation) : Prop :=
  as.reverse.find? (fun b => b.key = a.key) = some a

/-- Among distinct keys every annotation is the last one of its key. -/
theorem lastOfKey_iff_mem {as : List OciCfgAnnotation} (has : (as.map (·.key)).Nodup)
    {a : OciCfgAnnotation} : LastOfKey as a ↔ a ∈ as := by
  constructor
  · intro h
    exact List.mem_reverse.1 (List.mem_of_find?_eq_some h)
  · intro ha
    have hfound : (as.reverse.find? fun b => b.key = a.key).isSome :=
      List.find?_isSome.2 ⟨a, List.mem_reverse.2 ha, decide_eq_true rfl⟩
    obtain ⟨b, hb⟩ := Option.isSome_iff_exists.1 hfound
    have hmem : b ∈ as := List.mem_reverse.1 (List.mem_of_find?_eq_some hb)
    have hkey : b.key = a.key := by simpa using List.find?_some hb
    obtain rfl : b = a := List.inj_on_of_nodup_map has hmem ha hkey
    exact hb

/-- What the state file keeps of a configuration: everything the state has of it, an unset optional
string as an empty one and an empty environment as none. -/
structure StateKept (config : Config) (created : String) (st : OciState) : Prop where
  id : st.id = config.optargContainerId
  pid : st.pid = config.state.workloadPid
  bundlePath : st.bundlePath = config.bundlePath
  commsPath : st.commsPath = some config.state.commsPath.text
  procsockPath : st.procsockPath = some config.state.procsockPath.text
  status : st.status = config.state.status
  created : st.createTime = some created
  console : st.console = config.console
  vm : st.vm = config.vm.map readVm
  proxy : st.proxy = config.proxy.map readProxy
  pod : st.pod = config.pod.map readPod
  process : ∃ p, st.process = some p ∧ p.args = config.oci.process.args ∧
    p.env = readStrv config.oci.process.env ∧ p.cwd = config.oci.process.cwd ∧
    p.terminal = config.oci.process.terminal ∧
    p.stdioStream = config.oci.process.stdioStream ∧
    p.stderrStream = config.oci.process.stderrStream
  mounts : st.mounts = config.oci.mounts.filter fun m => !m.ignoreMount
  /-- of the annotations of one key the last, if it has a value -/
  annotations : ∀ a, a ∈ st.annotations ↔ a.value.isSome ∧ LastOfKey config.oci.annotations a
  /-- of distinct keys all that have a value -/
  distinct : (config.oci.annotations.map (·.key)).Nodup →
    ∀ a, a ∈ st.annotations ↔ a.value.isSome ∧ a ∈ config.oci.annotations

/-- The annotations that are read back. -/
theorem mem_readBack_annotations {config : Config} {parts : StateParts} {a : OciCfgAnnotation} :
    a ∈ (readBack config parts).annotations ↔
      a.value.isSome ∧ LastOfKey config.oci.annotations a := by
  have hmem : a ∈ (readBack config parts).annotations ↔
      ∃ m ∈ annotationMembers config.oci.annotations, readAnnotation m = some a := by
    rw [readBack, List.mem_reverse, List.mem_filterMap]
  rw [hmem]
  constructor
  · rintro ⟨⟨key, value⟩, hm, hread⟩
    obtain ⟨⟨key', v⟩, hb, rfl⟩ := mem_annotationMembers.1 hm
    obtain rfl : key' = key := by simpa using List.find?_some hb
    cases v with
    | none => cases hread
    | some s =>
      cases hread
      exact ⟨rfl, hb⟩
  · obtain ⟨key, v⟩ := a
    rintro ⟨hv, hlast⟩
    cases v with
    | none => cases hv
    | some s => exact ⟨(key, .str s), mem_annotationMembers.2 ⟨_, hlast, rfl⟩, rfl⟩

/-- **The state file round trip.** Whatever configuration the writer accepts whose process has
arguments, the reader returns a state that has kept it. -/
theorem state_file_round_trip (config : Config) (created : String) (saved : Bool) (doc : Json)
    (h : stateFileCreate config (some created) saved = some doc)
    (hargs : config.oci.process.args ≠ some []) :
    ∃ st, stateFileRead doc = some st ∧ StateKept config created st := by
  obtain ⟨parts, hparts, rfl⟩ := stateFileCreate_eq_some h
  refine ⟨readBack config parts, stateFileRead_stateMembers hparts, ?_⟩
  -- the writer has taken the process's arguments, so there is a first one
  obtain ⟨arg, args, hsome⟩ : ∃ arg args, config.oci.process.args = some (arg :: args) := by
    obtain ⟨args, hsome, -⟩ := processToJson_eq_some.1 hparts.process
    cases args with
    | nil => exact absurd hsome hargs
    | cons arg args => exact ⟨arg, args, hsome⟩
  refine ⟨hparts.id.symm, rfl, hparts.bundlePath.symm, rfl, rfl,
    strToStatus_of_statusToStr hparts.status, hparts.created.symm, rfl, ?_, ?_, rfl, ?_, rfl,
    fun a => mem_readBack_annotations, fun hkeys a => ?_⟩
  · rw [hparts.vm]
    rfl
  · rw [hparts.proxy]
    rfl
  · refine ⟨_, rfl, ?_, rfl, rfl, rfl, rfl, rfl⟩
    rw [readProcess, hsome]
    rfl
  · rw [mem_readBack_annotations, lastOfKey_iff_mem hkeys]

/-- A container with a process, two mounts of which one is ignored, and an annotation. -/
def sampleConfig : Config where
  oci := {
    mounts := [{ dest := .copy "/data", directoryCreated := some "/data" },
      { dest := .copy "/proc", ignoreMount := true }]
    annotations := [{ key := "owner", value := some "ops" }]
    process := { args := some ["sh", "-c"], cwd := .copy "/", env := some ["TERM=xterm"],
                 stdioStream := 1, stderrStream := 2 } }
  vm := some { kernelParams := some "quiet", pid := 12 }
  state := { runtimePath := .copy "/run/c1", commsPath := .copy "/run/c1/hypervisor.sock",
             procsockPath := .copy "/run/c1/process.sock", workloadPid := 11 }
  bundlePath := some "/bundle"
  optargContainerId := some "c1"
  proxy := some {}

theorem state_file_round_trip_sampleConfig :
    ∃ doc st, stateFileCreate sampleConfig (some "now") true = some doc ∧
      stateFileRead doc = some st ∧ StateKept sampleConfig "now" st := by
  obtain ⟨st, hread, hkept⟩ := state_file_round_trip sampleConfig "now" true _ rfl (by decide)
  exact ⟨_, st, rfl, hread, hkept⟩

/-- The sample with two annotations of one key. -/
def repeatedKeyConfig : Config :=
  { sampleConfig with
    oci.annotations :=
      [{ key := "owner", value := some "dev" }, { key := "owner", value := some "ops" }] }

/-- The first annotation has a value, and it is not read back. -/
theorem repeated_key_not_read_back :
    ∃ doc st, stateFileCreate repeatedKeyConfig (some "now") true = some doc ∧
      stateFileRead doc = some st ∧
      { key := "owner", value := some "dev" } ∈ repeatedKeyConfig.oci.annotations ∧
      { key := "owner", value := some "dev" } ∉ st.annotations :=
  ⟨_, _, rfl, rfl, by decide, by decide⟩

end Runtime

end CcOciRuntime
