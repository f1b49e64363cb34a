import CcOciRuntime.Runtime.SpecHandlers
import Mathlib.Data.List.ModifyLast
import Mathlib.Logic.Function.Basic

/-!
# The state file

`stateFileCreate` writes the document of a configuration, `stateFileRead` reads a state back from
it. The reader walks the tree of texts: each section has a handler in `stateHandlers` that fills in
its part of the state and counts what it found, and a section with too low a count makes the reader
give up. The section `process` has no entry there; it goes through the handler of `config.json`.

The document is the value of the file: printing and parsing are taken as faithful.

Reference: `src/state.c`.
-/

namespace CcOciRuntime

namespace Runtime

/-! ## Writing -/

/-- The version of the specification. Reference: `CC_OCI_SUPPORTED_SPEC_VERSION` (`src/oci.h:54`).
-/
def supportedSpecVersion : String := "1.0.0-rc1"

/-- A string member, null when the string is. -/
def jsonStr : Option String → Json
  | some s => .str s
  | none => .null

/-- The members of a mount's object. Reference: `src/mount.c:400-409`. -/
def mountMembers (m : CcOciMount) : List (String × Json) :=
  ("destination", .str m.dest.text) ::
    match m.directoryCreated with
    | some d => [("directory_created", .str d)]
    | none => []

/-- Reference: `cc_oci_mounts_to_json` (`src/mount.c:384`). -/
def mountsToJson (config : Config) : Json :=
  .arr ((config.oci.mounts.filter fun m => !m.ignoreMount).map fun m => .obj (mountMembers m))

/-- The members of the annotations' object: a later annotation of a key replaces an earlier one. -/
def annotationMembers (annotations : List OciCfgAnnotation) : List (String × Json) :=
  annotations.foldl (fun ms a => Json.setMember a.key (jsonStr a.value) ms) []

/-- Reference: `cc_oci_annotations_to_json` (`src/annotation.c:64`). -/
def annotationsToJson (config : Config) : Json := .obj (annotationMembers config.oci.annotations)

/-- The members of a process's object; its user is left empty. Reference: `src/oci.c:1542-1561`. -/
def processMembers (p : OciCfgProcess) (args : List String) : List (String × Json) :=
  [("cwd", .str p.cwd.text),
    ("terminal", .bool p.terminal),
    ("user", .obj []),
    ("args", .arr (args.map .str)),
    ("env", .arr ((p.env.getD []).map .str)),
    ("stdio_stream", .int p.stdioStream.toInt),
    ("stderr_stream", .int p.stderrStream.toInt)]

/-- Reference: `cc_oci_process_to_json` (`src/oci.c:1527`). -/
def processToJson (p : OciCfgProcess) : Option Json :=
  match p.args with
  | none => none
  | some args => if p.cwd.text = "" then none else some (.obj (processMembers p args))

/-- When the process is written. -/
theorem processToJson_eq_some {p : OciCfgProcess} {doc : Json} :
    processToJson p = some doc ↔
      ∃ args, p.args = some args ∧ p.cwd.text ≠ "" ∧ .obj (processMembers p args) = doc := by
  unfold processToJson
  cases p.args with
  | none => simp
  | some args =>
    by_cases h : p.cwd.text = ""
    · simp [h]
    · simp [h]

/-- Reference: `src/state.c:843-849`. -/
def consoleToJson : Option String → Json
  | some path => .obj [("path", .str path)]
  | none => .null

/-- Reference: `src/state.c:851-876`. -/
def vmToJson (vm : CcOciVmCfg) : Json :=
  .obj
    [("pid", .int vm.pid.toUInt32.toNat),
      ("hypervisor_path", .str vm.hypervisorPath.text),
      ("image_path", .str vm.imagePath.text),
      ("kernel_path", .str vm.kernelPath.text),
      ("workload_path", .str vm.workloadPath.text),
      ("kernel_params", .str (vm.kernelParams.getD ""))]

/-- Reference: `src/state.c:878-893`. -/
def proxyToJson (proxy : CcProxy) : Json :=
  .obj
    [("ctlSocket", .str (proxy.agentCtlSocket.getD "")),
      ("ioSocket", .str (proxy.agentTtySocket.getD "")),
      ("consoleSocket", .str (proxy.vmConsoleSocket.getD ""))]

/-- Reference: `src/state.c:897-904`. -/
def podToJson (pod : CcPod) : Json :=
  .obj [("sandbox", .bool pod.sandbox), ("sandbox_name", .str (pod.sandboxName.getD ""))]

/-- The parts of a configuration that the writer requires. -/
structure StateParts where
  id : String
  bundlePath : String
  created : String
  status : String
  process : Json
  vm : CcOciVmCfg
  proxy : CcProxy

/-- The checks of the writer. Reference: `src/state.c:751-789`, `:813-839`. -/
def stateParts (config : Config) (created : Option String) : Option StateParts :=
  match created, config.optargContainerId, config.bundlePath, config.vm, config.proxy with
  | some created, some id, some bundlePath, some vm, some proxy =>
    if id = "" ∨ config.state.runtimePath.text = "" ∨ config.state.commsPath.text = "" ∨
        config.state.procsockPath.text = "" then none
    else
      match statusToStr config.state.status, processToJson config.oci.process with
      | some status, some process => some { id, bundlePath, created, status, process, vm, proxy }
      | _, _ => none
  | _, _, _, _, _ => none

/-- The members that every document has. Reference: `src/state.c:793-893`. -/
def requiredMembers (config : Config) (parts : StateParts) : List (String × Json) :=
  [("ociVersion", .str supportedSpecVersion),
    ("id", .str parts.id),
    ("pid", .int config.state.workloadPid.toUInt32.toNat),
    ("bundlePath", .str parts.bundlePath),
    ("commsPath", .str config.state.commsPath.text),
    ("processPath", .str config.state.procsockPath.text),
    ("status", .str parts.status),
    ("created", .str parts.created),
    ("mounts", mountsToJson config),
    ("process", parts.process),
    ("console", consoleToJson config.console),
    ("vm", vmToJson parts.vm),
    ("proxy", proxyToJson parts.proxy)]

/-- Reference: `src/state.c:895-907`. -/
def podMembers (config : Config) : List (String × Json) :=
  match config.pod with
  | some pod => [("pod", podToJson pod)]
  | none => []

/-- Reference: `src/state.c:909-914`. -/
def annotationsMembers (config : Config) : List (String × Json) :=
  match config.oci.annotations with
  | [] => []
  | _ :: _ => [("annotations", annotationsToJson config)]

/-- The members of the document. -/
def stateMembers (config : Config) (parts : StateParts) : List (String × Json) :=
  requiredMembers config parts ++ podMembers config ++ annotationsMembers config

/-- The document of a configuration, when it has all that the writer requires. -/
def stateDocument (config : Config) (created : Option String) : Option Json :=
  (stateParts config created).map fun parts => .obj (stateMembers config parts)

/-- The parts of a configuration are found in it. -/
structure StateParts.Of (parts : StateParts) (config : Config) (created : Option String) :
    Prop where
  id : config.optargContainerId = some parts.id
  id_ne : parts.id ≠ ""
  bundlePath : config.bundlePath = some parts.bundlePath
  runtimePath : config.state.runtimePath.text ≠ ""
  commsPath : config.state.commsPath.text ≠ ""
  procsockPath : config.state.procsockPath.text ≠ ""
  created : created = some parts.created
  status : statusToStr config.state.status = some parts.status
  process : processToJson config.oci.process = some parts.process
  vm : config.vm = some parts.vm
  proxy : config.proxy = some parts.proxy

/-- When all parts are there. -/
theorem stateParts_eq_some {config : Config} {created : Option String} {parts : StateParts} :
    stateParts config created = some parts ↔ parts.Of config created := by
  constructor
  · intro h
    unfold stateParts at h
    split at h
    · split_ifs at h with hne
      simp only [not_or] at hne
      obtain ⟨hid, hrun, hcomms, hproc⟩ := hne
      split at h <;> cases h
      exact ⟨‹_›, hid, ‹_›, hrun, hcomms, hproc, rfl, ‹_›, ‹_›, ‹_›, ‹_›⟩
    · cases h
  · rintro ⟨hid, hid', hb, hrun, hcomms, hproc, rfl, hst, hp, hvm, hpr⟩
    simp [stateParts, hid, hid', hb, hrun, hcomms, hproc, hst, hp, hvm, hpr]

/-- Writing the state file: the new content of the file, when the document was made and the file
could be written. Reference: `cc_oci_state_file_create` (`src/state.c:733`). -/
def stateFileCreate (config : Config) (created : Option String) (saved : Bool) : Option Json :=
  if saved then stateDocument config created else none

/-- A written file has all parts. -/
theorem stateFileCreate_eq_some {config : Config} {created : Option String} {saved : Bool}
    {doc : Json} (h : stateFileCreate config created saved = some doc) :
    ∃ parts : StateParts, parts.Of config created ∧ .obj (stateMembers config parts) = doc := by
  unfold stateFileCreate at h
  split_ifs at h
  obtain ⟨parts, hparts, hdoc⟩ := Option.map_eq_some_iff.1 h
  exact ⟨parts, stateParts_eq_some.1 hparts, hdoc⟩

/-! ## Reading: the handlers of the sections -/

/-- What a handler fills in, and how many elements it has found. Reference: `struct handler_data`
(`src/state.c:108`). -/
structure HandlerData where
  state : OciState
  subelementsCount : Nat

/-- A value found, and counted. -/
def HandlerData.found (data : HandlerData) (state : OciState) : HandlerData :=
  ⟨state, data.subelementsCount + 1⟩

/-- Reference: `update_subelements_and_strdup` (`src/state.c:44`). -/
def updateSubelementsAndStrdup (set : OciState → String → OciState) (data : HandlerData)
    (node : GNode) : HandlerData :=
  match node.data with
  | some s => data.found (set data.state s)
  | none => data

/-- Reference: `handle_state_ociVersion_section` (`src/state.c:155`). -/
def handleStateOciVersionSection : HandlerData → GNode → HandlerData :=
  updateSubelementsAndStrdup fun st s => { st with ociVersion := some s }

/-- Reference: `handle_state_id_section` (`src/state.c:166`). -/
def handleStateIdSection : HandlerData → GNode → HandlerData :=
  updateSubelementsAndStrdup fun st s => { st with id := some s }

/-- A number that cannot be read is stored as zero and not counted. Reference:
`handle_state_pid_section` (`src/state.c:177`). -/
def handleStatePidSection (data : HandlerData) (node : GNode) : HandlerData :=
  match node.data with
  | none => data
  | some s =>
    match strtoll s with
    | some n => data.found { data.state with pid := .ofInt n }
    | none => { data with state := { data.state with pid := 0 } }

/-- Reference: `handle_state_bundlePath_section` (`src/state.c:202`). -/
def handleStateBundlePathSection : HandlerData → GNode → HandlerData :=
  updateSubelementsAndStrdup fun st s => { st with bundlePath := some s }

/-- Reference: `handle_state_commsPath_section` (`src/state.c:213`). -/
def handleStateCommsPathSection : HandlerData → GNode → HandlerData :=
  updateSubelementsAndStrdup fun st s => { st with commsPath := some s }

/-- Reference: `handle_state_processPath_section` (`src/state.c:225`). -/
def handleStateProcessPathSection : HandlerData → GNode → HandlerData :=
  updateSubelementsAndStrdup fun st s => { st with procsockPath := some s }

/-- Reference: `handle_state_status_section` (`src/state.c:236`). -/
def handleStateStatusSection : HandlerData → GNode → HandlerData :=
  updateSubelementsAndStrdup fun st s => { st with status := strToStatus s }

/-- Reference: `handle_state_created_section` (`src/state.c:250`). -/
def handleStateCreatedSection : HandlerData → GNode → HandlerData :=
  updateSubelementsAndStrdup fun st s => { st with createTime := some s }

/-- The head of the handlers of the nested sections: a node without a name or without a value is
passed over. -/
def onNamedValue (f : HandlerData → String → String → HandlerData) (data : HandlerData)
    (node : GNode) : HandlerData :=
  match node.namedValue with
  | some (name, value) => f data name value
  | none => data

/-- Reference: `handle_state_mounts_section` (`src/state.c:261`). -/
def handleStateMountsSection : HandlerData → GNode → HandlerData :=
  onNamedValue fun data name value =>
    if name = "destination" then
      { data with state := { data.state with
        mounts := data.state.mounts ++ [{ dest := .copy value }] } }
    else if name = "directory_created" then
      { data with state := { data.state with
        mounts := data.state.mounts.modifyLast fun m =>
          { m with directoryCreated := some value } } }
    else data

/-- Reference: `handle_state_console_section` (`src/state.c:293`). -/
def handleStateConsoleSection : HandlerData → GNode → HandlerData :=
  onNamedValue fun data name value =>
    if name = "path" then data.found { data.state with console := some value } else data

/-- An update of the VM object, which the reader has allocated. -/
def OciState.updateVm (st : OciState) (f : CcOciVmCfg → CcOciVmCfg) : OciState :=
  { st with vm := st.vm.map f }

/-- Reference: `handle_state_vm_section` (`src/state.c:316`). -/
def handleStateVmSection : HandlerData → GNode → HandlerData :=
  onNamedValue fun data name value =>
    if name = "workload_path" then
      data.found (data.state.updateVm fun vm => { vm with workloadPath := .copy value })
    else if name = "hypervisor_path" then
      data.found (data.state.updateVm fun vm => { vm with hypervisorPath := .copy value })
    else if name = "kernel_path" then
      data.found (data.state.updateVm fun vm => { vm with kernelPath := .copy value })
    else if name = "image_path" then
      data.found (data.state.updateVm fun vm => { vm with imagePath := .copy value })
    else if name = "kernel_params" then
      data.found (data.state.updateVm fun vm => { vm with kernelParams := some value })
    else if name = "pid" then
      match strtoll value with
      | some n => data.found (data.state.updateVm fun vm => { vm with pid := .ofInt n })
      | none => { data with state := data.state.updateVm fun vm => { vm with pid := 0 } }
    else data

/-- An update of the proxy object, which the reader has allocated. -/
def OciState.updateProxy (st : OciState) (f : CcProxy → CcProxy) : OciState :=
  { st with proxy := st.proxy.map f }

/-- Reference: `handle_state_proxy_section` (`src/state.c:377`). -/
def handleStateProxySection : HandlerData → GNode → HandlerData :=
  onNamedValue fun data name value =>
    if name = "ctlSocket" then
      data.found (data.state.updateProxy fun p => { p with agentCtlSocket := some value })
    else if name = "ioSocket" then
      data.found (data.state.updateProxy fun p => { p with agentTtySocket := some value })
    else if name = "consoleSocket" then
      data.found (data.state.updateProxy fun p => { p with vmConsoleSocket := some value })
    else data

/-- The pod object is allocated by the first value, whatever its name. Reference:
`handle_state_pod_section` (`src/state.c:418`). -/
def handleStatePodSection : HandlerData → GNode → HandlerData :=
  onNamedValue fun data name value =>
    let pod := data.state.pod.getD {}
    if name = "sandbox" then
      data.found { data.state with pod := some { pod with sandbox := decide (value = "true") } }
    else if name = "sandbox_name" then
      data.found { data.state with pod := some { pod with sandboxName := some value } }
    else { data with state := { data.state with pod := some pod } }

/-- Reference: `handle_state_annotations_section` (`src/state.c:464`). -/
def handleStateAnnotationsSection : HandlerData → GNode → HandlerData :=
  onNamedValue fun data name value =>
    { data with state := { data.state with
      annotations := { key := name, value := some value } :: data.state.annotations } }

/-- The process goes through the handler of `config.json`, whose verdict is not looked at.
Reference: `handle_state_process_section` (`src/state.c:496`). -/
def handleStateProcessSection (state : OciState) (node : GNode) : Option OciState :=
  (processHandleSection {} node).map fun r => { state with process := some r.1 }

/-! ## Reading: the sections -/

/-- Reference: `struct state_handler` (`src/state.c:69`). -/
structure StateHandler where
  name : String
  handleSection : HandlerData → GNode → HandlerData
  subelementsNeeded : Nat

/-- Reference: `state_handlers` (`src/state.c:83`). -/
def stateHandlers : List StateHandler :=
  [⟨"ociVersion", handleStateOciVersionSection, 1⟩,
    ⟨"id", handleStateIdSection, 1⟩,
    ⟨"pid", handleStatePidSection, 1⟩,
    ⟨"bundlePath", handleStateBundlePathSection, 1⟩,
    ⟨"commsPath", handleStateCommsPathSection, 1⟩,
    ⟨"processPath", handleStateProcessPathSection, 1⟩,
    ⟨"status", handleStateStatusSection, 1⟩,
    ⟨"created", handleStateCreatedSection, 1⟩,
    ⟨"mounts", handleStateMountsSection, 0⟩,
    ⟨"console", handleStateConsoleSection, 0⟩,
    ⟨"vm", handleStateVmSection, 6⟩,
    ⟨"proxy", handleStateProxySection, 2⟩,
    ⟨"pod", handleStatePodSection, 0⟩,
    ⟨"annotations", handleStateAnnotationsSection, 0⟩]

/-- How far the reader has come: the state so far, and the count of each handler. -/
structure Reading where
  state : OciState
  counts : String → Nat

/-- One section of the file; `none` says that the process dies in it. Reference:
`handle_state_sections` (`src/state.c:519`). -/
def handleStateSections (r : Reading) (node : GNode) : Option Reading :=
  match node.data with
  | none => some r
  | some name =>
    match stateHandlers.find? fun h => h.name = name with
    | some h =>
      let data := node.children.foldl h.handleSection ⟨r.state, r.counts name⟩
      some ⟨data.state, Function.update r.counts name data.subelementsCount⟩
    | none =>
      if name = "process" then
        (handleStateProcessSection r.state node).map fun st => { r with state := st }
      else some r

/-- The state of a file's document; `none` when the reader gives up or the process dies. Reference:
`cc_oci_state_file_read` (`src/state.c:603`). -/
def stateFileRead (doc : Json) : Option OciState :=
  match (jsonParse "state.json" doc).children.foldlM handleStateSections
      ⟨{ vm := some {}, proxy := some {} }, fun _ => 0⟩ with
  | none => none
  | some r =>
    if stateHandlers.all fun h => h.subelementsNeeded ≤ r.counts h.name then some r.state else none

end Runtime

end CcOciRuntime
