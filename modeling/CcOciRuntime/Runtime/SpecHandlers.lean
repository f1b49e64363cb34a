import CcOciRuntime.Runtime.NodeTree
import CcOciRuntime.Runtime.Types

/-!
# The handlers of the sections of `config.json`

A section of the configuration file is handed to the handler of its name, as the node of the section
in the tree of texts. The handlers of `process`, `root` and `annotations` are modelled in full; of
the other five only what they may change, as answers of the environment. A result `none` says that
the process dies on a null pointer, as `atoi` does on a value without a text.

Reference: `src/spec_handlers/process.c`, `root.c`, `annotations.c`, `cc_pod_handle_annotations`
(`src/pod.c:118`), `cc_oci_process_config` (`src/oci-config.c:225`).
-/

namespace CcOciRuntime

namespace Runtime

/-! ## The process section -/

/-- Reference: `handle_user_section` (`src/spec_handlers/process.c:28`). -/
def handleUserSection (p : OciCfgProcess) (root : GNode) : Option OciCfgProcess :=
  if root.data = some "uid" then
    root.childData.map fun s => { p with user := { p.user with uid := (atoi s).toUInt32 } }
  else if root.data = some "gid" then
    root.childData.map fun s => { p with user := { p.user with gid := (atoi s).toUInt32 } }
  else some p

/-- Reference: `handle_process_section` (`src/spec_handlers/process.c:43`). -/
def handleProcessSection (p : OciCfgProcess) (root : GNode) : Option OciCfgProcess :=
  match root.children with
  | [] => some p
  | child :: _ =>
    if root.data = some "cwd" then
      -- what `snprintf` writes for a null text
      some { p with cwd := .copy (child.data.getD "(null)") }
    else if root.data = some "args" then some { p with args := some (nodeToStrv root) }
    else if root.data = some "env" then some { p with env := some (nodeToStrv root) }
    else if root.data = some "terminal" then
      some { p with terminal := decide (child.data = some "true") }
    else if root.data = some "user" then root.children.foldlM handleUserSection p
    else if root.data = some "stdio_stream" then
      child.data.map fun s => { p with stdioStream := atoi s }
    else if root.data = some "stderr_stream" then
      child.data.map fun s => { p with stderrStream := atoi s }
    else some p

/-- The process of a section, and whether the handler accepts it. Reference:
`process_handle_section` (`src/spec_handlers/process.c:72`). -/
def processHandleSection (p : OciCfgProcess) (root : GNode) : Option (OciCfgProcess × Bool) :=
  (root.children.foldlM handleProcessSection
    { p with stdioStream := -1, stderrStream := -1 }).map fun p =>
      (p, decide (p.cwd.text.toList.head? = some '/') && p.args.isSome)

/-! ## The root section -/

/-- What the handlers ask of the host: the canonical form of a path, and whether it is a directory;
and what the handlers that are not modelled make of their sections. -/
structure SpecEnv where
  resolvePath : String → Option String
  isDir : String → Bool
  mounts : GNode → Config → Option (List CcOciMount)
  vm : GNode → Config → Option CcOciVmCfg
  accepts : String → GNode → Bool

/-- Reference: `cc_oci_resolve_path` (`src/util.c:482`). -/
def resolvePath (env : SpecEnv) (path : String) : Option String :=
  if path = "" then none else env.resolvePath path

/-- Reference: `handle_root_section` (`src/spec_handlers/root.c:28`). -/
def handleRootSection (env : SpecEnv) (r : OciCfgRoot) (root : GNode) : OciCfgRoot :=
  match root.children with
  | [] => r
  | child :: _ =>
    if root.data = some "path" then
      match child.data.bind (resolvePath env) with
      | some full => { r with path := .copy full }
      | none => r
    else if root.data = some "readonly" then
      if child.data = some "true" then { r with readOnly := true }
      else if child.data = some "false" then { r with readOnly := false }
      else r
    else r

/-- The root of a section, when the handler accepts it. Reference: `root_handle_section`
(`src/spec_handlers/root.c:51`). -/
def rootHandleSection (env : SpecEnv) (r : OciCfgRoot) (root : GNode) : Option OciCfgRoot :=
  let r := root.children.foldl (handleRootSection env) r
  if r.path.text = "" then none
  else if env.isDir r.path.text then some r
  else none

/-! ## The annotations section -/

/-- The directory of the runtime's files. Reference: `CC_OCI_RUNTIME_DIR_PREFIX` (`src/oci.h:83`),
with the state directory of the default configuration. -/
def runtimeDirPrefix : String := "/var/run/cc-oci-runtime"

/-- A pod container's root is a mount of its own, whose destination is set later. Reference:
`add_container_mount` (`src/pod.c:55`). -/
def addContainerMount (config : Config) : Config :=
  { config with oci.mounts := config.oci.mounts ++ [{}] }

/-- The workload directory of a sandbox. Reference: `src/pod.c:150-155`. -/
def sandboxWorkloads (name : String) : PathBuf :=
  .copy (runtimeDirPrefix ++ "/" ++ name ++ "/workloads")

/-- Reference: `cc_pod_handle_annotations` (`src/pod.c:118`). -/
def podHandleAnnotations (config : Config) (key value : String) : Config :=
  if "ocid/".toList.isPrefixOf key.toList then
    let pod := config.pod.getD {}
    if key = "ocid/container_type" then
      if value = "sandbox" then
        addContainerMount { config with
          pod := some { pod with
            sandbox := true
            sandboxName := config.optargContainerId
            sandboxWorkloads := sandboxWorkloads (config.optargContainerId.getD "(null)") } }
      else if value = "container" then { config with pod := some { pod with sandbox := false } }
      else { config with pod := some pod }
    else if key = "ocid/sandbox_name" then
      addContainerMount { config with
        pod := some { pod with
          sandboxName := some value
          sandboxWorkloads := sandboxWorkloads value } }
    else { config with pod := some pod }
  else config

/-- Reference: `handle_annotation` (`src/spec_handlers/annotations.c:27`). -/
def handleAnnotation (config : Config) (root : GNode) : Config :=
  match root.children, root.data with
  | child :: _, some key =>
    if key = "" then config
    else
      -- an empty value is dropped, and an annotation without a value is not shown to the pod
      let value := child.data.filter (· ≠ "")
      let config := match value with
        | some v => podHandleAnnotations config key v
        | none => config
      { config with oci.annotations := { key, value } :: config.oci.annotations }
  | _, _ => config

/-- Reference: `annotations_handle_section` (`src/spec_handlers/annotations.c:67`). -/
def annotationsHandleSection (config : Config) (root : GNode) : Config :=
  root.children.foldl handleAnnotation config

/-! ## All sections -/

/-- The handler of a section: `none` when it rejects the section or the process dies. -/
def specHandler (env : SpecEnv) (config : Config) (name : String) (root : GNode) : Option Config :=
  if name = "annotations" then some (annotationsHandleSection config root)
  else if name = "mounts" then
    (env.mounts root config).map fun ms => { config with oci.mounts := ms }
  else if name = "process" then
    match processHandleSection config.oci.process root with
    | some (p, true) => some { config with oci.process := p }
    | _ => none
  else if name = "root" then
    (rootHandleSection env config.oci.root root).map fun r => { config with oci.root := r }
  else if name = "vm" then (env.vm root config).map fun vm => { config with vm := some vm }
  else if name = "hooks" ∨ name = "platform" ∨ name = "linux" then
    if env.accepts name root then some config else none
  else some config

/-- One section of the file. Reference: `src/oci-config.c:230-256`. -/
def processSection (env : SpecEnv) (config : Config) (node : GNode) : Option Config :=
  match node.data with
  | none => some config
  | some name =>
    let config :=
      match node.children with
      | [] => config
      | child :: _ =>
        if name = "ociVersion" then { config with oci.ociVersion := child.data }
        else if name = "hostname" then { config with oci.hostname := child.data }
        else config
    specHandler env config name node

/-- Reference: `cc_oci_process_config` (`src/oci-config.c:225`). -/
def processConfig (env : SpecEnv) (root : GNode) (config : Config) : Option Config :=
  root.children.foldlM (processSection env) config

end Runtime

end CcOciRuntime
