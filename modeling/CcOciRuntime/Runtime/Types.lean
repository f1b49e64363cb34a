import Mathlib.Data.List.Basic

/-!
# The runtime's configuration and state

The structures that pass between the commands of the runtime: `Config` is what a command works on,
`OciState` what it reads from the state file. A `char` array of `PATH_MAX` bytes is a `PathBuf`,
which carries that its text fits, and a `gchar *` that may be null is an `Option String`.

Reference: `src/oci.h:150-600`.
-/

namespace CcOciRuntime

namespace Runtime

/-! ## Fixed buffers -/

/-- `LINE_MAX` of Linux. -/
def lineMax : Nat := 2048

/-- The bytes of a path buffer, with the terminating zero. -/
def pathMax : Nat := 4096

/-- A text in a buffer of `PATH_MAX` bytes. -/
structure PathBuf where
  text : String
  fits : text.utf8ByteSize < pathMax
  deriving DecidableEq

/-- The buffer of a zeroed structure. -/
def PathBuf.empty : PathBuf := ⟨"", by decide⟩

/-- Appending characters as long as they fit. -/
def PathBuf.fill (buf : PathBuf) : List Char → PathBuf
  | [] => buf
  | c :: cs =>
    if h : (buf.text.push c).utf8ByteSize < pathMax then PathBuf.fill ⟨buf.text.push c, h⟩ cs
    else buf

/-- Copying a text into a buffer, cut at the last whole character that fits: `g_strlcpy`,
`g_snprintf` with `"%s"`. -/
def PathBuf.copy (s : String) : PathBuf :=
  if h : s.utf8ByteSize < pathMax then ⟨s, h⟩ else PathBuf.empty.fill s.toList

/-- What was in a buffer fits a buffer. -/
@[simp] theorem PathBuf.copy_text (buf : PathBuf) : PathBuf.copy buf.text = buf := by
  rw [PathBuf.copy, dif_pos buf.fits]

@[simp] theorem PathBuf.empty_text : PathBuf.empty.text = "" := rfl

/-! ## Status -/

/-- Reference: `enum oci_status` (`src/oci.h:151`). -/
inductive OciStatus
  | created
  | running
  | paused
  | stopped
  | stopping
  | invalid
  deriving Repr, DecidableEq

/-- Reference: `oci_status_map` (`src/state.c:118`). -/
def ociStatusMap : List (OciStatus × String) :=
  [(.created, "created"), (.running, "running"), (.paused, "paused"), (.stopped, "stopped"),
    (.stopping, "stopping")]

/-- Reference: `cc_oci_status_to_str` (`src/state.c:971`). -/
def statusToStr (status : OciStatus) : Option String :=
  (ociStatusMap.find? fun p => p.1 = status).map Prod.snd

/-- Reference: `cc_oci_str_to_status` (`src/state.c:1013`). -/
def strToStatus (str : String) : OciStatus :=
  match ociStatusMap.find? fun p => p.2 = str with
  | some p => p.1
  | none => .invalid

theorem strToStatus_of_statusToStr {status : OciStatus} {str : String}
    (h : statusToStr status = some str) : strToStatus str = status := by
  cases status <;> cases h <;> rfl

/-! ## Configuration -/

/-- Reference: `struct oci_cfg_user` (`src/oci.h:184`). -/
structure OciCfgUser where
  uid : UInt32 := 0
  gid : UInt32 := 0
  deriving DecidableEq

/-- Reference: `struct oci_cfg_process` (`src/oci.h:223`). -/
structure OciCfgProcess where
  args : Option (List String) := none
  cwd : PathBuf := .empty
  env : Option (List String) := none
  terminal : Bool := false
  user : OciCfgUser := {}
  stdioStream : Int32 := 0
  stderrStream : Int32 := 0
  deriving DecidableEq

/-- Reference: `struct oci_cfg_root` (`src/oci.h:177`). -/
structure OciCfgRoot where
  path : PathBuf := .empty
  readOnly : Bool := false
  deriving DecidableEq

/-- Reference: `struct oci_cfg_annotation` (`src/oci.h:205`). -/
structure OciCfgAnnotation where
  key : String
  value : Option String := none
  deriving DecidableEq

/-- A mount, with what the state file keeps of it. Reference: `struct cc_oci_mount`
(`src/oci.h:478`). -/
structure CcOciMount where
  dest : PathBuf := .empty
  ignoreMount : Bool := false
  directoryCreated : Option String := none
  deriving DecidableEq

/-- Reference: `struct cc_oci_vm_cfg` (`src/oci.h:286`). -/
structure CcOciVmCfg where
  hypervisorPath : PathBuf := .empty
  imagePath : PathBuf := .empty
  kernelPath : PathBuf := .empty
  workloadPath : PathBuf := .empty
  kernelParams : Option String := none
  pid : Int32 := 0
  deriving DecidableEq

/-- The sockets of the agent; the connection to the proxy is not part of the files. Reference:
`struct cc_proxy` (`src/oci.h:503`). -/
structure CcProxy where
  agentCtlSocket : Option String := none
  agentTtySocket : Option String := none
  vmConsoleSocket : Option String := none
  deriving DecidableEq

/-- Reference: `struct cc_pod` (`src/oci.h:533`). -/
structure CcPod where
  sandbox : Bool := false
  sandboxName : Option String := none
  sandboxWorkloads : PathBuf := .empty
  deriving DecidableEq

/-- The parts of the OCI configuration that the modelled commands use. Reference: `struct oci_cfg`
(`src/oci.h:259`). -/
structure OciCfg where
  ociVersion : Option String := none
  hostname : Option String := none
  mounts : List CcOciMount := []
  annotations : List OciCfgAnnotation := []
  root : OciCfgRoot := {}
  process : OciCfgProcess := {}

/-- Reference: `struct cc_oci_container_state` (`src/oci.h:442`). -/
structure ContainerState where
  runtimePath : PathBuf := .empty
  commsPath : PathBuf := .empty
  procsockPath : PathBuf := .empty
  workloadPid : Int32 := 0
  status : OciStatus := .created

/-- Reference: `struct cc_oci_config` (`src/oci.h:559`). -/
structure Config where
  oci : OciCfg := {}
  vm : Option CcOciVmCfg := none
  state : ContainerState := {}
  pod : Option CcPod := none
  bundlePath : Option String := none
  pidFile : Option String := none
  console : Option String := none
  rootDir : Option String := none
  optargContainerId : Option String := none
  dryRunMode : Bool := false
  detachedMode : Bool := false
  proxy : Option CcProxy := none

/-- The configuration a command starts from. Reference: `cc_oci_config_create`
(`src/oci-config.c:118`). -/
def configCreate : Config where
  proxy := some {}

/-- The configuration with another status. -/
def Config.withStatus (config : Config) (status : OciStatus) : Config :=
  { config with state := { config.state with status } }

/-- Reference: `struct oci_state` (`src/oci.h:401`). -/
structure OciState where
  ociVersion : Option String := none
  id : Option String := none
  pid : Int32 := 0
  bundlePath : Option String := none
  commsPath : Option String := none
  procsockPath : Option String := none
  status : OciStatus := .created
  createTime : Option String := none
  mounts : List CcOciMount := []
  annotations : List OciCfgAnnotation := []
  console : Option String := none
  vm : Option CcOciVmCfg := none
  proxy : Option CcProxy := none
  pod : Option CcPod := none
  process : Option OciCfgProcess := none

end Runtime

end CcOciRuntime
