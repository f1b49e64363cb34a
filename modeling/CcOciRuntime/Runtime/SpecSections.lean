import CcOciRuntime.Runtime.Mounts
import Mathlib.Data.List.ReduceOption

/-!
# All sections of `config.json`

The handlers that `CcOciRuntime.Runtime.SpecHandlers` leaves to its environment: `mounts`, `hooks`,
`platform`, `vm` and `linux`, with what they add to the configuration. `SpecConfig` is the
configuration together with these parts. A handler can reject its section, and the one of `process`
can also make the process die, so a result has one of two errors.

Reference: `src/spec_handlers/`, `cc_oci_process_config` (`src/oci-config.c:225`).
-/

namespace CcOciRuntime

namespace Runtime

/-! ## What the sections are about -/

/-- Reference: `struct oci_cfg_hook` (`src/oci.h:190`). -/
structure OciCfgHook where
  path : PathBuf := .empty
  args : Option (List String) := none
  env : Option (List String) := none
  timeout : Int32 := 0
  deriving DecidableEq

/-- Reference: `struct oci_cfg_hooks` (`src/oci.h:199`). -/
structure OciCfgHooks where
  prestart : List OciCfgHook := []
  poststart : List OciCfgHook := []
  poststop : List OciCfgHook := []
  deriving DecidableEq

/-- Reference: `struct oci_cfg_platform` (`src/oci.h:172`). -/
structure OciCfgPlatform where
  os : Option String := none
  arch : Option String := none

/-- Reference: `enum oci_namespace` (`src/oci.h:160`). -/
inductive OciNamespace
  | pid
  | net
  | mount
  | ipc
  | uts
  | user
  | cgroup
  deriving DecidableEq

/-- A namespace whose entry gives no type keeps the zero of the new structure. Reference:
`struct oci_cfg_namespace` (`src/oci.h:210`). -/
structure OciCfgNamespace where
  type : Option OciNamespace := none
  path : Option String := none

/-- The configuration with the parts that only some handlers fill in. Every mount of the list is
still to be made. -/
@[ext]
structure SpecConfig where
  config : Config
  mountSpecs : List MountSpec := []
  hooks : OciCfgHooks := {}
  platform : OciCfgPlatform := {}
  namespaces : List OciCfgNamespace := []
  fresh : config.oci.mounts = mountSpecs.map fun _ => {}

/-- How a handler can fail: it returns `false`, or the process dies on a null pointer. -/
inductive SpecError
  | rejected
  | died
  deriving DecidableEq

/-- What the handlers ask of the host. -/
structure SpecHost where
  resolvePath : String → Option String
  isDir : String → Bool
  pathExists : String → Bool

/-- A result of a handler that cannot make the process die. -/
def orRejected {α : Type} : Option α → Except SpecError α
  | some a => .ok a
  | none => .error .rejected

@[simp] theorem toOption_orRejected {α : Type} (o : Option α) : (orRejected o).toOption = o := by
  cases o <;> rfl

theorem orRejected_eq_ok {α : Type} {o : Option α} {a : α} (h : orRejected o = .ok a) :
    o = some a := by
  rw [← toOption_orRejected o, h]
  rfl

/-! ## Lists of objects -/

/-- How the entries of a list are read: an entry is filled in from nodes with a name and a value and
saved when the next one begins. Either can fail. -/
structure EntryReader (κ β : Type) where
  blank : κ
  fill : κ → String → GNode → Option κ
  save : κ → Option β

namespace EntryReader

variable {κ β : Type} (r : EntryReader κ β)

/-- Saving the entry that is being filled in, if there is one. Reference: `save_current_mount`
(`src/spec_handlers/mounts.c:105`), `save_current_hook` (`hooks.c:31`), `save_current_ns`
(`linux.c:34`). -/
def saveCurrent (st : List β × Option κ) : Option (List β × Option κ) :=
  match st.2 with
  | none => some st
  | some current => (r.save current).map fun entry => (st.1 ++ [entry], none)

/-- One node of the list; the blank node that begins an object ends the entry before it. -/
def handle (st : List β × Option κ) (node : GNode) : Option (List β × Option κ) :=
  match node.data, node.children with
  | none, _ => r.saveCurrent st
  | some _, [] => some st
  | some name, _ :: _ =>
    (r.fill (st.2.getD r.blank) name node).map fun current => (st.1, some current)

/-- The entries of a list, after those there are already. -/
def read (entries : List β) (nodes : List GNode) : Option (List β) :=
  ((nodes.foldlM r.handle (entries, none)).bind r.saveCurrent).map Prod.fst

/-- The entry, if one was being filled in. -/
def saved : Option κ → Option (Option β)
  | none => some none
  | some current => (r.save current).map some

/-- One member of an object. -/
def fillMember (current : Option κ) (m : String × Json) : Option (Option κ) :=
  match jsonParseAux false m.2 with
  | [] => some current
  | _ :: _ => (r.fill (current.getD r.blank) m.1 (memberNode m)).map some

/-- The entry of an object, which has none if no member has a value. -/
def object (ms : List (String × Json)) : Option (Option β) :=
  (ms.foldlM r.fillMember none).bind r.saved

theorem saveCurrent_eq (entries : List β) (current : Option κ) :
    r.saveCurrent (entries, current) =
      (r.saved current).map fun entry => (entries ++ entry.toList, none) := by
  cases current with
  | none => simp [saveCurrent, saved]
  | some current => simp [saveCurrent, saved, Function.comp_def]

/-- The members of an object fill in one entry. -/
theorem foldlM_handle_members (entries : List β) (current : Option κ)
    (ms : List (String × Json)) :
    (jsonParseMembers ms).foldlM r.handle (entries, current) =
      (ms.foldlM r.fillMember current).map fun current => (entries, current) := by
  induction ms generalizing current with
  | nil => rfl
  | cons m ms ih =>
    have hm : r.handle (entries, current) (memberNode m) =
        (r.fillMember current m).map fun current => (entries, current) := by
      rw [handle, fillMember, memberNode, GNode.data_mk, GNode.children_mk]
      cases jsonParseAux false m.2 with
      | nil => rfl
      | cons node nodes =>
        dsimp only
        rw [Option.map_map]
        rfl
    rw [jsonParseMembers_eq_map, List.map_cons, List.foldlM_cons, List.foldlM_cons, hm]
    cases r.fillMember current m with
    | none => rfl
    | some current' =>
      rw [← jsonParseMembers_eq_map]
      exact ih current'

/-- An object is only saved when the next one begins. -/
theorem foldlM_handle_objects (entries : List β) (current : Option κ)
    (mss : List (List (String × Json))) :
    ((jsonParseElements (mss.map .obj)).foldlM r.handle (entries, current)).bind r.saveCurrent =
      (r.saved current).bind fun entry => (mss.mapM r.object).map fun es =>
        (entries ++ entry.toList ++ es.reduceOption, none) := by
  induction mss generalizing entries current with
  | nil =>
    refine (r.saveCurrent_eq entries current).trans ?_
    cases r.saved current with
    | none => rfl
    | some entry =>
      rw [Option.map_some, Option.bind_some, List.mapM_nil, Option.pure_def, Option.map_some,
        List.reduceOption_nil, List.append_nil]
  | cons ms mss ih =>
    have hnodes : jsonParseElements ((ms :: mss).map .obj) =
        blankNode :: (jsonParseMembers ms ++ jsonParseElements (mss.map .obj)) := rfl
    have hblank : r.handle (entries, current) blankNode = r.saveCurrent (entries, current) := rfl
    rw [hnodes, List.foldlM_cons, hblank, saveCurrent_eq]
    cases r.saved current with
    | none => rfl
    | some entry =>
      rw [Option.map_some, Option.bind_eq_bind, Option.bind_some, List.foldlM_append,
        foldlM_handle_members, List.mapM_cons, object]
      cases ms.foldlM r.fillMember none with
      | none => rfl
      | some current' =>
        refine (ih (entries ++ entry.toList) current').trans ?_
        rw [Option.bind_some, Option.bind_some]
        cases r.saved current' with
        | none => rfl
        | some entry' =>
          cases mss.mapM r.object with
          | none => rfl
          | some es =>
            cases entry' with
            | none => simp
            | some entry' => simp

/-- **An array of objects** is read as the entries of its objects, in their order, after those there
are already. -/
theorem read_objects (entries : List β) (mss : List (List (String × Json))) :
    r.read entries (jsonParseElements (mss.map .obj)) =
      (mss.mapM r.object).map fun es => entries ++ es.reduceOption := by
  rw [read, foldlM_handle_objects, saved, Option.bind_some, Option.map_map]
  simp [Function.comp_def]

end EntryReader

/-! ## The mounts section -/

/-- Reference: `mnt_flag_map` (`src/spec_handlers/mounts.c:31`), with the values of
`sys/mount.h`. -/
def mntFlagMap : List (String × Nat) :=
  [("bind", 4096), ("dirsync", 128), ("mandlock", 64), ("move", 8192), ("noatime", 1024),
    ("nodev", 4), ("nodiratime", 2048), ("noexec", 8), ("nosuid", 2), ("ro", 1),
    ("relatime", 2097152), ("remount", 32), ("silent", 32768), ("strictatime", 16777216),
    ("sync", 16), ("rbind", 4096 ||| 16384), ("rprivate", 262144 ||| 16384), ("private", 262144),
    ("rslave", 524288 ||| 16384), ("slave", 524288), ("rshared", 1048576 ||| 16384),
    ("shared", 1048576)]

/-- Reference: `mount_get_flag_value` (`src/spec_handlers/mounts.c:66`). -/
def mountGetFlagValue (flag : Option String) : Option Nat := flag.bind fun f => mntFlagMap.lookup f

/-- The mount that is being filled in. -/
structure CurrentMount where
  dir : Option String := none
  type : Option String := none
  fsname : Option String := none
  opts : Option String := none
  flags : Nat := 0

/-- An option is a flag or goes to the text of the options. Reference: `handle_options_section`
(`src/spec_handlers/mounts.c:87`). -/
def handleOptionsSection (st : Nat × List String) (node : GNode) : Nat × List String :=
  match mountGetFlagValue node.data with
  | some flag => (st.1 ||| flag, st.2)
  | none => (st.1, st.2 ++ [node.data.getD "(null)"])

/-- Reference: `handle_mounts_section` (`src/spec_handlers/mounts.c:148`). -/
def fillMount (m : CurrentMount) (name : String) (node : GNode) : Option CurrentMount :=
  if name = "destination" then some { m with dir := node.childData }
  else if name = "type" then some { m with type := node.childData }
  else if name = "source" then some { m with fsname := node.childData }
  else if name = "options" then
    let (flags, rest) := node.children.foldl handleOptionsSection (m.flags, [])
    some { m with
      flags
      opts := if rest = [] then m.opts else some (",".intercalate rest) }
  else some m

/-- A mount needs a destination, a type and a source. Reference: `save_current_mount`
(`src/spec_handlers/mounts.c:105`). -/
def saveMount (m : CurrentMount) : Option MountSpec :=
  match m.dir, m.type, m.fsname with
  | some dir, some type, some fsname => some { dir, type, fsname, opts := m.opts, flags := m.flags }
  | _, _, _ => none

def mountReader : EntryReader CurrentMount MountSpec := ⟨{}, fillMount, saveMount⟩

/-- Mounts that are there already are kept. Reference: `mounts_handle_section`
(`src/spec_handlers/mounts.c:188`). -/
def mountsHandleSection (specs : List MountSpec) (root : GNode) : Option (List MountSpec) :=
  match specs with
  | [] => mountReader.read [] root.children
  | _ :: _ => some specs

/-! ## The hooks section -/

/-- Reference: `handle_hook` (`src/spec_handlers/hooks.c:59`). -/
def fillHook (h : OciCfgHook) (name : String) (node : GNode) : Option OciCfgHook :=
  if name = "path" then some { h with path := .copy (node.childData.getD "(null)") }
  else if name = "args" then some { h with args := some (nodeToStrv node) }
  else if name = "env" then some { h with env := some (nodeToStrv node) }
  else if name = "timeout" then
    some { h with timeout := Int32.ofInt ((node.childData.bind strtoll).getD 0) }
  else some h

/-- A hook needs a path. Reference: `save_current_hook` (`src/spec_handlers/hooks.c:31`). -/
def saveHook (h : OciCfgHook) : Option OciCfgHook := if h.path.text = "" then none else some h

def hookReader : EntryReader OciCfgHook OciCfgHook := ⟨{}, fillHook, saveHook⟩

/-- The hooks of one phase; an unknown phase is only reported. Reference: `handle_hooks_section`
(`src/spec_handlers/hooks.c:94`). -/
def handleHooksSection (hooks : OciCfgHooks) (root : GNode) : Option OciCfgHooks :=
  if root.children.isEmpty then some hooks
  else if root.data = some "prestart" then
    (hookReader.read hooks.prestart root.children).map fun hs => { hooks with prestart := hs }
  else if root.data = some "poststart" then
    (hookReader.read hooks.poststart root.children).map fun hs => { hooks with poststart := hs }
  else if root.data = some "poststop" then
    (hookReader.read hooks.poststop root.children).map fun hs => { hooks with poststop := hs }
  else some hooks

/-- Reference: `hooks_handle_section` (`src/spec_handlers/hooks.c:120`). -/
def hooksHandleSection (hooks : OciCfgHooks) (root : GNode) : Option OciCfgHooks :=
  root.children.foldlM handleHooksSection hooks

/-! ## The platform section -/

/-- Reference: `handle_platform_section` (`src/spec_handlers/platform.c:24`). -/
def handlePlatformSection (p : OciCfgPlatform) (root : GNode) : OciCfgPlatform :=
  if root.children.isEmpty then p
  else if root.data = some "os" then { p with os := root.childData }
  else if root.data = some "arch" then { p with arch := root.childData }
  else p

/-- Reference: `platform_handle_section` (`src/spec_handlers/platform.c:36`), with the constants of
`src/oci.h:116-119`. -/
def platformHandleSection (p : OciCfgPlatform) (root : GNode) : Option OciCfgPlatform :=
  let p := root.children.foldl handlePlatformSection p
  if p.os = some "linux" ∧ p.arch = some "amd64" then some p else none

/-! ## The VM section -/

/-- The canonical form of a path; there is none for a null or empty one. Reference:
`cc_oci_resolve_path` (`src/util.c:482`). -/
def SpecHost.resolve (host : SpecHost) (path : Option String) : Option String :=
  path.bind fun path => if path = "" then none else host.resolvePath path

/-- A path of the VM is set when it can be resolved. -/
def setPath (host : SpecHost) (old : PathBuf) (path : Option String) : PathBuf :=
  match host.resolve path with
  | some full => .copy full
  | none => old

/-- Reference: `handle_kernel_section` (`src/spec_handlers/vm.c:29`). -/
def handleKernelSection (host : SpecHost) (vm : CcOciVmCfg) (root : GNode) : CcOciVmCfg :=
  if root.children.isEmpty then vm
  else if root.data = some "path" then
    { vm with kernelPath := setPath host vm.kernelPath root.childData }
  else if root.data = some "parameters" then { vm with kernelParams := root.childData }
  else vm

/-- Reference: `handle_vm_section` (`src/spec_handlers/vm.c:48`). -/
def handleVmSection (host : SpecHost) (vm : CcOciVmCfg) (root : GNode) : CcOciVmCfg :=
  if root.children.isEmpty then vm
  else if root.data = some "path" then
    { vm with hypervisorPath := setPath host vm.hypervisorPath root.childData }
  else if root.data = some "image" then
    { vm with imagePath := setPath host vm.imagePath root.childData }
  else if root.data = some "kernel" then root.children.foldl (handleKernelSection host) vm
  else vm

/-- A path of the VM that is set and exists. -/
def vmPathFound (host : SpecHost) (path : PathBuf) : Bool :=
  path.text ≠ "" && host.pathExists path.text

/-- Reference: `vm_handle_section` (`src/spec_handlers/vm.c:78`). -/
def vmHandleSection (host : SpecHost) (vm : Option CcOciVmCfg) (root : GNode) : Option CcOciVmCfg :=
  let vm := root.children.foldl (handleVmSection host) (vm.getD {})
  if vmPathFound host vm.hypervisorPath && vmPathFound host vm.imagePath &&
      vmPathFound host vm.kernelPath then some vm
  else none

/-! ## The linux section -/

/-- Reference: `oci_ns_map` (`src/namespace.c:39`). -/
def ociNsMap : List (String × OciNamespace) :=
  [("cgroup", .cgroup), ("ipc", .ipc), ("mount", .mount), ("network", .net), ("pid", .pid),
    ("user", .user), ("uts", .uts)]

/-- Reference: `handle_namespaces_section` (`src/spec_handlers/linux.c:45`). -/
def fillNamespace (ns : OciCfgNamespace) (name : String) (node : GNode) : Option OciCfgNamespace :=
  if name = "type" then
    (node.childData.bind fun type => ociNsMap.lookup type).map fun t => { ns with type := some t }
  else if name = "path" then
    match node.childData.filter (· ≠ "") with
    | some path => some { ns with path := some path }
    | none => some ns
  else some ns

def namespaceReader : EntryReader OciCfgNamespace OciCfgNamespace := ⟨{}, fillNamespace, some⟩

/-- Reference: `handle_linux_section` (`src/spec_handlers/linux.c:95`). -/
def handleLinuxSection (nss : List OciCfgNamespace) (root : GNode) :
    Option (List OciCfgNamespace) :=
  if root.children.isEmpty then some nss
  else if root.data = some "namespaces" then namespaceReader.read nss root.children
  else some nss

/-- Reference: `linux_handle_section` (`src/spec_handlers/linux.c:109`). -/
def linuxHandleSection (nss : List OciCfgNamespace) (root : GNode) :
    Option (List OciCfgNamespace) :=
  root.children.foldlM handleLinuxSection nss

/-! ## The annotations section -/

/-- The mount of a pod container's root: the root as it is known by then. Reference:
`add_container_mount` (`src/pod.c:55`). -/
def containerMount (config : Config) : MountSpec where
  fsname := config.oci.root.path.text
  dir := (PathBuf.copy ("/" ++ config.optargContainerId.getD "(null)" ++ "/rootfs")).text
  type := "bind"
  flags := 4096

/-- An annotation that adds a mount. Reference: `src/pod.c:142-174`. -/
def AddsMount (key value : String) : Prop :=
  key = "ocid/container_type" ∧ value = "sandbox" ∨ key = "ocid/sandbox_name"

instance (key value : String) : Decidable (AddsMount key value) :=
  inferInstanceAs (Decidable (_ ∨ _))

/-- The key and the value of an annotation that is shown to the pod. -/
def podAnnotated (root : GNode) : Option (String × String) :=
  match root.children, root.data with
  | child :: _, some key =>
    if key = "" then none else (child.data.filter (· ≠ "")).map fun value => (key, value)
  | _, _ => none

/-- The mounts that an annotation adds. -/
def annotationMounts (config : Config) (root : GNode) : List MountSpec :=
  match podAnnotated root with
  | some (key, value) => if AddsMount key value then [containerMount config] else []
  | none => []

/-- An annotation adds one mount or none. -/
theorem podHandleAnnotations_mounts (config : Config) (key value : String) :
    (podHandleAnnotations config key value).oci.mounts =
      config.oci.mounts ++ if AddsMount key value then [({} : CcOciMount)] else [] := by
  by_cases htype : key = "ocid/container_type"
  · have hocid : "ocid/".toList.isPrefixOf key.toList = true := by
      rw [htype]
      decide
    have hadds : AddsMount key value ↔ value = "sandbox" := by simp [AddsMount, htype]
    rw [podHandleAnnotations, if_pos hocid, if_pos htype]
    split_ifs <;> simp_all [addContainerMount]
  by_cases hname : key = "ocid/sandbox_name"
  · have hocid : "ocid/".toList.isPrefixOf key.toList = true := by
      rw [hname]
      decide
    rw [podHandleAnnotations, if_pos hocid, if_neg htype, if_pos hname, if_pos (.inr hname)]
    rfl
  · have hadds : ¬ AddsMount key value := by simp [AddsMount, htype, hname]
    rw [podHandleAnnotations, if_neg htype, if_neg hname, if_neg hadds, List.append_nil]
    split_ifs <;> rfl

/-- The configuration once the pod has been shown an annotation. -/
def podShown (config : Config) (root : GNode) : Config :=
  match podAnnotated root with
  | some (key, value) => podHandleAnnotations config key value
  | none => config

/-- An annotation is shown to the pod, and it is added to the annotations unless it has no key. -/
theorem handleAnnotation_eq (root : GNode) : ∃ added, ∀ config, handleAnnotation config root =
    { podShown config root with
      oci.annotations := added ++ (podShown config root).oci.annotations } := by
  unfold handleAnnotation podShown podAnnotated
  rcases root with ⟨data, _ | ⟨child, cs⟩⟩
  · exact ⟨[], fun _ => rfl⟩
  · cases data with
    | none => exact ⟨[], fun _ => rfl⟩
    | some key =>
      by_cases hkey : key = ""
      · refine ⟨[], fun config => ?_⟩
        simp only [GNode.children_mk, GNode.data_mk, if_pos hkey, List.nil_append]
      · refine ⟨[{ key, value := child.data.filter (· ≠ "") }], fun config => ?_⟩
        simp only [GNode.children_mk, GNode.data_mk, if_neg hkey]
        cases child.data.filter (· ≠ "") <;> rfl

/-- The mounts that an annotation adds. -/
theorem handleAnnotation_mounts (config : Config) (root : GNode) :
    ( handleAnnotation config root).oci.mounts =
      config.oci.mounts ++ (annotationMounts config root).map fun _ => ({} : CcOciMount) := by
  obtain ⟨added, heq⟩ := handleAnnotation_eq root
  rw [heq]
  unfold podShown annotationMounts
  cases podAnnotated root with
  | none => exact (List.append_nil _).symm
  | some shown =>
    dsimp only
    rw [podHandleAnnotations_mounts]
    split_ifs <;> rfl

/-- Reference: `handle_annotation` (`src/spec_handlers/annotations.c:27`). -/
def SpecConfig.annotate (sc : SpecConfig) (root : GNode) : SpecConfig :=
  { sc with
    config := handleAnnotation sc.config root
    mountSpecs := sc.mountSpecs ++ annotationMounts sc.config root
    fresh := by rw [handleAnnotation_mounts, sc.fresh, List.map_append] }

/-! ## The handlers -/

/-- The configuration with other mounts to be made. -/
def SpecConfig.withMounts (sc : SpecConfig) (specs : List MountSpec) : SpecConfig :=
  { sc with
    config := { sc.config with oci.mounts := specs.map fun _ => {} }
    mountSpecs := specs
    fresh := rfl }

/-- A handler of a section. Reference: `struct spec_handler` (`src/spec_handler.h:34`). -/
abbrev SpecHandler := SpecConfig → GNode → Except SpecError SpecConfig

def annotationsSpecHandler : SpecHandler := fun sc root => .ok (root.children.foldl .annotate sc)

def hooksSpecHandler : SpecHandler := fun sc root =>
  orRejected ((hooksHandleSection sc.hooks root).map fun hooks => { sc with hooks })

def mountsSpecHandler : SpecHandler := fun sc root =>
  orRejected ((mountsHandleSection sc.mountSpecs root).map sc.withMounts)

def platformSpecHandler : SpecHandler := fun sc root =>
  orRejected ((platformHandleSection sc.platform root).map fun platform => { sc with platform })

def processSpecHandler : SpecHandler := fun sc root =>
  match processHandleSection sc.config.oci.process root with
  | none => .error .died
  | some (_, false) => .error .rejected
  | some (p, true) =>
    .ok { sc with config := { sc.config with oci.process := p }, fresh := sc.fresh }

def linuxSpecHandler : SpecHandler := fun sc root =>
  orRejected ((linuxHandleSection sc.namespaces root).map fun namespaces => { sc with namespaces })

/-- What the handlers answer to the earlier model, which takes five of them as given. -/
def SpecHost.toSpecEnv (host : SpecHost) : SpecEnv where
  resolvePath := host.resolvePath
  isDir := host.isDir
  mounts root config :=
    match config.oci.mounts with
    | [] => (mountReader.read [] root.children).map fun specs => specs.map fun _ => {}
    | m :: ms => some (m :: ms)
  vm root config := vmHandleSection host config.vm root
  accepts name root :=
    if name = "hooks" then (hooksHandleSection {} root).isSome
    else if name = "platform" then (platformHandleSection {} root).isSome
    else (linuxHandleSection [] root).isSome

def rootSpecHandler (host : SpecHost) : SpecHandler := fun sc root =>
  orRejected ((rootHandleSection host.toSpecEnv sc.config.oci.root root).map fun r =>
    { sc with config := { sc.config with oci.root := r }, fresh := sc.fresh })

def vmSpecHandler (host : SpecHost) : SpecHandler := fun sc root =>
  orRejected ((vmHandleSection host sc.config.vm root).map fun vm =>
    { sc with config := { sc.config with vm := some vm }, fresh := sc.fresh })

/-- The handlers of `create`. Reference: `start_spec_handlers` (`src/oci.c:100`). -/
def startSpecHandlers (host : SpecHost) : List (String × SpecHandler) :=
  [("annotations", annotationsSpecHandler), ("hooks", hooksSpecHandler),
    ("mounts", mountsSpecHandler), ("platform", platformSpecHandler),
    ("process", processSpecHandler), ("root", rootSpecHandler host), ("vm", vmSpecHandler host),
    ("linux", linuxSpecHandler)]

/-- The handlers of `delete`. Reference: `stop_spec_handlers` (`src/command.c:61`). -/
def stopSpecHandlers : List (String × SpecHandler) := [("hooks", hooksSpecHandler)]

/-- The two members that are no sections. Reference: `src/oci-config.c:235-243`. -/
def SpecConfig.scalars (sc : SpecConfig) (name : String) (node : GNode) : SpecConfig :=
  if node.children.isEmpty then sc
  else if name = "ociVersion" then
    { sc with config := { sc.config with oci.ociVersion := node.childData }, fresh := sc.fresh }
  else if name = "hostname" then
    { sc with config := { sc.config with oci.hostname := node.childData }, fresh := sc.fresh }
  else sc

/-- The handler of a section, if there is one of its name. Reference: `src/oci-config.c:246-255`. -/
def runSpecHandler (handlers : List (String × SpecHandler)) (name : String) : SpecHandler :=
  (handlers.lookup name).getD fun sc _ => .ok sc

theorem lookup_cons_eq_ite {β : Type} (name key : String) (b : β) (es : List (String × β)) :
    ((key, b) :: es).lookup name = if name = key then some b else es.lookup name := by
  rw [List.lookup_cons]
  by_cases h : name = key
  · rw [if_pos h, beq_iff_eq.2 h]
  · rw [if_neg h, beq_eq_false_iff_ne.2 h]

/-- One member of the file. Reference: `src/oci-config.c:230-256`. -/
def specSection (handlers : List (String × SpecHandler)) : SpecHandler := fun sc node =>
  match node.data with
  | none => .ok sc
  | some name => runSpecHandler handlers name (sc.scalars name node) node

/-- The members of the file in their order. Reference: `cc_oci_process_config`
(`src/oci-config.c:225`). -/
def specProcessConfig (handlers : List (String × SpecHandler)) (root : GNode) (sc : SpecConfig) :
    Except SpecError SpecConfig :=
  root.children.foldlM (specSection handlers) sc

/-- A configuration before any section is read. -/
def SpecConfig.ofConfig (config : Config) (h : config.oci.mounts = []) : SpecConfig where
  config
  fresh := by rw [h]; rfl

theorem mounts_configCreate : configCreate.oci.mounts = [] := rfl

end Runtime

end CcOciRuntime
