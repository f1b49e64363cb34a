import CcOciRuntime.Lib.Parts
import CcOciRuntime.Runtime.SpecSections

/-!
# What each section of `config.json` changes

The handler of a section reads and writes one part of the configuration (`specSection_confined`),
and the parts of two sections lie apart, except that an annotation of a pod can add a mount, with
the root as its source. The earlier model, which leaves some of the parts out, is this one without
them (`foldlM_processSection_refines`).
-/

namespace CcOciRuntime

namespace Runtime

section
variable {host : SpecHost} {sc : SpecConfig} {node : GNode}

/-! ## The parts -/

/-- The parts of the configuration that members of the file are about: `pod` is what annotations
that add mounts are about, `annotations` is what the others are. -/
inductive Slot
  | pod
  | annotations
  | hooks
  | mounts
  | platform
  | process
  | root
  | vm
  | linux
  | ociVersion
  | hostname
  deriving DecidableEq

/-- What an annotation that adds no mount works on; it reads the container's id. -/
structure AnnotationsPart where
  annotations : List OciCfgAnnotation
  pod : Option CcPod
  optargContainerId : Option String

/-- What an annotation that adds a mount works on; it reads the path of the root, too. -/
structure PodPart extends AnnotationsPart where
  mountSpecs : List MountSpec
  rootPath : String

def SpecConfig.annotationsPart (sc : SpecConfig) : AnnotationsPart where
  annotations := sc.config.oci.annotations
  pod := sc.config.pod
  optargContainerId := sc.config.optargContainerId

def SpecConfig.podPart (sc : SpecConfig) : PodPart where
  toAnnotationsPart := sc.annotationsPart
  mountSpecs := sc.mountSpecs
  rootPath := sc.config.oci.root.path.text

def SpecConfig.withAnnotations (sc : SpecConfig) (v : AnnotationsPart) : SpecConfig :=
  { sc with
    config := { sc.config with oci.annotations := v.annotations, pod := v.pod }, fresh := sc.fresh }

/-- What stands in a part. -/
def Slot.Val : Slot → Type
  | .pod => PodPart
  | .annotations => AnnotationsPart
  | .hooks => OciCfgHooks
  | .mounts => List MountSpec
  | .platform => OciCfgPlatform
  | .process => OciCfgProcess
  | .root => OciCfgRoot
  | .vm => Option CcOciVmCfg
  | .linux => List OciCfgNamespace
  | .ociVersion => Option String
  | .hostname => Option String

def Slot.get : (s : Slot) → SpecConfig → s.Val
  | .pod, sc => sc.podPart
  | .annotations, sc => sc.annotationsPart
  | .hooks, sc => sc.hooks
  | .mounts, sc => sc.mountSpecs
  | .platform, sc => sc.platform
  | .process, sc => sc.config.oci.process
  | .root, sc => sc.config.oci.root
  | .vm, sc => sc.config.vm
  | .linux, sc => sc.namespaces
  | .ociVersion, sc => sc.config.oci.ociVersion
  | .hostname, sc => sc.config.oci.hostname

def Slot.set : (s : Slot) → SpecConfig → s.Val → SpecConfig
  | .pod, sc, v => (sc.withMounts v.mountSpecs).withAnnotations v.toAnnotationsPart
  | .annotations, sc, v => sc.withAnnotations v
  | .hooks, sc, v => { sc with hooks := v }
  | .mounts, sc, v => sc.withMounts v
  | .platform, sc, v => { sc with platform := v }
  | .process, sc, v => { sc with config := { sc.config with oci.process := v }, fresh := sc.fresh }
  | .root, sc, v => { sc with config := { sc.config with oci.root := v }, fresh := sc.fresh }
  | .vm, sc, v => { sc with config := { sc.config with vm := v }, fresh := sc.fresh }
  | .linux, sc, v => { sc with namespaces := v }
  | .ociVersion, sc, v =>
    { sc with config := { sc.config with oci.ociVersion := v }, fresh := sc.fresh }
  | .hostname, sc, v =>
    { sc with config := { sc.config with oci.hostname := v }, fresh := sc.fresh }

/-- The mounts of the list are those still to be made. -/
theorem withMounts_self (sc : SpecConfig) : sc.withMounts sc.mountSpecs = sc := by
  obtain ⟨config, specs, hooks, platform, namespaces, hfresh⟩ := sc
  unfold SpecConfig.withMounts
  congr 1
  dsimp only
  rw [← hfresh]

theorem Slot.set_get (s : Slot) (sc : SpecConfig) : s.set sc (s.get sc) = sc := by
  cases s with
  | mounts => exact withMounts_self sc
  | pod => exact withMounts_self sc
  | _ => rfl

def Slot.part (s : Slot) : Part SpecConfig s.Val where
  get := s.get
  set := s.set
  set_get := s.set_get
  set_set sc a b := by cases s <;> rfl

/-- The name of the members that are about a part. -/
def Slot.name : Slot → String
  | .pod => "annotations"
  | .annotations => "annotations"
  | .hooks => "hooks"
  | .mounts => "mounts"
  | .platform => "platform"
  | .process => "process"
  | .root => "root"
  | .vm => "vm"
  | .linux => "linux"
  | .ociVersion => "ociVersion"
  | .hostname => "hostname"

/-- **A part spares those of other members**, but for what the mounts of annotations share. -/
theorem Slot.get_set {s t : Slot} (hname : s.name ≠ t.name) (hmounts : s = .pod → t ≠ .mounts)
    (hpod : t = .pod → s ≠ .mounts ∧ s ≠ .root) (sc : SpecConfig) (v : s.Val) :
    t.get (s.set sc v) = t.get sc := by
  cases s <;> cases t <;>
    first
      | rfl
      | exact absurd rfl hname
      | exact absurd rfl (hmounts rfl)
      | exact absurd rfl (hpod rfl).1
      | exact absurd rfl (hpod rfl).2

/-- Parts of different members are set in any order. -/
theorem Slot.set_comm {s t : Slot} (hname : s.name ≠ t.name) (hmounts : s = .pod → t ≠ .mounts)
    (hpod : t = .pod → s ≠ .mounts) (sc : SpecConfig) (v : s.Val) (w : t.Val) :
    t.set (s.set sc v) w = s.set (t.set sc w) v := by
  cases s <;> cases t <;>
    first
      | rfl
      | exact absurd rfl hname
      | exact absurd rfl (hmounts rfl)
      | exact absurd rfl (hpod rfl)

/-! ## Annotations -/

/-- An annotation that adds a mount when it is shown to the pod. -/
def AnnotationAddsMount (root : GNode) : Prop :=
  ∃ shown ∈ podAnnotated root, AddsMount shown.1 shown.2

instance (root : GNode) : Decidable (AnnotationAddsMount root) :=
  inferInstanceAs (Decidable (∃ shown ∈ podAnnotated root, _))

/-- An annotation adds the mount of the container's root or none. -/
theorem annotationMounts_eq (config : Config) (root : GNode) : annotationMounts config root =
    if AnnotationAddsMount root then [containerMount config] else [] := by
  unfold annotationMounts
  by_cases hadds : AnnotationAddsMount root
  · rw [if_pos hadds]
    obtain ⟨shown, hshown, h⟩ := hadds
    rw [hshown]
    exact if_pos h
  · rw [if_neg hadds]
    cases hshown : podAnnotated root with
    | none => rfl
    | some shown => exact if_neg fun h => hadds ⟨shown, hshown, h⟩

/-- The mount depends on the path of the root and on the id. -/
theorem containerMount_reads {config config' : Config}
    (hroot : config.oci.root.path.text = config'.oci.root.path.text)
    (hid : config.optargContainerId = config'.optargContainerId) :
    containerMount config = containerMount config' := by
  unfold containerMount
  rw [hroot, hid]

/-- An annotation that is shown to the pod changes the pod and the mounts. -/
theorem podHandleAnnotations_frame (config : Config) (key value : String) :
    podHandleAnnotations config key value = { config with
      oci.mounts := (podHandleAnnotations config key value).oci.mounts
      pod := (podHandleAnnotations config key value).pod } := by
  unfold podHandleAnnotations addContainerMount
  split_ifs <;> rfl

/-- What it makes of the pod depends on the pod and on the id. -/
theorem podHandleAnnotations_reads {config config' : Config} (key value : String)
    (hpod : config.pod = config'.pod)
    (hid : config.optargContainerId = config'.optargContainerId) :
    (podHandleAnnotations config key value).pod = (podHandleAnnotations config' key value).pod := by
  unfold podHandleAnnotations addContainerMount
  rw [hpod, hid]
  split_ifs <;> first | rfl | exact hpod

/-- An annotation changes the annotations, the pod and the mounts. -/
theorem handleAnnotation_frame (config : Config) (root : GNode) :
    handleAnnotation config root = { config with
      oci := { config.oci with
        annotations := ( handleAnnotation config root).oci.annotations
        mounts := ( handleAnnotation config root).oci.mounts }
      pod := ( handleAnnotation config root).pod } := by
  obtain ⟨added, heq⟩ := handleAnnotation_eq root
  rw [heq, podShown]
  cases podAnnotated root with
  | none => rfl
  | some shown =>
    dsimp only
    rw [podHandleAnnotations_frame]

/-- What an annotation makes of the annotations and the pod depends on these and on the id. -/
theorem handleAnnotation_reads {config config' : Config} (root : GNode)
    (hann : config.oci.annotations = config'.oci.annotations) (hpod : config.pod = config'.pod)
    (hid : config.optargContainerId = config'.optargContainerId) :
    ( handleAnnotation config root).oci.annotations =
        ( handleAnnotation config' root).oci.annotations ∧
      ( handleAnnotation config root).pod = ( handleAnnotation config' root).pod := by
  obtain ⟨added, heq⟩ := handleAnnotation_eq root
  rw [heq, heq, podShown, podShown]
  cases podAnnotated root with
  | none => exact ⟨congrArg (added ++ ·) hann, hpod⟩
  | some shown =>
    refine ⟨?_, podHandleAnnotations_reads _ _ hpod hid⟩
    dsimp only
    rw [podHandleAnnotations_frame, podHandleAnnotations_frame config', hann]

/-! ## Each section on its part -/

/-- Annotations that were the same are so after one more. -/
theorem annotationsPart_annotate {sc sc' : SpecConfig} (root : GNode)
    (h : sc.annotationsPart = sc'.annotationsPart) :
    (sc.annotate root).annotationsPart = (sc'.annotate root).annotationsPart := by
  obtain ⟨hann, hpod, hid⟩ := AnnotationsPart.mk.inj h
  obtain ⟨hann', hpod'⟩ := handleAnnotation_reads root hann hpod hid
  have hid' : ( handleAnnotation sc.config root).optargContainerId =
      ( handleAnnotation sc'.config root).optargContainerId := by
    rw [handleAnnotation_frame, handleAnnotation_frame sc'.config, hid]
  unfold SpecConfig.annotationsPart SpecConfig.annotate
  rw [hann', hpod', hid']

/-- An annotation works on the part of the pod. -/
theorem annotate_confined_pod (root : GNode) : Slot.pod.part.Confines fun sc =>
    (.ok (sc.annotate root) : Except SpecError SpecConfig) := by
  refine .of_total ?_ ?_
  · intro sc sc' h
    obtain ⟨hannotations, hspecs, hroot⟩ := PodPart.mk.inj h
    have hroot' : (sc.annotate root).config.oci.root.path.text =
        (sc'.annotate root).config.oci.root.path.text := by
      simp only [SpecConfig.annotate]
      rw [handleAnnotation_frame, handleAnnotation_frame sc'.config]
      exact hroot
    have hspecs' : (sc.annotate root).mountSpecs = (sc'.annotate root).mountSpecs := by
      have hid := (AnnotationsPart.mk.inj hannotations).2.2
      simp only [SpecConfig.annotate, annotationMounts_eq]
      rw [hspecs, containerMount_reads hroot hid]
    show (sc.annotate root).podPart = (sc'.annotate root).podPart
    rw [SpecConfig.podPart, SpecConfig.podPart, annotationsPart_annotate root hannotations, hspecs',
      hroot']
  · intro sc
    have hmounts : ( handleAnnotation sc.config root).oci.mounts =
        (sc.annotate root).mountSpecs.map fun _ => {} := (sc.annotate root).fresh
    ext1
    · change handleAnnotation sc.config root = _
      rw [handleAnnotation_frame, hmounts]
      rfl
    all_goals rfl

/-- One that adds no mount works on less. -/
theorem annotate_confined {root : GNode} (h : ¬ AnnotationAddsMount root) :
    Slot.annotations.part.Confines fun sc =>
      (.ok (sc.annotate root) : Except SpecError SpecConfig) := by
  refine .of_total (fun sc sc' => annotationsPart_annotate root) ?_
  intro sc
  have hnone : annotationMounts sc.config root = [] := (annotationMounts_eq _ _).trans (if_neg h)
  have hmounts : ( handleAnnotation sc.config root).oci.mounts = sc.config.oci.mounts := by
    rw [handleAnnotation_mounts, hnone]
    exact List.append_nil _
  ext1
  · change handleAnnotation sc.config root = _
    rw [handleAnnotation_frame, hmounts]
    rfl
  · change sc.mountSpecs ++ annotationMounts sc.config root = sc.mountSpecs
    rw [hnone, List.append_nil]
  all_goals rfl

/-- The part of the annotations. -/
def annotationsSlot (node : GNode) : Slot :=
  if ∃ child ∈ node.children, AnnotationAddsMount child then .pod else .annotations

/-- The annotations work on their part. -/
theorem annotationsSpecHandler_confined (node : GNode) :
    (annotationsSlot node).part.Confines (annotationsSpecHandler · node) := by
  unfold annotationsSlot
  by_cases hadds : ∃ child ∈ node.children, AnnotationAddsMount child
  · rw [if_pos hadds]
    exact .foldl fun child _ => annotate_confined_pod child
  · rw [if_neg hadds]
    refine .foldl fun child hchild => annotate_confined ?_
    exact fun h => hadds ⟨child, hchild, h⟩

/-- The parts of the members of the file that are not the annotations. -/
def sectionSlots : List (String × Slot) :=
  [("hooks", .hooks), ("mounts", .mounts), ("platform", .platform), ("process", .process),
    ("root", .root), ("vm", .vm), ("linux", .linux), ("ociVersion", .ociVersion),
    ("hostname", .hostname)]

/-- The part of a member of the file. -/
def sectionSlot (name : String) (node : GNode) : Option Slot :=
  if name = "annotations" then some (annotationsSlot node) else sectionSlots.lookup name

/-- The name and the part of a member. -/
theorem sectionSlot_cases {name : String} {s : Slot} (hs : sectionSlot name node = some s) :
    (name = "annotations" ∧ s = annotationsSlot node) ∨ (name, s) ∈ sectionSlots := by
  unfold sectionSlot at hs
  split_ifs at hs with hname
  · exact .inl ⟨hname, (Option.some.inj hs).symm⟩
  · obtain ⟨l, l', heq, -⟩ := List.lookup_eq_some_iff.1 hs
    rw [heq]
    exact .inr (List.mem_append_right l List.mem_cons_self)

/-- A handler that sets a part to a function of what stands there. -/
theorem confines_of_orRejected (s : Slot) (f : s.Val → Option s.Val)
    {handler : SpecConfig → Except SpecError SpecConfig} (hget : ∀ sc a, s.get (s.set sc a) = a)
    (h : ∀ sc, handler sc = orRejected ((f (s.get sc)).map (s.set sc))) :
    s.part.Confines handler := by
  refine .of_map (h := fun a => orRejected (f a)) hget fun sc => ?_
  rw [h]
  change _ = (orRejected (f (s.get sc))).map (s.set sc)
  cases f (s.get sc) <;> rfl

/-- What the handler of the process makes of its answer. -/
def processVerdict : Option (OciCfgProcess × Bool) → Except SpecError OciCfgProcess
  | none => .error .died
  | some (_, false) => .error .rejected
  | some (p, true) => .ok p

/-- The process section works on the process; it is the one that can make the runtime die. -/
theorem processSpecHandler_confined (node : GNode) :
    Slot.process.part.Confines (processSpecHandler · node) := by
  refine .of_map (h := fun (p : OciCfgProcess) => processVerdict (processHandleSection p node))
    (fun _ _ => rfl) fun sc => ?_
  unfold processSpecHandler
  change _ = (processVerdict (processHandleSection sc.config.oci.process node)).map _
  rcases processHandleSection sc.config.oci.process node with _ | ⟨p, _ | _⟩ <;> rfl

/-- The VM section works on the VM, which it makes if there is none. -/
theorem vmSpecHandler_confined (node : GNode) :
    Slot.vm.part.Confines (vmSpecHandler host · node) := by
  refine confines_of_orRejected .vm (fun vm => (vmHandleSection host vm node).map some)
    (fun _ _ => rfl) fun sc => ?_
  change orRejected (Option.map _ (vmHandleSection host sc.config.vm node)) =
    orRejected (Option.map _ (Option.map some (vmHandleSection host sc.config.vm node)))
  cases vmHandleSection host sc.config.vm node <;> rfl

/-- A text of the file is set. -/
theorem scalars_confined_ociVersion (node : GNode) : Slot.ociVersion.part.Confines fun sc =>
    (.ok (sc.scalars "ociVersion" node) : Except SpecError SpecConfig) := by
  refine .of_map (h := fun (v : Option String) =>
    .ok (if node.children.isEmpty then v else node.childData)) (fun _ _ => rfl) fun sc => ?_
  unfold SpecConfig.scalars
  cases node.children.isEmpty <;> rfl

/-- The other one. -/
theorem scalars_confined_hostname (node : GNode) : Slot.hostname.part.Confines fun sc =>
    (.ok (sc.scalars "hostname" node) : Except SpecError SpecConfig) := by
  refine .of_map (h := fun (v : Option String) =>
    .ok (if node.children.isEmpty then v else node.childData)) (fun _ _ => rfl) fun sc => ?_
  have hne : "hostname" ≠ "ociVersion" := by decide
  unfold SpecConfig.scalars
  rw [if_neg hne]
  cases node.children.isEmpty <;> rfl

/-- A member with a handler is left to it. -/
theorem specSection_eq_handler {name : String} (handler : SpecHandler)
    (hname : node.data = some name)
    (hlookup : (startSpecHandlers host).lookup name = some handler) :
    specSection (startSpecHandlers host) sc node = handler sc node := by
  have hversion : name ≠ "ociVersion" := by
    rintro rfl
    simp [startSpecHandlers, lookup_cons_eq_ite] at hlookup
  have hhost : name ≠ "hostname" := by
    rintro rfl
    simp [startSpecHandlers, lookup_cons_eq_ite] at hlookup
  rw [specSection, hname]
  dsimp only
  rw [runSpecHandler, hlookup, SpecConfig.scalars, if_neg hversion, if_neg hhost, ite_self]
  rfl

/-- The other members set a text or nothing. -/
theorem specSection_eq_scalars {name : String} (hname : node.data = some name)
    (hlookup : (startSpecHandlers host).lookup name = none) :
    specSection (startSpecHandlers host) sc node = .ok (sc.scalars name node) := by
  rw [specSection, hname]
  dsimp only
  rw [runSpecHandler, hlookup]
  rfl

theorem confines_of_lookup {name : String} {s : Slot} {handler : SpecHandler}
    (hname : node.data = some name) (hlookup : (startSpecHandlers host).lookup name = some handler)
    (h : s.part.Confines (handler · node)) :
    s.part.Confines (specSection (startSpecHandlers host) · node) := by
  simpa only [specSection_eq_handler handler hname hlookup] using h

/-- **Each section works on its part**, whatever else stands in the configuration. -/
theorem specSection_confined (host : SpecHost) {name : String} {s : Slot}
    (hname : node.data = some name) (hs : sectionSlot name node = some s) :
    s.part.Confines (specSection (startSpecHandlers host) · node) := by
  obtain ⟨rfl, rfl⟩ | hmem := sectionSlot_cases hs
  · exact confines_of_lookup hname rfl (annotationsSpecHandler_confined node)
  simp only [sectionSlots, List.mem_cons, Prod.mk.injEq, List.not_mem_nil, or_false] at hmem
  obtain ⟨rfl, rfl⟩ | ⟨rfl, rfl⟩ | ⟨rfl, rfl⟩ | ⟨rfl, rfl⟩ | ⟨rfl, rfl⟩ | ⟨rfl, rfl⟩ | ⟨rfl, rfl⟩ |
    ⟨rfl, rfl⟩ | ⟨rfl, rfl⟩ := hmem
  · exact confines_of_lookup hname rfl <|
      confines_of_orRejected .hooks (hooksHandleSection · node) (fun _ _ => rfl) fun _ => rfl
  · exact confines_of_lookup hname rfl <|
      confines_of_orRejected .mounts (mountsHandleSection · node) (fun _ _ => rfl) fun _ => rfl
  · exact confines_of_lookup hname rfl <|
      confines_of_orRejected .platform (platformHandleSection · node) (fun _ _ => rfl) fun _ => rfl
  · exact confines_of_lookup hname rfl (processSpecHandler_confined node)
  · exact confines_of_lookup hname rfl <|
      confines_of_orRejected .root (rootHandleSection host.toSpecEnv · node) (fun _ _ => rfl)
        fun _ => rfl
  · exact confines_of_lookup hname rfl (vmSpecHandler_confined node)
  · exact confines_of_lookup hname rfl <|
      confines_of_orRejected .linux (linuxHandleSection · node) (fun _ _ => rfl) fun _ => rfl
  · simp only [specSection_eq_scalars hname (by simp [startSpecHandlers, lookup_cons_eq_ite])]
    exact scalars_confined_ociVersion node
  · simp only [specSection_eq_scalars hname (by simp [startSpecHandlers, lookup_cons_eq_ite])]
    exact scalars_confined_hostname node

/-- The part of a member has its name. -/
theorem name_of_sectionSlot {name : String} {s : Slot} (hs : sectionSlot name node = some s) :
    s.name = name := by
  obtain ⟨rfl, rfl⟩ | hmem := sectionSlot_cases hs
  · unfold annotationsSlot
    split_ifs <;> rfl
  · have hnames : ∀ e ∈ sectionSlots, e.2.name = e.1 := by decide
    exact hnames _ hmem

/-- A member that is about no part is passed over. -/
theorem specSection_of_sectionSlot_none {name : String} (hname : node.data = some name)
    (hs : sectionSlot name node = none) :
    specSection (startSpecHandlers host) sc node = .ok sc := by
  unfold sectionSlot at hs
  split_ifs at hs with hann
  have hnone : ∀ e ∈ sectionSlots, name ≠ e.1 := by
    intro e he
    exact bne_iff_ne.1 (List.lookup_eq_none_iff.1 hs e he)
  simp only [sectionSlots, List.forall_mem_cons] at hnone
  obtain ⟨hhooks, hmounts, hplatform, hprocess, hroot, hvm, hlinux, hversion, hhost, -⟩ := hnone
  have hlookup : (startSpecHandlers host).lookup name = none := by
    simp [startSpecHandlers, lookup_cons_eq_ite, hann, hhooks, hmounts, hplatform, hprocess, hroot,
      hvm, hlinux]
  rw [specSection_eq_scalars hname hlookup, SpecConfig.scalars, if_neg hversion, if_neg hhost,
    ite_self]

/-- A section leaves alone what members of another name are about, but for the mounts of the
annotations. -/
theorem specSection_keeps {name : String} {t : Slot} {sc' : SpecConfig}
    (hname : node.data = some name) (hne : t.name ≠ name) (hpod : t ≠ .pod)
    (hmounts : t = .mounts → name ≠ "annotations")
    (h : specSection (startSpecHandlers host) sc node = .ok sc') : t.get sc' = t.get sc := by
  cases hs : sectionSlot name node with
  | none =>
    rw [specSection_of_sectionSlot_none hname hs] at h
    rw [Except.ok.inj h]
  | some s =>
    have hsname := name_of_sectionSlot hs
    refine (specSection_confined host hname hs).get_eq (q := t.part) ?_ h
    refine Slot.get_set (hsname.trans_ne hne.symm) ?_ (fun ht => absurd ht hpod) sc
    rintro rfl ht
    exact hmounts ht hsname.symm

/-! ## The earlier model -/

theorem foldl_annotate_config (nodes : List GNode) (sc : SpecConfig) :
    (nodes.foldl SpecConfig.annotate sc).config = nodes.foldl handleAnnotation sc.config := by
  induction nodes generalizing sc with
  | nil => rfl
  | cons node nodes ih => exact ih _

/-- What the host answers for the mounts is what the handler does. -/
theorem mountsSpecHandler_refines :
    (host.toSpecEnv.mounts node sc.config).map (fun ms => { sc.config with oci.mounts := ms }) =
      (mountsSpecHandler sc node).toOption.map (·.config) := by
  rw [mountsSpecHandler, toOption_orRejected, Option.map_map]
  obtain ⟨config, specs, hooks, platform, namespaces, hfresh⟩ := sc
  unfold SpecHost.toSpecEnv mountsHandleSection
  dsimp only
  cases specs with
  | nil =>
    rw [hfresh]
    simp only [List.map_nil, Option.map_map]
    rfl
  | cons m ms =>
    rw [hfresh]
    rfl

/-- So it is for the process. -/
theorem processSpecHandler_refines :
    (match processHandleSection sc.config.oci.process node with
      | some (p, true) => some { sc.config with oci.process := p }
      | _ => none) = (processSpecHandler sc node).toOption.map (·.config) := by
  rw [processSpecHandler]
  rcases processHandleSection sc.config.oci.process node with _ | ⟨p, _ | _⟩ <;> rfl

/-- A section that the earlier model only accepts. -/
theorem accepts_refines {α : Type} {o : Option α} {f : α → SpecConfig}
    (hf : ∀ a, (f a).config = sc.config) :
    (if o.isSome then some sc.config else none) =
      (orRejected (o.map f)).toOption.map SpecConfig.config := by
  rw [toOption_orRejected, Option.map_map]
  cases o with
  | none => rfl
  | some a => exact congrArg some (hf a).symm

/-- One section, as long as those that the earlier model only accepts have not been read before. -/
theorem specHandler_refines {name : String} (hhooks : name = "hooks" → sc.hooks = {})
    (hplatform : name = "platform" → sc.platform = {})
    (hlinux : name = "linux" → sc.namespaces = []) :
    specHandler host.toSpecEnv sc.config name node =
      (runSpecHandler (startSpecHandlers host) name sc node).toOption.map SpecConfig.config := by
  simp only [runSpecHandler, startSpecHandlers, lookup_cons_eq_ite, List.lookup_nil]
  unfold specHandler
  by_cases hann : name = "annotations"
  · rw [if_pos hann, if_pos hann]
    exact congrArg some (foldl_annotate_config _ _).symm
  rw [if_neg hann, if_neg hann]
  by_cases hmounts : name = "mounts"
  · rw [if_pos hmounts, if_neg (by simp [hmounts]), if_pos hmounts]
    exact mountsSpecHandler_refines
  rw [if_neg hmounts]
  by_cases hprocess : name = "process"
  · subst hprocess
    exact processSpecHandler_refines
  rw [if_neg hprocess]
  by_cases hroot : name = "root"
  · subst hroot
    simp [rootSpecHandler, Function.comp_def]
  rw [if_neg hroot]
  by_cases hvm : name = "vm"
  · subst hvm
    simp [vmSpecHandler, Function.comp_def, SpecHost.toSpecEnv]
  rw [if_neg hvm]
  by_cases hhook : name = "hooks"
  · rw [if_pos (.inl hhook), if_pos hhook]
    simp only [SpecHost.toSpecEnv, if_pos hhook, ← hhooks hhook]
    exact accepts_refines fun _ => rfl
  rw [if_neg hhook, if_neg hmounts]
  by_cases hplat : name = "platform"
  · rw [if_pos (.inr (.inl hplat)), if_pos hplat]
    simp only [SpecHost.toSpecEnv, if_neg hhook, if_pos hplat, ← hplatform hplat]
    exact accepts_refines fun _ => rfl
  rw [if_neg hplat, if_neg hprocess, if_neg hroot, if_neg hvm]
  by_cases hlin : name = "linux"
  · rw [if_pos (.inr (.inr hlin)), if_pos hlin]
    simp only [SpecHost.toSpecEnv, if_neg hhook, if_neg hplat, ← hlinux hlin]
    exact accepts_refines fun _ => rfl
  · rw [if_neg (by simp [hhook, hplat, hlin]), if_neg hlin]
    rfl


/-- What the two texts change. -/
theorem scalars_config (name : String) : (sc.scalars name node).config =
    match node.children with
      | [] => sc.config
      | child :: _ =>
        if name = "ociVersion" then { sc.config with oci.ociVersion := child.data }
        else if name = "hostname" then { sc.config with oci.hostname := child.data }
        else sc.config := by
  rcases node with ⟨data, _ | ⟨child, cs⟩⟩
  · rfl
  · unfold SpecConfig.scalars
    split_ifs <;> first | rfl | simp_all

/-- Setting a text leaves the parts alone that the earlier model leaves out. -/
theorem scalars_keeps (sc : SpecConfig) (name : String) (node : GNode) :
    (sc.scalars name node).hooks = sc.hooks ∧
    (sc.scalars name node).platform = sc.platform ∧
    (sc.scalars name node).namespaces = sc.namespaces := by
  unfold SpecConfig.scalars
  split_ifs <;> exact ⟨rfl, rfl, rfl⟩

/-- One member of the file. -/
theorem specSection_refines (host : SpecHost) (hhooks : node.data = some "hooks" → sc.hooks = {})
    (hplatform : node.data = some "platform" → sc.platform = {})
    (hlinux : node.data = some "linux" → sc.namespaces = []) :
    processSection host.toSpecEnv sc.config node =
      (specSection (startSpecHandlers host) sc node).toOption.map SpecConfig.config := by
  unfold processSection specSection
  cases hname : node.data with
  | none => rfl
  | some name =>
    obtain ⟨hhooks', hplatform', hlinux'⟩ := scalars_keeps sc name node
    refine (congrArg (specHandler host.toSpecEnv · name node) (scalars_config name).symm).trans ?_
    refine specHandler_refines ?_ ?_ ?_
    · rintro rfl
      rw [hhooks', hhooks hname]
    · rintro rfl
      rw [hplatform', hplatform hname]
    · rintro rfl
      rw [hlinux', hlinux hname]

/-- **The earlier model of the sections** is this one without the parts that it leaves out, for a
file that has no section twice. -/
theorem foldlM_processSection_refines (host : SpecHost) (sc : SpecConfig) {nodes : List GNode}
    (hnodup : (nodes.filterMap GNode.data).Nodup)
    (hhooks : "hooks" ∈ nodes.filterMap GNode.data → sc.hooks = {})
    (hplatform : "platform" ∈ nodes.filterMap GNode.data → sc.platform = {})
    (hlinux : "linux" ∈ nodes.filterMap GNode.data → sc.namespaces = []) :
    nodes.foldlM (processSection host.toSpecEnv) sc.config =
      (nodes.foldlM (specSection (startSpecHandlers host)) sc).toOption.map SpecConfig.config := by
  induction nodes generalizing sc with
  | nil => rfl
  | cons node nodes ih =>
    cases hname : node.data with
    | none =>
      have hskip : specSection (startSpecHandlers host) sc node = .ok sc := by
        rw [specSection, hname]
      have hskip' : processSection host.toSpecEnv sc.config node = some sc.config := by
        rw [processSection, hname]
      rw [List.filterMap_cons_none hname] at hnodup hhooks hplatform hlinux
      rw [List.foldlM_cons, List.foldlM_cons, hskip, hskip']
      exact ih sc hnodup hhooks hplatform hlinux
    | some name =>
      rw [List.filterMap_cons_some hname] at hnodup hhooks hplatform hlinux
      obtain ⟨hnotMem, hnodup'⟩ := List.nodup_cons.1 hnodup
      have hmem : ∀ {key}, node.data = some key → key ∈ name :: nodes.filterMap GNode.data := by
        intro key hkey
        rw [Option.some.inj (hname.symm.trans hkey)]
        exact List.mem_cons_self
      have hone := specSection_refines host (fun h => hhooks (hmem h))
        (fun h => hplatform (hmem h)) (fun h => hlinux (hmem h))
      rw [List.foldlM_cons, List.foldlM_cons, hone]
      cases hsc : specSection (startSpecHandlers host) sc node with
      | error e => rfl
      | ok sc' =>
        -- the section of another name has not changed what a later one finds
        have hkeeps : ∀ t : Slot, t ≠ .pod → t ≠ .mounts → t.name ∈ nodes.filterMap GNode.data →
            t.get sc' = t.get sc := by
          intro t hpod hmounts ht
          refine specSection_keeps hname ?_ hpod (fun h => absurd h hmounts) hsc
          rintro rfl
          exact hnotMem ht
        refine ih sc' hnodup' ?_ ?_ ?_
        · intro h
          have hget := hkeeps .hooks (by decide) (by decide) h
          exact hget.trans (hhooks (List.mem_cons_of_mem name h))
        · intro h
          have hget := hkeeps .platform (by decide) (by decide) h
          exact hget.trans (hplatform (List.mem_cons_of_mem name h))
        · intro h
          have hget := hkeeps .linux (by decide) (by decide) h
          exact hget.trans (hlinux (List.mem_cons_of_mem name h))

end

end Runtime

end CcOciRuntime
