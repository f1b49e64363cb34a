import CcOciRuntime.Runtime.SectionParts
import Mathlib.Data.List.Nodup

/-!
# The order of the pod annotations

The annotations of a container are handled in the order of the file. Two of them describe the pod:
the type of the container and the name of the sandbox. The type of a sandbox and the name write the
same fields, and each adds the mount of the container's root; the type of a container inside a pod
adds none. `podAnnotations_iff` says for which annotations the order does not matter and the mount
is added once.

Reference: `cc_pod_handle_annotations` (`src/pod.c:118`), `annotations_handle_section`
(`src/spec_handlers/annotations.c:67`).
-/

namespace CcOciRuntime

namespace Runtime

/-- An annotation: its key and its value. -/
abbrev Annotation := String × String

/-- The member of an annotation. -/
def annotationNode (a : Annotation) : GNode := memberNode (a.1, .str a.2)

/-- The annotations section of a file. -/
def annotationsSection (as : List Annotation) : GNode :=
  memberNode ("annotations", .obj (as.map fun a => (a.1, .str a.2)))

/-- What the section's handler makes of the configuration. -/
def SpecConfig.annotated (sc : SpecConfig) (as : List Annotation) : SpecConfig :=
  (annotationsSection as).children.foldl .annotate sc

/-! ## What an annotation does to the pod -/

/-- What an annotation means for the pod. -/
inductive PodKind
  /-- no annotation of a pod -/
  | foreign
  /-- another key of the namespace, or another type: there is a pod -/
  | present
  | sandbox
  | container
  | sandboxName (name : String)
  deriving DecidableEq

/-- Reference: `src/pod.c:128-174`. -/
def podKind (a : Annotation) : PodKind :=
  if "ocid/".toList.isPrefixOf a.1.toList then
    if a.1 = "ocid/container_type" then
      if a.2 = "sandbox" then .sandbox else if a.2 = "container" then .container else .present
    else if a.1 = "ocid/sandbox_name" then .sandboxName a.2
    else .present
  else .foreign

/-- The pod after an annotation, for the container `id`. -/
def PodKind.apply (id : Option String) (pod : Option CcPod) : PodKind → Option CcPod
  | .foreign => pod
  | .present => some (pod.getD {})
  | .sandbox => some
    { sandbox := true, sandboxName := id, sandboxWorkloads := sandboxWorkloads (id.getD "(null)") }
  | .container => some { pod.getD {} with sandbox := false }
  | .sandboxName name => some
    { pod.getD {} with sandboxName := some name, sandboxWorkloads := sandboxWorkloads name }

theorem podHandleAnnotations_pod (config : Config) (a : Annotation) :
    (podHandleAnnotations config a.1 a.2).pod =
      (podKind a).apply config.optargContainerId config.pod := by
  unfold podHandleAnnotations podKind addContainerMount
  split_ifs <;> rfl

/-- Two annotations that write the same field of the pod: two of one key, or the name of the sandbox
and the type of a sandbox, which has its own name. -/
def PodKind.Conflicts : PodKind → PodKind → Prop
  | .sandbox, .container | .container, .sandbox => True
  | .sandbox, .sandboxName _ | .sandboxName _, .sandbox => True
  | .sandboxName name, .sandboxName name' => name ≠ name'
  | _, _ => False

/-- Annotations that write different fields can change places. -/
theorem PodKind.apply_comm {k k' : PodKind} (h : ¬ k.Conflicts k') (id : Option String)
    (pod : Option CcPod) : k'.apply id (k.apply id pod) = k.apply id (k'.apply id pod) := by
  cases k <;> cases k' <;> first | rfl | exact absurd trivial h | skip
  rw [Conflicts, not_not] at h
  rw [h]

/-! ## The fold -/

section
variable {sc : SpecConfig} {as bs : List Annotation} {a b : Annotation}

theorem podAnnotated_annotationNode (h : a.2 ≠ "") :
    podAnnotated (annotationNode a) = if a.1 = "" then none else some a := by
  have hvalue : (some a.2).filter (· ≠ "") = some a.2 := by simp [h]
  change (if a.1 = "" then none else ((some a.2).filter (· ≠ "")).map fun value => (a.1, value)) = _
  rw [hvalue]
  rfl

theorem podKind_of_key_empty (h : a.1 = "") : podKind a = .foreign := by
  rw [podKind, h]
  rfl

theorem not_addsMount_of_key_empty (h : a.1 = "") : ¬ AddsMount a.1 a.2 := by
  rw [h]
  rintro (⟨h, -⟩ | h) <;> exact absurd h (by decide)

/-- **One annotation.** -/
theorem annotate_annotationNode (sc : SpecConfig) (h : a.2 ≠ "") :
    (sc.annotate (annotationNode a)).config.pod =
        (podKind a).apply sc.config.optargContainerId sc.config.pod ∧
      (sc.annotate (annotationNode a)).mountSpecs =
        sc.mountSpecs ++ (if AddsMount a.1 a.2 then [containerMount sc.config] else []) ∧
      (sc.annotate (annotationNode a)).config.optargContainerId = sc.config.optargContainerId ∧
      containerMount (sc.annotate (annotationNode a)).config = containerMount sc.config := by
  have hshown := podAnnotated_annotationNode h
  refine ⟨?_, ?_, ?_, ?_⟩
  · obtain ⟨added, heq⟩ := handleAnnotation_eq (annotationNode a)
    change ( handleAnnotation sc.config (annotationNode a)).pod = _
    rw [heq, podShown, hshown]
    by_cases hkey : a.1 = ""
    · rw [if_pos hkey, podKind_of_key_empty hkey]
      rfl
    · rw [if_neg hkey]
      exact podHandleAnnotations_pod sc.config a
  · change sc.mountSpecs ++ annotationMounts sc.config (annotationNode a) = _
    rw [annotationMounts, hshown]
    by_cases hkey : a.1 = ""
    · rw [if_pos hkey, if_neg (not_addsMount_of_key_empty hkey)]
    · rw [if_neg hkey]
  · change ( handleAnnotation sc.config (annotationNode a)).optargContainerId = _
    rw [handleAnnotation_frame]
  · change containerMount ( handleAnnotation sc.config (annotationNode a)) = _
    rw [handleAnnotation_frame]
    rfl

/-- **All annotations**: the pod is shown each of them, and each that adds a mount adds the same. -/
theorem foldl_annotate (h : ∀ a ∈ as, a.2 ≠ "") :
    ((as.map annotationNode).foldl .annotate sc).config.pod =
        as.foldl (fun pod a => (podKind a).apply sc.config.optargContainerId pod) sc.config.pod ∧
      ((as.map annotationNode).foldl .annotate sc).mountSpecs =
        sc.mountSpecs ++
          List.replicate (as.countP fun a => AddsMount a.1 a.2) (containerMount sc.config) := by
  induction as generalizing sc with
  | nil => exact ⟨rfl, (List.append_nil _).symm⟩
  | cons a as ih =>
    obtain ⟨hpod, hmounts, hid, hmount⟩ := annotate_annotationNode sc (h a List.mem_cons_self)
    obtain ⟨ihpod, ihmounts⟩ := @ih (sc.annotate (annotationNode a)) fun b hb =>
      h b (List.mem_cons_of_mem a hb)
    rw [List.map_cons, List.foldl_cons, List.foldl_cons]
    refine ⟨by rw [ihpod, hpod, hid], ?_⟩
    rw [ihmounts, hmounts, hmount, List.countP_cons, List.append_assoc, Nat.add_comm,
      List.replicate_add]
    by_cases hadds : AddsMount a.1 a.2
    · rw [if_pos hadds, if_pos (decide_eq_true hadds)]
      rfl
    · rw [if_neg hadds, if_neg (by simpa using hadds)]
      rfl

theorem annotate_blankNode (sc : SpecConfig) : sc.annotate blankNode = sc := by
  refine SpecConfig.ext rfl ?_ rfl rfl rfl
  exact List.append_nil _

theorem annotated_eq (sc : SpecConfig) (as : List Annotation) :
    sc.annotated as = (as.map annotationNode).foldl .annotate sc := by
  change (blankNode :: jsonParseMembers (as.map fun a => (a.1, .str a.2))).foldl _ sc = _
  rw [jsonParseMembers_eq_map, List.foldl_cons, annotate_blankNode, List.map_map]
  rfl

/-! ## Orders -/

/-- The type of a sandbox is among the annotations. -/
def HasSandboxType (as : List Annotation) : Prop := ("ocid/container_type", "sandbox") ∈ as

/-- The name of the sandbox is among the annotations. -/
def HasSandboxName (as : List Annotation) : Prop := "ocid/sandbox_name" ∈ as.map Prod.fst

instance : Decidable (HasSandboxType as) := inferInstanceAs (Decidable (_ ∈ _))

instance : Decidable (HasSandboxName as) := inferInstanceAs (Decidable (_ ∈ _))

/-- The annotations that add a mount, when no key is there twice. -/
theorem countP_addsMount (h : (as.map Prod.fst).Nodup) :
    (as.countP fun a => AddsMount a.1 a.2) =
      (if HasSandboxType as then 1 else 0) + (if HasSandboxName as then 1 else 0) := by
  induction as with
  | nil => rfl
  | cons a as ih =>
    obtain ⟨key, value⟩ := a
    obtain ⟨hfresh, hkeys⟩ := List.nodup_cons.1 h
    have htype : HasSandboxType ((key, value) :: as) ↔
        (key = "ocid/container_type" ∧ value = "sandbox") ∨ HasSandboxType as := by
      simp [HasSandboxType, eq_comm]
    have hname : HasSandboxName ((key, value) :: as) ↔
        key = "ocid/sandbox_name" ∨ HasSandboxName as := by
      simp [HasSandboxName, eq_comm]
    have hold : HasSandboxType as → key ≠ "ocid/container_type" := by
      rintro hmem rfl
      exact hfresh (List.mem_map.2 ⟨_, hmem, rfl⟩)
    rw [List.countP_cons, ih hkeys]
    simp only [htype, hname, AddsMount]
    by_cases hk : key = "ocid/sandbox_name"
    · have hnone : ¬ HasSandboxName as := fun hmem => hfresh (hk ▸ hmem)
      simp [hk, hnone]
    · by_cases hs : key = "ocid/container_type" ∧ value = "sandbox"
      · have hnone : ¬ HasSandboxType as := fun hmem => hold hmem hs.1
        simp [hs, hnone, Nat.add_comm]
      · simp [hs, hk]

theorem key_of_podKind_container (h : podKind a = .container) : a.1 = "ocid/container_type" := by
  unfold podKind at h
  split_ifs at h
  assumption

theorem eq_of_podKind_sandbox (h : podKind a = .sandbox) :
    a = ("ocid/container_type", "sandbox") := by
  unfold podKind at h
  split_ifs at h with _ htype hvalue
  exact Prod.ext htype hvalue

theorem HasSandboxType.of_mem (ha : a ∈ as) (h : podKind a = .sandbox) : HasSandboxType as := by
  rw [eq_of_podKind_sandbox h] at ha
  exact ha

theorem eq_of_podKind_sandboxName {name : String} (h : podKind a = .sandboxName name) :
    a = ("ocid/sandbox_name", name) := by
  unfold podKind at h
  split_ifs at h with _ _ _ _ hname
  exact Prod.ext hname (PodKind.sandboxName.inj h)

theorem HasSandboxName.of_mem {name : String} (ha : a ∈ as) (h : podKind a = .sandboxName name) :
    HasSandboxName as := by
  rw [eq_of_podKind_sandboxName h] at ha
  exact List.mem_map.2 ⟨_, ha, rfl⟩

/-- Of annotations with different keys, only the name of the sandbox and its type conflict. -/
theorem has_of_conflicts (hkeys : (as.map Prod.fst).Nodup) (ha : a ∈ as) (hb : b ∈ as)
    (h : (podKind a).Conflicts (podKind b)) : HasSandboxType as ∧ HasSandboxName as := by
  have hinj : a.1 = b.1 → podKind a = podKind b := fun hab =>
    congrArg podKind (List.inj_on_of_nodup_map hkeys ha hb hab)
  cases hka : podKind a <;> cases hkb : podKind b <;> rw [hka, hkb] at h hinj <;>
    first | exact h.elim | skip
  case sandbox.container =>
    cases hinj (by rw [eq_of_podKind_sandbox hka, key_of_podKind_container hkb])
  case container.sandbox =>
    cases hinj (by rw [eq_of_podKind_sandbox hkb, key_of_podKind_container hka])
  case sandbox.sandboxName name =>
    exact ⟨.of_mem ha hka, .of_mem hb hkb⟩
  case sandboxName.sandbox name =>
    exact ⟨.of_mem hb hkb, .of_mem ha hka⟩
  case sandboxName.sandboxName name name' =>
    refine absurd (PodKind.sandboxName.inj (hinj ?_)) h
    rw [eq_of_podKind_sandboxName hka, eq_of_podKind_sandboxName hkb]

/-- **The pod does not depend on the order** of annotations that are not in conflict. -/
theorem pod_foldl_perm (hkeys : (as.map Prod.fst).Nodup)
    (h : ¬ (HasSandboxType as ∧ HasSandboxName as)) (hperm : bs.Perm as) (id : Option String)
    (pod : Option CcPod) :
    bs.foldl (fun pod a => (podKind a).apply id pod) pod =
      as.foldl (fun pod a => (podKind a).apply id pod) pod := by
  refine (hperm.symm.foldl_eq' (fun a ha b hb pod => ?_) pod).symm
  exact PodKind.apply_comm (fun hconflict => h (has_of_conflicts hkeys ha hb hconflict)) id pod

end

/-- The annotations that say something about the pod. -/
def PodDescribed (as : List Annotation) : Prop :=
  ∃ a ∈ as, a.1 = "ocid/container_type" ∨ a.1 = "ocid/sandbox_name"

/-- **The order of the annotations.** For annotations with different keys and values: every order
gives the same pod, and the root of a container in a pod is mounted once, exactly if no annotation
describes the pod, or there is the type of a sandbox or the name of one and not both. -/
theorem podAnnotations_iff (sc : SpecConfig) (as : List Annotation)
    (hkeys : (as.map Prod.fst).Nodup) (hvalues : ∀ a ∈ as, a.2 ≠ "") :
    ((∀ bs, bs.Perm as → (sc.annotated bs).config.pod = (sc.annotated as).config.pod) ∧
      (PodDescribed as → ∀ bs, bs.Perm as →
        (sc.annotated bs).mountSpecs = sc.mountSpecs ++ [containerMount sc.config])) ↔
    ¬ PodDescribed as ∨ (HasSandboxType as ↔ ¬ HasSandboxName as) := by
  have hmounts : ∀ bs, bs.Perm as → (sc.annotated bs).mountSpecs = sc.mountSpecs ++
      List.replicate ((if HasSandboxType as then 1 else 0) + (if HasSandboxName as then 1 else 0))
        (containerMount sc.config) := by
    intro bs hperm
    rw [annotated_eq, (foldl_annotate fun a ha => hvalues a (hperm.subset ha)).2,
      hperm.countP_eq, countP_addsMount hkeys]
  have hdescribed : HasSandboxType as ∨ HasSandboxName as → PodDescribed as := by
    rintro (h | h)
    · exact ⟨_, h, .inl rfl⟩
    · obtain ⟨a, ha, hname⟩ := List.mem_map.1 h
      exact ⟨a, ha, .inr hname⟩
  constructor
  · rintro ⟨-, honce⟩
    refine or_iff_not_imp_left.2 fun h => ?_
    have hlen := congrArg List.length ((hmounts as (.refl as)).symm.trans
      (honce (not_not.1 h) as (.refl as)))
    simp only [List.length_append, List.length_replicate, List.length_singleton] at hlen
    split_ifs at hlen with htype hname hname
    · omega
    · exact iff_of_true htype hname
    · exact iff_of_false htype (not_not.2 hname)
    · omega
  · intro h
    refine ⟨fun bs hperm => ?_, fun hpod bs hperm => ?_⟩
    · rw [annotated_eq, annotated_eq, (foldl_annotate hvalues).1,
        (foldl_annotate fun a ha => hvalues a (hperm.subset ha)).1]
      refine pod_foldl_perm hkeys ?_ hperm _ _
      rintro ⟨htype, hname⟩
      rcases h with h | h
      · exact h (hdescribed (.inl htype))
      · exact h.1 htype hname
    · have hone := h.resolve_left (not_not.2 hpod)
      rw [hmounts bs hperm]
      by_cases htype : HasSandboxType as
      · rw [if_pos htype, if_neg (hone.1 htype)]
        rfl
      · rw [if_neg htype, if_pos (not_not.1 fun hname => htype (hone.2 hname))]
        rfl

/-- The configuration of the container `c1` before the file is read. -/
def unreadSpec : SpecConfig where
  config := { configCreate with optargContainerId := some "c1" }
  fresh := rfl

/-- A container in the pod of the sandbox `pod`. -/
theorem podAnnotations_container :
    let as := [("ocid/sandbox_name", "pod"), ("ocid/container_type", "container")]
    (∀ bs, bs.Perm as → (unreadSpec.annotated bs).config.pod =
        (unreadSpec.annotated as).config.pod) ∧
      (PodDescribed as → ∀ bs, bs.Perm as → (unreadSpec.annotated bs).mountSpecs =
        unreadSpec.mountSpecs ++ [containerMount unreadSpec.config]) :=
  (podAnnotations_iff unreadSpec _ (by decide) (by decide)).2 (.inr (by decide))

/-- A sandbox with a name of its own: the order of the two annotations decides which name it has,
and the root is mounted twice. A container with a type only has no mount. -/
theorem podAnnotations_order :
    let type := ("ocid/container_type", "sandbox")
    let name := ("ocid/sandbox_name", "pod")
    let podName (as : List Annotation) :=
      (unreadSpec.annotated as).config.pod.bind CcPod.sandboxName
    podName [type, name] = some "pod" ∧ podName [name, type] = some "c1" ∧
      (unreadSpec.annotated [type, name]).mountSpecs.length = 2 ∧
      (unreadSpec.annotated [("ocid/container_type", "container")]).mountSpecs.length = 0 := by
  decide

end Runtime

end CcOciRuntime
