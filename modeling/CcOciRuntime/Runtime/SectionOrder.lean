import CcOciRuntime.Runtime.SectionParts
import Mathlib.Data.List.Nodup

/-!
# The order of the members of `config.json`

The order matters in three ways. A section that is rejected and one that makes the process die
decide by their order how the file fails; a mount that an annotation has added makes the handler of
the mounts pass over its section; and its source is the root as it is known by then.
`section_order_irrelevant` says that there are no others: `OrderFree` is enough since two members
then commute in every state that a run can reach (`readMember_commute`), and it is needed since two
members can be put first in either order.

Reference: `cc_oci_process_config` (`src/oci-config.c:225`), `mounts_handle_section`
(`src/spec_handlers/mounts.c:188`), `cc_pod_handle_annotations` (`src/pod.c:118`).
-/

namespace CcOciRuntime

namespace Runtime

/-! ## The condition -/

/-- What the handler of a member makes of a configuration. -/
def readMember (host : SpecHost) (sc : SpecConfig) (m : String × Json) :
    Except SpecError SpecConfig :=
  specSection (startSpecHandlers host) sc (memberNode m)

/-- How it fails, if it does. -/
def memberError (host : SpecHost) (sc : SpecConfig) (m : String × Json) : Option SpecError :=
  match readMember host sc m with
  | .error e => some e
  | .ok _ => none

/-- Some annotation of the file adds a mount. -/
def AddsMounts (ms : List (String × Json)) : Prop :=
  ∃ m ∈ ms, m.1 = "annotations" ∧ ∃ child ∈ (memberNode m).children, AnnotationAddsMount child

instance (ms : List (String × Json)) : Decidable (AddsMounts ms) :=
  inferInstanceAs (Decidable (∃ m ∈ ms, _))

/-- **When the order of the members does not matter**, by what their handlers make of the starting
configuration. No two members fail in different ways. And if some annotation adds a mount, and no
member fails that would be read in any order, the mounts section adds none, and the root section
leaves the path as it was. -/
structure OrderFree (host : SpecHost) (sc : SpecConfig) (ms : List (String × Json)) : Prop where
  failures : ∀ m ∈ ms, ∀ m' ∈ ms, memberError host sc m = some .died →
    memberError host sc m' ≠ some .rejected
  mounts : AddsMounts ms → (∀ m ∈ ms, m.1 ≠ "mounts" → memberError host sc m = none) →
    ∀ m ∈ ms, m.1 = "mounts" →
      mountsHandleSection sc.mountSpecs (memberNode m) = some sc.mountSpecs
  root : AddsMounts ms → (∀ m ∈ ms, m.1 ≠ "mounts" → memberError host sc m = none) →
    ∀ m ∈ ms, m.1 = "root" →
      ∀ r ∈ rootHandleSection host.toSpecEnv sc.config.oci.root (memberNode m),
        r.path.text = sc.config.oci.root.path.text

/-- The same verdict, and the same configuration up to the order of the mounts. -/
def SameOutcome : Except SpecError SpecConfig → Except SpecError SpecConfig → Prop
  | .ok sc, .ok sc' => sc.mountSpecs.Perm sc'.mountSpecs ∧ sc.withMounts [] = sc'.withMounts []
  | .error e, .error e' => e = e'
  | _, _ => False

section
variable {host : SpecHost} {sc sc₁ sc₂ : SpecConfig} {m m' : String × Json}
  {ms ms' l : List (String × Json)} {e : SpecError}

/-- A file is read member by member. -/
theorem specProcessConfig_eq_foldlM (filename : String) (ms : List (String × Json)) :
    specProcessConfig (startSpecHandlers host) (jsonParse filename (.obj ms)) sc =
      ms.foldlM (readMember host) sc := by
  have hnodes : specProcessConfig (startSpecHandlers host) (jsonParse filename (.obj ms)) sc =
      (ms.map memberNode).foldlM (specSection (startSpecHandlers host)) sc := by
    rw [← jsonParseMembers_eq_map]
    rfl
  rw [hnodes, List.foldlM_map]
  rfl

theorem memberError_eq_some : memberError host sc m = some e ↔ readMember host sc m = .error e := by
  unfold memberError
  cases readMember host sc m <;> simp

theorem memberError_eq_none :
    memberError host sc m = none ↔ ∃ sc', readMember host sc m = .ok sc' := by
  unfold memberError
  cases readMember host sc m <;> simp

/-! ## The three members that meet -/

/-- The annotations are always accepted. -/
theorem readMember_annotations (hm : m.1 = "annotations") : readMember host sc m =
    .ok ((memberNode m).children.foldl .annotate sc) :=
  specSection_eq_handler annotationsSpecHandler (congrArg some hm) rfl

/-- The mounts section starts from the mounts there are. -/
theorem readMember_mounts (hm : m.1 = "mounts") : readMember host sc m =
    orRejected ((mountsHandleSection sc.mountSpecs (memberNode m)).map sc.withMounts) :=
  specSection_eq_handler mountsSpecHandler (congrArg some hm) rfl

/-- A mounts section that adds none changes nothing. -/
theorem readMember_mounts_self (hm : m.1 = "mounts")
    (h : mountsHandleSection sc.mountSpecs (memberNode m) = some sc.mountSpecs) :
    readMember host sc m = .ok sc := by
  rw [readMember_mounts hm, h, Option.map_some, withMounts_self]
  rfl

/-- The root section depends on the root there is. -/
theorem readMember_root (hm : m.1 = "root") : readMember host sc m =
    orRejected ((rootHandleSection host.toSpecEnv sc.config.oci.root (memberNode m)).map
      (Slot.root.set sc)) :=
  specSection_eq_handler (rootSpecHandler host) (congrArg some hm) rfl

/-- The handlers that cannot make the process die. -/
theorem orRejected_eq_error {α : Type} {o : Option α} :
    orRejected o = .error e ↔ o = none ∧ e = .rejected := by
  cases o with
  | none => exact ⟨fun h => ⟨rfl, (Except.error.inj h).symm⟩, fun h => by rw [h.2]; rfl⟩
  | some a => simp [orRejected]

/-- The mounts are passed over unless there are none. -/
theorem mountsHandleSection_cons {specs : List MountSpec} (hspecs : specs ≠ []) (node : GNode) :
    mountsHandleSection specs node = some specs := by
  cases specs with
  | nil => exact absurd rfl hspecs
  | cons spec specs => rfl

/-- A mounts section that adds none does so after other mounts, too. -/
theorem mountsHandleSection_append {specs : List MountSpec} {node : GNode}
    (h : mountsHandleSection specs node = some specs) (more : List MountSpec) :
    mountsHandleSection (specs ++ more) node = some (specs ++ more) := by
  by_cases hspecs : specs ++ more = []
  · obtain ⟨rfl, rfl⟩ := List.append_eq_nil_iff.1 hspecs
    exact h
  · exact mountsHandleSection_cons hspecs node

/-- Annotations leave the root and the id alone. -/
theorem foldl_annotate_config_keeps (nodes : List GNode) (sc : SpecConfig) :
    (nodes.foldl .annotate sc).config.oci.root = sc.config.oci.root ∧
      (nodes.foldl .annotate sc).config.optargContainerId = sc.config.optargContainerId := by
  induction nodes generalizing sc with
  | nil => exact ⟨rfl, rfl⟩
  | cons node nodes ih =>
    obtain ⟨hroot, hid⟩ := ih (sc.annotate node)
    rw [List.foldl_cons, hroot, hid]
    simp only [SpecConfig.annotate]
    rw [handleAnnotation_frame]
    exact ⟨rfl, rfl⟩

/-- The mounts that annotations add are all the same. -/
theorem foldl_annotate_mountSpecs (nodes : List GNode) (sc : SpecConfig) :
    (nodes.foldl .annotate sc).mountSpecs = sc.mountSpecs ++
      .replicate (nodes.countP (decide <| AnnotationAddsMount ·)) (containerMount sc.config) := by
  induction nodes generalizing sc with
  | nil => exact (List.append_nil _).symm
  | cons node nodes ih =>
    obtain ⟨hroot, hid⟩ := foldl_annotate_config_keeps [node] sc
    have hmount : containerMount (sc.annotate node).config = containerMount sc.config :=
      containerMount_reads (congrArg (·.path.text) hroot) hid
    rw [List.foldl_cons, ih, hmount, List.countP_cons]
    simp only [SpecConfig.annotate, annotationMounts_eq, decide_eq_true_eq]
    split_ifs
    · rw [List.append_assoc, List.singleton_append, List.replicate_succ]
    · rw [List.append_nil, Nat.add_zero]

/-- The annotations member of a file that adds mounts. -/
theorem exists_added (host : SpecHost) (hm : m.1 = "annotations")
    (hadds : ∃ child ∈ (memberNode m).children, AnnotationAddsMount child) :
    ∃ n, ∀ sc : SpecConfig, ∃ sc₁, readMember host sc m = .ok sc₁ ∧ sc₁.mountSpecs =
      sc.mountSpecs ++ .replicate (n + 1) (containerMount sc.config) := by
  obtain ⟨child, hchild, hadd⟩ := hadds
  have hpos : 0 < (memberNode m).children.countP (decide <| AnnotationAddsMount ·) :=
    List.countP_pos_iff.2 ⟨child, hchild, decide_eq_true hadd⟩
  refine ⟨(memberNode m).children.countP (decide <| AnnotationAddsMount ·) - 1, fun sc => ?_⟩
  refine ⟨_, readMember_annotations hm, ?_⟩
  rw [foldl_annotate_mountSpecs, Nat.sub_add_cancel hpos]

/-- The path that a member of a root section leaves is its own or the one that was there. -/
theorem handleRootSection_path (env : SpecEnv) (node : GNode) :
    ∃ o : Option PathBuf, ∀ r, (handleRootSection env r node).path = o.getD r.path := by
  unfold handleRootSection
  cases node.children with
  | nil => exact ⟨none, fun _ => rfl⟩
  | cons child cs =>
    dsimp only
    by_cases hpath : node.data = some "path"
    · simp only [if_pos hpath]
      cases child.data.bind (resolvePath env) with
      | none => exact ⟨none, fun _ => rfl⟩
      | some full => exact ⟨some (.copy full), fun _ => rfl⟩
    · simp only [if_neg hpath]
      refine ⟨none, fun r => ?_⟩
      split_ifs <;> rfl

/-- So is the one that the section leaves. -/
theorem foldl_handleRootSection_path (env : SpecEnv) (nodes : List GNode) :
    ∃ o : Option PathBuf, ∀ r, (nodes.foldl (handleRootSection env) r).path = o.getD r.path := by
  induction nodes with
  | nil => exact ⟨none, fun _ => rfl⟩
  | cons node nodes ih =>
    obtain ⟨o, ho⟩ := ih
    obtain ⟨o', ho'⟩ := handleRootSection_path env node
    refine ⟨o.or o', fun r => ?_⟩
    rw [List.foldl_cons, ho, ho']
    cases o <;> rfl

/-- So a section that leaves one root's path as it was does so for the roots of the same path. -/
theorem rootHandleSection_keeps_path {env : SpecEnv} {node : GNode} {r r₁ r' r₁' : OciCfgRoot}
    (hr : rootHandleSection env r node = some r₁) (hr' : rootHandleSection env r' node = some r₁')
    (hpath : r'.path.text = r.path.text) (hkept : r₁.path.text = r.path.text) :
    r₁'.path.text = r.path.text := by
  have hsome : ∀ {r r₁}, rootHandleSection env r node = some r₁ →
      node.children.foldl (handleRootSection env) r = r₁ := by
    intro r r₁ h
    unfold rootHandleSection at h
    dsimp only at h
    split_ifs at h
    exact Option.some.inj h
  obtain ⟨o, ho⟩ := foldl_handleRootSection_path env node.children
  rw [← hsome hr, ho] at hkept
  rw [← hsome hr', ho]
  cases o with
  | none => exact hpath
  | some path => exact hkept

/-! ## What a member leaves to the others -/

/-- A member leaves alone what members of another name are about. -/
theorem readMember_keeps {t : Slot} (h : readMember host sc m = .ok sc₁) (hne : t.name ≠ m.1)
    (hpod : t ≠ .pod) (hmounts : t = .mounts → m.1 ≠ "annotations") : t.get sc₁ = t.get sc :=
  specSection_keeps rfl hne hpod hmounts h

/-- Whether a member fails, and how, is the same after another one, unless annotations add mounts
before the mounts. -/
theorem readMember_error_iff (h : readMember host sc m = .ok sc₁) (hne : m'.1 ≠ m.1)
    (hmounts : m'.1 = "mounts" → m.1 ≠ "annotations") :
    readMember host sc₁ m' = .error e ↔ readMember host sc m' = .error e := by
  by_cases hann : m'.1 = "annotations"
  · rw [readMember_annotations hann, readMember_annotations hann]
    simp
  cases hs : sectionSlot m'.1 (memberNode m') with
  | none =>
    have hskip : ∀ sc, readMember host sc m' = .ok sc :=
      fun _ => specSection_of_sectionSlot_none rfl hs
    rw [hskip, hskip]
    simp
  | some s =>
    have hsname := name_of_sectionSlot hs
    refine (specSection_confined host rfl hs).error_iff ?_
    refine readMember_keeps h (hsname.trans_ne hne) ?_ ?_
    · rintro rfl
      exact hann hsname.symm
    · rintro rfl
      exact hmounts hsname.symm

/-- A member that fails after another one fails without it. -/
theorem readMember_error_of_after (h : readMember host sc m = .ok sc₁) (hne : m'.1 ≠ m.1)
    (herr : readMember host sc₁ m' = .error e) : readMember host sc m' = .error e := by
  by_cases hmounts : m'.1 = "mounts" → m.1 ≠ "annotations"
  · exact (readMember_error_iff h hne hmounts).1 herr
  · rw [Classical.not_imp, not_not] at hmounts
    obtain ⟨hm', hm⟩ := hmounts
    rw [readMember_annotations hm] at h
    obtain rfl := Except.ok.inj h
    rw [readMember_mounts hm'] at herr ⊢
    obtain ⟨hnone, rfl⟩ := orRejected_eq_error.1 herr
    rw [Option.map_eq_none_iff] at hnone
    -- the section is only read when there are no mounts yet
    have hnil : sc.mountSpecs = [] := by
      by_contra hspecs
      rw [foldl_annotate_mountSpecs,
        mountsHandleSection_append (mountsHandleSection_cons hspecs _)] at hnone
      cases hnone
    by_cases hspecs : ((memberNode m).children.foldl .annotate sc).mountSpecs = []
    · rw [hspecs] at hnone
      rw [hnil, hnone]
      rfl
    · rw [mountsHandleSection_cons hspecs] at hnone
      cases hnone

/-- **How a run fails** is how one of its members fails at its start. -/
theorem exists_error_of_foldlM (hkeys : (l.map Prod.fst).Nodup)
    (h : l.foldlM (readMember host) sc = .error e) :
    ∃ m ∈ l, readMember host sc m = .error e := by
  induction l generalizing sc with
  | nil => cases h
  | cons m l ih =>
    obtain ⟨hnotMem, hkeys'⟩ := List.nodup_cons.1 hkeys
    rw [List.foldlM_cons] at h
    cases hm : readMember host sc m with
    | error e' =>
      rw [hm] at h
      exact ⟨m, List.mem_cons_self, hm.trans h⟩
    | ok sc₁ =>
      rw [hm] at h
      obtain ⟨m', hm', herr⟩ := ih hkeys' h
      have hne : m'.1 ≠ m.1 := fun heq => hnotMem (heq ▸ List.mem_map_of_mem hm')
      exact ⟨m', List.mem_cons_of_mem m hm', readMember_error_of_after hm hne herr⟩

/-- A member other than the mounts that fails at the start of a run makes it fail. -/
theorem foldlM_ne_ok (hkeys : (l.map Prod.fst).Nodup) (hm : m ∈ l) (hmounts : m.1 ≠ "mounts")
    (herr : readMember host sc m = .error e) : l.foldlM (readMember host) sc ≠ .ok sc₂ := by
  induction l generalizing sc with
  | nil => cases hm
  | cons m' l ih =>
    obtain ⟨hnotMem, hkeys'⟩ := List.nodup_cons.1 hkeys
    rw [List.foldlM_cons]
    cases hm' : readMember host sc m' with
    | error e' => exact fun h => by cases h
    | ok sc₁ =>
      obtain rfl | hml := List.mem_cons.1 hm
      · rw [hm'] at herr
        cases herr
      · have hne : m.1 ≠ m'.1 := fun heq => hnotMem (heq ▸ List.mem_map_of_mem hml)
        exact ih hkeys' hml ((readMember_error_iff hm' hne (absurd · hmounts)).2 herr)

/-- Members other than annotations leave the mounts as they are, if the mounts section adds none. -/
theorem mountSpecs_of_foldlM (hann : ∀ m ∈ l, m.1 ≠ "annotations")
    (hmounts : ∀ m ∈ l, m.1 = "mounts" →
      mountsHandleSection sc.mountSpecs (memberNode m) = some sc.mountSpecs)
    (h : l.foldlM (readMember host) sc = .ok sc₂) : sc₂.mountSpecs = sc.mountSpecs := by
  induction l generalizing sc with
  | nil =>
    cases h
    rfl
  | cons m l ih =>
    rw [List.foldlM_cons] at h
    rw [List.forall_mem_cons] at hann hmounts
    cases hm : readMember host sc m with
    | error e =>
      rw [hm] at h
      cases h
    | ok sc₁ =>
      rw [hm] at h
      have hone : sc₁.mountSpecs = sc.mountSpecs := by
        by_cases hname : m.1 = "mounts"
        · rw [readMember_mounts_self hname (hmounts.1 hname)] at hm
          rw [Except.ok.inj hm]
        · exact readMember_keeps (t := .mounts) hm (Ne.symm hname) (by decide) fun _ => hann.1
      rw [ih hann.2 (by rw [hone]; exact hmounts.2) h, hone]

/-! ## The condition is enough -/

/-- What a run of a file may rely on when its annotations add mounts: the mounts section adds none,
and the path of the root is the one of the start. -/
def Calm (sc₀ : SpecConfig) (ms : List (String × Json)) (sc : SpecConfig) : Prop :=
  AddsMounts ms → (∀ m ∈ ms, m.1 = "mounts" →
      mountsHandleSection sc.mountSpecs (memberNode m) = some sc.mountSpecs) ∧
    sc.config.oci.root.path.text = sc₀.config.oci.root.path.text

variable {sc₀ : SpecConfig}

/-- Every member keeps to it. -/
theorem Calm.step (hcalm : Calm sc₀ ms sc) (hfree : OrderFree host sc₀ ms)
    (hok : ∀ m ∈ ms, m.1 ≠ "mounts" → memberError host sc₀ m = none) (hm : m ∈ ms)
    (h : readMember host sc m = .ok sc₁) : Calm sc₀ ms sc₁ := by
  intro hadds
  obtain ⟨hmounts, hpath⟩ := hcalm hadds
  by_cases hname : m.1 = "mounts"
  · rw [readMember_mounts_self hname (hmounts m hm hname)] at h
    obtain rfl := Except.ok.inj h
    exact ⟨hmounts, hpath⟩
  refine ⟨?_, ?_⟩
  · by_cases hann : m.1 = "annotations"
    · rw [readMember_annotations hann] at h
      obtain rfl := Except.ok.inj h
      intro m' hm' hname'
      rw [foldl_annotate_mountSpecs]
      exact mountsHandleSection_append (hmounts m' hm' hname') _
    · have hkept := readMember_keeps (t := .mounts) h (Ne.symm hname) (by decide) fun _ => hann
      rw [show sc₁.mountSpecs = sc.mountSpecs from hkept]
      exact hmounts
  · by_cases hroot : m.1 = "root"
    · obtain ⟨sc₀', hstart⟩ := memberError_eq_none.1 (hok m hm hname)
      rw [readMember_root hroot] at h hstart
      obtain ⟨r, hr, rfl⟩ := Option.map_eq_some_iff.1 (orRejected_eq_ok h)
      obtain ⟨r₀, hr₀, -⟩ := Option.map_eq_some_iff.1 (orRejected_eq_ok hstart)
      exact rootHandleSection_keeps_path hr₀ hr hpath (hfree.root hadds hok m hm hroot r₀ hr₀)
    · have hkept := readMember_keeps (t := .root) h (Ne.symm hroot) (by decide) (by simp)
      rw [show sc₁.config.oci.root = sc.config.oci.root from hkept]
      exact hpath

/-- The part of a member is as it was after another one. -/
theorem get_of_readMember {s t : Slot} (hs : sectionSlot m.1 (memberNode m) = some s)
    (ht : sectionSlot m'.1 (memberNode m') = some t) (hne : m.1 ≠ m'.1)
    (hmounts : s = .pod → t ≠ .mounts) (hpod : t = .pod → s ≠ .mounts)
    (hroot : t = .pod → sc₁.config.oci.root.path.text = sc.config.oci.root.path.text)
    (h : readMember host sc m = .ok sc₁) : t.get sc₁ = t.get sc := by
  have hsname := name_of_sectionSlot hs
  have htname := name_of_sectionSlot ht
  have hnames : s.name ≠ t.name := by rwa [hsname, htname]
  by_cases hpr : t = .pod ∧ s = .root
  · -- the root section can change the path that the pod's mounts have as their source
    obtain ⟨rfl, rfl⟩ := hpr
    have hset := (specSection_confined host rfl hs).writes sc sc₁ h
    have hpath := hroot rfl
    rw [hset] at hpath ⊢
    show SpecConfig.podPart _ = SpecConfig.podPart _
    unfold SpecConfig.podPart
    rw [hpath]
    rfl
  · refine (specSection_confined host rfl hs).get_eq (q := t.part) (fun v => ?_) h
    exact Slot.get_set hnames hmounts (fun hp => ⟨hpod hp, fun hr => hpr ⟨hp, hr⟩⟩) sc v

/-- Some annotation of a member on the part of the pod adds a mount. -/
theorem addsMounts_of_slot (hm : m ∈ ms) (h : sectionSlot m.1 (memberNode m) = some .pod) :
    AddsMounts ms := by
  obtain ⟨hname, hslot⟩ | hmem := sectionSlot_cases h
  · unfold annotationsSlot at hslot
    split_ifs at hslot with hadds
    exact ⟨m, hm, hname, hadds⟩
  · simp [sectionSlots] at hmem

/-- A mounts section that adds none can be read before or after. -/
theorem commute_of_mounts (hcalm : Calm sc₀ ms sc) (hfree : OrderFree host sc₀ ms)
    (hok : ∀ m ∈ ms, m.1 ≠ "mounts" → memberError host sc₀ m = none) (hadds : AddsMounts ms)
    (hm : m ∈ ms) (hm' : m' ∈ ms) (hname : m'.1 = "mounts") :
    (readMember host sc m).bind (readMember host · m') =
      (readMember host sc m').bind (readMember host · m) := by
  have hself : ∀ {sc}, Calm sc₀ ms sc → readMember host sc m' = .ok sc :=
    fun hcalm => readMember_mounts_self hname ((hcalm hadds).1 m' hm' hname)
  rw [hself hcalm]
  cases h : readMember host sc m with
  | error e => exact h.symm
  | ok sc₁ => exact (hself (hcalm.step hfree hok hm h)).trans h.symm

/-- **Two members commute** where the condition holds. -/
theorem readMember_commute (hcalm : Calm sc₀ ms sc) (hfree : OrderFree host sc₀ ms)
    (hok : ∀ m ∈ ms, m.1 ≠ "mounts" → memberError host sc₀ m = none)
    (hm : m ∈ ms) (hm' : m' ∈ ms) (hne : m.1 ≠ m'.1) :
    ((readMember host sc m).bind (readMember host · m')).toOption =
      ((readMember host sc m').bind (readMember host · m)).toOption := by
  cases hs : sectionSlot m.1 (memberNode m) with
  | none =>
    have hskip : ∀ sc, readMember host sc m = .ok sc :=
      fun _ => specSection_of_sectionSlot_none rfl hs
    simp only [hskip]
    change (readMember host sc m').toOption = _
    cases readMember host sc m' <;> rfl
  | some s =>
    cases ht : sectionSlot m'.1 (memberNode m') with
    | none =>
      have hskip : ∀ sc, readMember host sc m' = .ok sc :=
        fun _ => specSection_of_sectionSlot_none rfl ht
      simp only [hskip]
      change _ = (readMember host sc m).toOption
      cases readMember host sc m <;> rfl
    | some t =>
      have hsname := name_of_sectionSlot hs
      have htname := name_of_sectionSlot ht
      by_cases hpm : s = .pod ∧ t = .mounts
      · obtain ⟨rfl, rfl⟩ := hpm
        have hadds := addsMounts_of_slot hm hs
        rw [commute_of_mounts hcalm hfree hok hadds hm hm' htname.symm]
      by_cases hmp : t = .pod ∧ s = .mounts
      · obtain ⟨rfl, rfl⟩ := hmp
        have hadds := addsMounts_of_slot hm' ht
        rw [commute_of_mounts hcalm hfree hok hadds hm' hm hsname.symm]
      have hroot : ∀ {m m'} {sc₁}, m ∈ ms → m' ∈ ms →
          sectionSlot m'.1 (memberNode m') = some .pod → readMember host sc m = .ok sc₁ →
          sc₁.config.oci.root.path.text = sc.config.oci.root.path.text := by
        intro m m' sc₁ hm hm' hslot h
        have hadds := addsMounts_of_slot hm' hslot
        exact ((hcalm.step hfree hok hm h) hadds).2.trans (hcalm hadds).2.symm
      refine (specSection_confined host rfl hs).commute (specSection_confined host rfl ht)
        (fun sc₁ h => ?_) (fun sc₁ h => ?_) (fun a b => ?_)
      · refine get_of_readMember hs ht hne (fun hp h => hpm ⟨hp, h⟩) (fun hp h => hmp ⟨hp, h⟩) ?_ h
        exact fun hp => hroot hm hm' (ht.trans (congrArg some hp)) h
      · refine get_of_readMember ht hs hne.symm (fun hp h => hmp ⟨hp, h⟩) (fun hp h => hpm ⟨hp, h⟩)
          ?_ h
        exact fun hp => hroot hm' hm (hs.trans (congrArg some hp)) h
      · refine Slot.set_comm ?_ (fun hp h => hpm ⟨hp, h⟩) (fun hp h => hmp ⟨hp, h⟩) sc a b
        rwa [hsname, htname]

/-- If no member fails that is read in any order, a permutation is accepted with the same
configuration or fails, too. -/
theorem toOption_foldlM_of_orderFree (hfree : OrderFree host sc ms)
    (hok : ∀ m ∈ ms, m.1 ≠ "mounts" → memberError host sc m = none)
    (hkeys : (ms.map Prod.fst).Nodup) (hperm : ms.Perm ms') :
    (ms.foldlM (readMember host) sc).toOption = (ms'.foldlM (readMember host) sc).toOption := by
  refine foldlM_perm hperm (Calm sc ms) ?_ ?_ ?_
  · exact fun m hm sc₁ sc₂ hcalm h => hcalm.step hfree hok hm h
  · intro m hm m' hm' sc₁ hcalm
    by_cases hmm : m = m'
    · rw [hmm]
    · have hne : m.1 ≠ m'.1 := fun h => hmm (List.inj_on_of_nodup_map hkeys hm hm' h)
      exact readMember_commute hcalm hfree hok hm hm' hne
  · exact fun hadds => ⟨hfree.mounts hadds hok, rfl⟩

/-- Two orders that both fail do so in the same way. -/
theorem error_eq_of_orderFree {e' : SpecError} (hfree : OrderFree host sc ms)
    (hkeys : (ms.map Prod.fst).Nodup) (hperm : ms.Perm ms')
    (h : ms.foldlM (readMember host) sc = .error e)
    (h' : ms'.foldlM (readMember host) sc = .error e') : e = e' := by
  obtain ⟨m, hm, herr⟩ := exists_error_of_foldlM hkeys h
  obtain ⟨m', hm', herr'⟩ := exists_error_of_foldlM ((hperm.map Prod.fst).nodup_iff.1 hkeys) h'
  rw [← memberError_eq_some] at herr herr'
  have hm'ms := hperm.mem_iff.2 hm'
  cases e <;> cases e'
  · rfl
  · exact absurd herr (hfree.failures m' hm'ms m hm herr')
  · exact absurd herr' (hfree.failures m hm m' hm'ms herr)
  · rfl

/-- **The condition is enough.** -/
theorem sameOutcome_of_orderFree (hfree : OrderFree host sc ms) (hkeys : (ms.map Prod.fst).Nodup)
    (hperm : ms.Perm ms') :
    SameOutcome (ms.foldlM (readMember host) sc) (ms'.foldlM (readMember host) sc) := by
  have hkeys' := (hperm.map Prod.fst).nodup_iff.1 hkeys
  by_cases hok : ∀ m ∈ ms, m.1 ≠ "mounts" → memberError host sc m = none
  · have hverdict := toOption_foldlM_of_orderFree hfree hok hkeys hperm
    cases h : ms.foldlM (readMember host) sc <;> cases h' : ms'.foldlM (readMember host) sc <;>
      rw [h, h'] at hverdict
    · exact error_eq_of_orderFree hfree hkeys hperm h h'
    · cases hverdict
    · cases hverdict
    · obtain rfl := Option.some.inj hverdict
      exact ⟨.refl _, rfl⟩
  · simp only [not_forall] at hok
    obtain ⟨m, hm, hname, herr⟩ := hok
    obtain ⟨e, he⟩ := Option.ne_none_iff_exists'.1 herr
    rw [memberError_eq_some] at he
    cases h : ms.foldlM (readMember host) sc with
    | ok sc₁ => exact absurd h (foldlM_ne_ok hkeys hm hname he)
    | error e₁ =>
      cases h' : ms'.foldlM (readMember host) sc with
      | ok sc₁ => exact absurd h' (foldlM_ne_ok hkeys' (hperm.mem_iff.1 hm) hname he)
      | error e₂ => exact error_eq_of_orderFree hfree hkeys hperm h h'

/-! ## The condition is needed -/

/-- A member can be put first. -/
theorem exists_perm_cons (hm : m ∈ ms) : ∃ rest, ms.Perm (m :: rest) := by
  obtain ⟨l, l', rfl⟩ := List.append_of_mem hm
  exact ⟨l ++ l', List.perm_middle⟩

/-- Two members can be put first in either order. -/
theorem exists_two_orders (hkeys : (ms.map Prod.fst).Nodup) (hm : m ∈ ms) (hm' : m' ∈ ms)
    (hne : m.1 ≠ m'.1) : ∃ rest, ms.Perm (m :: m' :: rest) ∧ ms.Perm (m' :: m :: rest) ∧
      (rest.map Prod.fst).Nodup ∧ ∀ x ∈ rest, x ∈ ms ∧ x.1 ≠ m.1 ∧ x.1 ≠ m'.1 := by
  obtain ⟨rest, hrest⟩ := exists_perm_cons hm
  have hmem : m' ∈ rest := by
    obtain rfl | hmem := List.mem_cons.1 (hrest.mem_iff.1 hm')
    · exact absurd rfl hne
    · exact hmem
  obtain ⟨rest', hrest'⟩ := exists_perm_cons hmem
  have hperm : ms.Perm (m :: m' :: rest') := hrest.trans (hrest'.cons m)
  have hnodup := (hperm.map Prod.fst).nodup_iff.1 hkeys
  simp only [List.map_cons, List.nodup_cons, List.mem_cons, not_or] at hnodup
  obtain ⟨⟨-, hnot⟩, hnot', hkeys'⟩ := hnodup
  refine ⟨rest', hperm, hperm.trans (.swap m' m rest'), hkeys', fun x hx => ⟨?_, ?_, ?_⟩⟩
  · exact hperm.mem_iff.2 (List.mem_cons_of_mem m (List.mem_cons_of_mem m' hx))
  · exact fun h => hnot (h ▸ List.mem_map_of_mem hx)
  · exact fun h => hnot' (h ▸ List.mem_map_of_mem hx)

/-- Two orders that end like a third one. -/
theorem SameOutcome.euclid {r r₁ r₂ : Except SpecError SpecConfig} (h₁ : SameOutcome r r₁)
    (h₂ : SameOutcome r r₂) : SameOutcome r₁ r₂ := by
  cases r with
  | error e =>
    cases r₁ with
    | ok sc₁ => exact h₁.elim
    | error e₁ =>
      cases r₂ with
      | ok sc₂ => exact h₂.elim
      | error e₂ => exact Eq.trans (Eq.symm h₁) h₂
  | ok sc =>
    cases r₁ with
    | error e₁ => exact h₁.elim
    | ok sc₁ =>
      cases r₂ with
      | error e₂ => exact h₂.elim
      | ok sc₂ => exact ⟨h₁.1.symm.trans h₂.1, h₁.2.symm.trans h₂.2⟩

/-- A run goes on from what its first member makes. -/
theorem foldlM_of_ok (h : readMember host sc m = .ok sc₁) :
    (m :: l).foldlM (readMember host) sc = l.foldlM (readMember host) sc₁ := by
  rw [List.foldlM_cons, h]
  rfl

/-- A run fails if its first member does. -/
theorem foldlM_of_error (h : readMember host sc m = .error e) :
    (m :: l).foldlM (readMember host) sc = .error e := by
  rw [List.foldlM_cons, h]
  rfl

section
variable (hkeys : (ms.map Prod.fst).Nodup)
  (hsame : ∀ ms', ms.Perm ms' →
    SameOutcome (ms.foldlM (readMember host) sc) (ms'.foldlM (readMember host) sc))
  (hok : ∀ m ∈ ms, m.1 ≠ "mounts" → memberError host sc m = none)

include hsame in
/-- Two members that fail in different ways decide how the file fails, by their order. -/
theorem failures_of_sameOutcome (hm : m ∈ ms) (hm' : m' ∈ ms)
    (hdied : memberError host sc m = some .died) : memberError host sc m' ≠ some .rejected := by
  intro hrejected
  rw [memberError_eq_some] at hdied hrejected
  obtain ⟨rest, hrest⟩ := exists_perm_cons hm
  obtain ⟨rest', hrest'⟩ := exists_perm_cons hm'
  have horders := (hsame _ hrest).euclid (hsame _ hrest')
  rw [foldlM_of_error hdied, foldlM_of_error hrejected] at horders
  cases horders

include hok in
/-- The members that are left are accepted after one that has been. -/
theorem exists_foldlM_ok (h : readMember host sc m = .ok sc₁) (hlkeys : (l.map Prod.fst).Nodup)
    (hl : ∀ x ∈ l, x ∈ ms ∧ x.1 ≠ m.1 ∧ x.1 ≠ "mounts") :
    ∃ sc₂, l.foldlM (readMember host) sc₁ = .ok sc₂ := by
  cases hrun : l.foldlM (readMember host) sc₁ with
  | ok sc₂ => exact ⟨sc₂, rfl⟩
  | error e =>
    obtain ⟨m', hm', herr⟩ := exists_error_of_foldlM hlkeys hrun
    obtain ⟨hms, hne, hmounts⟩ := hl m' hm'
    have hnone := hok m' hms hmounts
    rw [memberError_eq_some.2 (readMember_error_of_after h hne herr)] at hnone
    cases hnone

include hkeys hsame hok in
/-- Mounts that a section adds are missing if annotations add theirs before. -/
theorem mounts_of_sameOutcome (hadds : AddsMounts ms) (hm : m ∈ ms) (hname : m.1 = "mounts") :
    mountsHandleSection sc.mountSpecs (memberNode m) = some sc.mountSpecs := by
  obtain ⟨a, ha, haname, hchild⟩ := hadds
  obtain ⟨n, hadded⟩ := exists_added host haname hchild
  have hne : a.1 ≠ m.1 := by
    rw [haname, hname]
    decide
  obtain ⟨rest, hperm, hperm', hkeys', hrest⟩ := exists_two_orders hkeys ha hm hne
  have horders := (hsame _ hperm).euclid (hsame _ hperm')
  have hleft : ∀ x ∈ rest, x ∈ ms ∧ x.1 ≠ a.1 ∧ x.1 ≠ "mounts" := hname ▸ hrest
  have hquiet : ∀ {sc₁ sc₂}, rest.foldlM (readMember host) sc₁ = .ok sc₂ →
      sc₂.mountSpecs = sc₁.mountSpecs :=
    mountSpecs_of_foldlM (fun x hx => haname ▸ (hrest x hx).2.1)
      fun x hx h => absurd h (hleft x hx).2.2
  by_cases hspecs : sc.mountSpecs = []
  swap
  · exact mountsHandleSection_cons hspecs _
  -- the annotations first: the section is passed over
  obtain ⟨sc₁, h₁, hspecs₁⟩ := hadded sc
  have hself : readMember host sc₁ m = .ok sc₁ := by
    refine readMember_mounts_self hname (mountsHandleSection_cons ?_ _)
    simp [hspecs₁, List.replicate_succ]
  obtain ⟨sc₂, h₂⟩ := exists_foldlM_ok hok h₁ hkeys' hleft
  rw [foldlM_of_ok h₁, foldlM_of_ok hself, h₂] at horders
  -- the mounts first: they are read
  cases hread : mountsHandleSection sc.mountSpecs (memberNode m) with
  | none =>
    have hm₃ : readMember host sc m = .error .rejected := by
      rw [readMember_mounts hname, hread]
      rfl
    rw [foldlM_of_error hm₃] at horders
    exact horders.elim
  | some specs =>
    have hm₃ : readMember host sc m = .ok (sc.withMounts specs) := by
      rw [readMember_mounts hname, hread]
      rfl
    have hrun : ∃ sc₅, (a :: rest).foldlM (readMember host) (sc.withMounts specs) = .ok sc₅ := by
      refine exists_foldlM_ok hok hm₃ ?_ (List.forall_mem_cons.2 ⟨⟨ha, hne, hname ▸ hne⟩, ?_⟩)
      · refine List.nodup_cons.2 ⟨fun hmem => ?_, hkeys'⟩
        obtain ⟨x, hx, hxa⟩ := List.mem_map.1 hmem
        exact (hrest x hx).2.1 hxa
      · exact fun x hx => ⟨(hrest x hx).1, (hrest x hx).2.2, (hleft x hx).2.2⟩
    obtain ⟨sc₄, h₄, hspecs₄⟩ := hadded (sc.withMounts specs)
    obtain ⟨sc₅, h₅⟩ := hrun
    rw [foldlM_of_ok hm₃, h₅] at horders
    rw [foldlM_of_ok h₄] at h₅
    have hlength := horders.1.length_eq
    rw [hquiet h₂, hquiet h₅, hspecs₁, hspecs₄] at hlength
    simp only [SpecConfig.withMounts, hspecs, List.nil_append, List.length_append,
      List.length_replicate] at hlength
    rw [hspecs, List.eq_nil_of_length_eq_zero (show specs.length = 0 by omega)]

include hok in
/-- Every order is accepted if the mounts section adds none. -/
theorem foldlM_ok_of_mounts (hmounts : ∀ m ∈ ms, m.1 = "mounts" →
      mountsHandleSection sc.mountSpecs (memberNode m) = some sc.mountSpecs)
    (hkeys : (ms'.map Prod.fst).Nodup) (hperm : ms.Perm ms') :
    ∃ sc', ms'.foldlM (readMember host) sc = .ok sc' := by
  cases hrun : ms'.foldlM (readMember host) sc with
  | ok sc' => exact ⟨sc', rfl⟩
  | error e =>
    obtain ⟨m, hm, herr⟩ := exists_error_of_foldlM hkeys hrun
    have hmem := hperm.mem_iff.2 hm
    by_cases hmount : m.1 = "mounts"
    · rw [readMember_mounts_self hmount (hmounts m hmem hmount)] at herr
      cases herr
    · have hnone := hok m hmem hmount
      rw [memberError_eq_some.2 herr] at hnone
      cases hnone

include hkeys hsame hok in
/-- Mounts that annotations add have another source after a root section that changes the path. -/
theorem root_of_sameOutcome (hadds : AddsMounts ms) (hm : m ∈ ms) (hname : m.1 = "root")
    {r : OciCfgRoot}
    (hr : rootHandleSection host.toSpecEnv sc.config.oci.root (memberNode m) = some r) :
    r.path.text = sc.config.oci.root.path.text := by
  have hmounts : ∀ m ∈ ms, m.1 = "mounts" →
      mountsHandleSection sc.mountSpecs (memberNode m) = some sc.mountSpecs :=
    fun m hm h => mounts_of_sameOutcome hkeys hsame hok hadds hm h
  obtain ⟨a, ha, haname, hchild⟩ := hadds
  obtain ⟨n, hadded⟩ := exists_added host haname hchild
  have hne : a.1 ≠ m.1 := by
    rw [haname, hname]
    decide
  obtain ⟨rest, hperm, hperm', -, hrest⟩ := exists_two_orders hkeys ha hm hne
  have horders := (hsame _ hperm).euclid (hsame _ hperm')
  have hrun : ∀ {l}, ms.Perm l → ∃ sc', l.foldlM (readMember host) sc = .ok sc' := fun hl =>
    foldlM_ok_of_mounts hok hmounts ((hl.map Prod.fst).nodup_iff.1 hkeys) hl
  obtain ⟨sc₂, h₂⟩ := hrun hperm
  obtain ⟨sc₅, h₅⟩ := hrun hperm'
  rw [h₂, h₅] at horders
  -- what follows the annotations leaves the mounts alone
  have hquiet : ∀ {l : List (String × Json)} (more : List MountSpec) {sc₁ sc₂ : SpecConfig},
      (∀ x ∈ l, x ∈ ms ∧ x.1 ≠ a.1) → sc₁.mountSpecs = sc.mountSpecs ++ more →
      l.foldlM (readMember host) sc₁ = .ok sc₂ → sc₂.mountSpecs = sc.mountSpecs ++ more := by
    intro l more sc₁ sc₂ hl hspecs h
    refine (mountSpecs_of_foldlM (fun x hx => haname ▸ (hl x hx).2) ?_ h).trans hspecs
    rw [hspecs]
    exact fun x hx hx' => mountsHandleSection_append (hmounts x (hl x hx).1 hx') more
  have hleft : ∀ x ∈ rest, x ∈ ms ∧ x.1 ≠ a.1 := fun x hx => ⟨(hrest x hx).1, (hrest x hx).2.1⟩
  -- the annotations first: the mounts have the path of the start as their source
  obtain ⟨sc₁, h₁, hspecs₁⟩ := hadded sc
  rw [foldlM_of_ok h₁] at h₂
  have hfirst := hquiet _ (List.forall_mem_cons.2 ⟨⟨hm, hne.symm⟩, hleft⟩) hspecs₁ h₂
  -- the root first: they have the path that it leaves
  have hm₃ : readMember host sc m = .ok (Slot.root.set sc r) := by
    rw [readMember_root hname, hr]
    rfl
  obtain ⟨sc₄, h₄, hspecs₄⟩ := hadded (Slot.root.set sc r)
  rw [foldlM_of_ok hm₃, foldlM_of_ok h₄] at h₅
  have hsecond := hquiet _ hleft hspecs₄ h₅
  have hspecs := horders.1
  rw [hfirst, hsecond] at hspecs
  have hreplicate := (List.perm_append_left_iff sc.mountSpecs).1 hspecs
  have hsource := hreplicate.mem_iff.1 (List.mem_replicate.2 ⟨Nat.succ_ne_zero n, rfl⟩)
  exact congrArg MountSpec.fsname (List.eq_of_mem_replicate hsource).symm

end

/-- **The order of the members** of a file does not matter exactly if the condition holds: then
every permutation has the same verdict and, up to the order of the mounts, the same configuration,
and otherwise some permutation has not. -/
theorem section_order_irrelevant (host : SpecHost) (filename : String) (sc : SpecConfig)
    {ms : List (String × Json)} (hkeys : (ms.map Prod.fst).Nodup) :
    let run := fun ms =>
      specProcessConfig (startSpecHandlers host) (jsonParse filename (.obj ms)) sc
    (∀ ms', ms.Perm ms' → SameOutcome (run ms) (run ms')) ↔ OrderFree host sc ms := by
  simp only [specProcessConfig_eq_foldlM]
  refine ⟨fun hsame => ⟨?_, ?_, ?_⟩, fun hfree ms' => sameOutcome_of_orderFree hfree hkeys⟩
  · exact fun m hm m' hm' => failures_of_sameOutcome hsame hm hm'
  · exact fun hadds hok m hm => mounts_of_sameOutcome hkeys hsame hok hadds hm
  · exact fun hadds hok m hm hname r hr => root_of_sameOutcome hkeys hsame hok hadds hm hname hr

/-- A file with an annotation, a mount and a root. -/
def annotatedSpec (key value : String) (mount : List (String × Json)) : List (String × Json) :=
  [("annotations", .obj [(key, .str value)]), ("mounts", .arr [.obj mount]),
    ("root", .obj [("path", .str "rootfs")])]

def dataMount : List (String × Json) :=
  [("destination", .str "/data"), ("type", .str "bind"), ("source", .str "/src")]

/-- A host on which every path can be resolved. -/
def bundleHost : SpecHost where
  resolvePath path := some ("/bundle/" ++ path)
  isDir _ := true
  pathExists _ := true

/-- The configuration before any member is read. -/
def startConfig : SpecConfig := .ofConfig configCreate mounts_configCreate

/-- What `create` makes of a file. -/
def runMembers (ms : List (String × Json)) : Except SpecError SpecConfig :=
  specProcessConfig (startSpecHandlers bundleHost) (jsonParse "config.json" (.obj ms)) startConfig

/-- The sources of the mounts that `create` finds in a file. -/
def mountSources (ms : List (String × Json)) : Option (List String) :=
  (runMembers ms).toOption.map fun sc => sc.mountSpecs.map MountSpec.fsname

/-- A file whose annotation adds no mount, and one that has no mounts of its own and no root. -/
theorem section_order_irrelevant_note :
    (mountSources (annotatedSpec "note" "text" dataMount)).isSome = true ∧
    ((∀ ms', (annotatedSpec "note" "text" dataMount).Perm ms' →
        SameOutcome (runMembers (annotatedSpec "note" "text" dataMount)) (runMembers ms')) ∧
      ∀ ms', [("annotations", .obj [("ocid/container_type", .str "sandbox")]),
          ("mounts", .arr [])].Perm ms' →
        SameOutcome (runMembers [("annotations", .obj [("ocid/container_type", .str "sandbox")]),
          ("mounts", .arr [])]) (runMembers ms')) := by
  refine ⟨by decide +kernel, ?_, ?_⟩
  · have hadds : ¬ AddsMounts (annotatedSpec "note" "text" dataMount) := by decide +kernel
    refine (section_order_irrelevant bundleHost "config.json" startConfig (by decide)).2 ?_
    exact ⟨by decide +kernel, fun h => absurd h hadds, fun h => absurd h hadds⟩
  · refine (section_order_irrelevant bundleHost "config.json" startConfig (by decide)).2 ?_
    refine ⟨by decide +kernel, fun _ _ => by decide +kernel, fun _ _ => by decide +kernel⟩

/-- The sandbox of a pod. Its annotation adds a mount, whose source is empty if the root is read
later, and a list that is not empty makes the handler of the mounts pass over its section, which
then need not even be well formed. -/
theorem sandbox_section_order_matters :
    mountSources (annotatedSpec "ocid/container_type" "sandbox" dataMount) = some [""] ∧
      mountSources (annotatedSpec "ocid/container_type" "sandbox" dataMount).reverse =
        some ["/src", "/bundle/rootfs"] ∧
      mountSources (annotatedSpec "ocid/container_type" "sandbox" [("type", .str "bind")]) =
        some [""] ∧
      mountSources (annotatedSpec "ocid/container_type" "sandbox" [("type", .str "bind")]).reverse =
        none := by
  decide +kernel

end

end Runtime

end CcOciRuntime
