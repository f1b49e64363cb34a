import CcOciRuntime.Runtime.StateRoundTrip
import Mathlib.Data.List.Perm.Subperm

/-!
# Which state files are complete

The reader of the state file does not look for the elements that it needs. Each section counts the
values that its handler has taken, and a file is accepted when no count is too small. The sections
of one value are then there; a VM of six values with different names has all six. The proxy knows
three names and needs two, the text of the status is not checked, and the tree of nodes does not
tell an array from its elements. `stateFileRead_complete_iff` says which of the accepted files are
complete.

Reference: `cc_oci_state_file_read` (`src/state.c:603`), `state_handlers` (`src/state.c:83`).
-/

namespace CcOciRuntime

namespace Runtime

/-! ## Complete files -/

/-- The sections of one value that a state file must have. -/
def requiredSections : List String :=
  ["ociVersion", "id", "pid", "bundlePath", "commsPath", "processPath", "status", "created"]

/-- The members of the VM. -/
def vmNames : List String :=
  ["workload_path", "hypervisor_path", "kernel_path", "image_path", "kernel_params", "pid"]

/-- The sockets of the proxy that a state file must have. -/
def proxyNames : List String := ["ctlSocket", "ioSocket"]

/-- The names are members of an object. -/
def HasNames (names : List String) (ms : List (String × Json)) : Prop := names ⊆ ms.map Prod.fst

/-- The status has a name of the table. -/
def KnownStatus (ms : List (String × Json)) : Prop :=
  ∃ s ∈ ociStatusMap.map Prod.snd, ("status", .str s) ∈ ms

/-- A complete state file. -/
def CompleteState (doc : Json) : Prop :=
  ∃ ms, doc = .obj ms ∧ HasNames requiredSections ms ∧
    (∃ vm, ("vm", .obj vm) ∈ ms ∧ HasNames vmNames vm) ∧
    (∃ proxy, ("proxy", .obj proxy) ∈ ms ∧ HasNames proxyNames proxy) ∧ KnownStatus ms

/-- The member has a value for the reader: not null, an empty array or an object. -/
def HasValue (m : String × Json) : Prop := (memberNode m).childData.isSome = true

/-- What the reader does not check: the document, the VM and the proxy are objects, a socket of the
console does not stand in for one of the others, and the status has a name. -/
def UncheckedState (doc : Json) : Prop :=
  ∃ ms, doc = .obj ms ∧ (∃ vm, ("vm", .obj vm) ∈ ms) ∧
    (∃ proxy, ("proxy", .obj proxy) ∈ ms ∧
      ((∃ v, ("consoleSocket", v) ∈ proxy ∧ HasValue ("consoleSocket", v)) →
        HasNames proxyNames proxy)) ∧
    KnownStatus ms

/-- Neither the document nor a section of it has two members of one name, as in a document that has
been parsed: of the members of one name the parser keeps the last. -/
def distinctNames : Json → Bool
  | .obj ms => decide (ms.map Prod.fst).Nodup && ms.all fun m =>
    match m.2 with
    | .obj os => decide (os.map Prod.fst).Nodup
    | _ => true
  | _ => true

theorem nodup_of_distinctNames {ms : List (String × Json)} (h : distinctNames (.obj ms) = true) :
    (ms.map Prod.fst).Nodup ∧ ∀ name os, (name, .obj os) ∈ ms → (os.map Prod.fst).Nodup := by
  rw [distinctNames, Bool.and_eq_true] at h
  obtain ⟨hms, hall⟩ := h
  refine ⟨of_decide_eq_true hms, fun name os hos => ?_⟩
  exact of_decide_eq_true (List.all_eq_true.1 hall _ hos)

/-! ## What the handlers count -/

/-- The node is a value under one of the names. -/
def ValueOf (names : List String) (node : GNode) : Bool :=
  match node.namedValue with
  | some (name, _) => decide (name ∈ names)
  | none => false

/-- The nodes that a handler may count. -/
def mayCount (name : String) (node : GNode) : Bool :=
  if name = "vm" then ValueOf vmNames node
  else if name = "proxy" then ValueOf ("consoleSocket" :: proxyNames) node
  else true

section
variable {h : StateHandler}

theorem count_updateSubelementsAndStrdup_le (set : OciState → String → OciState)
    (data : HandlerData) (node : GNode) :
    (updateSubelementsAndStrdup set data node).subelementsCount ≤ data.subelementsCount + 1 := by
  unfold updateSubelementsAndStrdup
  split
  · exact Nat.le_refl _
  · exact Nat.le_succ _

/-- A handler of a nested section counts values under its names. -/
theorem count_onNamedValue_le {f : HandlerData → String → String → HandlerData}
    {names : List String}
    (hf : ∀ data name value, (f data name value).subelementsCount ≤
      data.subelementsCount + if name ∈ names then 1 else 0) (data : HandlerData) (node : GNode) :
    (onNamedValue f data node).subelementsCount ≤
      data.subelementsCount + if ValueOf names node then 1 else 0 := by
  unfold onNamedValue ValueOf
  cases node.namedValue with
  | none => exact Nat.le_refl _
  | some p =>
    simp only [decide_eq_true_eq]
    exact hf data p.1 p.2

/-- **One node** is counted once, if it may be counted. -/
theorem count_handleSection_le (hh : h ∈ stateHandlers) (data : HandlerData) (node : GNode) :
    (h.handleSection data node).subelementsCount ≤
      data.subelementsCount + if mayCount h.name node then 1 else 0 := by
  have hplain := count_updateSubelementsAndStrdup_le
  have hvm : ∀ data node, (handleStateVmSection data node).subelementsCount ≤
      data.subelementsCount + if ValueOf vmNames node then 1 else 0 := by
    refine count_onNamedValue_le fun data name value => ?_
    split_ifs <;> simp_all [vmNames, HandlerData.found]
    split <;> simp
  have hproxy : ∀ data node, (handleStateProxySection data node).subelementsCount ≤
      data.subelementsCount + if ValueOf ("consoleSocket" :: proxyNames) node then 1 else 0 := by
    refine count_onNamedValue_le fun data name value => ?_
    split_ifs <;> simp_all [proxyNames, HandlerData.found]
  have hnested : ∀ {f : HandlerData → String → String → HandlerData},
      (∀ data name value, (f data name value).subelementsCount ≤ data.subelementsCount + 1) →
      (onNamedValue f data node).subelementsCount ≤ data.subelementsCount + 1 := by
    intro f hf
    unfold onNamedValue
    split
    · exact hf _ _ _
    · exact Nat.le_succ _
  have hpid : (handleStatePidSection data node).subelementsCount ≤ data.subelementsCount + 1 := by
    unfold handleStatePidSection
    split
    · exact Nat.le_succ _
    · split
      · exact Nat.le_refl _
      · exact Nat.le_succ _
  simp only [stateHandlers, List.mem_cons, List.not_mem_nil, or_false] at hh
  rcases hh with rfl | rfl | rfl | rfl | rfl | rfl | rfl | rfl | rfl | rfl | rfl | rfl | rfl | rfl
  · exact hplain _ data node
  · exact hplain _ data node
  · exact hpid
  · exact hplain _ data node
  · exact hplain _ data node
  · exact hplain _ data node
  · exact hplain _ data node
  · exact hplain _ data node
  · refine hnested fun data name value => ?_
    split_ifs <;> exact Nat.le_succ _
  · refine hnested fun data name value => ?_
    split_ifs
    · exact Nat.le_refl _
    · exact Nat.le_succ _
  · exact hvm data node
  · exact hproxy data node
  · refine hnested fun data name value => ?_
    dsimp only
    split_ifs
    · exact Nat.le_refl _
    · exact Nat.le_refl _
    · exact Nat.le_succ _
  · exact hnested fun data name value => Nat.le_succ _

/-- **A section** is counted as often as it has nodes that may be counted. -/
theorem count_foldl_le (hh : h ∈ stateHandlers) (cs : List GNode) (data : HandlerData) :
    (cs.foldl h.handleSection data).subelementsCount ≤
      data.subelementsCount + cs.countP (mayCount h.name) := by
  induction cs generalizing data with
  | nil => exact Nat.le_refl _
  | cons c cs ih =>
    have hone := count_handleSection_le hh data c
    have hrest := ih (h.handleSection data c)
    rw [List.foldl_cons, List.countP_cons]
    omega

/-- What the sections of a name have together. -/
def sectionNodes (name : String) (nodes : List GNode) : List GNode :=
  (nodes.filter fun node => node.data = some name).flatMap GNode.children

theorem find?_stateHandlers (hh : h ∈ stateHandlers) :
    (stateHandlers.find? fun h' => h'.name = h.name) = some h := by
  simp only [stateHandlers, List.mem_cons, List.not_mem_nil, or_false] at hh
  rcases hh with rfl | rfl | rfl | rfl | rfl | rfl | rfl | rfl | rfl | rfl | rfl | rfl | rfl |
    rfl <;> rfl

/-- **One section** adds to the count of its own handler only. -/
theorem counts_handleStateSections_le (hh : h ∈ stateHandlers) {r r' : Reading} {node : GNode}
    (hnode : handleStateSections r node = some r') :
    r'.counts h.name ≤
      r.counts h.name + (sectionNodes h.name [node]).countP (mayCount h.name) := by
  unfold handleStateSections at hnode
  cases hdata : node.data with
  | none =>
    rw [hdata] at hnode
    cases hnode
    exact Nat.le_add_right _ _
  | some name =>
    rw [hdata] at hnode
    dsimp only at hnode
    by_cases hname : name = h.name
    · subst hname
      rw [find?_stateHandlers hh] at hnode
      cases hnode
      have hnodes : sectionNodes h.name [node] = node.children := by
        simp [sectionNodes, hdata]
      simpa [hnodes] using count_foldl_le hh node.children ⟨r.state, r.counts h.name⟩
    · have hsame : r'.counts h.name = r.counts h.name := by
        split at hnode
        · cases hnode
          exact Function.update_of_ne (Ne.symm hname) _ _
        · split_ifs at hnode
          · obtain ⟨st, -, rfl⟩ := Option.map_eq_some_iff.1 hnode
            rfl
          · cases hnode
            rfl
      rw [hsame]
      exact Nat.le_add_right _ _

/-- **All sections.** -/
theorem counts_foldlM_le (hh : h ∈ stateHandlers) :
    ∀ {nodes : List GNode} {r r' : Reading}, nodes.foldlM handleStateSections r = some r' →
      r'.counts h.name ≤
        r.counts h.name + (sectionNodes h.name nodes).countP (mayCount h.name) := by
  intro nodes
  induction nodes with
  | nil =>
    intro r r' hrun
    cases hrun
    exact Nat.le_refl _
  | cons node nodes ih =>
    intro r r' hrun
    rw [List.foldlM_cons] at hrun
    obtain ⟨r₁, hnode, hrest⟩ := Option.bind_eq_some_iff.1 hrun
    have hone := counts_handleStateSections_le hh hnode
    have hall := ih hrest
    have hsplit : sectionNodes h.name (node :: nodes) =
        sectionNodes h.name [node] ++ sectionNodes h.name nodes := by
      rw [sectionNodes, sectionNodes, sectionNodes, ← List.flatMap_append, ← List.filter_append]
      rfl
    rw [hsplit, List.countP_append]
    omega

/-- A file that is accepted has enough nodes in each section. -/
theorem needed_le_of_stateFileRead {doc : Json} {st : OciState}
    (hread : stateFileRead doc = some st) (hh : h ∈ stateHandlers) : h.subelementsNeeded ≤
      (sectionNodes h.name (jsonParseAux false doc)).countP (mayCount h.name) := by
  unfold stateFileRead at hread
  split at hread
  · cases hread
  · next r hrun =>
    split_ifs at hread with hall
    have hneeded := of_decide_eq_true (List.all_eq_true.1 hall h hh)
    have hcount := counts_foldlM_le hh hrun
    exact Nat.le_trans hneeded (Nat.le_trans hcount (Nat.le_of_eq (Nat.zero_add _)))

end

/-! ## Objects -/

section
variable {ms : List (String × Json)} {name : String} {names : List String}

/-- The nodes of a section are those of its members. -/
theorem sectionNodes_obj (name : String) (ms : List (String × Json)) :
    sectionNodes name (jsonParseAux false (.obj ms)) =
      (ms.filter fun m => m.1 = name).flatMap fun m => jsonParseAux false m.2 := by
  rw [jsonParseAux, jsonParseMembers_eq_map, sectionNodes,
    List.filter_cons_of_neg (by simp [blankNode]), List.filter_map, List.flatMap_map]
  have hdata : ((fun node : GNode => decide (node.data = some name)) ∘ memberNode) =
      fun m => decide (m.1 = name) := by
    funext m
    simp [memberNode]
  rw [hdata]
  rfl

/-- A section that has nodes is a member. -/
theorem mem_of_sectionNodes_obj (h : sectionNodes name (jsonParseAux false (.obj ms)) ≠ []) :
    name ∈ ms.map Prod.fst := by
  rw [sectionNodes_obj] at h
  obtain ⟨node, hnode⟩ := List.exists_mem_of_ne_nil _ h
  obtain ⟨m, hm, -⟩ := List.mem_flatMap.1 hnode
  obtain ⟨hmem, hname⟩ := List.mem_filter.1 hm
  exact List.mem_map.2 ⟨m, hmem, of_decide_eq_true hname⟩

/-- The nodes of a section are those of its only member. -/
theorem sectionNodes_obj_of_mem {v : Json} (hnames : (ms.map Prod.fst).Nodup)
    (hv : (name, v) ∈ ms) :
    sectionNodes name (jsonParseAux false (.obj ms)) = jsonParseAux false v := by
  have hfilter : (ms.filter fun m => m.1 = name) = [(name, v)] := by
    refine List.perm_singleton.1 ?_
    refine (List.perm_ext_iff_of_nodup ((List.Nodup.of_map _ hnames).filter _)
      (List.nodup_singleton _)).2 fun m => ?_
    rw [List.mem_filter, List.mem_singleton, decide_eq_true_eq]
    constructor
    · rintro ⟨hm, rfl⟩
      exact List.inj_on_of_nodup_map hnames hm hv rfl
    · rintro rfl
      exact ⟨hv, rfl⟩
  rw [sectionNodes_obj, hfilter, List.flatMap_singleton]

/-- Names that are counted as often as there are names to count are all there. -/
theorem subset_of_countP (hnames : (ms.map Prod.fst).Nodup)
    (h : names.length ≤ ms.countP fun m => m.1 ∈ names) : HasNames names ms := by
  have hsub : ((ms.map Prod.fst).filter (· ∈ names)) ⊆ names := fun n hn =>
    of_decide_eq_true (List.mem_filter.1 hn).2
  have hlen : names.length ≤ ((ms.map Prod.fst).filter (· ∈ names)).length := by
    rw [← List.countP_eq_length_filter, List.countP_map]
    exact h
  have hperm := (List.subperm_of_subset (hnames.filter _) hsub).perm_of_length_le hlen
  exact fun n hn => (List.mem_filter.1 (hperm.symm.subset hn)).1

/-- The nodes of an object that are values under some names. -/
theorem countP_valueOf_obj (names : List String) (ms : List (String × Json)) :
    (jsonParseAux false (.obj ms)).countP (ValueOf names) =
      ms.countP fun m => ValueOf names (memberNode m) := by
  rw [jsonParseAux, jsonParseMembers_eq_map, List.countP_cons_of_neg (by simp [ValueOf, blankNode,
      GNode.namedValue]), List.countP_map]
  rfl

theorem valueOf_memberNode {m : String × Json} :
    ValueOf names (memberNode m) = true ↔ m.1 ∈ names ∧ HasValue m := by
  unfold ValueOf HasValue GNode.namedValue
  rw [memberNode, GNode.data_mk]
  cases (GNode.mk (some m.1) (jsonParseAux false m.2)).childData with
  | none => simp
  | some value => simp

end

/-- **The complete files among those that are accepted** are those in which what the reader does not
check holds. -/
theorem stateFileRead_complete_iff (doc : Json) (st : OciState) (hnames : distinctNames doc = true)
    (hread : stateFileRead doc = some st) : CompleteState doc ↔ UncheckedState doc := by
  have hneeded := fun (h : StateHandler) (hh : h ∈ stateHandlers) =>
    needed_le_of_stateFileRead hread hh
  constructor
  · rintro ⟨ms, rfl, -, ⟨vm, hvm, -⟩, ⟨proxy, hproxy, hsockets⟩, hstatus⟩
    exact ⟨ms, rfl, ⟨vm, hvm⟩, ⟨proxy, hproxy, fun _ => hsockets⟩, hstatus⟩
  · rintro ⟨ms, rfl, ⟨vm, hvm⟩, ⟨proxy, hproxy, hconsole⟩, hstatus⟩
    obtain ⟨hsections, hmembers⟩ := nodup_of_distinctNames hnames
    refine ⟨ms, rfl, ?_, ⟨vm, hvm, ?_⟩, ⟨proxy, hproxy, ?_⟩, hstatus⟩
    · intro name hname
      obtain ⟨h, hh, rfl, hone⟩ : ∃ h ∈ stateHandlers, h.name = name ∧ 1 ≤ h.subelementsNeeded := by
        revert name
        decide
      refine mem_of_sectionNodes_obj fun hnil => ?_
      have hcount := hneeded h hh
      rw [hnil] at hcount
      exact Nat.not_succ_le_zero 0 (Nat.le_trans hone hcount)
    · have hcount := hneeded ⟨"vm", handleStateVmSection, 6⟩ (by simp [stateHandlers])
      rw [sectionNodes_obj_of_mem hsections hvm] at hcount
      refine subset_of_countP (hmembers "vm" vm hvm) (Nat.le_trans hcount ?_)
      refine (countP_valueOf_obj vmNames vm).trans_le (List.countP_mono_left fun m _ hm => ?_)
      exact decide_eq_true (valueOf_memberNode.1 hm).1
    · by_cases hvalue : ∃ v, ("consoleSocket", v) ∈ proxy ∧ HasValue ("consoleSocket", v)
      · exact hconsole hvalue
      -- the two values that are counted have the names that are needed
      have hcount := hneeded ⟨"proxy", handleStateProxySection, 2⟩ (by simp [stateHandlers])
      rw [sectionNodes_obj_of_mem hsections hproxy] at hcount
      refine subset_of_countP (hmembers "proxy" proxy hproxy) (Nat.le_trans hcount ?_)
      refine (countP_valueOf_obj ("consoleSocket" :: proxyNames) proxy).trans_le
        (List.countP_mono_left fun m hmem hm => decide_eq_true ?_)
      obtain ⟨hname, hhas⟩ := valueOf_memberNode.1 hm
      refine (List.mem_cons.1 hname).resolve_left fun hm => hvalue ⟨m.2, ?_⟩
      rw [← hm]
      exact ⟨hmem, hhas⟩

/-- A state file with the status and the members of the proxy. -/
def stateFileWith (status : String) (proxy : List (String × Json)) : Json :=
  .obj [("ociVersion", .str "1.0.0-rc1"), ("id", .str "c1"), ("pid", .int 11),
    ("bundlePath", .str "/bundle"), ("commsPath", .str "/run/c1/hypervisor.sock"),
    ("processPath", .str "/run/c1/process.sock"), ("status", .str status),
    ("created", .str "now"),
    ("vm", .obj (("pid", .int 12) :: (vmNames.take 5).map fun name => (name, .str "/usr"))),
    ("proxy", .obj proxy)]

/-- A VM with two sockets. -/
theorem stateFileRead_complete_sockets :
    let doc := stateFileWith "created" [("ctlSocket", .str "/ctl"), ("ioSocket", .str "/io")]
    ∃ st, stateFileRead doc = some st ∧ (CompleteState doc ↔ UncheckedState doc) := by
  intro doc
  obtain ⟨st, hread⟩ : ∃ st, stateFileRead doc = some st := ⟨_, rfl⟩
  exact ⟨st, hread, stateFileRead_complete_iff doc st (by decide) hread⟩

/-- Two files that are accepted: one without the socket for the streams, one with a status that has
no meaning. -/
theorem stateFileRead_incomplete :
    let console := stateFileWith "created"
      [("ctlSocket", .str "/ctl"), ("consoleSocket", .str "/console")]
    let unknown := stateFileWith "gone" [("ctlSocket", .str "/ctl"), ("ioSocket", .str "/io")]
    ((stateFileRead console).isSome = true ∧ ¬ CompleteState console) ∧
      (stateFileRead unknown).isSome = true ∧ ¬ CompleteState unknown := by
  refine ⟨⟨by decide, ?_⟩, by decide, ?_⟩
  · rintro ⟨ms, hms, -, -, ⟨proxy, hproxy, hsockets⟩, -⟩
    cases hms
    simp only [List.mem_cons, Prod.mk.injEq, List.not_mem_nil, Json.obj.injEq] at hproxy
    have hsocket := hsockets (show "ioSocket" ∈ proxyNames by decide)
    simp_all
  · rintro ⟨ms, hms, -, -, -, s, hs, hstatus⟩
    cases hms
    simp_all [ociStatusMap]

end Runtime

end CcOciRuntime
