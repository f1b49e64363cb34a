import CcOciRuntime.Runtime.SpecSections

/-!
# The static variables of the section handlers

The handlers of `mounts` and `linux` keep the entry that is being filled in and a flag for an error
in static variables of their files, which outlive a call. Here the two handlers pass these variables
along. Every call leaves no entry behind, however it ends, so a call finds the variables as if it
were the first one, and its result is the one of `mountsHandleSection` and `linuxHandleSection`.

Reference: `src/spec_handlers/mounts.c`, `src/spec_handlers/linux.c`.
-/

namespace CcOciRuntime

namespace Runtime

/-! ## Walking over nodes -/

/-- The static variables of a handler's file. Reference: `current_mount` and `error_detected`
(`src/spec_handlers/mounts.c:24`), `current_ns` and `error_detected` (`linux.c:24`). -/
structure Statics (κ : Type) where
  current : Option κ := none
  errorDetected : Bool := false

/-- A handler at work: the static variables and the list in the configuration. -/
structure Handling (κ β : Type) extends Statics κ where
  entries : List β

namespace Handling

variable {κ β : Type}

/-- The entry is dropped, and nothing more is done in this call. Reference: the label `err` of
`save_current_mount` (`src/spec_handlers/mounts.c:137`) and of `handle_namespaces_section`
(`linux.c:88`). -/
def fail (st : Handling κ β) : Handling κ β := { st with current := none, errorDetected := true }

end Handling

namespace EntryReader

variable {κ β : Type} (r : EntryReader κ β)

/-- Reference: `save_current_mount` (`src/spec_handlers/mounts.c:105`), `save_current_ns`
(`linux.c:34`). -/
def storeCurrent (st : Handling κ β) : Handling κ β :=
  match st.current with
  | none => st
  | some current =>
    match r.save current with
    | some entry => { st with current := none, entries := st.entries ++ [entry] }
    | none => st.fail

/-- Reference: `handle_mounts_section` (`src/spec_handlers/mounts.c:148`),
`handle_namespaces_section` (`linux.c:45`). -/
def visit (st : Handling κ β) (node : GNode) : Handling κ β :=
  if st.errorDetected then st
  else
    match node.data, node.children with
    | none, _ => r.storeCurrent st
    | some _, [] => st
    | some name, _ :: _ =>
      match r.fill (st.current.getD r.blank) name node with
      | some current => { st with current := some current }
      | none => st.fail

/-- The last entry is saved unless there was an error. Reference:
`src/spec_handlers/mounts.c:208-210`, `linux.c:126-128`. -/
def finish (st : Handling κ β) : Handling κ β :=
  if st.errorDetected then st else r.storeCurrent st

/-- The handler at work after the entries `entries` and with the entry `current`, without an
error. -/
def working (st : List β × Option κ) : Handling κ β := { current := st.2, entries := st.1 }

variable {r} {st : List β × Option κ} {nodes : List GNode} {h : Handling κ β}

theorem not_errorDetected_working : ¬ (working st).errorDetected = true := Bool.false_ne_true

theorem storeCurrent_working : r.storeCurrent (working st) =
    match r.saveCurrent st with
    | some st' => working st'
    | none => (working st).fail := by
  obtain ⟨entries, _ | current⟩ := st
  · rfl
  · dsimp only [storeCurrent, saveCurrent, working]
    cases r.save current <;> rfl

/-- A visit while all goes well. -/
theorem visit_working {node : GNode} : r.visit (working st) node =
    match r.handle st node with
    | some st' => working st'
    | none => (working st).fail := by
  obtain ⟨_ | name, children⟩ := node
  · exact storeCurrent_working
  · cases children with
    | nil => rfl
    | cons child children =>
      rw [visit, if_neg not_errorDetected_working, handle]
      dsimp only [GNode.data_mk, GNode.children_mk, working]
      cases r.fill (st.2.getD r.blank) name (.mk (some name) (child :: children)) <;> rfl

/-- After an error nothing happens any more. -/
theorem foldl_visit_of_error (herr : h.errorDetected = true) : nodes.foldl r.visit h = h := by
  induction nodes with
  | nil => rfl
  | cons node nodes ih => rw [List.foldl_cons, visit, if_pos herr, ih]

/-- An error that has dropped the entry. -/
def Failed (h : Handling κ β) : Prop := h.current = none ∧ h.errorDetected = true

theorem failed_fail : Failed h.fail := ⟨rfl, rfl⟩

/-- A walk goes as far as the one that stops at the first error. -/
theorem foldl_visit_of_some {st' : List β × Option κ}
    (hfold : nodes.foldlM r.handle st = some st') :
    nodes.foldl r.visit (working st) = working st' := by
  induction nodes generalizing st with
  | nil => rw [Option.some.inj hfold, List.foldl_nil]
  | cons node nodes ih =>
    obtain ⟨mid, hmid, hrest⟩ := Option.bind_eq_some_iff.1 ((List.foldlM_cons ..).symm.trans hfold)
    rw [List.foldl_cons, visit_working, hmid]
    exact ih hrest

/-- A failure stays. -/
theorem foldl_visit_of_none (hfold : nodes.foldlM r.handle st = none) :
    Failed (nodes.foldl r.visit (working st)) := by
  induction nodes generalizing st with
  | nil => cases hfold
  | cons node nodes ih =>
    rw [List.foldlM_cons] at hfold
    rw [List.foldl_cons, visit_working]
    cases hmid : r.handle st node with
    | none =>
      rw [foldl_visit_of_error rfl]
      exact failed_fail
    | some mid =>
      rw [hmid] at hfold
      exact ih hfold

theorem snd_of_saveCurrent {st' : List β × Option κ} (hsave : r.saveCurrent st = some st') :
    st'.2 = none := by
  rw [saveCurrent_eq] at hsave
  obtain ⟨entry, -, rfl⟩ := Option.map_eq_some_iff.1 hsave
  rfl

variable {entries es : List β}

/-- **A walk to its end** comes to the entries that are read, and leaves none behind. -/
theorem finish_walk_of_some (hread : r.read entries nodes = some es) :
    r.finish (nodes.foldl r.visit (working (entries, none))) = working (es, none) := by
  obtain ⟨st', hst', rfl⟩ := Option.map_eq_some_iff.1 hread
  obtain ⟨st, hfold, hsave⟩ := Option.bind_eq_some_iff.1 hst'
  rw [foldl_visit_of_some hfold, finish, if_neg not_errorDetected_working, storeCurrent_working,
    hsave, ← snd_of_saveCurrent hsave]

/-- A walk over entries that cannot be read fails, and leaves none behind either. -/
theorem finish_walk_of_none (hread : r.read entries nodes = none) :
    Failed (r.finish (nodes.foldl r.visit (working (entries, none)))) := by
  have hnone := Option.map_eq_none_iff.1 hread
  cases hfold : nodes.foldlM r.handle (entries, none) with
  | none =>
    have hfailed := foldl_visit_of_none hfold
    rw [finish, if_pos hfailed.2]
    exact hfailed
  | some st =>
    rw [hfold, Option.bind_some] at hnone
    rw [foldl_visit_of_some hfold, finish, if_neg not_errorDetected_working,
      storeCurrent_working, hnone]
    exact failed_fail

/-- An entry is not kept beside an error. -/
def Sane (h : Handling κ β) : Prop := h.errorDetected = true → h.current = none

theorem Failed.sane (hfailed : Failed h) : Sane h := fun _ => hfailed.1

theorem sane_storeCurrent (hsane : Sane h) : Sane (r.storeCurrent h) := by
  rw [storeCurrent]
  split
  · exact hsane
  · split
    · exact fun _ => rfl
    · exact failed_fail.sane

/-- A visit keeps the statics sane. -/
theorem sane_visit (hsane : Sane h) (node : GNode) : Sane (r.visit h node) := by
  rw [visit]
  split_ifs with herr
  · exact hsane
  · split
    · exact sane_storeCurrent hsane
    · exact hsane
    · split
      · exact fun hset => absurd hset herr
      · exact failed_fail.sane

theorem sane_foldl_visit (hsane : Sane h) (nodes : List GNode) :
    Sane (nodes.foldl r.visit h) := by
  induction nodes generalizing h with
  | nil => exact hsane
  | cons node nodes ih => exact ih (sane_visit hsane node)

theorem current_finish (hsane : Sane h) : (r.finish h).current = none := by
  rw [finish]
  split_ifs with herr
  · exact hsane herr
  · rw [storeCurrent]
    split
    · assumption
    · split <;> rfl

/-! ## The members of an object -/

/-- A member without a value is passed over. -/
theorem fillMember_eq (current : Option κ) (m : String × Json) :
    r.fillMember current m =
      if hasValue m.2 then (r.fill (current.getD r.blank) m.1 (memberNode m)).map some
      else some current := by
  rw [fillMember]
  cases hnodes : jsonParseAux false m.2 with
  | nil => rw [if_neg (by rw [jsonParseAux_eq_nil.1 hnodes]; exact Bool.false_ne_true)]
  | cons node nodes =>
    have hvalue : hasValue m.2 = true := by
      rw [← Bool.not_eq_false, ← jsonParseAux_eq_nil, hnodes]
      exact List.cons_ne_nil _ _
    rw [if_pos hvalue]

/-- **One part of an entry.** A part that only the member `k` changes is what that member makes of
it, if it has a value. -/
theorem proj_of_foldlM_fillMember {γ : Type} (proj : κ → γ) (k : String) (upd : GNode → γ → γ)
    (hk : ∀ c node c', r.fill c k node = some c' → proj c' = upd node (proj c))
    (hother : ∀ c n node c', n ≠ k → r.fill c n node = some c' → proj c' = proj c)
    {ms : List (String × Json)} (hnodup : (ms.map Prod.fst).Nodup) {current current' : Option κ}
    (hfold : ms.foldlM r.fillMember current = some current') :
    proj (current'.getD r.blank) =
      ((Json.find k ms).filter hasValue).elim (proj (current.getD r.blank)) fun v =>
        upd (memberNode (k, v)) (proj (current.getD r.blank)) := by
  have hmember : ∀ (c : Option κ) m c', m.1 ≠ k → r.fillMember c m = some c' →
      proj (c'.getD r.blank) = proj (c.getD r.blank) := by
    intro c m c' hm h
    rw [fillMember_eq] at h
    split_ifs at h
    · obtain ⟨entry, hentry, rfl⟩ := Option.map_eq_some_iff.1 h
      exact hother _ _ _ _ hm hentry
    · rw [Option.some.inj h]
  obtain ⟨hfind, hsame⟩ | ⟨v, a, b, hfind, hfill, ha, hb⟩ :=
    Json.proj_foldlM_find (fun c : Option κ => proj (c.getD r.blank)) hmember hnodup hfold
  · rw [hfind]
    exact hsame
  · rw [fillMember_eq] at hfill
    rw [hfind, Option.filter_some, hb, ← ha]
    split_ifs at hfill ⊢ with hvalue
    · obtain ⟨entry, hentry, rfl⟩ := Option.map_eq_some_iff.1 hfill
      exact hk _ _ _ hentry
    · rw [Option.some.inj hfill]
      rfl

/-- An entry is begun by the first member with a value. -/
theorem isSome_of_foldlM_fillMember {ms : List (String × Json)} {current current' : Option κ}
    (hfold : ms.foldlM r.fillMember current = some current') :
    current'.isSome = (current.isSome || ms.any fun m => hasValue m.2) := by
  induction ms generalizing current with
  | nil => rw [Option.some.inj hfold, List.any_nil, Bool.or_false]
  | cons m ms ih =>
    obtain ⟨mid, hmid, hrest⟩ := Option.bind_eq_some_iff.1 ((List.foldlM_cons ..).symm.trans hfold)
    rw [fillMember_eq] at hmid
    rw [ih hrest, List.any_cons]
    split_ifs at hmid with hvalue
    · obtain ⟨c, -, rfl⟩ := Option.map_eq_some_iff.1 hmid
      rw [hvalue, Option.isSome_some, Bool.true_or, Bool.or_true]
    · obtain rfl := Option.some.inj hmid
      rw [Bool.eq_false_iff.2 hvalue, Bool.false_or]

/-- An entry of which only the member `k` can be refused. -/
theorem isSome_foldlM_fillMember (k : String) (ok : GNode → Bool)
    (hk : ∀ c node, (r.fill c k node).isSome = ok node)
    (hother : ∀ c n node, n ≠ k → (r.fill c n node).isSome = true)
    {ms : List (String × Json)} (hnodup : (ms.map Prod.fst).Nodup) (current : Option κ) :
    (ms.foldlM r.fillMember current).isSome =
      ((Json.find k ms).filter hasValue).elim true fun v => ok (memberNode (k, v)) := by
  induction ms generalizing current with
  | nil => rfl
  | cons m ms ih =>
    obtain ⟨n, v⟩ := m
    rw [List.map_cons, List.nodup_cons] at hnodup
    have hrest := ih hnodup.2
    rw [List.foldlM_cons, fillMember_eq, Json.find_cons]
    by_cases hn : n = k
    · subst hn
      rw [Json.find_eq_none.2 hnodup.1] at hrest
      rw [if_pos rfl, Option.filter_some]
      split_ifs with hvalue
      · rw [Option.elim_some, ← hk (current.getD r.blank)]
        cases r.fill (current.getD r.blank) n (memberNode (n, v)) with
        | none => rfl
        | some c => exact hrest (some c)
      · exact hrest current
    · rw [if_neg hn]
      split_ifs with hvalue
      · obtain ⟨c, hc⟩ := Option.isSome_iff_exists.1
          (hother (current.getD r.blank) n (memberNode (n, v)) hn)
        rw [hc]
        exact hrest (some c)
      · exact hrest current

end EntryReader

/-! ## The two handlers -/

open EntryReader

/-- A call of the handler of `mounts`, on the mounts of a configuration; the pointers may be null.
It gives the variables, the mounts and the result. Reference: `mounts_handle_section`
(`src/spec_handlers/mounts.c:188`). -/
def mountsHandle (statics : Statics CurrentMount) (root : Option GNode)
    (mounts : Option (List MountSpec)) : Statics CurrentMount × Option (List MountSpec) × Bool :=
  let statics := { statics with errorDetected := false }
  match root, mounts with
  | none, _ => (statics, mounts, false)
  | some _, none => (statics, none, false)
  | some _, some (m :: ms) => (statics, some (m :: ms), true)
  | some root, some [] =>
    let st := mountReader.finish
      (root.children.foldl mountReader.visit { toStatics := statics, entries := [] })
    (st.toStatics, some st.entries, !st.errorDetected)

/-- Reference: `handle_linux_section` (`src/spec_handlers/linux.c:95`). -/
def visitLinux (st : Handling OciCfgNamespace OciCfgNamespace) (node : GNode) :
    Handling OciCfgNamespace OciCfgNamespace :=
  if node.children.isEmpty then st
  else if node.data = some "namespaces" then node.children.foldl namespaceReader.visit st
  else st

/-- A call of the handler of `linux`, on the namespaces of a configuration. Reference:
`linux_handle_section` (`src/spec_handlers/linux.c:109`). -/
def linuxHandle (statics : Statics OciCfgNamespace) (root : Option GNode)
    (namespaces : Option (List OciCfgNamespace)) :
    Statics OciCfgNamespace × Option (List OciCfgNamespace) × Bool :=
  let statics := { statics with errorDetected := false }
  match root, namespaces with
  | none, _ => (statics, namespaces, false)
  | some _, none => (statics, none, false)
  | some root, some nss =>
    let st := namespaceReader.finish
      (root.children.foldl visitLinux { toStatics := statics, entries := nss })
    (st.toStatics, some st.entries, !st.errorDetected)

/-- The variables after some calls of a handler, from the start of the process. -/
def afterCalls {κ β : Type}
    (handle : Statics κ → Option GNode → Option (List β) → Statics κ × Option (List β) × Bool)
    (calls : List (Option GNode × Option (List β))) : Statics κ :=
  calls.foldl (fun statics call => (handle statics call.1 call.2).1) {}

/-- A call that leaves no entry behind when it finds none, repeated. -/
theorem current_afterCalls {κ β : Type}
    {handle : Statics κ → Option GNode → Option (List β) → Statics κ × Option (List β) × Bool}
    (hcall : ∀ statics root entries, statics.current = none →
      (handle statics root entries).1.current = none)
    (calls : List (Option GNode × Option (List β))) : (afterCalls handle calls).current = none := by
  suffices h : ∀ statics : Statics κ, statics.current = none →
      (calls.foldl (fun statics call => (handle statics call.1 call.2).1) statics).current = none
    from h {} rfl
  induction calls with
  | nil => exact fun _ hnone => hnone
  | cons call calls ih => exact fun statics hnone => ih _ (hcall statics call.1 call.2 hnone)

/-- No mount is left behind. -/
theorem current_mountsHandle {statics : Statics CurrentMount} (hnone : statics.current = none)
    (root : Option GNode) (mounts : Option (List MountSpec)) :
    (mountsHandle statics root mounts).1.current = none := by
  unfold mountsHandle
  split
  · exact hnone
  · exact hnone
  · exact hnone
  · exact current_finish (sane_foldl_visit (fun herr => absurd herr Bool.false_ne_true) _)

/-- Visits to the namespaces keep the statics sane. -/
theorem sane_foldl_visitLinux {st : Handling OciCfgNamespace OciCfgNamespace} (hsane : Sane st)
    (nodes : List GNode) : Sane (nodes.foldl visitLinux st) := by
  induction nodes generalizing st with
  | nil => exact hsane
  | cons node nodes ih =>
    refine ih ?_
    rw [visitLinux]
    split_ifs
    · exact hsane
    · exact sane_foldl_visit hsane _
    · exact hsane

theorem current_linuxHandle {statics : Statics OciCfgNamespace} (hnone : statics.current = none)
    (root : Option GNode) (namespaces : Option (List OciCfgNamespace)) :
    (linuxHandle statics root namespaces).1.current = none := by
  unfold linuxHandle
  split
  · exact hnone
  · exact hnone
  · exact current_finish (sane_foldl_visitLinux (fun herr => absurd herr Bool.false_ne_true) _)

/-- **Nothing leaks from call to call**: whatever was called before, a call on a configuration with
the mounts `specs` gives what the handler without static variables gives. -/
theorem mountsHandle_afterCalls (calls : List (Option GNode × Option (List MountSpec)))
    (root : GNode) (specs : List MountSpec) :
    let r := mountsHandle (afterCalls mountsHandle calls) (some root) (some specs)
    match mountsHandleSection specs root with
    | some specs' => r.2 = (some specs', true)
    | none => r.2.2 = false := by
  have hnone : (afterCalls mountsHandle calls).current = none :=
    current_afterCalls (fun _ root mounts h => current_mountsHandle h root mounts) calls
  cases specs with
  | cons m ms => rfl
  | nil =>
    have hstart : ({ current := (afterCalls mountsHandle calls).current, entries := [] } :
        Handling CurrentMount MountSpec) = working ([], none) := by
      rw [hnone]
      rfl
    dsimp only [mountsHandle, mountsHandleSection]
    rw [hstart]
    cases hread : mountReader.read [] root.children with
    | some specs' => rw [finish_walk_of_some hread]; rfl
    | none => exact congrArg not (finish_walk_of_none hread).2

section
variable {ls : List (String × Json)}

/-- Only the namespaces are visited. -/
theorem visitLinux_memberNode (st : Handling OciCfgNamespace OciCfgNamespace) (m : String × Json) :
    visitLinux st (memberNode m) =
      if m.1 = "namespaces" then (jsonParseAux false m.2).foldl namespaceReader.visit st
      else st := by
  simp only [visitLinux, memberNode, GNode.children_mk, GNode.data_mk, Option.some.injEq,
    List.isEmpty_iff]
  split_ifs with hnil
  · rw [hnil]; rfl
  · rfl
  · rfl
  · rfl

/-- Only the namespaces are read. -/
theorem handleLinuxSection_memberNode (nss : List OciCfgNamespace) (m : String × Json) :
    handleLinuxSection nss (memberNode m) =
      if m.1 = "namespaces" then namespaceReader.read nss (jsonParseAux false m.2)
      else some nss := by
  simp only [handleLinuxSection, memberNode, GNode.children_mk, GNode.data_mk, Option.some.injEq,
    List.isEmpty_iff]
  split_ifs with hnil
  · rw [hnil]; rfl
  · rfl
  · rfl
  · rfl

/-- The namespaces of the section of a JSON document. -/
theorem linuxHandleSection_obj (hnodup : (ls.map Prod.fst).Nodup) (nss : List OciCfgNamespace) :
    linuxHandleSection nss (memberNode ("linux", .obj ls)) =
      match Json.find "namespaces" ls with
      | some v => namespaceReader.read nss (jsonParseAux false v)
      | none => some nss := by
  -- the blank node that begins the section has no children
  change (jsonParseMembers ls).foldlM handleLinuxSection nss = _
  rw [jsonParseMembers_eq_map, List.foldlM_map]
  simp only [handleLinuxSection_memberNode]
  exact Json.foldlM_find (fun s e he => if_neg he) hnodup _

/-- The same for the handler of `linux`, on the section of a JSON document. -/
theorem linuxHandle_afterCalls (calls : List (Option GNode × Option (List OciCfgNamespace)))
    (hnodup : (ls.map Prod.fst).Nodup) (nss : List OciCfgNamespace) :
    let root := memberNode ("linux", .obj ls)
    let r := linuxHandle (afterCalls linuxHandle calls) (some root) (some nss)
    match linuxHandleSection nss root with
    | some nss' => r.2 = (some nss', true)
    | none => r.2.2 = false := by
  have hnone : (afterCalls linuxHandle calls).current = none :=
    current_afterCalls (fun _ root nss h => current_linuxHandle h root nss) calls
  have hstart : ({ current := (afterCalls linuxHandle calls).current, entries := nss } :
      Handling OciCfgNamespace OciCfgNamespace) = working (nss, none) := by
    rw [hnone]
    rfl
  have hwalk : (memberNode ("linux", .obj ls)).children.foldl visitLinux (working (nss, none)) =
      match Json.find "namespaces" ls with
      | some v => (jsonParseAux false v).foldl namespaceReader.visit (working (nss, none))
      | none => working (nss, none) := by
    change (jsonParseMembers ls).foldl visitLinux _ = _
    rw [jsonParseMembers_eq_map, List.foldl_map]
    simp only [visitLinux_memberNode]
    exact Json.foldl_find (fun s e he => if_neg he) hnodup _
  dsimp only [linuxHandle]
  rw [hstart, hwalk, linuxHandleSection_obj hnodup]
  cases Json.find "namespaces" ls with
  | none => rfl
  | some v =>
    dsimp only
    cases hread : namespaceReader.read nss (jsonParseAux false v) with
    | some nss' => rw [finish_walk_of_some hread]; rfl
    | none => exact congrArg not (finish_walk_of_none hread).2

end

end Runtime

end CcOciRuntime
