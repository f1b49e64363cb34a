import CcOciRuntime.Lib.Stages
import CcOciRuntime.Runtime.SectionStatics

/-!
# Mounts and namespaces of a configuration

What the handlers of `mounts` and `linux` make of an array of objects, whatever they were called for
before. `mountsHandle_faithful` says that mounts are read as they are described and that an object
without one of the three members that a mount needs is refused. `linuxHandle_sound_iff` says for
which arrays an accepted list of namespaces has a type in every entry: the type is only looked at
where it is given.

Reference: `src/spec_handlers/mounts.c:86-214`, `src/spec_handlers/linux.c:33-136`.
-/

namespace CcOciRuntime

namespace Runtime

open EntryReader

/-! ## Mounts -/

/-- A mount as an object of the section describes it. -/
structure MountEntry where
  destination : String
  type : String
  source : String
  options : Option (List String) := none

namespace MountEntry

/-- The members of an object that describes the mount; there may be others. -/
structure Describes (e : MountEntry) (ms : List (String × Json)) : Prop where
  destination : Json.find "destination" ms = some (.str e.destination)
  type : Json.find "type" ms = some (.str e.type)
  source : Json.find "source" ms = some (.str e.source)
  options : Json.find "options" ms = e.options.map fun os => .arr (os.map .str)

/-- The flags of the options that name one. -/
def flags (os : List String) : List Nat := os.filterMap fun o => mntFlagMap.lookup o

/-- The options that name no flag. -/
def others (os : List String) : List String := os.filter fun o => (mntFlagMap.lookup o).isNone

/-- The mount that is described. -/
def spec (e : MountEntry) : MountSpec where
  fsname := e.source
  dir := e.destination
  type := e.type
  opts := if others (e.options.getD []) = [] then none
    else some (",".intercalate (others (e.options.getD [])))
  flags := (flags (e.options.getD [])).foldl (· ||| ·) 0

end MountEntry

/-- The options one after the other. -/
theorem foldl_handleOptionsSection (os : List String) (st : Nat × List String) :
    (os.map fun s => GNode.mk (some s) [blankNode]).foldl handleOptionsSection st =
      ((MountEntry.flags os).foldl (· ||| ·) st.1, st.2 ++ MountEntry.others os) := by
  induction os generalizing st with
  | nil => exact Prod.ext rfl (List.append_nil _).symm
  | cons o os ih =>
    rw [List.map_cons, List.foldl_cons, ih, handleOptionsSection, GNode.data_mk, mountGetFlagValue,
      Option.bind_some]
    simp only [MountEntry.flags, MountEntry.others, List.filterMap_cons, List.filter_cons]
    cases mntFlagMap.lookup o with
    | some flag => rfl
    | none => exact Prod.ext rfl (List.append_assoc ..)

/-- What an array of options does to the flags and the text of the options of a mount. -/
def optionsUpdate (node : GNode) (p : Nat × Option String) : Nat × Option String :=
  let r := node.children.foldl handleOptionsSection (p.1, [])
  (r.1, if r.2 = [] then p.2 else some (",".intercalate r.2))

/-- The parts of a mount that a member does not change. -/
theorem fillMount_others {c c' : CurrentMount} {n : String} {node : GNode}
    (h : fillMount c n node = some c') :
    (n ≠ "destination" → c'.dir = c.dir) ∧ (n ≠ "type" → c'.type = c.type) ∧
      (n ≠ "source" → c'.fsname = c.fsname) ∧
      (n ≠ "options" → (c'.flags, c'.opts) = (c.flags, c.opts)) := by
  unfold fillMount at h
  split_ifs at h with hdir htype hsource hoptions
  all_goals obtain rfl := Option.some.inj h
  · exact ⟨fun hn => absurd hdir hn, fun _ => rfl, fun _ => rfl, fun _ => rfl⟩
  · exact ⟨fun _ => rfl, fun hn => absurd htype hn, fun _ => rfl, fun _ => rfl⟩
  · exact ⟨fun _ => rfl, fun _ => rfl, fun hn => absurd hsource hn, fun _ => rfl⟩
  · exact ⟨fun _ => rfl, fun _ => rfl, fun _ => rfl, fun hn => absurd hoptions hn⟩
  · exact ⟨fun _ => rfl, fun _ => rfl, fun _ => rfl, fun _ => rfl⟩

section
variable {ms : List (String × Json)} {current : Option CurrentMount}

/-- The members of a mount are never refused one by one. -/
theorem exists_foldlM_fillMount (hnodup : (ms.map Prod.fst).Nodup) :
    ∃ current, ms.foldlM mountReader.fillMember none = some current := by
  have hfill : ∀ c n node, (fillMount c n node).isSome = true := by
    intro c n node
    unfold fillMount
    split_ifs <;> rfl
  refine Option.isSome_iff_exists.1 ((isSome_foldlM_fillMember "" (fun _ => true)
    (fun c node => hfill c "" node) (fun c n node _ => hfill c n node) hnodup none).trans ?_)
  cases (Json.find "" ms).filter hasValue <;> rfl

variable (hnodup : (ms.map Prod.fst).Nodup)
  (hfold : ms.foldlM mountReader.fillMember none = some current)
include hnodup hfold

/-- A part of a mount that is the text of a member. -/
theorem text_of_members (part : CurrentMount → Option String) (k : String)
    (hk : ∀ c node c', fillMount c k node = some c' → part c' = node.childData)
    (hother : ∀ c n node c', n ≠ k → fillMount c n node = some c' → part c' = part c)
    (hblank : part {} = none) : part (current.getD {}) = memberText k ms := by
  have hpart := proj_of_foldlM_fillMember (r := mountReader) part k (fun node _ => node.childData)
    hk hother hnodup hfold
  have hnone : part ((none : Option CurrentMount).getD mountReader.blank) = none := hblank
  rw [hnone, ← memberText_eq] at hpart
  exact hpart

/-- The texts of a mount are those of its members. -/
theorem texts_of_members : (current.getD {}).dir = memberText "destination" ms ∧
    (current.getD {}).type = memberText "type" ms ∧
    (current.getD {}).fsname = memberText "source" ms := by
  refine ⟨text_of_members hnodup hfold CurrentMount.dir _ ?_
      (fun _ _ _ _ hn h => (fillMount_others h).1 hn) rfl,
    text_of_members hnodup hfold CurrentMount.type _ ?_
      (fun _ _ _ _ hn h => (fillMount_others h).2.1 hn) rfl,
    text_of_members hnodup hfold CurrentMount.fsname _ ?_
      (fun _ _ _ _ hn h => (fillMount_others h).2.2.1 hn) rfl⟩
  all_goals
    rintro c node c' ⟨⟩
    rfl

/-- So are its options. -/
theorem options_of_members :
    ((current.getD {}).flags, (current.getD {}).opts) =
      ((Json.find "options" ms).filter hasValue).elim (0, none) fun v =>
        optionsUpdate (memberNode ("options", v)) (0, none) := by
  refine proj_of_foldlM_fillMember (r := mountReader)
    (fun c : CurrentMount => (c.flags, c.opts)) "options" optionsUpdate ?_
    (fun _ _ _ _ hn h => (fillMount_others h).2.2.2 hn) hnodup hfold
  rintro c node c' ⟨⟩
  rfl

end

section
variable {ms : List (String × Json)} {e : MountEntry}

/-- The flags and the text of the options of an array of texts. -/
theorem optionsUpdate_str (os : List String) :
    optionsUpdate (memberNode ("options", .arr (os.map .str))) (0, none) =
      ((MountEntry.flags os).foldl (· ||| ·) 0,
        if MountEntry.others os = [] then none
        else some (",".intercalate (MountEntry.others os))) := by
  have hchildren : (memberNode ("options", .arr (os.map .str))).children =
      os.map fun s => .mk (some s) [blankNode] := jsonParseElements_str os
  rw [optionsUpdate, hchildren, foldl_handleOptionsSection]
  rfl

/-- **An object that describes a mount** is read as that mount. -/
theorem mountReader_object (hnodup : (ms.map Prod.fst).Nodup) (h : e.Describes ms) :
    mountReader.object ms = some (some e.spec) := by
  obtain ⟨current, hfold⟩ := exists_foldlM_fillMount hnodup
  obtain ⟨hdir, htype, hsource⟩ := texts_of_members hnodup hfold
  have hoptions : ((current.getD {}).flags, (current.getD {}).opts) =
      (e.spec.flags, e.spec.opts) := by
    rw [options_of_members hnodup hfold, h.options, MountEntry.spec]
    cases e.options with
    | none => rfl
    | some os =>
      cases os with
      | nil => rfl
      | cons o os => exact optionsUpdate_str (o :: os)
  rw [memberText, h.destination] at hdir
  rw [memberText, h.type] at htype
  rw [memberText, h.source] at hsource
  obtain ⟨hflags, hopts⟩ := Prod.mk.inj hoptions
  have hsome : current.isSome = true := by
    cases current with
    | none => cases hdir
    | some c => rfl
  obtain ⟨c, rfl⟩ := Option.isSome_iff_exists.1 hsome
  rw [Option.getD_some] at hdir htype hsource hflags hopts
  rw [object, hfold, Option.bind_some, saved]
  change (saveMount c).map some = _
  rw [saveMount, hdir, htype, hsource, hflags, hopts]
  rfl

/-- **An object without a member that a mount needs** is refused, if some member has a value. -/
theorem mountReader_object_lacks (hnodup : (ms.map Prod.fst).Nodup)
    (hvalue : ∃ m ∈ ms, hasValue m.2 = true) {k : String}
    (hk : k ∈ ["destination", "type", "source"]) (hlacks : k ∉ ms.map Prod.fst) :
    mountReader.object ms = none := by
  obtain ⟨current, hfold⟩ := exists_foldlM_fillMount hnodup
  obtain ⟨hdir, htype, hsource⟩ := texts_of_members hnodup hfold
  have hsome := isSome_of_foldlM_fillMember hfold
  rw [List.any_eq_true.2 hvalue, Bool.or_true] at hsome
  obtain ⟨c, rfl⟩ := Option.isSome_iff_exists.1 hsome
  rw [Option.getD_some] at hdir htype hsource
  have htext : memberText k ms = none := by rw [memberText, Json.find_eq_none.2 hlacks]; rfl
  have hsave : saveMount c = none := by
    unfold saveMount
    split
    · next dir type fsname hd ht hf =>
      rw [hd] at hdir
      rw [ht] at htype
      rw [hf] at hsource
      simp only [List.mem_cons, List.not_mem_nil, or_false] at hk
      rcases hk with rfl | rfl | rfl
      · cases hdir.trans htext
      · cases htype.trans htext
      · cases hsource.trans htext
    · rfl
  rw [object, hfold, Option.bind_some, saved]
  change (saveMount c).map some = none
  rw [hsave]
  rfl

end

/-- **Mounts are read faithfully**, whatever the handler was called for before. An array of objects
that describe mounts is accepted, with one mount for each object in their order; an array in which
some object has a member with a value but lacks one that a mount needs is refused. -/
theorem mountsHandle_faithful (calls : List (Option GNode × Option (List MountSpec)))
    (mss : List (List (String × Json))) (hobjects : ∀ ms ∈ mss, (ms.map Prod.fst).Nodup) :
    let r := mountsHandle (afterCalls mountsHandle calls)
      (some (memberNode ("mounts", .arr (mss.map .obj)))) (some [])
    (∀ es : List MountEntry, List.Forall₂ MountEntry.Describes es mss →
      r.2 = (some (es.map MountEntry.spec), true)) ∧
    ((∃ ms ∈ mss, (∃ m ∈ ms, hasValue m.2 = true) ∧
      ∃ k ∈ ["destination", "type", "source"], k ∉ ms.map Prod.fst) → r.2.2 = false) := by
  have hcall := mountsHandle_afterCalls calls (memberNode ("mounts", .arr (mss.map .obj))) []
  have hread : mountsHandleSection [] (memberNode ("mounts", .arr (mss.map .obj))) =
      (mss.mapM mountReader.object).map fun es => [] ++ es.reduceOption :=
    mountReader.read_objects [] mss
  rw [hread] at hcall
  constructor
  · intro es hes
    have hboth := (List.forall₂_and_left _ _).2 ⟨hobjects, hes.flip⟩
    have hobject : mss.mapM mountReader.object = some (es.map fun e => some e.spec) :=
      mapM_of_forall₂ (hboth.imp fun _ _ h => mountReader_object h.1 h.2)
    rw [hobject, Option.map_some, reduceOption_map_some] at hcall
    exact hcall
  · rintro ⟨ms, hms, hvalue, k, hk, hlacks⟩
    have hobject := mountReader_object_lacks (hobjects ms hms) hvalue hk hlacks
    rw [mapM_of_none hms hobject] at hcall
    exact hcall

/-- An object of the section: a temporary file system with two flags and two other options. -/
def tmpfsMembers : List (String × Json) :=
  [("destination", .str "/tmp"), ("type", .str "tmpfs"), ("source", .str "tmpfs"),
    ("options", .arr [.str "nosuid", .str "mode=755", .str "noexec", .str "size=64k"])]

/-- The section with an object that is only begun. -/
def begunMounts : GNode := memberNode ("mounts", .arr [.obj [("source", .str "/x")]])

/-- After a call that has failed, the object above is read; beside one without a type it is
refused. -/
theorem mountsHandle_faithful_tmpfs :
    (mountsHandle {} (some begunMounts) (some [])).2.2 = false ∧
    (mountsHandle (afterCalls mountsHandle [(some begunMounts, some [])])
      (some (memberNode ("mounts", .arr [.obj tmpfsMembers]))) (some [])).2 =
        (some [⟨"tmpfs", "/tmp", "tmpfs", some "mode=755,size=64k", 10⟩], true) ∧
    (mountsHandle (afterCalls mountsHandle [(some begunMounts, some [])])
      (some (memberNode ("mounts", .arr [.obj tmpfsMembers,
        .obj [("destination", .str "/d"), ("source", .str "/s")]]))) (some [])).2.2 = false := by
  refine ⟨by decide +kernel, ?_, ?_⟩
  · exact (mountsHandle_faithful [(some begunMounts, some [])] [tmpfsMembers] (by decide)).1
      [⟨"/tmp", "tmpfs", "tmpfs", some ["nosuid", "mode=755", "noexec", "size=64k"]⟩]
      (.cons ⟨rfl, rfl, rfl, rfl⟩ .nil)
  · exact (mountsHandle_faithful [(some begunMounts, some [])]
      [tmpfsMembers, [("destination", .str "/d"), ("source", .str "/s")]] (by decide)).2
      ⟨_, List.mem_cons_of_mem _ List.mem_cons_self, ⟨_, List.mem_cons_self, rfl⟩, "type",
        by decide, by decide⟩

/-! ## Namespaces -/

/-- The namespace that the type of an object names. -/
def nsType (ms : List (String × Json)) : Option OciNamespace :=
  (memberText "type" ms).bind fun type => ociNsMap.lookup type

/-- The path of an object, if it is not empty. -/
def nsPath (ms : List (String × Json)) : Option String :=
  (memberText "path" ms).filter (· ≠ "")

/-- An object has a type, which need not name a namespace. -/
def HasType (ms : List (String × Json)) : Prop :=
  (Json.find "type" ms).any hasValue = true

instance : DecidablePred HasType := fun _ => inferInstanceAs (Decidable (_ = _))

/-- A type that names no namespace. -/
def BadType (ms : List (String × Json)) : Prop := HasType ms ∧ nsType ms = none

section
variable {ms : List (String × Json)}

/-- What a member does to the two parts of a namespace. -/
theorem fillNamespace_parts {c c' : OciCfgNamespace} {n : String} {node : GNode}
    (h : fillNamespace c n node = some c') :
    (c'.type = if n = "type" then node.childData.bind fun type => ociNsMap.lookup type
      else c.type) ∧
    c'.path = if n = "path" then (node.childData.filter (· ≠ "")).or c.path else c.path := by
  unfold fillNamespace at h
  split_ifs at h with htype hpath
  · obtain ⟨t, ht, rfl⟩ := Option.map_eq_some_iff.1 h
    rw [if_pos htype, if_neg (by rw [htype]; decide)]
    exact ⟨ht.symm, rfl⟩
  · rw [if_neg htype, if_pos hpath]
    split at h
    · next path hfilter =>
      obtain rfl := Option.some.inj h
      rw [hfilter]
      exact ⟨rfl, rfl⟩
    · next hfilter =>
      obtain rfl := Option.some.inj h
      rw [hfilter]
      exact ⟨rfl, rfl⟩
  · obtain rfl := Option.some.inj h
    rw [if_neg htype, if_neg hpath]
    exact ⟨rfl, rfl⟩

theorem nsType_eq (ms : List (String × Json)) : nsType ms =
    ((Json.find "type" ms).filter hasValue).elim none fun v =>
      (memberNode ("type", v)).childData.bind fun type => ociNsMap.lookup type := by
  rw [nsType, memberText_eq]
  cases (Json.find "type" ms).filter hasValue <;> rfl

theorem nsPath_eq (ms : List (String × Json)) : nsPath ms =
    ((Json.find "path" ms).filter hasValue).elim none fun v =>
      ((memberNode ("path", v)).childData.filter (· ≠ "")).or none := by
  rw [nsPath, memberText_eq]
  cases (Json.find "path" ms).filter hasValue with
  | none => rfl
  | some v => exact Option.or_none.symm

/-- Only an object that has a type names a namespace with it. -/
theorem hasType_of_nsType (h : (nsType ms).isSome = true) : HasType ms := by
  rw [nsType_eq] at h
  rw [HasType]
  cases hfind : Json.find "type" ms with
  | none =>
    rw [hfind] at h
    cases h
  | some v =>
    rw [hfind, Option.filter_some] at h
    rw [Option.any_some]
    by_contra hvalue
    rw [if_neg hvalue] at h
    cases h

variable (hnodup : (ms.map Prod.fst).Nodup)
include hnodup

/-- An object is refused if it has a bad type. -/
theorem isSome_foldlM_fillNamespace :
    (ms.foldlM namespaceReader.fillMember none).isSome = true ↔ ¬ BadType ms := by
  have hsome := isSome_foldlM_fillMember (r := namespaceReader) "type"
    (fun node => (node.childData.bind fun type => ociNsMap.lookup type).isSome)
    (fun c node => by
      change (fillNamespace c "type" node).isSome = _
      rw [fillNamespace, if_pos rfl, Option.isSome_map])
    (fun c n node hn => by
      change (fillNamespace c n node).isSome = true
      rw [fillNamespace, if_neg hn]
      split_ifs
      · split <;> rfl
      · rfl) hnodup none
  rw [hsome, BadType, HasType, nsType_eq]
  cases Json.find "type" ms with
  | none => simp
  | some v =>
    rw [Option.filter_some]
    split_ifs with hvalue
    · simp [hvalue, Option.isSome_iff_ne_none]
    · simp [hvalue]

theorem namespaceReader_object_bad (hbad : BadType ms) : namespaceReader.object ms = none := by
  have hnone : ms.foldlM namespaceReader.fillMember none = none :=
    Option.not_isSome_iff_eq_none.1 fun h => (isSome_foldlM_fillNamespace hnodup).1 h hbad
  rw [object, hnone, Option.bind_none]

/-- **An object that is not refused** gives an entry with its type, if it has one, and its path. -/
theorem namespaceReader_object (hvalue : ∃ m ∈ ms, hasValue m.2 = true) (hgood : ¬ BadType ms) :
    namespaceReader.object ms = some (some { type := nsType ms, path := nsPath ms }) := by
  obtain ⟨current, hfold⟩ :=
    Option.isSome_iff_exists.1 ((isSome_foldlM_fillNamespace hnodup).2 hgood)
  have hsome := isSome_of_foldlM_fillMember hfold
  rw [List.any_eq_true.2 hvalue, Bool.or_true] at hsome
  obtain ⟨c, rfl⟩ := Option.isSome_iff_exists.1 hsome
  have htype : c.type = nsType ms := by
    refine (proj_of_foldlM_fillMember (r := namespaceReader) OciCfgNamespace.type "type"
      (fun node _ => node.childData.bind fun type => ociNsMap.lookup type) ?_ ?_ hnodup
      hfold).trans (nsType_eq ms).symm
    · exact fun c node c' h => (fillNamespace_parts (n := "type") h).1
    · exact fun c n node c' hn h => (fillNamespace_parts h).1.trans (if_neg hn)
  have hpath : c.path = nsPath ms := by
    refine (proj_of_foldlM_fillMember (r := namespaceReader) OciCfgNamespace.path "path"
      (fun node p => (node.childData.filter (· ≠ "")).or p) ?_ ?_ hnodup
      hfold).trans (nsPath_eq ms).symm
    · exact fun c node c' h => (fillNamespace_parts (n := "path") h).2
    · exact fun c n node c' hn h => (fillNamespace_parts h).2.trans (if_neg hn)
  rw [object, hfold, ← htype, ← hpath]
  rfl

end

/-- **When the namespaces of an accepted section are sound**, whatever the handler was called for
before: an accepted array of objects, each with a value, has a type that names a namespace in every
object, and gives one entry for each in their order, exactly if some object has a type that names
none, or every object has a type. -/
theorem linuxHandle_sound_iff (calls : List (Option GNode × Option (List OciCfgNamespace)))
    (nss : List OciCfgNamespace) (ls : List (String × Json)) (hls : (ls.map Prod.fst).Nodup)
    (mss : List (List (String × Json)))
    (hnamespaces : Json.find "namespaces" ls = some (.arr (mss.map .obj)))
    (hobjects : ∀ ms ∈ mss, (ms.map Prod.fst).Nodup ∧ ∃ m ∈ ms, hasValue m.2 = true) :
    let r := linuxHandle (afterCalls linuxHandle calls) (some (memberNode ("linux", .obj ls)))
      (some nss)
    (r.2.2 = true → (∀ ms ∈ mss, (nsType ms).isSome) ∧
      r.2.1 = some (nss ++ mss.map fun ms => { type := nsType ms, path := nsPath ms })) ↔
    (∃ ms ∈ mss, BadType ms) ∨ ∀ ms ∈ mss, HasType ms := by
  have hcall := linuxHandle_afterCalls calls hls nss
  dsimp only at hcall ⊢
  have hread : linuxHandleSection nss (memberNode ("linux", .obj ls)) =
      (mss.mapM namespaceReader.object).map fun es => nss ++ es.reduceOption := by
    rw [linuxHandleSection_obj hls, hnamespaces]
    exact namespaceReader.read_objects nss mss
  rw [hread] at hcall
  by_cases hbad : ∃ ms ∈ mss, BadType ms
  · obtain ⟨ms, hms, hbad'⟩ := hbad
    rw [mapM_of_none hms (namespaceReader_object_bad (hobjects ms hms).1 hbad')] at hcall
    refine iff_of_true (fun htrue => ?_) (.inl ⟨ms, hms, hbad'⟩)
    exact absurd (hcall.symm.trans htrue) Bool.false_ne_true
  · rw [or_iff_right hbad]
    have hgood : ∀ ms ∈ mss, ¬ BadType ms := fun ms hms h => hbad ⟨ms, hms, h⟩
    rw [mapM_of_forall fun ms hms => namespaceReader_object (hobjects ms hms).1 (hobjects ms hms).2
      (hgood ms hms)] at hcall
    rw [Option.map_some, reduceOption_map_some] at hcall
    obtain ⟨hentries, htrue⟩ := Prod.mk.inj hcall
    constructor
    · exact fun h ms hms => hasType_of_nsType ((h htrue).1 ms hms)
    · intro h _
      refine ⟨fun ms hms => ?_, hentries⟩
      exact Option.isSome_iff_ne_none.2 fun hnone => hgood ms hms ⟨h ms hms, hnone⟩

/-- A section with the namespaces that the objects describe. -/
def linuxMembers (mss : List (List (String × Json))) : List (String × Json) :=
  [("cgroupsPath", .str "/docker"), ("namespaces", .arr (mss.map .obj))]

/-- Two namespaces, one of them with a path. -/
theorem linuxHandle_sound_two :
    let mss : List (List (String × Json)) :=
      [[("type", .str "network"), ("path", .str "/var/run/netns/x")], [("type", .str "pid")]]
    (linuxHandle {} (some (memberNode ("linux", .obj (linuxMembers mss)))) (some [])).2.2 = true →
      (∀ ms ∈ mss, (nsType ms).isSome) ∧
      (linuxHandle {} (some (memberNode ("linux", .obj (linuxMembers mss)))) (some [])).2.1 =
        some ([] ++ mss.map fun ms => { type := nsType ms, path := nsPath ms }) := by
  intro mss
  refine (linuxHandle_sound_iff [] [] (linuxMembers mss) (by decide) mss rfl ?_).2 (.inr ?_)
  · decide
  · decide

/-- An object without a type is accepted, and its entry has none. -/
theorem linuxHandle_no_type :
    (linuxHandle {} (some (memberNode ("linux", .obj (linuxMembers [[("path", .str "/ns")]]))))
        (some [])).2.2 = true ∧
      ((linuxHandle {} (some (memberNode ("linux", .obj (linuxMembers [[("path", .str "/ns")]]))))
        (some [])).2.1.map fun nss => nss.map fun ns => (ns.type, ns.path)) =
        some [(none, some "/ns")] ∧
      nsType [("path", .str "/ns")] = none := by
  decide +kernel

end Runtime

end CcOciRuntime
