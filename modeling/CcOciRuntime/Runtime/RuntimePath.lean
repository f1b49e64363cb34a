import CcOciRuntime.Runtime.Host

/-!
# The container's directory

The runtime keeps the files of a container in a directory below its root directory, which it names
after the container's ID. The ID is an argument of the command line and is not checked: the path is
formatted into a fixed buffer. `runtime_files_below_root` says for which IDs the files lie below the
root directory and the removal of one container leaves another one alone.

Reference: `src/runtime.c:40`, `src/state.c:552`.
-/

namespace CcOciRuntime

namespace Runtime

/-- The path of the state file in a container's directory. Reference: `cc_oci_state_file_get`
(`src/state.c:552`). -/
def stateFileGet (runtimePath : PathBuf) : PathBuf :=
  .copy (runtimePath.text ++ "/" ++ "state.json")

/-- The place that an absolute path means. -/
def place (path : String) : Path := resolve [] (components path)

/-- The directory of all containers: the option `--root`, or the default. -/
def rootDirectory (rootDir : Option String) : String := rootDir.getD runtimeDirPrefix

theorem PathBuf.copy_of_fits {s : String} (h : s.utf8ByteSize < pathMax) :
    (PathBuf.copy s).text = s := by
  rw [PathBuf.copy, dif_pos h]

/-- Filling a buffer with characters that all fit. -/
theorem PathBuf.fill_append (ys : List Char) : ∀ (xs : List Char) (buf : PathBuf)
    (h : (buf.text ++ String.ofList xs).utf8ByteSize < pathMax),
    buf.fill (xs ++ ys) = PathBuf.fill ⟨buf.text ++ String.ofList xs, h⟩ ys
  | [], buf, h => by
    have hempty : buf.text ++ String.ofList [] = buf.text := String.append_empty
    simp only [List.nil_append, hempty]
  | x :: xs, buf, h => by
    have hcons : buf.text ++ String.ofList (x :: xs) = buf.text.push x ++ String.ofList xs := by
      rw [← String.toList_inj]
      simp
    have hfits : (buf.text.push x).utf8ByteSize < pathMax := by
      rw [hcons, String.utf8ByteSize_append] at h
      omega
    rw [List.cons_append, PathBuf.fill, dif_pos hfits,
      PathBuf.fill_append ys xs ⟨buf.text.push x, hfits⟩ (hcons ▸ h)]
    simp only [hcons]

/-- A buffer takes a beginning of the text. -/
theorem PathBuf.fill_text : ∀ (cs : List Char) (buf : PathBuf),
    ∃ us, us <+: cs ∧ (buf.fill cs).text = buf.text ++ String.ofList us
  | [], buf => ⟨[], List.prefix_rfl, String.append_empty.symm⟩
  | c :: cs, buf => by
    rw [PathBuf.fill]
    split_ifs with h
    · obtain ⟨us, hus, htext⟩ := PathBuf.fill_text cs ⟨buf.text.push c, h⟩
      refine ⟨c :: us, List.cons_prefix_cons.2 ⟨rfl, hus⟩, ?_⟩
      rw [htext, ← String.toList_inj]
      simp
    · exact ⟨[], List.nil_prefix, String.append_empty.symm⟩

/-- A text that is copied after the content of a buffer is cut, and the content is kept. -/
theorem PathBuf.copy_append (buf : PathBuf) (s : String) :
    ∃ us, us <+: s.toList ∧ (PathBuf.copy (buf.text ++ s)).text = buf.text ++ String.ofList us := by
  rw [PathBuf.copy]
  split_ifs with h
  · exact ⟨s.toList, List.prefix_rfl, by rw [String.ofList_toList]⟩
  · have hfits : (PathBuf.empty.text ++ String.ofList buf.text.toList).utf8ByteSize < pathMax := by
      rw [String.ofList_toList, PathBuf.empty_text, String.empty_append]
      exact buf.fits
    obtain ⟨us, hus, htext⟩ := PathBuf.fill_text s.toList
      ⟨PathBuf.empty.text ++ String.ofList buf.text.toList, hfits⟩
    refine ⟨us, hus, ?_⟩
    rw [String.toList_append, PathBuf.fill_append s.toList buf.text.toList _ hfits, htext]
    simp

theorem place_append_slash (s t : String) :
    place (s ++ "/" ++ t) = resolve (place s) (components t) := by
  rw [place, components_append_slash, resolve_append, place]

/-- A path that does not fit is cut, whatever follows. -/
theorem PathBuf.copy_append_of_not_fits {s : String} (h : ¬ s.utf8ByteSize < pathMax)
    (t : String) : PathBuf.copy (s ++ t) = PathBuf.copy s := by
  have hfill : ∀ (cs ds : List Char) (buf : PathBuf),
      ¬ (buf.text ++ String.ofList cs).utf8ByteSize < pathMax →
      buf.fill (cs ++ ds) = buf.fill cs := by
    intro cs
    induction cs with
    | nil =>
      intro ds buf hbuf
      rw [String.ofList_nil, String.append_empty] at hbuf
      exact absurd buf.fits hbuf
    | cons c cs ih =>
      intro ds buf hbuf
      rw [List.cons_append, PathBuf.fill, PathBuf.fill]
      split_ifs with hc
      · refine ih ds _ fun hfits => hbuf ?_
        have hcons : buf.text ++ String.ofList (c :: cs) = buf.text.push c ++ String.ofList cs := by
          rw [← String.toList_inj]
          simp
        rwa [hcons]
      · rfl
  have hlong : ¬ (s ++ t).utf8ByteSize < pathMax := by
    rw [String.utf8ByteSize_append]
    omega
  rw [PathBuf.copy, dif_neg hlong, PathBuf.copy, dif_neg h, String.toList_append]
  refine hfill _ _ _ ?_
  rwa [PathBuf.empty_text, String.empty_append, String.ofList_toList]

/-! ## IDs in normal form -/

/-- The directory of all containers, as a place. -/
def rootPlace (rootDir : Option String) : Path := place (rootDirectory rootDir)

/-- The last names of the root directory, which the steps up of the ID leave. -/
def leftNames (rootDir : Option String) (id : String) : Path :=
  (rootPlace rootDir).drop ((rootPlace rootDir).length - (normal (components id)).1)

/-- The ID leads into the root directory: its names enter again what its steps up have left, and at
least one name follows. -/
def InsideId (rootDir : Option String) (id : String) : Prop :=
  StrictlyBelow (leftNames rootDir id) (normal (components id)).2

instance (rootDir : Option String) (id : String) : Decidable (InsideId rootDir id) :=
  inferInstanceAs (Decidable (StrictlyBelow _ _))

/-- The names of the ID that follow. -/
def idNames (rootDir : Option String) (id : String) : Path :=
  (normal (components id)).2.drop (leftNames rootDir id).length

section
variable {rootDir : Option String} {id id' : String}

/-- The ID is followed from the root directory. -/
theorem place_runtimePath (hfits : (rootDirectory rootDir ++ "/" ++ id).utf8ByteSize < pathMax) :
    place (runtimePath rootDir id).text = resolve (rootPlace rootDir) (components id) := by
  have htext : (runtimePath rootDir id).text = rootDirectory rootDir ++ "/" ++ id :=
    PathBuf.copy_of_fits hfits
  rw [htext, place_append_slash]
  rfl

/-- An ID that leads into the root directory, by its normal form. -/
theorem strictlyBelow_iff_insideId
    (hfits : (rootDirectory rootDir ++ "/" ++ id).utf8ByteSize < pathMax) :
    StrictlyBelow (rootPlace rootDir) (place (runtimePath rootDir id).text) ↔
      InsideId rootDir id := by
  rw [place_runtimePath hfits, resolve_eq_normal, InsideId, StrictlyBelow, StrictlyBelow,
    leftNames]
  generalize (rootPlace rootDir).length - (normal (components id)).1 = k
  have hsplit := List.take_append_drop k (rootPlace rootDir)
  generalize hq : (normal (components id)).2 = q
  constructor
  · rintro ⟨hpre, hne⟩
    nth_rewrite 1 [← hsplit] at hpre
    exact ⟨(List.prefix_append_right_inj _).1 hpre, fun h => hne (by rw [← h, hsplit])⟩
  · rintro ⟨hpre, hne⟩
    refine ⟨?_, fun h => hne ?_⟩
    · nth_rewrite 1 [← hsplit]
      exact (List.prefix_append_right_inj _).2 hpre
    · nth_rewrite 1 [← hsplit] at h
      exact List.append_cancel_left h

/-- The directory of an ID that leads into the root directory. -/
theorem InsideId.place_eq (h : InsideId rootDir id)
    (hfits : (rootDirectory rootDir ++ "/" ++ id).utf8ByteSize < pathMax) :
    place (runtimePath rootDir id).text = rootPlace rootDir ++ idNames rootDir id := by
  obtain ⟨⟨names, hnames⟩, -⟩ := h
  rw [place_runtimePath hfits, resolve_eq_normal, idNames, ← hnames, List.drop_left,
    ← List.append_assoc, leftNames, List.take_append_drop]

/-- The state file lies in the container's directory, also if its path is cut. -/
theorem prefix_place_stateFileGet (path : PathBuf) :
    place path.text <+: place (stateFileGet path).text := by
  obtain ⟨us, hus, htext⟩ := path.copy_append ("/" ++ "state.json")
  have hlist : ("/" ++ "state.json").toList = '/' :: "state.json".toList := by decide
  rw [hlist] at hus
  rw [stateFileGet, String.append_assoc, htext]
  obtain rfl | ⟨us', rfl, hus'⟩ := List.prefix_cons_iff.1 hus
  · rw [String.ofList_nil, String.append_empty]
  · have hslash : path.text ++ String.ofList ('/' :: us') =
        path.text ++ "/" ++ String.ofList us' := by
      rw [← String.toList_inj]
      simp
    have hnames : ∀ cs ∈ "state.json".toList.inits,
        ['.', '.'] ∉ components (String.ofList cs) := by decide
    rw [hslash, place_append_slash]
    exact prefix_resolve (hnames us' ((List.mem_inits _ _).2 hus')) _

/-! ## Two containers -/

/-- Nothing that is seen in the directory `p` is seen elsewhere, as it is where something below it
is mounted or is the source of a mount. -/
def Unshared (host : Host) (p : Path) : Prop :=
  ∀ q q', p <+: q → host.real q' = host.real q → p <+: q'

/-- The files of two containers lie below the root directory, in directories of their own, and the
recursive removal of the first directory changes nothing outside of the root directory and nothing
of the second container. -/
structure Separate (rootDir : Option String) (id id' : String) : Prop where
  below : StrictlyBelow (rootPlace rootDir) (place (runtimePath rootDir id).text)
  below' : StrictlyBelow (rootPlace rootDir) (place (runtimePath rootDir id').text)
  stateFile : StrictlyBelow (rootPlace rootDir)
    (place (stateFileGet (runtimePath rootDir id)).text)
  distinct : place (runtimePath rootDir id).text ≠ place (runtimePath rootDir id').text
  removal : ∀ (env : HostEnv) (host : Host) (config : Config),
    config.state.runtimePath = runtimePath rootDir id →
    Unshared host (place (runtimePath rootDir id).text) →
    ∀ q, ¬ StrictlyBelow (rootPlace rootDir) q ∨ place (runtimePath rootDir id').text <+: q →
      (runtimeDirDelete env host config).1.tree.node q = host.tree.node q

/-- IDs that are told apart: both lead into the root directory, to different names, and neither
names are the beginning of the other's, unless `rm` refuses the path. The shell takes the path as it
stands. -/
structure ApartIds (rootDir : Option String) (id id' : String) : Prop where
  inside : InsideId rootDir id
  inside' : InsideId rootDir id'
  names : idNames rootDir id ≠ idNames rootDir id'
  unrelated : FileSystem.RmRefuses (runtimePath rootDir id).text ∨
    ¬ idNames rootDir id <+: idNames rootDir id' ∧ ¬ idNames rootDir id' <+: idNames rootDir id
  shell : ShellPlain (runtimePath rootDir id).text

/-- The path is absolute if its root is. -/
theorem absolute_runtimePath (habs : (rootDirectory rootDir).toList.head? = some '/')
    (hfits : (rootDirectory rootDir ++ "/" ++ id).utf8ByteSize < pathMax) :
    (runtimePath rootDir id).text.toList.head? = some '/' := by
  have htext : (runtimePath rootDir id).text = rootDirectory rootDir ++ "/" ++ id :=
    PathBuf.copy_of_fits hfits
  obtain ⟨cs, hcs⟩ := List.head?_eq_some_iff.1 habs
  rw [htext, String.toList_append, String.toList_append, hcs]
  rfl

theorem runtimeDirDelete_eq {env : HostEnv} {host : Host} {config : Config}
    (hpath : config.state.runtimePath = runtimePath rootDir id)
    (habs : (runtimePath rootDir id).text.toList.head? = some '/') :
    runtimeDirDelete env host config = ociRmRf env host (runtimePath rootDir id).text := by
  rw [runtimeDirDelete, hpath, if_neg (not_not.2 habs)]

/-- What the removal leaves alone. -/
theorem node_ociRmRf {env : HostEnv} {host : Host} {path : String} {q : Path}
    (habs : path.toList.head? = some '/') (hplain : ShellPlain path)
    (hunshared : Unshared host (place path)) (hq : FileSystem.RmRefuses path ∨ ¬ place path <+: q) :
    (ociRmRf env host path).1.tree.node q = host.tree.node q := by
  have horigin : FileSystem.origin env.cwd path = [] := if_pos habs
  obtain hrefuses | hq := hq
  · have hrm : host.rmRf env.cwd path = (host, false) := if_pos hrefuses
    rw [ociRmRf, hrm]
    split_ifs <;> rfl
  · obtain hsame | ⟨hp, hrm⟩ := @ociRmRf_cases env host path hplain
    · rw [hsame]
    · rw [hrm]
      refine FileSystem.rmTree_node_of_unseen hp fun x hx hreal => hq ?_
      rw [horigin] at hx
      exact hunshared x q hx hreal.symm

/-- A host with all directories on the way of a path, in which the removal of the path takes
place. -/
theorem rmRf_spanned {path : String} {p : Path} (ps : List Path)
    (habs : path.toList.head? = some '/') (hrm : ¬ FileSystem.RmRefuses path) (hp : place path ≠ [])
    (hpq : place path <+: p) :
    let host : Host := .ofTree (.spanned (ps ++ (components path).inits.map (resolve [])))
    (host.rmRf [] path).1.tree.node p = none := by
  intro host
  have hne : path ≠ "" := by
    rintro rfl
    cases habs
  have horigin : FileSystem.origin [] path = [] := if_pos habs
  have hway : ∀ ms, ms <+: components path → host.tree.IsDir (resolve [] ms) := fun ms hms =>
    FileTree.spanned_isDir.2 (.inr ⟨_, List.mem_append_right _
      (List.mem_map_of_mem ((List.mem_inits _ _).2 hms)), List.prefix_rfl⟩)
  have hlook : host.lookup [] path = some (place path) := by
    rw [FileSystem.lookup, if_neg hne, horigin]
    refine FileTree.walk_eq_some_iff.2 ⟨rfl, fun ms n hpre => ⟨hway ms ?_, (hway _ hpre).exists⟩⟩
    exact (List.prefix_append _ _).trans hpre
  rw [FileSystem.rmRf, if_neg hrm, hlook]
  dsimp only
  rw [dif_neg hp]
  refine if_neg ?_
  rintro (hseen | ⟨a, ha, -⟩)
  · exact hseen p (Mount.mem_seenAt.2 rfl) hpq
  · cases ha

/-- Where nothing is mounted, nothing is seen twice. -/
theorem unshared_ofTree (t : FileTree (Option Json)) (p : Path) : Unshared (.ofTree t) p := by
  intro q q' hq hreal
  have hqq' : q' = q := hreal
  rwa [hqq']

/-- A place below another one is not the top. -/
theorem ne_nil_of_strictlyBelow {p q : Path} (h : StrictlyBelow p q) : q ≠ [] := by
  rintro rfl
  exact h.2 (List.prefix_nil.1 h.1)

/-- The directory of a container is given to `rm`, by way of the shell. -/
theorem runtimeDirDelete_absolute {env : HostEnv} {host : Host}
    (habs : (runtimePath rootDir id).text.toList.head? = some '/') :
    runtimeDirDelete env host { configCreate with state.runtimePath := runtimePath rootDir id } =
      ociRmRf env host (runtimePath rootDir id).text ∧ (runtimePath rootDir id).text ≠ "" := by
  refine ⟨runtimeDirDelete_eq rfl habs, ?_⟩
  intro hempty
  rw [hempty] at habs
  cases habs

/-- A path that the shell interprets can make it remove everything. -/
theorem Separate.shellPlain (habs : (runtimePath rootDir id).text.toList.head? = some '/')
    (h : Separate rootDir id id') : ShellPlain (runtimePath rootDir id).text := by
  by_contra hplain
  have hnode := h.removal { shell := fun _ _ => (.bare, true) }
    (.ofTree (.spanned [place (runtimePath rootDir id').text]))
    { configCreate with state.runtimePath := runtimePath rootDir id } rfl (unshared_ofTree _ _) _
    (.inr List.prefix_rfl)
  obtain ⟨hdelete, hpath⟩ := runtimeDirDelete_absolute habs
  rw [hdelete, ociRmRf, if_neg hpath, if_pos hplain] at hnode
  have hgone : (FileSystem.bare : Host).tree.node (place (runtimePath rootDir id').text) = none :=
    if_neg (ne_nil_of_strictlyBelow h.below')
  rw [hgone] at hnode
  exact (FileTree.spanned_exists.2 (.inr ⟨_, List.mem_cons_self, List.prefix_rfl⟩)) hnode.symm

/-- On a host with both directories the removal reaches what both paths lead to. -/
theorem Separate.not_both (habs : (runtimePath rootDir id).text.toList.head? = some '/')
    (hrm : ¬ FileSystem.RmRefuses (runtimePath rootDir id).text) (h : Separate rootDir id id')
    {p : Path} (hp' : place (runtimePath rootDir id').text <+: p) :
    ¬ place (runtimePath rootDir id).text <+: p := by
  intro hp
  have hnode := h.removal {} (.ofTree (.spanned ([p] ++
      (components (runtimePath rootDir id).text).inits.map (resolve []))))
    { configCreate with state.runtimePath := runtimePath rootDir id } rfl (unshared_ofTree _ _) p
    (.inr hp')
  obtain ⟨hdelete, hpath⟩ := runtimeDirDelete_absolute habs
  rw [hdelete, ociRmRf, if_neg hpath, if_neg (not_not.2 (h.shellPlain habs)), if_pos rfl] at hnode
  have hgone := rmRf_spanned [p] habs hrm (ne_nil_of_strictlyBelow h.below) hp
  exact (FileTree.spanned_exists.2 (.inr ⟨p, List.mem_cons_self, List.prefix_rfl⟩))
    (hnode.symm.trans hgone)

section
variable (habs : (rootDirectory rootDir).toList.head? = some '/')
  (hfits : (rootDirectory rootDir ++ "/" ++ id).utf8ByteSize < pathMax)
  (hfits' : (rootDirectory rootDir ++ "/" ++ id').utf8ByteSize < pathMax)
include habs hfits hfits'

/-- IDs whose files are separate are told apart. -/
theorem Separate.apartIds (h : Separate rootDir id id') : ApartIds rootDir id id' := by
  have hinside := (strictlyBelow_iff_insideId hfits).1 h.below
  have hinside' := (strictlyBelow_iff_insideId hfits').1 h.below'
  have habs' := absolute_runtimePath habs hfits
  have hplace := hinside.place_eq hfits
  have hplace' := hinside'.place_eq hfits'
  refine ⟨hinside, hinside', fun hnames => h.distinct (by rw [hplace, hplace', hnames]), ?_,
    h.shellPlain habs'⟩
  by_cases hrefuses : FileSystem.RmRefuses (runtimePath rootDir id).text
  · exact .inl hrefuses
  · refine .inr ⟨fun hpre => ?_, fun hpre => ?_⟩
    · refine h.not_both habs' hrefuses List.prefix_rfl ?_
      rw [hplace, hplace']
      exact (List.prefix_append_right_inj _).2 hpre
    · refine h.not_both habs' hrefuses ?_ List.prefix_rfl
      rw [hplace, hplace']
      exact (List.prefix_append_right_inj _).2 hpre

/-- The files of IDs that are told apart are separate. -/
theorem ApartIds.separate (h : ApartIds rootDir id id') : Separate rootDir id id' := by
  have hbelow := (strictlyBelow_iff_insideId hfits).2 h.inside
  have hplace := h.inside.place_eq hfits
  have hplace' := h.inside'.place_eq hfits'
  have hunder : ∀ {q}, place (runtimePath rootDir id).text <+: q →
      StrictlyBelow (rootPlace rootDir) q := by
    intro q hq
    refine ⟨hbelow.1.trans hq, ?_⟩
    rintro rfl
    exact hbelow.2 (hbelow.1.eq_of_length_le hq.length_le)
  refine ⟨hbelow, (strictlyBelow_iff_insideId hfits').2 h.inside',
    hunder (prefix_place_stateFileGet (runtimePath rootDir id)), fun heq => ?_, ?_⟩
  · rw [hplace, hplace'] at heq
    exact h.names (List.append_cancel_left heq)
  · intro env host config hpath hunshared q hq
    have habs' := absolute_runtimePath habs hfits
    rw [runtimeDirDelete_eq hpath habs']
    refine node_ociRmRf habs' h.shell hunshared (h.unrelated.imp_right fun hrel hunderq => ?_)
    obtain hout | hother := hq
    · exact hout (hunder hunderq)
    · obtain hpp | hpp := List.prefix_or_prefix_of_prefix hunderq hother
      · rw [hplace, hplace', List.prefix_append_right_inj] at hpp
        exact hrel.1 hpp
      · rw [hplace, hplace', List.prefix_append_right_inj] at hpp
        exact hrel.2 hpp

end

/-- **The files of containers below the root directory.** For IDs whose paths fit, the directories
and the state file lie below the root directory and the removal of one leaves the other alone
exactly when the IDs are told apart. A path that does not fit is cut, so that longer IDs have the
same directory. -/
theorem runtime_files_below_root (habs : (rootDirectory rootDir).toList.head? = some '/') :
    (∀ id, ¬ (rootDirectory rootDir ++ "/" ++ id).utf8ByteSize < pathMax →
      ∀ s, runtimePath rootDir (id ++ s) = runtimePath rootDir id) ∧
    ∀ id id', (rootDirectory rootDir ++ "/" ++ id).utf8ByteSize < pathMax →
      (rootDirectory rootDir ++ "/" ++ id').utf8ByteSize < pathMax →
      (Separate rootDir id id' ↔ ApartIds rootDir id id') := by
  refine ⟨fun id hlong s => ?_, fun id id' hfits hfits' => ?_⟩
  · have hassoc : rootDirectory rootDir ++ "/" ++ (id ++ s) =
        rootDirectory rootDir ++ "/" ++ id ++ s := (String.append_assoc ..).symm
    exact (congrArg PathBuf.copy hassoc).trans (PathBuf.copy_append_of_not_fits hlong s)
  · exact ⟨Separate.apartIds habs hfits hfits', ApartIds.separate habs hfits hfits'⟩

end

/-- A host with the directories of two containers below `/run/cc`. -/
def twoContainers : Host :=
  .ofTree (.spanned [place "/run/cc/a", place "/run/cc/b", place "/data/x"])

/-- The directory of the container `a` is removed, and that of `b` is not; the ID may be written
with steps that lead back. -/
theorem runtime_files_below_root_a :
    Separate (some "/run/cc") "a" "../cc/x/../b" ∧
    (runtimeDirDelete {} twoContainers
      { configCreate with state.runtimePath := runtimePath (some "/run/cc") "a" }).1.lookup []
        "/run/cc/a" = none := by
  have habs : (rootDirectory (some "/run/cc")).toList.head? = some '/' := by decide
  refine ⟨((runtime_files_below_root habs).2 "a" "../cc/x/../b" (by decide) (by decide)).2
    ⟨by decide, by decide, by decide, .inr (by decide), by decide⟩, by decide +kernel⟩

/-- The ID `..` leads out of the root directory and the empty ID to the root directory itself, whose
removal takes the other containers with it; two IDs can mean one directory. What is mounted below a
container's directory is removed where it is stored. -/
theorem ids_escape_root :
    let root := some "/run/cc"
    let config := { configCreate with state.runtimePath := runtimePath root "" }
    let mounted : Host := ((twoContainers.mkdirs [] (fun _ => true) "/run/cc/a/m").1).mount
      (place "/run/cc/a/m") (place "/data") false (by decide +kernel)
    place (runtimePath root "..").text = place "/run" ∧
    place (runtimePath root "").text = place "/run/cc" ∧
    (runtimeDirDelete {} twoContainers config).2 = true ∧
    twoContainers.lookup [] "/run/cc/b" ≠ none ∧
    (runtimeDirDelete {} twoContainers config).1.lookup [] "/run/cc/b" = none ∧
    place (runtimePath root "a/../b").text = place (runtimePath root "b").text ∧
    mounted.lookup [] "/data/x" ≠ none ∧
    (runtimeDirDelete {} mounted
      { configCreate with state.runtimePath := runtimePath root "a" }).1.lookup []
        "/data/x" = none := by
  decide +kernel

end Runtime

end CcOciRuntime
