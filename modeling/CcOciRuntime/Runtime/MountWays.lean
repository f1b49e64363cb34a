import CcOciRuntime.Runtime.Mounts
import CcOciRuntime.Runtime.RuntimePath

/-!
# The way to a mount

The directory that must be there for a mount is the destination or the directory above it. Before it
is made, its path is cut at its separators from the end until a directory is left, and the last path
that was none is noted. `exists_firstMissing` says what that is.

Reference: `src/mount.c:241-276`.
-/

namespace CcOciRuntime

namespace Runtime

/-! ## Absolute texts -/

section
variable {host host' : Host} {cwd : Path} {text : String}

theorem Absolute.ne_empty (h : Absolute text) : text ≠ "" := by
  rintro rfl
  exact absurd h (by decide)

theorem Absolute.of_prefix {path : String} (h : Absolute path) (hne : text ≠ "")
    (hpre : text.toList <+: path.toList) : Absolute text := by
  obtain ⟨cs, hcs⟩ := hpre
  obtain ⟨c, cs', hc⟩ := List.exists_cons_of_ne_nil (mt String.toList_eq_nil_iff.1 hne)
  rw [Absolute, ← hcs, hc] at h
  rw [Absolute, hc]
  exact h

theorem Absolute.origin (h : Absolute text) : FileSystem.origin cwd text = [] :=
  if_pos h

theorem lookup_absolute (h : Absolute text) :
    host.lookup cwd text = host.tree.walk [] (components text) := by
  rw [FileSystem.lookup, if_neg h.ne_empty, h.origin]

theorem isDir_absolute (h : Absolute text) :
    host.IsDir cwd text ↔
      ∃ p, host.tree.walk [] (components text) = some p ∧ host.tree.IsDir p := by
  rw [FileSystem.IsDir, lookup_absolute h]
  rfl

theorem place_of_lookup (h : Absolute text) {p : Path} (hp : host.lookup cwd text = some p) :
    place text = p := by
  rw [lookup_absolute h] at hp
  exact FileTree.resolve_of_walk hp

theorem isDir_grows (hg : host.tree.Grows host'.tree) (h : host.IsDir cwd text) :
    host'.IsDir cwd text := by
  obtain ⟨p, hp, hdir⟩ := h
  exact ⟨p, FileSystem.lookup_grows hg hp, hg.isDir_of hdir⟩

end

/-! ## The first missing directory -/

/-- The search ends at a missing part below a directory. -/
theorem firstMissing_spec {isDir : List Name → Bool} : ∀ {rs ds : List Name},
    firstMissing isDir rs = some ds → isDir rs.reverse = false →
    ∃ us n, us ≠ [] ∧ ds = us ++ [n] ∧ ds <+: rs.reverse ∧ isDir us = true ∧ isDir ds = false
  | [], _, h, _ => by cases h
  | [_], _, h, _ => by cases h
  | n :: m :: rs, ds, h, hno => by
    rw [firstMissing] at h
    split_ifs at h with hdir
    · obtain rfl := Option.some.inj h
      exact ⟨(m :: rs).reverse, n, by simp, List.reverse_cons, List.prefix_rfl, hdir, hno⟩
    · obtain ⟨us, k, hne, hds, hpre, hus, hnot⟩ := firstMissing_spec h (Bool.not_eq_true _ ▸ hdir)
      refine ⟨us, k, hne, hds, hpre.trans ?_, hus, hnot⟩
      rw [List.reverse_cons (a := n)]
      exact List.prefix_append _ _

/-- It finds one below a directory. -/
theorem firstMissing_ne_none {isDir : List Name → Bool} {ws : List Name} (hne : ws ≠ [])
    (hdir : isDir ws = true) : ∀ {rs : List Name}, ws <+: rs.reverse → ws ≠ rs.reverse →
    firstMissing isDir rs ≠ none
  | [], hpre, _ => absurd (List.prefix_nil.1 hpre) hne
  | [n], hpre, hws => by
    rw [List.reverse_singleton] at hpre hws
    rcases List.prefix_cons_iff.1 hpre with rfl | ⟨t, rfl, ht⟩
    · exact absurd rfl hne
    · exact absurd (by rw [List.prefix_nil.1 ht]) hws
  | n :: m :: rs, hpre, hws => by
    rw [firstMissing]
    split_ifs with hm
    · exact Option.some_ne_none _
    · rw [List.reverse_cons (a := n)] at hpre hws
      obtain heq | hpre := List.prefix_concat_iff.1 hpre
      · exact absurd heq hws
      · refine firstMissing_ne_none hne hdir hpre ?_
        rintro rfl
        exact hm hdir

/-- Some beginning of the text is an existing directory. -/
def Rooted (host : Host) (cwd : Path) (text : String) : Prop :=
  ∃ ws, ws ≠ [] ∧ ws <+: components text ∧ host.IsDir cwd (joinSlash ws)

section
variable {env : HostEnv} {host host' : Host} {path : String}

/-- Nothing is noted for a directory that is there. -/
theorem isDir_of_directoryToCreate_eq_none (hroot : Rooted host env.cwd path)
    (h : directoryToCreate env host path = none) : host.IsDir env.cwd path := by
  by_contra hdir
  obtain ⟨ws, hne, hpre, hws⟩ := hroot
  rw [directoryToCreate, if_neg hdir, Option.map_eq_none_iff] at h
  refine firstMissing_ne_none hne (decide_eq_true hws) ?_ ?_ h
  · rwa [List.reverse_reverse]
  · rw [List.reverse_reverse]
    rintro rfl
    rw [joinSlash_components] at hws
    exact hdir hws

/-- The directory that is noted is the first one on the way that is missing. -/
structure FirstMissing (host : Host) (path d : String) (us rest : List Name) (n : Name)
    (u : Path) : Prop where
  path_eq : components path = us ++ n :: rest
  comps : components d = us ++ [n]
  absolute : Absolute d
  text : d.toList <+: path.toList
  walk : host.tree.walk [] us = some u
  isDir : host.tree.IsDir u
  missing : ¬ host.tree.IsDir (lexStep u n)

theorem FirstMissing.place_eq {d : String} {us rest : List Name} {n : Name} {u : Path}
    (h : FirstMissing host path d us rest n u) : place d = lexStep u n := by
  rw [place, h.comps, resolve_append, FileTree.resolve_of_walk h.walk, resolve_cons, resolve_nil]

theorem FirstMissing.isPrefix {d : String} {us rest : List Name} {n : Name} {u : Path}
    (h : FirstMissing host path d us rest n u) : us ++ [n] <+: components path :=
  ⟨rest, by rw [h.path_eq, List.append_assoc, List.singleton_append]⟩

/-- What is noted is the first missing part. -/
theorem exists_firstMissing {d : String} (habs : Absolute path)
    (hd : directoryToCreate env host path = some d) :
    ∃ us rest n u, FirstMissing host path d us rest n u := by
  unfold directoryToCreate at hd
  split_ifs at hd with hno
  obtain ⟨ds, hds, rfl⟩ := Option.map_eq_some_iff.1 hd
  have hnot : decide (host.IsDir env.cwd (joinSlash (components path).reverse.reverse)) =
      false := by
    rw [List.reverse_reverse, joinSlash_components]
    exact decide_eq_false hno
  obtain ⟨us, n, hne, rfl, hpre, hus, hn⟩ := firstMissing_spec hds hnot
  rw [List.reverse_reverse] at hpre
  have hdir := of_decide_eq_true hus
  have hmissing := of_decide_eq_false hn
  have hpre_us : us <+: components path := (List.prefix_append _ _).trans hpre
  have hcomps : components (joinSlash (us ++ [n])) = us ++ [n] :=
    components_joinSlash_isPrefix (by simp) hpre
  have htext := joinSlash_isPrefix (by simp) hpre
  -- the part that is there already
  have habs_us : Absolute (joinSlash us) := by
    refine habs.of_prefix ?_ (joinSlash_isPrefix hne hpre_us)
    intro hempty
    rw [hempty] at hdir
    obtain ⟨p, hp, -⟩ := hdir
    exact absurd hp (by simp [FileSystem.lookup])
  obtain ⟨u, hwalk, hu⟩ := (isDir_absolute habs_us).1 hdir
  rw [components_joinSlash_isPrefix hne hpre_us] at hwalk
  have habs_d : Absolute (joinSlash (us ++ [n])) := by
    refine habs.of_prefix ?_ htext
    intro hempty
    rw [hempty] at hcomps
    have hlen : 1 = us.length + 1 := by simpa [components] using congrArg List.length hcomps
    exact hne (List.length_eq_zero_iff.1 (by omega))
  have hlex : ¬ host.tree.IsDir (lexStep u n) := by
    intro hd
    refine hmissing ((isDir_absolute habs_d).2 ⟨_, ?_, hd⟩)
    rw [hcomps]
    exact FileTree.walk_concat hwalk hu hd.exists
  obtain ⟨rest, hrest⟩ := hpre
  refine ⟨us, rest, n, u, ?_, hcomps, habs_d, htext, hwalk, hu, hlex⟩
  rw [← hrest, List.append_assoc, List.singleton_append]

/-- Removing a directory that was missing under the same table removes all that is stored for it,
and nothing else. -/
theorem rmRf_of_missing {d : String} {us : List Name} {n : Name} {t : FileTree (Option Json)}
    (habs : Absolute d) (hcomps : components d = us ++ [n]) (hplain : Plain n)
    (ht : Mount.Mounted t host.mounts) (hfresh : ¬ t.Exists (host.real (place d)))
    (hfound : host.tree.Exists (place d) → host.lookup env.cwd d ≠ none) (s : Path) :
    (host.rmRf env.cwd d).1.stored.node s =
      if host.real (place d) <+: s then none else host.stored.node s := by
  have hlast : ¬ FileSystem.RmRefuses d := by
    have hlast : FileSystem.lastComponent d = n := by
      rw [FileSystem.lastComponent, hcomps, List.reverse_append, List.reverse_singleton,
        List.singleton_append, List.dropWhile_cons_of_neg (by simpa using hplain.1)]
      rfl
    rw [FileSystem.RmRefuses, hlast]
    exact not_or.2 ⟨hplain.2.1, hplain.2.2⟩
  rw [FileSystem.rmRf, if_neg hlast]
  cases hlook : host.lookup env.cwd d with
  | none =>
    -- nothing is seen there, so nothing is stored
    have hmissing : ¬ host.stored.Exists (host.real (place d)) := fun hex => hfound hex hlook
    split_ifs with hs
    · exact not_not.1 fun hex => hmissing (FileTree.exists_of_prefix hex hs)
    · rfl
  | some p =>
    obtain rfl := place_of_lookup habs hlook
    have hne : place d ≠ [] := by
      rw [place, hcomps, resolve_append, resolve_cons, resolve_nil, lexStep_plain hplain]
      simp
    dsimp only
    rw [dif_neg hne, FileSystem.rmTree_of_missing hne ht hfresh]

/-- Where the directory is then made, what is noted was not there. -/
theorem missing_of_directoryToCreate {d : String} (habs : Absolute path)
    (hd : directoryToCreate env host path = some d)
    (hmk : (mkdirWithParents env host path).2 = true) :
    ∃ us rest n u, FirstMissing host path d us rest n u ∧ Plain n ∧ place d = u ++ [n] ∧
      ¬ host.tree.Exists (place d) := by
  obtain ⟨us, rest, n, u, hfirst⟩ := exists_firstMissing habs hd
  have hplain : Plain n := FileTree.plain_of_not_isDir_lexStep hfirst.isDir hfirst.missing
  have hplace : place d = u ++ [n] := by rw [hfirst.place_eq, lexStep_plain hplain]
  rw [mkdirWithParents, FileSystem.mkdirs, if_neg habs.ne_empty, habs.origin,
    hfirst.path_eq] at hmk
  refine ⟨us, rest, n, u, hfirst, hplain, hplace, ?_⟩
  rw [hplace]
  exact FileSystem.missing_of_mkdirsFrom hfirst.walk hfirst.isDir hfirst.missing hmk

end

/-! ## The directory of a mount -/

section
variable {env : HostEnv} {host : Host} {wd : String}

theorem isDir_slash (host : Host) (cwd : Path) : host.IsDir cwd "/" := by
  have habs : Absolute "/" := by decide
  have hplace : resolve [] (components "/") = [] := by decide
  have hwalk := FileTree.walk_of_isDir (t := host.tree) (p := []) (by decide)
    (hplace ▸ host.tree.root)
  rw [hplace] at hwalk
  exact (isDir_absolute habs).2 ⟨[], hwalk, host.tree.root⟩

/-- The directory of a path is the root, or its components are the first ones of the path. -/
theorem pathGetDirname_cases {path : String} (habs : Absolute path) :
    pathGetDirname path = "/" ∨
      (pathGetDirname path ≠ "" ∧ components (pathGetDirname path) <+: components path) := by
  unfold pathGetDirname
  split
  · rename_i hnil
    -- there is a component before the leading separator and one after it
    obtain ⟨cs, hcs⟩ : ∃ cs, path.toList = '/' :: cs := List.head?_eq_some_iff.1 habs
    rw [components, hcs, List.splitOn_cons_eq_if_modifyHead, if_pos (beq_self_eq_true _)] at hnil
    obtain ⟨n, ns, hns⟩ := List.exists_cons_of_ne_nil (List.splitOn_ne_nil '/' cs)
    rw [hns, List.dropLast_cons_cons] at hnil
    cases hnil
  · split
    · exact .inl rfl
    · rename_i hne
      generalize hrs : (components path).dropLast.reverse.dropWhile (· = []) = rs at hne
      have hpre : rs.reverse <+: components path := by
        have hsuffix := List.dropWhile_suffix (l := (components path).dropLast.reverse) (· = [])
        rw [hrs, ← List.reverse_prefix, List.reverse_reverse] at hsuffix
        exact hsuffix.trans (List.dropLast_prefix _)
      have hcomps : components (joinSlash rs.reverse) = rs.reverse :=
        components_joinSlash_isPrefix (mt List.reverse_eq_nil_iff.1 hne) hpre
      refine .inr ⟨fun hempty => ?_, hcomps.symm ▸ hpre⟩
      -- the last component that is kept is not empty
      have hblank : [[]] = rs := by
        rw [hempty] at hcomps
        simpa [components] using congrArg List.reverse hcomps
      have hhead := List.head?_dropWhile_not (· = []) (components path).dropLast.reverse
      rw [hrs, ← hblank] at hhead
      simp at hhead

/-- A path whose components are first ones of a path below an existing directory begins with an
existing directory. -/
theorem rooted_of_prefix {path : String} {ns : List Name} (hwd : Absolute wd)
    (hdir : host.IsDir env.cwd wd) (hns : components wd <+: ns) (hne : path ≠ "")
    (hpre : components path <+: ns) : Rooted host env.cwd path := by
  obtain hshort | hlong := List.prefix_or_prefix_of_prefix hpre hns
  · refine ⟨components path, components_ne_nil path, List.prefix_rfl, ?_⟩
    have htext := joinSlash_isPrefix (components_ne_nil path) hshort
    rw [joinSlash_components] at htext ⊢
    obtain ⟨p, hwalk, hp⟩ := (isDir_absolute hwd).1 hdir
    obtain ⟨ns, hns⟩ := hshort
    rw [← hns] at hwalk
    exact (isDir_absolute (hwd.of_prefix hne htext)).2 (FileTree.isDir_of_walk_append hwalk hp)
  · refine ⟨components wd, components_ne_nil wd, hlong, ?_⟩
    rwa [joinSlash_components]

end

/-! ## The destination -/

section
variable {env : HostEnv} {host : Host} {wd : String}

theorem Absolute.append {s : String} (h : Absolute wd) : Absolute (wd ++ s) := by
  obtain ⟨cs, hcs⟩ := List.head?_eq_some_iff.1 h
  rw [Absolute, String.toList_append, hcs]
  rfl

/-- A destination is absolute, however it is cut. -/
theorem absolute_destination (hwd : Absolute wd) (dir : String) :
    Absolute (destination wd dir) := by
  have habs : Absolute (wd ++ dir) := hwd.append
  rw [destination, PathBuf.copy]
  split_ifs with hfits
  · exact habs
  · obtain ⟨cs, hcs⟩ := List.head?_eq_some_iff.1 habs
    have hslash : (PathBuf.empty.text ++ String.ofList ['/']).utf8ByteSize < pathMax := by decide
    obtain ⟨us, -, htext⟩ := PathBuf.fill_text cs ⟨_, hslash⟩
    have hfill := PathBuf.fill_append cs ['/'] PathBuf.empty hslash
    rw [List.singleton_append] at hfill
    rw [hcs, hfill, htext]
    simp [Absolute]

/-- A destination is the workload directory with a way that only leads down, but for its last step
if the buffer cuts it off. -/
theorem components_destination (buf : PathBuf) {dir : String} (habs : Absolute dir) :
    ∃ ws, components (destination buf.text dir) = components buf.text ++ ws ∧
      (['.', '.'] ∉ components dir → ['.', '.'] ∉ ws.dropLast) := by
  obtain ⟨cs, hcs⟩ := List.head?_eq_some_iff.1 habs
  have hdir : dir = "" ++ "/" ++ String.ofList cs := by
    apply String.toList_inj.1
    simp [hcs]
  obtain ⟨us, hus, htext⟩ := PathBuf.copy_append buf dir
  rw [destination, htext]
  rw [hcs] at hus
  obtain rfl | ⟨us', rfl, hus'⟩ := List.prefix_cons_iff.1 hus
  · refine ⟨[], ?_, fun _ => List.not_mem_nil⟩
    rw [String.ofList_nil, String.append_empty, List.append_nil]
  · refine ⟨components (String.ofList us'), ?_, fun hup hmem => hup ?_⟩
    · rw [← components_append_slash, String.append_assoc, String.ofList_cons]
      rfl
    · have hpre : (components (String.ofList us')).dropLast <+: components (String.ofList cs) :=
        dropLast_components_isPrefix (by rwa [String.toList_ofList])
      rw [hdir, components_append_slash]
      exact List.mem_append_right _ (hpre.subset hmem)

theorem exists_getWorkloadDir (config : Config) :
    ∃ buf : PathBuf, getWorkloadDir config = buf.text := by
  unfold getWorkloadDir
  split
  · exact ⟨_, rfl⟩
  · exact ⟨_, rfl⟩

/-- The directory of a mount is the root, or it leads to the destination. -/
theorem mountDirectory_cases {dest : String} (habs : Absolute dest) (host : Host) (m : MountSpec) :
    mountDirectory env host m dest = "/" ∨ Absolute (mountDirectory env host m dest) ∧
      components (mountDirectory env host m dest) <+: components dest := by
  rw [mountDirectory]
  split_ifs
  · refine (pathGetDirname_cases habs).imp_right fun ⟨hne, hpre⟩ => ⟨?_, hpre⟩
    have htext := joinSlash_isPrefix (components_ne_nil _) hpre
    rw [joinSlash_components] at htext
    exact habs.of_prefix hne htext
  · exact .inr ⟨habs, List.prefix_rfl⟩

theorem absolute_mountDirectory {dest : String} (habs : Absolute dest) (host : Host)
    (m : MountSpec) : Absolute (mountDirectory env host m dest) := by
  obtain hslash | ⟨h, -⟩ := @mountDirectory_cases env dest habs host m
  · rw [hslash]
    decide
  · exact h

/-- The directory of a mount begins with an existing directory if the workload directory is
there. -/
theorem rooted_mountDirectory {dest : String} {m : MountSpec} (habs : Absolute dest)
    (hwd : Absolute wd) (hpre : components wd <+: components dest)
    (hdir : host.IsDir env.cwd wd) :
    Rooted host env.cwd (mountDirectory env host m dest) := by
  obtain hslash | ⟨hdabs, hdpre⟩ := @mountDirectory_cases env dest habs host m
  · rw [hslash]
    refine ⟨components "/", by decide, List.prefix_rfl, ?_⟩
    rw [joinSlash_components]
    exact isDir_slash host env.cwd
  · exact rooted_of_prefix hwd hdir hpre hdabs.ne_empty hdpre

end

end Runtime

end CcOciRuntime
