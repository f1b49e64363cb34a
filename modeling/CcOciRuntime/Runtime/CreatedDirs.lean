import CcOciRuntime.Runtime.Unmounts

/-!
# The directory that is noted for a mount

Before the directory of a mount is made, the path is cut at its separators from the end until a
directory is left, and the last path that was none is noted; the state file keeps it for the
removal. A mount keeps what was noted for it when the command fails later. `directoryCreated_spec`
says what is noted for each mount that is reached, and that removing it right then leaves the files
as they were before the directories of the mount were made. When all is unmounted, what later mounts
have made below it goes with it (`removal_takes_later_directories`).

Reference: `cc_oci_handle_mounts` (`src/mount.c:216`).
-/

namespace CcOciRuntime

namespace Runtime

/-- The mounts behind a list that was made are handled on the host that it left. -/
theorem handleMountList_append {env : HostEnv} {dryRun : Bool} {wd : String}
    {more : List MountSpec} : ∀ {specs : List MountSpec} {host host₁ : Host}
    {kept : List CcOciMount}, handleMountList env dryRun wd host specs = (host₁, kept, true) →
    kept.length = specs.length ∧ (handleMountList env dryRun wd host (specs ++ more)).2.1 =
      kept ++ (handleMountList env dryRun wd host₁ more).2.1
  | [], host, host₁, kept, h => by
    obtain ⟨rfl, hkept⟩ := Prod.mk.inj h
    obtain ⟨rfl, -⟩ := Prod.mk.inj hkept
    exact ⟨rfl, rfl⟩
  | m :: specs, host, host₁, kept, h => by
    obtain ⟨host₂, m', kept', hmount, hrest, rfl⟩ := handleMountList_cons h
    obtain ⟨hlen, happend⟩ := handleMountList_append hrest
    refine ⟨congrArg (· + 1) hlen, ?_⟩
    rw [List.cons_append, handleMountList, hmount]
    dsimp only
    rw [happend, List.cons_append]

/-! ## The way to the directory of a mount -/

/-- The components lead to a directory. -/
def Leads (host : Host) (ns : List Name) : Prop :=
  ∃ p ∈ host.tree.walk [] ns, host.tree.IsDir p

instance (host : Host) (ns : List Name) : Decidable (Leads host ns) :=
  inferInstanceAs (Decidable (∃ p ∈ host.tree.walk [] ns, host.tree.IsDir p))

/-- Every part of the path is a directory or missing. -/
def Unobstructed (host : Host) (path : String) : Prop :=
  ∀ ms ∈ (components path).inits, Leads host ms ∨ host.tree.walk [] ms = none

instance (host : Host) (path : String) : Decidable (Unobstructed host path) :=
  inferInstanceAs (Decidable (∀ ms ∈ (components path).inits, _))

/-- The path begins with an existing directory, and the way from there only leads down, but for its
last step. -/
def LeadsDown (host : Host) (cwd : Path) (path : String) : Prop :=
  ∃ vs ws, vs ≠ [] ∧ components path = vs ++ ws ∧ host.IsDir cwd (joinSlash vs) ∧
    ['.', '.'] ∉ ws.dropLast

section
variable {env : HostEnv} {host : Host} {cwd : Path} {path d : String} {us rest : List Name}
  {n : Name} {u : Path}

theorem Leads.of_prefix {ms ns : List Name} (h : Leads host ns) (hpre : ms <+: ns) :
    Leads host ms := by
  obtain ⟨p, hwalk, hp⟩ := h
  obtain ⟨rest, rfl⟩ := hpre
  exact FileTree.isDir_of_walk_append hwalk hp

theorem LeadsDown.of_isDir (h : host.IsDir cwd path) : LeadsDown host cwd path := by
  refine ⟨components path, [], components_ne_nil path, (List.append_nil _).symm, ?_, by simp⟩
  rwa [joinSlash_components]

theorem LeadsDown.rooted (h : LeadsDown host cwd path) : Rooted host cwd path := by
  obtain ⟨vs, ws, hne, hpath, hdir, -⟩ := h
  exact ⟨vs, hne, ⟨ws, hpath.symm⟩, hdir⟩

theorem FirstMissing.not_leads (h : FirstMissing host path d us rest n u) :
    ¬ Leads host (us ++ [n]) := by
  rintro ⟨p, hwalk, hp⟩
  have hplace := FileTree.resolve_of_walk hwalk
  rw [resolve_append, FileTree.resolve_of_walk h.walk, resolve_cons, resolve_nil] at hplace
  exact h.missing (hplace ▸ hp)

/-- Beyond the first missing directory the way only leads down. -/
theorem FirstMissing.down (h : FirstMissing host path d us rest n u)
    (habs : Absolute path) (hdown : LeadsDown host cwd path) : ['.', '.'] ∉ rest.dropLast := by
  obtain ⟨vs, ws, hne, hpath, hdir, hup⟩ := hdown
  have hpre : vs <+: components path := ⟨ws, hpath.symm⟩
  have hvs : Leads host vs := by
    have hempty : joinSlash vs ≠ "" := by
      intro hempty
      rw [hempty] at hdir
      obtain ⟨p, hp, -⟩ := hdir
      cases hp
    have hleads := (isDir_absolute (habs.of_prefix hempty (joinSlash_isPrefix hne hpre))).1 hdir
    rwa [components_joinSlash_isPrefix hne hpre] at hleads
  -- so the directory that the path begins with ends before the missing one
  obtain hlong | hshort := List.prefix_or_prefix_of_prefix h.isPrefix hpre
  · exact absurd (hvs.of_prefix hlong) h.not_leads
  · obtain ⟨between, hbetween⟩ := hshort
    have hws : ws = between ++ rest := by
      rw [h.path_eq, List.append_cons, ← hbetween, List.append_assoc] at hpath
      exact (List.append_cancel_left hpath).symm
    intro hmem
    refine hup ?_
    rw [hws, List.dropLast_append_of_ne_nil (List.ne_nil_of_mem (List.mem_of_mem_dropLast hmem))]
    exact List.mem_append_right _ hmem

theorem mem_dropLast_of_isPrefix {ms ns : List Name} (h : ms <+: ns) (hmem : n ∈ ms.dropLast) :
    n ∈ ns.dropLast := by
  obtain ⟨more, rfl⟩ := h
  cases more with
  | nil => rwa [List.append_nil]
  | cons m more =>
    rw [List.dropLast_append_of_ne_nil (List.cons_ne_nil m more)]
    exact List.mem_append_left _ (List.mem_of_mem_dropLast hmem)

/-- The directory that is made for a mount. -/
theorem leadsDown_mountDirectory (buf : PathBuf) {m : MountSpec} (hwd : Absolute buf.text)
    (hdir : host.IsDir env.cwd buf.text) (habs : Absolute m.dir)
    (hup : ['.', '.'] ∉ components m.dir) :
    LeadsDown host env.cwd (mountDirectory env host m (destination buf.text m.dir)) := by
  obtain ⟨ws, hcomps, hdown⟩ := components_destination buf habs
  obtain hslash | ⟨habs', hpre⟩ :=
    @mountDirectory_cases env _ (absolute_destination hwd m.dir) host m
  · rw [hslash]
    exact .of_isDir (isDir_slash host env.cwd)
  · rw [hcomps] at hpre
    obtain hshort | hlong := List.prefix_or_prefix_of_prefix hpre (List.prefix_append _ _)
    · refine .of_isDir ((isDir_absolute habs').2 ?_)
      exact Leads.of_prefix ((isDir_absolute hwd).1 hdir) hshort
    · obtain ⟨ws', hws'⟩ := hlong
      rw [← hws', List.prefix_append_right_inj] at hpre
      refine ⟨_, ws', components_ne_nil _, hws'.symm, ?_,
        fun hmem => hdown hup (mem_dropLast_of_isPrefix hpre hmem)⟩
      rwa [joinSlash_components]

end

/-! ## What is noted -/

/-- `d` is the shortest part of the path that is missing. -/
structure ShortestMissing (host : Host) (path d : String) : Prop where
  part : components d <+: components path
  missing : host.tree.walk [] (components d) = none
  shortest : ∀ ms, ms <+: components path → host.tree.walk [] ms = none → components d <+: ms

/-- What is noted for the directory `dir`: nothing if it is there, and then nothing is made; else
the shortest part of it that is missing. Nothing is then seen at it or below, and removing it leaves
all that is stored, and the mounts, as they were before the directories were made, whether or not
they all were. -/
structure Bookkept (env : HostEnv) (host : Host) (dir : String) (noted : Option String) :
    Prop where
  present : host.lookup env.cwd dir ≠ none →
    noted = none ∧ (mkdirWithParents env host dir).1 = host
  missing : host.lookup env.cwd dir = none →
    ∃ d, noted = some d ∧ ShortestMissing host dir d ∧
      (∀ q, place d <+: q → ¬ host.tree.Exists q) ∧
      ((mkdirWithParents env host dir).1.rmRf env.cwd d).1.mounts = host.mounts ∧
      ∀ s, ((mkdirWithParents env host dir).1.rmRf env.cwd d).1.stored.node s = host.stored.node s

section
variable {env : HostEnv} {host : Host} {path d : String} {us rest : List Name} {n : Name} {u : Path}

theorem FirstMissing.walk_eq_none (h : FirstMissing host path d us rest n u)
    (hway : Unobstructed host path) : host.tree.walk [] (us ++ [n]) = none :=
  (hway _ ((List.mem_inits _ _).2 h.isPrefix)).resolve_left h.not_leads

theorem FirstMissing.fresh (h : FirstMissing host path d us rest n u)
    (hway : Unobstructed host path) : ¬ host.tree.Exists (place d) := by
  intro hex
  rw [h.place_eq] at hex
  cases (h.walk_eq_none hway).symm.trans (FileTree.walk_concat h.walk h.isDir hex)

/-- The first missing part is the shortest. -/
theorem FirstMissing.shortestMissing (h : FirstMissing host path d us rest n u)
    (hway : Unobstructed host path) : ShortestMissing host path d := by
  refine ⟨h.comps ▸ h.isPrefix, h.comps ▸ h.walk_eq_none hway, fun ms hms hnone => ?_⟩
  rw [h.comps]
  obtain hlong | hshort := List.prefix_or_prefix_of_prefix h.isPrefix hms
  · exact hlong
  · obtain rfl | hus := List.prefix_concat_iff.1 hshort
    · exact List.prefix_rfl
    · -- what lies before the missing part is there
      obtain ⟨p, hwalk, -⟩ := Leads.of_prefix ⟨u, h.walk, h.isDir⟩ hus
      cases hnone.symm.trans hwalk

/-- What is made is made at the first missing directory or below it. -/
theorem FirstMissing.makes (h : FirstMissing host path d us rest n u) (habs : Absolute path)
    (hdown : LeadsDown host env.cwd path) :
    FileSystem.Makes (place d <+: ·) host (mkdirWithParents env host path).1 := by
  rw [mkdirWithParents, FileSystem.mkdirs, if_neg habs.ne_empty, habs.origin, h.path_eq,
    h.place_eq, lexStep_plain (FileTree.plain_of_not_isDir_lexStep h.isDir h.missing)]
  exact FileSystem.makes_from h.walk h.isDir h.missing (h.down habs hdown)

/-- Removing the first missing directory undoes the making of the directories. -/
theorem FirstMissing.rmRf_mkdirWithParents (h : FirstMissing host path d us rest n u)
    (habs : Absolute path) (hdown : LeadsDown host env.cwd path) (hway : Unobstructed host path)
    (s : Path) :
    ((mkdirWithParents env host path).1.rmRf env.cwd d).1.stored.node s = host.stored.node s := by
  have hmakes := h.makes habs hdown
  have hfresh : ¬ host.stored.Exists (host.real (place d)) := h.fresh hway
  have hreal := hmakes.real_eq (place d)
  rw [rmRf_of_missing h.absolute h.comps
    (FileTree.plain_of_not_isDir_lexStep h.isDir h.missing) (hmakes.mounts ▸ host.mounted)
    (hreal ▸ hfresh) ?_, hreal]
  · split_ifs with hs
    · exact (not_not.1 fun hex => hfresh (FileTree.exists_of_prefix hex hs)).symm
    · -- what was made is stored below the directory
      by_contra hnew
      obtain ⟨q, ⟨ns, rfl⟩, hq⟩ := hmakes.stored s hnew
      rw [FileSystem.real, host.mounted.real_of_missing (h.fresh hway)] at hq
      exact hs (hq ▸ List.prefix_append _ _)
  · intro hex
    rw [h.place_eq] at hex
    rw [lookup_absolute h.absolute, h.comps,
      FileTree.walk_concat (hmakes.tree.walk h.walk) (hmakes.tree.isDir_of h.isDir) hex]
    exact Option.some_ne_none _

/-- What is noted for a directory whose parts are directories or missing. -/
theorem bookkept_directoryToCreate (habs : Absolute path) (hdown : LeadsDown host env.cwd path)
    (hway : Unobstructed host path) :
    Bookkept env host path (directoryToCreate env host path) := by
  constructor
  · intro hsome
    have hdir : host.IsDir env.cwd path := by
      rw [lookup_absolute habs] at hsome
      exact (isDir_absolute habs).2
        ((hway _ ((List.mem_inits _ _).2 List.prefix_rfl)).resolve_right hsome)
    exact ⟨if_pos hdir, congrArg Prod.fst (FileSystem.mkdirs_of_isDir (env.mkdirOk host) hdir)⟩
  · intro hnone
    cases hd : directoryToCreate env host path with
    | none =>
      obtain ⟨p, hp, -⟩ := isDir_of_directoryToCreate_eq_none hdown.rooted hd
      cases hnone.symm.trans hp
    | some d =>
      obtain ⟨us, rest, n, u, hfirst⟩ := exists_firstMissing habs hd
      refine ⟨d, rfl, hfirst.shortestMissing hway, fun q hq hex => ?_, ?_,
        hfirst.rmRf_mkdirWithParents habs hdown hway⟩
      · exact hfirst.fresh hway (FileTree.exists_of_prefix hex hq)
      · exact (FileSystem.rmRf_mounts _ _ _).trans (FileSystem.mkdirs_mounts _ _)

end

/-- A mount whose directory is made: it is not ignored, and its source is not missing. -/
def MountSpec.Reached (env : HostEnv) (host : Host) (m : MountSpec) : Prop :=
  m.ignored = false ∧ ¬ m.Skipped env host

instance (env : HostEnv) (host : Host) (m : MountSpec) : Decidable (m.Reached env host) :=
  inferInstanceAs (Decidable (_ ∧ _))

/-- What is noted for a mount. -/
theorem directoryCreated_handleMount (env : HostEnv) (dryRun : Bool) (wd : String) (host : Host)
    (m : MountSpec) :
    (handleMount env dryRun wd host m).2.1.directoryCreated =
      if m.Reached env host then
        directoryToCreate env host (mountDirectory env host m (destination wd m.dir))
      else none := by
  cases hign : m.ignored with
  | true =>
    rw [handleMount_ignored hign, if_neg fun h => Bool.false_ne_true (h.1.symm.trans hign)]
  | false =>
    by_cases hskip : m.Skipped env host
    · rw [handleMount_skipped hign hskip, if_neg fun h => h.2 hskip]
    · rw [handleMount_reached hign hskip, if_pos ⟨hign, hskip⟩]

theorem head?_handleMountList (env : HostEnv) (dryRun : Bool) (wd : String) (host : Host)
    (m : MountSpec) (ms : List MountSpec) :
    (handleMountList env dryRun wd host (m :: ms)).2.1.head? =
      some (handleMount env dryRun wd host m).2.1 := by
  rw [handleMountList]
  rcases handleMount env dryRun wd host m with ⟨host₁, kept, _ | _⟩ <;> rfl

/-- **The directory that is noted for a mount.** When the mounts before it are made, the workload
directory is there, the destination of the mount leads down from it, and every part of the mount's
directory is a directory or missing. If the mount is reached, the shortest part that is missing is
noted, or nothing if the directory is there; nothing is there at it or below, and removing it undoes
the making of the directories. -/
theorem directoryCreated_spec {env : HostEnv} {host host₁ : Host} {config : Config}
    {before after : List MountSpec} {m : MountSpec} {kept : List CcOciMount}
    (hbefore : hostHandleMounts env host config before = (host₁, kept, true))
    (hwd : Absolute (getWorkloadDir config)) (hdir : host₁.IsDir env.cwd (getWorkloadDir config))
    (habs : Absolute m.dir) (hup : ['.', '.'] ∉ components m.dir)
    (hway : Unobstructed host₁
      (mountDirectory env host₁ m (destination (getWorkloadDir config) m.dir))) :
    ∃ m', (hostHandleMounts env host config (before ++ m :: after)).2.1[before.length]? = some m' ∧
      (m.Reached env host₁ → Bookkept env host₁
        (mountDirectory env host₁ m (destination (getWorkloadDir config) m.dir))
        m'.directoryCreated) ∧
      (¬ m.Reached env host₁ → m'.directoryCreated = none) := by
  obtain ⟨hlen, hlist⟩ := @handleMountList_append _ _ _ (m :: after) _ _ _ _ hbefore
  refine ⟨(handleMount env config.dryRunMode (getWorkloadDir config) host₁ m).2.1, ?_, ?_, ?_⟩
  · rw [hostHandleMounts, hlist, ← hlen, List.getElem?_append_right le_rfl, Nat.sub_self,
      ← List.head?_eq_getElem?, head?_handleMountList]
  · intro hreached
    rw [directoryCreated_handleMount, if_pos hreached]
    obtain ⟨buf, hbuf⟩ := exists_getWorkloadDir config
    rw [hbuf] at hwd hdir hway ⊢
    exact bookkept_directoryToCreate (absolute_mountDirectory (absolute_destination hwd _) _ _)
      (leadsDown_mountDirectory buf hwd hdir habs hup) hway
  · intro hnot
    rw [directoryCreated_handleMount, if_neg hnot]

/-- A file below a directory that the mount before it made, with a repeated separator and one at the
end. -/
theorem directoryCreated_spec_data :
    let m := bindMount "/f" "/data//y/z/"
    let before := [bindMount "/src" "/data"]
    let host₁ := (hostHandleMounts {} mountHost mountConfig before).1
    (hostHandleMounts {} mountHost mountConfig (before ++ [m])).2.1.map (·.directoryCreated) =
        [some "/w/data", some "/w/data//y"] ∧
      host₁.lookup [] "/w/data//y/z" = none ∧
      Bookkept {} host₁ "/w/data//y/z" (some "/w/data//y") := by
  intro m before host₁
  have hnoted : (hostHandleMounts {} mountHost mountConfig (before ++ [m])).2.1.map
      (·.directoryCreated) = [some "/w/data", some "/w/data//y"] := by
    decide +kernel
  have hbefore : hostHandleMounts {} mountHost mountConfig before =
      (host₁, (hostHandleMounts {} mountHost mountConfig before).2.1, true) :=
    Prod.ext rfl (Prod.ext rfl (by decide +kernel))
  have hdir : mountDirectory {} host₁ m (destination (getWorkloadDir mountConfig) m.dir) =
      "/w/data//y/z" := by
    decide +kernel
  obtain ⟨m', hm', hbook, -⟩ := @directoryCreated_spec {} mountHost host₁ mountConfig before [] m _
    hbefore (by decide) (by decide +kernel) (by decide) (by decide) (by decide +kernel)
  refine ⟨hnoted, by decide +kernel, ?_⟩
  have hcreated : some m'.directoryCreated = some (some "/w/data//y") := by
    have hsecond := congrArg (fun noted => noted[before.length]?) hnoted
    rwa [List.getElem?_map, hm'] at hsecond
  rw [← Option.some.inj hcreated, ← hdir]
  exact hbook (by decide +kernel)

/-- Of two mounts side by side, the directory that is noted for the first one also holds the one
that was made for the second. Both are there when all is unmounted, and removing the first removes
both. -/
theorem removal_takes_later_directories :
    let r := hostHandleMounts {} mountHost mountConfig
      [bindMount "/src" "/data/x", bindMount "/src" "/data/y"]
    let unmounted := (unmountList {} r.1 r.2.1).1
    r.2.1.map (·.directoryCreated) = [some "/w/data", some "/w/data/y"] ∧
      (unmountList {} r.1 r.2.1).2 = true ∧ unmounted.IsDir [] "/w/data/y" ∧
      ¬ (unmounted.rmRf [] "/w/data").1.IsDir [] "/w/data/y" := by
  decide +kernel

end Runtime

end CcOciRuntime
