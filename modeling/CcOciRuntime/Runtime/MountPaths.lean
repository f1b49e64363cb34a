import CcOciRuntime.Runtime.Unmounts

/-!
# Where mounts are made

The destination of a mount is written after the workload directory without a separator and without a
look at its components, so it need not lie below that directory. `mounts_confined_iff` says when
everything that mounting makes or mounts on, and everything that unmounting removes later, lies in
the workload directory: each mount, on the host that it meets, must stay inside (`StaysInside`). The
directory that is noted for the removal is later given to a shell, so it also has to be one that the
shell takes as it stands.

Reference: `cc_oci_handle_mounts` (`src/mount.c:216`), `cc_oci_handle_unmounts` (`src/mount.c:330`).
-/

namespace CcOciRuntime

namespace Runtime

/-! ## What is done below a place -/

/-- What is done from `host` to `host'` is done at `top` or below it. -/
def Within (top : Path) (host host' : Host) : Prop :=
  ∃ new, host'.touched = new ++ host.touched ∧ ∀ q ∈ new, top <+: q

/-- Something is done at `q` from `host` to `host'`. -/
def Does (host host' : Host) (q : Path) : Prop :=
  ∃ new, host'.touched = new ++ host.touched ∧ q ∈ new

section
variable {top q : Path} {host host₁ host' : Host}

theorem Within.refl (top : Path) (host : Host) : Within top host host :=
  ⟨[], rfl, by simp⟩

theorem Within.trans (h : Within top host host₁) (h' : Within top host₁ host') :
    Within top host host' := by
  obtain ⟨new, hnew, hbelow⟩ := h
  obtain ⟨new', hnew', hbelow'⟩ := h'
  refine ⟨new' ++ new, by rw [hnew', hnew, List.append_assoc], fun q hq => ?_⟩
  exact (List.mem_append.1 hq).elim (hbelow' q) (hbelow q)

theorem Within.of_makes {P : Path → Prop} (h : FileSystem.Makes P host host₁)
    (hP : ∀ q, P q → top <+: q) : Within top host host₁ := by
  obtain ⟨new, hnew, hbelow⟩ := h.touched
  exact ⟨new, hnew, fun q hq => hP q (hbelow q hq)⟩

theorem Within.of_does (h : Within top host host') (hq : Does host host' q) : top <+: q := by
  obtain ⟨new, hnew, hbelow⟩ := h
  obtain ⟨new', hnew', hmem⟩ := hq
  obtain rfl := List.append_cancel_right (hnew.symm.trans hnew')
  exact hbelow q hmem

/-- A run whose log only grows is confined if its two parts are. -/
theorem Within.split (h : Within top host host') (h₁ : Within [] host host₁)
    (h₂ : Within [] host₁ host') : Within top host host₁ ∧ Within top host₁ host' := by
  obtain ⟨new, hnew, hbelow⟩ := h
  obtain ⟨new₁, hnew₁, -⟩ := h₁
  obtain ⟨new₂, hnew₂, -⟩ := h₂
  have heq : new = new₂ ++ new₁ := by
    refine List.append_cancel_right (hnew.symm.trans ?_)
    rw [hnew₂, hnew₁, List.append_assoc]
  subst heq
  exact ⟨⟨new₁, hnew₁, fun q hq => hbelow q (List.mem_append_right _ hq)⟩,
    ⟨new₂, hnew₂, fun q hq => hbelow q (List.mem_append_left _ hq)⟩⟩

end

/-! ## Removing what was noted -/

/-- A directory that unmounting removes for sure at `top` or below, if at all. -/
def RemovedInside (top : Path) (d : String) : Prop :=
  top = [] ∨ Absolute d ∧ ShellPlain d ∧ top <+: place d

/-- The shell does not hide what it has done. -/
def HostEnv.Logs (env : HostEnv) : Prop := ∀ host d, Within [] host (env.shell host d).1

section
variable {env : HostEnv} {top : Path}

/-- Unmounting logs nothing. -/
theorem touched_unmountList : ∀ {ks : List CcOciMount} {host : Host},
    (unmountList env host ks).1.touched = host.touched
  | [], _ => rfl
  | k :: ks, host => by
    rw [unmountList]
    split_ifs
    · exact touched_unmountList
    · cases hum : performUnmount env host k with
      | none => rfl
      | some host₁ =>
        rw [performUnmount] at hum
        split_ifs at hum
        obtain ⟨p, -, hp⟩ := Option.bind_eq_some_iff.1 hum
        exact (@touched_unmountList ks host₁).trans (FileSystem.umount_eq_some hp).2.2

/-- A removal inside. -/
theorem removeCreated_within (hlogs : env.Logs) (host : Host) {k : CcOciMount}
    (hk : ∀ d ∈ k.directoryCreated, RemovedInside top d) :
    Within top host (removeCreated env host k) := by
  unfold removeCreated
  split
  · rename_i d _ hd
    obtain rfl | ⟨habs, hshell, htop⟩ := hk d hd
    · by_cases hplain : ShellPlain d
      · obtain hsame | ⟨hp, hrm⟩ := @ociRmRf_cases env host d hplain
        · rw [hsame]
          exact .refl _ _
        · rw [hrm]
          exact ⟨[_], rfl, fun _ _ => List.nil_prefix⟩
      · rw [ociRmRf]
        split_ifs
        · exact .refl _ _
        · exact hlogs host d
    · obtain hsame | ⟨hp, hrm⟩ := @ociRmRf_cases env host d hshell
      · rw [hsame]
        exact .refl _ _
      · rw [hrm]
        refine ⟨[_], rfl, fun q hq => ?_⟩
        rwa [List.mem_singleton.1 hq, habs.origin]
  · exact .refl _ _

theorem foldl_removeCreated_within (hlogs : env.Logs) :
    ∀ {ks : List CcOciMount} {host : Host},
    (∀ k ∈ ks, ∀ d ∈ k.directoryCreated, RemovedInside top d) →
    Within top host (ks.foldl (removeCreated env) host)
  | [], _, _ => .refl _ _
  | k :: _, host, h => (removeCreated_within hlogs host (h k List.mem_cons_self)).trans
    (foldl_removeCreated_within hlogs fun k' hk' => h k' (List.mem_cons_of_mem _ hk'))

/-- What unmounting removes lies where the noted directories lie, on every host. -/
theorem handleUnmounts_within (hlogs : env.Logs) {ks : List CcOciMount} (host : Host)
    (h : ∀ k ∈ ks, ∀ d ∈ k.directoryCreated, RemovedInside top d) :
    Within top host (handleUnmounts env host ks).1 := by
  have hlist : Within top host (unmountList env host ks).1 :=
    ⟨[], touched_unmountList, by simp⟩
  rw [handleUnmounts]
  generalize unmountList env host ks = r at hlist
  obtain ⟨host₁, _ | _⟩ := r
  · exact hlist
  · exact hlist.trans (foldl_removeCreated_within hlogs h)

end

/-! ## A shell that is handed a command -/

/-- The places on the ways to the destinations of a list. -/
def wayPlaces (ks : List CcOciMount) : List Path :=
  ks.flatMap fun k => (components k.dest.text).inits.map (resolve [])

theorem mem_wayPlaces {ks : List CcOciMount} {k : CcOciMount} {ms : List Name} (hk : k ∈ ks)
    (hms : ms <+: components k.dest.text) : resolve [] ms ∈ wayPlaces ks :=
  List.mem_flatMap.2 ⟨k, hk, List.mem_map_of_mem ((List.mem_inits _ _).2 hms)⟩

/-- The places on which the mounts of a list are made. -/
def keptPlaces (ks : List CcOciMount) : List Path := (keptMounts ks).map fun k => place k.dest.text

/-- A host on which the mounts of a list can be unmounted one after the other. -/
def unmountable (ks : List CcOciMount) : Host where
  stored := .spanned (wayPlaces ks)
  mounts := (keptPlaces ks).map Mount.self
  mounted := Mount.mounted_self fun p hp => by
    obtain ⟨k, hk, rfl⟩ := List.mem_map.1 hp
    exact FileTree.spanned_exists.2 (.inr ⟨_, mem_wayPlaces (List.mem_filter.1 hk).1
      List.prefix_rfl, List.prefix_rfl⟩)

/-- What is mounted on itself can be unmounted. -/
theorem unmountList_self : ∀ {ks : List CcOciMount} {host : Host},
    host.mounts = (keptPlaces ks).map Mount.self → (∀ k ∈ keptMounts ks, Absolute k.dest.text) →
    (∀ q ∈ wayPlaces ks, host.stored.IsDir q) →
    ∃ host', unmountList meddlingShell host ks = (host', true)
  | [], host, _, _, _ => ⟨host, rfl⟩
  | k :: ks, host, hmounts, habs, hway => by
    have hway' : ∀ q ∈ wayPlaces ks, host.stored.IsDir q := fun q hq =>
      hway q (List.mem_append_right _ hq)
    rw [unmountList]
    cases hign : k.ignoreMount with
    | true =>
      have hkept : keptMounts (k :: ks) = keptMounts ks :=
        List.filter_cons_of_neg (by simp [hign])
      rw [keptPlaces, hkept] at hmounts
      exact unmountList_self hmounts (hkept ▸ habs) hway'
    | false =>
      rw [if_neg Bool.false_ne_true]
      have hkept : keptMounts (k :: ks) = k :: keptMounts ks :=
        List.filter_cons_of_pos (by simp [hign])
      rw [hkept] at habs
      have hdir : ∀ ms, ms <+: components k.dest.text → host.tree.IsDir (resolve [] ms) := by
        intro ms hms
        rw [FileTree.IsDir, FileSystem.tree_node, FileSystem.real, hmounts, Mount.real_self]
        exact hway _ (mem_wayPlaces List.mem_cons_self hms)
      have hlook : host.lookup [] k.dest.text = some (place k.dest.text) := by
        rw [lookup_absolute (habs k List.mem_cons_self)]
        exact FileTree.walk_eq_some_iff.2 ⟨rfl, fun ms n hpre =>
          ⟨hdir ms ((List.prefix_append _ _).trans hpre), (hdir _ hpre).exists⟩⟩
      rw [keptPlaces, hkept, List.map_cons, List.map_cons] at hmounts
      have hun : Mount.unstack (place k.dest.text) host.mounts =
          some ((keptPlaces ks).map Mount.self) := by
        rw [hmounts]
        exact if_pos rfl
      obtain ⟨host₁, hum, hmounts₁, hstored⟩ := FileSystem.exists_umount hun
      have hperform : performUnmount meddlingShell host k = some host₁ := by
        change (host.lookup [] k.dest.text).bind host.umount = some host₁
        rw [hlook]
        exact hum
      rw [hperform]
      exact unmountList_self hmounts₁ (fun k' hk' => habs k' (List.mem_cons_of_mem _ hk'))
        (hstored ▸ hway')

theorem meddlingShell_logs : meddlingShell.Logs := fun _ _ => ⟨[[]], rfl, by simp⟩

/-- A path that the shell does not take as it stands can have it do something anywhere. -/
theorem shellPlain_of_within {top : Path} (htop : top ≠ []) {ks : List CcOciMount}
    (habs : ∀ k ∈ keptMounts ks, Absolute k.dest.text)
    (h : Within top (unmountable ks) (handleUnmounts meddlingShell (unmountable ks) ks).1) :
    ∀ k ∈ ks, k.ignoreMount = false → ∀ d ∈ k.directoryCreated, ShellPlain d := by
  obtain ⟨host₁, hlist⟩ := @unmountList_self ks (unmountable ks) rfl habs fun q hq =>
    FileTree.spanned_isDir.2 (.inr ⟨q, hq, List.prefix_rfl⟩)
  intro k hk hign d hd
  by_contra hplain
  refine htop (List.prefix_nil.1 (h.of_does ?_))
  obtain ⟨before, behind, rfl⟩ := List.append_of_mem hk
  rw [handleUnmounts, hlist]
  dsimp only
  rw [List.foldl_append, List.foldl_cons]
  generalize before.foldl (removeCreated meddlingShell) host₁ = host₂
  have hshell : [] ∈ (removeCreated meddlingShell host₂ k).touched := by
    have hne : d ≠ "" := by
      rintro rfl
      exact hplain (by decide)
    rw [Option.mem_def] at hd
    rw [removeCreated, hign, hd]
    dsimp only
    rw [ociRmRf, if_neg hne, if_pos hplain]
    exact List.mem_cons_self
  obtain ⟨new, hnew, -⟩ := @foldl_removeCreated_within meddlingShell [] meddlingShell_logs behind
    (removeCreated meddlingShell host₂ k) fun _ _ _ _ => .inl rfl
  exact ⟨_, (List.append_nil _).symm, hnew ▸ List.mem_append_right _ hshell⟩

/-! ## One mount -/

/-- A mount on the host that it meets stays inside `top`: if something is mounted on the
destination, it lies there, so do the places on the way that have to be made, and the shell takes
what is noted of them as it stands. -/
structure StaysInside (top : Path) (env : HostEnv) (dryRun : Bool) (wd : String) (host : Host)
    (m : MountSpec) : Prop where
  dest : dryRun = true ∨ top <+: place (destination wd m.dir)
  way : ∀ ms ∈ (components (mountDirectory env host m (destination wd m.dir))).inits,
    FileSystem.Lacks host [] ms → top <+: resolve [] ms
  shell : ∀ d ∈ directoryToCreate env host (mountDirectory env host m (destination wd m.dir)),
    top = [] ∨ ShellPlain d

section
variable {env : HostEnv} {dryRun : Bool} {wd : String} {host host' : Host} {top : Path}
  {m : MountSpec} {m' : CcOciMount}

theorem staysInside_root (env : HostEnv) (dryRun : Bool) (wd : String) (host : Host)
    (m : MountSpec) : StaysInside [] env dryRun wd host m :=
  ⟨.inr List.nil_prefix, fun _ _ _ => List.nil_prefix, fun _ _ => .inl rfl⟩

/-- What is made for a directory is what its way lacks, and all of that if it succeeds. -/
theorem touched_mkdirWithParents {path : String} (habs : Absolute path) :
    ∃ new, (mkdirWithParents env host path).1.touched = new ++ host.touched ∧
      (∀ q ∈ new, ∃ ms, ms <+: components path ∧ FileSystem.Lacks host [] ms ∧ resolve [] ms = q) ∧
      ((mkdirWithParents env host path).2 = true → ∀ ms, ms <+: components path →
        FileSystem.Lacks host [] ms → resolve [] ms ∈ new) := by
  rw [mkdirWithParents, FileSystem.mkdirs, if_neg habs.ne_empty, habs.origin]
  exact FileSystem.touched_mkdirsFrom _ _ host.tree.root

theorem mkdirWithParents_within {path : String} (habs : Absolute path)
    (hway : ∀ ms ∈ (components path).inits, FileSystem.Lacks host [] ms → top <+: resolve [] ms) :
    Within top host (mkdirWithParents env host path).1 := by
  obtain ⟨new, hnew, hmade, -⟩ := @touched_mkdirWithParents env host path habs
  refine ⟨new, hnew, fun q hq => ?_⟩
  obtain ⟨ms, hms, hlacks, rfl⟩ := hmade q hq
  exact hway ms ((List.mem_inits _ _).2 hms) hlacks

/-- A mount inside. -/
theorem performMount_within {dest : String} (habs : Absolute dest)
    (htop : dryRun = true ∨ top <+: place dest) :
    Within top host (performMount env dryRun host m dest).1 := by
  obtain rfl | htop := htop
  · exact .refl _ _
  · obtain ⟨host₁, hmakes, -, ⟨hsame, -⟩ | ⟨-, -, p, s, hcan, hlook, hperform⟩⟩ :=
      performMount_cases env dryRun host m dest
    · rw [hsame]
      refine .of_makes hmakes fun q hq => ?_
      rwa [hq, habs.origin]
    · obtain rfl := place_of_lookup habs hlook
      rw [hperform]
      refine Within.trans (.of_makes hmakes fun q hq => ?_) ⟨[place dest], rfl, by simpa using htop⟩
      rwa [hq, habs.origin]

/-- A mount that stays inside does nothing outside, whether it goes well or not. -/
theorem handleMount_within (hwd : Absolute wd)
    (hm : m.ignored = false → ¬ m.Skipped env host → StaysInside top env dryRun wd host m) :
    Within top host (handleMount env dryRun wd host m).1 := by
  cases hign : m.ignored with
  | true =>
    rw [handleMount_ignored hign]
    exact .refl _ _
  | false =>
    by_cases hskip : m.Skipped env host
    · rw [handleMount_skipped hign hskip]
      exact .refl _ _
    · have hin := hm hign hskip
      have habs := absolute_destination hwd m.dir
      have hmk : Within top host (mkdirWithParents env host _).1 :=
        mkdirWithParents_within (absolute_mountDirectory habs host m) hin.way
      rw [handleMount_reached hign hskip]
      dsimp only
      split_ifs
      · exact hmk.trans (performMount_within habs hin.dest)
      · exact hmk

/-- The first missing part is to be made. -/
theorem FirstMissing.lacks {path d : String} {us rest : List Name} {n : Name} {u : Path}
    (h : FirstMissing host path d us rest n u) (hfresh : ¬ host.tree.Exists (place d)) :
    FileSystem.Lacks host [] (us ++ [n]) := by
  rw [place, h.comps] at hfresh
  refine ⟨hfresh, fun ms hms hne hreal => hfresh ?_⟩
  obtain heq | hpre := List.prefix_concat_iff.1 ((List.mem_inits _ _).1 hms)
  · exact absurd heq hne
  · rw [FileTree.Exists, FileSystem.tree_node, ← hreal]
    exact FileTree.exists_of_walk_prefix h.walk (FileTree.IsDir.exists host.tree.root) hpre

/-- What a mount that goes well has noted is removed inside. -/
theorem handleMount_noted (hwd : Absolute wd)
    (hm : m.ignored = false → ¬ m.Skipped env host → StaysInside top env dryRun wd host m)
    (h : handleMount env dryRun wd host m = (host', m', true)) :
    ∀ d ∈ m'.directoryCreated, RemovedInside top d := by
  intro d hd
  cases hign : m.ignored with
  | true =>
    rw [handleMount_ignored hign] at h
    obtain rfl := (Prod.mk.inj (Prod.mk.inj h).2).1
    cases hd
  | false =>
    by_cases hskip : m.Skipped env host
    · rw [handleMount_skipped hign hskip] at h
      obtain rfl := (Prod.mk.inj (Prod.mk.inj h).2).1
      cases hd
    · obtain ⟨host₁, hmk, -, rfl⟩ := handleMount_eq_true hign hskip h
      have hin := hm hign hskip
      have habs := @absolute_mountDirectory env _ (absolute_destination hwd m.dir) host m
      obtain ⟨us, rest, n, u, hfirst, -, -, hfresh⟩ :=
        missing_of_directoryToCreate habs hd (by rw [hmk])
      refine (hin.shell d hd).imp_right fun hshell => ⟨hfirst.absolute, hshell, ?_⟩
      rw [place, hfirst.comps]
      exact hin.way _ ((List.mem_inits _ _).2 hfirst.isPrefix) (hfirst.lacks hfresh)

/-- A mount that goes well and does nothing outside stays inside. -/
theorem staysInside_of_within (hwd : Absolute wd) (hign : m.ignored = false)
    (hskip : ¬ m.Skipped env host) (h : handleMount env dryRun wd host m = (host', m', true))
    (hwithin : Within top host host')
    (hshell : top = [] ∨ ∀ d ∈ m'.directoryCreated, ShellPlain d) :
    StaysInside top env dryRun wd host m := by
  obtain ⟨host₁, hmk, hmount, rfl⟩ := handleMount_eq_true hign hskip h
  have habs := absolute_destination hwd m.dir
  -- the two calls, each with the log that it leaves
  obtain ⟨new, hnew, -, hmade⟩ :=
    @touched_mkdirWithParents env host _ (@absolute_mountDirectory env _ habs host m)
  rw [hmk] at hnew hmade
  have hlog : Within [] host₁ host' := by
    have hperform : Within [] host₁ (performMount env dryRun host₁ m (destination wd m.dir)).1 :=
      performMount_within habs (.inr List.nil_prefix)
    rwa [hmount] at hperform
  obtain ⟨hmkdirs, hperform⟩ := hwithin.split ⟨new, hnew, fun _ _ => List.nil_prefix⟩ hlog
  refine ⟨?_, fun ms hms hlacks => ?_, fun d hd => hshell.imp_right fun hplain => hplain d hd⟩
  · cases dryRun with
    | true => exact .inl rfl
    | false =>
      have hdoes := @touched_performMount env host₁ m (destination wd m.dir) (by rw [hmount])
      rw [hmount, habs.origin] at hdoes
      exact .inr (hperform.of_does hdoes)
  · exact hmkdirs.of_does ⟨new, hnew, hmade rfl ms ((List.mem_inits _ _).1 hms) hlacks⟩

end

/-! ## A list of mounts -/

/-- What the mounts of a configuration do is confined: mounting does nothing outside of `top`, and
unmounting what was kept removes nothing outside, on any host. -/
structure Confined (top : Path) (host : Host) (r : Host × List CcOciMount × Bool) : Prop where
  within : Within top host r.1
  removal : r.2.2 = true → ∀ (env : HostEnv) (host' : Host), env.Logs →
    Within top host' (handleUnmounts env host' r.2.1).1

/-- Every mount that is not ignored and not skipped stays inside the workload directory. -/
def StayInside (env : HostEnv) (host : Host) (config : Config) (specs : List MountSpec) : Prop :=
  EachTurn (fun host m => ¬ m.Skipped env host → StaysInside (place (getWorkloadDir config)) env
    config.dryRunMode (getWorkloadDir config) host m) env config.dryRunMode (getWorkloadDir config)
    host specs

section
variable {env : HostEnv} {dryRun : Bool} {wd : String} {top : Path}

/-- Mounts that stay inside, one after the other. -/
theorem handleMountList_within (hwd : Absolute wd) : ∀ {specs : List MountSpec} {host : Host},
    EachTurn (fun host m => ¬ m.Skipped env host → StaysInside top env dryRun wd host m)
      env dryRun wd host specs →
    Within top host (handleMountList env dryRun wd host specs).1 ∧
      ((handleMountList env dryRun wd host specs).2.2 = true →
        ∀ k ∈ (handleMountList env dryRun wd host specs).2.1, ∀ d ∈ k.directoryCreated,
          RemovedInside top d)
  | [], host, _ => ⟨.refl _ _, fun _ k hk => absurd hk List.not_mem_nil⟩
  | m :: specs, host, hturns => by
    have hfirst := handleMount_within hwd hturns.1
    rw [handleMountList]
    cases hmount : handleMount env dryRun wd host m with
    | mk host₁ rest =>
      obtain ⟨m', _ | _⟩ := rest
      · rw [hmount] at hfirst
        exact ⟨hfirst, fun hok => by cases hok⟩
      · have hturns' := hturns.2 (by rw [hmount])
        rw [hmount] at hfirst hturns'
        obtain ⟨hwithin, hremoved⟩ := handleMountList_within hwd hturns'
        refine ⟨hfirst.trans hwithin, fun hok k hk => ?_⟩
        obtain rfl | hk := List.mem_cons.1 hk
        · exact handleMount_noted hwd hturns.1 hmount
        · exact hremoved hok k hk

/-- Whatever is mounted, the log only grows. -/
theorem eachTurn_root : ∀ (specs : List MountSpec) (host : Host),
    EachTurn (fun host m => ¬ m.Skipped env host → StaysInside [] env dryRun wd host m)
      env dryRun wd host specs
  | [], _ => trivial
  | _ :: specs, _ => ⟨fun _ _ => staysInside_root _ _ _ _ _, fun _ => eachTurn_root specs _⟩

/-- What a run inside says of each mount. -/
theorem eachTurn_of_within (hwd : Absolute wd) : ∀ {specs : List MountSpec} {host host' : Host}
    {ms : List CcOciMount}, handleMountList env dryRun wd host specs = (host', ms, true) →
    Within top host host' →
    (top = [] ∨ ∀ k ∈ ms, k.ignoreMount = false → ∀ d ∈ k.directoryCreated, ShellPlain d) →
    EachTurn (fun host m => ¬ m.Skipped env host → StaysInside top env dryRun wd host m)
      env dryRun wd host specs
  | [], _, _, _, _, _, _ => trivial
  | m :: specs, host, host', ms, h, hwithin, hshell => by
    obtain ⟨host₁, m', ms', hmount, hrest, rfl⟩ := handleMountList_cons h
    have hlog₁ : Within [] host (handleMount env dryRun wd host m).1 :=
      handleMount_within hwd fun _ _ => staysInside_root _ _ _ _ _
    have hlog₂ : Within [] host₁ (handleMountList env dryRun wd host₁ specs).1 :=
      (handleMountList_within hwd (eachTurn_root specs host₁)).1
    rw [hmount] at hlog₁
    rw [hrest] at hlog₂
    obtain ⟨hfirst, hlater⟩ := hwithin.split hlog₁ hlog₂
    refine ⟨fun hign hskip => staysInside_of_within hwd hign hskip hmount hfirst ?_, fun _ => ?_⟩
    · obtain ⟨-, -, -, rfl⟩ := handleMount_eq_true hign hskip hmount
      exact hshell.imp_right fun hplain => hplain _ List.mem_cons_self rfl
    · rw [hmount]
      exact eachTurn_of_within hwd hrest hlater (hshell.imp_right fun hplain k hk =>
        hplain k (List.mem_cons_of_mem _ hk))

end

/-- **Mounts stay inside the workload directory** if every mount stays inside, on the host that it
meets; and where all mounts go well, only then. -/
theorem mounts_confined_iff (env : HostEnv) (host : Host) (config : Config)
    (specs : List MountSpec) (hwd : Absolute (getWorkloadDir config)) :
    (StayInside env host config specs → Confined (place (getWorkloadDir config)) host
      (hostHandleMounts env host config specs)) ∧
    ((hostHandleMounts env host config specs).2.2 = true →
      Confined (place (getWorkloadDir config)) host (hostHandleMounts env host config specs) →
      StayInside env host config specs) := by
  constructor
  · intro hturns
    obtain ⟨hwithin, hremoved⟩ := handleMountList_within hwd hturns
    exact ⟨hwithin, fun hok env' host' hlogs => handleUnmounts_within hlogs host' (hremoved hok)⟩
  · intro hok hconf
    cases hrun : hostHandleMounts env host config specs with
    | mk host' rest =>
      obtain ⟨ms, ok⟩ := rest
      rw [hrun] at hok hconf
      obtain rfl : ok = true := hok
      refine eachTurn_of_within hwd hrun hconf.within ?_
      by_cases htop : place (getWorkloadDir config) = []
      · exact .inl htop
      · have hkept := absolute_keptMounts hwd (handleMountList_entries hwd hrun).1
        exact .inr (shellPlain_of_within htop hkept
          (hconf.removal rfl meddlingShell _ meddlingShell_logs))

/-! ## Samples -/

/-- Destinations below the workload directory, one of them with a step up that does not leave it. -/
theorem mounts_confined_below :
    (hostHandleMounts {} mountHost mountConfig
      (["/data/x", "/proc", "/data/../log"].map (bindMount "/src"))).1.mounts.map Mount.target =
        [place "/w/log", place "/w/data/x"] ∧
    Confined (place "/w") mountHost (hostHandleMounts {} mountHost mountConfig
      (["/data/x", "/proc", "/data/../log"].map (bindMount "/src"))) := by
  refine ⟨by decide +kernel, ?_⟩
  have hinside : StayInside {} mountHost mountConfig
      (["/data/x", "/proc", "/data/../log"].map (bindMount "/src")) :=
    ⟨fun _ _ => ⟨.inr (by decide +kernel), by decide +kernel, by decide +kernel⟩,
      fun _ => ⟨fun h => absurd h (by decide),
        fun _ => ⟨fun _ _ => ⟨.inr (by decide +kernel), by decide +kernel, by decide +kernel⟩,
          fun _ => trivial⟩⟩⟩
  exact (mounts_confined_iff {} mountHost mountConfig _ (by decide)).1 hinside

/-- A step up leaves the workload directory, and what is noted for the removal lies outside, too. A
relative destination makes a sibling of it. A destination with a quotation mark below the workload
directory is noted, and the shell reads two paths in it. -/
theorem mounts_leave_workload :
    (hostHandleMounts {} mountHost mountConfig [bindMount "/src" "/../etc"]).1.touched =
      [place "/etc", place "/etc"] ++ mountHost.touched ∧
    (hostHandleMounts {} mountHost mountConfig [bindMount "/src" "/../etc"]).2 =
      ([{ dest := .copy "/w/../etc", directoryCreated := some "/w/../etc" }], true) ∧
    (hostHandleMounts {} mountHost mountConfig [bindMount "/src" "x"]).1.touched =
      [place "/wx", place "/wx"] ++ mountHost.touched ∧
    (hostHandleMounts {} mountHost mountConfig
      [bindMount "/src" "/x\" \"/etc/a", bindMount "/src" "/x\" \"/etc/foo"]).2.1.map
        (·.directoryCreated) = [some "/w/x\" \"", some "/w/x\" \"/etc/foo"] ∧
    ¬ Confined (place "/w") mountHost
      (hostHandleMounts {} mountHost mountConfig [bindMount "/src" "/../etc"]) := by
  have hlog : (hostHandleMounts {} mountHost mountConfig [bindMount "/src" "/../etc"]).1.touched =
      [place "/etc", place "/etc"] ++ mountHost.touched := by
    decide +kernel
  refine ⟨hlog, by decide +kernel, by decide +kernel, by decide +kernel, fun h => ?_⟩
  exact absurd (h.within.of_does ⟨_, hlog, List.mem_cons_self⟩) (by decide +kernel)

end Runtime

end CcOciRuntime
