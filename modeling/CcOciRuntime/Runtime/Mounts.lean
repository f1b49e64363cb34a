import CcOciRuntime.Runtime.Host

/-!
# Mounting and unmounting

The mounts of a container are made below its workload directory before the VM is launched, and
undone when the container is deleted. A mount of the standard file systems is ignored, one whose
source is missing is skipped, and for every other one the missing directories are made, the first of
them is noted, and the source is mounted. Unmounting goes through the list that the state file kept,
in its order, and then removes the noted directories.

Reference: `src/mount.c`.
-/

namespace CcOciRuntime

namespace Runtime

/-- What a mount's entry of `config.json` says. Reference: `struct cc_oci_mount` (`src/oci.h:478`),
its members `flags` and `mnt`. -/
structure MountSpec where
  fsname : String
  dir : String
  type : String
  opts : Option String := none
  flags : Nat := 0
  deriving DecidableEq

/-- Reference: `cc_oci_mounts_to_ignore` (`src/mount.c:37`). -/
def mountsToIgnore : List String :=
  ["/proc", "/dev", "/dev/pts", "/dev/shm", "/dev/mqueue", "/sys", "/sys/fs/cgroup"]

/-- The entries of the table only have directories. Reference: `cc_oci_mount_ignore`
(`src/mount.c:57`). -/
def MountSpec.ignored (m : MountSpec) : Bool := m.dir ∈ mountsToIgnore

/-- The directory below which the mounts are made. Reference: `cc_oci_get_workload_dir`
(`src/oci.c:144`). -/
def getWorkloadDir (config : Config) : String :=
  match config.pod with
  | some pod => pod.sandboxWorkloads.text
  | none => config.oci.root.path.text

/-- An absolute path. -/
def Absolute (path : String) : Prop := path.toList.head? = some '/'

instance (path : String) : Decidable (Absolute path) := inferInstanceAs (Decidable (_ = _))

/-! ## Mounting -/

/-- Cutting a path at its last separator until a directory is left; the component that was cut last
is put back. The components are given last first, and a path of one component has no separator.
Reference: `src/mount.c:259-275`. -/
def firstMissing (isDir : List Name → Bool) : List Name → Option (List Name)
  | [] | [_] => none
  | n :: m :: rs =>
    if isDir (m :: rs).reverse then some (n :: m :: rs).reverse else firstMissing isDir (m :: rs)

/-- The first directory that must be created for the directory `path` to be there. Reference:
`src/mount.c:256-276`. -/
def directoryToCreate (env : HostEnv) (host : Host) (path : String) : Option String :=
  if host.IsDir env.cwd path then none
  else
    (firstMissing (fun ns => decide (host.IsDir env.cwd (joinSlash ns)))
      (components path).reverse).map joinSlash

/-- The flags of `mount(2)` that the model reads, by their bits. -/
def msRemount : Nat := 5
def msBind : Nat := 12
def msRec : Nat := 14

/-- Changes of how a mount propagates, and the move of a mount. -/
def msAlters : List Nat := [13, 17, 18, 19, 20]

/-- Whether the call makes a new mount, and does not change one that is there. -/
def MountSpec.makesMount (m : MountSpec) : Bool :=
  !m.flags.testBit msRemount && (m.flags.testBit msBind || !msAlters.any m.flags.testBit)

/-- The stored place that a new mount shows: what is seen at the source of a bind mount, or the root
of a file system of its own. -/
def MountSpec.shows (env : HostEnv) (host : Host) (m : MountSpec) : Option Path :=
  if m.flags.testBit msBind then (host.lookup env.cwd m.fsname).map host.real
  else env.fileSystem host m.fsname

/-- Whether the mounts beneath the source come along. -/
def MountSpec.busy (env : HostEnv) (host : Host) (m : MountSpec) : Bool :=
  m.flags.testBit msBind && m.flags.testBit msRec &&
    (host.lookup env.cwd m.fsname).any fun p => Mount.beneath p host.mounts

/-- The call of `mount(2)`. -/
def mountOn (env : HostEnv) (host : Host) (m : MountSpec) (dest : String) : Host × Bool :=
  match host.lookup env.cwd dest with
  | none => (host, false)
  | some p =>
    if !env.mountOk host dest then (host, false)
    else if !m.makesMount then (host.touch p, true)
    else
      match m.shows env host with
      | none => (host, false)
      | some s =>
        if h : host.CanMount p s then (host.mount p s (m.busy env host) h, true) else (host, false)

/-- Reference: `cc_oci_perform_mount` (`src/mount.c:134`). -/
def performMount (env : HostEnv) (dryRun : Bool) (host : Host) (m : MountSpec) (dest : String) :
    Host × Bool :=
  if dryRun then (host, true)
  else
    match host.stat env.cwd m.fsname with
    | none => (host, false)
    | some (.file _) =>
      -- a regular file is mounted on a file
      match if env.creatOk host dest then host.creat env.cwd dest none else none with
      | none => (host, false)
      | some host => mountOn env host m dest
    | some _ => mountOn env host m dest

/-- The directory that must be there for a mount: the destination, or the directory of a destination
that is no directory. Reference: `src/mount.c:241-254`. -/
def mountDirectory (env : HostEnv) (host : Host) (m : MountSpec) (dest : String) : String :=
  if Absolute m.fsname ∧ ¬ host.IsDir env.cwd m.fsname then pathGetDirname dest else dest

/-- The source of a mount is an absolute path and missing. Reference: `src/mount.c:247-251`. -/
def MountSpec.Skipped (env : HostEnv) (host : Host) (m : MountSpec) : Prop :=
  Absolute m.fsname ∧ (host.stat env.cwd m.fsname).isNone

instance (env : HostEnv) (host : Host) (m : MountSpec) : Decidable (m.Skipped env host) :=
  inferInstanceAs (Decidable (_ ∧ _))

/-- The destination of a mount as it stands in its buffer. -/
def destination (workloadDir dir : String) : String := (PathBuf.copy (workloadDir ++ dir)).text

/-- One mount: the host, what is kept of the mount, and whether the command goes on. Reference:
`src/mount.c:233-297`. -/
def handleMount (env : HostEnv) (dryRun : Bool) (workloadDir : String) (host : Host)
    (m : MountSpec) : Host × CcOciMount × Bool :=
  if m.ignored then (host, { ignoreMount := true }, true)
  else
    let dest : PathBuf := .copy (workloadDir ++ m.dir)
    -- a skipped mount is not marked as ignored
    if m.Skipped env host then (host, { dest }, true)
    else
      let dir := mountDirectory env host m dest.text
      let directoryCreated := directoryToCreate env host dir
      let (host, ok) :=
        match mkdirWithParents env host dir with
        | (host, false) => (host, false)
        | (host, true) => performMount env dryRun host m dest.text
      (host, { dest, directoryCreated }, ok)

/-- The mounts in the order of the list. Those behind one that fails stay as they were read. -/
def handleMountList (env : HostEnv) (dryRun : Bool) (workloadDir : String) :
    Host → List MountSpec → Host × List CcOciMount × Bool
  | host, [] => (host, [], true)
  | host, m :: ms =>
    match handleMount env dryRun workloadDir host m with
    | (host, kept, false) => (host, kept :: ms.map fun _ => {}, false)
    | (host, kept, true) =>
      let r := handleMountList env dryRun workloadDir host ms
      (r.1, kept :: r.2.1, r.2.2)

/-- The host after the mounts, the mounts as the configuration then has them, and whether all went
well. Reference: `cc_oci_handle_mounts` (`src/mount.c:216`). -/
def hostHandleMounts (env : HostEnv) (host : Host) (config : Config) (specs : List MountSpec) :
    Host × List CcOciMount × Bool :=
  handleMountList env config.dryRunMode (getWorkloadDir config) host specs

/-! ## Unmounting -/

/-- Reference: `cc_oci_perform_unmount` (`src/mount.c:311`). -/
def performUnmount (env : HostEnv) (host : Host) (m : CcOciMount) : Option Host :=
  if env.umountOk host m.dest.text then (host.lookup env.cwd m.dest.text).bind host.umount else none

/-- Unmounting in the order of the list, up to the first failure. Reference:
`src/mount.c:340-353`. -/
def unmountList (env : HostEnv) : Host → List CcOciMount → Host × Bool
  | host, [] => (host, true)
  | host, m :: ms =>
    if m.ignoreMount then unmountList env host ms
    else
      match performUnmount env host m with
      | none => (host, false)
      | some host => unmountList env host ms

/-- Removing the directory noted for a mount; a failure is only logged. Reference:
`src/mount.c:356-367`. -/
def removeCreated (env : HostEnv) (host : Host) (m : CcOciMount) : Host :=
  match m.ignoreMount, m.directoryCreated with
  | false, some dir => (ociRmRf env host dir).1
  | _, _ => host

/-- Reference: `cc_oci_handle_unmounts` (`src/mount.c:330`). -/
def handleUnmounts (env : HostEnv) (host : Host) (mounts : List CcOciMount) : Host × Bool :=
  match unmountList env host mounts with
  | (host, false) => (host, false)
  | (host, true) => (mounts.foldl (removeCreated env) host, true)

/-! ## What the calls do -/

section
variable {env : HostEnv} {dryRun : Bool} {wd : String} {host : Host} {m : MountSpec}
  {dest : String}

/-- What the call of `mount(2)` can do: it fails, it changes a mount, or it mounts something on the
place of its path. -/
theorem mountOn_cases (env : HostEnv) (host : Host) (m : MountSpec) (dest : String) :
    mountOn env host m dest = (host, false) ∨
    (∃ p, host.lookup env.cwd dest = some p ∧
      (m.makesMount = false ∧ mountOn env host m dest = (host.touch p, true) ∨
        m.makesMount = true ∧ ∃ s h,
          mountOn env host m dest = (host.mount p s (m.busy env host) h, true))) := by
  unfold mountOn
  cases hlook : host.lookup env.cwd dest with
  | none => exact .inl rfl
  | some p =>
    dsimp only
    split_ifs with hok hmakes
    · exact .inl rfl
    · exact .inr ⟨p, rfl, .inl ⟨by simpa using hmakes, rfl⟩⟩
    · cases m.shows env host with
      | none => exact .inl rfl
      | some s =>
        dsimp only
        split_ifs with h
        · exact .inr ⟨p, rfl, .inr ⟨by simpa using hmakes, s, h, rfl⟩⟩
        · exact .inl rfl

/-- A call of `mount(2)` that succeeds does something at the place of its path. -/
theorem touched_mountOn (h : (mountOn env host m dest).2 = true) :
    (mountOn env host m dest).1.touched =
      resolve (FileSystem.origin env.cwd dest) (components dest) :: host.touched := by
  obtain hfails | ⟨p, hlook, ⟨-, hmount⟩ | ⟨-, s, hcan, hmount⟩⟩ := mountOn_cases env host m dest
  · rw [hfails] at h
    cases h
  · rw [hmount, FileSystem.resolve_of_lookup hlook]
    rfl
  · rw [hmount, FileSystem.resolve_of_lookup hlook]
    rfl

/-- What performing a mount can do: perhaps create its file, and then nothing or the mount. -/
theorem performMount_cases (env : HostEnv) (dryRun : Bool) (host : Host) (m : MountSpec)
    (dest : String) : ∃ host₁ : Host,
    FileSystem.Makes (· = resolve (FileSystem.origin env.cwd dest) (components dest)) host host₁ ∧
    (∀ s, host₁.stored.IsDir s → host.stored.IsDir s) ∧
    ((performMount env dryRun host m dest).1 = host₁ ∧
        ((performMount env dryRun host m dest).2 = true → dryRun = true ∨ m.makesMount = false) ∨
      dryRun = false ∧ m.makesMount = true ∧ ∃ p s h, host₁.lookup env.cwd dest = some p ∧
        performMount env dryRun host m dest = (host₁.mount p s (m.busy env host) h, true)) := by
  have hrefl : FileSystem.Makes
      (· = resolve (FileSystem.origin env.cwd dest) (components dest)) host host := .refl host
  cases dryRun with
  | true => exact ⟨host, hrefl, fun _ h => h, .inl ⟨rfl, fun _ => .inl rfl⟩⟩
  | false =>
    rw [performMount, if_neg Bool.false_ne_true]
    cases hstat : host.stat env.cwd m.fsname with
    | none => exact ⟨host, hrefl, fun _ h => h, .inl ⟨rfl, Bool.noConfusion⟩⟩
    | some k =>
      have hon : ∀ host₁ : Host, FileSystem.Makes
          (· = resolve (FileSystem.origin env.cwd dest) (components dest)) host host₁ →
          (∀ s, host₁.stored.IsDir s → host.stored.IsDir s) → ∃ host₂ : Host, FileSystem.Makes
            (· = resolve (FileSystem.origin env.cwd dest) (components dest)) host host₂ ∧
          (∀ s, host₂.stored.IsDir s → host.stored.IsDir s) ∧
          ((mountOn env host₁ m dest).1 = host₂ ∧
              ((mountOn env host₁ m dest).2 = true → false = true ∨ m.makesMount = false) ∨
            false = false ∧ m.makesMount = true ∧ ∃ p s h, host₂.lookup env.cwd dest = some p ∧
              mountOn env host₁ m dest = (host₂.mount p s (m.busy env host) h, true)) := by
        intro host₁ hmakes hdirs
        -- the source was there before the file was created
        have hbusy : m.busy env host₁ = m.busy env host := by
          obtain ⟨p, hp, -⟩ := Option.bind_eq_some_iff.1 hstat
          rw [MountSpec.busy, MountSpec.busy, FileSystem.lookup_grows hmakes.tree hp, hp,
            hmakes.mounts]
        obtain hfails | ⟨p, hlook, ⟨hnot, hmount⟩ | ⟨hnew, s, hcan, hmount⟩⟩ :=
          mountOn_cases env host₁ m dest
        · rw [hfails]
          exact ⟨host₁, hmakes, hdirs, .inl ⟨rfl, fun h => nomatch h⟩⟩
        · rw [hmount]
          obtain rfl := FileSystem.resolve_of_lookup hlook
          exact ⟨_, hmakes.trans FileSystem.makes_touch, hdirs, .inl ⟨rfl, fun _ => .inr hnot⟩⟩
        · rw [hbusy] at hmount
          exact ⟨host₁, hmakes, hdirs, .inr ⟨rfl, hnew, p, s, hcan, hlook, hmount⟩⟩
      cases k with
      | dir | other => exact hon host hrefl fun _ h => h
      | file content =>
        dsimp only
        cases hcreat : (if env.creatOk host dest then host.creat env.cwd dest none else none) with
        | none => exact ⟨host, hrefl, fun _ h => h, .inl ⟨rfl, Bool.noConfusion⟩⟩
        | some host₁ =>
          split_ifs at hcreat
          obtain ⟨hmakes, hdirs⟩ := FileSystem.creat_spec hcreat
          exact hon host₁ hmakes hdirs

/-- A mount that is performed, and not for a dry run, does something at its destination. -/
theorem touched_performMount (h : (performMount env false host m dest).2 = true) :
    ∃ new, (performMount env false host m dest).1.touched = new ++ host.touched ∧
      resolve (FileSystem.origin env.cwd dest) (components dest) ∈ new := by
  rw [performMount, if_neg Bool.false_ne_true] at h ⊢
  cases hstat : host.stat env.cwd m.fsname with
  | none =>
    rw [hstat] at h
    cases h
  | some k =>
    rw [hstat] at h
    cases k with
    | dir | other => exact ⟨[_], touched_mountOn h, List.mem_cons_self⟩
    | file content =>
      dsimp only at h ⊢
      cases hcreat : (if env.creatOk host dest then host.creat env.cwd dest none else none) with
      | none =>
        rw [hcreat] at h
        cases h
      | some host₁ =>
        rw [hcreat] at h
        split_ifs at hcreat
        obtain ⟨new, hnew, -⟩ := (FileSystem.creat_spec hcreat).1.touched
        refine ⟨_ :: new, ?_, List.mem_cons_self⟩
        rw [List.cons_append, ← hnew]
        exact touched_mountOn h

theorem handleMount_ignored (h : m.ignored = true) :
    handleMount env dryRun wd host m = (host, { ignoreMount := true }, true) := if_pos h

theorem handleMount_skipped (hign : m.ignored = false) (h : m.Skipped env host) :
    handleMount env dryRun wd host m = (host, { dest := .copy (wd ++ m.dir) }, true) := by
  rw [handleMount, if_neg (by simp [hign])]
  exact if_pos h

/-- A mount that is neither ignored nor skipped. -/
theorem handleMount_reached (hign : m.ignored = false) (h : ¬ m.Skipped env host) :
    handleMount env dryRun wd host m =
      let dir := mountDirectory env host m (destination wd m.dir)
      let made := mkdirWithParents env host dir
      let r := if made.2 then performMount env dryRun made.1 m (destination wd m.dir)
        else (made.1, false)
      (r.1, { dest := .copy (wd ++ m.dir), directoryCreated := directoryToCreate env host dir },
        r.2) := by
  rw [handleMount, if_neg (by simp [hign])]
  dsimp only [destination]
  rw [if_neg h]
  rcases mkdirWithParents env host _ with ⟨host₁, _ | _⟩ <;> rfl

/-- A mount that is neither ignored nor skipped and goes well. -/
theorem handleMount_eq_true {host' : Host} {m' : CcOciMount} (hign : m.ignored = false)
    (hskip : ¬ m.Skipped env host) (h : handleMount env dryRun wd host m = (host', m', true)) :
    ∃ host₁, mkdirWithParents env host (mountDirectory env host m (destination wd m.dir)) =
        (host₁, true) ∧ performMount env dryRun host₁ m (destination wd m.dir) = (host', true) ∧
      m' = {
        dest := .copy (wd ++ m.dir)
        directoryCreated :=
          directoryToCreate env host (mountDirectory env host m (destination wd m.dir)) } := by
  rw [handleMount_reached hign hskip] at h
  dsimp only at h
  generalize mkdirWithParents env host
    (mountDirectory env host m (destination wd m.dir)) = made at h
  obtain ⟨host₁, _ | _⟩ := made
  · cases (Prod.mk.inj (Prod.mk.inj h).2).2
  · obtain ⟨hhost, hrest⟩ := Prod.mk.inj h
    obtain ⟨hm', hok⟩ := Prod.mk.inj hrest
    exact ⟨host₁, rfl, Prod.ext hhost hok, hm'.symm⟩

end

end Runtime

end CcOciRuntime
