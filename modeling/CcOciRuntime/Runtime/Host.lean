import CcOciRuntime.Lib.FileSystem
import CcOciRuntime.Runtime.Commands

/-!
# The host's files

The files and mounts of the host, with the library functions through which the runtime works on
them. A call can also fail for a reason that lies outside of the files (a permission, a full disk):
the environment answers that for each call, from the state of the host in which it is made.
-/

namespace CcOciRuntime

namespace Runtime

/-- The host's files and mounts. The content of a regular file is the document in it, if there is
one. -/
abbrev Host := FileSystem (Option Json)

/-- The working directory of a process, and the calls that succeed if the files allow it. -/
structure HostEnv where
  cwd : Path := []
  mkdirOk : Host → Path → Bool := fun _ _ => true
  creatOk : Host → String → Bool := fun _ _ => true
  mountOk : Host → String → Bool := fun _ _ => true
  /-- the stored place of the root of the file system on a device -/
  fileSystem : Host → String → Option Path := fun _ _ => none
  umountOk : Host → String → Bool := fun _ _ => true
  unlinkOk : Host → String → Bool := fun _ _ => true
  rmOk : Host → String → Bool := fun _ _ => true
  /-- what the shell makes of a path that it does not pass on as it stands -/
  shell : Host → String → Host × Bool := fun host _ => (host, false)

/-- Reference: `g_mkdir_with_parents`. -/
def mkdirWithParents (env : HostEnv) (host : Host) (path : String) : Host × Bool :=
  host.mkdirs env.cwd (env.mkdirOk host) path

/-- The text before the last separator, without the separators at its end. Reference:
`g_path_get_dirname`. -/
def pathGetDirname (path : String) : String :=
  match (components path).dropLast with
  | [] => "."
  | ns =>
    match ns.reverse.dropWhile (· = []) with
    | [] => "/"
    | rs => joinSlash rs.reverse

example : pathGetDirname "/w//a/" = "/w//a" ∧ pathGetDirname "//a" = "/" ∧
    pathGetDirname "a" = "." := by
  decide

/-! ## Recursive removal -/

/-- The characters that a shell does not take literally between double quotes. -/
def shellSpecial : List Char := "\"$`\\".toList

/-- A path that the shell passes on to `rm` as it stands, and that `rm` does not take for an
option. -/
def ShellPlain (path : String) : Prop :=
  (∀ c ∈ path.toList, c ∉ shellSpecial) ∧ path.toList.head? ≠ some '-'

-- over the characters of the path, not over all characters
instance (path : String) : Decidable (ShellPlain path) :=
  haveI : Decidable (∀ c ∈ path.toList, c ∉ shellSpecial) := List.decidableBAll _ _
  inferInstanceAs (Decidable (_ ∧ _))

/-- The path stands between double quotes in a command line for the shell. Reference:
`cc_oci_rm_rf` (`src/util.c:223`). -/
def ociRmRf (env : HostEnv) (host : Host) (path : String) : Host × Bool :=
  if path = "" then (host, false)
  else if ¬ ShellPlain path then env.shell host path
  else if env.rmOk host path then host.rmRf env.cwd path
  else (host, false)

/-- Reference: `cc_oci_runtime_dir_delete` (`src/runtime.c:120`). -/
def runtimeDirDelete (env : HostEnv) (host : Host) (config : Config) : Host × Bool :=
  if config.state.runtimePath.text.toList.head? ≠ some '/' then (host, false)
  else ociRmRf env host config.state.runtimePath.text

section
variable {env : HostEnv} {host : Host} {path : String}

/-- Removing a plain path removes the place that it means or nothing. -/
theorem ociRmRf_cases (hplain : ShellPlain path) :
    (ociRmRf env host path).1 = host ∨ ∃ hp,
      (ociRmRf env host path).1 =
        host.rmTree (resolve (FileSystem.origin env.cwd path) (components path)) hp := by
  unfold ociRmRf
  split_ifs
  · exact .inl rfl
  · obtain ⟨ok, h, -⟩ | ⟨p, hp, hlook, h⟩ := host.rmRf_cases env.cwd path
    · exact .inl (by rw [h])
    · obtain rfl := FileSystem.resolve_of_lookup hlook
      exact .inr ⟨hp, by rw [h]⟩
  · exact .inl rfl

/-- There is nothing left under a plain path whose removal succeeds. -/
theorem lookup_of_ociRmRf (hplain : ShellPlain path) (h : (ociRmRf env host path).2 = true) :
    (ociRmRf env host path).1.lookup env.cwd path = none := by
  unfold ociRmRf at h ⊢
  split_ifs at h ⊢
  · exact FileSystem.lookup_of_rmRf h

end

end Runtime

end CcOciRuntime
