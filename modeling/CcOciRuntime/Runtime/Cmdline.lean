import CcOciRuntime.Lib.Substitution
import CcOciRuntime.Runtime.ArgsPipe
import CcOciRuntime.Runtime.Launch
import CcOciRuntime.Runtime.Mounts
import Mathlib.Data.List.DropRight

/-!
# The command line of the hypervisor

The arguments of the hypervisor are the lines of a file. Comments are cut off, tags are replaced by
what the configuration says, and the arguments for the network are added.

Texts are the bytes before the terminating zero, and no text reaches the limits of an `int`.

Reference: `src/hypervisor.c`, and `cc_oci_replace_string`, `cc_oci_file_to_strv` (`src/util.c`).
-/

namespace CcOciRuntime

namespace Runtime

/-! ## Texts -/

/-- The byte that begins a comment. -/
def hash : UInt8 := 35

/-- Reference: `g_ascii_isspace` of GLib. -/
def isSpace (b : UInt8) : Bool := b = 9 || b = 10 || b = 12 || b = 13 || b = 32

/-- Reference: `g_strstrip` of GLib. -/
def strip (text : List UInt8) : List UInt8 := (text.dropWhile isSpace).rdropWhile isSpace

/-- A text of the configuration. -/
def cText (s : String) : List UInt8 := utf8 (cString s.toList)

/-- The first occurrence of `needle` is replaced; `none` is a null pointer. The name is skipped by
its characters (and is shorter than `LINE_MAX`). Reference: `cc_oci_replace_string`
(`src/util.c:341`). -/
def replaceString (str needle : List UInt8) (value : Option (List UInt8)) : List UInt8 :=
  match value with
  | none => str
  | some value =>
    if needle = [] then str
    else
      match str.dropInfix? needle with
      | none => str
      | some (pre, _) => pre ++ value ++ str.drop (pre.length + charCount needle)

/-! ## What the host and the configuration say -/

/-- The bytes of a UUID. Reference: `uuid_t` of libuuid. -/
structure Uuid where
  bytes : List UInt8
  length_eq : bytes.length = 16

/-- The answers of the host, and the directories that are set when the runtime is built. -/
structure ArgsEnv where
  sysconfdir : String
  defaultsdir : String
  fileExists : String → Bool
  isDir : String → Bool
  /-- the size of a file for which `stat` succeeds -/
  size : String → Option Nat
  /-- the content of a file, or the text of the error -/
  contents : String → Except String (List UInt8)
  /-- `g_find_program_in_path` -/
  findProgram : List UInt8 → Option (List UInt8)
  /-- the result of `uuid_generate_random` -/
  uuid : Uuid

/-- Reference: `struct cc_oci_net_cfg` (`src/oci.h:309`). -/
structure CcOciNetCfg where
  hostname : Option String := none

/-- Reference: `cc_oci_expand_net_cmdline` (`src/hypervisor.c:49`). -/
def expandNetCmdline (net : CcOciNetCfg) : Option (List UInt8) :=
  net.hostname.map fun hostname => cText "ip=::::::" ++ cText hostname ++ cText "::off::"

/-- Two digits of a byte. Reference: `"%02x"`. -/
def hexByte (b : UInt8) : List UInt8 :=
  utf8 [Nat.digitChar (b.toNat / 16), Nat.digitChar (b.toNat % 16)]

/-- The byte between the parts of a UUID. -/
def dash : UInt8 := 45

/-- Reference: `uuid_pattern` (`src/hypervisor.c:183`). -/
def uuidPattern : List UInt8 := cText "00000000-0000-0000-0000-000000000000"

/-- The text of a UUID, with the separators where the pattern has them. Reference:
`src/hypervisor.c:239-251`. -/
def uuidStr (uuid : Uuid) : List UInt8 :=
  uuid.bytes.foldl (fun str b =>
    let str := str ++ hexByte b
    if uuidPattern[str.length]? = some dash then str ++ [dash] else str) []

/-- What follows the last separator. Reference: `g_strrstr(uuid_str, "-")+1`
(`src/hypervisor.c:295`). -/
def uuidName (uuid : Uuid) : List UInt8 := (uuidStr uuid).rtakeWhile (· ≠ dash)

/-- A tag and its value. Reference: `struct special_tag` (`src/hypervisor.c:282`). -/
abbrev SpecialTag := List UInt8 × Option (List UInt8)

/-- The tags with their values; `size` is the size of the image. Reference:
`src/hypervisor.c:253-300`. -/
def tagTable (env : ArgsEnv) (net : CcOciNetCfg) (config : Config) (vm : CcOciVmCfg) (size : Nat) :
    List SpecialTag :=
  let path := buildPath config.state.runtimePath.text
  [(cText "@WORKLOAD_DIR@", some (cText (getWorkloadDir config))),
    (cText "@KERNEL@", some (cText vm.kernelPath.text)),
    (cText "@KERNEL_PARAMS@", vm.kernelParams.map cText),
    (cText "@KERNEL_NET_PARAMS@", expandNetCmdline net),
    (cText "@IMAGE@", some (cText vm.imagePath.text)),
    (cText "@SIZE@", some (cText (toString size))),
    (cText "@COMMS_SOCKET@", some (cText config.state.commsPath.text)),
    (cText "@PROCESS_SOCKET@", some (cText "socket,id=procsock,path=" ++
      cText config.state.procsockPath.text ++ cText ",server,nowait")),
    (cText "@CONSOLE_DEVICE@", some (cText "socket,path=" ++ cText (path "console.sock") ++
      cText ",server,nowait,id=charconsole0,signal=off")),
    (cText "@NAME@", some (uuidName env.uuid)),
    (cText "@UUID@", some (uuidStr env.uuid)),
    (cText "@AGENT_CTL_SOCKET@", some (cText (path "ga-ctl.sock"))),
    (cText "@AGENT_TTY_SOCKET@", some (cText (path "ga-tty.sock")))]

/-- The tags, unless the configuration is refused with a message. The workload directory is an
array, so its absence is never logged. Reference: `src/hypervisor.c:189-300`. -/
def specialTags (env : ArgsEnv) (net : CcOciNetCfg) (config : Config) :
    Except String (List SpecialTag) :=
  match config.vm with
  | none => .error "No vm configuration"
  | some vm =>
    if config.bundlePath.isNone then .error "No bundle path"
    else if config.proxy.isNone then .error "No proxy"
    else
      match if vm.imagePath.text = "" then none else env.size vm.imagePath.text with
      | none => .error ("image file: " ++ vm.imagePath.text ++ " does not exist")
      | some size =>
        if vm.kernelPath.text = "" ∨ env.fileExists vm.kernelPath.text = false then
          .error ("kernel image: " ++ vm.kernelPath.text ++ " does not exist")
        else if getWorkloadDir config = "" ∨ env.isDir (getWorkloadDir config) = false then
          .error ("workload directory: " ++ getWorkloadDir config ++ " does not exist")
        else .ok (tagTable env net config vm size)

/-! ## Expanding -/

/-- The command of the first line is looked up. Reference: `src/hypervisor.c:303-313`. -/
def findCommand (env : ArgsEnv) : List (List UInt8) → List (List UInt8)
  | [] => []
  | arg :: args =>
    if arg.head? = some 47 then arg :: args else (env.findProgram arg).getD arg :: args

/-- The text from `rest` on is searched for a comment; `front` stands before it. The bound of each
search is counted from where it begins. Reference: `src/hypervisor.c:322-330`. -/
def cutComment : Nat → List UInt8 → List UInt8 → List UInt8
  | 0, front, rest => front ++ rest
  | fuel + 1, front, rest =>
    match (rest.take lineMax).dropInfix? [hash] with
    | none => front ++ rest
    | some (before, _) =>
      let text := front ++ before
      if text.getLast?.any isSpace then text
      else cutComment fuel (text ++ [hash]) (rest.drop (before.length + 1))

/-- Reference: `src/hypervisor.c:332-336`. -/
def expandTags (tags : List SpecialTag) (arg : List UInt8) : List UInt8 :=
  tags.foldl (fun arg tag => replaceString arg tag.1 tag.2) arg

/-- A line that is a comment is not expanded. Reference: `src/hypervisor.c:316-336`. -/
def expandLine (tags : List SpecialTag) (arg : List UInt8) : List UInt8 :=
  if arg.head? = some hash then [] else expandTags tags (cutComment arg.length [] arg)

/-- What is left of a line before the tags are replaced. -/
def removeComment (arg : List UInt8) : List UInt8 :=
  if arg.head? = some hash then [] else cutComment arg.length [] arg

/-- The expanded lines, and the configuration with the sockets that it has set. Reference:
`cc_oci_expand_cmdline` (`src/hypervisor.c:168`). -/
def expandCmdline (env : ArgsEnv) (net : CcOciNetCfg) (config : Config)
    (args : List (List UInt8)) : Except String (Config × List (List UInt8)) :=
  (specialTags env net config).map fun tags =>
    (config.withSockets, (findCommand env args).map (expandLine tags))

/-! ## The arguments -/

/-- Reference: `CC_OCI_HYPERVISOR_CMDLINE_FILE` (`src/hypervisor.h:25`). -/
def hypervisorCmdlineFile : String := "hypervisor.args"

/-- Reference: `cc_oci_vm_args_file_path` (`src/hypervisor.c:359`). -/
def vmArgsFilePath (env : ArgsEnv) (config : Config) : Option String :=
  match config.bundlePath with
  | none => none
  | some bundlePath =>
    if bundlePath = "" then none
    else
      [bundlePath, env.sysconfdir, env.defaultsdir].map (buildPath · hypervisorCmdlineFile) |>.find?
        env.fileExists

/-- The lines of a file, without the empty one behind the last newline; an empty file is refused
without a message. Reference: `cc_oci_file_to_strv` (`src/util.c:388`). -/
def fileToStrv (env : ArgsEnv) (file : String) : Except String (List (List UInt8)) :=
  if file.toList.head? ≠ some '/' then .error ("No absolute path : " ++ file)
  else
    match env.contents file with
    | .error message => .error ("failed to read file " ++ file ++ ": " ++ message)
    | .ok contents =>
      let strv := splitArgs (cBytes contents)
      if strv = [] then .error ""
      else .ok (if strv.getLast? = some [] then strv.dropLast else strv)

/-- Null pointers among the additional arguments are skipped. Reference: `cc_oci_vm_args_get`
(`src/hypervisor.c:421`). -/
def vmArgsGet (env : ArgsEnv) (net : CcOciNetCfg) (config : Config)
    (extraArgs : List (Option (List UInt8))) : Except String (Config × List (List UInt8)) :=
  match vmArgsFilePath env config with
  | none => .error ("File " ++ hypervisorCmdlineFile ++ " not found")
  | some file =>
    match fileToStrv env file with
    | .error message => .error message
    | .ok args =>
      (expandCmdline env net config args).map fun (config, args) =>
        (config, (args.filter (· ≠ [])).map strip ++ extraArgs.reduceOption.map strip)

/-! ## The table -/

/-- The byte at both ends of a tag. -/
def atSign : UInt8 := 64

/-- The tags in the order of the table. Reference: `src/hypervisor.c:286-298`. -/
def tagNames : List (List UInt8) :=
  ["@WORKLOAD_DIR@", "@KERNEL@", "@KERNEL_PARAMS@", "@KERNEL_NET_PARAMS@", "@IMAGE@", "@SIZE@",
    "@COMMS_SOCKET@", "@PROCESS_SOCKET@", "@CONSOLE_DEVICE@", "@NAME@", "@UUID@",
    "@AGENT_CTL_SOCKET@", "@AGENT_TTY_SOCKET@"].map cText

section
variable {env : ArgsEnv} {net : CcOciNetCfg} {config : Config} {tags : List SpecialTag}

/-- The tags are those of the table. -/
theorem exists_tagTable (h : specialTags env net config = .ok tags) :
    ∃ vm size, tags = tagTable env net config vm size := by
  rw [specialTags] at h
  split at h
  · cases h
  · next vm _ =>
    split at h
    · cases h
    split at h
    · cases h
    split at h
    · cases h
    · next size _ =>
      split_ifs at h
      exact ⟨vm, size, (Except.ok.inj h).symm⟩

/-- Every configuration that is accepted has the same tags. -/
theorem names_of_specialTags (h : specialTags env net config = .ok tags) :
    tags.map Prod.fst = tagNames := by
  obtain ⟨vm, size, rfl⟩ := exists_tagTable h
  rfl

/-- The names stand between two delimiters, and have ASCII characters only and no hash. -/
theorem tagNames_shape : ∀ name ∈ tagNames, charCount name = name.length ∧ hash ∉ name ∧
    name.tail.dropLast ≠ [] ∧ atSign ∉ name.tail.dropLast ∧
    name = atSign :: (name.tail.dropLast ++ [atSign]) := by
  decide +kernel

theorem delimited_of_mem_tagNames {name : List UInt8} (h : name ∈ tagNames) :
    Substitution.Delimited atSign name :=
  ⟨_, (tagNames_shape name h).2.2⟩

theorem nodup_tagNames : tagNames.Nodup := by decide +kernel

theorem ne_nil_of_mem_tagNames {name : List UInt8} (h : name ∈ tagNames) : name ≠ [] :=
  (delimited_of_mem_tagNames h).ne_nil

/-- The name of a tag is skipped as a whole. -/
theorem replaceString_eq {name : List UInt8} (h : name ∈ tagNames) (str : List UInt8)
    (value : List UInt8) :
    replaceString str name (some value) = Substitution.replaceFirst id name value str := by
  rw [replaceString, if_neg (ne_nil_of_mem_tagNames h), Substitution.replaceFirst, List.map_id,
    (tagNames_shape name h).1]
  cases hcut : str.dropInfix? name with
  | none => rfl
  | some r =>
    obtain ⟨pre, post⟩ := r
    obtain ⟨rfl, -⟩ := dropInfix?_eq_some.1 hcut
    dsimp only
    rw [List.append_assoc pre name post, List.take_left]

/-- The loop over the tags replaces them one after the other. -/
theorem expandTags_eq (h : ∀ tag ∈ tags, tag.1 ∈ tagNames) (arg : List UInt8) :
    expandTags tags arg = Substitution.replaceTags id tags arg := by
  induction tags generalizing arg with
  | nil => rfl
  | cons tag tags ih =>
    obtain ⟨name, value⟩ := tag
    obtain ⟨hname, htags⟩ := List.forall_mem_cons.1 h
    cases value with
    | none => exact ih htags arg
    | some value =>
      change expandTags tags (replaceString arg name (some value)) = _
      rw [replaceString_eq hname, ih htags]
      rfl

theorem names_mem_tagNames (h : specialTags env net config = .ok tags) :
    ∀ tag ∈ tags, tag.1 ∈ tagNames := by
  intro tag htag
  rw [← names_of_specialTags h]
  exact List.mem_map_of_mem htag

/-- A comment has no tags. -/
theorem expandLine_eq (h : ∀ tag ∈ tags, tag.1 ∈ tagNames) (arg : List UInt8) :
    expandLine tags arg = expandTags tags (removeComment arg) := by
  rw [expandLine, removeComment]
  split_ifs
  · rw [expandTags_eq h]
    refine (Substitution.replaceTags_of_not_mem fun tag htag => ?_).symm
    obtain ⟨b, hb⟩ := List.exists_mem_of_ne_nil _ (ne_nil_of_mem_tagNames (h tag htag))
    exact ⟨b, hb, List.not_mem_nil⟩
  · rfl

/-- What `cc_oci_expand_cmdline` returns. -/
theorem expandCmdline_eq_ok {args args' : List (List UInt8)} {config' : Config}
    (h : expandCmdline env net config args = .ok (config', args')) :
    ∃ tags, specialTags env net config = .ok tags ∧ config' = config.withSockets ∧
      args' = (findCommand env args).map (expandLine tags) := by
  obtain ⟨tags, htags, heq⟩ := map_eq_ok_iff.1 h
  obtain ⟨rfl, rfl⟩ := Prod.mk.inj heq
  exact ⟨tags, htags, rfl, rfl⟩

/-- What `cc_oci_vm_args_get` returns. -/
theorem vmArgsGet_eq_ok {extraArgs : List (Option (List UInt8))} {args : List (List UInt8)}
    {config' : Config} (h : vmArgsGet env net config extraArgs = .ok (config', args)) :
    ∃ file lines tags, vmArgsFilePath env config = some file ∧ fileToStrv env file = .ok lines ∧
      specialTags env net config = .ok tags ∧ config' = config.withSockets ∧
      args = (((findCommand env lines).map (expandLine tags)).filter (· ≠ [])).map strip ++
        extraArgs.reduceOption.map strip := by
  rw [vmArgsGet] at h
  split at h
  · cases h
  · next file hfile =>
    split at h
    · cases h
    · next lines hlines =>
      obtain ⟨⟨config'', args''⟩, hexpand, heq⟩ := map_eq_ok_iff.1 h
      obtain ⟨rfl, rfl⟩ := Prod.mk.inj heq
      obtain ⟨tags, htags, rfl, rfl⟩ := expandCmdline_eq_ok hexpand
      exact ⟨file, lines, tags, hfile, hlines, htags, rfl, rfl⟩

end

/-- A host with the files of a container, and nothing in its `PATH`. -/
def plainHost (contents : List UInt8) : ArgsEnv where
  sysconfdir := "/etc"
  defaultsdir := "/usr/share/defaults"
  fileExists _ := true
  isDir _ := true
  size _ := some 4096
  contents _ := .ok contents
  findProgram _ := none
  uuid := ⟨List.replicate 16 0, rfl⟩

/-- The virtual machine of a container. -/
def plainVm (kernelParams : Option String) : CcOciVmCfg where
  imagePath := .copy "/image"
  kernelPath := .copy "/kernel"
  kernelParams := kernelParams

/-- A container with a virtual machine. -/
def plainConfig (kernelParams : Option String) : Config where
  vm := some (plainVm kernelParams)
  bundlePath := some "/bundle"
  proxy := some {}
  oci := { root := { path := .copy "/rootfs" } }

end Runtime

end CcOciRuntime
