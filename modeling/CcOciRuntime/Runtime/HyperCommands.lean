import CcOciRuntime.Lib.Search
import CcOciRuntime.Lib.Stages
import CcOciRuntime.Runtime.Commands

/-!
# The processes that the VM is told to start

`newcontainer` and `execcmd` tell the agent in the VM which process to start, with its arguments and
its environment. A home directory is added to the environment first, from the files below the root
path that list the users, but only to a list that is there: a configuration without variables is
sent without any, and one without the root path or the user of the container is sent the home
directory of somebody else. `envs_faithful_iff` says so for both commands.

Reference: `set_env_home` (`src/oci.c:374`), `cc_proxy_run_hyper_new_container`
(`src/proxy.c:1266`), `cc_proxy_hyper_exec_command` (`src/proxy.c:1555`).
-/

namespace CcOciRuntime

namespace Runtime

/-! ## The messages -/

/-- The message that passes a command on to the agent. Reference: `cc_proxy_run_hyper_cmd`
(`src/proxy.c:1054`). -/
def hyperMessage (cmd : String) (payload : Json) : Json :=
  .obj [("id", .str "hyper"), ("data", .obj [("hyperName", .str cmd), ("data", payload)])]

/-- A variable at its first `=`. Reference: `g_strstr_len` (`src/proxy.c:1340`). -/
def splitVar (var : String) : Option (String × String) :=
  (var.toList.dropInfix? ['=']).map fun p => (.ofList p.1, .ofList p.2)

/-- An entry of the environment, as a name and a value. -/
def envVar (e : String × String) : Json := .obj [("value", .str e.2), ("env", .str e.1)]

/-- The environment, unless a variable cannot be split. Reference: `src/proxy.c:1336-1352`,
`src/proxy.c:1593-1607`. -/
def envsArray (process : OciCfgProcess) : Option Json :=
  ((process.env.getD []).mapM splitVar).map fun es => .arr (es.map envVar)

/-- A text that may be null. -/
def jsonText : Option String → Json
  | some s => .str s
  | none => .null

/-- The members that a process has in both commands, before its directory. -/
def processFields (process : OciCfgProcess) : List (String × Json) :=
  [("terminal", .bool process.terminal), ("stdio", .int process.stdioStream.toInt),
    ("stderr", .int process.stderrStream.toInt)]

/-- The arguments and the environment. -/
def processArrays (process : OciCfgProcess) (envs : Json) : List (String × Json) :=
  [("args", .arr ((process.args.getD []).map .str)), ("envs", envs)]

/-- The message that is built for a new container, if it can be. Reference:
`cc_proxy_run_hyper_new_container` (`src/proxy.c:1266`). -/
def newContainerMessage (env : CommandEnv) (config : Config) (containerId rootfs image : String) :
    Option Json :=
  let process := (setEnvHome env config).oci.process
  (envsArray process).map fun envs => hyperMessage "newcontainer" (.obj
    [("id", .str containerId), ("rootfs", .str rootfs), ("image", .str image),
      ("restartPolicy", .str "never"), ("initialize", .bool false),
      ("process", .obj (processFields process ++ [("workdir", .str process.cwd.text)] ++
        processArrays process envs))])

/-- The configuration that is left, and the message that is sent, if one is. Reference:
`cc_proxy_hyper_exec_command` (`src/proxy.c:1555`). -/
def hyperExecCommand (env : CommandEnv) (config : Config) : Config × Option Json :=
  if config.proxy.isNone then (config, none)
  else if config.oci.process.stdioStream < 0 ∨ config.oci.process.stderrStream < 0 then
    (config, none)
  else
    let config := setEnvHome env config
    let process := config.oci.process
    (config, (envsArray process).map fun envs => hyperMessage "execcmd" (.obj
      [("container", jsonText config.optargContainerId),
        ("process", .obj (processFields process ++
          (if process.cwd.text = "" then [] else [("workdir", .str process.cwd.text)]) ++
          processArrays process envs))]))

/-- The environment in a message. -/
def sentEnvs (message : Json) : Option Json :=
  (message.member "data").bind fun data => (data.member "data").bind fun payload =>
    (payload.member "process").bind (Json.member "envs")

/-! ## What the environment should be -/

/-- The home directory that the files of the container with the root path `root` give a user, or the
root. -/
def containerHome (passwd : String → Option (List (UInt32 × String))) (root : String)
    (uid : UInt32) : String :=
  ((((passwd (root ++ "/" ++ "/etc/passwd")).getD [] ++
    (passwd (root ++ "/" ++ "/usr/share/defaults/etc/passwd")).getD []).find?
      fun e => e.1 = uid).map Prod.snd).getD "/"

/-- A variable and its two parts, at the first `=`. -/
def SplitsAs (var : String) (e : String × String) : Prop :=
  var = e.1 ++ "=" ++ e.2 ∧ '=' ∉ e.1.toList

/-- An entry of the environment that is the home directory. -/
def namesHome (e : String × String) : Bool := e.1 = "HOME"

/-- The environment of a process with the variables `vars`: the variables as they are configured, in
their order and split, after a home directory at most, which is there once unless more than one is
configured. -/
def EnvsFaithful (home : String) (vars : List String) (envs : List (String × String)) : Prop :=
  ∃ added split, envs = added ++ split ∧ (added = [] ∨ added = [("HOME", home)]) ∧
    List.Forall₂ SplitsAs vars split ∧ (split.countP namesHome ≤ 1 → envs.countP namesHome = 1)

section
variable {env : CommandEnv} {config : Config} {var : String} {vars : List String}

theorem getUserHomeDir_eq (path : String) : getUserHomeDir env config path =
    (((env.passwd path).getD []).find? fun e => e.1 = config.oci.process.user.uid).map
      Prod.snd := by
  rw [getUserHomeDir]
  cases env.passwd path <;> rfl

/-- The home directory that is added is the one below the root path of the configuration. -/
theorem homeDir_eq : homeDir env config =
    containerHome env.passwd config.oci.root.path.text config.oci.process.user.uid := by
  have hhome : containerHome env.passwd config.oci.root.path.text config.oci.process.user.uid =
      ((((env.passwd (passwdPath config)).getD [] ++
        (env.passwd (statelessPasswdPath config)).getD []).find?
          fun e => e.1 = config.oci.process.user.uid).map Prod.snd).getD "/" := rfl
  rw [homeDir, getUserHomeDir_eq, getUserHomeDir_eq, hhome, List.find?_append]
  cases ((env.passwd (passwdPath config)).getD []).find?
    fun e => e.1 = config.oci.process.user.uid <;> rfl

/-- The second file of a container is not the first one of any. -/
theorem stateless_ne_passwd (root root' : String) :
    root ++ "/" ++ "/usr/share/defaults/etc/passwd" ≠ root' ++ "/" ++ "/etc/passwd" := by
  intro h
  -- the twelfth character from the end
  have hchar := congrArg (fun s : String => s.toList.reverse[11]?) h
  simp [String.toList_append] at hchar

/-- The home directory is that of the user `uid` of the container at `root`, whatever the files
are, exactly if the configuration has this root path and this user. -/
theorem forall_homeDir_iff {root : String} {uid : UInt32} :
    (∀ passwd, homeDir { env with passwd } config = containerHome passwd root uid) ↔
      config.oci.root.path.text = root ∧ config.oci.process.user.uid = uid := by
  constructor
  · intro h
    by_contra hnot
    -- a container whose only file has only this user
    have hhome := h fun path =>
      if path = root ++ "/" ++ "/etc/passwd" then some [(uid, "/a")] else none
    rw [homeDir_eq, containerHome, containerHome] at hhome
    dsimp only at hhome
    rw [if_neg (stateless_ne_passwd _ root), if_neg (stateless_ne_passwd root root), if_pos rfl]
      at hhome
    by_cases hroot : config.oci.root.path.text = root
    · have huid : uid ≠ config.oci.process.user.uid := fun heq => hnot ⟨hroot, heq.symm⟩
      rw [hroot, if_pos rfl] at hhome
      simp [huid] at hhome
    · have hpath : config.oci.root.path.text ++ "/" ++ "/etc/passwd" ≠
          root ++ "/" ++ "/etc/passwd" := by
        intro heq
        have hlist := congrArg String.toList heq
        simp only [String.toList_append, List.append_assoc] at hlist
        exact hroot (String.toList_inj.1 (List.append_cancel_right hlist))
      rw [if_neg hpath] at hhome
      simp at hhome
  · rintro ⟨rfl, rfl⟩ passwd
    exact homeDir_eq

/-- The two parts of a variable. -/
def splitFirst (var : String) : String × String :=
  (.ofList (var.toList.takeWhile (· ≠ '=')), .ofList (var.toList.dropWhile (· ≠ '=')).tail)

/-- A variable is its name, the sign and its value. -/
theorem toList_eq_of_mem (h : '=' ∈ var.toList) :
    var.toList = (splitFirst var).1.toList ++ '=' :: (splitFirst var).2.toList ∧
      '=' ∉ (splitFirst var).1.toList := by
  obtain ⟨before, after, hvar, hbefore⟩ := List.eq_append_cons_of_mem h
  have hpos : ∀ c ∈ before, decide (c ≠ '=') = true := fun c hc =>
    decide_eq_true fun heq => hbefore (heq ▸ hc)
  have hsplit : splitFirst var = (.ofList before, .ofList after) := by
    rw [splitFirst, hvar, List.takeWhile_append_of_pos hpos, List.dropWhile_append_of_pos hpos,
      List.takeWhile_cons_of_neg (by decide), List.dropWhile_cons_of_neg (by decide),
      List.append_nil, List.tail_cons]
  rw [hsplit, String.toList_ofList, String.toList_ofList]
  exact ⟨hvar, hbefore⟩

theorem splitVar_of_mem (h : '=' ∈ var.toList) : splitVar var = some (splitFirst var) := by
  obtain ⟨hvar, hbefore⟩ := toList_eq_of_mem h
  rw [splitVar, hvar, dropInfix?_singleton hbefore, Option.map_some, String.ofList_toList,
    String.ofList_toList]

theorem splitsAs_splitFirst (h : '=' ∈ var.toList) : SplitsAs var (splitFirst var) := by
  obtain ⟨hvar, hbefore⟩ := toList_eq_of_mem h
  refine ⟨String.toList_inj.1 ?_, hbefore⟩
  rw [hvar]
  simp

/-- A variable begins with `HOME=` exactly if its name is `HOME`. -/
theorem namesHome_splitFirst (h : '=' ∈ var.toList) :
    namesHome (splitFirst var) = isHome var := by
  obtain ⟨hvar, hbefore⟩ := toList_eq_of_mem h
  rw [Bool.eq_iff_iff, namesHome, isHome, decide_eq_true_iff, List.isPrefixOf_iff_prefix]
  constructor
  · intro hname
    rw [hvar, hname]
    exact ⟨(splitFirst var).2.toList, rfl⟩
  · rintro ⟨rest, hrest⟩
    have hsame : "HOME".toList ++ '=' :: rest = var.toList := hrest
    rw [hvar] at hsame
    exact String.toList_inj.1 (append_cons_inj (by decide) hbefore hsame).1.symm

theorem envsArray_of_mem {process : OciCfgProcess}
    (h : ∀ var ∈ process.env.getD [], '=' ∈ var.toList) :
    envsArray process = some (.arr (((process.env.getD []).map splitFirst).map envVar)) := by
  rw [envsArray, mapM_of_forall fun var hvar => splitVar_of_mem (h var hvar), Option.map_some]

/-- The variables after a home directory was set. -/
theorem env_setEnvHome (h : config.oci.process.env = some vars) :
    (setEnvHome env config).oci.process.env =
      some (if vars.any isHome then vars else ("HOME=" ++ homeDir env config) :: vars) := by
  rw [setEnvHome, h]
  dsimp only
  split_ifs
  · exact h
  · rfl

/-- The added variable is split. -/
theorem splitFirst_home (home : String) : splitFirst ("HOME=" ++ home) = ("HOME", home) := by
  have hlist : ("HOME=" ++ home).toList = "HOME".toList ++ '=' :: home.toList := by simp
  have hmem : '=' ∈ ("HOME=" ++ home).toList := by
    rw [hlist]
    exact List.mem_append_right _ List.mem_cons_self
  have hsplit := splitVar_of_mem hmem
  rw [splitVar, hlist, dropInfix?_singleton (by decide), Option.map_some, String.ofList_toList,
    String.ofList_toList] at hsplit
  exact (Option.some.inj hsplit).symm

/-- The variables as they are configured, where one of them is a home directory. -/
theorem envsFaithful_of_any (h : ∀ var ∈ vars, '=' ∈ var.toList)
    (hhome : vars.any isHome = true) (home : String) :
    EnvsFaithful home vars (vars.map splitFirst) := by
  refine ⟨[], vars.map splitFirst, rfl, .inl rfl, ?_, fun hle => ?_⟩
  · exact List.forall₂_map_right_iff.2
      (List.forall₂_same.2 fun var hvar => splitsAs_splitFirst (h var hvar))
  · obtain ⟨var, hvar, hishome⟩ := List.any_eq_true.1 hhome
    have hpos : 0 < (vars.map splitFirst).countP namesHome :=
      List.countP_pos_iff.2 ⟨_, List.mem_map_of_mem hvar,
        (namesHome_splitFirst (h var hvar)).trans hishome⟩
    omega

/-- The variables after a home directory, where none of them is one. -/
theorem envsFaithful_of_not_any (h : ∀ var ∈ vars, '=' ∈ var.toList)
    (hhome : ¬ vars.any isHome = true) (home : String) :
    EnvsFaithful home vars (("HOME", home) :: vars.map splitFirst) := by
  refine ⟨[("HOME", home)], vars.map splitFirst, rfl, .inr rfl, ?_, fun _ => ?_⟩
  · exact List.forall₂_map_right_iff.2
      (List.forall₂_same.2 fun var hvar => splitsAs_splitFirst (h var hvar))
  · have hnone : (vars.map splitFirst).countP namesHome = 0 := by
      rw [List.countP_eq_zero]
      intro e he
      obtain ⟨var, hvar, rfl⟩ := List.mem_map.1 he
      rw [namesHome_splitFirst (h var hvar)]
      exact fun hishome => hhome (List.any_eq_true.2 ⟨var, hvar, hishome⟩)
    rw [List.countP_cons_of_pos rfl, hnone]

/-- A home directory in front of the variables is the one that was to be added. -/
theorem EnvsFaithful.home_eq {home home' : String}
    (h : EnvsFaithful home vars (("HOME", home') :: vars.map splitFirst)) : home' = home := by
  obtain ⟨added, split, henvs, hadded, hsplit, -⟩ := h
  have hlen := congrArg List.length henvs
  rw [List.length_cons, List.length_map, List.length_append, hsplit.length_eq] at hlen
  obtain rfl | rfl := hadded
  · simp at hlen
  · exact (Prod.mk.inj (List.cons.inj henvs).1).2

/-- An entry shows its name and its value. -/
theorem envVar_injective : Function.Injective envVar := by
  rintro ⟨k, v⟩ ⟨k', v'⟩ h
  obtain ⟨hv, hrest⟩ := List.cons.inj (Json.obj.inj h)
  obtain ⟨hk, -⟩ := List.cons.inj hrest
  exact Prod.ext (Json.str.inj (Prod.mk.inj hk).2) (Json.str.inj (Prod.mk.inj hv).2)

/-- The environment that is built for a process after its home directory was set is the one of the
home directory `home` exactly if the variables are there and it is needed only if it is this one. -/
theorem envsArray_setEnvHome_iff {home : String}
    (h : ∀ var ∈ config.oci.process.env.getD [], '=' ∈ var.toList) :
    (∃ envs, envsArray (setEnvHome env config).oci.process = some (.arr (envs.map envVar)) ∧
      EnvsFaithful home (config.oci.process.env.getD []) envs) ↔
    ∃ vars, config.oci.process.env = some vars ∧
      (vars.any isHome = true ∨ homeDir env config = home) := by
  cases henv : config.oci.process.env with
  | none =>
    refine iff_of_false ?_ (fun ⟨_, hvars, _⟩ => nomatch hvars)
    rintro ⟨envs, harray, added, split, rfl, -, hsplit, hone⟩
    have hsame : setEnvHome env config = config := by rw [setEnvHome, henv]
    rw [hsame, envsArray, henv] at harray
    have hnil : [] = (added ++ split).map envVar := Json.arr.inj (Option.some.inj harray)
    rw [List.map_eq_nil_iff.1 hnil.symm] at hone
    cases hsplit
    exact absurd (hone (Nat.zero_le _)) (by decide)
  | some vars =>
    rw [henv, Option.getD_some] at h
    have hset := @env_setEnvHome env config vars henv
    split_ifs at hset with hhome
    · have hvars : ∀ var ∈ (setEnvHome env config).oci.process.env.getD [], '=' ∈ var.toList := by
        rwa [hset]
      refine iff_of_true ⟨vars.map splitFirst, ?_, envsFaithful_of_any h hhome _⟩
        ⟨vars, rfl, .inl hhome⟩
      rw [envsArray_of_mem hvars, hset]
      rfl
    · have hvars : ∀ var ∈ (setEnvHome env config).oci.process.env.getD [], '=' ∈ var.toList := by
        rw [hset, Option.getD_some, List.forall_mem_cons]
        exact ⟨by simp, h⟩
      have harray : envsArray (setEnvHome env config).oci.process =
          some (.arr ((("HOME", homeDir env config) :: vars.map splitFirst).map envVar)) := by
        rw [envsArray_of_mem hvars, hset, Option.getD_some, List.map_cons, splitFirst_home]
      constructor
      · rintro ⟨envs, hsent, hfaithful⟩
        have hsame := Json.arr.inj (Option.some.inj (hsent.symm.trans harray))
        rw [List.map_injective_iff.2 envVar_injective hsame] at hfaithful
        exact ⟨vars, rfl, .inr hfaithful.home_eq⟩
      · rintro ⟨_, ⟨⟩, hany | rfl⟩
        · exact absurd hany hhome
        · exact ⟨_, harray, envsFaithful_of_not_any h hhome _⟩

end

section
variable {env : CommandEnv} {config : Config}

theorem sentEnvs_newContainer (containerId rootfs image : String) :
    (newContainerMessage env config containerId rootfs image).bind sentEnvs =
      envsArray (setEnvHome env config).oci.process := by
  rw [newContainerMessage]
  cases envsArray (setEnvHome env config).oci.process <;> rfl

/-- What `exec` sends as the environment. -/
theorem sentEnvs_exec (hproxy : config.proxy.isSome)
    (hstreams : 0 ≤ config.oci.process.stdioStream ∧ 0 ≤ config.oci.process.stderrStream) :
    (hyperExecCommand env config).2.bind sentEnvs =
      envsArray (setEnvHome env config).oci.process := by
  have hnonneg : ¬ (config.oci.process.stdioStream < 0 ∨ config.oci.process.stderrStream < 0) := by
    rintro (hneg | hneg)
    · exact absurd hstreams.1 (Int32.not_le.2 hneg)
    · exact absurd hstreams.2 (Int32.not_le.2 hneg)
  rw [hyperExecCommand, if_neg (by simp [Option.isSome_iff_ne_none.1 hproxy]), if_neg hnonneg]
  dsimp only
  cases envsArray (setEnvHome env config).oci.process with
  | none => rfl
  | some envs =>
    split_ifs <;> rfl

end

/-- **The environment that is sent to the VM**, by both commands and for every list of variables:
whatever the files of the container at `root` say about its user `uid`, it is the configured one
with a home directory exactly if the list is there and names the home directory, or the
configuration has the root path and the user. -/
theorem envs_faithful_iff (env : CommandEnv) (config : Config) (root : String) (uid : UInt32)
    (containerId rootfs image : String)
    (hvars : ∀ var ∈ config.oci.process.env.getD [], '=' ∈ var.toList)
    (hproxy : config.proxy.isSome)
    (hstreams : 0 ≤ config.oci.process.stdioStream ∧ 0 ≤ config.oci.process.stderrStream) :
    (∀ passwd, ∀ message ∈ [newContainerMessage { env with passwd } config containerId rootfs image,
        (hyperExecCommand { env with passwd } config).2],
      ∃ envs, message.bind sentEnvs = some (.arr (envs.map envVar)) ∧
        EnvsFaithful (containerHome passwd root uid) (config.oci.process.env.getD []) envs) ↔
    ∃ vars, config.oci.process.env = some vars ∧ (vars.any isHome = true ∨
      config.oci.root.path.text = root ∧ config.oci.process.user.uid = uid) := by
  have hboth : ∀ passwd, (∀ message ∈ [newContainerMessage { env with passwd } config containerId
        rootfs image, (hyperExecCommand { env with passwd } config).2],
      ∃ envs, message.bind sentEnvs = some (.arr (envs.map envVar)) ∧
        EnvsFaithful (containerHome passwd root uid) (config.oci.process.env.getD []) envs) ↔
      ∃ vars, config.oci.process.env = some vars ∧ (vars.any isHome = true ∨
        homeDir { env with passwd } config = containerHome passwd root uid) := by
    intro passwd
    rw [List.forall_mem_cons, List.forall_mem_singleton, sentEnvs_newContainer,
      sentEnvs_exec hproxy hstreams, and_self]
    exact envsArray_setEnvHome_iff hvars
  rw [← @forall_homeDir_iff env config root uid]
  constructor
  · intro h
    obtain ⟨vars, henv, -⟩ := (hboth fun _ => none).1 (h _)
    refine ⟨vars, henv, or_iff_not_imp_left.2 fun hany passwd => ?_⟩
    obtain ⟨_, henv', hhome⟩ := (hboth passwd).1 (h passwd)
    obtain rfl := Option.some.inj (henv'.symm.trans henv)
    exact hhome.resolve_left hany
  · rintro ⟨vars, henv, hhome⟩ passwd
    exact (hboth passwd).2 ⟨vars, henv, hhome.imp_right fun h => h passwd⟩

/-- A container with a user in each of its two files, on a host with a user. -/
def sampleUsers : CommandEnv where
  saved := fun _ => true
  passwd := fun path =>
    if path = "//etc/passwd" then some [(1000, "/host")]
    else if path = "/c//etc/passwd" then some [(0, "/root"), (1000, "/home/user")]
    else if path = "/c//usr/share/defaults/etc/passwd" then some [(7, "/var/empty")]
    else none

/-- A process of the user 1000 with the given variables. -/
def sampleProcess (env : Option (List String)) : Config :=
  { configCreate with
    oci.root.path := .copy "/c"
    oci.process := { cwd := .copy "/", args := some ["sh"], env, user := ⟨1000, 100⟩ } }

/-- The variables that a command sends, as text. -/
def envsText (message : Option Json) : Option (List (String × String)) :=
  match message.bind sentEnvs with
  | some (.arr es) => es.mapM fun e =>
    match e.member "env", e.member "value" with
    | some (.str k), some (.str v) => some (k, v)
    | _, _ => none
  | _ => none

/-- Two variables, one with a second `=`. -/
theorem envs_faithful_two :
    envsText (newContainerMessage sampleUsers (sampleProcess (some ["PATH=/bin", "A=b=c"]))
      "c1" "" "") = some [("HOME", "/home/user"), ("PATH", "/bin"), ("A", "b=c")] ∧
    ∃ envs, (hyperExecCommand sampleUsers (sampleProcess (some ["PATH=/bin", "A=b=c"]))).2.bind
        sentEnvs = some (.arr (envs.map envVar)) ∧
      EnvsFaithful "/home/user" ["PATH=/bin", "A=b=c"] envs := by
  refine ⟨by decide +kernel, ?_⟩
  have hhome : containerHome sampleUsers.passwd "/c" 1000 = "/home/user" := by
    decide +kernel
  have hfaithful := (envs_faithful_iff sampleUsers (sampleProcess (some ["PATH=/bin", "A=b=c"]))
    "/c" 1000 "c1" "" "" (by decide +kernel) rfl (by decide)).2
    ⟨_, rfl, .inr ⟨by decide +kernel, rfl⟩⟩ sampleUsers.passwd _
    (List.mem_cons_of_mem _ List.mem_cons_self)
  rwa [hhome] at hfaithful

/-- A process without variables, which one with an empty list of them is, too, gets no home
directory from either command. Without the root path, the home directory is that of the host's
user. -/
theorem envs_absent :
    (handleProcessSection {} (memberNode ("env", .arr []))).map OciCfgProcess.env = some none ∧
      envsText (newContainerMessage sampleUsers (sampleProcess none) "c1" "" "") = some [] ∧
      envsText (hyperExecCommand sampleUsers (sampleProcess none)).2 = some [] ∧
      containerHome sampleUsers.passwd "/c" 1000 = "/home/user" ∧
      envsText (hyperExecCommand sampleUsers
        { sampleProcess (some ["A=b"]) with oci.root.path := .empty }).2 =
          some [("HOME", "/host"), ("A", "b")] := by
  decide +kernel

end Runtime

end CcOciRuntime
