import CcOciRuntime.Runtime.Create
import CcOciRuntime.Runtime.StateRoundTrip

/-!
# The identity of a workload

The identity of a workload is the path of its root file system and its user and group. `create`
reads them from `config.json` (`prepare_identity`) and works with them to its end
(`create_identity`), but the state file has no place for them: what a `start` in a process of its
own rebuilds from the file has no root path and user 0 (`rebuilt_identity`), whatever `config.json`
says (`identity_lost`).

Reference: `handle_user_section` (`src/spec_handlers/process.c:28`), `cc_oci_process_to_json`
(`src/oci.c:1527`), `handle_state_process_section` (`src/state.c:496`), `set_env_home`
(`src/oci.c:374`).
-/

namespace CcOciRuntime

namespace Runtime

/-! ## Sections and their members -/

section
variable {σ α : Type*} {f : σ → GNode → Option σ} (π : σ → α) {k : String}

/-- Members of other names leave what the member `k` sets. -/
theorem foldlM_members_other
    (hother : ∀ s s' n cs, n ≠ k → f s (.mk (some n) cs) = some s' → π s' = π s) :
    ∀ {ms : List (String × Json)} {s s' : σ}, k ∉ ms.map Prod.fst →
      (jsonParseMembers ms).foldlM f s = some s' → π s' = π s
  | [], s, s', _, h => by
    cases h
    rfl
  | (n, v) :: ms, s, s', hk, h => by
    rw [List.map_cons, List.mem_cons, not_or] at hk
    rw [jsonParseMembers, List.foldlM_cons] at h
    obtain ⟨t, ht, hrest⟩ := Option.bind_eq_some_iff.1 h
    rw [foldlM_members_other hother hk.2 hrest, hother s t n _ (Ne.symm hk.1) ht]

/-- **A member's value.** A handler that is run over the members of an object, and that sets `π`
from the member `k` only, leaves there what it makes of that member. -/
theorem foldlM_members {v : Json} {a : α}
    (hother : ∀ s s' n cs, n ≠ k → f s (.mk (some n) cs) = some s' → π s' = π s)
    (hself : ∀ s s', f s (.mk (some k) (jsonParseAux false v)) = some s' → π s' = a) :
    ∀ {ms : List (String × Json)} {s s' : σ}, (ms.map Prod.fst).Nodup → Json.find k ms = some v →
      (jsonParseMembers ms).foldlM f s = some s' → π s' = a
  | [], _, _, _, hfind, _ => by cases hfind
  | (n, w) :: ms, s, s', hnodup, hfind, h => by
    rw [List.map_cons, List.nodup_cons] at hnodup
    rw [jsonParseMembers, List.foldlM_cons] at h
    obtain ⟨t, ht, hrest⟩ := Option.bind_eq_some_iff.1 h
    rw [Json.find_cons] at hfind
    split_ifs at hfind with hn
    · subst hn
      obtain rfl := Option.some.inj hfind
      rw [foldlM_members_other π hother hnodup.1 hrest]
      exact hself s t ht
    · exact foldlM_members hother hself hnodup.2 hfind hrest

end

/-! ## The identity in `config.json` -/

/-- The document of `config.json` has this root path, user and group. The names of an object's
members are distinct, as the parser leaves them. -/
structure SpecIdentity (ms : List (String × Json)) (path : String) (uid gid : Nat) : Prop where
  names : (ms.map Prod.fst).Nodup
  root : ∃ rs, Json.find "root" ms = some (.obj rs) ∧ (rs.map Prod.fst).Nodup ∧
    Json.find "path" rs = some (.str path)
  process : ∃ ps us, Json.find "process" ms = some (.obj ps) ∧ (ps.map Prod.fst).Nodup ∧
    Json.find "user" ps = some (.obj us) ∧ (us.map Prod.fst).Nodup ∧
    Json.find "uid" us = some (.int uid) ∧ Json.find "gid" us = some (.int gid)
  uid_lt : uid < 2 ^ 31
  gid_lt : gid < 2 ^ 31

/-- A configuration has the user and the group of `config.json`, and the canonical form of its root
path. -/
structure Config.Identity (c : Config) (env : SpecEnv) (path : String) (uid gid : Nat) : Prop where
  user : c.oci.process.user = { uid := .ofNat uid, gid := .ofNat gid }
  root_ne : c.oci.root.path.text ≠ ""
  root : ∀ full, resolvePath env path = some full → c.oci.root.path = .copy full

/-- The number of a user or a group, when it is in the range of `int`. -/
theorem atoi_toUInt32 {n : Nat} (hn : n < 2 ^ 31) :
    (atoi (toString (n : Int))).toUInt32 = UInt32.ofNat n := by
  have hint : strtoll (toString (n : Int)) = some (n : Int) :=
    strtoll_toString _ (by omega) (by omega)
  rw [atoi, hint, Option.getD_some]
  rfl

section
variable {env : SpecEnv} {uid gid : Nat}

/-- A member of the section `user` sets the number of its name, and no other. -/
theorem handleUserSection_frame {p p' : OciCfgProcess} {n : String} {cs : List GNode}
    (h : handleUserSection p (.mk (some n) cs) = some p') :
    (n ≠ "uid" → p'.user.uid = p.user.uid) ∧ (n ≠ "gid" → p'.user.gid = p.user.gid) := by
  simp only [handleUserSection, GNode.data_mk, Option.some.injEq] at h
  split_ifs at h with huid hgid
  · obtain ⟨_, -, rfl⟩ := Option.map_eq_some_iff.1 h
    exact ⟨fun hn => absurd huid hn, fun _ => rfl⟩
  · obtain ⟨_, -, rfl⟩ := Option.map_eq_some_iff.1 h
    exact ⟨fun _ => rfl, fun hn => absurd hgid hn⟩
  · cases h
    exact ⟨fun _ => rfl, fun _ => rfl⟩

/-- The user that the members of the section `user` set. -/
theorem foldlM_userSection {us : List (String × Json)} {p p' : OciCfgProcess}
    (hnodup : (us.map Prod.fst).Nodup) (huid : Json.find "uid" us = some (.int uid))
    (hgid : Json.find "gid" us = some (.int gid)) (hu : uid < 2 ^ 31) (hg : gid < 2 ^ 31)
    (h : (jsonParseAux false (.obj us)).foldlM handleUserSection p = some p') :
    p'.user = { uid := .ofNat uid, gid := .ofNat gid } := by
  have hrun : (jsonParseMembers us).foldlM handleUserSection p = some p' := h
  have hu' : p'.user.uid = .ofNat uid := by
    refine foldlM_members (fun p => p.user.uid) ?_ ?_ hnodup huid hrun
    · intro p p' n cs hn hp
      exact (handleUserSection_frame hp).1 hn
    · intro p p' hp
      rw [← atoi_toUInt32 hu]
      cases hp
      rfl
  have hg' : p'.user.gid = .ofNat gid := by
    refine foldlM_members (fun p => p.user.gid) ?_ ?_ hnodup hgid hrun
    · intro p p' n cs hn hp
      exact (handleUserSection_frame hp).2 hn
    · intro p p' hp
      rw [← atoi_toUInt32 hg]
      cases hp
      rfl
  rw [← hu', ← hg']

/-- The user that the members of the section `process` set. -/
theorem processHandleSection_user {ps us : List (String × Json)} {p : OciCfgProcess}
    {r : OciCfgProcess × Bool} (hps : (ps.map Prod.fst).Nodup)
    (huser : Json.find "user" ps = some (.obj us)) (hus : (us.map Prod.fst).Nodup)
    (huid : Json.find "uid" us = some (.int uid)) (hgid : Json.find "gid" us = some (.int gid))
    (hu : uid < 2 ^ 31) (hg : gid < 2 ^ 31)
    (h : processHandleSection p (.mk (some "process") (jsonParseAux false (.obj ps))) = some r) :
    r.1.user = { uid := .ofNat uid, gid := .ofNat gid } := by
  obtain ⟨p', hrun, rfl⟩ := Option.map_eq_some_iff.1 h
  refine foldlM_members (fun p => p.user) ?_ ?_ hps huser hrun
  · intro p p' n cs hn hp
    cases cs with
    | nil =>
      cases hp
      rfl
    | cons child cs =>
      simp only [handleProcessSection, GNode.data_mk, GNode.children_mk, Option.some.injEq,
        if_neg hn] at hp
      split_ifs at hp
      iterate 4
        · cases hp
          rfl
      iterate 2
        · obtain ⟨_, -, rfl⟩ := Option.map_eq_some_iff.1 hp
          rfl
      · cases hp
        rfl
  · intro p p' hp
    exact foldlM_userSection hus huid hgid hu hg hp

/-- The path that the members of the section `root` set, when the handler accepts them. -/
theorem rootHandleSection_path {rs : List (String × Json)} {r r' : OciCfgRoot} {path : String}
    (hrs : (rs.map Prod.fst).Nodup) (hpath : Json.find "path" rs = some (.str path))
    (h : rootHandleSection env r (.mk (some "root") (jsonParseAux false (.obj rs))) = some r') :
    r'.path.text ≠ "" ∧
      ∀ full, resolvePath env path = some full → r'.path = .copy full := by
  unfold rootHandleSection at h
  dsimp only at h
  split_ifs at h with hempty hdir
  obtain rfl := Option.some.inj h
  refine ⟨hempty, fun full hfull => ?_⟩
  have hrun : (jsonParseMembers rs).foldlM (fun r node => some (handleRootSection env r node)) r =
      some ((jsonParseMembers rs).foldl (handleRootSection env) r) := List.foldlM_pure
  refine foldlM_members (fun r => r.path) ?_ ?_ hrs hpath hrun
  · intro r r' n cs hn hr
    obtain rfl := Option.some.inj hr
    cases cs with
    | nil => rfl
    | cons child cs =>
      simp only [handleRootSection, GNode.data_mk, GNode.children_mk, Option.some.injEq, if_neg hn]
      split_ifs <;> rfl
  · intro r r' hr
    obtain rfl := Option.some.inj hr
    have hbind : (some path).bind (resolvePath env) = some full := hfull
    simp [handleRootSection, jsonParseAux, jsonString, hbind]

/-- The annotations leave the process and the root as they are. -/
theorem annotationsHandleSection_frame (config : Config) (root : GNode) :
    (annotationsHandleSection config root).oci.process = config.oci.process ∧
      (annotationsHandleSection config root).oci.root = config.oci.root := by
  have hpod : ∀ (config : Config) key value,
      (podHandleAnnotations config key value).oci.process = config.oci.process ∧
        (podHandleAnnotations config key value).oci.root = config.oci.root := by
    intro config key value
    unfold podHandleAnnotations
    split_ifs <;> exact ⟨rfl, rfl⟩
  have hone : ∀ (config : Config) node,
      ( handleAnnotation config node).oci.process = config.oci.process ∧
        ( handleAnnotation config node).oci.root = config.oci.root := by
    intro config node
    unfold handleAnnotation
    split
    · split_ifs
      · exact ⟨rfl, rfl⟩
      · dsimp only
        split
        · exact hpod _ _ _
        · exact ⟨rfl, rfl⟩
    · exact ⟨rfl, rfl⟩
  unfold annotationsHandleSection
  induction root.children generalizing config with
  | nil => exact ⟨rfl, rfl⟩
  | cons node nodes ih =>
    rw [List.foldl_cons]
    obtain ⟨hprocess, hroot⟩ := ih ( handleAnnotation config node)
    exact ⟨hprocess.trans (hone config node).1, hroot.trans (hone config node).2⟩

/-- A handler leaves the process and the root as they are, unless its section is theirs. -/
theorem specHandler_frame {config config' : Config} {n : String} {root : GNode}
    (h : specHandler env config n root = some config') :
    (n ≠ "process" → config'.oci.process = config.oci.process) ∧
      (n ≠ "root" → config'.oci.root = config.oci.root) := by
  unfold specHandler at h
  split_ifs at h with hann hmounts hprocess hroot hvm hothers haccepts
  · obtain rfl := Option.some.inj h
    obtain ⟨hp, hr⟩ := annotationsHandleSection_frame config root
    exact ⟨fun _ => hp, fun _ => hr⟩
  · obtain ⟨_, -, rfl⟩ := Option.map_eq_some_iff.1 h
    exact ⟨fun _ => rfl, fun _ => rfl⟩
  · split at h
    · cases h
      exact ⟨fun hn => absurd hprocess hn, fun _ => rfl⟩
    · cases h
  · obtain ⟨_, -, rfl⟩ := Option.map_eq_some_iff.1 h
    exact ⟨fun _ => rfl, fun hn => absurd hroot hn⟩
  · obtain ⟨_, -, rfl⟩ := Option.map_eq_some_iff.1 h
    exact ⟨fun _ => rfl, fun _ => rfl⟩
  iterate 2
    · cases h
      exact ⟨fun _ => rfl, fun _ => rfl⟩

/-- What one section of the file does is what its handler does, to the version and the host name
nearby. -/
theorem processSection_eq {config config' : Config} {n : String} {cs : List GNode}
    (h : processSection env config (.mk (some n) cs) = some config') :
    ∃ c : Config, specHandler env c n (.mk (some n) cs) = some config' ∧
      c.oci.process = config.oci.process ∧ c.oci.root = config.oci.root := by
  refine ⟨_, h, ?_, ?_⟩
  all_goals
    cases cs with
    | nil => rfl
    | cons child cs =>
      dsimp only [GNode.children_mk]
      split_ifs <;> rfl

/-- Other sections leave process and root alone. -/
theorem processSection_frame {config config' : Config} {n : String} {cs : List GNode}
    (h : processSection env config (.mk (some n) cs) = some config') :
    (n ≠ "process" → config'.oci.process = config.oci.process) ∧
      (n ≠ "root" → config'.oci.root = config.oci.root) := by
  obtain ⟨c, hc, hprocess, hroot⟩ := processSection_eq h
  rw [← hprocess, ← hroot]
  exact specHandler_frame hc

/-- The process section fills in the process. -/
theorem specHandler_process {c c' : Config} {root : GNode}
    (h : specHandler env c "process" root = some c') :
    ∃ p, processHandleSection c.oci.process root = some (p, true) ∧ c'.oci.process = p := by
  rw [specHandler, if_neg (by decide), if_neg (by decide), if_pos rfl] at h
  split at h
  · next p hp =>
    cases h
    exact ⟨p, hp, rfl⟩
  · cases h

/-- The root section fills in the root. -/
theorem specHandler_root {c c' : Config} {root : GNode}
    (h : specHandler env c "root" root = some c') :
    ∃ r, rootHandleSection env c.oci.root root = some r ∧ c'.oci.root = r := by
  rw [specHandler, if_neg (by decide), if_neg (by decide), if_neg (by decide), if_pos rfl] at h
  obtain ⟨r, hr, rfl⟩ := Option.map_eq_some_iff.1 h
  exact ⟨r, hr, rfl⟩

/-- **The identity is read as it is written.** -/
theorem processConfig_identity {ms : List (String × Json)} {path file : String}
    {config config' : Config} (hms : SpecIdentity ms path uid gid)
    (h : processConfig env (jsonParse file (.obj ms)) config = some config') :
    config'.Identity env path uid gid := by
  have hrun : (jsonParseMembers ms).foldlM (processSection env) config = some config' := h
  obtain ⟨rs, hroot, hrs, hpath⟩ := hms.root
  obtain ⟨ps, us, hprocess, hps, huser, hus, huid, hgid⟩ := hms.process
  have huser' : config'.oci.process.user = { uid := .ofNat uid, gid := .ofNat gid } := by
    refine foldlM_members (fun c => c.oci.process.user) ?_ ?_ hms.names hprocess hrun
    · intro c c' n cs hn hc
      rw [(processSection_frame hc).1 hn]
    · intro c c' hc
      obtain ⟨c₀, hc₀, -, -⟩ := processSection_eq hc
      obtain ⟨p, hp, rfl⟩ := specHandler_process hc₀
      exact processHandleSection_user hps huser hus huid hgid hms.uid_lt hms.gid_lt hp
  have hroot' : (config'.oci.root.path.text ≠ "" ∧
      ∀ full, resolvePath env path = some full → config'.oci.root.path = .copy full) = True := by
    refine foldlM_members (fun c : Config => c.oci.root.path.text ≠ "" ∧
      ∀ full, resolvePath env path = some full → c.oci.root.path = .copy full) ?_ ?_ hms.names hroot
      hrun
    · intro c c' n cs hn hc
      rw [(processSection_frame hc).2 hn]
    · intro c c' hc
      obtain ⟨c₀, hc₀, -, -⟩ := processSection_eq hc
      obtain ⟨r, hr, rfl⟩ := specHandler_root hc₀
      exact eq_true (rootHandleSection_path hrs hpath hr)
  exact ⟨huser', (of_eq_true hroot').1, (of_eq_true hroot').2⟩

end

/-! ## The identity along `create` -/

section
variable {env : CreateEnv} {ms : List (String × Json)} {path : String} {uid gid : Nat}

/-- Steps that leave the process's user and the root leave the identity. -/
theorem Config.Identity.congr {env : SpecEnv} {c c' : Config} (h : c.Identity env path uid gid)
    (huser : c'.oci.process.user = c.oci.process.user) (hroot : c'.oci.root = c.oci.root) :
    c'.Identity env path uid gid :=
  ⟨huser.trans h.user, hroot ▸ h.root_ne, hroot ▸ h.root⟩

/-- The configuration that is launched. -/
theorem prepare_identity {config config' : Config} (hms : SpecIdentity ms path uid gid)
    (h : prepare env (some (.obj ms)) config = some config') :
    config'.Identity env.spec path uid gid := by
  obtain ⟨c₁, hparse, h⟩ := Option.bind_eq_some_iff.1 h
  have h₁ : c₁.Identity env.spec path uid gid := by
    unfold configFileParse at hparse
    split at hparse
    · next file doc _ hdoc =>
      obtain rfl := Option.some.inj hdoc
      split_ifs at hparse
      obtain ⟨c₀, hc₀, hvm⟩ := Option.bind_eq_some_iff.1 hparse
      have hid := processConfig_identity hms hc₀
      unfold specVmFromCfgFile at hvm
      split at hvm
      · cases hvm
        exact hid
      · obtain ⟨_, -, rfl⟩ := Option.map_eq_some_iff.1 hvm
        exact hid.congr rfl rfl
    · cases hparse
  split at h
  · obtain ⟨c₂, hdir, h⟩ := Option.bind_eq_some_iff.1 h
    have h₂ : c₂.Identity env.spec path uid gid := by
      unfold runtimeDirSetup at hdir
      dsimp only at hdir
      split at hdir
      · cases hdir
      · split_ifs at hdir
        cases hdir
        exact h₁.congr rfl rfl
    split_ifs at h
    obtain ⟨_, -, rfl⟩ := Option.map_eq_some_iff.1 h
    exact h₂.congr rfl rfl
  · cases h

/-- **The identity along `create`.** The configuration that `create` ends with has the identity of
`config.json`, and every document it writes is made from a configuration. -/
theorem create_identity {opts : CreateOptions} (hms : SpecIdentity ms path uid gid)
    (h : (runCreate opts env (some (.obj ms))).ending = .returned true) :
    (runCreate opts env (some (.obj ms))).regs.config.Identity env.spec path uid gid ∧
      ∀ doc ∈ (runCreate opts env (some (.obj ms))).regs.writes,
        ∃ c created saved, stateFileCreate c created saved = some doc := by
  unfold runCreate at h ⊢
  cases hprepare : prepare env (some (.obj ms)) (commandSetup opts) with
  | none =>
    rw [ociCreate, hprepare] at h
    cases h
  | some config =>
    have hkept := ociCreate_kept hprepare
    refine ⟨(prepare_identity hms hprepare).congr hkept.user hkept.root, fun doc hdoc => ?_⟩
    obtain hnone | hnew := hkept.writes doc hdoc
    · cases hnone
    · exact hnew

end

/-! ## The identity that a later command rebuilds -/

/-- The configuration that a command on the container `id` rebuilds from a state file. -/
def rebuild (rootDir : Option String) (id : String) (file : Json) : Option Config :=
  (getConfigAndState { configCreate with rootDir, optargContainerId := some id } (some file)).map
    fun (config, st) => configUpdate config st

/-- What is rebuilt from a state file has no root and the user 0, whatever it was made from. -/
theorem rebuilt_identity {c c' : Config} {created rootDir : Option String} {saved : Bool}
    {doc : Json} {id : String} (hdoc : stateFileCreate c created saved = some doc)
    (h : rebuild rootDir id doc = some c') :
    c'.oci.root = {} ∧ c'.oci.process.user = {} := by
  obtain ⟨parts, hparts, rfl⟩ := stateFileCreate_eq_some hdoc
  have hread : (some (Json.obj (stateMembers c parts))).bind stateFileRead =
      some (readBack c parts) := stateFileRead_stateMembers hparts
  obtain ⟨⟨config, st⟩, hget, rfl⟩ := Option.map_eq_some_iff.1 h
  simp only [getConfigAndState, hread] at hget
  split at hget
  · obtain ⟨rfl, rfl⟩ := Prod.mk.inj (Option.some.inj hget)
    exact ⟨rfl, rfl⟩
  · cases hget

/-- The identity of `config.json` is the one that is rebuilt, and with it the passwd file of the
container. -/
structure IdentitySurvives (env : SpecEnv) (path : String) (uid gid : Nat) (c : Config) : Prop where
  root : ∃ full, resolvePath env path = some full ∧ c.oci.root.path = .copy full
  uid : c.oci.process.user.uid.toNat = uid
  gid : c.oci.process.user.gid.toNat = gid

/-- **The identity is lost.** For every `config.json` that `create` accepts: what a `start` rebuilds
from a state file that the `create` has written does not have the identity of `config.json`. The
root path is never there, so the passwd file is the host's, and the user and the group are there
only when they are 0. -/
theorem identity_lost (opts : CreateOptions) (env : CreateEnv) (ms : List (String × Json))
    (path : String) (uid gid : Nat) (hms : SpecIdentity ms path uid gid)
    (hcreate : (runCreate opts env (some (.obj ms))).ending = .returned true) (doc : Json)
    (hdoc : doc ∈ (runCreate opts env (some (.obj ms))).regs.writes) (rootDir : Option String)
    (c : Config) (hstart : rebuild rootDir opts.id doc = some c) :
    ¬ IdentitySurvives env.spec path uid gid c ∧
      passwdPath c = "//etc/passwd" ∧
      passwdPath c ≠ passwdPath (runCreate opts env (some (.obj ms))).regs.config ∧
      (c.oci.process.user.uid.toNat = uid ↔ uid = 0) ∧
      (c.oci.process.user.gid.toNat = gid ↔ gid = 0) := by
  obtain ⟨hcreated, hwrites⟩ := create_identity hms hcreate
  obtain ⟨c₀, created, saved, hc₀⟩ := hwrites doc hdoc
  obtain ⟨hroot, huser⟩ := rebuilt_identity hc₀ hstart
  refine ⟨?_, ?_, ?_, ?_, ?_⟩
  · rintro ⟨⟨full, hfull, hpath⟩, -, -⟩
    refine hcreated.root_ne ?_
    rw [hcreated.root full hfull, ← hpath, hroot]
    rfl
  · rw [passwdPath, hroot]
    rfl
  · rw [passwdPath, passwdPath, hroot]
    intro heq
    have hlength := congrArg String.length heq
    simp only [String.length_append, PathBuf.empty_text] at hlength
    refine hcreated.root_ne (String.length_eq_zero_iff.1 ?_)
    have hzero : ("" : String).length = 0 := rfl
    omega
  · rw [huser]
    exact eq_comm
  · rw [huser]
    exact eq_comm

/-- A `config.json` with the root file system `rootfs`, the user 1000 and the group 100. -/
def sampleSpec : List (String × Json) :=
  [("ociVersion", .str "1.0.0-rc1"),
    ("root", .obj [("path", .str "rootfs")]),
    ("process", .obj
      [("user", .obj [("uid", .int 1000), ("gid", .int 100)]),
        ("args", .arr [.str "sh"]),
        ("cwd", .str "/")])]

/-- A host on which a `create` succeeds. -/
def sampleHost : CreateEnv where
  chdir := true
  spec := { resolvePath := fun path => some ("/bundle/" ++ path)
            isDir := fun _ => true
            mounts := fun _ config => some config.oci.mounts
            vm := fun _ config => config.vm
            accepts := fun _ _ => true }
  vmFile := some {}
  supported := fun _ => true
  dirMade := true
  namespaces := true
  mounts := fun config => some config.oci.mounts
  launch := willingLaunch

/-- The `create` of the sample. -/
def sampleCreate : Launch :=
  runCreate { id := "c1", bundle := some "/bundle" } sampleHost (some (.obj sampleSpec))

/-- What a `start` rebuilds from the file that the `create` of the sample has written last. -/
def sampleRebuilt : Option Config :=
  sampleCreate.regs.writes.getLast?.bind (rebuild none "c1")

theorem sampleSpec_identity : SpecIdentity sampleSpec "rootfs" 1000 100 where
  names := by decide
  root := ⟨_, rfl, by decide, rfl⟩
  process := ⟨_, _, rfl, by decide, rfl, by decide, rfl, rfl⟩
  uid_lt := by decide
  gid_lt := by decide

/-- A container whose user is lost. -/
theorem identity_lost_sampleSpec :
    ∃ doc c, doc ∈ sampleCreate.regs.writes ∧ rebuild none "c1" doc = some c ∧
      ¬ IdentitySurvives sampleHost.spec "rootfs" 1000 100 c := by
  have hsome : sampleRebuilt.isSome = true := by decide +kernel
  obtain ⟨c, hrebuilt⟩ := Option.isSome_iff_exists.1 hsome
  obtain ⟨doc, hlast, hc⟩ := Option.bind_eq_some_iff.1 hrebuilt
  have hdoc : doc ∈ sampleCreate.regs.writes := List.mem_of_getLast? hlast
  have hcreate : sampleCreate.ending = .returned true := by decide +kernel
  exact ⟨doc, c, hdoc, hc, (identity_lost _ sampleHost sampleSpec "rootfs" 1000 100
    sampleSpec_identity hcreate doc hdoc none c hc).1⟩

/-- `create` has the workload in its own root, as user 1000; the `start` after it knows neither. -/
theorem start_forgets_user_and_root :
    sampleCreate.ending = .returned true ∧
      sampleCreate.regs.config.oci.root.path.text = "/bundle/rootfs" ∧
      sampleCreate.regs.config.oci.process.user = { uid := 1000, gid := 100 } ∧
      sampleRebuilt.map (fun c => c.oci.root.path.text) = some "" ∧
      sampleRebuilt.map (fun c => c.oci.process.user) = some { uid := 0, gid := 0 } := by
  decide +kernel

end Runtime

end CcOciRuntime
