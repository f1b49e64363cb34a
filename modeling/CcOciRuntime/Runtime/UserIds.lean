import CcOciRuntime.Runtime.SpecHandlers

/-!
# The ids of a user

The ids of the user that a process runs as come from the option `--user` of `exec` or from the
section `process.user` of `config.json`. Both are read by functions of the C library that take the
number at the front of a text, whatever follows it, and both are cut to 32 bits. `userIds_iff` says
which ids are stored as they are written.

Reference: `handle_option_user` (`src/command.c:379`), `handle_user_section`
(`src/spec_handlers/process.c:28`).
-/

namespace CcOciRuntime

namespace Runtime

/-! ## The option -/

/-- At most two parts; an empty text has none. Reference: `g_strsplit` with `":"` and 2. -/
def splitUser (value : String) : List String :=
  if value = "" then []
  else
    match value.toList.dropWhile (· ≠ ':') with
    | [] => [value]
    | _ :: rest => [.ofList (value.toList.takeWhile (· ≠ ':')), .ofList rest]

/-- A number that is read is stored with 32 bits. Reference: the casts of `src/command.c:430`. -/
def toId (n : Int) : UInt32 := UInt32.ofNat n.toNat

/-- The user with the ids of the option's value, and whether the value is accepted. Reference:
`handle_option_user` (`src/command.c:379`). -/
def handleOptionUser (user : OciCfgUser) (value : Option String) : OciCfgUser × Bool :=
  match value.map splitUser with
  | none | some [] => (user, false)
  | some (struid :: rest) =>
    match strtoll struid with
    | none => (user, false)
    | some uid =>
      match rest with
      | [] => if uid < 0 then (user, false) else ({ uid := toId uid, gid := 0 }, true)
      | strgid :: _ =>
        match strtoll strgid with
        | none => (user, false)
        | some gid =>
          if uid < 0 ∨ gid < 0 then (user, false)
          else ({ uid := toId uid, gid := toId gid }, true)

theorem toNat_toId {n : Int} (h : 0 ≤ n) : ((toId n).toNat : Int) = n % 2 ^ 32 := by
  rw [toId, UInt32.toNat_ofNat']
  omega

/-- The ids of an option's value are stored as they are written. -/
def OptionStored (value : String) (user : OciCfgUser) : Prop :=
  (∀ uid ∈ (splitUser value)[0]?, IsDecimal uid user.uid.toNat) ∧
    ∀ gid ∈ (splitUser value)[1]?, IsDecimal gid user.gid.toNat

/-- A text that is a decimal number of 32 bits. -/
def FitsId (text : String) : Prop := ∃ n < 2 ^ 32, IsDecimal text n

section
variable {user user' : OciCfgUser} {value : String}

/-- A user has at most two parts. -/
theorem splitUser_cases (value : String) :
    splitUser value = [] ∨ (∃ uid, splitUser value = [uid]) ∨
      ∃ uid gid, splitUser value = [uid, gid] := by
  unfold splitUser
  split_ifs
  · exact .inl rfl
  · split
    · exact .inr (.inl ⟨_, rfl⟩)
    · exact .inr (.inr ⟨_, _, rfl⟩)

/-- **A value that is accepted**: each of its parts begins with a number that is not negative. -/
theorem handleOptionUser_true (h : handleOptionUser user (some value) = (user', true)) :
    (∃ struid uid, splitUser value = [struid] ∧ strtoll struid = some uid ∧ 0 ≤ uid ∧
      user' = { uid := toId uid, gid := 0 }) ∨
    ∃ struid strgid uid gid, splitUser value = [struid, strgid] ∧ strtoll struid = some uid ∧
      strtoll strgid = some gid ∧ 0 ≤ uid ∧ 0 ≤ gid ∧
      user' = { uid := toId uid, gid := toId gid } := by
  rw [handleOptionUser, Option.map_some] at h
  obtain hsplit | ⟨struid, hsplit⟩ | ⟨struid, strgid, hsplit⟩ := splitUser_cases value
  · rw [hsplit] at h
    cases h
  · rw [hsplit] at h
    cases huid : strtoll struid with
    | none => simp [huid] at h
    | some uid =>
      simp only [huid] at h
      split_ifs at h with hneg
      · cases h
      · obtain ⟨rfl, -⟩ := Prod.mk.inj h
        exact .inl ⟨struid, uid, hsplit, huid, by omega, rfl⟩
  · rw [hsplit] at h
    cases huid : strtoll struid with
    | none => simp [huid] at h
    | some uid =>
      cases hgid : strtoll strgid with
      | none => simp [huid, hgid] at h
      | some gid =>
        simp only [huid, hgid] at h
        split_ifs at h with hneg
        · cases h
        · obtain ⟨rfl, -⟩ := Prod.mk.inj h
          exact .inr ⟨struid, strgid, uid, gid, hsplit, huid, hgid, by omega, by omega, rfl⟩

theorem stored_iff_fitsId {text : String} {n : Int} (hread : strtoll text = some n) (hpos : 0 ≤ n) :
    IsDecimal text (toId n).toNat ↔ FitsId text := by
  refine isDecimal_cast_iff ?_
  rw [hread, Option.getD_some, toNat_toId hpos]

/-- The ids of an accepted value are stored as they are written exactly if they fit. -/
theorem optionStored_iff (h : handleOptionUser user (some value) = (user', true)) :
    OptionStored value user' ↔ ∀ id ∈ splitUser value, FitsId id := by
  obtain ⟨struid, uid, hsplit, huid, hpos, rfl⟩ |
    ⟨struid, strgid, uid, gid, hsplit, huid, hgid, hpos, hpos', rfl⟩ := handleOptionUser_true h
  · have hfits := stored_iff_fitsId huid hpos
    rw [OptionStored, hsplit]
    simpa using hfits
  · have hfits := stored_iff_fitsId huid hpos
    have hfits' := stored_iff_fitsId hgid hpos'
    rw [OptionStored, hsplit]
    simpa using and_congr hfits hfits'

end

/-! ## The section -/

/-- The ids of a section are stored as they are written. -/
def SectionStored (us : List (String × Json)) (user : OciCfgUser) : Prop :=
  (∀ v ∈ Json.find "uid" us, ∃ text ∈ valueText v, IsDecimal text user.uid.toNat) ∧
    ∀ v ∈ Json.find "gid" us, ∃ text ∈ valueText v, IsDecimal text user.gid.toNat

section
variable {p p' : OciCfgProcess} {ps us : List (String × Json)}

/-- Only the user's section changes the user. -/
theorem handleProcessSection_user {m : String × Json} (hm : m.1 ≠ "user")
    (h : handleProcessSection p (memberNode m) = some p') : p'.user = p.user := by
  unfold handleProcessSection at h
  split at h
  · rw [Option.some.inj h]
  · have hname : (memberNode m).data ≠ some "user" := fun heq => hm (Option.some.inj heq)
    rw [if_neg hname] at h
    split_ifs at h
    · rw [← Option.some.inj h]
    · rw [← Option.some.inj h]
    · rw [← Option.some.inj h]
    · rw [← Option.some.inj h]
    · obtain ⟨s, -, rfl⟩ := Option.map_eq_some_iff.1 h
      rfl
    · obtain ⟨s, -, rfl⟩ := Option.map_eq_some_iff.1 h
      rfl
    · rw [Option.some.inj h]

/-- The members of the user's section, one after the other. -/
theorem handleProcessSection_obj (p : OciCfgProcess) (us : List (String × Json)) :
    handleProcessSection p (memberNode ("user", .obj us)) =
      us.foldlM (fun p m => handleUserSection p (memberNode m)) p := by
  change (jsonParseMembers us).foldlM handleUserSection p = _
  rw [jsonParseMembers_eq_map, List.foldlM_map]

/-- What a member of the user's section changes. -/
theorem handleUserSection_ids {m : String × Json}
    (h : handleUserSection p (memberNode m) = some p') :
    (if m.1 = "uid" then ∃ text ∈ valueText m.2, p'.user.uid = (atoi text).toUInt32
      else p'.user.uid = p.user.uid) ∧
    if m.1 = "gid" then ∃ text ∈ valueText m.2, p'.user.gid = (atoi text).toUInt32
      else p'.user.gid = p.user.gid := by
  rw [handleUserSection, childData_memberNode] at h
  simp only [memberNode, GNode.data_mk, Option.some.injEq] at h
  split_ifs at h with huid hgid
  · obtain ⟨text, htext, rfl⟩ := Option.map_eq_some_iff.1 h
    rw [if_pos huid, if_neg (by rw [huid]; decide)]
    exact ⟨⟨text, htext, rfl⟩, rfl⟩
  · obtain ⟨text, htext, rfl⟩ := Option.map_eq_some_iff.1 h
    rw [if_neg huid, if_pos hgid]
    exact ⟨rfl, text, htext, rfl⟩
  · rw [if_neg huid, if_neg hgid, Option.some.inj h]
    exact ⟨rfl, rfl⟩

/-- An id that only the member `k` changes. -/
theorem id_of_members {k : String} (id : OciCfgUser → UInt32)
    (hstep : ∀ {p p' : OciCfgProcess} {m : String × Json},
      handleUserSection p (memberNode m) = some p' →
      if m.1 = k then ∃ text ∈ valueText m.2, id p'.user = (atoi text).toUInt32
      else id p'.user = id p.user)
    (hus : (us.map Prod.fst).Nodup)
    (hfold : us.foldlM (fun p m => handleUserSection p (memberNode m)) p = some p') :
    ∀ v ∈ Json.find k us, ∃ text ∈ valueText v, id p'.user = (atoi text).toUInt32 := by
  intro v hv
  obtain ⟨hnone, -⟩ | ⟨w, c, d, hw, hcd, -, hd⟩ :=
    Json.proj_foldlM_find (k := k) (fun p : OciCfgProcess => id p.user)
      (fun s m t hm ht => by simpa only [if_neg hm] using hstep ht) hus hfold
  · cases hnone.symm.trans hv
  · obtain rfl := Option.some.inj (hw.symm.trans hv)
    have hid := hstep hcd
    rw [if_pos rfl] at hid
    rwa [hd]

/-- **The ids of a section that is accepted** are what `atoi` makes of their texts. -/
theorem ids_of_processHandleSection (hps : (ps.map Prod.fst).Nodup) (hus : (us.map Prod.fst).Nodup)
    (huser : Json.find "user" ps = some (.obj us)) {ok : Bool}
    (h : processHandleSection p (memberNode ("process", .obj ps)) = some (p', ok)) :
    (∀ v ∈ Json.find "uid" us, ∃ text ∈ valueText v, p'.user.uid = (atoi text).toUInt32) ∧
      ∀ v ∈ Json.find "gid" us, ∃ text ∈ valueText v, p'.user.gid = (atoi text).toUInt32 := by
  obtain ⟨q, hq, heq⟩ := Option.map_eq_some_iff.1 h
  obtain ⟨rfl, -⟩ := Prod.mk.inj heq
  -- the blank node that begins the section changes nothing
  change (jsonParseMembers ps).foldlM handleProcessSection _ = _ at hq
  rw [jsonParseMembers_eq_map, List.foldlM_map] at hq
  obtain ⟨hnone, -⟩ | ⟨v, a, b, hv, hab, -, huser'⟩ :=
    Json.proj_foldlM_find (k := "user") OciCfgProcess.user
      (fun s m t hm ht => handleProcessSection_user hm ht) hps hq
  · rw [huser] at hnone
    cases hnone
  obtain rfl := Option.some.inj (huser.symm.trans hv)
  rw [handleProcessSection_obj] at hab
  rw [huser']
  exact ⟨id_of_members OciCfgUser.uid (fun h => (handleUserSection_ids h).1) hus hab,
    id_of_members OciCfgUser.gid (fun h => (handleUserSection_ids h).2) hus hab⟩

end

/-- **Ids that are stored as they are written.** Of every value of `--user` and of every section
`process.user` that is accepted, whatever was stored before, the whole text of each id is a decimal
number that is stored exactly if each text is a decimal number of 32 bits. -/
theorem userIds_iff (user : OciCfgUser) (p : OciCfgProcess) :
    (∀ value user', handleOptionUser user (some value) = (user', true) →
      (OptionStored value user' ↔ ∀ id ∈ splitUser value, FitsId id)) ∧
    ∀ ps us p', (ps.map Prod.fst).Nodup → (us.map Prod.fst).Nodup →
      Json.find "user" ps = some (.obj us) →
      processHandleSection p (memberNode ("process", .obj ps)) = some (p', true) →
      (SectionStored us p'.user ↔
        ∀ k ∈ ["uid", "gid"], ∀ v ∈ Json.find k us, ∃ text ∈ valueText v, FitsId text) := by
  refine ⟨fun value user' h => optionStored_iff h, fun ps us p' hps hus huser h => ?_⟩
  obtain ⟨huid, hgid⟩ := ids_of_processHandleSection hps hus huser h
  have hpart : ∀ {v : Json} {id : UInt32}, (∃ text ∈ valueText v, id = (atoi text).toUInt32) →
      ((∃ text ∈ valueText v, IsDecimal text id.toNat) ↔ ∃ text ∈ valueText v, FitsId text) := by
    rintro v id ⟨text, htext, rfl⟩
    have hiff := isDecimal_cast_iff (toNat_atoi text)
    constructor
    · rintro ⟨text', htext', hdec⟩
      obtain rfl := Option.mem_unique htext htext'
      exact ⟨text, htext, hiff.1 hdec⟩
    · rintro ⟨text', htext', hfits⟩
      obtain rfl := Option.mem_unique htext htext'
      exact ⟨text, htext, hiff.2 hfits⟩
  simp only [SectionStored, List.forall_mem_cons, List.not_mem_nil, false_implies, implies_true,
    and_true]
  exact and_congr (forall₂_congr fun v hv => hpart (huid v hv))
    (forall₂_congr fun v hv => hpart (hgid v hv))

/-- A process with a user of the given members. -/
def processWithUser (us : List (String × Json)) : List (String × Json) :=
  [("cwd", .str "/"), ("args", .arr [.str "sh"]), ("user", .obj us)]

/-- The user of an accepted process section, if it is accepted. -/
def acceptedUser (us : List (String × Json)) : Option OciCfgUser :=
  (processHandleSection {} (memberNode ("process", .obj (processWithUser us)))).bind fun r =>
    if r.2 then some r.1.user else none

/-- Two ids as they should be. -/
theorem userIds_1000 : OptionStored "1000:100" ⟨1000, 100⟩ := by
  refine ((userIds_iff {} {}).1 "1000:100" ⟨1000, 100⟩ (by decide +kernel)).2 ?_
  have hsplit : splitUser "1000:100" = ["1000", "100"] := by decide +kernel
  rw [hsplit, List.forall_mem_cons, List.forall_mem_singleton]
  exact ⟨⟨1000, by decide, by decide +kernel⟩, 100, by decide, by decide +kernel⟩

/-- Ids that are accepted and not stored as they are written: two that become the id of root, by
their size and by not being a number, and one that is followed by something else. -/
theorem userIds_root :
    handleOptionUser {} (some "4294967296") = (⟨0, 0⟩, true) ∧ IsDecimal "4294967296" (2 ^ 32) ∧
      handleOptionUser {} (some "12abc:7") = (⟨12, 7⟩, true) ∧
      acceptedUser [("uid", .int 4294967296), ("gid", .int 5)] = some ⟨0, 5⟩ ∧
      acceptedUser [("uid", .str "nobody"), ("gid", .str "7x")] = some ⟨0, 7⟩ ∧
      (∀ n, ¬ IsDecimal "12abc" n) ∧ (∀ n, ¬ IsDecimal "nobody" n) := by
  refine ⟨by decide +kernel, by decide +kernel, by decide +kernel, by decide +kernel,
    by decide +kernel, ?_, ?_⟩
  · rintro n ⟨-, hdigits, -⟩
    exact absurd (hdigits 'a' (by decide)) (by decide)
  · rintro n ⟨-, hdigits, -⟩
    exact absurd (hdigits 'n' (by decide)) (by decide)

end Runtime

end CcOciRuntime
