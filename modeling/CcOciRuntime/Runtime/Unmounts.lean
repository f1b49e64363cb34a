import CcOciRuntime.Runtime.MountWays
import CcOciRuntime.Runtime.StateRoundTrip

/-!
# Unmounting undoes mounting

What a list of mounts does to the host is said relative to the host before the first of them
(`Over`): what is stored grows, the table gets one entry for each mount that is made, and every new
directory is stored at or below a directory that was noted and was missing before. From this,
unmounting the list that the state file kept leaves the table and the directories that were there
before, if no mount is skipped, no destination lies below another one, and the shell takes the noted
paths as they stand. For destinations that all differ these conditions are needed
(`unmounting_undoes_mounting`).
-/

namespace CcOciRuntime

namespace Runtime

open FileSystem (Makes)

/-! ## Mounts at places apart -/

/-- A mount over the table `M`: nothing has come with it, and what it shows is there and is of the
kind of what it covers. -/
structure Laid (t : FileTree (Option Json)) (M : List Mount) (e : Mount) : Prop where
  free : e.busy = false
  source : t.Exists e.source
  covers : t.Exists (Mount.real M e.target)
  kind : t.IsDir e.source ↔ t.IsDir (Mount.real M e.target)

section
variable {t t' : FileTree (Option Json)} {M es : List Mount} {e : Mount} {p q : Path}

theorem Laid.grows (h : Laid t M e) (hg : t.Grows t') : Laid t' M e where
  free := h.free
  source := hg.exists_of h.source
  covers := hg.exists_of h.covers
  kind := (hg.isDir_iff h.source).trans (h.kind.trans (hg.isDir_iff h.covers).symm)

/-- On the way to a place with which no mount is nested, mounts change neither what is there nor
what is a directory. -/
theorem seen_on_way (hes : ∀ e ∈ es, Laid t M e) (hnest : ∀ e ∈ es, Unnested e.target p)
    (hq : q <+: p) :
    (t.Exists (Mount.real (es ++ M) q) ↔ t.Exists (Mount.real M q)) ∧
      (t.IsDir (Mount.real (es ++ M) q) ↔ t.IsDir (Mount.real M q)) := by
  induction es with
  | nil => exact ⟨Iff.rfl, Iff.rfl⟩
  | cons e es ih =>
    rw [List.cons_append]
    by_cases he : e.target <+: q
    · -- the mount is at the end of the way
      have heq : e.target = q := by
        by_contra hne
        refine (hnest e List.mem_cons_self).1 ⟨he.trans hq, fun heq => hne ?_⟩
        exact he.eq_of_length_le (heq ▸ hq.length_le)
      have hlaid := hes e List.mem_cons_self
      rw [← heq, Mount.real_target]
      exact ⟨iff_of_true hlaid.source hlaid.covers, hlaid.kind⟩
    · rw [Mount.real_of_apart he]
      exact ih (fun e' he' => hes e' (List.mem_cons_of_mem _ he'))
        fun e' he' => hnest e' (List.mem_cons_of_mem _ he')

/-- No mount lies above a missing place on the way. -/
theorem real_of_missing_on_way (hes : ∀ e ∈ es, Laid t M e)
    (hnest : ∀ e ∈ es, Unnested e.target p) (hq : q <+: p)
    (hmissing : ¬ t.Exists (Mount.real (es ++ M) q)) :
    Mount.real (es ++ M) q = Mount.real M q := by
  refine Mount.real_append fun e he hpre => hmissing ?_
  have heq : e.target = q := by
    by_contra hne
    exact (hnest e he).1 ⟨hpre.trans hq, fun heq => hne (hpre.eq_of_length_le (heq ▸ hq.length_le))⟩
  rw [(seen_on_way hes hnest hq).1, ← heq]
  exact (hes e he).covers

end

/-! ## The host and what the mounts have done -/

/-- A directory that was noted for a mount: it was missing, and its text can be given to the
shell. -/
structure Noted (host : Host) (d : String) : Prop where
  absolute : Absolute d
  shell : ShellPlain d
  ends : ∃ us n, components d = us ++ [n] ∧ Plain n ∧ ['.', '.'] ∉ us
  fresh : ¬ host.tree.Exists (place d)

/-- The path only leads down, and its way is there once all is unmounted from the host that was
`host₀`. -/
structure WayUnder (host₀ host : Host) (path : String) : Prop where
  absolute : Absolute path
  down : ['.', '.'] ∉ components path
  way : ∀ ms n, ms ++ [n] <+: components path →
    host.stored.IsDir (host₀.real (resolve [] ms)) ∧
      host.stored.Exists (host₀.real (resolve [] (ms ++ [n])))

/-- What the mounts `ks` have done to `host₀`. -/
structure Over (host₀ host : Host) (ks : List CcOciMount) : Prop where
  grows : host₀.stored.Grows host.stored
  table : ∃ es, host.mounts = es ++ host₀.mounts ∧
    es.map Mount.target = (ks.map fun k => place k.dest.text).reverse ∧
    ∀ e ∈ es, Laid host.stored host₀.mounts e
  found : ∀ k ∈ ks, WayUnder host₀ host k.dest.text
  noted : ∀ k ∈ ks, ∀ d, k.directoryCreated = some d → Noted host₀ d
  dirs : ∀ s, host.stored.IsDir s → host₀.stored.IsDir s ∨
    ∃ k ∈ ks, ∃ d, k.directoryCreated = some d ∧ host₀.real (place d) <+: s

theorem Over.refl (host : Host) : Over host host [] :=
  ⟨.refl _, ⟨[], rfl, rfl, by simp⟩, by simp, by simp, fun _ hs => .inl hs⟩

/-- What a mount must be like when its turn comes, to be undone: it is made, nothing comes with it,
and the shell takes the path that is noted for it as it stands. -/
structure MountSpec.Undoable (env : HostEnv) (dryRun : Bool) (wd : String) (host : Host)
    (m : MountSpec) : Prop where
  live : dryRun = false
  source : ¬ m.Skipped env host
  makes : m.makesMount = true
  alone : m.busy env (mkdirWithParents env host
    (mountDirectory env host m (destination wd m.dir))).1 = false
  shell : ∀ d ∈ directoryToCreate env host (mountDirectory env host m (destination wd m.dir)),
    ShellPlain d

section
variable {env : HostEnv} {dryRun : Bool} {host₀ host host' : Host} {ks : List CcOciMount}
  {buf : PathBuf} {m : MountSpec} {m' : CcOciMount}

/-- What a way means does not depend on what follows. -/
theorem resolve_isPrefix {ms ns : List Name} (hup : ['.', '.'] ∉ ns) (h : ms <+: ns) :
    resolve [] ms <+: resolve [] ns := by
  obtain ⟨rest, rfl⟩ := h
  rw [resolve_append]
  exact prefix_resolve (fun hmem => hup (List.mem_append_right _ hmem)) _

/-- The mount points of the list are not nested with the next destination. -/
theorem Over.unnested (h : Over host₀ host ks) {p : Path}
    (hnest : ∀ k ∈ ks, Unnested (place k.dest.text) p) : ∃ es,
    host.mounts = es ++ host₀.mounts ∧
      es.map Mount.target = (ks.map fun k => place k.dest.text).reverse ∧
      (∀ e ∈ es, Laid host.stored host₀.mounts e) ∧ ∀ e ∈ es, Unnested e.target p := by
  obtain ⟨es, hmounts, htargets, hes⟩ := h.table
  refine ⟨es, hmounts, htargets, hes, fun e he => ?_⟩
  have hmem : e.target ∈ (ks.map fun k => place k.dest.text).reverse :=
    htargets ▸ List.mem_map_of_mem he
  rw [List.mem_reverse] at hmem
  obtain ⟨k, hk, hke⟩ := List.mem_map.1 hmem
  exact hke ▸ hnest k hk

/-- On the way to the next destination the host, or one that has grown from it, is seen as it will
be once all is unmounted. -/
theorem Over.seen (h : Over host₀ host ks) {p q : Path} {host₁ : Host}
    (hnest : ∀ k ∈ ks, Unnested (place k.dest.text) p) (hq : q <+: p)
    (hmounts : host₁.mounts = host.mounts) (hgrows : host.stored.Grows host₁.stored) :
    (host₁.tree.Exists q ↔ host₁.stored.Exists (host₀.real q)) ∧
      (host₁.tree.IsDir q ↔ host₁.stored.IsDir (host₀.real q)) := by
  obtain ⟨es, htable, -, hes, hunnested⟩ := h.unnested hnest
  have hseen := seen_on_way (fun e he => (hes e he).grows hgrows) hunnested hq
  rw [← htable, ← hmounts] at hseen
  exact hseen

/-- The workload directory is still there when the next mount is handled. -/
theorem Over.isDir (h : Over host₀ host ks) {wd dest : String} (hwd : Absolute wd)
    (hnest : ∀ k ∈ ks, Unnested (place k.dest.text) (place dest))
    (hup : ['.', '.'] ∉ components dest) (hpre : components wd <+: components dest)
    (hdir : host₀.IsDir env.cwd wd) : host.IsDir env.cwd wd := by
  have hseen : ∀ ms, ms <+: components wd → host₀.tree.IsDir (resolve [] ms) →
      host.tree.IsDir (resolve [] ms) := fun ms hms hd =>
    (h.seen hnest (resolve_isPrefix hup (hms.trans hpre)) rfl (.refl _)).2.2 (h.grows.isDir_of hd)
  obtain ⟨u, hwalk, hu⟩ := (isDir_absolute hwd).1 hdir
  obtain ⟨rfl, hway⟩ := FileTree.walk_eq_some_iff.1 hwalk
  refine (isDir_absolute hwd).2 ⟨_, FileTree.walk_eq_some_iff.2 ⟨rfl, fun ms n hms => ?_⟩,
    hseen _ List.prefix_rfl hu⟩
  -- every place on the way is a directory
  have hdirs : ∀ ks, ks <+: components wd → host₀.tree.IsDir (resolve [] ks) := by
    rintro ks ⟨rest, hrest⟩
    rw [← hrest] at hwalk hu
    obtain ⟨x, hx, hxdir⟩ := FileTree.isDir_of_walk_append hwalk hu
    rwa [FileTree.resolve_of_walk hx]
  exact ⟨hseen ms ((List.prefix_append _ _).trans hms) (hway ms n hms).1,
    (hseen _ hms (hdirs _ hms)).exists⟩

/-! ## One mount -/

/-- What is noted and made for the directory of a mount. -/
theorem directoryToCreate_spec {path d : String} {host₁ : Host} (habs : Absolute path)
    (hup : ['.', '.'] ∉ components path) (hd : directoryToCreate env host path = some d)
    (hmk : mkdirWithParents env host path = (host₁, true)) :
    Absolute d ∧ components d <+: components path ∧
      (∃ us n, components d = us ++ [n] ∧ Plain n ∧ ['.', '.'] ∉ us) ∧
      ¬ host.tree.Exists (place d) ∧ Makes (place d <+: ·) host host₁ := by
  obtain ⟨us, rest, n, u, hfirst, hplain, hplace, hfresh⟩ :=
    missing_of_directoryToCreate habs hd (by rw [hmk])
  rw [hfirst.path_eq, List.mem_append, List.mem_cons, not_or, not_or] at hup
  rw [mkdirWithParents, FileSystem.mkdirs, if_neg habs.ne_empty, habs.origin,
    hfirst.path_eq] at hmk
  obtain rfl := (Prod.mk.inj hmk).1
  refine ⟨hfirst.absolute, hfirst.comps ▸ hfirst.isPrefix, ⟨us, n, hfirst.comps, hplain, hup.1⟩,
    hfresh, ?_⟩
  rw [hplace]
  exact FileSystem.makes_from hfirst.walk hfirst.isDir hfirst.missing fun hmem =>
    hup.2.2 (List.mem_of_mem_dropLast hmem)

/-- A mount that is made. -/
theorem handleMount_made {wd : String} (hwd : Absolute wd) (hign : m.ignored = false)
    (hm : m.Undoable env dryRun wd host)
    (h : handleMount env dryRun wd host m = (host', m', true)) :
    ∃ (host₁ host₂ : Host) (s : Path) (hcan : host₂.CanMount (place (destination wd m.dir)) s),
      mkdirWithParents env host (mountDirectory env host m (destination wd m.dir)) =
        (host₁, true) ∧
      Makes (· = place (destination wd m.dir)) host₁ host₂ ∧
      (∀ s, host₂.stored.IsDir s → host₁.stored.IsDir s) ∧
      host₂.lookup env.cwd (destination wd m.dir) = some (place (destination wd m.dir)) ∧
      host' = host₂.mount (place (destination wd m.dir)) s false hcan ∧
      m' = {
        dest := .copy (wd ++ m.dir)
        directoryCreated :=
          directoryToCreate env host (mountDirectory env host m (destination wd m.dir)) } := by
  have habs : Absolute (destination wd m.dir) := absolute_destination hwd m.dir
  obtain ⟨host₁, hmk, hmount, rfl⟩ := handleMount_eq_true hign hm.source h
  have halone := hm.alone
  rw [hmk] at halone
  obtain ⟨host₂, hmakes, hdirs, ⟨-, hnot⟩ | ⟨-, -, p, s, hcan, hlook, hperform⟩⟩ :=
    performMount_cases env dryRun host₁ m (destination wd m.dir)
  · rw [hmount] at hnot
    rcases hnot rfl with hdry | hmakes
    · cases hm.live.symm.trans hdry
    · cases hm.makes.symm.trans hmakes
  · obtain rfl := place_of_lookup habs hlook
    rw [habs.origin] at hmakes
    rw [hmount, halone] at hperform
    exact ⟨host₁, host₂, s, hcan, hmk, hmakes, hdirs, hlook, (Prod.mk.inj hperform).1, rfl⟩

/-- What is noted for the next mount is missing on the way to its destination, as it was before all
mounts, and all that is made for it lies there or below. -/
theorem Over.notes (h : Over host₀ host ks) {dest d : String} {host₁ : Host}
    (habs : Absolute dest) (hup : ['.', '.'] ∉ components dest)
    (hnest : ∀ k ∈ ks, Unnested (place k.dest.text) (place dest)) (hshell : ShellPlain d)
    (hd : directoryToCreate env host (mountDirectory env host m dest) = some d)
    (hmk : mkdirWithParents env host (mountDirectory env host m dest) = (host₁, true)) :
    Noted host₀ d ∧ Makes (fun q => host₀.real (place d) <+: host.real q) host host₁ := by
  obtain hslash | ⟨hdabs, hdpre⟩ := @mountDirectory_cases env _ habs host m
  · rw [hslash, directoryToCreate, if_pos (isDir_slash host env.cwd)] at hd
    cases hd
  · obtain ⟨hd', hpre, hends, hfresh, hbelow⟩ := directoryToCreate_spec hdabs
      (fun hmem => hup (hdpre.subset hmem)) hd hmk
    have hway := resolve_isPrefix hup (hpre.trans hdpre)
    obtain ⟨es, htable, -, hes, hunnested⟩ := h.unnested hnest
    have hreal : host.real (place d) = host₀.real (place d) := by
      have hmissing := hfresh
      rw [FileTree.Exists, FileSystem.tree_node, FileSystem.real, htable] at hmissing
      rw [FileSystem.real, htable]
      exact real_of_missing_on_way hes hunnested hway hmissing
    refine ⟨⟨hd', hshell, hends, fun hex => hfresh ?_⟩, hbelow.mono ?_⟩
    · exact (h.seen hnest hway rfl (.refl _)).1.2 (h.grows.exists_of hex)
    · rintro q ⟨ns, rfl⟩
      rw [← hreal, FileSystem.real, FileSystem.real, host.mounted.real_of_missing hfresh]
      exact List.prefix_append _ _

/-- A mount that is made over those before it. -/
theorem Over.step (h : Over host₀ host ks) (hwd : Absolute buf.text)
    (hdir : host₀.IsDir env.cwd buf.text) (habsm : Absolute m.dir)
    (hup : ['.', '.'] ∉ components (destination buf.text m.dir))
    (hnest : ∀ k ∈ ks, Unnested (place k.dest.text) (place (destination buf.text m.dir)))
    (hign : m.ignored = false) (hm : m.Undoable env dryRun buf.text host)
    (hmount : handleMount env dryRun buf.text host m = (host', m', true)) :
    m'.ignoreMount = false ∧ m'.dest.text = destination buf.text m.dir ∧
      Over host₀ host' (ks ++ [m']) := by
  obtain ⟨host₁, host₂, s, hcan, hmk, hmakes, hnodirs, hlook, rfl, rfl⟩ :=
    handleMount_made hwd hign hm hmount
  have habs : Absolute (destination buf.text m.dir) := absolute_destination hwd m.dir
  obtain ⟨ws, hcomps, -⟩ := components_destination buf habsm
  have hwdpre : components buf.text <+: components (destination buf.text m.dir) :=
    ⟨ws, hcomps.symm⟩
  have hroot : Rooted host env.cwd (mountDirectory env host m (destination buf.text m.dir)) :=
    rooted_mountDirectory habs hwd hwdpre (h.isDir hwd hnest hup hwdpre hdir)
  have hmkdirs := @FileSystem.makes_mkdirs _ host env.cwd (env.mkdirOk host)
    (mountDirectory env host m (destination buf.text m.dir))
  rw [← mkdirWithParents, hmk] at hmkdirs
  have hgrows : host.stored.Grows host₂.stored := hmkdirs.grows.trans hmakes.grows
  have hmounts : host₂.mounts = host.mounts := hmakes.mounts.trans hmkdirs.mounts
  have hspec : ∀ d, directoryToCreate env host
      (mountDirectory env host m (destination buf.text m.dir)) = some d →
      Noted host₀ d ∧ Makes (fun q => host₀.real (place d) <+: host.real q) host host₁ :=
    fun d hd => h.notes habs hup hnest (hm.shell d hd) hd hmk
  refine ⟨rfl, rfl, h.grows.trans hgrows, ?_, ?_, ?_, ?_⟩
  · obtain ⟨es, htable, htargets, hes⟩ := h.table
    refine ⟨⟨place (destination buf.text m.dir), s, false⟩ :: es, ?_, ?_, ?_⟩
    · rw [List.cons_append, ← htable, ← hmounts]
      rfl
    · rw [List.map_cons, htargets, List.map_append, List.reverse_append]
      rfl
    · intro e he
      obtain rfl | he := List.mem_cons.1 he
      · obtain ⟨hex, hd⟩ := h.seen hnest List.prefix_rfl hmounts hgrows
        exact ⟨rfl, hcan.2.1, hex.1 hcan.1, hcan.2.2.symm.trans hd⟩
      · exact (hes e he).grows hgrows
  · intro k hk
    obtain hk | hk := List.mem_append.1 hk
    · have hfound := h.found k hk
      exact { hfound with way := fun ms n hpre =>
        ⟨hgrows.isDir_of (hfound.way ms n hpre).1, hgrows.exists_of (hfound.way ms n hpre).2⟩ }
    · obtain rfl := List.mem_singleton.1 hk
      refine ⟨habs, hup, fun ms n hpre => ?_⟩
      rw [lookup_absolute habs] at hlook
      obtain ⟨hd, hex⟩ := (FileTree.walk_eq_some_iff.1 hlook).2 ms n hpre
      exact ⟨(h.seen hnest (resolve_isPrefix hup ((List.prefix_append _ _).trans hpre)) hmounts
        hgrows).2.1 hd, (h.seen hnest (resolve_isPrefix hup hpre) hmounts hgrows).1.1 hex⟩
  · intro k hk d hd
    obtain hk | hk := List.mem_append.1 hk
    · exact h.noted k hk d hd
    · obtain rfl := List.mem_singleton.1 hk
      exact (hspec d hd).1
  · intro x hx
    by_cases hsame : host₁.stored.node x = host.stored.node x
    · refine (h.dirs x (hsame.symm.trans (hnodirs x hx))).imp_right ?_
      rintro ⟨k, hk, hd⟩
      exact ⟨k, List.mem_append_left _ hk, hd⟩
    · refine .inr ⟨_, List.mem_append_right _ List.mem_cons_self, ?_⟩
      cases hd : directoryToCreate env host
          (mountDirectory env host m (destination buf.text m.dir)) with
      | none =>
        have hall := isDir_of_directoryToCreate_eq_none hroot hd
        have hnew := (FileSystem.mkdirs_of_isDir (env.mkdirOk host) hall).symm.trans hmk
        exact absurd (by rw [(Prod.mk.inj hnew).1]) hsame
      | some d =>
        obtain ⟨q, hq, hreal⟩ := (hspec d hd).2.stored x hsame
        exact ⟨d, rfl, hreal ▸ hq⟩

end

/-! ## A list of mounts -/

/-- The mounts of a list that are reached and not ignored satisfy `P`, each on the host that it
meets. -/
def EachTurn (P : Host → MountSpec → Prop) (env : HostEnv) (dryRun : Bool) (wd : String) :
    Host → List MountSpec → Prop
  | _, [] => True
  | host, m :: ms => (m.ignored = false → P host m) ∧
    ((handleMount env dryRun wd host m).2.2 = true →
      EachTurn P env dryRun wd (handleMount env dryRun wd host m).1 ms)

/-- The mounts that the state file keeps. -/
def keptMounts (ms : List CcOciMount) : List CcOciMount := ms.filter fun m => !m.ignoreMount

/-- The destinations of the mounts that are not ignored. -/
def destinations (wd : String) (specs : List MountSpec) : List String :=
  (specs.filter fun m => !m.ignored).map fun m => destination wd m.dir

section
variable {env : HostEnv} {dryRun : Bool} {host₀ : Host} {buf : PathBuf}

/-- A list of mounts that goes well is its first mount and the rest. -/
theorem handleMountList_cons {wd : String} {host host' : Host} {m : MountSpec}
    {specs : List MountSpec} {ms : List CcOciMount}
    (h : handleMountList env dryRun wd host (m :: specs) = (host', ms, true)) :
    ∃ host₁ m' ms', handleMount env dryRun wd host m = (host₁, m', true) ∧
      handleMountList env dryRun wd host₁ specs = (host', ms', true) ∧ ms = m' :: ms' := by
  rw [handleMountList] at h
  generalize handleMount env dryRun wd host m = first at h ⊢
  obtain ⟨host₁, m', _ | _⟩ := first
  · cases (Prod.mk.inj (Prod.mk.inj h).2).2
  · obtain ⟨hhost, hrest⟩ := Prod.mk.inj h
    obtain ⟨rfl, hok⟩ := Prod.mk.inj hrest
    exact ⟨host₁, m', _, rfl, Prod.ext hhost (Prod.ext rfl hok), rfl⟩

/-- The mounts of a list, made over those before it. -/
theorem Over.run (hwd : Absolute buf.text) (hdir : host₀.IsDir env.cwd buf.text) :
    ∀ {specs : List MountSpec} {host host' : Host} {ks ms : List CcOciMount}, Over host₀ host ks →
    (∀ m ∈ specs, m.ignored = false →
      Absolute m.dir ∧ ['.', '.'] ∉ components (destination buf.text m.dir)) →
    EachTurn (MountSpec.Undoable env dryRun buf.text) env dryRun buf.text host specs →
    (ks.map (fun k => place k.dest.text) ++
      (destinations buf.text specs).map place).Pairwise Unnested →
    handleMountList env dryRun buf.text host specs = (host', ms, true) →
    (keptMounts ms).map (·.dest.text) = destinations buf.text specs ∧
      Over host₀ host' (ks ++ keptMounts ms)
  | [], host, host', ks, ms, hover, _, _, _, h => by
    obtain ⟨rfl, hms⟩ := Prod.mk.inj h
    obtain ⟨rfl, -⟩ := Prod.mk.inj hms
    exact ⟨rfl, (List.append_nil ks).symm ▸ hover⟩
  | m :: specs, host, host', ks, ms, hover, hdown, hturns, hnest, h => by
    obtain ⟨host₁, m', ms', hmount, hrest, rfl⟩ := handleMountList_cons h
    have hdown' := fun s hs => hdown s (List.mem_cons_of_mem m hs)
    have hturns' := hturns.2 (by rw [hmount])
    rw [hmount] at hturns'
    cases hign : m.ignored with
    | true =>
      rw [handleMount_ignored hign] at hmount
      obtain ⟨rfl, hm'⟩ := Prod.mk.inj hmount
      obtain ⟨rfl, -⟩ := Prod.mk.inj hm'
      have hskip : destinations buf.text (m :: specs) = destinations buf.text specs := by
        rw [destinations, List.filter_cons_of_neg (by simp [hign])]
        rfl
      rw [hskip] at hnest ⊢
      have hkept : keptMounts ({ ignoreMount := true } :: ms') = keptMounts ms' := rfl
      rw [hkept]
      exact Over.run hwd hdir hover hdown' hturns' hnest hrest
    | false =>
      have hcons : destinations buf.text (m :: specs) =
          destination buf.text m.dir :: destinations buf.text specs := by
        rw [destinations, List.filter_cons_of_pos (by simp [hign])]
        rfl
      rw [hcons, List.map_cons] at hnest
      obtain ⟨habs, hup⟩ := hdown m List.mem_cons_self hign
      obtain ⟨hkept, hdest, hover'⟩ := hover.step hwd hdir habs hup (fun k hk =>
        (List.pairwise_append.1 hnest).2.2 _ (List.mem_map_of_mem hk) _ List.mem_cons_self) hign
        (hturns.1 hign) hmount
      have hnest' : ((ks ++ [m']).map (fun k => place k.dest.text) ++
          (destinations buf.text specs).map place).Pairwise Unnested := by
        rw [List.map_append, List.append_assoc, List.map_singleton, hdest]
        exact hnest
      obtain ⟨hdests, hrun⟩ := Over.run hwd hdir hover' hdown' hturns' hnest' hrest
      rw [keptMounts, List.filter_cons_of_pos (by simp [hkept]), hcons]
      refine ⟨?_, ?_⟩
      · rw [List.map_cons, hdest]
        exact congrArg _ hdests
      · rwa [List.append_assoc] at hrun

/-! ## Unmounting the list -/

/-- Mounts that are not nested are unmounted in any order. -/
theorem unmountList_laid (hok : ∀ host d, env.umountOk host d = true) :
    ∀ {ks : List CcOciMount} {es : List Mount} {host : Host},
    host.mounts = es ++ host₀.mounts →
    (es.map Mount.target).Perm (ks.map fun k => place k.dest.text) →
    (∀ e ∈ es, Laid host.stored host₀.mounts e) → (∀ k ∈ ks, k.ignoreMount = false) →
    (∀ k ∈ ks, WayUnder host₀ host k.dest.text) →
    (ks.map fun k => place k.dest.text).Pairwise Unnested →
    ∃ host', unmountList env host ks = (host', true) ∧ host'.mounts = host₀.mounts ∧
      host'.stored = host.stored
  | [], es, host, hmounts, hperm, _, _, _, _ => by
    obtain rfl := List.map_eq_nil_iff.1 hperm.eq_nil
    exact ⟨host, rfl, hmounts, rfl⟩
  | k :: ks, es, host, hmounts, hperm, hes, hkept, hfound, hnest => by
    have hself : Unnested (place k.dest.text) (place k.dest.text) :=
      ⟨fun h => h.2 rfl, fun h => h.2 rfl⟩
    have hunnested : ∀ e ∈ es, Unnested e.target (place k.dest.text) := by
      intro e he
      have hmem := hperm.mem_iff.1 (List.mem_map_of_mem he)
      obtain heq | hmem := List.mem_cons.1 hmem
      · rw [heq]
        exact hself
      · exact ((List.pairwise_cons.1 hnest).1 _ hmem).symm
    have hway := hfound k List.mem_cons_self
    -- the path of the mount is found as long as it is there
    have hlook : host.lookup env.cwd k.dest.text = some (place k.dest.text) := by
      rw [lookup_absolute hway.absolute]
      refine FileTree.walk_eq_some_iff.2 ⟨rfl, fun ms n hpre => ?_⟩
      have hseen : ∀ ns, ns <+: components k.dest.text → _ := fun ns hns =>
        seen_on_way hes hunnested (resolve_isPrefix hway.down hns)
      rw [← hmounts] at hseen
      obtain ⟨hdir, hex⟩ := hway.way ms n hpre
      exact ⟨(hseen ms ((List.prefix_append _ _).trans hpre)).2.2 hdir, (hseen _ hpre).1.2 hex⟩
    obtain ⟨es', hun, herase, hsub⟩ := @Mount.unstack_append host₀.mounts es _
      (hperm.mem_iff.2 List.mem_cons_self) (fun e he => (hes e he).free) hunnested
    rw [← hmounts] at hun
    obtain ⟨host₁, hum, hmounts₁, hstored₁⟩ := FileSystem.exists_umount hun
    have hperform : performUnmount env host k = some host₁ := by
      rw [performUnmount, if_pos (hok _ _), hlook]
      exact hum
    have hperm' : (es'.map Mount.target).Perm (ks.map fun k => place k.dest.text) := by
      rw [herase]
      simpa using hperm.erase (place k.dest.text)
    obtain ⟨host', hrest, hmounts', hstored'⟩ := unmountList_laid hok hmounts₁ hperm'
      (fun e he => hstored₁ ▸ hes e (hsub he)) (fun k' hk' => hkept k' (List.mem_cons_of_mem _ hk'))
      (fun k' hk' => { hfound k' (List.mem_cons_of_mem _ hk') with
        way := hstored₁ ▸ (hfound k' (List.mem_cons_of_mem _ hk')).way })
      (List.pairwise_cons.1 hnest).2
    refine ⟨host', ?_, hmounts', hstored'.trans hstored₁⟩
    rw [unmountList, if_neg (by simp [hkept k List.mem_cons_self]), hperform]
    exact hrest

/-! ## Removing the directories -/

/-- Removing a noted directory, once all is unmounted, removes what is stored for it. -/
theorem rmRf_noted {host : Host} {d : String} (hd : Noted host₀ d)
    (hmounts : host.mounts = host₀.mounts) (s : Path) :
    (host.rmRf env.cwd d).1.stored.node s =
      if host₀.real (place d) <+: s then none else host.stored.node s := by
  obtain ⟨us, n, hcomps, hplain, hup⟩ := hd.ends
  have hreal : host.real (place d) = host₀.real (place d) := by
    rw [FileSystem.real, FileSystem.real, hmounts]
  rw [← hreal]
  refine rmRf_of_missing hd.absolute hcomps hplain (hmounts ▸ host₀.mounted) (hreal ▸ hd.fresh)
    (fun hex => ?_) s
  rw [place, hcomps] at hex
  rw [lookup_absolute hd.absolute, hcomps, FileTree.walk_of_exists hup hplain hex]
  exact Option.some_ne_none _

/-- What is stored below the directory that was noted for the mount. -/
def CcOciMount.Covers (host₀ : Host) (k : CcOciMount) (s : Path) : Prop :=
  ∃ d, k.directoryCreated = some d ∧ host₀.real (place d) <+: s

/-- A removal takes what is noted and no more. -/
theorem removeCreated_spec (hok : ∀ host d, env.rmOk host d = true) {k : CcOciMount} {host : Host}
    (hkept : k.ignoreMount = false) (hnoted : ∀ d, k.directoryCreated = some d → Noted host₀ d)
    (hmounts : host.mounts = host₀.mounts) :
    (removeCreated env host k).mounts = host₀.mounts ∧
      (∀ s, k.Covers host₀ s → ¬ (removeCreated env host k).stored.Exists s) ∧
      ∀ s, ¬ k.Covers host₀ s → (removeCreated env host k).stored.node s = host.stored.node s := by
  unfold removeCreated
  rw [hkept]
  cases hd : k.directoryCreated with
  | none =>
    refine ⟨hmounts, ?_, fun _ _ => rfl⟩
    rintro s ⟨d, hd', -⟩
    cases hd.symm.trans hd'
  | some d =>
    have hnode := fun s => @rmRf_noted env host₀ host d (hnoted d hd) hmounts s
    have hrm : (ociRmRf env host d).1 = (host.rmRf env.cwd d).1 := by
      rw [ociRmRf, if_neg (hnoted d hd).absolute.ne_empty,
        if_neg (not_not.2 (hnoted d hd).shell), if_pos (hok _ _)]
    dsimp only
    rw [hrm]
    refine ⟨(FileSystem.rmRf_mounts _ _ _).trans hmounts, ?_, fun s hs => ?_⟩
    · rintro s ⟨d', hd', hs⟩
      obtain rfl := Option.some.inj (hd.symm.trans hd')
      rw [FileTree.Exists, hnode, if_pos hs]
      exact fun h => h rfl
    · rw [hnode, if_neg fun hpre => hs ⟨d, hd, hpre⟩]

/-- Removing all noted directories removes what is stored for one of them and nothing else. -/
theorem foldl_removeCreated (hok : ∀ host d, env.rmOk host d = true) :
    ∀ {ks : List CcOciMount} {host : Host}, (∀ k ∈ ks, k.ignoreMount = false) →
    (∀ k ∈ ks, ∀ d, k.directoryCreated = some d → Noted host₀ d) →
    host.mounts = host₀.mounts →
    (ks.foldl (removeCreated env) host).mounts = host₀.mounts ∧
      (∀ s, (∃ k ∈ ks, k.Covers host₀ s) → ¬ (ks.foldl (removeCreated env) host).stored.Exists s) ∧
      ∀ s, (¬ ∃ k ∈ ks, k.Covers host₀ s) →
        (ks.foldl (removeCreated env) host).stored.node s = host.stored.node s
  | [], host, _, _, hmounts => ⟨hmounts, by simp, fun _ _ => rfl⟩
  | k :: ks, host, hkept, hnoted, hmounts => by
    obtain ⟨hsame, hgone, hrest⟩ := removeCreated_spec hok (hkept k List.mem_cons_self)
      (hnoted k List.mem_cons_self) hmounts
    obtain ⟨hsame', hgone', hrest'⟩ := foldl_removeCreated hok
      (fun k' hk' => hkept k' (List.mem_cons_of_mem _ hk'))
      (fun k' hk' => hnoted k' (List.mem_cons_of_mem _ hk')) hsame
    rw [List.foldl_cons]
    refine ⟨hsame', ?_, ?_⟩
    · rintro s ⟨k', hk', hs⟩
      by_cases hlater : ∃ k ∈ ks, k.Covers host₀ s
      · exact hgone' s hlater
      · obtain rfl | hk' := List.mem_cons.1 hk'
        · rw [FileTree.Exists, hrest' s hlater]
          exact hgone s hs
        · exact absurd ⟨k', hk', hs⟩ hlater
    · intro s hs
      rw [hrest' s fun ⟨k', hk', hs'⟩ => hs ⟨k', List.mem_cons_of_mem _ hk', hs'⟩,
        hrest s fun hs' => hs ⟨k, List.mem_cons_self, hs'⟩]

/-- What the mounts have done, unmounting takes away. -/
theorem Over.undone {host : Host} {ks : List CcOciMount} (h : Over host₀ host ks)
    (humount : ∀ host d, env.umountOk host d = true) (hrm : ∀ host d, env.rmOk host d = true)
    (hkept : ∀ k ∈ ks, k.ignoreMount = false)
    (hnest : (ks.map fun k => place k.dest.text).Pairwise Unnested) :
    ∃ host', handleUnmounts env host ks = (host', true) ∧ host'.mounts = host₀.mounts ∧
      ∀ s, host'.stored.IsDir s ↔ host₀.stored.IsDir s := by
  obtain ⟨es, hmounts, htargets, hes⟩ := h.table
  obtain ⟨host₁, hlist, hmounts₁, hstored₁⟩ := unmountList_laid humount hmounts
    (htargets ▸ List.reverse_perm _) hes hkept h.found hnest
  obtain ⟨hsame, hgone, hrest⟩ := foldl_removeCreated hrm hkept h.noted hmounts₁
  refine ⟨_, by rw [handleUnmounts, hlist], hsame, fun s => ⟨fun hs => ?_, fun hs => ?_⟩⟩
  · have hnot : ¬ ∃ k ∈ ks, k.Covers host₀ s := fun hs' => hgone s hs' hs.exists
    rw [FileTree.IsDir, hrest s hnot, hstored₁] at hs
    exact (h.dirs s hs).resolve_right hnot
  · have hnot : ¬ ∃ k ∈ ks, k.Covers host₀ s := by
      rintro ⟨k, hk, d, hd, hpre⟩
      have hfresh : ¬ host₀.stored.Exists (host₀.real (place d)) := (h.noted k hk d hd).fresh
      exact hfresh (FileTree.exists_of_prefix hs.exists hpre)
    rw [FileTree.IsDir, hrest s hnot, hstored₁]
    exact h.grows.isDir_of hs

end

/-! ## What it takes -/

section
variable {env : HostEnv} {dryRun : Bool} {wd : String}

/-- One mount that goes well adds an entry to the table if it is made, and nothing otherwise. -/
theorem handleMount_entries {host host' : Host} {m : MountSpec} {m' : CcOciMount}
    (hwd : Absolute wd) (hign : m.ignored = false)
    (h : handleMount env dryRun wd host m = (host', m', true)) :
    m'.ignoreMount = false ∧ m'.dest.text = destination wd m.dir ∧
      (host'.mounts = host.mounts ∨ ∃ e : Mount, host'.mounts = e :: host.mounts ∧
        e.target = place (destination wd m.dir) ∧ (e.busy = false →
          (∀ d ∈ m'.directoryCreated, ShellPlain d) → m.Undoable env dryRun wd host)) := by
  by_cases hskip : m.Skipped env host
  · rw [handleMount_skipped hign hskip] at h
    obtain ⟨rfl, hrest⟩ := Prod.mk.inj h
    obtain ⟨rfl, -⟩ := Prod.mk.inj hrest
    exact ⟨rfl, rfl, .inl rfl⟩
  · obtain ⟨host₁, hmk, hmount, rfl⟩ := handleMount_eq_true hign hskip h
    have hmkdirs : host₁.mounts = host.mounts := by
      rw [← (Prod.mk.inj hmk).1]
      exact FileSystem.mkdirs_mounts _ _
    refine ⟨rfl, rfl, ?_⟩
    obtain ⟨host₂, hmakes, -, ⟨hsame, -⟩ | ⟨hlive, hnew, p, s, hcan, hlook, hperform⟩⟩ :=
      performMount_cases env dryRun host₁ m (destination wd m.dir)
    · rw [hmount] at hsame
      obtain rfl : host' = host₂ := hsame
      exact .inl (hmakes.mounts.trans hmkdirs)
    · obtain rfl := place_of_lookup (absolute_destination hwd m.dir) hlook
      rw [hmount] at hperform
      obtain rfl := (Prod.mk.inj hperform).1
      refine .inr ⟨⟨_, s, m.busy env host₁⟩, ?_, rfl, fun hbusy hshell => ?_⟩
      · exact congrArg (_ :: ·) (hmakes.mounts.trans hmkdirs)
      · exact ⟨hlive, hskip, hnew, by rwa [hmk], hshell⟩

/-- A list of mounts that goes well adds at most one entry for each mount that is kept. If it adds
as many, every mount was made. -/
theorem handleMountList_entries (hwd : Absolute wd) :
    ∀ {specs : List MountSpec} {host host' : Host} {ms : List CcOciMount},
    handleMountList env dryRun wd host specs = (host', ms, true) →
    (keptMounts ms).map (·.dest.text) = destinations wd specs ∧
    ∃ es : List Mount, host'.mounts = es.reverse ++ host.mounts ∧
      es.length ≤ (keptMounts ms).length ∧ (es.length = (keptMounts ms).length →
        es.map Mount.target = (destinations wd specs).map place ∧
        ((∀ e ∈ es, e.busy = false) →
          (∀ k ∈ keptMounts ms, ∀ d ∈ k.directoryCreated, ShellPlain d) →
          EachTurn (MountSpec.Undoable env dryRun wd) env dryRun wd host specs))
  | [], host, host', ms, h => by
    obtain ⟨rfl, hms⟩ := Prod.mk.inj h
    obtain ⟨rfl, -⟩ := Prod.mk.inj hms
    exact ⟨rfl, [], rfl, le_rfl, fun _ => ⟨rfl, fun _ _ => trivial⟩⟩
  | m :: specs, host, host', ms, h => by
    obtain ⟨host₁, m', ms', hmount, hrest, rfl⟩ := handleMountList_cons h
    obtain ⟨hdests, es, hmounts, hle, heq⟩ := handleMountList_entries hwd hrest
    cases hign : m.ignored with
    | true =>
      rw [handleMount_ignored hign] at hmount
      obtain ⟨rfl, hm'⟩ := Prod.mk.inj hmount
      obtain ⟨rfl, -⟩ := Prod.mk.inj hm'
      have hkept : keptMounts ({ ignoreMount := true } :: ms') = keptMounts ms' := rfl
      have hskip : destinations wd (m :: specs) = destinations wd specs := by
        rw [destinations, List.filter_cons_of_neg (by simp [hign])]
        rfl
      rw [hkept, hskip]
      refine ⟨hdests, es, hmounts, hle, fun hlen => ⟨(heq hlen).1, fun hbusy hshell => ?_⟩⟩
      refine ⟨fun hnot => (by cases hign.symm.trans hnot), fun _ => ?_⟩
      rw [handleMount_ignored hign]
      exact (heq hlen).2 hbusy hshell
    | false =>
      obtain ⟨hkept', hdest, hentry⟩ := handleMount_entries hwd hign hmount
      have hkept : keptMounts (m' :: ms') = m' :: keptMounts ms' :=
        List.filter_cons_of_pos (by simp [hkept'])
      have hcons : destinations wd (m :: specs) =
          destination wd m.dir :: destinations wd specs := by
        rw [destinations, List.filter_cons_of_pos (by simp [hign])]
        rfl
      rw [hkept, hcons, List.map_cons, hdest, hdests, List.length_cons]
      refine ⟨rfl, ?_⟩
      obtain hsame | ⟨e, hnew, htarget, hundo⟩ := hentry
      · exact ⟨es, hsame ▸ hmounts, by omega, fun hlen => by omega⟩
      · refine ⟨e :: es, ?_, by rw [List.length_cons]; omega, fun hlen => ?_⟩
        · rw [hmounts, hnew, List.reverse_cons, List.append_assoc]
          rfl
        · obtain ⟨htargets, hturns⟩ := heq (Nat.succ.inj hlen)
          refine ⟨by rw [List.map_cons, htarget, htargets, List.map_cons], fun hbusy hshell => ?_⟩
          refine ⟨fun _ => hundo (hbusy e List.mem_cons_self) (hshell m' List.mem_cons_self),
            fun _ => ?_⟩
          rw [hmount]
          exact hturns (fun e' he' => hbusy e' (List.mem_cons_of_mem _ he'))
            fun k hk => hshell k (List.mem_cons_of_mem _ hk)

theorem absolute_keptMounts (hwd : Absolute wd) {specs : List MountSpec} {ms : List CcOciMount}
    (hdests : (keptMounts ms).map (·.dest.text) = destinations wd specs) :
    ∀ k ∈ keptMounts ms, Absolute k.dest.text := by
  intro k hk
  have hmem : k.dest.text ∈ destinations wd specs := hdests ▸ List.mem_map_of_mem hk
  obtain ⟨m, -, hm⟩ := List.mem_map.1 hmem
  exact hm ▸ absolute_destination hwd m.dir

/-- Unmounting takes one entry from the table for each mount. -/
theorem length_unmountList : ∀ {ks : List CcOciMount} {host host' : Host},
    (∀ k ∈ ks, k.ignoreMount = false) → unmountList env host ks = (host', true) →
    host'.mounts.length + ks.length = host.mounts.length
  | [], _, _, _, h => congrArg (·.mounts.length) (Prod.mk.inj h).1.symm
  | k :: ks, host, host', hkept, h => by
    rw [unmountList, if_neg (by simp [hkept k List.mem_cons_self])] at h
    cases hum : performUnmount env host k with
    | none =>
      rw [hum] at h
      cases (Prod.mk.inj h).2
    | some host₁ =>
      rw [hum] at h
      have hrest := length_unmountList (fun k' hk' => hkept k' (List.mem_cons_of_mem _ hk')) h
      rw [performUnmount] at hum
      split_ifs at hum
      obtain ⟨p, -, hp⟩ := Option.bind_eq_some_iff.1 hum
      have hlen := Mount.length_unstack (FileSystem.umount_eq_some hp).1
      rw [List.length_cons]
      omega

/-- Unmounting in the order of the list goes well only if no place lies below another one. -/
theorem unnested_of_unmountList {M : List Mount} :
    ∀ {ks : List CcOciMount} {es : List Mount} {host host' : Host},
    (∀ k ∈ ks, k.ignoreMount = false) → (∀ k ∈ ks, Absolute k.dest.text) →
    host.mounts = es.reverse ++ M →
    es.map Mount.target = ks.map (fun k => place k.dest.text) →
    (ks.map fun k => place k.dest.text).Nodup → unmountList env host ks = (host', true) →
    (ks.map fun k => place k.dest.text).Pairwise Unnested ∧ ∀ e ∈ es, e.busy = false
  | [], es, _, _, _, _, _, htargets, _, _ => by
    obtain rfl := List.map_eq_nil_iff.1 htargets
    exact ⟨List.Pairwise.nil, by simp⟩
  | k :: ks, [], _, _, _, _, _, htargets, _, _ => by cases htargets
  | k :: ks, e :: es, host, host', hkept, habs, hmounts, htargets, hnodup, h => by
    obtain ⟨htarget, htargets'⟩ := List.cons.inj htargets
    obtain ⟨hnot, hnodup'⟩ := List.nodup_cons.1 hnodup
    rw [unmountList, if_neg (by simp [hkept k List.mem_cons_self])] at h
    cases hum : performUnmount env host k with
    | none =>
      rw [hum] at h
      cases (Prod.mk.inj h).2
    | some host₁ =>
      rw [hum] at h
      rw [performUnmount] at hum
      split_ifs at hum
      obtain ⟨p, hlook, hp⟩ := Option.bind_eq_some_iff.1 hum
      obtain rfl := place_of_lookup (habs k List.mem_cons_self) hlook
      have hun := (FileSystem.umount_eq_some hp).1
      rw [hmounts, List.reverse_cons, List.append_assoc, List.singleton_append] at hun
      obtain ⟨hnest, hbusy, hmounts₁⟩ := Mount.unnested_of_unstack
        (by rwa [List.map_reverse, List.mem_reverse, htargets']) htarget hun
      obtain ⟨hpair, hrest⟩ := unnested_of_unmountList
        (fun k' hk' => hkept k' (List.mem_cons_of_mem _ hk'))
        (fun k' hk' => habs k' (List.mem_cons_of_mem _ hk')) hmounts₁ htargets' hnodup' h
      refine ⟨List.pairwise_cons.2 ⟨fun q hq => ?_, hpair⟩, fun e' he' => ?_⟩
      · rw [← htargets'] at hq
        obtain ⟨e', he', rfl⟩ := List.mem_map.1 hq
        exact (hnest e' (List.mem_reverse.2 he')).symm
      · obtain rfl | he' := List.mem_cons.1 he'
        · exact hbusy
        · exact hrest e' he'

/-- A shell that mounts something when it is given a path that it does not take as it stands. -/
def meddlingShell : HostEnv where
  shell host _ := (host.mount [] [] false
    ⟨FileTree.IsDir.exists host.tree.root, FileTree.IsDir.exists host.stored.root,
      iff_of_true host.tree.root host.stored.root⟩, true)

/-- A removal leaves the mounts. -/
theorem mounts_removeCreated (host : Host) (k : CcOciMount) :
    (removeCreated {} host k).mounts = host.mounts := by
  unfold removeCreated
  split
  · unfold ociRmRf
    split_ifs
    · rfl
    · exact FileSystem.rmRf_mounts _ _ _
    · rfl
    · rfl
  · rfl

/-- The meddling shell adds a mount unless the path is plain. -/
theorem length_removeCreated (host : Host) {k : CcOciMount} (hkept : k.ignoreMount = false) :
    (removeCreated meddlingShell host k).mounts.length = host.mounts.length ∧
        (∀ d ∈ k.directoryCreated, ShellPlain d) ∨
      host.mounts.length < (removeCreated meddlingShell host k).mounts.length := by
  unfold removeCreated
  rw [hkept]
  cases hd : k.directoryCreated with
  | none => exact .inl ⟨rfl, fun d hd => by cases hd⟩
  | some d =>
    dsimp only
    by_cases hplain : ShellPlain d
    · refine .inl ⟨?_, fun d' hd' => Option.some.inj hd' ▸ hplain⟩
      unfold ociRmRf
      split_ifs
      · rfl
      · rw [FileSystem.rmRf_mounts]
      · rfl
    · have hne : d ≠ "" := by
        rintro rfl
        exact hplain (by decide)
      rw [ociRmRf, if_neg hne, if_pos hplain]
      exact .inr (Nat.lt_succ_self _)

/-- So do several removals. -/
theorem length_foldl_removeCreated : ∀ {ks : List CcOciMount} {host : Host},
    (∀ k ∈ ks, k.ignoreMount = false) →
    (ks.foldl (removeCreated meddlingShell) host).mounts.length = host.mounts.length ∧
        (∀ k ∈ ks, ∀ d ∈ k.directoryCreated, ShellPlain d) ∨
      host.mounts.length < (ks.foldl (removeCreated meddlingShell) host).mounts.length
  | [], _, _ => .inl ⟨rfl, by simp⟩
  | k :: ks, host, hkept => by
    rw [List.foldl_cons]
    have hrest := @length_foldl_removeCreated ks (removeCreated meddlingShell host k)
      fun k' hk' => hkept k' (List.mem_cons_of_mem _ hk')
    obtain ⟨hfirst, hplain⟩ | hfirst := length_removeCreated host (hkept k List.mem_cons_self)
    · rw [hfirst] at hrest
      refine hrest.imp_left fun ⟨hlen, hall⟩ => ⟨hlen, fun k' hk' => ?_⟩
      obtain rfl | hk' := List.mem_cons.1 hk'
      · exact hplain
      · exact hall k' hk'
    · refine .inr ?_
      obtain ⟨hlen, -⟩ | hlt := hrest
      · omega
      · omega

end

/-! ## The inverse law -/

/-- When mounting the list can be undone: every mount that is not ignored can be, when its turn
comes, and no destination lies strictly below another one. -/
structure Undoable (env : HostEnv) (host : Host) (config : Config) (specs : List MountSpec) :
    Prop where
  turns : EachTurn (MountSpec.Undoable env config.dryRunMode (getWorkloadDir config)) env
    config.dryRunMode (getWorkloadDir config) host specs
  unnested : ((destinations (getWorkloadDir config) specs).map place).Pairwise Unnested

/-- Unmounting what the state file kept goes well, and the mount table and the directories are those
of `host`, whatever the shell does with a path that it does not take as it stands. -/
def Undone (host host' : Host) (doc : Json) : Prop :=
  ∀ env : HostEnv, (∀ host d, env.umountOk host d = true) → (∀ host d, env.rmOk host d = true) →
    ∃ st host'', stateFileRead doc = some st ∧ handleUnmounts env host' st.mounts = (host'', true) ∧
      host''.mounts = host.mounts ∧ ∀ q, host''.stored.IsDir q ↔ host.stored.IsDir q

/-- A shell that takes every path as it stands leaves the mounts alone. -/
theorem foldl_removeCreated_mounts (ks : List CcOciMount) (host : Host) :
    (ks.foldl (removeCreated {}) host).mounts = host.mounts := by
  induction ks generalizing host with
  | nil => rfl
  | cons k ks ih => exact (ih _).trans (mounts_removeCreated host k)

/-- What it takes that unmounting undoes mounting: all is unmounted and the mount table is the one
from before, also when the directories that were noted have been removed. -/
theorem Undone.unmountList {host host' : Host} {ms : List CcOciMount} {doc : Json} {st : OciState}
    (h : Undone host host' doc) (hread : stateFileRead doc = some st)
    (hstate : st.mounts = keptMounts ms) (env : HostEnv)
    (humount : ∀ host d, env.umountOk host d = true) (hrm : ∀ host d, env.rmOk host d = true) :
    ∃ host₁, unmountList env host' (keptMounts ms) = (host₁, true) ∧
      ((keptMounts ms).foldl (removeCreated env) host₁).mounts = host.mounts := by
  obtain ⟨st', host'', hst, hun, hsame, -⟩ := h env humount hrm
  obtain rfl := Option.some.inj (hst.symm.trans hread)
  rw [hstate, handleUnmounts] at hun
  cases hlist : Runtime.unmountList env host' (keptMounts ms) with
  | mk host₁ ok =>
    rw [hlist] at hun
    cases ok with
    | false => cases (Prod.mk.inj hun).2
    | true => exact ⟨host₁, rfl, (Prod.mk.inj hun).1 ▸ hsame⟩

/-- A host with a workload directory, a directory and a file. -/
def mountHost : Host :=
  ((((FileSystem.bare.mkdirs [] (fun _ => true) "/w").1.mkdirs []
    (fun _ => true) "/src").1).store []
    "/f" none).getD .bare

/-- A container whose workload directory is `/w`. -/
def mountConfig : Config := { configCreate with oci.root.path := .copy "/w" }

/-- The bind mount of `src` on `dir`; the flag is `MS_BIND`. -/
def bindMount (src dir : String) : MountSpec :=
  { fsname := src, dir, type := "bind", flags := 4096 }

/-- A directory and a file below a directory that is missing, and a mount that is ignored. -/
def mountSpecs : List MountSpec :=
  [bindMount "/src" "/data/x", { fsname := "proc", dir := "/proc", type := "proc" },
    bindMount "/f" "/data/f"]

/-- If the mounts of a list are made: the host when those that the state file keeps of it have been
unmounted, and whether they all were. -/
def mountAndUnmount (specs : List MountSpec) : Option (Host × Bool) :=
  let r := hostHandleMounts {} mountHost mountConfig specs
  if r.2.2 then
    ((stateFileCreate { sampleConfig with oci.mounts := r.2.1 } (some "now") true).bind
      stateFileRead).map fun st => handleUnmounts {} r.1 st.mounts
  else none

end Runtime

end CcOciRuntime
