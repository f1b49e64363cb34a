import CcOciRuntime.Lib.MountTable

/-!
# File systems with a mount table

A stored tree together with what is mounted over it. A text is followed in the tree that is seen
(`tree`). What is made or removed there is made or removed where it is stored, so that it is seen or
missing wherever that place is seen. The operations take texts as the system calls do, and the
directory `cwd` in which the process works. A file system also remembers at which places something
was made, mounted or removed.

What a mount shows is taken not to be removed itself as long as it is mounted.
-/

namespace CcOciRuntime

open Mount (Mounted)

/-- A stored tree with its mount table. -/
structure FileSystem (α : Type*) where
  stored : FileTree α
  mounts : List Mount
  mounted : Mounted stored mounts
  /-- the places at which something was made, mounted, mounted anew or removed, newest first -/
  touched : List Path := []

namespace FileSystem

variable {α : Type*} (fs : FileSystem α) (cwd : Path)

/-- The file system that is only a tree. -/
def ofTree (t : FileTree α) : FileSystem α where
  stored := t
  mounts := []
  mounted := trivial

/-- The file system with an empty root and no mounts. -/
def bare : FileSystem α := ofTree .bare

/-! ## Looking at a place -/

/-- The stored place that is seen at a place. -/
def real (p : Path) : Path := Mount.real fs.mounts p

/-- The tree that is seen. -/
def tree : FileTree α := Mount.view fs.stored fs.mounts fs.mounted

/-- Where a text is followed from. -/
def origin (text : String) : Path := if text.toList.head? = some '/' then [] else cwd

/-- The place that a text means, if there is something. -/
def lookup (text : String) : Option Path :=
  if text = "" then none else fs.tree.walk (origin cwd text) (components text)

/-- What a text means. -/
def stat (text : String) : Option (Node α) := (fs.lookup cwd text).bind fs.tree.node

/-- There is a directory under a text. -/
def IsDir (text : String) : Prop := ∃ p ∈ fs.lookup cwd text, fs.tree.IsDir p

instance (text : String) : Decidable (fs.IsDir cwd text) :=
  inferInstanceAs (Decidable (∃ p ∈ fs.lookup cwd text, fs.tree.IsDir p))

/-! ## Making directories and files -/

theorem tree_node (q : Path) : fs.tree.node q = fs.stored.node (fs.real q) := rfl

variable {fs} in
theorem isDir_dropLast_real {p : Path} (hp : fs.tree.IsDir p) (n : Name) :
    fs.stored.IsDir (fs.real (p ++ [n])).dropLast := by
  obtain h | ⟨-, h⟩ := Mount.real_concat fs.mounts p n
  · rw [real, h, List.dropLast_concat]
    exact hp
  · exact FileTree.isDir_dropLast (fs.mounted.exists_of_mem_anchors h)

/-- Storing `k` under the name `n` of the directory that is seen at `p`. -/
def put (p : Path) (n : Name) (k : Node α) (hp : fs.tree.IsDir p)
    (hk : fs.tree.Exists (p ++ [n]) → (k = .dir ↔ fs.tree.IsDir (p ++ [n]))) : FileSystem α where
  stored := fs.stored.put (fs.real (p ++ [n])) k (isDir_dropLast_real hp n) hk
  mounts := fs.mounts
  mounted := fs.mounted.grows FileTree.grows_put
  touched := (p ++ [n]) :: fs.touched

/-- Making the directories of the way `ns` from `p` that are missing, one after the other.
`allowed` are the places at which the call that makes a directory succeeds. The result is the file
system and, if every directory is there in the end, the place reached. -/
def mkdirsFrom (allowed : Path → Bool) :
    List Name → FileSystem α → Path → FileSystem α × Option Path
  | [], fs, p => (fs, some p)
  | n :: ns, fs, p =>
    if hp : fs.tree.IsDir p then
      if fs.tree.IsDir (lexStep p n) then mkdirsFrom allowed ns fs (lexStep p n)
      -- otherwise the component is a name, and it may be taken by a file
      else if h : ¬ fs.tree.Exists (p ++ [n]) ∧ allowed (p ++ [n]) then
        mkdirsFrom allowed ns (fs.put p n .dir hp fun hex => absurd hex h.1) (p ++ [n])
      else (fs, none)
    else (fs, none)

/-- Making the missing directories of a text, and whether they are all there then. -/
def mkdirs (allowed : Path → Bool) (text : String) : FileSystem α × Bool :=
  if text = "" then (fs, false)
  else
    let r := mkdirsFrom allowed (components text) fs (origin cwd text)
    (r.1, r.2.isSome)

theorem file_iff_isDir {t : FileTree α} {p : Path} (content : α) (h : ¬ t.IsDir p) :
    Node.file content = .dir ↔ t.IsDir p :=
  iff_of_false (by simp) h

/-- Storing a regular file under a text, in place of any other file. -/
def store (text : String) (content : α) : Option (FileSystem α) :=
  let n := (components text).getLast (components_ne_nil text)
  match fs.tree.walk (origin cwd text) (components text).dropLast with
  | none => none
  | some p =>
    if h : Plain n ∧ fs.tree.IsDir p ∧ ¬ fs.tree.IsDir (p ++ [n]) then
      some (fs.put p n (.file content) h.2.1 fun _ => file_iff_isDir content h.2.2)
    else none

/-- Creating a regular file under a text, or emptying the one that is there. A file of another kind
is left. -/
def creat (text : String) (empty : α) : Option (FileSystem α) :=
  match fs.stat cwd text with
  | some .other => some fs
  | _ => fs.store cwd text empty

/-! ## Mounts -/

/-- The stored place `s` can be seen at `p`: both are there, and both are directories or neither
is. -/
def CanMount (p s : Path) : Prop :=
  fs.tree.Exists p ∧ fs.stored.Exists s ∧ (fs.tree.IsDir p ↔ fs.stored.IsDir s)

instance (p s : Path) : Decidable (fs.CanMount p s) := inferInstanceAs (Decidable (_ ∧ _ ∧ _))

variable {fs} in
theorem CanMount.isDir {p s : Path} (h : fs.CanMount p s) (hp : p = []) : fs.stored.IsDir s :=
  h.2.2.1 (hp ▸ fs.tree.root)

/-- Mounting the stored place `s` on `p`. -/
def mount (p s : Path) (busy : Bool) (h : fs.CanMount p s) : FileSystem α where
  stored := fs.stored
  mounts := { target := p, source := s, busy } :: fs.mounts
  mounted := ⟨fs.mounted, h.1, h.2.1, h.isDir⟩
  touched := p :: fs.touched

/-- A mount at a place is changed in a way that is not modelled. -/
def touch (p : Path) : FileSystem α := { fs with touched := p :: fs.touched }

/-- Unmounting what is mounted at a place. -/
def umount (p : Path) : Option (FileSystem α) :=
  match h : Mount.unstack p fs.mounts with
  | none => none
  | some ms => some { fs with mounts := ms, mounted := fs.mounted.unstack h }

/-! ## Removing -/

/-- Removing what is seen at a place and below it. A mount point stays, and so does what leads to
it; what is seen there is removed. -/
def rmTree (p : Path) (hp : p ≠ []) : FileSystem α where
  stored := fs.stored.prune (Mount.Kept fs.mounts p) (Mount.kept_root hp)
    fun _ _ => Mount.Kept.of_concat
  mounts := fs.mounts
  mounted := by
    have hnode : ∀ a ∈ Mount.anchors fs.mounts,
        (fs.stored.prune (Mount.Kept fs.mounts p) (Mount.kept_root hp)
          fun _ _ => Mount.Kept.of_concat).node a = fs.stored.node a :=
      fun a ha => if_pos (.inr ⟨a, ha, List.prefix_rfl⟩)
    exact fs.mounted.mono (fun a ha h => (hnode a ha).trans_ne h) fun a ha h => (hnode a ha).trans h
  touched := p :: fs.touched

/-- Removing a file. A directory and a mount point are not removed. -/
def unlink (text : String) : Option (FileSystem α) :=
  match fs.lookup cwd text with
  | none => none
  | some p =>
    if h : fs.tree.IsDir p then none
    else
      let fs' := fs.rmTree p fun hp => h (hp ▸ fs.tree.root)
      if fs'.tree.Exists p then none else some fs'

/-- The last component of a text, trailing separators apart. -/
def lastComponent (text : String) : Name :=
  ((components text).reverse.dropWhile (· = [])).headD []

/-- A path that `rm` refuses. -/
def RmRefuses (text : String) : Prop :=
  lastComponent text = ['.'] ∨ lastComponent text = ['.', '.']

instance (text : String) : Decidable (RmRefuses text) := inferInstanceAs (Decidable (_ ∨ _))

/-- The command `rm -rf`, and whether it succeeds. A path that is missing is no error; the root and
a path that ends in `.` or `..` are refused. -/
def rmRf (text : String) : FileSystem α × Bool :=
  if RmRefuses text then (fs, false)
  else
    match fs.lookup cwd text with
    | none => (fs, true)
    | some p =>
      if hp : p = [] then (fs, false)
      else (fs.rmTree p hp, decide ¬ (fs.rmTree p hp).tree.Exists p)

/-! ## Looking things up -/

variable {fs cwd} {fs' fs₁ : FileSystem α} {text : String} {p q : Path}

theorem resolve_of_lookup (h : fs.lookup cwd text = some p) :
    resolve (origin cwd text) (components text) = p := by
  unfold lookup at h
  split_ifs at h
  exact FileTree.resolve_of_walk h

theorem exists_of_lookup (h : fs.lookup cwd text = some p) : fs.tree.Exists p := by
  unfold lookup at h
  split_ifs at h
  obtain ⟨n, ns, hns⟩ := List.exists_cons_of_ne_nil (components_ne_nil text)
  rw [hns, FileTree.walk_cons] at h
  obtain ⟨r, hr, hwalk⟩ := Option.bind_eq_some_iff.1 h
  exact FileTree.exists_of_walk hwalk (FileTree.enter_eq_some.1 hr).2.1

theorem lookup_grows (hg : fs.tree.Grows fs'.tree) (h : fs.lookup cwd text = some p) :
    fs'.lookup cwd text = some p := by
  unfold lookup at h ⊢
  split_ifs at h ⊢
  exact hg.walk h

/-! ## What is made -/

/-- What changes from `fs` to `fs'` is made at places with `P`. -/
structure Makes (P : Path → Prop) (fs fs' : FileSystem α) : Prop where
  mounts : fs'.mounts = fs.mounts
  grows : fs.stored.Grows fs'.stored
  stored : ∀ s, fs'.stored.node s ≠ fs.stored.node s → ∃ q, P q ∧ fs.real q = s
  touched : ∃ new, fs'.touched = new ++ fs.touched ∧ ∀ q ∈ new, P q

section
variable {P Q : Path → Prop}

theorem Makes.refl (fs : FileSystem α) : Makes P fs fs :=
  ⟨rfl, .refl _, fun _ hs => absurd rfl hs, [], rfl, by simp⟩

theorem Makes.real_eq (h : Makes P fs fs') (q : Path) : fs'.real q = fs.real q := by
  rw [real, real, h.mounts]

theorem Makes.trans (h : Makes P fs fs₁) (h' : Makes P fs₁ fs') : Makes P fs fs' where
  mounts := h'.mounts.trans h.mounts
  grows := h.grows.trans h'.grows
  stored s hs := by
    by_cases hsame : fs'.stored.node s = fs₁.stored.node s
    · exact h.stored s (hsame ▸ hs)
    · obtain ⟨q, hq, hreal⟩ := h'.stored s hsame
      exact ⟨q, hq, (h.real_eq q).symm.trans hreal⟩
  touched := by
    obtain ⟨new, hnew, hP⟩ := h.touched
    obtain ⟨new', hnew', hP'⟩ := h'.touched
    refine ⟨new' ++ new, by rw [hnew', hnew, List.append_assoc], fun q hq => ?_⟩
    exact (List.mem_append.1 hq).elim (hP' q) (hP q)

theorem Makes.mono (h : Makes P fs fs') (hPQ : ∀ q, P q → Q q) : Makes Q fs fs' where
  mounts := h.mounts
  grows := h.grows
  stored s hs := (h.stored s hs).imp fun q hq => ⟨hPQ q hq.1, hq.2⟩
  touched := h.touched.imp fun _ hnew => ⟨hnew.1, fun q hq => hPQ q (hnew.2 q hq)⟩

/-- What is seen grows with what is stored. -/
theorem grows_tree (hmounts : fs'.mounts = fs.mounts) (h : fs.stored.Grows fs'.stored) :
    fs.tree.Grows fs'.tree := by
  have hnode : ∀ q, fs'.tree.node q = fs'.stored.node (fs.real q) := by
    intro q
    rw [tree_node, real, hmounts]
    rfl
  refine ⟨fun {q} hq => ?_, fun {q} hq => ?_⟩
  · rw [FileTree.Exists, hnode]
    exact h.exists_of hq
  · rw [FileTree.IsDir, hnode]
    exact h.isDir_iff hq

theorem Makes.tree (h : Makes P fs fs') : fs.tree.Grows fs'.tree := grows_tree h.mounts h.grows

/-- What a text means is left as it was if nothing is made where it is stored. -/
theorem Makes.stat (h : Makes P fs fs') {k : Node α} (hstat : fs.stat cwd text = some k)
    (hP : ∀ q, P q → fs.real q ≠ fs.real (resolve (origin cwd text) (components text))) :
    fs'.stat cwd text = some k := by
  obtain ⟨p, hp, hk⟩ := Option.bind_eq_some_iff.1 hstat
  obtain rfl := resolve_of_lookup hp
  rw [FileSystem.stat, lookup_grows h.tree hp, Option.bind_some, tree_node, h.real_eq]
  refine Eq.trans ?_ hk
  by_contra hnew
  obtain ⟨q, hq, hreal⟩ := h.stored _ hnew
  exact hP q hq hreal

end

section
variable {n : Name} {k : Node α} {hp : fs.tree.IsDir p}
  {hk : fs.tree.Exists (p ++ [n]) → (k = .dir ↔ fs.tree.IsDir (p ++ [n]))}

theorem put_stored (s : Path) : (fs.put p n k hp hk).stored.node s =
    if s = fs.real (p ++ [n]) then some k else fs.stored.node s := rfl

/-- A new node is the only change. -/
theorem makes_put : Makes (· = p ++ [n]) fs (fs.put p n k hp hk) where
  mounts := rfl
  grows := @FileTree.grows_put _ _ _ _ (isDir_dropLast_real hp n) hk
  stored s hs := by
    refine ⟨p ++ [n], rfl, ?_⟩
    by_contra hne
    rw [put_stored, if_neg fun h => hne h.symm] at hs
    exact hs rfl
  touched := ⟨[p ++ [n]], rfl, by simp⟩

theorem put_node_self : (fs.put p n k hp hk).tree.node (p ++ [n]) = some k := if_pos rfl

end

theorem makes_touch : Makes (· = p) fs (fs.touch p) :=
  ⟨rfl, .refl _, fun _ hs => absurd rfl hs, [p], rfl, by simp⟩

/-! ## Making directories -/

section
variable {allowed : Path → Bool} {ns : List Name} {r : Option Path}

/-- The places at which the way `ns` from `p` enters a name. -/
def OnWay (p : Path) (ns : List Name) (q : Path) : Prop :=
  ∃ ms n, ms ++ [n] <+: ns ∧ Plain n ∧ q = resolve p ms ++ [n]

theorem OnWay.cons {n : Name} (h : OnWay (lexStep p n) ns q) : OnWay p (n :: ns) q := by
  obtain ⟨ms, m, hpre, hm, hq⟩ := h
  exact ⟨n :: ms, m, List.cons_prefix_cons.2 ⟨rfl, hpre⟩, hm, hq⟩

/-- A way that only leads down, but for its last step, stays below its start. -/
theorem OnWay.below (h : OnWay p ns q) (hup : ['.', '.'] ∉ ns.dropLast) : p <+: q := by
  obtain ⟨ms, m, ⟨rest, rfl⟩, -, rfl⟩ := h
  refine (prefix_resolve (fun hmem => hup ?_) p).trans (List.prefix_append _ _)
  rw [List.append_assoc, List.dropLast_append_of_ne_nil (by simp)]
  exact List.mem_append_left _ hmem

/-- Making directories makes missing places on the way. -/
theorem makes_mkdirsFrom (allowed : Path → Bool) (ns : List Name) (fs : FileSystem α) (p : Path) :
    Makes (fun q => ¬ fs.tree.Exists q ∧ OnWay p ns q) fs (mkdirsFrom allowed ns fs p).1 := by
  induction ns generalizing fs p with
  | nil => exact .refl fs
  | cons n ns ih =>
    rw [mkdirsFrom]
    split_ifs with hp hdir hnew
    · exact (ih fs (lexStep p n)).mono fun q hq => ⟨hq.1, hq.2.cons⟩
    · have hplain := FileTree.plain_of_not_isDir_lexStep hp hdir
      have hput : Makes (· = p ++ [n]) fs
          (fs.put p n .dir hp fun hex => absurd hex hnew.1) := makes_put
      refine (hput.mono ?_).trans ((ih _ (p ++ [n])).mono ?_)
      · rintro q rfl
        exact ⟨hnew.1, [], n, List.prefix_append _ _, hplain, rfl⟩
      · rintro q ⟨hq, hway⟩
        rw [← lexStep_plain hplain] at hway
        exact ⟨fun hex => hq (hput.tree.exists_of hex), hway.cons⟩
    · exact .refl fs
    · exact .refl fs

/-- A way that leads to a directory is left as it is. -/
theorem mkdirsFrom_of_walk (h : fs.tree.walk p ns = some q) (hq : fs.tree.IsDir q) :
    mkdirsFrom allowed ns fs p = (fs, some q) := by
  induction ns generalizing p with
  | nil => rw [mkdirsFrom, Option.some.inj h]
  | cons n ns ih =>
    obtain ⟨r, hr, hwalk⟩ := Option.bind_eq_some_iff.1 h
    obtain ⟨hp, -, rfl⟩ := FileTree.enter_eq_some.1 hr
    obtain ⟨_, hx, hdir⟩ := FileTree.isDir_of_walk_append ((List.nil_append ns).symm ▸ hwalk) hq
    rw [← Option.some.inj hx] at hdir
    rw [mkdirsFrom, dif_pos hp, if_pos hdir]
    exact ih hwalk

/-- A way is made in two parts. -/
theorem mkdirsFrom_append {ms : List Name} (h : mkdirsFrom allowed ms fs p = (fs', some q)) :
    mkdirsFrom allowed (ms ++ ns) fs p = mkdirsFrom allowed ns fs' q := by
  induction ms generalizing fs p with
  | nil =>
    obtain ⟨rfl, hpq⟩ := Prod.mk.inj h
    rw [Option.some.inj hpq, List.nil_append]
  | cons m ms ih =>
    rw [mkdirsFrom] at h
    rw [List.cons_append, mkdirsFrom]
    split_ifs at h ⊢
    · exact ih h
    · exact ih h
    · cases h
    · cases h

/-- Making directories from the first one that is missing: what is made is it or lies below it. -/
theorem makes_from {us rest : List Name} {n : Name} {u : Path} (hwalk : fs.tree.walk p us = some u)
    (hu : fs.tree.IsDir u) (hn : ¬ fs.tree.IsDir (lexStep u n)) (hup : ['.', '.'] ∉ rest.dropLast) :
    Makes (u ++ [n] <+: ·) fs (mkdirsFrom allowed (us ++ n :: rest) fs p).1 := by
  have hplain := FileTree.plain_of_not_isDir_lexStep hu hn
  rw [mkdirsFrom_append (mkdirsFrom_of_walk hwalk hu), mkdirsFrom, dif_pos hu, if_neg hn]
  split_ifs
  · refine (makes_put.mono ?_).trans ((makes_mkdirsFrom _ rest _ _).mono fun q hq =>
      hq.2.below hup)
    rintro q rfl
    exact List.prefix_rfl
  · exact .refl fs

/-- When it succeeds, the first directory was not there. -/
theorem missing_of_mkdirsFrom {us rest : List Name} {n : Name} {u : Path}
    (hwalk : fs.tree.walk p us = some u) (hu : fs.tree.IsDir u) (hn : ¬ fs.tree.IsDir (lexStep u n))
    (h : (mkdirsFrom allowed (us ++ n :: rest) fs p).2.isSome) : ¬ fs.tree.Exists (u ++ [n]) := by
  rw [mkdirsFrom_append (mkdirsFrom_of_walk hwalk hu), mkdirsFrom, dif_pos hu, if_neg hn] at h
  split_ifs at h with hnew
  · exact hnew.1
  · cases h

/-- The part `ms` of a way from `p` leads to a missing place, and no part before it leads to the
same stored place. -/
def Lacks (fs : FileSystem α) (p : Path) (ms : List Name) : Prop :=
  ¬ fs.tree.Exists (resolve p ms) ∧
    ∀ ms' ∈ ms.inits, ms' ≠ ms → fs.real (resolve p ms') ≠ fs.real (resolve p ms)

instance (fs : FileSystem α) (p : Path) (ms : List Name) : Decidable (Lacks fs p ms) :=
  haveI : Decidable (∀ ms' ∈ ms.inits, ms' ≠ ms →
      fs.real (resolve p ms') ≠ fs.real (resolve p ms)) := List.decidableBAll _ _
  inferInstanceAs (Decidable (_ ∧ _))

/-- A way from an existing place lacks what it lacks behind its first step. -/
theorem Lacks.cons {n : Name} {ms : List Name} (hp : fs.tree.Exists p)
    (h : Lacks fs (lexStep p n) ms) : Lacks fs p (n :: ms) := by
  refine ⟨h.1, fun ms' hms' hne hreal => ?_⟩
  obtain rfl | ⟨t, rfl, ht⟩ := List.prefix_cons_iff.1 ((List.mem_inits _ _).1 hms')
  · refine h.1 ?_
    rw [FileTree.Exists, tree_node, ← resolve_cons, ← hreal]
    exact hp
  · exact h.2 t ((List.mem_inits _ _).2 ht) (fun heq => hne (heq ▸ rfl)) hreal

theorem Lacks.of_cons {n : Name} {ms : List Name} (h : Lacks fs p (n :: ms)) :
    Lacks fs (lexStep p n) ms := by
  refine ⟨h.1, fun ms' hms' hne => h.2 (n :: ms') ?_ fun heq => hne (List.cons.inj heq).2⟩
  exact (List.mem_inits _ _).2 (List.cons_prefix_cons.2 ⟨rfl, (List.mem_inits _ _).1 hms'⟩)

/-- What is made by making directories is what the way lacks; if all of them are made, everything
that it lacks is. -/
theorem touched_mkdirsFrom (allowed : Path → Bool) (ns : List Name) (hp : fs.tree.IsDir p) :
    ∃ new, (mkdirsFrom allowed ns fs p).1.touched = new ++ fs.touched ∧
      (∀ q ∈ new, ∃ ms, ms <+: ns ∧ Lacks fs p ms ∧ resolve p ms = q) ∧
      ((mkdirsFrom allowed ns fs p).2.isSome → ∀ ms, ms <+: ns → Lacks fs p ms →
        resolve p ms ∈ new) := by
  induction ns generalizing fs p with
  | nil =>
    refine ⟨[], rfl, by simp, fun _ ms hms hlacks => absurd hp.exists ?_⟩
    obtain rfl := List.prefix_nil.1 hms
    exact hlacks.1
  | cons n ns ih =>
    have hnil : ∀ ms, ms <+: n :: ns → Lacks fs p ms → ∃ ms', ms = n :: ms' ∧ ms' <+: ns := by
      intro ms hms hlacks
      obtain rfl | h := List.prefix_cons_iff.1 hms
      · exact absurd hp.exists hlacks.1
      · exact h
    rw [mkdirsFrom, dif_pos hp]
    split_ifs with hdir hnew
    · obtain ⟨new, hlog, hmade, hall⟩ := ih hdir
      refine ⟨new, hlog, fun q hq => ?_, fun hok ms hms hlacks => ?_⟩
      · obtain ⟨ms, hms, hlacks, hq⟩ := hmade q hq
        exact ⟨n :: ms, List.cons_prefix_cons.2 ⟨rfl, hms⟩, hlacks.cons hp.exists, hq⟩
      · obtain ⟨rest, rfl, hrest⟩ := hnil ms hms hlacks
        exact hall hok rest hrest hlacks.of_cons
    · have hstep := lexStep_plain (FileTree.plain_of_not_isDir_lexStep hp hdir) p
      have hput : Makes (· = p ++ [n]) fs
          (fs.put p n .dir hp fun hex => absurd hex hnew.1) := makes_put
      have hthere : (fs.put p n .dir hp fun hex => absurd hex hnew.1).tree.IsDir (p ++ [n]) :=
        put_node_self
      obtain ⟨new, hlog, hmade, hall⟩ := ih hthere
      refine ⟨new ++ [p ++ [n]], ?_, fun q hq => ?_, fun hok ms hms hlacks => ?_⟩
      · rw [hlog, List.append_assoc]
        rfl
      · obtain hq | hq := List.mem_append.1 hq
        · obtain ⟨ms, hms, hlacks, hq⟩ := hmade q hq
          refine ⟨n :: ms, List.cons_prefix_cons.2 ⟨rfl, hms⟩, Lacks.cons hp.exists ?_, ?_⟩
          · rw [hstep]
            exact ⟨fun hex => hlacks.1 (hput.tree.exists_of hex), hlacks.2⟩
          · rw [resolve_cons, hstep, hq]
        · obtain rfl := List.mem_singleton.1 hq
          refine ⟨[n], List.cons_prefix_cons.2 ⟨rfl, List.nil_prefix⟩,
            Lacks.cons hp.exists ⟨?_, by simp⟩, ?_⟩
          · rw [hstep, resolve_nil]
            exact hnew.1
          · rw [resolve_cons, hstep, resolve_nil]
      · obtain ⟨rest, rfl, hrest⟩ := hnil ms hms hlacks
        rw [resolve_cons, hstep]
        by_cases hend : rest = []
        · rw [hend, resolve_nil]
          exact List.mem_append_right _ List.mem_cons_self
        · -- the new directory is not what is lacking further down
          refine List.mem_append_left _ (hall hok rest hrest ?_)
          have hbehind := hlacks.of_cons
          rw [hstep] at hbehind
          refine ⟨fun hex => hbehind.1 ?_, hbehind.2⟩
          have hne := hbehind.2 [] ((List.mem_inits _ _).2 List.nil_prefix) fun h => hend h.symm
          have hnode : (fs.put p n .dir hp fun hex => absurd hex hnew.1).tree.node
              (resolve (p ++ [n]) rest) = fs.tree.node (resolve (p ++ [n]) rest) :=
            if_neg fun h => hne h.symm
          rwa [FileTree.Exists, hnode] at hex
    · exact ⟨[], rfl, by simp, fun hok => by cases hok⟩

/-- `mkdir -p` makes what was missing on the way. -/
theorem makes_mkdirs (allowed : Path → Bool) (text : String) :
    Makes (fun q => ¬ fs.tree.Exists q ∧ OnWay (origin cwd text) (components text) q) fs
      (fs.mkdirs cwd allowed text).1 := by
  unfold mkdirs
  split_ifs
  · exact .refl fs
  · exact makes_mkdirsFrom _ _ _ _

@[simp] theorem mkdirs_mounts (allowed : Path → Bool) (text : String) :
    (fs.mkdirs cwd allowed text).1.mounts = fs.mounts :=
  (makes_mkdirs allowed text).mounts

theorem grows_mkdirs (allowed : Path → Bool) (text : String) :
    fs.tree.Grows (fs.mkdirs cwd allowed text).1.tree :=
  (makes_mkdirs allowed text).tree

/-- Directories that are all there are left as they are. -/
theorem mkdirs_of_isDir (allowed : Path → Bool) (h : fs.IsDir cwd text) :
    fs.mkdirs cwd allowed text = (fs, true) := by
  obtain ⟨p, hp, hdir⟩ := h
  have htext : text ≠ "" := by
    rintro rfl
    cases hp
  rw [Option.mem_def, lookup, if_neg htext] at hp
  rw [mkdirs, if_neg htext, mkdirsFrom_of_walk hp hdir]
  rfl

end

/-! ## Storing files -/

/-- Storing a file makes the place that its text means, and no directory. -/
theorem store_spec {content : α} (h : fs.store cwd text content = some fs') :
    Makes (· = resolve (origin cwd text) (components text)) fs fs' ∧
      ∀ s, fs'.stored.IsDir s → fs.stored.IsDir s := by
  unfold store at h
  dsimp only at h
  split at h
  · cases h
  · rename_i p hwalk
    split_ifs at h with hc
    obtain rfl := Option.some.inj h
    refine ⟨makes_put.mono fun q hq => ?_, fun s hs => ?_⟩
    · have hplace := congrArg (resolve (origin cwd text))
        (List.dropLast_append_getLast (components_ne_nil text))
      rw [resolve_append, FileTree.resolve_of_walk hwalk, resolve_cons, lexStep_plain hc.1,
        resolve_nil] at hplace
      exact hq.trans hplace
    · rw [FileTree.IsDir, put_stored] at hs
      split_ifs at hs
      · cases hs
      · exact hs

/-- A write is logged at its place. -/
theorem store_touched {content : α} (h : fs.store cwd text content = some fs') :
    fs'.touched = resolve (origin cwd text) (components text) :: fs.touched := by
  obtain ⟨hmakes, -⟩ := store_spec h
  unfold store at h
  dsimp only at h
  split at h
  · cases h
  · split_ifs at h
    obtain rfl := Option.some.inj h
    obtain ⟨new, hnew, hplace⟩ := hmakes.touched
    cases new with
    | nil => exact absurd hnew (List.cons_ne_self _ _)
    | cons q new =>
      obtain ⟨rfl, hrest⟩ := List.cons.inj hnew
      exact congrArg (· :: fs.touched) (hplace _ List.mem_cons_self)

/-- A file can be stored in place of another one. -/
theorem exists_store {old : α} (h : fs.stat cwd text = some (.file old)) (content : α) :
    ∃ fs', fs.store cwd text content = some fs' := by
  obtain ⟨q, hlook, hq⟩ := Option.bind_eq_some_iff.1 h
  unfold lookup at hlook
  split_ifs at hlook
  rw [← List.dropLast_append_getLast (components_ne_nil text), FileTree.walk_append] at hlook
  obtain ⟨p, hp, hlast⟩ := Option.bind_eq_some_iff.1 hlook
  rw [FileTree.walk_cons] at hlast
  obtain ⟨r, hr, hrq⟩ := Option.bind_eq_some_iff.1 hlast
  obtain rfl := Option.some.inj hrq
  obtain ⟨hdir, -, rfl⟩ := FileTree.enter_eq_some.1 hr
  have hfile : ¬ fs.tree.IsDir (lexStep p ((components text).getLast (components_ne_nil text))) :=
    fun hd => nomatch hd.symm.trans hq
  have hplain := FileTree.plain_of_not_isDir_lexStep hdir hfile
  rw [lexStep_plain hplain] at hfile
  unfold store
  dsimp only
  rw [hp]
  dsimp only
  rw [dif_pos ⟨hplain, hdir, hfile⟩]
  exact ⟨_, rfl⟩

/-- A created file is the only change. -/
theorem creat_spec {empty : α} (h : fs.creat cwd text empty = some fs') :
    Makes (· = resolve (origin cwd text) (components text)) fs fs' ∧
      ∀ s, fs'.stored.IsDir s → fs.stored.IsDir s := by
  unfold creat at h
  split at h
  · obtain rfl := Option.some.inj h
    exact ⟨.refl _, fun _ hs => hs⟩
  · exact store_spec h

/-! ## Unmounting -/

/-- A umount only takes a mount away. -/
theorem umount_eq_some (h : fs.umount p = some fs') : Mount.unstack p fs.mounts = some fs'.mounts ∧
    fs'.stored = fs.stored ∧ fs'.touched = fs.touched := by
  unfold umount at h
  split at h
  · cases h
  · rename_i ms hms
    obtain rfl := Option.some.inj h
    exact ⟨hms, rfl, rfl⟩

/-- A umount undoes the last mount at its place. -/
theorem exists_umount {ms : List Mount} (h : Mount.unstack p fs.mounts = some ms) :
    ∃ fs', fs.umount p = some fs' ∧ fs'.mounts = ms ∧ fs'.stored = fs.stored := by
  unfold umount
  split
  · rename_i hnone
    cases hnone.symm.trans h
  · rename_i ms' hms'
    obtain rfl := Option.some.inj (hms'.symm.trans h)
    exact ⟨_, rfl, rfl, rfl⟩

/-! ## Removing -/

theorem rmTree_stored (hp : p ≠ []) (s : Path) : (fs.rmTree p hp).stored.node s =
    if Mount.Kept fs.mounts p s then fs.stored.node s else none := rfl

/-- What was missing under the same table before something was made there is removed as a whole,
and nothing else is. -/
theorem rmTree_of_missing {t : FileTree α} (hp : p ≠ []) (ht : Mounted t fs.mounts)
    (hmissing : ¬ t.Exists (fs.real p)) (s : Path) : (fs.rmTree p hp).stored.node s =
      if fs.real p <+: s then none else fs.stored.node s := by
  rw [rmTree_stored, real]
  by_cases hs : Mount.real fs.mounts p <+: s
  · rw [if_pos hs, if_neg fun hkept => (ht.kept_iff hmissing).1 hkept hs]
  · rw [if_neg hs, if_pos ((ht.kept_iff hmissing).2 hs)]

/-- Nothing is seen at `q` of what is seen at `p` or below. -/
theorem rmTree_node_of_unseen (hp : p ≠ []) (hq : ∀ x, p <+: x → fs.real x ≠ fs.real q) :
    (fs.rmTree p hp).tree.node q = fs.tree.node q :=
  if_pos (.inl fun x hx hpx => hq x hpx (Mount.mem_seenAt.1 hx))

/-- What is left was there before. -/
theorem grows_of_rmTree (hp : p ≠ []) : (fs.rmTree p hp).tree.Grows fs.tree := by
  refine grows_tree rfl ⟨fun {s} hs => ?_, fun {s} hs => ?_⟩
  · rw [FileTree.Exists, rmTree_stored] at hs
    split_ifs at hs
    · exact hs
    · exact absurd rfl hs
  · rw [FileTree.Exists, rmTree_stored] at hs
    rw [FileTree.IsDir, FileTree.IsDir, rmTree_stored]
    split_ifs at hs ⊢
    · exact Iff.rfl
    · exact absurd rfl hs

/-- What `rm -rf` can do: nothing, or remove the place that its text means. -/
theorem rmRf_cases (fs : FileSystem α) (cwd : Path) (text : String) :
    (∃ ok, fs.rmRf cwd text = (fs, ok) ∧ (ok = true → fs.lookup cwd text = none)) ∨
    ∃ p hp, fs.lookup cwd text = some p ∧
      fs.rmRf cwd text = (fs.rmTree p hp, decide ¬ (fs.rmTree p hp).tree.Exists p) := by
  unfold rmRf
  split_ifs
  · exact .inl ⟨false, rfl, Bool.noConfusion⟩
  · cases h : fs.lookup cwd text with
    | none => exact .inl ⟨true, rfl, fun _ => rfl⟩
    | some p =>
      dsimp only
      split_ifs with hp
      · exact .inl ⟨false, rfl, Bool.noConfusion⟩
      · exact .inr ⟨p, hp, rfl, rfl⟩

theorem rmRf_mounts (fs : FileSystem α) (cwd : Path) (text : String) :
    (fs.rmRf cwd text).1.mounts = fs.mounts := by
  obtain ⟨ok, h, -⟩ | ⟨p, hp, -, h⟩ := fs.rmRf_cases cwd text
  · rw [h]
  · rw [h]
    rfl

/-- After an `rm -rf` that succeeds there is nothing under its text. -/
theorem lookup_of_rmRf (h : (fs.rmRf cwd text).2 = true) :
    (fs.rmRf cwd text).1.lookup cwd text = none := by
  obtain ⟨ok, hrm, hmissing⟩ | ⟨p, hp, hlook, hrm⟩ := fs.rmRf_cases cwd text
  · rw [hrm] at h ⊢
    exact hmissing h
  · rw [hrm] at h ⊢
    have hgone : ¬ (fs.rmTree p hp).tree.Exists p := of_decide_eq_true h
    rw [Option.eq_none_iff_forall_ne_some]
    intro q hq
    -- a way that is left was there before, and it led to `p`
    have hpq := lookup_grows (grows_of_rmTree hp) hq
    rw [hlook] at hpq
    obtain rfl := Option.some.inj hpq
    exact hgone (exists_of_lookup hq)

end FileSystem

end CcOciRuntime
