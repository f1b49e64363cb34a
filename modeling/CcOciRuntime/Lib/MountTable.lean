import CcOciRuntime.Lib.FileTree

/-!
# Mount tables

What is mounted over a tree, newest first. A mount covers a place and shows a stored place there,
with all that is stored below it, as a bind mount does; a file system of its own counts as one that
is stored at a place to which no text leads. `real` says which stored place is seen at a place, and
`view` is the tree that is seen. What lies below a mount point is hidden, and one stored place can
be seen at several places.

A mount can be undone when it is the one that is seen at its place and none lies beneath it
(`unstack`).
-/

namespace CcOciRuntime

/-- A mount: the place that it covers, the stored place that is seen there, and whether mounts
beneath the source have come with it. -/
structure Mount where
  target : Path
  source : Path
  busy : Bool := false
  deriving DecidableEq

namespace Mount

/-- A mount that shows what is stored at its own place. -/
def self (p : Path) : Mount := { target := p, source := p }

/-- The stored place that is seen at `p`. The newest mount at `p` or above it decides. -/
def real : List Mount → Path → Path
  | [], p => p
  | m :: ms, p => if m.target <+: p then m.source ++ p.drop m.target.length else real ms p

/-- The stored places that are covered or shown. -/
def anchors : List Mount → List Path
  | [] => []
  | m :: ms => real ms m.target :: m.source :: anchors ms

/-- Every mount of the table lies on something that is seen without it and shows something. -/
def Mounted {α : Type*} (t : FileTree α) : List Mount → Prop
  | [] => True
  | m :: ms => Mounted t ms ∧ t.Exists (real ms m.target) ∧ t.Exists m.source ∧
    (m.target = [] → t.IsDir m.source)

section
variable {α : Type*} {t t' : FileTree α} {m : Mount} {ms es : List Mount} {p q : Path} {n : Name}

theorem real_of_below (h : m.target <+: p) :
    real (m :: ms) p = m.source ++ p.drop m.target.length := if_pos h

theorem real_of_apart (h : ¬ m.target <+: p) : real (m :: ms) p = real ms p := if_neg h

theorem real_target : real (m :: ms) m.target = m.source := by
  rw [real_of_below List.prefix_rfl, List.drop_length, List.append_nil]

/-- Mounts elsewhere do not count. -/
theorem real_append (h : ∀ e ∈ es, ¬ e.target <+: p) : real (es ++ ms) p = real ms p := by
  induction es with
  | nil => rfl
  | cons e es ih =>
    rw [List.cons_append, real_of_apart (h e List.mem_cons_self)]
    exact ih fun e' he' => h e' (List.mem_cons_of_mem _ he')

/-- One step down is one step down in what is stored, too, unless it leads to a mount point. -/
theorem real_concat (ms : List Mount) (p : Path) (n : Name) :
    real ms (p ++ [n]) = real ms p ++ [n] ∨
      real ms p ++ [n] ∈ anchors ms ∧ real ms (p ++ [n]) ∈ anchors ms := by
  induction ms with
  | nil => exact .inl rfl
  | cons m ms ih =>
    by_cases hp : m.target <+: p
    · rw [real_of_below hp, real_of_below (hp.trans (List.prefix_append _ _)),
        List.drop_append_of_le_length hp.length_le, List.append_assoc]
      exact .inl rfl
    · rw [real_of_apart hp]
      by_cases hn : m.target <+: p ++ [n]
      · obtain heq | hpre := List.prefix_concat_iff.1 hn
        · rw [← heq, real_target]
          refine .inr ⟨?_, List.mem_cons_of_mem _ List.mem_cons_self⟩
          obtain hsame | ⟨hmem, -⟩ := ih
          · rw [anchors, heq, ← hsame]
            exact List.mem_cons_self
          · exact List.mem_cons_of_mem _ (List.mem_cons_of_mem _ hmem)
        · exact absurd hpre hp
      · rw [real_of_apart hn]
        refine ih.imp_right fun ⟨h, h'⟩ => ?_
        exact ⟨List.mem_cons_of_mem _ (List.mem_cons_of_mem _ h),
          List.mem_cons_of_mem _ (List.mem_cons_of_mem _ h')⟩

/-- What is seen is stored where it is seen, or some mount shows it. -/
theorem real_cases (ms : List Mount) (q : Path) : real ms q = q ∨
    ∃ m ∈ ms, m.target <+: q ∧ real ms q = m.source ++ q.drop m.target.length := by
  induction ms with
  | nil => exact .inl rfl
  | cons m ms ih =>
    by_cases h : m.target <+: q
    · exact .inr ⟨m, List.mem_cons_self, h, real_of_below h⟩
    · rw [real_of_apart h]
      exact ih.imp_right fun ⟨m', hm', h'⟩ => ⟨m', List.mem_cons_of_mem _ hm', h'⟩

theorem source_mem_anchors (h : m ∈ ms) : m.source ∈ anchors ms := by
  induction ms with
  | nil => cases h
  | cons m' ms ih =>
    obtain rfl | h := List.mem_cons.1 h
    · exact List.mem_cons_of_mem _ List.mem_cons_self
    · exact List.mem_cons_of_mem _ (List.mem_cons_of_mem _ (ih h))

/-- Under such mounts all is seen where it is stored. -/
theorem real_self (ps : List Path) (q : Path) : real (ps.map self) q = q := by
  induction ps with
  | nil => rfl
  | cons p ps ih =>
    rw [List.map_cons, real]
    split_ifs with h
    · exact List.prefix_iff_eq_append.1 h
    · exact ih

/-! ## What is seen -/

/-- A table stays in order as long as what it covers and shows stays. -/
theorem Mounted.mono (h : Mounted t ms) (hex : ∀ a ∈ anchors ms, t.Exists a → t'.Exists a)
    (hdir : ∀ a ∈ anchors ms, t.IsDir a → t'.IsDir a) : Mounted t' ms := by
  induction ms with
  | nil => trivial
  | cons m ms ih =>
    obtain ⟨hms, htarget, hsource, hroot⟩ := h
    have hsub : ∀ a ∈ anchors ms, a ∈ anchors (m :: ms) := fun a ha =>
      List.mem_cons_of_mem _ (List.mem_cons_of_mem _ ha)
    have hmem : m.source ∈ anchors (m :: ms) := List.mem_cons_of_mem _ List.mem_cons_self
    exact ⟨ih hms (fun a ha => hex a (hsub a ha)) fun a ha => hdir a (hsub a ha),
      hex _ List.mem_cons_self htarget, hex _ hmem hsource, fun h => hdir _ hmem (hroot h)⟩

/-- Existing places can be mounted on themselves. -/
theorem mounted_self {ps : List Path} (h : ∀ p ∈ ps, t.Exists p) : Mounted t (ps.map self) := by
  induction ps with
  | nil => trivial
  | cons p ps ih =>
    refine ⟨ih fun q hq => h q (List.mem_cons_of_mem _ hq), ?_, h p List.mem_cons_self, ?_⟩
    · rw [real_self]
      exact h p List.mem_cons_self
    · rintro rfl
      exact t.root

theorem Mounted.grows (h : Mounted t ms) (hg : t.Grows t') : Mounted t' ms :=
  h.mono (fun _ _ => hg.exists_of) fun _ _ => hg.isDir_of

/-- Every end of a mount is there. -/
theorem Mounted.exists_of_mem_anchors (h : Mounted t ms) {a : Path} (ha : a ∈ anchors ms) :
    t.Exists a := by
  induction ms with
  | nil => cases ha
  | cons m ms ih =>
    obtain ⟨hms, htarget, hsource, -⟩ := h
    rcases List.mem_cons.1 ha with rfl | ha
    · exact htarget
    · rcases List.mem_cons.1 ha with rfl | ha
      · exact hsource
      · exact ih hms ha

/-- The root is seen as a directory. -/
theorem Mounted.root (h : Mounted t ms) : t.IsDir (real ms []) := by
  induction ms with
  | nil => exact t.root
  | cons m ms ih =>
    obtain ⟨hms, -, -, hroot⟩ := h
    by_cases hm : m.target <+: []
    · rw [real_of_below hm, List.drop_nil, List.append_nil]
      exact hroot (List.prefix_nil.1 hm)
    · rw [real_of_apart hm]
      exact ih hms

/-- What is seen lies in what is seen as a directory. -/
theorem Mounted.parent (h : Mounted t ms) (hn : t.Exists (real ms (p ++ [n]))) :
    t.IsDir (real ms p) := by
  induction ms with
  | nil => exact t.parent p n hn
  | cons m ms ih =>
    obtain ⟨hms, htarget, -, -⟩ := h
    by_cases hp : m.target <+: p
    · rw [real_of_below (hp.trans (List.prefix_append _ _)),
        List.drop_append_of_le_length hp.length_le, ← List.append_assoc] at hn
      rw [real_of_below hp]
      exact t.parent _ n hn
    · rw [real_of_apart hp]
      by_cases hpn : m.target <+: p ++ [n]
      · -- the place is the mount point, and what it covers was seen there
        obtain heq | hpre := List.prefix_concat_iff.1 hpn
        · exact ih hms (heq ▸ htarget)
        · exact absurd hpre hp
      · rw [real_of_apart hpn] at hn
        exact ih hms hn

/-- The tree that is seen. -/
def view (t : FileTree α) (ms : List Mount) (h : Mounted t ms) : FileTree α where
  node p := t.node (real ms p)
  root := h.root
  parent _ _ := h.parent

/-- Below a place at which nothing is seen, what is stored lies below what is stored for it. -/
theorem Mounted.real_of_missing (h : Mounted t ms) (hp : ¬ t.Exists (real ms p)) (ns : Path) :
    real ms (p ++ ns) = real ms p ++ ns := by
  induction ms with
  | nil => rfl
  | cons m ms ih =>
    obtain ⟨hms, htarget, -, -⟩ := h
    by_cases hm : m.target <+: p
    · rw [real_of_below hm, real_of_below (hm.trans (List.prefix_append _ _)),
        List.drop_append_of_le_length hm.length_le, List.append_assoc]
    · rw [real_of_apart hm] at hp ⊢
      have hns : ¬ m.target <+: p ++ ns := by
        intro hns
        obtain hpre | hpre := List.prefix_or_prefix_of_prefix hns (List.prefix_append p ns)
        · exact hm hpre
        · exact hp (FileTree.exists_of_prefix (t := view t ms hms) htarget hpre)
      rw [real_of_apart hns]
      exact ih hms hp

/-! ## Where a stored place is seen -/

/-- The places at which the stored place `s` is seen. -/
def seenAt (ms : List Mount) (s : Path) : List Path :=
  (s :: ms.map fun m => m.target ++ s.drop m.source.length).filter fun q => real ms q = s

theorem mem_seenAt {s : Path} : q ∈ seenAt ms s ↔ real ms q = s := by
  rw [seenAt, List.mem_filter, decide_eq_true_iff]
  refine ⟨And.right, fun h => ⟨?_, h⟩⟩
  obtain hq | ⟨m, hm, ⟨ns, rfl⟩, hq⟩ := real_cases ms q
  · rw [← h, hq]
    exact List.mem_cons_self
  · rw [List.drop_left] at hq
    refine List.mem_cons_of_mem _ (List.mem_map.2 ⟨m, hm, ?_⟩)
    rw [← h, hq, List.drop_left]

/-- The removal of what is seen at `p` and below keeps the stored place `s`: it is not seen there,
or it leads to a mount point or to what a mount shows. -/
def Kept (ms : List Mount) (p s : Path) : Prop :=
  (∀ q ∈ seenAt ms s, ¬ p <+: q) ∨ ∃ a ∈ anchors ms, s <+: a

instance (ms : List Mount) (p s : Path) : Decidable (Kept ms p s) :=
  haveI : Decidable (∀ q ∈ seenAt ms s, ¬ p <+: q) := List.decidableBAll _ _
  inferInstanceAs (Decidable (_ ∨ _))

theorem kept_root (hp : p ≠ []) : Kept ms p [] := by
  by_cases h : ∃ m ∈ ms, m.source = []
  · obtain ⟨m, hm, hsource⟩ := h
    exact .inr ⟨m.source, source_mem_anchors hm, hsource ▸ List.nil_prefix⟩
  · refine .inl fun q hq hpq => ?_
    obtain hreal | ⟨m, hm, -, hreal⟩ := real_cases ms q
    · rw [mem_seenAt.1 hq] at hreal
      rw [← hreal] at hpq
      exact hp (List.prefix_nil.1 hpq)
    · rw [mem_seenAt.1 hq] at hreal
      exact h ⟨m, hm, (List.append_eq_nil_iff.1 hreal.symm).1⟩

/-- What lies above a kept place is kept. -/
theorem Kept.of_concat {s : Path} (h : Kept ms p (s ++ [n])) : Kept ms p s := by
  obtain hseen | ⟨a, ha, hpre⟩ := h
  · by_cases hanchor : s ++ [n] ∈ anchors ms
    · exact .inr ⟨_, hanchor, List.prefix_append _ _⟩
    · refine .inl fun q hq hpq => hseen (q ++ [n]) (mem_seenAt.2 ?_)
        (hpq.trans (List.prefix_append _ _))
      rw [mem_seenAt] at hq
      obtain hstep | ⟨hmem, -⟩ := real_concat ms q n
      · rw [hstep, hq]
      · exact absurd (hq ▸ hmem) hanchor
  · exact .inr ⟨a, ha, (List.prefix_append _ _).trans hpre⟩

/-- Where nothing was seen at `p` under the same table, all that is stored for it is removed. -/
theorem Mounted.kept_iff (h : Mounted t ms) (hp : ¬ t.Exists (real ms p)) {s : Path} :
    Kept ms p s ↔ ¬ real ms p <+: s := by
  constructor
  · rintro (hseen | ⟨a, ha, hpre⟩) ⟨ns, rfl⟩
    · exact hseen (p ++ ns) (mem_seenAt.2 (h.real_of_missing hp ns)) (List.prefix_append _ _)
    · exact hp (FileTree.exists_of_prefix (h.exists_of_mem_anchors ha)
        ((List.prefix_append _ _).trans hpre))
  · refine fun hs => .inl fun q hq ⟨ns, hns⟩ => hs ?_
    rw [← mem_seenAt.1 hq, ← hns, h.real_of_missing hp]
    exact List.prefix_append _ _

/-! ## Unmounting -/

/-- The table without the mount that is seen at `p`, if there is one and no mount lies beneath it.
Older mounts below `p` are hidden and do not count. -/
def unstack (p : Path) : List Mount → Option (List Mount)
  | [] => none
  | m :: ms =>
    if m.target = p then if m.busy then none else some ms
    else if m.target <+: p ∨ p <+: m.target then none
    else (unstack p ms).map (m :: ·)

/-- Whether a mount lies beneath what is seen at `p`. -/
def beneath (p : Path) : List Mount → Bool
  | [] => false
  | m :: ms => if m.target <+: p then false else if p <+: m.target then true else beneath p ms

variable {ms' : List Mount}

/-- Unmounting changes nothing elsewhere. -/
theorem real_unstack (h : unstack p ms = some ms') (hq : ¬ p <+: q) :
    real ms' q = real ms q := by
  induction ms generalizing ms' with
  | nil => cases h
  | cons m ms ih =>
    rw [unstack] at h
    split_ifs at h with heq
    · obtain rfl := Option.some.inj h
      rw [real_of_apart (heq ▸ hq)]
    · obtain ⟨ms₁, hms₁, rfl⟩ := Option.map_eq_some_iff.1 h
      rw [real, real, ih hms₁]

/-- A table without one of its mounts. -/
theorem Mounted.unstack (h : Mounted t ms) (hun : Mount.unstack p ms = some ms') :
    Mounted t ms' := by
  induction ms generalizing ms' with
  | nil => cases hun
  | cons m ms ih =>
    obtain ⟨hms, htarget, hsource, hroot⟩ := h
    rw [Mount.unstack] at hun
    split_ifs at hun with heq hbusy hrel
    · exact Option.some.inj hun ▸ hms
    · obtain ⟨ms₁, hms₁, rfl⟩ := Option.map_eq_some_iff.1 hun
      refine ⟨ih hms hms₁, ?_, hsource, hroot⟩
      rwa [real_unstack hms₁ fun hpre => hrel (.inr hpre)]

theorem length_unstack (h : unstack p ms = some ms') : ms'.length + 1 = ms.length := by
  induction ms generalizing ms' with
  | nil => cases h
  | cons m ms ih =>
    rw [unstack] at h
    split_ifs at h
    · obtain rfl := Option.some.inj h
      rfl
    · obtain ⟨ms₁, hms₁, rfl⟩ := Option.map_eq_some_iff.1 h
      exact congrArg (· + 1) (ih hms₁)

/-- Unmounting a place on which something of `es` is mounted, and to which no other place of `es` is
nested. -/
theorem unstack_append (hmem : p ∈ es.map target) (hes : ∀ e ∈ es, e.busy = false)
    (hnest : ∀ e ∈ es, Unnested e.target p) :
    ∃ es', unstack p (es ++ ms) = some (es' ++ ms) ∧
      es'.map target = (es.map target).erase p ∧ es' ⊆ es := by
  induction es with
  | nil => cases hmem
  | cons e es ih =>
    rw [List.cons_append, unstack]
    by_cases heq : e.target = p
    · rw [if_pos heq, if_neg (by simp [hes e List.mem_cons_self])]
      refine ⟨es, rfl, ?_, List.subset_cons_self _ _⟩
      rw [List.map_cons, heq, List.erase_cons_head]
    · obtain ⟨es', hun, herase, hsub⟩ := ih
        ((List.mem_cons.1 hmem).resolve_left fun h => heq h.symm)
        (fun e' he' => hes e' (List.mem_cons_of_mem _ he'))
        fun e' he' => hnest e' (List.mem_cons_of_mem _ he')
      have hrel : ¬ (e.target <+: p ∨ p <+: e.target) := by
        obtain ⟨h₁, h₂⟩ := hnest e List.mem_cons_self
        rintro (h | h)
        · exact h₁ ⟨h, heq⟩
        · exact h₂ ⟨h, fun h => heq h.symm⟩
      rw [if_neg heq, if_neg hrel, hun]
      refine ⟨e :: es', rfl, ?_, List.cons_subset_cons _ hsub⟩
      rw [List.map_cons, List.map_cons, herase, List.erase_cons_tail (by simpa using heq)]

/-- A mount that is undone although others were made after it, none of them at its place: they are
not nested with it. -/
theorem unnested_of_unstack {e : Mount} (hes : p ∉ es.map target) (he : e.target = p)
    (h : unstack p (es ++ e :: ms) = some ms') :
    (∀ e' ∈ es, Unnested e'.target p) ∧ e.busy = false ∧ ms' = es ++ ms := by
  induction es generalizing ms' with
  | nil =>
    rw [List.nil_append, unstack, if_pos he] at h
    split_ifs at h with hbusy
    exact ⟨by simp, Bool.not_eq_true _ ▸ hbusy, (Option.some.inj h).symm⟩
  | cons e' es ih =>
    have hne : e'.target ≠ p := fun h => hes (h ▸ List.mem_cons_self)
    rw [List.cons_append, unstack, if_neg hne] at h
    split_ifs at h with hrel
    obtain ⟨ms₁, hms₁, rfl⟩ := Option.map_eq_some_iff.1 h
    obtain ⟨hnest, hbusy, rfl⟩ := ih (fun hmem => hes (List.mem_cons_of_mem _ hmem)) hms₁
    refine ⟨fun x hx => ?_, hbusy, rfl⟩
    obtain rfl | hx := List.mem_cons.1 hx
    · exact ⟨fun h => hrel (.inl h.1), fun h => hrel (.inr h.1)⟩
    · exact hnest x hx

end

end Mount

end CcOciRuntime
