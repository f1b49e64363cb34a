import CcOciRuntime.Lib.Paths
import Mathlib.Data.List.Basic

/-!
# Trees of directories and files

A `FileTree` gives each place a node or none, and carries that the root is a directory and that
every node lies in a directory. There are no links, so following a text (`walk`) leads to its
lexical resolution or fails. A tree changes by storing a node in a directory (`put`) and by removing
a part of it (`prune`).
-/

namespace CcOciRuntime

/-- What is found at a place: a directory, a regular file, or another kind of file. -/
inductive Node (α : Type*)
  | dir
  | file (content : α)
  | other

/-- A tree of directories. -/
structure FileTree (α : Type*) where
  node : Path → Option (Node α)
  root : node [] = some .dir
  parent : ∀ p n, node (p ++ [n]) ≠ none → node p = some .dir

namespace FileTree

variable {α : Type*} (t t' : FileTree α)

/-- The tree that is only a root. -/
def bare : FileTree α where
  node p := if p = [] then some .dir else none
  root := rfl
  parent p n h := absurd (if_neg (by simp)) h

/-- There is a directory at `p`. -/
def IsDir (p : Path) : Prop := t.node p = some .dir

/-- There is a node at `p`. -/
def Exists (p : Path) : Prop := t.node p ≠ none

instance (p : Path) : Decidable (t.IsDir p) :=
  match h : t.node p with
  | some .dir => .isTrue h
  | some (.file _) => .isFalse (by simp [IsDir, h])
  | some .other => .isFalse (by simp [IsDir, h])
  | none => .isFalse (by simp [IsDir, h])

instance (p : Path) : Decidable (t.Exists p) :=
  match h : t.node p with
  | some _ => .isTrue (by simp [Exists, h])
  | none => .isFalse (by simp [Exists, h])

variable {t t'}

theorem IsDir.exists {p : Path} (h : t.IsDir p) : t.Exists p := by
  rw [Exists, h]
  exact Option.some_ne_none _

/-- What lies above a node is a directory. -/
theorem isDir_of_strictlyBelow {p q : Path} (hq : t.Exists q) (h : StrictlyBelow p q) :
    t.IsDir p := by
  obtain ⟨⟨ns, rfl⟩, hne⟩ := h
  induction ns using List.reverseRecOn with
  | nil => exact absurd (List.append_nil p).symm hne
  | append_singleton ns n ih =>
    rw [← List.append_assoc] at hq
    have hdir : t.IsDir (p ++ ns) := t.parent _ _ hq
    cases ns with
    | nil => rwa [List.append_nil] at hdir
    | cons m ms => exact ih hdir.exists (by simp)

theorem exists_of_prefix {p q : Path} (hq : t.Exists q) (h : p <+: q) : t.Exists p := by
  by_cases heq : p = q
  · exact heq ▸ hq
  · exact (isDir_of_strictlyBelow hq ⟨h, heq⟩).exists

theorem isDir_dropLast {p : Path} (h : t.Exists p) : t.IsDir p.dropLast := by
  induction p using List.reverseRecOn with
  | nil => exact t.root
  | append_singleton p n _ =>
    rw [List.dropLast_concat]
    exact t.parent p n h

/-- From a directory, a component that is no name leads to a directory. -/
theorem isDir_lexStep {p : Path} {n : Name} (h : t.IsDir p) (hn : ¬ Plain n) :
    t.IsDir (lexStep p n) := by
  unfold lexStep
  split_ifs with hstay hup
  · exact h
  · exact isDir_dropLast h.exists
  · exact absurd ⟨fun h => hstay (.inl h), fun h => hstay (.inr h), hup⟩ hn

theorem plain_of_not_isDir_lexStep {p : Path} {n : Name} (hp : t.IsDir p)
    (h : ¬ t.IsDir (lexStep p n)) : Plain n :=
  not_not.1 fun hn => h (isDir_lexStep hp hn)

/-! ## Following a text -/

/-- Following one component: what it is followed from must be a directory. -/
def enter (t : FileTree α) (p : Path) (n : Name) : Option Path :=
  if t.IsDir p ∧ t.Exists (lexStep p n) then some (lexStep p n) else none

/-- Following the components `ns` from `p`. -/
def walk (t : FileTree α) (p : Path) (ns : List Name) : Option Path := ns.foldlM t.enter p

@[simp] theorem walk_cons (p : Path) (n : Name) (ns : List Name) :
    t.walk p (n :: ns) = (t.enter p n).bind fun q => t.walk q ns := rfl

theorem walk_append (p : Path) (ms ns : List Name) :
    t.walk p (ms ++ ns) = (t.walk p ms).bind fun q => t.walk q ns := by
  rw [walk, List.foldlM_append]
  rfl

/-- When a name can be entered. -/
theorem enter_eq_some {p q : Path} {n : Name} :
    t.enter p n = some q ↔ t.IsDir p ∧ t.Exists q ∧ lexStep p n = q := by
  unfold enter
  constructor
  · intro h
    split_ifs at h with hc
    obtain rfl := Option.some.inj h
    exact ⟨hc.1, hc.2, rfl⟩
  · rintro ⟨hp, hq, rfl⟩
    rw [if_pos ⟨hp, hq⟩]

/-- A way leads to the lexical resolution of its components. -/
theorem resolve_of_walk {p q : Path} {ns : List Name} (h : t.walk p ns = some q) :
    resolve p ns = q := by
  induction ns generalizing p with
  | nil => exact Option.some.inj h
  | cons n ns ih =>
    obtain ⟨r, hr, hwalk⟩ := Option.bind_eq_some_iff.1 h
    obtain ⟨-, -, rfl⟩ := enter_eq_some.1 hr
    exact ih hwalk

theorem exists_of_walk {p q : Path} {ns : List Name} (h : t.walk p ns = some q)
    (hp : t.Exists p) : t.Exists q := by
  induction ns generalizing p with
  | nil => exact Option.some.inj h ▸ hp
  | cons n ns ih =>
    obtain ⟨r, hr, hwalk⟩ := Option.bind_eq_some_iff.1 h
    exact ih hwalk (enter_eq_some.1 hr).2.1

/-- The first part of a way to a directory leads to a directory. -/
theorem isDir_of_walk_append {p q : Path} {ms ns : List Name} (h : t.walk p (ms ++ ns) = some q)
    (hq : t.IsDir q) : ∃ x, t.walk p ms = some x ∧ t.IsDir x := by
  rw [walk_append] at h
  obtain ⟨x, hx, hwalk⟩ := Option.bind_eq_some_iff.1 h
  refine ⟨x, hx, ?_⟩
  cases ns with
  | nil => exact Option.some.inj hwalk ▸ hq
  | cons n ns =>
    obtain ⟨_, hr, -⟩ := Option.bind_eq_some_iff.1 hwalk
    exact (enter_eq_some.1 hr).1

/-- One step further from a directory, to what is there. -/
theorem walk_concat {p u : Path} {ns : List Name} {n : Name} (hwalk : t.walk p ns = some u)
    (hu : t.IsDir u) (h : t.Exists (lexStep u n)) : t.walk p (ns ++ [n]) = some (lexStep u n) := by
  rw [walk_append, hwalk, Option.bind_some, walk_cons, enter_eq_some.2 ⟨hu, h, rfl⟩]
  rfl

/-- Every place on a way that leads somewhere is there. -/
theorem exists_of_walk_prefix {p q : Path} {ms ns : List Name} (h : t.walk p ns = some q)
    (hp : t.Exists p) (hpre : ms <+: ns) : t.Exists (resolve p ms) := by
  obtain ⟨rest, rfl⟩ := hpre
  rw [walk_append] at h
  obtain ⟨x, hx, -⟩ := Option.bind_eq_some_iff.1 h
  rw [resolve_of_walk hx]
  exact exists_of_walk hx hp

/-- Without `..`, the way to a directory leads there. -/
theorem walk_of_isDir {p : Path} {ns : List Name} (hup : ['.', '.'] ∉ ns)
    (h : t.IsDir (resolve p ns)) : t.walk p ns = some (resolve p ns) := by
  induction ns using List.reverseRecOn with
  | nil => rfl
  | append_singleton ns n ih =>
    obtain ⟨hns, hn⟩ : ['.', '.'] ∉ ns ∧ n ≠ ['.', '.'] := by
      refine ⟨fun hmem => hup (List.mem_append_left _ hmem), fun hn => hup ?_⟩
      rw [hn]
      exact List.mem_append_right _ List.mem_cons_self
    rw [resolve_append, resolve_cons, resolve_nil] at h
    have hdir : t.IsDir (resolve p ns) := by
      by_cases hplain : Plain n
      · rw [lexStep_plain hplain] at h
        exact t.parent _ _ h.exists
      · have hstay : n = [] ∨ n = ['.'] := by
          by_contra hnot
          obtain ⟨h1, h2⟩ := not_or.1 hnot
          exact hplain ⟨h1, h2, hn⟩
        rwa [lexStep, if_pos hstay] at h
    rw [resolve_append, resolve_cons, resolve_nil]
    exact walk_concat (ih hns hdir) hdir h.exists

/-- Without `..`, the way to a node leads there if it ends in a name. -/
theorem walk_of_exists {p : Path} {ns : List Name} {n : Name} (hup : ['.', '.'] ∉ ns)
    (hn : Plain n) (h : t.Exists (resolve p (ns ++ [n]))) :
    t.walk p (ns ++ [n]) = some (resolve p (ns ++ [n])) := by
  rw [resolve_append, resolve_cons, resolve_nil] at h ⊢
  have hdir : t.IsDir (resolve p ns) := t.parent _ _ (lexStep_plain hn _ ▸ h)
  exact walk_concat (walk_of_isDir hup hdir) hdir h

/-- What it takes for a way to lead somewhere: every place before its end is a directory, and the
next one is there. -/
theorem walk_eq_some_iff {p q : Path} {ns : List Name} :
    t.walk p ns = some q ↔ resolve p ns = q ∧ ∀ ms n, ms ++ [n] <+: ns →
      t.IsDir (resolve p ms) ∧ t.Exists (resolve p (ms ++ [n])) := by
  constructor
  · refine fun h => ⟨resolve_of_walk h, fun ms n hpre => ?_⟩
    obtain ⟨rest, rfl⟩ := hpre
    rw [walk_append, walk_append] at h
    obtain ⟨y, hy, -⟩ := Option.bind_eq_some_iff.1 h
    obtain ⟨x, hx, hstep⟩ := Option.bind_eq_some_iff.1 hy
    obtain ⟨z, hz, hyz⟩ := Option.bind_eq_some_iff.1 hstep
    obtain rfl := Option.some.inj hyz
    obtain ⟨hdir, hex, rfl⟩ := enter_eq_some.1 hz
    rw [resolve_append, resolve_of_walk hx]
    exact ⟨hdir, hex⟩
  · rintro ⟨rfl, h⟩
    induction ns using List.reverseRecOn with
    | nil => rfl
    | append_singleton ns n ih =>
      obtain ⟨hdir, hex⟩ := h ns n List.prefix_rfl
      rw [resolve_append] at hex ⊢
      exact walk_concat (ih fun ms m hpre => h ms m (hpre.trans (List.prefix_append _ _))) hdir hex

/-! ## Trees that grow -/

/-- Every node of `t` is still there in `t'`, and it is a directory there if it is one in `t`. -/
structure Grows (t t' : FileTree α) : Prop where
  exists_of : ∀ {p}, t.Exists p → t'.Exists p
  isDir_iff : ∀ {p}, t.Exists p → (t'.IsDir p ↔ t.IsDir p)

theorem Grows.refl (t : FileTree α) : t.Grows t := ⟨id, fun _ => Iff.rfl⟩

theorem Grows.trans {t t' t'' : FileTree α} (h : t.Grows t') (h' : t'.Grows t'') : t.Grows t'' :=
  ⟨fun hp => h'.exists_of (h.exists_of hp),
    fun hp => (h'.isDir_iff (h.exists_of hp)).trans (h.isDir_iff hp)⟩

theorem Grows.isDir_of (h : t.Grows t') {p : Path} (hp : t.IsDir p) : t'.IsDir p :=
  (h.isDir_iff hp.exists).2 hp

theorem Grows.walk (h : t.Grows t') {p q : Path} {ns : List Name} (hw : t.walk p ns = some q) :
    t'.walk p ns = some q := by
  obtain ⟨hq, hway⟩ := walk_eq_some_iff.1 hw
  exact walk_eq_some_iff.2 ⟨hq, fun ms n hpre =>
    ⟨h.isDir_of (hway ms n hpre).1, h.exists_of (hway ms n hpre).2⟩⟩

/-! ## Storing a node -/

/-- Storing `k` at the place `r`, whose directory is there. What is there stays a directory or
something else. -/
def put (t : FileTree α) (r : Path) (k : Node α) (hr : t.IsDir r.dropLast)
    (hk : t.Exists r → (k = .dir ↔ t.IsDir r)) : FileTree α where
  node q := if q = r then some k else t.node q
  root := by
    have hroot : t.IsDir [] := t.root
    split_ifs with h
    · subst h
      rw [(hk hroot.exists).2 hroot]
    · exact hroot
  parent q m hq := by
    by_cases hm : q ++ [m] = r
    · subst hm
      rw [if_neg (by simp)]
      rwa [List.dropLast_concat] at hr
    · rw [if_neg hm] at hq
      have hdir : t.IsDir q := t.parent q m hq
      split_ifs with heq
      · subst heq
        rw [(hk hdir.exists).2 hdir]
      · exact hdir

section
variable {r : Path} {k : Node α} {hr : t.IsDir r.dropLast}
  {hk : t.Exists r → (k = .dir ↔ t.IsDir r)}

theorem put_node (q : Path) : (t.put r k hr hk).node q = if q = r then some k else t.node q := rfl

/-- A new node takes nothing away. -/
theorem grows_put : t.Grows (t.put r k hr hk) where
  exists_of {q} hq := by
    rw [Exists, put_node]
    split_ifs
    · exact Option.some_ne_none _
    · exact hq
  isDir_iff {q} hq := by
    rw [IsDir, put_node]
    split_ifs with heq
    · subst heq
      rw [Option.some_inj]
      exact hk hq
    · exact Iff.rfl

end

/-! ## Trees of directories -/

/-- The directories that lead to the places `ps`. -/
def spanned (ps : List Path) : FileTree α where
  node q := if q = [] ∨ ∃ p ∈ ps, q <+: p then some .dir else none
  root := if_pos (.inl rfl)
  parent p n h := by
    have hn : p ++ [n] = [] ∨ ∃ x ∈ ps, p ++ [n] <+: x := not_not.1 fun hn => h (if_neg hn)
    obtain hnil | ⟨x, hx, hpre⟩ := hn
    · cases List.append_ne_nil_of_right_ne_nil p (List.cons_ne_nil n []) hnil
    · exact if_pos (.inr ⟨x, hx, (List.prefix_append _ _).trans hpre⟩)

theorem spanned_node {ps : List Path} {q : Path} : (spanned ps : FileTree α).node q =
    if q = [] ∨ ∃ p ∈ ps, q <+: p then some .dir else none := rfl

theorem spanned_exists {ps : List Path} {q : Path} :
    (spanned ps : FileTree α).Exists q ↔ q = [] ∨ ∃ p ∈ ps, q <+: p := by
  rw [Exists, spanned_node]
  split_ifs with h <;> simp [h]

theorem spanned_isDir {ps : List Path} {q : Path} :
    (spanned ps : FileTree α).IsDir q ↔ q = [] ∨ ∃ p ∈ ps, q <+: p := by
  rw [IsDir, spanned_node]
  split_ifs with h <;> simp [h]

/-! ## Removing -/

/-- The part of a tree that is kept. -/
def prune (t : FileTree α) (keep : Path → Prop) [DecidablePred keep] (hroot : keep [])
    (hkeep : ∀ p n, keep (p ++ [n]) → keep p) : FileTree α where
  node q := if keep q then t.node q else none
  root := by rw [if_pos hroot, t.root]
  parent p n h := by
    have hn : keep (p ++ [n]) := by
      by_contra hn
      exact h (if_neg hn)
    rw [if_pos hn] at h
    rw [if_pos (hkeep p n hn)]
    exact t.parent p n h

end FileTree

end CcOciRuntime
