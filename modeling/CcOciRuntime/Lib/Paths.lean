import Mathlib.Data.List.Infix

/-!
# Paths

A path text is a sequence of components with `/` between them; a place in a tree of directories is
the list of names that leads to it from the root. `resolve` is the place that a text means when `.`
and `..` are taken lexically, as they are in a tree without links. Places are ordered by `<+:`: `p`
is above `q`, or is it, when `p <+: q`.
-/

namespace CcOciRuntime

/-- A component of a path. -/
abbrev Name := List Char

/-- A place: the names that lead to it from the root. -/
abbrev Path := List Name

/-! ## Texts and components -/

/-- The components of a text. There is an empty one before a leading and after a trailing `/`, and
between two of them. -/
def components (text : String) : List Name := text.toList.splitOn '/'

/-- The text with the given components. -/
def joinSlash (ns : List Name) : String := String.ofList (['/'].intercalate ns)

theorem components_ne_nil (text : String) : components text ≠ [] :=
  List.splitOn_ne_nil _ _

@[simp] theorem joinSlash_components (text : String) : joinSlash (components text) = text := by
  rw [joinSlash, components, List.intercalate_splitOn, String.ofList_toList]

theorem components_joinSlash {ns : List Name} (hne : ns ≠ []) (h : ∀ n ∈ ns, '/' ∉ n) :
    components (joinSlash ns) = ns := by
  rw [components, joinSlash, String.toList_ofList, List.splitOn_intercalate _ h hne]

theorem components_append_slash (s t : String) :
    components (s ++ "/" ++ t) = components s ++ components t := by
  have happend : (s ++ "/" ++ t).toList = s.toList ++ '/' :: t.toList := by simp
  rw [components, happend, List.splitOn_append_cons_self]
  rfl

/-- No component has a separator. -/
theorem not_mem_of_mem_components {text : String} {n : Name} (h : n ∈ components text) :
    '/' ∉ n := by
  suffices hsplit : ∀ cs : List Char, ∀ n ∈ cs.splitOn '/', '/' ∉ n from hsplit _ n h
  intro cs
  induction cs with
  | nil => simp
  | cons c cs ih =>
    rw [List.splitOn_cons_eq_if_modifyHead]
    split_ifs with hc
    · simpa using ih
    · obtain ⟨m, ms, hms⟩ := List.exists_cons_of_ne_nil (List.splitOn_ne_nil '/' cs)
      rw [hms] at ih ⊢
      have hne : '/' ≠ c := by
        rintro rfl
        exact hc (beq_self_eq_true _)
      intro n hn
      obtain rfl | hn := List.mem_cons.1 hn
      · exact List.not_mem_cons_of_ne_of_not_mem hne (ih m List.mem_cons_self)
      · exact ih n (List.mem_cons_of_mem _ hn)

theorem joinSlash_append {ms ns : List Name} (hm : ms ≠ []) (hn : ns ≠ [])
    (h : ∀ n ∈ ms ++ ns, '/' ∉ n) :
    joinSlash (ms ++ ns) = joinSlash ms ++ "/" ++ joinSlash ns := by
  have hms := components_joinSlash hm fun n hn => h n (List.mem_append_left _ hn)
  have hns := components_joinSlash hn fun n hn => h n (List.mem_append_right _ hn)
  rw [← joinSlash_components (joinSlash ms ++ "/" ++ joinSlash ns), components_append_slash, hms,
    hns]

/-- The text of some first components of a text is a beginning of it. -/
theorem joinSlash_isPrefix {text : String} {ns : List Name} (hne : ns ≠ [])
    (h : ns <+: components text) : (joinSlash ns).toList <+: text.toList := by
  obtain ⟨ms, hms⟩ := h
  cases ms with
  | nil =>
    rw [List.append_nil] at hms
    rw [hms, joinSlash_components]
  | cons m ms =>
    rw [← joinSlash_components text, ← hms,
      joinSlash_append hne (List.cons_ne_nil _ _) fun n hn =>
        not_mem_of_mem_components (hms ▸ hn), String.toList_append, String.toList_append,
      List.append_assoc]
    exact List.prefix_append _ _

theorem components_joinSlash_isPrefix {text : String} {ns : List Name} (hne : ns ≠ [])
    (h : ns <+: components text) : components (joinSlash ns) = ns :=
  components_joinSlash hne fun _ hn => not_mem_of_mem_components (h.subset hn)

theorem dropLast_splitOn_isPrefix (cs more : List Char) :
    (cs.splitOn '/').dropLast <+: (cs ++ more).splitOn '/' := by
  induction cs with
  | nil => exact List.nil_prefix
  | cons c cs ih =>
    obtain ⟨n, ns, hns⟩ := List.exists_cons_of_ne_nil (List.splitOn_ne_nil '/' cs)
    obtain ⟨m, ms, hms⟩ := List.exists_cons_of_ne_nil (List.splitOn_ne_nil '/' (cs ++ more))
    rw [List.cons_append, List.splitOn_cons_eq_if_modifyHead, List.splitOn_cons_eq_if_modifyHead,
      hns, hms]
    rw [hns, hms] at ih
    split_ifs
    · exact List.cons_prefix_cons.2 ⟨rfl, ih⟩
    · -- the character belongs to the first component, which is kept unless it is the last one
      cases ns with
      | nil => exact List.nil_prefix
      | cons n' ns =>
        obtain ⟨rfl, hrest⟩ := List.cons_prefix_cons.1 ih
        exact List.cons_prefix_cons.2 ⟨rfl, hrest⟩

/-- A text that is cut keeps its components, but for the last one. -/
theorem dropLast_components_isPrefix {text : String} {cs : List Char} (h : cs <+: text.toList) :
    (components (String.ofList cs)).dropLast <+: components text := by
  obtain ⟨more, hmore⟩ := h
  rw [components, components, ← hmore, String.toList_ofList]
  exact dropLast_splitOn_isPrefix cs more

/-! ## Lexical resolution -/

/-- A component that names an entry of a directory: not empty, not `.` and not `..`. -/
def Plain (n : Name) : Prop := n ≠ [] ∧ n ≠ ['.'] ∧ n ≠ ['.', '.']

instance (n : Name) : Decidable (Plain n) := inferInstanceAs (Decidable (_ ∧ _ ∧ _))

/-- Following one component. The root is above itself. -/
def lexStep (p : Path) (n : Name) : Path :=
  if n = [] ∨ n = ['.'] then p
  else if n = ['.', '.'] then p.dropLast
  else p ++ [n]

/-- Following the components `ns` from `p`. -/
def resolve (p : Path) (ns : List Name) : Path := ns.foldl lexStep p

@[simp] theorem resolve_nil (p : Path) : resolve p [] = p := rfl

@[simp] theorem resolve_cons (p : Path) (n : Name) (ns : List Name) :
    resolve p (n :: ns) = resolve (lexStep p n) ns := rfl

theorem resolve_append (p : Path) (ms ns : List Name) :
    resolve p (ms ++ ns) = resolve (resolve p ms) ns :=
  List.foldl_append

theorem lexStep_plain {n : Name} (h : Plain n) (p : Path) : lexStep p n = p ++ [n] := by
  rw [lexStep, if_neg, if_neg h.2.2]
  rintro (hn | hn)
  · exact h.1 hn
  · exact h.2.1 hn

/-- Without `..` the way only leads down. -/
theorem prefix_lexStep {n : Name} (h : n ≠ ['.', '.']) (p : Path) : p <+: lexStep p n := by
  unfold lexStep
  split_ifs
  · exact List.prefix_rfl
  · exact List.prefix_append _ _

theorem prefix_resolve {ns : List Name} (h : ['.', '.'] ∉ ns) (p : Path) : p <+: resolve p ns := by
  induction ns generalizing p with
  | nil => exact List.prefix_rfl
  | cons n ns ih =>
    obtain ⟨hn, hns⟩ := not_or.1 fun hmem => h (List.mem_cons.2 hmem)
    exact (prefix_lexStep (fun heq => hn heq.symm) p).trans (ih hns _)

/-- Following one component in normal form, in which the steps up come before the names. -/
def normalStep (r : Nat × Path) (n : Name) : Nat × Path :=
  if n = [] ∨ n = ['.'] then r
  else if n = ['.', '.'] then if r.2 = [] then (r.1 + 1, []) else (r.1, r.2.dropLast)
  else (r.1, r.2 ++ [n])

/-- The normal form of some components: the number of steps up, and the names that follow. -/
def normal (ns : List Name) : Nat × Path := ns.foldl normalStep (0, [])

/-- The normal form leads to the same place, from wherever it is followed. -/
theorem resolve_eq_normal (p : Path) (ns : List Name) :
    resolve p ns = p.take (p.length - (normal ns).1) ++ (normal ns).2 := by
  induction ns using List.reverseRecOn with
  | nil => simp [normal]
  | append_singleton ns n ih =>
    have hstep : normal (ns ++ [n]) = normalStep (normal ns) n := List.foldl_append
    rw [resolve_append, ih, resolve_cons, resolve_nil, hstep]
    obtain ⟨k, q⟩ := normal ns
    unfold lexStep normalStep
    split_ifs with hstay hup hq
    · rfl
    · obtain rfl : q = [] := hq
      have hlen : min (min (p.length - k) p.length - 1) (p.length - k) = p.length - (k + 1) := by
        omega
      rw [List.append_nil, List.append_nil, List.dropLast_eq_take, List.take_take,
        List.length_take, hlen]
    · exact List.dropLast_append_of_ne_nil hq
    · exact List.append_assoc _ _ _

/-- `q` is strictly below `p`. -/
def StrictlyBelow (p q : Path) : Prop := p <+: q ∧ p ≠ q

instance (p q : Path) : Decidable (StrictlyBelow p q) := inferInstanceAs (Decidable (_ ∧ _))

/-- Neither place is strictly below the other. -/
def Unnested (p q : Path) : Prop := ¬ StrictlyBelow p q ∧ ¬ StrictlyBelow q p

instance (p q : Path) : Decidable (Unnested p q) := inferInstanceAs (Decidable (_ ∧ _))

end CcOciRuntime
