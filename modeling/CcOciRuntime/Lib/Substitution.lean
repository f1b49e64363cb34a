import CcOciRuntime.Lib.Search
import Mathlib.Data.List.Count

/-!
# Replacing tags one after the other

A text in which tags stand for values. `scan` finds the tags of a text from left to right, and
`place` puts the values in their places, all at once. `replaceTags` instead goes through a table of
tags and replaces the first occurrence of each in what the replacements before it have made of the
text.

The elements of the two results are marked with where they come from, so that it is seen when a
replacement takes something away that another has put there. `replaceTags_eq_place_iff` says when
the two agree: the tags of the text have values, and each name, when its turn comes, is first found
where the tag was.
-/

namespace CcOciRuntime

/-! ## Parts of a list -/

section
variable {α β : Type*} {f g : α → List β} {xs : List α}

theorem length_flatMap_le (h : ∀ x ∈ xs, (f x).length ≤ (g x).length) :
    (xs.flatMap f).length ≤ (xs.flatMap g).length := by
  induction xs with
  | nil => exact Nat.le_refl _
  | cons x xs ih =>
    obtain ⟨hx, hxs⟩ := List.forall_mem_cons.1 h
    rw [List.flatMap_cons, List.flatMap_cons, List.length_append, List.length_append]
    exact Nat.add_le_add hx (ih hxs)

/-- Two lists with the same whole have the same parts, if the parts of one are never longer. -/
theorem forall_eq_of_flatMap_eq (h : ∀ x ∈ xs, (f x).length ≤ (g x).length)
    (heq : xs.flatMap f = xs.flatMap g) : ∀ x ∈ xs, f x = g x := by
  induction xs with
  | nil => exact fun x hx => absurd hx List.not_mem_nil
  | cons x xs ih =>
    obtain ⟨hx, hxs⟩ := List.forall_mem_cons.1 h
    have hrest := length_flatMap_le hxs
    have hlen := congrArg List.length heq
    rw [List.flatMap_cons, List.flatMap_cons] at heq
    rw [List.flatMap_cons, List.flatMap_cons, List.length_append, List.length_append] at hlen
    obtain ⟨hhead, htail⟩ := List.append_inj heq (by omega)
    exact List.forall_mem_cons.2 ⟨hhead, ih hxs htail⟩

end

namespace Substitution

/-! ## Replacing -/

section
variable {α β γ : Type*} [BEq β]

/-- The text with the first occurrence of a name replaced. The elements are compared by `key`. -/
def replaceFirst (key : α → β) (name : List β) (value text : List α) : List α :=
  match (text.map key).dropInfix? name with
  | none => text
  | some (before, _) =>
    text.take before.length ++ value ++ text.drop (before.length + name.length)

/-- The names of a table replaced one after the other; one without a value stays. -/
def replaceTags (key : α → β) (table : List (List β × Option (List α))) (text : List α) : List α :=
  table.foldl (fun text t =>
    match t.2 with
    | none => text
    | some value => replaceFirst key t.1 value text) text

theorem map_replaceFirst (f : γ → α) (key : α → β) (name : List β) (value text : List γ) :
    (replaceFirst (key ∘ f) name value text).map f =
      replaceFirst key name (value.map f) (text.map f) := by
  rw [replaceFirst, replaceFirst, List.map_map]
  split
  · rfl
  · rw [List.map_append, List.map_append, List.map_take, List.map_drop]

/-- Replacing commutes with a renaming of the letters. -/
theorem map_replaceTags (f : γ → α) (key : α → β) (table : List (List β × Option (List γ)))
    (text : List γ) :
    (replaceTags (key ∘ f) table text).map f =
      replaceTags key (table.map fun t => (t.1, t.2.map (List.map f))) (text.map f) := by
  induction table generalizing text with
  | nil => rfl
  | cons t table ih =>
    obtain ⟨name, value⟩ := t
    cases value with
    | none => exact ih text
    | some value =>
      refine (ih _).trans ?_
      rw [map_replaceFirst]
      rfl

variable [LawfulBEq β]

theorem replaceFirst_of_absent {key : α → β} {name : List β} {value text : List α}
    (h : ¬ name <:+: text.map key) : replaceFirst key name value text = text := by
  rw [replaceFirst, dropInfix?_eq_none.2 h]

omit [LawfulBEq β] in
/-- The text around the first occurrence stays. -/
theorem replaceFirst_append {key : α → β} {name : List β} {value front seg tail : List α}
    (hseg : seg.map key = name)
    (h : ((front ++ seg ++ tail).map key).dropInfix? name =
      some (front.map key, tail.map key)) :
    replaceFirst key name value (front ++ seg ++ tail) = front ++ value ++ tail := by
  have hlen : name.length = seg.length := by rw [← hseg, List.length_map]
  rw [replaceFirst, h]
  dsimp only
  rw [List.length_map, hlen, ← List.length_append, List.drop_left, List.append_assoc front seg tail,
    List.take_left]

/-- What a replacement does. -/
theorem replaceFirst_cases (key : α → β) (name : List β) (value text : List α) :
    (¬ name <:+: text.map key ∧ replaceFirst key name value text = text) ∨
      ∃ front seg tail, text = front ++ seg ++ tail ∧ seg.map key = name ∧
        (text.map key).dropInfix? name = some (front.map key, tail.map key) ∧
        replaceFirst key name value text = front ++ value ++ tail := by
  by_cases hinf : name <:+: text.map key
  · obtain ⟨before, after, hcut⟩ := exists_dropInfix? hinf
    obtain ⟨htext, -⟩ := dropInfix?_eq_some.1 hcut
    obtain ⟨rest, tail, hrest, hfront, rfl⟩ := List.map_eq_append_iff.1 htext
    obtain ⟨front, seg, rfl, rfl, hseg⟩ := List.map_eq_append_iff.1 hfront
    subst hrest
    exact .inr ⟨front, seg, tail, rfl, hseg, hcut, replaceFirst_append hseg hcut⟩
  · exact .inl ⟨hinf, replaceFirst_of_absent hinf⟩

theorem replaceFirst_of_cut {name value text before after : List β}
    (h : text.dropInfix? name = some (before, after)) :
    replaceFirst id name value text = before ++ value ++ after := by
  obtain ⟨rfl, -⟩ := dropInfix?_eq_some.1 h
  refine replaceFirst_append (List.map_id _) ?_
  rw [List.map_id, List.map_id, List.map_id, h]

/-- What follows an element that no name has does not matter for what stands before it. -/
theorem replaceFirst_append_cons {name : List β} {b : β} (hb : b ∉ name)
    (value front tail : List β) :
    ∃ tail', replaceFirst id name value (front ++ b :: tail) =
      replaceFirst id name value front ++ b :: tail' := by
  by_cases hinf : name <:+: front
  · obtain ⟨before, after, hcut⟩ := exists_dropInfix? hinf
    refine ⟨tail, ?_⟩
    rw [replaceFirst_of_cut hcut, replaceFirst_of_cut (dropInfix?_append hcut (b :: tail)),
      List.append_assoc, List.append_assoc, List.append_assoc]
  · have hfront : replaceFirst id name value front = front :=
      replaceFirst_of_absent (by rwa [List.map_id])
    rw [hfront]
    rcases replaceFirst_cases id name value (front ++ b :: tail) with
      ⟨-, heq⟩ | ⟨before, seg, after, htext, rfl, -, heq⟩
    · exact ⟨tail, heq⟩
    · rw [heq]
      rw [List.map_id] at hb hinf
      rw [List.append_assoc] at htext
      -- the name begins behind the element, as it is not in what stands before and does not have it
      rcases List.append_eq_append_iff.1 htext with ⟨before', rfl, hrest⟩ | ⟨seg', rfl, hrest⟩
      · cases before' with
        | nil =>
          cases seg with
          | nil => exact absurd List.nil_infix hinf
          | cons x seg =>
            obtain ⟨rfl, -⟩ := List.cons.inj hrest
            exact absurd List.mem_cons_self hb
        | cons x before' =>
          obtain ⟨rfl, -⟩ := List.cons.inj hrest
          exact ⟨before' ++ value ++ after, by simp⟩
      · rcases List.append_eq_append_iff.1 hrest with ⟨seg'', rfl, -⟩ | ⟨after', rfl, htail⟩
        · exact absurd ⟨before, seg'', by rw [List.append_assoc]⟩ hinf
        · cases after' with
          | nil => exact absurd ⟨before, [], by simp⟩ hinf
          | cons x after' =>
            obtain ⟨rfl, -⟩ := List.cons.inj htail
            exact absurd (List.mem_append_right _ List.mem_cons_self) hb

/-- A letter of no tag stays where it is. -/
theorem replaceTags_append_cons {table : List (List β × Option (List β))} {b : β}
    (htable : ∀ t ∈ table, b ∉ t.1) (front tail : List β) :
    ∃ tail', replaceTags id table (front ++ b :: tail) =
      replaceTags id table front ++ b :: tail' := by
  induction table generalizing front tail with
  | nil => exact ⟨tail, rfl⟩
  | cons t table ih =>
    obtain ⟨name, value⟩ := t
    obtain ⟨hname, hrest⟩ := List.forall_mem_cons.1 htable
    cases value with
    | none => exact ih hrest front tail
    | some value =>
      obtain ⟨tail₁, hstep⟩ := replaceFirst_append_cons hname value front tail
      obtain ⟨tail₂, htail⟩ := ih hrest (replaceFirst id name value front) tail₁
      refine ⟨tail₂, ?_⟩
      rw [← hstep] at htail
      exact htail

/-- A text in which no name can occur stays. -/
theorem replaceTags_of_not_mem {key : α → β} {table : List (List β × Option (List α))}
    {text : List α} (h : ∀ t ∈ table, ∃ b ∈ t.1, b ∉ text.map key) :
    replaceTags key table text = text := by
  induction table with
  | nil => rfl
  | cons t table ih =>
    obtain ⟨name, value⟩ := t
    obtain ⟨⟨b, hb, hnot⟩, hrest⟩ := List.forall_mem_cons.1 h
    cases value with
    | none => exact ih hrest
    | some value =>
      have hstep : replaceFirst key name value text = text :=
        replaceFirst_of_absent fun hinf => hnot (hinf.subset hb)
      change replaceTags key table (replaceFirst key name value text) = text
      rw [hstep, ih hrest]

/-- Nothing is put into a text but the value. -/
theorem countP_replaceFirst_le {p : α → Bool} {key : α → β} {name : List β} {value text : List α}
    (hvalue : value.countP p = 0) :
    (replaceFirst key name value text).countP p ≤ text.countP p := by
  rcases replaceFirst_cases key name value text with ⟨-, heq⟩ | ⟨front, seg, tail, rfl, -, -, heq⟩
  · rw [heq]
  · rw [heq, List.countP_append, List.countP_append, List.countP_append, List.countP_append, hvalue]
    omega

/-- Values without such letters add none. -/
theorem countP_replaceTags_le {p : α → Bool} (key : α → β)
    {table : List (List β × Option (List α))} (text : List α)
    (htable : ∀ t ∈ table, ∀ value ∈ t.2, value.countP p = 0) :
    (replaceTags key table text).countP p ≤ text.countP p := by
  induction table generalizing text with
  | nil => exact Nat.le_refl _
  | cons t table ih =>
    obtain ⟨name, value⟩ := t
    obtain ⟨hvalue, hrest⟩ := List.forall_mem_cons.1 htable
    cases value with
    | none => exact ih text hrest
    | some value => exact Nat.le_trans (ih _ hrest) (countP_replaceFirst_le (hvalue value rfl))

end

/-! ## Texts with tags -/

/-- A part of a text: an element that stands for itself, or a tag. -/
inductive Item (β : Type*)
  | text (b : β)
  | tag (name : List β)
  deriving DecidableEq

/-- Where an element comes from: from the text, from a tag in it, or from the value of a tag. -/
inductive Origin (β : Type*)
  | text
  | tag
  | value (name : List β)
  deriving DecidableEq

section
variable {β : Type*}

/-- What stands for an item when some tags have been given values. -/
def Item.place (values : List β → Option (List β)) : Item β → List (β × Origin β)
  | .text b => [(b, .text)]
  | .tag name =>
    match values name with
    | none => name.map (·, .tag)
    | some value => value.map (·, .value name)

/-- The text of some items, with the tags that have been given values replaced. -/
def place (values : List β → Option (List β)) (items : List (Item β)) : List (β × Origin β) :=
  items.flatMap (Item.place values)

/-- The same text without the marks. -/
def fill (values : List β → Option (List β)) (items : List (Item β)) : List β :=
  items.flatMap fun
    | .text b => [b]
    | .tag name => (values name).getD name

/-- The table with its values marked. -/
def markTable (table : List (List β × Option (List β))) :
    List (List β × Option (List (β × Origin β))) :=
  table.map fun t => (t.1, t.2.map fun value => value.map (·, .value t.1))

/-- The placed letters are those of the filled text. -/
theorem map_fst_place (values : List β → Option (List β)) (items : List (Item β)) :
    (place values items).map Prod.fst = fill values items := by
  induction items with
  | nil => rfl
  | cons item items ih =>
    rw [place, List.flatMap_cons, List.map_append]
    refine congrArg₂ (· ++ ·) ?_ ih
    cases item with
    | text b => rfl
    | tag name =>
      simp only [Item.place]
      cases values name <;> simp [Function.comp_def]

theorem place_append (values : List β → Option (List β)) (xs ys : List (Item β)) :
    place values (xs ++ ys) = place values xs ++ place values ys :=
  List.flatMap_append

/-- Only the values of the tags that occur matter. -/
theorem place_congr {values values' : List β → Option (List β)} {items : List (Item β)}
    (h : ∀ name, .tag name ∈ items → values name = values' name) :
    place values items = place values' items := by
  refine List.flatMap_congr fun item hitem => ?_
  cases item with
  | text b => rfl
  | tag name => rw [Item.place, Item.place, h name hitem]

/-- A name between two delimiters. -/
def Delimited (d : β) (name : List β) : Prop :=
  ∃ body, body ≠ [] ∧ d ∉ body ∧ name = d :: (body ++ [d])

theorem Delimited.ne_nil {d : β} {name : List β} (h : Delimited d name) : name ≠ [] := by
  obtain ⟨body, -, -, rfl⟩ := h
  exact List.cons_ne_nil _ _

variable [DecidableEq β]

/-- The tags of a text, found from left to right, with a bound on the items. -/
def scanFuel (names : List (List β)) : Nat → List β → List (Item β)
  | 0, _ | _, [] => []
  | fuel + 1, b :: line =>
    match names.find? (·.isPrefixOf (b :: line)) with
    | some name => .tag name :: scanFuel names fuel ((b :: line).drop name.length)
    | none => .text b :: scanFuel names fuel line

/-- The tags of a text and what stands between them. -/
def scan (names : List (List β)) (line : List β) : List (Item β) := scanFuel names line.length line

/-- The number of places where a name occurs. -/
def occurrences (name : List β) : List β → Nat
  | [] => 0
  | b :: line => occurrences name line + if name.isPrefixOf (b :: line) then 1 else 0

/-- The value of a name in a table. -/
def assigned (table : List (List β × Option (List β))) (name : List β) : Option (List β) :=
  (table.lookup name).join

/-- A name is first found where the tag is, and nowhere if the text does not have the tag. -/
def OwnPlace (values : List β → Option (List β)) (name : List β) (items : List (Item β)) : Prop :=
  (fill values items).dropInfix? name =
    (items.dropInfix? [.tag name]).map (Prod.map (fill values) (fill values))

instance (values : List β → Option (List β)) (name : List β) (items : List (Item β)) :
    Decidable (OwnPlace values name items) :=
  inferInstanceAs (Decidable (_ = _))

/-- Each name with a value is first found where the tag is, when the names before it have been
replaced. -/
def KeepsPlaces (items : List (Item β)) (before : List (List β × Option (List β))) :
    List (List β × Option (List β)) → Prop
  | [] => True
  | (name, none) :: table => KeepsPlaces items (before ++ [(name, none)]) table
  | (name, some value) :: table =>
    OwnPlace (assigned before) name items ∧ KeepsPlaces items (before ++ [(name, some value)]) table

instance KeepsPlaces.decidable (items : List (Item β)) (before : List (List β × Option (List β))) :
    (table : List (List β × Option (List β))) → Decidable (KeepsPlaces items before table)
  | [] => .isTrue trivial
  | (name, none) :: table => KeepsPlaces.decidable items (before ++ [(name, none)]) table
  | (name, some value) :: table =>
    have := KeepsPlaces.decidable items (before ++ [(name, some value)]) table
    inferInstanceAs (Decidable (_ ∧ _))

/-! ### Scanning -/

/-- The items make up the line. -/
theorem flatMap_scanFuel {names : List (List β)} (hne : [] ∉ names) {fuel : Nat} {line : List β}
    (h : line.length ≤ fuel) : fill (fun _ => none) (scanFuel names fuel line) = line := by
  induction fuel generalizing line with
  | zero =>
    obtain rfl := List.length_eq_zero_iff.1 (Nat.le_zero.1 h)
    rfl
  | succ fuel ih =>
    cases line with
    | nil => rfl
    | cons b line =>
      rw [scanFuel]
      split
      · next name hname =>
        have hfound := List.find?_some hname
        have hpre : name <+: b :: line := List.isPrefixOf_iff_prefix.1 hfound
        have hpos : 0 < name.length := by
          refine List.length_pos_iff.2 ?_
          rintro rfl
          exact hne (List.mem_of_find?_eq_some hname)
        have hlen : ((b :: line).drop name.length).length ≤ fuel := by
          rw [List.length_drop]
          omega
        have hrest := ih hlen
        rw [fill, List.flatMap_cons]
        exact (congrArg (name ++ ·) hrest).trans (List.prefix_iff_eq_append.1 hpre)
      · exact congrArg (b :: ·) (ih (Nat.le_of_succ_le_succ h))

/-- The items of a text are the text. -/
theorem fill_scan {names : List (List β)} (hne : [] ∉ names) (line : List β) :
    fill (fun _ => none) (scan names line) = line :=
  flatMap_scanFuel hne (Nat.le_refl _)

/-- Only tags of the table are found. -/
theorem mem_of_tag_mem_scanFuel {names : List (List β)} {fuel : Nat} {line name : List β}
    (h : .tag name ∈ scanFuel names fuel line) : name ∈ names := by
  induction fuel generalizing line with
  | zero => cases h
  | succ fuel ih =>
    cases line with
    | nil => cases h
    | cons b line =>
      rw [scanFuel] at h
      split at h
      · next found hfound =>
        rcases List.mem_cons.1 h with heq | h
        · obtain rfl := Item.tag.inj heq
          exact List.mem_of_find?_eq_some hfound
        · exact ih h
      · rcases List.mem_cons.1 h with heq | h
        · cases heq
        · exact ih h

theorem mem_of_tag_mem_scan {names : List (List β)} {line name : List β}
    (h : .tag name ∈ scan names line) : name ∈ names :=
  mem_of_tag_mem_scanFuel h

theorem occurrences_le_append (name front line : List β) :
    occurrences name line ≤ occurrences name (front ++ line) := by
  induction front with
  | nil => exact Nat.le_refl _
  | cons b front ih => exact Nat.le_trans ih (Nat.le_add_right _ _)

/-- One more occurrence in front. -/
theorem occurrences_append_self {name : List β} (hne : name ≠ []) (line : List β) :
    occurrences name line + 1 ≤ occurrences name (name ++ line) := by
  cases name with
  | nil => exact absurd rfl hne
  | cons b name =>
    have hpre : (b :: name).isPrefixOf (b :: (name ++ line)) = true :=
      List.isPrefixOf_iff_prefix.2 (List.prefix_append (b :: name) line)
    rw [List.cons_append, occurrences, if_pos hpre]
    exact Nat.add_le_add_right (occurrences_le_append _ _ _) 1

/-- A tag is found no more often than its name occurs. -/
theorem count_tag_le_occurrences {name : List β} (hne : name ≠ []) (items : List (Item β)) :
    items.count (.tag name) ≤ occurrences name (fill (fun _ => none) items) := by
  induction items with
  | nil => exact Nat.le_refl _
  | cons item items ih =>
    rw [fill, List.flatMap_cons]
    by_cases hitem : item = .tag name
    · rw [hitem, List.count_cons_self]
      exact Nat.le_trans (Nat.add_le_add_right ih 1) (occurrences_append_self hne _)
    · rw [List.count_cons_of_ne hitem]
      exact Nat.le_trans ih (occurrences_le_append _ _ _)

/-! ### Where the elements come from -/

omit [DecidableEq β] in
/-- Where a letter can come from. -/
theorem origin_of_mem_place {values : List β → Option (List β)} {items : List (Item β)}
    {x : β × Origin β} (h : x ∈ place values items) :
    x.2 = .text ∨ x.2 = .tag ∨ ∃ name, x.2 = .value name ∧ values name ≠ none := by
  obtain ⟨item, -, hx⟩ := List.mem_flatMap.1 h
  cases item with
  | text b =>
    obtain rfl := List.mem_singleton.1 hx
    exact .inl rfl
  | tag name =>
    rw [Item.place] at hx
    split at hx
    · obtain ⟨b, -, rfl⟩ := List.mem_map.1 hx
      exact .inr (.inl rfl)
    · next value hvalue =>
      obtain ⟨b, -, rfl⟩ := List.mem_map.1 hx
      refine .inr (.inr ⟨name, rfl, ?_⟩)
      rw [hvalue]
      exact Option.some_ne_none _

omit [DecidableEq β] in
/-- Only a tag that stands has the mark of a tag. -/
theorem Item.eq_tag_of_mem_place {values : List β → Option (List β)} {item : Item β}
    {x : β × Origin β} (h : x ∈ item.place values) (hx : x.2 = .tag) :
    ∃ name, item = .tag name ∧ item.place values = name.map (·, .tag) := by
  cases item with
  | text b =>
    obtain rfl := List.mem_singleton.1 h
    cases hx
  | tag name =>
    refine ⟨name, rfl, ?_⟩
    simp only [Item.place] at h ⊢
    split at h
    · rfl
    · obtain ⟨b, -, rfl⟩ := List.mem_map.1 h
      cases hx

omit [DecidableEq β] in
/-- A tag that begins a text begins with the delimiter. -/
theorem eq_of_head?_place {d : β} {values : List β → Option (List β)} {items : List (Item β)}
    (hitems : ∀ name, .tag name ∈ items → Delimited d name) {b : β}
    (h : (place values items).head? = some (b, .tag)) : b = d := by
  induction items with
  | nil => cases h
  | cons item items ih =>
    rw [place, List.flatMap_cons] at h
    cases item with
    | text b' => cases h
    | tag name =>
      obtain ⟨body, -, -, hname⟩ := hitems name List.mem_cons_self
      simp only [Item.place] at h
      split at h
      · rw [hname] at h
        cases h
        rfl
      · next value _ =>
        cases value with
        | nil => exact ih (fun name hmem => hitems name (List.mem_cons_of_mem _ hmem)) h
        | cons b' value => cases h

/-- Two names that begin at the same place are the same. -/
theorem eq_of_delimited_append {d : β} {name name' text text' : List β} (hname : Delimited d name)
    (hname' : Delimited d name') (h : name ++ text = name' ++ text') : name = name' := by
  obtain ⟨body, -, hbody, rfl⟩ := hname
  obtain ⟨body', -, hbody', rfl⟩ := hname'
  simp only [List.cons_append, List.append_assoc, List.nil_append] at h
  obtain ⟨rfl, -⟩ := append_cons_inj hbody hbody' (List.cons.inj h).2
  rfl

omit [DecidableEq β] in
/-- A delimiter in a name that is not its first element is its last. -/
theorem eq_nil_of_delimited {d b : β} {name xs ys : List β} (hname : Delimited d name)
    (h : name = b :: (xs ++ d :: ys)) : ys = [] := by
  obtain ⟨body, -, hbody, rfl⟩ := hname
  have htail := (List.cons.inj h).2
  rcases List.eq_nil_or_concat ys with rfl | ⟨zs, z, rfl⟩
  · rfl
  · rw [List.concat_eq_append, ← List.cons_append, ← List.append_assoc] at htail
    obtain rfl := List.append_inj_left' htail rfl
    exact absurd (List.mem_append_right _ List.mem_cons_self) hbody

omit [DecidableEq β] in
/-- A name of tags does not begin with the last delimiter of a tag: its second element would be the
first of another tag. -/
theorem not_delimited_of_place {d : β} {values : List β → Option (List β)} {items : List (Item β)}
    (hitems : ∀ name, .tag name ∈ items → Delimited d name) {x : β × Origin β}
    {seg tail : List (β × Origin β)} (h : seg ++ tail = place values items)
    (hmarks : ∀ y ∈ seg, y.2 = .tag) : ¬ Delimited d ((x :: seg).map Prod.fst) := by
  rintro ⟨body, hne, hbody, hname⟩
  obtain ⟨b, body, rfl⟩ := List.exists_cons_of_ne_nil hne
  obtain ⟨z, seg, rfl, rfl, -⟩ := List.map_eq_cons_iff.1 (List.cons.inj hname).2
  have hz : z.2 = .tag := hmarks z List.mem_cons_self
  have hhead : (place values items).head? = some (z.1, .tag) := by
    rw [← h, ← hz]
    rfl
  exact hbody (eq_of_head?_place hitems hhead ▸ List.mem_cons_self)

/-- What consists of tags only and reads as a name is one tag. -/
theorem exists_tag_of_place {d : β} {values : List β → Option (List β)} {items : List (Item β)}
    (hitems : ∀ name, .tag name ∈ items → Delimited d name) {name : List β}
    (hname : Delimited d name) {front seg tail : List (β × Origin β)}
    (h : place values items = front ++ (seg ++ tail)) (hseg : seg.map Prod.fst = name)
    (hmarks : ∀ x ∈ seg, x.2 = .tag) :
    ∃ xs ys, items = xs ++ .tag name :: ys ∧ front = place values xs ∧ tail = place values ys := by
  subst hseg
  induction items generalizing front with
  | nil =>
    obtain ⟨-, hnil⟩ := List.append_eq_nil_iff.1 h.symm
    rw [(List.append_eq_nil_iff.1 hnil).1] at hname
    exact absurd rfl hname.ne_nil
  | cons item items ih =>
    have htags := fun name hmem => hitems name (List.mem_cons_of_mem item hmem)
    have hbehind : ∀ front', front = item.place values ++ front' →
        place values items = front' ++ (seg ++ tail) →
        ∃ xs ys, item :: items = xs ++ .tag (seg.map Prod.fst) :: ys ∧
          front = place values xs ∧ tail = place values ys := by
      intro front' hfront hrest
      obtain ⟨xs, ys, rfl, rfl, rfl⟩ := ih htags hrest
      exact ⟨item :: xs, ys, rfl, hfront, rfl⟩
    rw [place, List.flatMap_cons] at h
    rcases List.append_eq_append_iff.1 h with ⟨front', hfront, hrest⟩ | ⟨seg', hitem, hrest⟩
    · exact hbehind front' hfront hrest
    cases seg' with
    | nil =>
      rw [List.append_nil] at hitem
      exact hbehind [] (by rw [hitem, List.append_nil]) hrest.symm
    | cons x seg' =>
      -- the name begins in this item, which therefore is a tag without a value
      obtain ⟨y, seg, rfl⟩ := List.exists_cons_of_ne_nil fun hnil =>
        hname.ne_nil (List.map_eq_nil_iff.2 hnil)
      obtain ⟨rfl, htail⟩ := List.cons.inj hrest
      replace htail : seg ++ tail = seg' ++ place values items := htail
      have hmem : y ∈ item.place values := hitem ▸ List.mem_append_right _ List.mem_cons_self
      obtain ⟨found, rfl, hplace⟩ := item.eq_tag_of_mem_place hmem (hmarks y List.mem_cons_self)
      have hfound := hitems found List.mem_cons_self
      have hkeys : found = front.map Prod.fst ++ y.1 :: seg'.map Prod.fst := by
        rw [← List.map_cons, ← List.map_append, ← hitem, hplace, List.map_map]
        exact (List.map_id _).symm
      cases front with
      | nil =>
        have hnames : (y :: seg).map Prod.fst = found := by
          have htext := congrArg (List.map Prod.fst) hrest
          rw [List.map_append, List.map_append] at htext
          exact eq_of_delimited_append hname hfound (htext.trans (by rw [hkeys]; rfl))
        have hlen : seg.length = seg'.length := by
          have hlen := congrArg List.length (hnames.trans hkeys)
          simpa using hlen
        obtain ⟨-, rfl⟩ := List.append_inj htail hlen
        exact ⟨[], items, by rw [hnames]; rfl, rfl, rfl⟩
      | cons z front =>
        have hy : y.1 = d := by
          obtain ⟨body, -, -, hbody⟩ := hname
          exact (List.cons.inj hbody).1
        rw [hy] at hkeys
        have hnil := List.map_eq_nil_iff.1 (eq_nil_of_delimited hfound hkeys)
        rw [hnil, List.nil_append] at htail
        exact absurd hname (not_delimited_of_place htags htail fun w hw =>
          hmarks w (List.mem_cons_of_mem _ hw))

/-! ### One after the other, and all at once -/

/-- All tags replaced, those without a value by nothing. -/
def everything (table : List (List β × Option (List β))) (name : List β) : Option (List β) :=
  some ((assigned table name).getD [])

/-- A tag without a value assigns nothing. -/
theorem assigned_append_none (before : List (List β × Option (List β))) (name : List β) :
    assigned (before ++ [(name, none)]) = assigned before := by
  funext other
  rw [assigned, assigned, List.lookup_append]
  cases before.lookup other with
  | some value => rfl
  | none =>
    rw [Option.none_or, List.lookup_cons]
    split <;> rfl

theorem lookup_eq_none_of_not_mem {before : List (List β × Option (List β))} {name : List β}
    (h : name ∉ before.map Prod.fst) : before.lookup name = none := by
  refine List.lookup_eq_none_iff.2 fun t ht => bne_iff_ne.2 ?_
  rintro rfl
  exact h (List.mem_map_of_mem ht)

theorem assigned_eq_none {before : List (List β × Option (List β))} {name : List β}
    (h : name ∉ before.map Prod.fst) : assigned before name = none := by
  rw [assigned, lookup_eq_none_of_not_mem h]
  rfl

theorem assigned_append_self {before : List (List β × Option (List β))} {name : List β}
    (h : name ∉ before.map Prod.fst) (value : Option (List β)) :
    assigned (before ++ [(name, value)]) name = value := by
  rw [assigned, List.lookup_append, lookup_eq_none_of_not_mem h, Option.none_or, List.lookup_cons,
    beq_self_eq_true]
  rfl

theorem assigned_append_of_ne {before : List (List β × Option (List β))} {name other : List β}
    (value : Option (List β)) (h : other ≠ name) :
    assigned (before ++ [(name, value)]) other = assigned before other := by
  rw [assigned, assigned, List.lookup_append, List.lookup_cons, beq_false_of_ne h]
  cases before.lookup other <;> rfl

/-- The first value counts. -/
theorem assigned_append_of_some {before rest : List (List β × Option (List β))}
    {name value : List β} (h : assigned before name = some value) :
    assigned (before ++ rest) name = some value := by
  rw [assigned] at h ⊢
  rw [List.lookup_append]
  cases hlookup : before.lookup name with
  | none =>
    rw [hlookup] at h
    cases h
  | some found =>
    rw [hlookup] at h
    exact h

/-- A step that finds the name in its place puts the value there. -/
theorem replaceFirst_place {before : List (List β × Option (List β))} {name value : List β}
    {items : List (Item β)} (hname : name ∉ before.map Prod.fst)
    (honce : items.count (.tag name) ≤ 1) (hplace : OwnPlace (assigned before) name items) :
    replaceFirst Prod.fst name (value.map (·, .value name)) (place (assigned before) items) =
      place (assigned (before ++ [(name, some value)])) items := by
  have hothers : ∀ {items : List (Item β)}, .tag name ∉ items →
      place (assigned before) items = place (assigned (before ++ [(name, some value)])) items := by
    intro items hmem
    refine place_congr fun other hother => (assigned_append_of_ne _ ?_).symm
    rintro rfl
    exact hmem hother
  rw [OwnPlace] at hplace
  cases hcut : items.dropInfix? [.tag name] with
  | none =>
    rw [hcut] at hplace
    have hmem : .tag name ∉ items := fun hmem =>
      dropInfix?_eq_none.1 hcut ((List.singleton_infix_iff _ _).2 hmem)
    rw [replaceFirst_of_absent, hothers hmem]
    rw [map_fst_place]
    exact dropInfix?_eq_none.1 hplace
  | some r =>
    obtain ⟨xs, ys⟩ := r
    rw [hcut] at hplace
    obtain ⟨rfl, -⟩ := dropInfix?_eq_some.1 hcut
    rw [List.append_assoc, List.count_append, List.singleton_append, List.count_cons_self] at honce
    have hxs : .tag name ∉ xs := List.count_eq_zero.1 (by omega)
    have hys : .tag name ∉ ys := List.count_eq_zero.1 (by omega)
    have htag : place (assigned before) [.tag name] = name.map (·, .tag) := by
      simp [place, Item.place, assigned_eq_none hname]
    have hvalue : place (assigned (before ++ [(name, some value)])) [.tag name] =
        value.map (·, .value name) := by
      simp [place, Item.place, assigned_append_self hname]
    rw [place_append, place_append, place_append, place_append, htag, hvalue, ← hothers hxs,
      ← hothers hys]
    refine replaceFirst_append ?_ ?_
    · simp [Function.comp_def]
    · rw [← htag, ← place_append, ← place_append, map_fst_place, map_fst_place, map_fst_place,
        hplace]
      rfl

/-- A step that finds the name elsewhere takes something away that is not part of a tag. -/
theorem exists_mark_of_not_ownPlace {d : β} {before : List (List β × Option (List β))}
    {name : List β} {items : List (Item β)} (hitems : ∀ n, .tag n ∈ items → Delimited d n)
    (hdelim : Delimited d name) (hname : name ∉ before.map Prod.fst)
    (honce : items.count (.tag name) ≤ 1) (hplace : ¬ OwnPlace (assigned before) name items) :
    ∃ front seg tail, place (assigned before) items = front ++ seg ++ tail ∧
      (∀ value, replaceFirst Prod.fst name value (place (assigned before) items) =
        front ++ value ++ tail) ∧
      ∃ x ∈ seg, x.2 ≠ .tag := by
  rcases replaceFirst_cases Prod.fst name [] (place (assigned before) items) with
    ⟨hinf, -⟩ | ⟨front, seg, tail, htext, hseg, hcut, -⟩
  · -- a tag of the text that is not found has gone
    refine absurd ?_ hplace
    rw [map_fst_place] at hinf
    have hmem : .tag name ∉ items := by
      intro hmem
      obtain ⟨xs, ys, rfl⟩ := List.append_of_mem hmem
      refine hinf ⟨fill (assigned before) xs, fill (assigned before) ys, ?_⟩
      simp [fill, assigned_eq_none hname]
    rw [OwnPlace, dropInfix?_eq_none.2 hinf,
      dropInfix?_eq_none.2 fun h => hmem ((List.singleton_infix_iff _ _).1 h)]
    rfl
  · refine ⟨front, seg, tail, htext, fun value => ?_, ?_⟩
    · rw [htext] at hcut ⊢
      exact replaceFirst_append hseg hcut
    · by_contra hnone
      have hmarks : ∀ x ∈ seg, x.2 = .tag := fun x hx =>
        Classical.byContradiction fun hne => hnone ⟨x, hx, hne⟩
      rw [List.append_assoc] at htext
      obtain ⟨xs, ys, rfl, rfl, rfl⟩ := exists_tag_of_place hitems hdelim htext hseg hmarks
      rw [List.count_append, List.count_cons_self] at honce
      have hxs : .tag name ∉ xs := List.count_eq_zero.1 (by omega)
      refine hplace ?_
      rw [map_fst_place, map_fst_place, map_fst_place] at hcut
      rw [OwnPlace, hcut, dropInfix?_singleton hxs]
      rfl

/-- What is neither a tag nor comes from a value that is still to be put in is in the result. -/
theorem countP_place_le (before rest : List (List β × Option (List β))) (items : List (Item β))
    {o : Origin β} (ho : o ≠ .tag) :
    (place (assigned before) items).countP (·.2 = o) ≤
      (place (everything (before ++ rest)) items).countP (·.2 = o) := by
  induction items with
  | nil => exact Nat.le_refl _
  | cons item items ih =>
    rw [place, place, List.flatMap_cons, List.flatMap_cons, List.countP_append, List.countP_append]
    refine Nat.add_le_add ?_ ih
    cases item with
    | text b => exact Nat.le_refl _
    | tag name =>
      cases hvalue : assigned before name with
      | none =>
        have hzero : (Item.place (assigned before) (.tag name)).countP (·.2 = o) = 0 := by
          simp only [Item.place, hvalue]
          rw [List.countP_eq_zero]
          intro x hx
          obtain ⟨b, -, rfl⟩ := List.mem_map.1 hx
          simpa using ho.symm
        rw [hzero]
        exact Nat.zero_le _
      | some value =>
        simp only [Item.place, hvalue, everything, assigned_append_of_some hvalue,
          Option.getD_some]
        exact Nat.le_refl _

/-- A value that is still to come does not have the marks of what is in the text. -/
theorem countP_value_eq_zero {values : List β → Option (List β)} {items : List (Item β)}
    {x : β × Origin β} (hmem : x ∈ place values items) (hmark : x.2 ≠ .tag) {name : List β}
    (hname : values name = none) (value : List β) :
    (value.map (·, Origin.value name)).countP (·.2 = x.2) = 0 := by
  have hne : Origin.value name ≠ x.2 := by
    intro heq
    rcases origin_of_mem_place hmem with htext | htag | ⟨m, hm, hsome⟩
    · rw [htext] at heq
      cases heq
    · exact hmark htag
    · rw [hm] at heq
      obtain rfl := Origin.value.inj heq
      exact hsome hname
  rw [List.countP_eq_zero]
  intro y hy
  obtain ⟨b, -, rfl⟩ := List.mem_map.1 hy
  simpa using hne

/-- A name that has been found elsewhere spoils the result: what it took away does not come back. -/
theorem replaceTags_ne_place {d : β} {before rest : List (List β × Option (List β))}
    {name value : List β} {items : List (Item β)}
    (htable : ∀ t ∈ before ++ (name, some value) :: rest, Delimited d t.1)
    (hnodup : ((before ++ (name, some value) :: rest).map Prod.fst).Nodup)
    (hitems : ∀ n, .tag n ∈ items → Delimited d n) (honce : items.count (.tag name) ≤ 1)
    (hplace : ¬ OwnPlace (assigned before) name items) :
    replaceTags Prod.fst (markTable ((name, some value) :: rest)) (place (assigned before) items) ≠
      place (everything (before ++ (name, some value) :: rest)) items := by
  rw [List.map_append, List.map_cons] at hnodup
  have hfresh : ∀ n ∈ name :: rest.map Prod.fst, n ∉ before.map Prod.fst := fun n hn hmem =>
    (List.nodup_append.1 hnodup).2.2 n hmem n hn rfl
  have hname := hfresh name List.mem_cons_self
  have hdelim := htable _ (List.mem_append_right _ List.mem_cons_self)
  obtain ⟨front, seg, tail, htext, hreplace, x, hx, hmark⟩ :=
    exists_mark_of_not_ownPlace hitems hdelim hname honce hplace
  have hmem : x ∈ place (assigned before) items := by
    rw [htext]
    exact List.mem_append_left _ (List.mem_append_right _ hx)
  have hvalues : ∀ n ∈ name :: rest.map Prod.fst, ∀ v : List β,
      (v.map (·, Origin.value n)).countP (·.2 = x.2) = 0 := fun n hn v =>
    countP_value_eq_zero hmem hmark (assigned_eq_none (hfresh n hn)) v
  intro heq
  have hlater : ∀ t ∈ markTable rest, ∀ v ∈ t.2, v.countP (·.2 = x.2) = 0 := by
    intro t ht v hv
    obtain ⟨⟨n, w⟩, hmem', rfl⟩ := List.mem_map.1 ht
    obtain ⟨w', -, rfl⟩ := Option.map_eq_some_iff.1 hv
    exact hvalues n (List.mem_cons_of_mem _ (List.mem_map_of_mem hmem')) w'
  have hle := countP_replaceTags_le Prod.fst (front ++ value.map (·, .value name) ++ tail) hlater
  have hstep : replaceTags Prod.fst (markTable ((name, some value) :: rest))
      (place (assigned before) items) =
      replaceTags Prod.fst (markTable rest) (front ++ value.map (·, .value name) ++ tail) := by
    rw [← hreplace]
    rfl
  have hpos : 0 < seg.countP (·.2 = x.2) := List.countP_pos_iff.2 ⟨x, hx, by simp⟩
  have hcount := countP_place_le before ((name, some value) :: rest) items hmark
  rw [← hstep, heq, List.countP_append, List.countP_append,
    hvalues name List.mem_cons_self value] at hle
  rw [htext, List.countP_append, List.countP_append] at hcount
  omega

/-- Once all names have had their turn, the tags without a value are what is left to replace. -/
theorem place_eq_place_iff {table : List (List β × Option (List β))} {items : List (Item β)}
    (hne : ∀ n, .tag n ∈ items → n ≠ []) :
    place (assigned table) items = place (everything table) items ↔
      ∀ n, .tag n ∈ items → (assigned table n).isSome := by
  constructor
  · intro heq n hn
    have hle : ∀ item ∈ items, (item.place (everything table)).length ≤
        (item.place (assigned table)).length := by
      intro item _
      cases item with
      | text b => exact Nat.le_refl _
      | tag name =>
        simp only [Item.place, everything]
        cases assigned table name <;> simp
    have hitem := forall_eq_of_flatMap_eq hle heq.symm _ hn
    simp only [Item.place, everything] at hitem
    cases hvalue : assigned table n with
    | some value => rfl
    | none =>
      rw [hvalue] at hitem
      exact absurd (List.map_eq_nil_iff.1 hitem.symm) (hne n hn)
  · intro h
    refine place_congr fun n hn => ?_
    obtain ⟨value, hvalue⟩ := Option.isSome_iff_exists.1 (h n hn)
    rw [everything, hvalue, Option.getD_some]

/-- **One after the other is all at once** exactly if the tags of the text have values, and each
name is found where its tag is. -/
theorem replaceTags_eq_place_iff {d : β} {table : List (List β × Option (List β))}
    {items : List (Item β)} (htable : ∀ t ∈ table, Delimited d t.1)
    (hnodup : (table.map Prod.fst).Nodup) (hitems : ∀ n, .tag n ∈ items → n ∈ table.map Prod.fst)
    (honce : ∀ n, items.count (.tag n) ≤ 1) :
    replaceTags Prod.fst (markTable table) (place (fun _ => none) items) =
        place (everything table) items ↔
      (∀ n, .tag n ∈ items → (assigned table n).isSome) ∧ KeepsPlaces items [] table := by
  have hdelim : ∀ n, .tag n ∈ items → Delimited d n := by
    intro n hn
    obtain ⟨t, ht, rfl⟩ := List.mem_map.1 (hitems n hn)
    exact htable t ht
  have hne : ∀ n, .tag n ∈ items → n ≠ [] := by
    rintro n hn rfl
    obtain ⟨_, -, -, hname⟩ := hdelim [] hn
    cases hname
  suffices haux : ∀ before rest, table = before ++ rest →
      (replaceTags Prod.fst (markTable rest) (place (assigned before) items) =
        place (everything table) items ↔
      (∀ n, .tag n ∈ items → (assigned table n).isSome) ∧ KeepsPlaces items before rest) from
    haux [] table rfl
  intro before rest
  -- the names that have been replaced move from one part of the table to the other
  induction rest generalizing before with
  | nil =>
    rintro rfl
    rw [List.append_nil]
    exact (place_eq_place_iff hne).trans (iff_of_eq (and_true _)).symm
  | cons t rest ih =>
    obtain ⟨name, value⟩ := t
    intro hsplit
    have hnext : table = before ++ [(name, value)] ++ rest := by
      rw [hsplit, List.append_assoc, List.singleton_append]
    cases value with
    | none =>
      have hrest := ih _ hnext
      rw [assigned_append_none] at hrest
      exact hrest
    | some value =>
      have hname : name ∉ before.map Prod.fst := by
        rw [hsplit, List.map_append, List.map_cons] at hnodup
        exact fun hmem => (List.nodup_append.1 hnodup).2.2 name hmem name List.mem_cons_self rfl
      by_cases hplace : OwnPlace (assigned before) name items
      · have hrest := ih _ hnext
        rw [← replaceFirst_place hname (honce name) hplace] at hrest
        rw [KeepsPlaces, and_iff_right hplace]
        exact hrest
      · rw [hsplit] at htable hnodup
        rw [KeepsPlaces, hsplit]
        exact iff_of_false (replaceTags_ne_place htable hnodup hdelim (honce name) hplace)
          fun h => hplace h.2.1

end

end Substitution

end CcOciRuntime
