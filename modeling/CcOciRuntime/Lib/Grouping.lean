import Mathlib.Data.List.Basic
import Mathlib.Data.List.Induction
import Mathlib.Data.List.Nodup
import Mathlib.Data.List.Perm.Basic

/-!
# Grouping by a key

A list of items is gathered into groups: each item is added to the group of its key, which is
appended to the list of groups when it is not there yet. The keys of the groups are the keys of the
items in the order in which they first appear (`FirstAppearance`), and a group is what its own items
make of an empty one.
-/

namespace CcOciRuntime

section
variable {κ : Type*} [DecidableEq κ] {all keys : List κ} {k : κ}

/-- The members of a list, each at the place where it first appears. -/
structure FirstAppearance (all keys : List κ) : Prop where
  mem_iff : ∀ k, k ∈ keys ↔ k ∈ all
  ordered : keys.Pairwise fun a b => all.idxOf a < all.idxOf b

theorem FirstAppearance.nil : FirstAppearance ([] : List κ) [] := ⟨fun _ => Iff.rfl, .nil⟩

theorem FirstAppearance.nodup (h : FirstAppearance all keys) : keys.Nodup :=
  h.ordered.imp fun hlt heq => absurd (congrArg all.idxOf heq) (Nat.ne_of_lt hlt)

/-- The order does not change when the list goes on. -/
theorem FirstAppearance.ordered_append (h : FirstAppearance all keys) (more : List κ) :
    keys.Pairwise fun a b => (all ++ more).idxOf a < (all ++ more).idxOf b := by
  refine h.ordered.imp_of_mem fun ha hb hlt => ?_
  rwa [List.idxOf_append_of_mem ((h.mem_iff _).1 ha), List.idxOf_append_of_mem ((h.mem_iff _).1 hb)]

theorem FirstAppearance.snoc_of_mem (h : FirstAppearance all keys) (hk : k ∈ keys) :
    FirstAppearance (all ++ [k]) keys := by
  refine ⟨fun a => ?_, h.ordered_append [k]⟩
  rw [List.mem_append, List.mem_singleton, ← h.mem_iff]
  constructor
  · exact .inl
  · rintro (ha | rfl)
    · exact ha
    · exact hk

theorem FirstAppearance.snoc_of_not_mem (h : FirstAppearance all keys) (hk : k ∉ keys) :
    FirstAppearance (all ++ [k]) (keys ++ [k]) := by
  have hall : k ∉ all := fun hmem => hk ((h.mem_iff k).2 hmem)
  refine ⟨fun a => ?_,
    List.pairwise_append.2 ⟨h.ordered_append [k], List.pairwise_singleton _ _, ?_⟩⟩
  · rw [List.mem_append, List.mem_append, h.mem_iff]
  · intro a ha b hb
    rw [List.mem_singleton.1 hb, List.idxOf_append_of_mem ((h.mem_iff a).1 ha),
      List.idxOf_append_of_notMem hall]
    exact Nat.lt_add_right _ (List.idxOf_lt_length_of_mem ((h.mem_iff a).1 ha))

end

section
variable {α β κ : Type*} [DecidableEq κ] (key : β → κ) (new : κ → β)

/-- The group of a key is changed, after it was appended if it was not there. -/
def upsert (k : κ) (f : β → β) : List β → List β
  | [] => [f (new k)]
  | b :: bs => if key b = k then f b :: bs else b :: upsert k f bs

/-- The groups of some items. -/
def gather (item : α → κ) (add : α → β → β) (items : List α) : List β :=
  items.foldl (fun bs a => upsert key new (item a) (add a) bs) []

variable {key new} {item : α → κ} {add : α → β → β} {k : κ} {f : β → β} {bs : List β} {b : β}

theorem gather_snoc (items : List α) (a : α) :
    gather key new item add (items ++ [a]) =
      upsert key new (item a) (add a) (gather key new item add items) :=
  List.foldl_append ..

/-- The keys are the same, or there is one more. -/
theorem map_key_upsert (hnew : ∀ k, key (new k) = k) (hf : ∀ b, key (f b) = key b) :
    (upsert key new k f bs).map key =
      if k ∈ bs.map key then bs.map key else bs.map key ++ [k] := by
  induction bs with
  | nil => rw [upsert, List.map_singleton, hf, hnew, List.map_nil, if_neg List.not_mem_nil,
      List.nil_append]
  | cons c bs ih =>
    rw [upsert, List.map_cons]
    by_cases hc : key c = k
    · rw [if_pos hc, List.map_cons, hf, if_pos (hc ▸ List.mem_cons_self)]
    · rw [if_neg hc, List.map_cons, ih]
      by_cases hk : k ∈ bs.map key
      · rw [if_pos hk, if_pos (List.mem_cons_of_mem _ hk)]
      · rw [if_neg hk, if_neg (List.not_mem_cons_of_ne_of_not_mem (Ne.symm hc) hk),
          List.cons_append]

/-- Where a group comes from. -/
theorem mem_upsert (hkeys : (bs.map key).Nodup) (hb : b ∈ upsert key new k f bs) :
    (b ∈ bs ∧ key b ≠ k) ∨ (∃ c ∈ bs, key c = k ∧ b = f c) ∨ (k ∉ bs.map key ∧ b = f (new k)) := by
  induction bs with
  | nil => exact .inr (.inr ⟨List.not_mem_nil, List.mem_singleton.1 hb⟩)
  | cons c bs ih =>
    rw [List.map_cons, List.nodup_cons] at hkeys
    rw [upsert] at hb
    by_cases hc : key c = k
    · rw [if_pos hc] at hb
      obtain rfl | hb := List.mem_cons.1 hb
      · exact .inr (.inl ⟨c, List.mem_cons_self, hc, rfl⟩)
      · refine .inl ⟨List.mem_cons_of_mem _ hb, fun hbk => hkeys.1 ?_⟩
        rw [hc, ← hbk]
        exact List.mem_map_of_mem hb
    · rw [if_neg hc] at hb
      obtain rfl | hb := List.mem_cons.1 hb
      · exact .inl ⟨List.mem_cons_self, hc⟩
      · obtain ⟨hmem, hne⟩ | ⟨d, hd, hdk, rfl⟩ | ⟨hk, rfl⟩ := ih hkeys.2 hb
        · exact .inl ⟨List.mem_cons_of_mem _ hmem, hne⟩
        · exact .inr (.inl ⟨d, List.mem_cons_of_mem _ hd, hdk, rfl⟩)
        · exact .inr (.inr ⟨List.not_mem_cons_of_ne_of_not_mem (Ne.symm hc) hk, rfl⟩)

/-- The keys of the groups are those of the items, where they first appear. -/
theorem firstAppearance_gather (hnew : ∀ k, key (new k) = k) (hadd : ∀ a b, key (add a b) = key b)
    (items : List α) :
    FirstAppearance (items.map item) ((gather key new item add items).map key) := by
  induction items using List.reverseRecOn with
  | nil => exact .nil
  | append_singleton items a ih =>
    rw [gather_snoc, map_key_upsert hnew (hadd a), List.map_append]
    split_ifs with hk
    · exact ih.snoc_of_mem hk
    · exact ih.snoc_of_not_mem hk

/-- A group is what its own items make of an empty one. -/
theorem eq_foldl_of_mem_gather (hnew : ∀ k, key (new k) = k)
    (hadd : ∀ a b, key (add a b) = key b) {items : List α}
    (hb : b ∈ gather key new item add items) :
    b = (items.filter (item · = key b)).foldl (fun b a => add a b) (new (key b)) := by
  induction items using List.reverseRecOn generalizing b with
  | nil => exact absurd hb List.not_mem_nil
  | append_singleton items a ih =>
    have hfirst : FirstAppearance (items.map item) _ := firstAppearance_gather hnew hadd items
    rw [gather_snoc] at hb
    rw [List.filter_append]
    obtain ⟨hmem, hne⟩ | ⟨c, hc, hck, rfl⟩ | ⟨hk, rfl⟩ := mem_upsert hfirst.nodup hb
    · rw [List.filter_cons_of_neg (by simpa using Ne.symm hne), List.filter_nil, List.append_nil]
      exact ih hmem
    · rw [hadd, hck, List.filter_cons_of_pos (by simp), List.foldl_append, ← hck, ← ih hc]
      rfl
    · rw [hadd, hnew, List.filter_cons_of_pos (by simp), List.foldl_append]
      -- no item before has the key
      have hnone : items.filter (item · = item a) = [] := by
        refine List.filter_eq_nil_iff.2 fun x hx hxa => hk ((hfirst.mem_iff _).2 ?_)
        rw [← of_decide_eq_true hxa]
        exact List.mem_map_of_mem hx
      rw [hnone]
      rfl

/-- The items by their keys are all the items. -/
theorem perm_flatMap_filter {keys : List κ} (hkeys : keys.Nodup) {items : List α}
    (h : ∀ a ∈ items, item a ∈ keys) :
    (keys.flatMap fun k => items.filter (item · = k)).Perm items := by
  induction keys generalizing items with
  | nil =>
    rw [List.eq_nil_iff_forall_not_mem.2 fun a ha => List.not_mem_nil (h a ha)]
    exact .nil
  | cons k keys ih =>
    obtain ⟨hk, hkeys⟩ := List.nodup_cons.1 hkeys
    have hrest : ∀ a ∈ items.filter fun a => !decide (item a = k), item a ∈ keys := by
      intro a ha
      obtain ⟨ha, hne⟩ := List.mem_filter.1 ha
      exact (List.mem_cons.1 (h a ha)).resolve_left (by simpa using hne)
    have hsame : (keys.flatMap fun k' => items.filter (item · = k')) = keys.flatMap fun k' =>
        (items.filter fun a => !decide (item a = k)).filter (item · = k') := by
      refine List.flatMap_congr fun k' hk' => ?_
      rw [List.filter_filter]
      refine List.filter_congr fun a _ => ?_
      by_cases ha : item a = k'
      · have hne : k' ≠ k := fun heq => hk (heq ▸ hk')
        simp [ha, hne]
      · simp [ha]
    rw [List.flatMap_cons, hsame]
    exact ((ih hkeys hrest).append_left _).trans (List.filter_append_perm _ _)

end

end CcOciRuntime
