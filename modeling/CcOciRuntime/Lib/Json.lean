import Mathlib.Data.List.Basic
import Mathlib.Tactic.SplitIfs

/-!
# JSON documents

The document trees that pass between the parties of this development. A document is a tree of
`Json` nodes; printing and parsing it are taken as faithful, so a file or a frame is the tree
itself. An object is its member list in order, and `setMember` is the update of a member: in place
when the name is already there, at the end when it is new. `mem_setMember` says which members an
update leaves.
-/

namespace CcOciRuntime

/-- A JSON document. `real` is a number that is not written as an integer, kept as the text its
reader has for it: the modelled code only ever passes that text on. -/
inductive Json
  | null
  | bool (b : Bool)
  | int (n : Int)
  | real (text : String)
  | str (s : String)
  | arr (xs : List Json)
  | obj (ms : List (String × Json))
  deriving Repr, Inhabited

namespace Json

/-- The value of the first member named `k` of a member list. -/
def find (k : String) : List (String × Json) → Option Json
  | [] => none
  | (n, v) :: ms => if n = k then some v else find k ms

/-- The member `k` of a document; a document that is not an object has none. -/
def member (k : String) : Json → Option Json
  | .obj ms => find k ms
  | _ => none

/-- Setting a member: the value of an existing name is replaced where it stands, a new name goes
to the end. -/
def setMember (k : String) (v : Json) : List (String × Json) → List (String × Json)
  | [] => [(k, v)]
  | (n, w) :: ms => if n = k then (n, v) :: ms else (n, w) :: setMember k v ms

@[simp] theorem find_nil (k : String) : find k [] = none := rfl

theorem find_cons (k n : String) (v : Json) (ms : List (String × Json)) :
    find k ((n, v) :: ms) = if n = k then some v else find k ms := rfl

@[simp] theorem member_obj (k : String) (ms : List (String × Json)) :
    member k (.obj ms) = find k ms := rfl

theorem find_eq_none {k : String} {ms : List (String × Json)} :
    find k ms = none ↔ k ∉ ms.map Prod.fst := by
  induction ms with
  | nil => simp
  | cons m ms ih =>
    rw [find_cons, List.map_cons, List.mem_cons, not_or, ← ih]
    by_cases hk : m.1 = k
    · rw [if_pos hk]
      exact iff_of_false (Option.some_ne_none _) fun h => h.1 hk.symm
    · rw [if_neg hk]
      exact (and_iff_right fun h => hk h.symm).symm

section
variable {σ : Type} {k : String} {ms : List (String × Json)}

/-- A fold in which only the member `k` does anything. -/
theorem foldlM_find {m : Type → Type} [Monad m] [LawfulMonad m] {f : σ → String × Json → m σ}
    (hother : ∀ s e, e.1 ≠ k → f s e = pure s) (hnodup : (ms.map Prod.fst).Nodup) (s : σ) :
    ms.foldlM f s =
      match find k ms with
      | some v => f s (k, v)
      | none => pure s := by
  induction ms generalizing s with
  | nil => rfl
  | cons e ms ih =>
    obtain ⟨n, v⟩ := e
    rw [List.map_cons, List.nodup_cons] at hnodup
    rw [List.foldlM_cons, find_cons]
    by_cases hn : n = k
    · subst hn
      rw [if_pos rfl]
      have hrest : ∀ s, ms.foldlM f s = pure s := by
        intro s
        rw [ih hnodup.2, find_eq_none.2 hnodup.1]
      exact (bind_congr hrest).trans (bind_pure _)
    · rw [hother s (n, v) hn, pure_bind, ih hnodup.2, if_neg hn]

/-- A part of the state that only the member `k` changes. -/
theorem proj_foldlM_find {γ : Type} (proj : σ → γ) {f : σ → String × Json → Option σ}
    (hother : ∀ s e t, e.1 ≠ k → f s e = some t → proj t = proj s)
    (hnodup : (ms.map Prod.fst).Nodup) {s t : σ} (hfold : ms.foldlM f s = some t) :
    (find k ms = none ∧ proj t = proj s) ∨
      ∃ v a b, find k ms = some v ∧ f a (k, v) = some b ∧ proj a = proj s ∧ proj t = proj b := by
  induction ms generalizing s with
  | nil => exact .inl ⟨rfl, by rw [Option.some.inj hfold]⟩
  | cons e ms ih =>
    obtain ⟨n, v⟩ := e
    rw [List.map_cons, List.nodup_cons] at hnodup
    obtain ⟨mid, hmid, hrest⟩ := Option.bind_eq_some_iff.1 ((List.foldlM_cons ..).symm.trans hfold)
    rw [find_cons]
    by_cases hn : n = k
    · subst hn
      rw [if_pos rfl]
      obtain ⟨-, hsame⟩ | ⟨w, -, -, hfind, -⟩ := ih hnodup.2 hrest
      · exact .inr ⟨v, s, mid, rfl, hmid, rfl, hsame⟩
      · rw [find_eq_none.2 hnodup.1] at hfind
        cases hfind
    · have hsame := hother s (n, v) mid hn hmid
      rw [if_neg hn, ← hsame]
      exact ih hnodup.2 hrest

theorem foldl_find {f : σ → String × Json → σ} (hother : ∀ s e, e.1 ≠ k → f s e = s)
    (hnodup : (ms.map Prod.fst).Nodup) (s : σ) :
    ms.foldl f s =
      match find k ms with
      | some v => f s (k, v)
      | none => s := by
  rw [List.foldl_eq_foldlM, foldlM_find (fun s e he => congrArg pure (hother s e he)) hnodup]
  cases find k ms <;> rfl

end

theorem find_append (k : String) (ms ms' : List (String × Json)) :
    find k (ms ++ ms') = (find k ms).or (find k ms') := by
  induction ms with
  | nil => rfl
  | cons m ms ih =>
    obtain ⟨n, v⟩ := m
    rw [List.cons_append, find_cons, find_cons, ih]
    split_ifs <;> rfl

/-- Member lists with the same names in the same order, and the same values under `k`. -/
theorem find_congr {k : String} {ms ms' : List (String × Json)}
    (h : List.Forall₂ (fun m m' => m.1 = m'.1 ∧ (m.1 = k → m.2 = m'.2)) ms ms') :
    find k ms = find k ms' := by
  induction h with
  | nil => rfl
  | @cons m m' ms ms' hm _ ih =>
    obtain ⟨n, v⟩ := m
    obtain ⟨n', v'⟩ := m'
    obtain ⟨rfl, hv⟩ : n = n' ∧ (n = k → v = v') := hm
    rw [find_cons, find_cons, ih]
    split_ifs with hn
    · rw [hv hn]
    · rfl

/-- What has been set is found. -/
theorem find_setMember (k : String) (v : Json) (ms : List (String × Json)) :
    find k (setMember k v ms) = some v := by
  induction ms with
  | nil => simp [setMember, find_cons]
  | cons m ms ih =>
    obtain ⟨n, w⟩ := m
    rw [setMember]
    split_ifs with hn
    · rw [find_cons, if_pos hn]
    · rw [find_cons, if_neg hn, ih]

/-- Setting a member leaves the set of names, apart from the one set. -/
theorem mem_keys_setMember {k n : String} {v : Json} {ms : List (String × Json)} :
    n ∈ (setMember k v ms).map Prod.fst ↔ n = k ∨ n ∈ ms.map Prod.fst := by
  induction ms with
  | nil => simp [setMember]
  | cons m ms ih =>
    obtain ⟨a, w⟩ := m
    by_cases h : a = k
    · subst h
      simp [setMember]
    · simp only [setMember, if_neg h, List.map_cons, List.mem_cons, ih]
      tauto

/-- Setting a member keeps the names distinct. -/
theorem nodup_setMember {k : String} {v : Json} {ms : List (String × Json)}
    (h : (ms.map Prod.fst).Nodup) : ((setMember k v ms).map Prod.fst).Nodup := by
  induction ms with
  | nil => simp [setMember]
  | cons m ms ih =>
    obtain ⟨a, w⟩ := m
    rw [List.map_cons, List.nodup_cons] at h
    by_cases hk : a = k
    · subst hk
      simpa [setMember] using h
    · rw [setMember, if_neg hk, List.map_cons, List.nodup_cons]
      refine ⟨fun hm => ?_, ih h.2⟩
      rcases mem_keys_setMember.1 hm with rfl | hm
      · exact hk rfl
      · exact h.1 hm

/-- The members after a member is set. -/
theorem mem_setMember {k n : String} {v w : Json} {ms : List (String × Json)}
    (h : (ms.map Prod.fst).Nodup) :
    (n, w) ∈ setMember k v ms ↔ (n = k ∧ w = v) ∨ (n ≠ k ∧ (n, w) ∈ ms) := by
  induction ms with
  | nil => simp [setMember]
  | cons m ms ih =>
    obtain ⟨a, x⟩ := m
    rw [List.map_cons, List.nodup_cons] at h
    by_cases hk : a = k
    · subst hk
      rw [setMember, if_pos rfl]
      simp only [List.mem_cons, Prod.mk.injEq]
      constructor
      · rintro (⟨rfl, rfl⟩ | hm)
        · exact .inl ⟨rfl, rfl⟩
        · refine .inr ⟨?_, .inr hm⟩
          rintro rfl
          exact h.1 (List.mem_map.2 ⟨_, hm, rfl⟩)
      · rintro (⟨rfl, rfl⟩ | ⟨hne, (⟨rfl, rfl⟩ | hm)⟩)
        · exact .inl ⟨rfl, rfl⟩
        · exact absurd rfl hne
        · exact .inr hm
    · rw [setMember, if_neg hk]
      simp only [List.mem_cons, Prod.mk.injEq, ih h.2]
      constructor
      · rintro (⟨rfl, rfl⟩ | ⟨rfl, rfl⟩ | ⟨hne, hm⟩)
        · exact .inr ⟨hk, .inl ⟨rfl, rfl⟩⟩
        · exact .inl ⟨rfl, rfl⟩
        · exact .inr ⟨hne, .inr hm⟩
      · rintro (⟨rfl, rfl⟩ | ⟨hne, (⟨rfl, rfl⟩ | hm)⟩)
        · exact .inr (.inl ⟨rfl, rfl⟩)
        · exact .inl ⟨rfl, rfl⟩
        · exact .inr (.inr ⟨hne, hm⟩)

end Json

end CcOciRuntime
