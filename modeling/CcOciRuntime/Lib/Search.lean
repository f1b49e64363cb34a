import Mathlib.Data.List.Infix
import Mathlib.Data.Nat.Find

/-!
# Searching a text

The first place where a pattern occurs in a text, and the pieces of a stream in which every piece is
ended by a separator. `pieces` takes the pieces off the front of a stream one after the other; what
it finds does not depend on how much of the stream has arrived when it is called
(`pieces_append`), and it gives back what has been written (`pieces_flatMap`).
-/

namespace CcOciRuntime

section
variable {α : Type*} [BEq α] {sep pat text before after piece rest : List α} {fuel : Nat}

/-- `pieces` with a bound on their number. -/
def piecesFuel (sep : List α) : Nat → List α → List (List α) × List α
  | 0, text => ([], text)
  | fuel + 1, text =>
    match text.dropInfix? sep with
    | none => ([], text)
    | some (piece, rest) =>
      let r := piecesFuel sep fuel rest
      (piece :: r.1, r.2)

/-- The pieces at the front of a text that are ended by a separator, and what follows them. -/
def pieces (sep text : List α) : List (List α) × List α := piecesFuel sep text.length text

theorem piecesFuel_of_none (h : text.dropInfix? sep = none) (fuel : Nat) :
    piecesFuel sep fuel text = ([], text) := by
  cases fuel with
  | zero => rfl
  | succ fuel => rw [piecesFuel, h]

theorem piecesFuel_of_some (h : text.dropInfix? sep = some (piece, rest)) (fuel : Nat) :
    piecesFuel sep (fuel + 1) text =
      (piece :: (piecesFuel sep fuel rest).1, (piecesFuel sep fuel rest).2) := by
  rw [piecesFuel, h]

theorem pieces_of_none (h : text.dropInfix? sep = none) : pieces sep text = ([], text) :=
  piecesFuel_of_none h _

/-! ## The first place -/

variable [LawfulBEq α]

/-- A text is cut at the first occurrence of a pattern. -/
theorem dropInfix?_eq_some : text.dropInfix? pat = some (before, after) ↔
    text = before ++ pat ++ after ∧
      ∀ before' after', text = before' ++ pat ++ after' → before.length ≤ before'.length := by
  rw [List.dropInfix?_eq_some_iff]
  constructor
  · rintro ⟨⟨pat', htext, heq⟩, hfirst⟩
    obtain rfl := eq_of_beq heq
    exact ⟨htext, fun before' after' h => hfirst before' _ after' h (beq_self_eq_true _)⟩
  · rintro ⟨htext, hfirst⟩
    refine ⟨⟨pat, htext, beq_self_eq_true _⟩, fun before' pat' after' h heq => ?_⟩
    obtain rfl := eq_of_beq heq
    exact hfirst before' after' h

/-- A pattern that occurs has a first place. -/
theorem exists_dropInfix? (h : pat <:+: text) :
    ∃ before after, text.dropInfix? pat = some (before, after) := by
  have hsome : ∃ n before after, text = before ++ pat ++ after ∧ before.length = n := by
    obtain ⟨before, after, htext⟩ := h
    exact ⟨_, before, after, htext.symm, rfl⟩
  classical
  obtain ⟨before, after, htext, hlen⟩ := Nat.find_spec hsome
  refine ⟨before, after, dropInfix?_eq_some.2 ⟨htext, fun before' after' h' => ?_⟩⟩
  rw [hlen]
  exact Nat.find_min' hsome ⟨before', after', h', rfl⟩

theorem dropInfix?_eq_none : text.dropInfix? pat = none ↔ ¬ pat <:+: text := by
  constructor
  · intro h hpat
    obtain ⟨before, after, hsome⟩ := exists_dropInfix? hpat
    rw [h] at hsome
    cases hsome
  · intro h
    cases hcut : text.dropInfix? pat with
    | none => rfl
    | some r =>
      obtain ⟨before, after⟩ := r
      obtain ⟨htext, -⟩ := dropInfix?_eq_some.1 hcut
      exact absurd ⟨before, after, htext.symm⟩ h

/-- The first place stays the first when the text goes on. -/
theorem dropInfix?_append (h : text.dropInfix? pat = some (before, after)) (more : List α) :
    (text ++ more).dropInfix? pat = some (before, after ++ more) := by
  obtain ⟨htext, hfirst⟩ := dropInfix?_eq_some.1 h
  refine dropInfix?_eq_some.2 ⟨by rw [htext, List.append_assoc], fun before' after' h' => ?_⟩
  by_contra hlt
  -- an earlier occurrence would end before the text does
  have hle : (before' ++ pat).length ≤ text.length := by
    rw [htext, List.length_append, List.length_append, List.length_append]
    omega
  have hpre : before' ++ pat <+: text :=
    List.prefix_of_prefix_length_le ⟨after', h'.symm⟩ ⟨more, rfl⟩ hle
  obtain ⟨rest, hrest⟩ := hpre
  exact hlt (hfirst before' rest hrest.symm)

/-- A text is cut at the first of the elements that are looked for. -/
theorem dropInfix?_singleton {x : α} (h : x ∉ before) :
    (before ++ x :: after).dropInfix? [x] = some (before, after) := by
  refine dropInfix?_eq_some.2 ⟨by rw [List.append_assoc, List.singleton_append], ?_⟩
  intro before' after' h'
  by_contra hlt
  have hle : (before' ++ [x]).length ≤ before.length := by
    rw [List.length_append, List.length_singleton]
    omega
  have hpre : before' ++ [x] <+: before :=
    List.prefix_of_prefix_length_le ⟨after', h'.symm⟩ (List.prefix_append _ _) hle
  exact h (hpre.subset (List.mem_append_right _ List.mem_cons_self))

/-- Two texts that are equal are cut at the same place. -/
theorem append_cons_inj {x : α} {before' after' : List α} (h : x ∉ before) (h' : x ∉ before')
    (heq : before ++ x :: after = before' ++ x :: after') : before = before' ∧ after = after' := by
  have hcut := congrArg (List.dropInfix? · [x]) heq
  rw [dropInfix?_singleton h, dropInfix?_singleton h'] at hcut
  exact Prod.mk.inj (Option.some.inj hcut)

/-! ## Pieces -/

theorem length_lt_of_dropInfix? (hsep : sep ≠ []) (h : text.dropInfix? sep = some (piece, rest)) :
    rest.length < text.length := by
  have hpos := List.length_pos_iff.2 hsep
  rw [(dropInfix?_eq_some.1 h).1, List.length_append, List.length_append]
  omega

/-- Enough fuel is as good as more. -/
theorem piecesFuel_eq_pieces (hsep : sep ≠ []) (h : text.length ≤ fuel) :
    piecesFuel sep fuel text = pieces sep text := by
  suffices haux : ∀ n m text, text.length ≤ n → text.length ≤ m →
      piecesFuel sep n text = piecesFuel sep m text from haux _ _ _ h (Nat.le_refl _)
  intro n
  induction n with
  | zero =>
    intro m text hn _
    obtain rfl := List.length_eq_zero_iff.1 (Nat.le_zero.1 hn)
    have hnone : ([] : List α).dropInfix? sep = none :=
      dropInfix?_eq_none.2 fun hpat => hsep (List.infix_nil.1 hpat)
    rw [piecesFuel_of_none hnone, piecesFuel_of_none hnone]
  | succ n ih =>
    intro m text hn hm
    cases hcut : text.dropInfix? sep with
    | none => rw [piecesFuel_of_none hcut, piecesFuel_of_none hcut]
    | some r =>
      obtain ⟨piece, rest⟩ := r
      have hlt := length_lt_of_dropInfix? hsep hcut
      obtain ⟨m, rfl⟩ := Nat.exists_eq_succ_of_ne_zero (Nat.ne_of_gt (by omega : 0 < m))
      rw [piecesFuel_of_some hcut, piecesFuel_of_some hcut, ih m rest (by omega) (by omega)]

theorem pieces_of_some (hsep : sep ≠ []) (h : text.dropInfix? sep = some (piece, rest)) :
    pieces sep text = (piece :: (pieces sep rest).1, (pieces sep rest).2) := by
  have hlt := length_lt_of_dropInfix? hsep h
  rw [← piecesFuel_eq_pieces hsep (Nat.le_succ text.length), piecesFuel_of_some h,
    piecesFuel_eq_pieces hsep (Nat.le_of_lt hlt)]

/-- **The stream goes on.** The pieces of a longer stream are those of the first part, and then
those of what is left of it with the rest. -/
theorem pieces_append (hsep : sep ≠ []) (text more : List α) :
    pieces sep (text ++ more) =
      ((pieces sep text).1 ++ (pieces sep ((pieces sep text).2 ++ more)).1,
        (pieces sep ((pieces sep text).2 ++ more)).2) := by
  induction hlen : text.length using Nat.strongRecOn generalizing text with
  | ind n ih =>
    cases hcut : text.dropInfix? sep with
    | none => rw [pieces_of_none hcut, List.nil_append]
    | some r =>
      obtain ⟨piece, rest⟩ := r
      have hlt := length_lt_of_dropInfix? hsep hcut
      have hrest := ih rest.length (hlen ▸ hlt) rest rfl
      rw [pieces_of_some hsep hcut, pieces_of_some hsep (dropInfix?_append hcut more), hrest]
      rfl

/-- The pieces and their separators are the stream. -/
theorem flatMap_pieces (hsep : sep ≠ []) (text : List α) :
    (pieces sep text).1.flatMap (· ++ sep) ++ (pieces sep text).2 = text := by
  induction hlen : text.length using Nat.strongRecOn generalizing text with
  | ind n ih =>
    cases hcut : text.dropInfix? sep with
    | none => rw [pieces_of_none hcut, List.flatMap_nil, List.nil_append]
    | some r =>
      obtain ⟨piece, rest⟩ := r
      have hlt := length_lt_of_dropInfix? hsep hcut
      have hrest := ih rest.length (hlen ▸ hlt) rest rfl
      rw [pieces_of_some hsep hcut, List.flatMap_cons, List.append_assoc, hrest,
        ← (dropInfix?_eq_some.1 hcut).1]

/-- There is no piece left in what follows the pieces. -/
theorem pieces_rest (hsep : sep ≠ []) (text : List α) :
    pieces sep (pieces sep text).2 = ([], (pieces sep text).2) := by
  have h := pieces_append hsep text []
  rw [List.append_nil, List.append_nil] at h
  have hfst := congrArg Prod.fst h
  have hsnd := congrArg Prod.snd h
  exact Prod.ext (List.self_eq_append_right.1 hfst) hsnd.symm

theorem mem_of_mem_pieces_snd (hsep : sep ≠ []) {x : α} (h : x ∈ (pieces sep text).2) :
    x ∈ text := by
  rw [← flatMap_pieces hsep text]
  exact List.mem_append_right _ h

/-- **What was written is found**, if each piece with its separator has the separator at its end
only. -/
theorem pieces_flatMap (hsep : sep ≠ []) {ms : List (List α)}
    (hms : ∀ m ∈ ms, (m ++ sep).dropInfix? sep = some (m, [])) :
    pieces sep (ms.flatMap (· ++ sep)) = (ms, []) := by
  induction ms with
  | nil =>
    refine pieces_of_none (dropInfix?_eq_none.2 fun hpat => hsep ?_)
    exact List.infix_nil.1 hpat
  | cons m ms ih =>
    obtain ⟨hm, hms⟩ := List.forall_mem_cons.1 hms
    rw [List.flatMap_cons, pieces_of_some hsep (dropInfix?_append hm _), List.nil_append, ih hms]

end

end CcOciRuntime
