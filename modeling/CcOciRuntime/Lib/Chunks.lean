import Mathlib.Data.List.Basic
import Mathlib.Tactic.SplitIfs

/-!
# Streams that arrive in pieces

A stream that is read is a list of chunks, one for each read that gets something. A read gets at
most what it asks for, and what is left of the chunk stays for the next read; the end of the list is
the end of the stream. `fill` is the loop that reads on until it has as much as it needs, and
`fill_eq` says what it gets and what it leaves (`dropChunks`): both depend on the chunks only
through the stream, which is their concatenation.
-/

namespace CcOciRuntime

section
variable {α : Type*}

/-- One read of at most `want` elements. -/
def readSome (want : Nat) : List (List α) → Option (List α × List (List α))
  | [] => none
  | c :: cs => some (c.take want, if c.length ≤ want then cs else c.drop want :: cs)

/-- The stream once its first `n` elements have been read. -/
def dropChunks : Nat → List (List α) → List (List α)
  | 0, cs => cs
  | _ + 1, [] => []
  | n + 1, c :: cs =>
    if c.length ≤ n + 1 then dropChunks (n + 1 - c.length) cs else c.drop (n + 1) :: cs

/-- More than the reads that a stream can answer. -/
def chunkFuel (cs : List (List α)) : Nat := cs.flatten.length + cs.length + 1

/-- Reading on until `res` has `need` elements; `want` is how much is asked for when so many are
missing. The fuel bounds the number of reads. -/
def fill (want : Nat → Nat) (need : Nat) : Nat → List α → List (List α) →
    Option (List α × List (List α))
  | 0, _, _ => none
  | fuel + 1, res, cs =>
    if res.length < need then
      match readSome (want (need - res.length)) cs with
      | none => none
      | some (buf, rest) => fill want need fuel (res ++ buf) rest
    else some (res, cs)

/-! ## What is left -/

@[simp] theorem dropChunks_zero (cs : List (List α)) : dropChunks 0 cs = cs := by
  cases cs <;> rfl

@[simp] theorem dropChunks_nil (n : Nat) : dropChunks n ([] : List (List α)) = [] := by
  cases n <;> rfl

theorem dropChunks_cons_of_le {n : Nat} {c : List α} {cs : List (List α)} (hn : 0 < n)
    (h : c.length ≤ n) : dropChunks n (c :: cs) = dropChunks (n - c.length) cs := by
  obtain ⟨n, rfl⟩ := Nat.exists_eq_succ_of_ne_zero (Nat.ne_of_gt hn)
  rw [dropChunks, if_pos h]

theorem dropChunks_cons_of_lt {n : Nat} {c : List α} {cs : List (List α)} (h : n < c.length) :
    dropChunks n (c :: cs) = c.drop n :: cs := by
  cases n with
  | zero => rfl
  | succ n => rw [dropChunks, if_neg (by omega)]

/-- Dropping bytes of chunks drops them from the stream. -/
theorem flatten_dropChunks (n : Nat) (cs : List (List α)) :
    (dropChunks n cs).flatten = cs.flatten.drop n := by
  induction cs generalizing n with
  | nil => simp
  | cons c cs ih =>
    rcases Nat.eq_zero_or_pos n with rfl | hn
    · rfl
    rcases Nat.lt_or_ge n c.length with hlt | hge
    · rw [dropChunks_cons_of_lt hlt, List.flatten_cons, List.flatten_cons,
        List.drop_append_of_le_length (Nat.le_of_lt hlt)]
    · rw [dropChunks_cons_of_le hn hge, ih, List.flatten_cons, List.drop_append,
        List.drop_of_length_le hge, List.nil_append]

/-- Reading a part of a chunk first. -/
theorem dropChunks_cons_drop {m n : Nat} {c : List α} {cs : List (List α)} (hm : m < c.length)
    (hmn : m ≤ n) : dropChunks (n - m) (c.drop m :: cs) = dropChunks n (c :: cs) := by
  rcases Nat.lt_or_ge n c.length with hlt | hge
  · have hrest : n - m < (c.drop m).length := by
      rw [List.length_drop]
      omega
    rw [dropChunks_cons_of_lt hrest, dropChunks_cons_of_lt hlt, List.drop_drop]
    congr 2
    omega
  · have hrest : (c.drop m).length ≤ n - m := by
      rw [List.length_drop]
      omega
    rw [dropChunks_cons_of_le (by omega) hrest, dropChunks_cons_of_le (by omega) hge,
      List.length_drop]
    congr 1
    omega

theorem dropChunks_add (m n : Nat) (cs : List (List α)) :
    dropChunks n (dropChunks m cs) = dropChunks (m + n) cs := by
  induction cs generalizing m with
  | nil => simp
  | cons c cs ih =>
    rcases Nat.eq_zero_or_pos m with rfl | hm
    · rw [dropChunks_zero, Nat.zero_add]
    rcases Nat.lt_or_ge m c.length with hlt | hge
    · rw [dropChunks_cons_of_lt hlt, ← dropChunks_cons_drop hlt (Nat.le_add_right m n)]
      congr 1
      omega
    · rw [dropChunks_cons_of_le hm hge, ih, dropChunks_cons_of_le (by omega) (by omega)]
      congr 1
      omega

/-- No chunk is empty. -/
def NonemptyChunks (cs : List (List α)) : Prop := ∀ c ∈ cs, c ≠ []

instance [DecidableEq α] (cs : List (List α)) : Decidable (NonemptyChunks cs) :=
  inferInstanceAs (Decidable (∀ c ∈ cs, c ≠ []))

/-- No empty chunk is left behind. -/
theorem NonemptyChunks.dropChunks {cs : List (List α)} (h : NonemptyChunks cs) (n : Nat) :
    NonemptyChunks (dropChunks n cs) := by
  induction cs generalizing n with
  | nil => simpa using h
  | cons c cs ih =>
    obtain ⟨hc, hcs⟩ := List.forall_mem_cons.1 h
    rcases Nat.lt_or_ge n c.length with hlt | hge
    · rw [dropChunks_cons_of_lt hlt]
      refine List.forall_mem_cons.2 ⟨?_, hcs⟩
      rw [Ne, List.drop_eq_nil_iff]
      omega
    · have hpos := List.length_pos_iff.2 hc
      rw [dropChunks_cons_of_le (by omega) hge]
      exact ih hcs _

/-! ## Reads -/

/-- A read that gets all it asks for. -/
theorem readSome_of_le {want : Nat} {c : List α} {cs : List (List α)} (hwant : 0 < want)
    (h : want ≤ c.length) :
    readSome want (c :: cs) = some (c.take want, dropChunks want (c :: cs)) := by
  rw [readSome]
  rcases Nat.lt_or_ge want c.length with hlt | hge
  · rw [if_neg (by omega), dropChunks_cons_of_lt hlt]
  · have heq : want - c.length = 0 := by omega
    rw [if_pos hge, dropChunks_cons_of_le hwant hge, heq, dropChunks_zero]

/-- A read in the middle of a loop: what it got and what is left are still the stream, and what is
left is what remains once so much has been read. -/
theorem readSome_cons {want missing : Nat} (c : List α) (cs : List (List α)) (hwant : 0 < want)
    (hle : want ≤ missing) :
    ∃ buf rest, readSome want (c :: cs) = some (buf, rest) ∧ buf.length ≤ want ∧
      buf ++ rest.flatten = (c :: cs).flatten ∧ chunkFuel rest < chunkFuel (c :: cs) ∧
      dropChunks (missing - buf.length) rest = dropChunks missing (c :: cs) := by
  refine ⟨c.take want, if c.length ≤ want then cs else c.drop want :: cs, rfl,
    List.length_take_le want c, ?_⟩
  rcases Nat.lt_or_ge want c.length with hlt | hge
  · rw [if_neg (by omega), List.length_take_of_le (Nat.le_of_lt hlt)]
    refine ⟨?_, ?_, dropChunks_cons_drop hlt hle⟩
    · rw [List.flatten_cons, List.flatten_cons, ← List.append_assoc, List.take_append_drop]
    · simp only [chunkFuel, List.flatten_cons, List.length_append, List.length_cons,
        List.length_drop]
      omega
  · rw [if_pos hge, List.take_of_length_le hge]
    refine ⟨rfl, ?_, (dropChunks_cons_of_le (by omega) (by omega)).symm⟩
    simp only [chunkFuel, List.flatten_cons, List.length_append, List.length_cons]
    omega

/-- The same for a stream without empty chunks: the read gets something, and leaves such a
stream. -/
theorem NonemptyChunks.readSome_cons {want missing : Nat} {c : List α} {cs : List (List α)}
    (h : NonemptyChunks (c :: cs)) (hwant : 0 < want) (hle : want ≤ missing) :
    ∃ b bs rest, readSome want (c :: cs) = some (b :: bs, rest) ∧ NonemptyChunks rest ∧
      (b :: bs).length ≤ want ∧ b :: bs ++ rest.flatten = (c :: cs).flatten ∧
      chunkFuel rest < chunkFuel (c :: cs) ∧
      CcOciRuntime.dropChunks (missing - (b :: bs).length) rest =
        CcOciRuntime.dropChunks missing (c :: cs) := by
  obtain ⟨hc, hcs⟩ := List.forall_mem_cons.1 h
  obtain ⟨b, c, rfl⟩ := List.exists_cons_of_ne_nil hc
  obtain ⟨want, rfl⟩ := Nat.exists_eq_succ_of_ne_zero (Nat.ne_of_gt hwant)
  obtain ⟨buf, rest, hread, hrest⟩ := CcOciRuntime.readSome_cons (b :: c) cs hwant hle
  obtain ⟨rfl, rfl⟩ := Prod.mk.inj (Option.some.inj hread)
  refine ⟨b, c.take want, _, rfl, ?_, hrest⟩
  split_ifs with hshort
  · exact hcs
  · refine List.forall_mem_cons.2 ⟨?_, hcs⟩
    rw [Ne, List.drop_eq_nil_iff]
    exact hshort

/-- A single read, which gets nothing at the end of the stream. -/
theorem readSome_getD {want : Nat} {cs rest : List (List α)} {buf : List α}
    (h : (readSome want cs).getD ([], []) = (buf, rest)) :
    buf ++ rest.flatten = cs.flatten ∧ buf.length ≤ want := by
  cases cs with
  | nil =>
    obtain ⟨rfl, rfl⟩ := Prod.mk.inj h
    exact ⟨rfl, Nat.zero_le want⟩
  | cons c cs =>
    obtain ⟨rfl, rfl⟩ := Prod.mk.inj h
    refine ⟨?_, List.length_take_le want c⟩
    split_ifs with hle
    · rw [List.take_of_length_le hle, List.flatten_cons]
    · rw [List.flatten_cons, List.flatten_cons, ← List.append_assoc, List.take_append_drop]

/-- A read leaves no empty chunk. -/
theorem NonemptyChunks.of_readSome {want : Nat} {cs rest : List (List α)} {buf : List α}
    (h : NonemptyChunks cs) (hread : (readSome want cs).getD ([], []) = (buf, rest)) :
    NonemptyChunks rest := by
  cases cs with
  | nil =>
    obtain ⟨-, rfl⟩ := Prod.mk.inj hread
    exact h
  | cons c cs =>
    obtain ⟨-, rfl⟩ := Prod.mk.inj hread
    obtain ⟨-, hcs⟩ := List.forall_mem_cons.1 h
    split_ifs with hle
    · exact hcs
    · refine List.forall_mem_cons.2 ⟨?_, hcs⟩
      rw [Ne, List.drop_eq_nil_iff]
      exact hle

/-- A read returns something before the end. -/
theorem NonemptyChunks.readSome_ne_nil {want : Nat} {cs rest : List (List α)} {buf : List α}
    (h : NonemptyChunks cs) (hwant : 0 < want) (hcs : cs ≠ [])
    (hread : (readSome want cs).getD ([], []) = (buf, rest)) : buf ≠ [] := by
  cases cs with
  | nil => exact absurd rfl hcs
  | cons c cs =>
    obtain ⟨rfl, -⟩ := Prod.mk.inj hread
    rw [Ne, List.take_eq_nil_iff, not_or]
    exact ⟨Nat.ne_of_gt hwant, h c List.mem_cons_self⟩

theorem readSome_eq_of_getD {want : Nat} {cs rest : List (List α)} {buf : List α}
    (hread : (readSome want cs).getD ([], []) = (buf, rest)) (hbuf : buf ≠ []) :
    readSome want cs = some (buf, rest) := by
  cases cs with
  | nil => exact absurd (Prod.mk.inj hread).1.symm hbuf
  | cons c cs => exact congrArg some hread

theorem NonemptyChunks.eq_nil {cs : List (List α)} (h : NonemptyChunks cs)
    (hflatten : cs.flatten = []) : cs = [] := by
  cases cs with
  | nil => rfl
  | cons c cs =>
    rw [List.flatten_cons, List.append_eq_nil_iff] at hflatten
    exact absurd hflatten.1 (h c List.mem_cons_self)

/-- A read that leaves nothing. -/
theorem readSome_eq_last {want : Nat} {cs : List (List α)} {buf : List α} :
    readSome want cs = some (buf, []) ↔ cs = [buf] ∧ buf.length ≤ want := by
  cases cs with
  | nil => simp [readSome]
  | cons c cs =>
    rw [readSome, Option.some.injEq, Prod.mk.injEq]
    constructor
    · rintro ⟨rfl, hrest⟩
      split_ifs at hrest with hle
      subst hrest
      rw [List.take_of_length_le hle]
      exact ⟨rfl, hle⟩
    · rintro ⟨hcs, hle⟩
      obtain ⟨rfl, rfl⟩ := List.cons.inj hcs
      exact ⟨List.take_of_length_le hle, if_pos hle⟩

/-- A read that gets all it asks for and leaves one chunk. -/
theorem readSome_eq_front {cs : List (List α)} {buf rest : List α} (hrest : rest ≠ []) :
    readSome buf.length cs = some (buf, [rest]) ↔ cs = [buf, rest] ∨ cs = [buf ++ rest] := by
  have hlong : ¬ (buf ++ rest).length ≤ buf.length := by
    have := List.length_pos_iff.2 hrest
    rw [List.length_append]
    omega
  constructor
  · intro h
    cases cs with
    | nil => cases h
    | cons c cs =>
      rw [readSome, Option.some.injEq, Prod.mk.injEq] at h
      obtain ⟨hbuf, hcs⟩ := h
      split_ifs at hcs with hle
      · rw [List.take_of_length_le hle] at hbuf
        exact .inl (by rw [hbuf, hcs])
      · obtain ⟨hdrop, rfl⟩ := List.cons.inj hcs
        have hc : c = buf ++ rest := by rw [← List.take_append_drop buf.length c, hbuf, hdrop]
        exact .inr (by rw [hc])
  · rintro (rfl | rfl)
    · rw [readSome, List.take_length, if_pos (Nat.le_refl _)]
    · rw [readSome, List.take_left' rfl, if_neg hlong, List.drop_left' rfl]

/-- What is asked for is something, and no more than is missing. -/
def Modest (want : Nat → Nat) : Prop := ∀ n, 0 < n → 0 < want n ∧ want n ≤ n

theorem modest_id : Modest id := fun n hn => ⟨hn, Nat.le_refl n⟩

/-- **Reading on** takes as much of the stream as is needed off its front, or fails because the
stream is too short. The induction is on the fuel; what has been read and the chunks that are left
stay the stream. -/
theorem fill_eq {want : Nat → Nat} (hwant : Modest want) {need : Nat} :
    ∀ {fuel : Nat} {res : List α} {cs : List (List α)}, chunkFuel cs ≤ fuel →
    res.length ≤ need → fill want need fuel res cs =
      if (res ++ cs.flatten).length < need then none
      else some ((res ++ cs.flatten).take need, dropChunks (need - res.length) cs) := by
  intro fuel
  induction fuel with
  | zero =>
    intro res cs hfuel
    exact absurd hfuel (by simp [chunkFuel])
  | succ fuel ih =>
    intro res cs hfuel hres
    rw [fill]
    by_cases hlt : res.length < need
    · rw [if_pos hlt]
      cases cs with
      | nil =>
        rw [List.flatten_nil, List.append_nil, if_pos hlt]
        rfl
      | cons c cs =>
        obtain ⟨hpos, hle⟩ := hwant (need - res.length) (by omega)
        obtain ⟨buf, rest, hread, hbuf, hstream, hless, hrest⟩ :=
          readSome_cons c cs hpos hle
        rw [hread]
        dsimp only
        have hlen : (res ++ buf).length = res.length + buf.length := List.length_append
        rw [ih (by omega) (by omega), List.append_assoc, hstream, hlen, Nat.sub_add_eq, hrest]
    · have heq : need = res.length := by omega
      have hlong : ¬ (res ++ cs.flatten).length < need := by
        rw [List.length_append]
        omega
      rw [if_neg hlt, if_neg hlong, heq, List.take_left' rfl, Nat.sub_self, dropChunks_zero]

end

end CcOciRuntime
