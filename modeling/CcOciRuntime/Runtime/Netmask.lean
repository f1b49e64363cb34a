import CcOciRuntime.Lib.Bits
import Mathlib.Algebra.Ring.Nat
import Mathlib.Tactic.SplitIfs

/-!
# The length of a netmask

The length of the prefix that a netmask stands for is counted in full bytes and then in the bits of
the first other byte, and what follows must be zero. The loops over the bits stop before the last
one, so a one there is not seen, and the count has 32 bits. `prefixLen_iff` says for which strings
the result is the number of ones of a mask, and zero where there is none.

Reference: `prefix` (`src/networking.c:328`), `subnet_to_prefix` (`src/networking.c:373`).
-/

namespace CcOciRuntime

namespace Runtime

/-- The full bytes at the front, and what follows them. Reference: `src/networking.c:333-337`. -/
def skipFull : UInt32 → List UInt8 → UInt32 × List UInt8
  | plen, [] => (plen, [])
  | plen, b :: bs => if b = 255 then skipFull (plen + 8) bs else (plen, b :: bs)

/-- The ones of a byte from the bit `bit` down to the bit 1, with the bit at which the loop stops.
Reference: `src/networking.c:343-347`. -/
def countOnes (b : UInt8) : Nat → UInt32 → Nat × UInt32
  | 0, plen => (0, plen)
  | bit + 1, plen =>
    if b.toNat.testBit (bit + 1) then countOnes b bit (plen + 1) else (bit + 1, plen)

/-- A one in a byte from the bit `bit` down to the bit 1. Reference: `src/networking.c:350-354`. -/
def anyOne (b : UInt8) : Nat → Bool
  | 0 => false
  | bit + 1 => b.toNat.testBit (bit + 1) || anyOne b bit

/-- The size of the string is its length. Reference: `prefix` (`src/networking.c:328`). -/
def prefixLen (val : List UInt8) : UInt32 :=
  match skipFull 0 val with
  | (plen, []) => plen
  | (plen, b :: bs) =>
    let r := countOnes b 7 plen
    if anyOne b r.1 then 0
    else if bs.any (· ≠ 0) then 0
    else r.2

/-- A byte with `j` ones from the top, then zeros, and a one in the last bit. -/
def looseByte (j : Nat) : UInt8 := UInt8.ofNat (257 - 2 ^ (8 - j))

/-- A string that is a mask of `8 * n + j` ones but for one bit, the last one of the first byte that
is not full. -/
def LooseMask (val : List UInt8) (n j : Nat) : Prop :=
  j < 7 ∧ ∃ zeros, (∀ c ∈ zeros, c = 0) ∧ val = List.replicate n 255 ++ looseByte j :: zeros

/-! ## The loops -/

/-- Full bytes count eight each. -/
theorem skipFull_eq (plen : UInt32) (n : Nat) {rest : List UInt8}
    (hrest : rest.head? ≠ some 255) :
    skipFull plen (List.replicate n 255 ++ rest) = (plen + UInt32.ofNat (8 * n), rest) := by
  induction n generalizing plen with
  | zero =>
    have hzero : plen + UInt32.ofNat (8 * 0) = plen := UInt32.add_zero plen
    rw [hzero, List.replicate_zero, List.nil_append]
    cases rest with
    | nil => rfl
    | cons b bs => rw [skipFull, if_neg fun hb => hrest (congrArg some hb)]
  | succ n ih =>
    rw [List.replicate_succ, List.cons_append, skipFull, if_pos rfl, ih, UInt32.add_assoc]
    congr 2
    apply UInt32.toNat_inj.1
    simp only [UInt32.toNat_add, UInt32.toNat_ofNat', UInt32.reduceToNat]
    omega

/-- The count goes on from where it was. -/
theorem countOnes_add (b : UInt8) (bit : Nat) (plen : UInt32) :
    countOnes b bit plen = ((countOnes b bit 0).1, plen + (countOnes b bit 0).2) := by
  induction bit generalizing plen with
  | zero => rw [countOnes, countOnes, UInt32.add_zero]
  | succ bit ih =>
    rw [countOnes, countOnes]
    split_ifs
    · rw [ih, ih (0 + 1), UInt32.zero_add, UInt32.add_assoc]
    · rw [UInt32.add_zero]

/-- The ones that are counted in a byte. -/
def ones (b : UInt8) : Nat := (countOnes b 7 0).2.toNat

/-- A byte after whose ones no other one is seen. -/
def SeenMask (b : UInt8) : Prop := anyOne b (countOnes b 7 0).1 = false

instance (b : UInt8) : Decidable (SeenMask b) := inferInstanceAs (Decidable (_ = _))

/-- A byte whose last bit is not seen. -/
def IsLoose (b : UInt8) : Prop := ones b < 7 ∧ b = looseByte (ones b)

instance (b : UInt8) : Decidable (IsLoose b) := inferInstanceAs (Decidable (_ ∧ _))

/-- A byte that is not full is seen as a mask exactly if it is one, or a loose one. -/
theorem seenMask_iff (b : UInt8) : b ≠ 255 → (SeenMask b ↔ IsMaskByte b (ones b) ∨ IsLoose b) :=
  forall_byte (P := fun b => b ≠ 255 → (SeenMask b ↔ IsMaskByte b (ones b) ∨ IsLoose b))
    (by decide +kernel) b

/-- The ones of a mask are counted. -/
theorem ones_of_isMaskByte (b : UInt8) : ∀ k < 8, IsMaskByte b k → ones b = k :=
  forall_byte (P := fun b => ∀ k < 8, IsMaskByte b k → ones b = k) (by decide +kernel) b

theorem ones_looseByte : ∀ j < 7, ones (looseByte j) = j := by decide +kernel

theorem ones_lt (b : UInt8) : ones b < 8 :=
  forall_byte (P := fun b => ones b < 8) (by decide +kernel) b

/-- A loose mask is none. -/
theorem not_isLoose_of_isMaskByte (b : UInt8) : IsMaskByte b (ones b) → ¬ IsLoose b :=
  forall_byte (P := fun b => IsMaskByte b (ones b) → ¬ IsLoose b) (by decide +kernel) b

theorem looseByte_ne_full : ∀ j < 7, looseByte j ≠ 255 := by decide +kernel

theorem prefixLen_full (n : Nat) : prefixLen (List.replicate n 255) = UInt32.ofNat (8 * n) := by
  have hskip := skipFull_eq 0 n (show ([] : List UInt8).head? ≠ some 255 by simp)
  rw [List.append_nil, UInt32.zero_add] at hskip
  rw [prefixLen, hskip]

section
variable {b : UInt8} {bs : List UInt8} (hb : b ≠ 255)
include hb

/-- The loops over a string with a byte that is not full, after `n` full ones. -/
theorem prefixLen_cons (n : Nat) : prefixLen (List.replicate n 255 ++ b :: bs) =
    if anyOne b (countOnes b 7 0).1 then 0 else if bs.any (· ≠ 0) then 0
      else UInt32.ofNat (8 * n) + (countOnes b 7 0).2 := by
  have hhead : (b :: bs).head? ≠ some 255 := fun h => hb (Option.some.inj h)
  rw [prefixLen, skipFull_eq 0 n hhead, UInt32.zero_add]
  dsimp only
  rw [countOnes_add]

/-- No other one is seen after the ones that are counted. -/
theorem prefixLen_of_seen (n : Nat) (hseen : SeenMask b) (hzeros : ∀ c ∈ bs, c = 0) :
    prefixLen (List.replicate n 255 ++ b :: bs) = UInt32.ofNat (8 * n + ones b) := by
  have hany : ¬ anyOne b (countOnes b 7 0).1 = true := by rw [hseen]; exact Bool.false_ne_true
  have hnone : ¬ bs.any (fun c => decide (c ≠ 0)) = true := by simpa using hzeros
  rw [prefixLen_cons hb, if_neg hany, if_neg hnone, UInt32.ofNat_add]
  exact congrArg (UInt32.ofNat (8 * n) + ·) UInt32.ofNat_toNat.symm

/-- A mask that is not seen as one has length zero. -/
theorem prefixLen_of_not_seen (n : Nat) (h : ¬ (SeenMask b ∧ ∀ c ∈ bs, c = 0)) :
    prefixLen (List.replicate n 255 ++ b :: bs) = 0 := by
  rw [prefixLen_cons hb]
  split_ifs with hany hsome
  · rfl
  · rfl
  · have hseen : SeenMask b := Bool.eq_false_iff.2 hany
    exact absurd ⟨hseen, by simpa using hsome⟩ h

end

/-! ## The length -/

/-- A string is full, or it has a first byte that is not. -/
theorem exists_replicate_full (val : List UInt8) :
    (∃ n, val = List.replicate n 255) ∨
      ∃ n b bs, b ≠ 255 ∧ val = List.replicate n 255 ++ b :: bs := by
  induction val with
  | nil => exact .inl ⟨0, rfl⟩
  | cons a val ih =>
    by_cases ha : a = 255
    · subst ha
      obtain ⟨n, rfl⟩ | ⟨n, b, bs, hb, rfl⟩ := ih
      · exact .inl ⟨n + 1, rfl⟩
      · exact .inr ⟨n + 1, b, bs, hb, rfl⟩
    · exact .inr ⟨0, a, val, ha, rfl⟩

/-- The first byte that is not full is in one place. -/
theorem replicate_append_cons_inj {n m : Nat} {b c : UInt8} {bs cs : List UInt8} (hb : b ≠ 255)
    (hc : c ≠ 255)
    (h : List.replicate n 255 ++ b :: bs = List.replicate m 255 ++ c :: cs) :
    n = m ∧ b = c ∧ bs = cs := by
  induction n generalizing m with
  | zero =>
    cases m with
    | zero =>
      obtain ⟨rfl, rfl⟩ := List.cons.inj h
      exact ⟨rfl, rfl, rfl⟩
    | succ m => exact absurd (List.cons.inj h).1 hb
  | succ n ih =>
    cases m with
    | zero => exact absurd (List.cons.inj h).1.symm hc
    | succ m =>
      obtain ⟨rfl, hrest⟩ := ih (List.cons.inj h).2
      exact ⟨rfl, hrest⟩

/-- Full bytes are no loose mask. -/
theorem not_looseMask_full (n m j : Nat) : ¬ LooseMask (List.replicate n 255) m j := by
  rintro ⟨hj, zeros, -, heq⟩
  have hmem : looseByte j ∈ List.replicate n 255 := by
    rw [heq]
    exact List.mem_append_right _ List.mem_cons_self
  exact looseByte_ne_full j hj (List.eq_of_mem_replicate hmem)

/-- The only mask that a string with a byte that is not full can be. -/
theorem isMask_append_cons {n k : Nat} {b : UInt8} (hb : b ≠ 255) {bs : List UInt8} :
    IsMask (List.replicate n 255 ++ b :: bs) k ↔
      k = 8 * n + ones b ∧ IsMaskByte b (ones b) ∧ ∀ c ∈ bs, c = 0 := by
  rw [isMask_replicate_append]
  constructor
  · rintro ⟨j, rfl, hj⟩
    obtain ⟨hlt, hbyte, hzeros⟩ := (isMask_cons hb).1 hj
    rw [ones_of_isMaskByte b j hlt hbyte]
    exact ⟨rfl, hbyte, hzeros⟩
  · rintro ⟨rfl, hbyte, hzeros⟩
    exact ⟨ones b, rfl, (isMask_cons hb).2 ⟨ones_lt b, hbyte, hzeros⟩⟩

/-- The only loose mask that it can be. -/
theorem looseMask_append_cons {n m j : Nat} {b : UInt8} (hb : b ≠ 255) {bs : List UInt8} :
    LooseMask (List.replicate n 255 ++ b :: bs) m j ↔
      m = n ∧ j = ones b ∧ IsLoose b ∧ ∀ c ∈ bs, c = 0 := by
  constructor
  · rintro ⟨hj, zeros, hzeros, heq⟩
    obtain ⟨rfl, rfl, rfl⟩ := replicate_append_cons_inj hb (looseByte_ne_full j hj) heq
    have hones := ones_looseByte j hj
    exact ⟨rfl, hones.symm, ⟨hones.symm ▸ hj, congrArg looseByte hones.symm⟩, hzeros⟩
  · rintro ⟨rfl, rfl, ⟨hj, heq⟩, hzeros⟩
    exact ⟨hj, bs, hzeros, by rw [← heq]⟩

/-- The length of a prefix is right for a string: the number of ones of a mask, and zero for a
string that is none. -/
def LengthRight (val : List UInt8) : Prop :=
  (∀ k, IsMask val k → (prefixLen val).toNat = k) ∧ ((∀ k, ¬ IsMask val k) → prefixLen val = 0)

theorem isMask_full {n k : Nat} : IsMask (List.replicate n 255) k ↔ k = 8 * n := by
  rw [← List.append_nil (List.replicate n 255), isMask_replicate_append]
  simp only [isMask_nil, exists_eq_right, Nat.add_zero]

/-- A mask of full bytes only. -/
theorem lengthRight_full (n : Nat) :
    LengthRight (List.replicate n 255) ↔ 8 * n < 2 ^ 32 := by
  rw [LengthRight, prefixLen_full, UInt32.toNat_ofNat']
  constructor
  · rintro ⟨h, -⟩
    have hcount := h (8 * n) (isMask_full.2 rfl)
    omega
  · intro hlt
    refine ⟨fun k hk => ?_, fun h => absurd (isMask_full.2 rfl) (h (8 * n))⟩
    rw [isMask_full.1 hk]
    omega

theorem ofNat_eq_zero_iff {m : Nat} : UInt32.ofNat m = 0 ↔ m % 2 ^ 32 = 0 := by
  rw [← UInt32.toNat_inj, UInt32.toNat_ofNat']
  rfl

/-- A mask with a byte behind the full ones. -/
theorem lengthRight_cons {n : Nat} {b : UInt8} (hb : b ≠ 255) {bs : List UInt8} :
    LengthRight (List.replicate n 255 ++ b :: bs) ↔ ((∀ c ∈ bs, c = 0) →
      (IsMaskByte b (ones b) → 8 * n + ones b < 2 ^ 32) ∧
        (IsLoose b → (8 * n + ones b) % 2 ^ 32 = 0)) := by
  have hseen := seenMask_iff b hb
  simp only [LengthRight, isMask_append_cons hb]
  by_cases hzeros : ∀ c ∈ bs, c = 0
  · by_cases hbyte : IsMaskByte b (ones b)
    · -- a mask, whose length is counted unless it overflows
      have hnot := not_isLoose_of_isMaskByte b hbyte
      rw [prefixLen_of_seen hb n (hseen.2 (.inl hbyte)) hzeros, UInt32.toNat_ofNat']
      constructor
      · rintro ⟨h, -⟩ -
        have hcount := h _ ⟨rfl, hbyte, hzeros⟩
        exact ⟨fun _ => by omega, fun hloose => absurd hloose hnot⟩
      · intro h
        have hlt := (h hzeros).1 hbyte
        refine ⟨?_, fun hno => absurd ⟨rfl, hbyte, hzeros⟩ (hno _)⟩
        rintro k ⟨rfl, -⟩
        omega
    · by_cases hloose : IsLoose b
      · -- no mask, and the count is not zero unless it overflows
        rw [prefixLen_of_seen hb n (hseen.2 (.inr hloose)) hzeros, ofNat_eq_zero_iff]
        constructor
        · rintro ⟨-, h⟩ -
          exact ⟨fun hmask => absurd hmask hbyte, fun _ => h fun k hk => hbyte hk.2.1⟩
        · exact fun h => ⟨fun k hk => absurd hk.2.1 hbyte, fun _ => (h hzeros).2 hloose⟩
      · rw [prefixLen_of_not_seen hb n fun h => (hseen.1 h.1).elim hbyte hloose]
        exact iff_of_true ⟨fun k h => absurd h.2.1 hbyte, fun _ => rfl⟩
          fun _ => ⟨fun h => absurd h hbyte, fun h => absurd h hloose⟩
  · rw [prefixLen_of_not_seen hb n fun h => hzeros h.2]
    exact iff_of_true ⟨fun k h => absurd h.2.2 hzeros, fun _ => rfl⟩ fun h => absurd h hzeros

/-- **The length of a netmask** is right exactly if a mask has fewer than `2 ^ 32` ones, and the
string is not loosely one, with a number of ones that the count does not lose. -/
theorem prefixLen_iff (val : List UInt8) :
    LengthRight val ↔ (∀ k, IsMask val k → k < 2 ^ 32) ∧
      ∀ n j, LooseMask val n j → (8 * n + j) % 2 ^ 32 = 0 := by
  obtain ⟨n, rfl⟩ | ⟨n, b, bs, hb, rfl⟩ := exists_replicate_full val
  · rw [lengthRight_full]
    refine ⟨fun h => ⟨fun k hk => ?_, fun m j h => absurd h (not_looseMask_full n m j)⟩,
      fun h => h.1 _ (isMask_full.2 rfl)⟩
    rwa [isMask_full.1 hk]
  · rw [lengthRight_cons hb]
    constructor
    · refine fun h => ⟨fun k hk => ?_, fun m j hloose => ?_⟩
      · obtain ⟨rfl, hbyte, hzeros⟩ := (isMask_append_cons hb).1 hk
        exact (h hzeros).1 hbyte
      · obtain ⟨rfl, rfl, hbyte, hzeros⟩ := (looseMask_append_cons hb).1 hloose
        exact (h hzeros).2 hbyte
    · rintro ⟨hmask, hloose⟩ hzeros
      exact ⟨fun hbyte => hmask _ ((isMask_append_cons hb).2 ⟨rfl, hbyte, hzeros⟩),
        fun hbyte => hloose _ _ ((looseMask_append_cons hb).2 ⟨rfl, rfl, hbyte, hzeros⟩)⟩

/-- A one in the last bit of a byte is not seen. -/
theorem prefixLen_last_bit :
    prefixLen [255, 1, 0, 0] = 8 ∧ ∀ k, ¬ IsMask [255, 1, 0, 0] k := by
  refine ⟨by decide +kernel, fun k hk => ?_⟩
  have hbyte := ((isMask_append_cons (n := 1) (b := 1) (by decide)).1 hk).2.1
  exact absurd hbyte (by decide +kernel)

/-! ## Families of addresses -/

/-- The family of an address. -/
inductive Family
  | inet
  | inet6
  | other (number : Nat)
  deriving DecidableEq

/-- The mask is that of an address of the family, of which as many bytes are read; there may be
none. Reference: `subnet_to_prefix` (`src/networking.c:373`). -/
def subnetToPrefix (family : Family) : Option (List UInt8) → String
  | none => toString 0
  | some addr =>
    match family with
    | .inet6 => toString (prefixLen (addr.take 16)).toNat
    | .inet => toString (prefixLen (addr.take 4)).toNat
    | .other _ => toString 0

end Runtime

end CcOciRuntime
