import Mathlib.Data.List.Basic
import Mathlib.Data.List.TakeWhile

/-!
# Bits of byte strings

The bits of a string of bytes, the most significant bit of each byte first. A string is a mask of
`k` ones when its bits are `k` ones followed only by zeros (`IsMask`). The lemmas read a mask off
byte by byte: full bytes, then one byte that is a mask of its own, then zeros.
-/

namespace CcOciRuntime

/-- What holds of the 256 bytes holds of every byte. -/
theorem forall_byte {P : UInt8 → Prop} (h : ∀ n < 256, P (UInt8.ofNat n)) (b : UInt8) : P b := by
  have hb := h b.toNat b.toNat_lt
  rwa [UInt8.ofNat_toNat] at hb

/-- The bits of a byte. -/
def byteBits (b : UInt8) : List Bool := (List.range 8).map fun i => b.toNat.testBit (7 - i)

/-- The bits of a string. -/
def bitsOf (bs : List UInt8) : List Bool := bs.flatMap byteBits

/-- `k` ones followed only by zeros. -/
def IsMask (bs : List UInt8) (k : Nat) : Prop :=
  bitsOf bs = List.replicate k true ++ List.replicate (8 * bs.length - k) false

/-- `k` ones followed only by zeros, in one byte. -/
def IsMaskByte (b : UInt8) (k : Nat) : Prop :=
  byteBits b = List.replicate k true ++ List.replicate (8 - k) false

instance (b : UInt8) (k : Nat) : Decidable (IsMaskByte b k) := inferInstanceAs (Decidable (_ = _))

@[simp] theorem length_byteBits (b : UInt8) : (byteBits b).length = 8 := by
  rw [byteBits, List.length_map, List.length_range]

theorem bitsOf_cons (b : UInt8) (bs : List UInt8) : bitsOf (b :: bs) = byteBits b ++ bitsOf bs :=
  List.flatMap_cons

theorem byteBits_full : byteBits 255 = List.replicate 8 true := by decide

theorem eq_full_of_byteBits (b : UInt8) : byteBits b = List.replicate 8 true → b = 255 :=
  forall_byte (P := fun b => byteBits b = List.replicate 8 true → b = 255) (by decide +kernel) b

theorem eq_zero_of_byteBits (b : UInt8) : byteBits b = List.replicate 8 false → b = 0 :=
  forall_byte (P := fun b => byteBits b = List.replicate 8 false → b = 0) (by decide +kernel) b

/-- The bits of a string are all zero exactly if its bytes are. -/
theorem bitsOf_eq_replicate_false {bs : List UInt8} :
    bitsOf bs = List.replicate (8 * bs.length) false ↔ ∀ b ∈ bs, b = 0 := by
  induction bs with
  | nil => exact iff_of_true rfl (by simp)
  | cons b bs ih =>
    have hlen : 8 * (b :: bs).length = 8 + 8 * bs.length := by
      rw [List.length_cons]
      omega
    rw [bitsOf_cons, hlen, List.replicate_add, List.forall_mem_cons, ← ih]
    constructor
    · intro h
      obtain ⟨hb, hbs⟩ := List.append_inj h (by simp)
      exact ⟨eq_zero_of_byteBits b hb, hbs⟩
    · rintro ⟨rfl, hbs⟩
      rw [hbs]
      rfl

/-! ## Masks -/

theorem isMask_nil {k : Nat} : IsMask [] k ↔ k = 0 := by
  cases k with
  | zero => exact iff_of_true rfl rfl
  | succ k => exact iff_of_false (fun h => by cases h) (Nat.succ_ne_zero k)

/-- A mask that begins with a full byte. -/
theorem isMask_full_cons {bs : List UInt8} {k : Nat} :
    IsMask (255 :: bs) k ↔ ∃ j, k = 8 + j ∧ IsMask bs j := by
  rw [IsMask, bitsOf_cons, byteBits_full, List.length_cons]
  constructor
  · intro h
    have hk : 8 ≤ k := by
      by_contra hlt
      -- the bit after `k` ones is a zero
      have hleft : (List.replicate 8 true ++ bitsOf bs)[k]? = some true := by
        rw [List.getElem?_append_left (by simpa using hlt),
          List.getElem?_replicate_of_lt (by omega)]
      rw [h, List.getElem?_append_right (by simp), List.length_replicate, Nat.sub_self,
        List.getElem?_replicate_of_lt (by omega)] at hleft
      cases hleft
    refine ⟨k - 8, by omega, ?_⟩
    have hsplit : k = 8 + (k - 8) := by omega
    rw [hsplit, List.replicate_add, List.append_assoc] at h
    rw [IsMask, List.append_cancel_left h]
    congr 2
    omega
  · rintro ⟨j, rfl, h⟩
    rw [h, List.replicate_add, List.append_assoc]
    congr 3
    omega

/-- A mask that begins with another byte. -/
theorem isMask_cons {b : UInt8} (hb : b ≠ 255) {bs : List UInt8} {k : Nat} :
    IsMask (b :: bs) k ↔ k < 8 ∧ IsMaskByte b k ∧ ∀ c ∈ bs, c = 0 := by
  rw [IsMask, IsMaskByte, bitsOf_cons, List.length_cons, ← bitsOf_eq_replicate_false]
  by_cases hk : k < 8
  · have hsplit : 8 * (bs.length + 1) - k = 8 - k + 8 * bs.length := by omega
    rw [hsplit, List.replicate_add, ← List.append_assoc, and_iff_right hk]
    refine ⟨fun h => List.append_inj h (by simp; omega), ?_⟩
    rintro ⟨hbyte, hbs⟩
    rw [hbyte, hbs]
  · refine iff_of_false (fun h => hb (eq_full_of_byteBits b ?_)) fun h => hk h.1
    have hsplit : k = 8 + (k - 8) := by omega
    rw [hsplit, List.replicate_add, List.append_assoc] at h
    exact (List.append_inj h (by simp)).1

/-- A mask that begins with some full bytes. -/
theorem isMask_replicate_append {n : Nat} {bs : List UInt8} {k : Nat} :
    IsMask (List.replicate n 255 ++ bs) k ↔ ∃ j, k = 8 * n + j ∧ IsMask bs j := by
  induction n generalizing k with
  | zero => simp
  | succ n ih =>
    rw [List.replicate_succ, List.cons_append, isMask_full_cons]
    constructor
    · rintro ⟨j, rfl, h⟩
      obtain ⟨i, rfl, hi⟩ := ih.1 h
      exact ⟨i, by omega, hi⟩
    · rintro ⟨j, rfl, h⟩
      exact ⟨8 * n + j, by omega, ih.2 ⟨j, rfl, h⟩⟩

end CcOciRuntime
