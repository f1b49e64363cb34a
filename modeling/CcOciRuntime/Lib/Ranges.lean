import Mathlib.Algebra.Order.BigOperators.Group.List
import Mathlib.Algebra.Order.Group.Nat
import Mathlib.Algebra.Ring.Nat

/-!
# Consecutive ranges

Ranges of given sizes laid out one after the other, as an allocator that only moves a counter
forward lays them out. `rangeStart b ns i` is where the `i`-th of them starts. Ranges at different
positions do not meet (`rangeStart_add_le`), so a number determines its range and its place in it
(`rangeStart_inj`).
-/

namespace CcOciRuntime

/-- The start of the `i`-th of the ranges of sizes `ns` that are laid out from `b` on. -/
def rangeStart (b : Nat) (ns : List Nat) (i : Nat) : Nat := b + (ns.take i).sum

section
variable {b : Nat} {ns : List Nat} {i j k l m n : Nat}

theorem le_rangeStart : b ≤ rangeStart b ns i := Nat.le_add_right _ _

/-- A range further on does not change where the earlier ones start. -/
theorem rangeStart_append (ms : List Nat) (hi : i ≤ ns.length) :
    rangeStart b (ns ++ ms) i = rangeStart b ns i := by
  rw [rangeStart, List.take_append_of_le_length hi, rangeStart]

/-- The first range that is not there yet starts after all the others. -/
theorem rangeStart_length : rangeStart b ns ns.length = b + ns.sum := by
  rw [rangeStart, List.take_length]

/-- A range ends before a later one starts. -/
theorem rangeStart_add_le (hij : i < j) (hn : ns[i]? = some n) :
    rangeStart b ns i + n ≤ rangeStart b ns j := by
  have hsplit : ns.take j = ns.take i ++ (ns.take j).drop i := by
    conv_lhs => rw [← List.take_append_drop i (ns.take j)]
    rw [List.take_take, Nat.min_eq_left (Nat.le_of_lt hij)]
  have hmem : n ∈ (ns.take j).drop i := by
    refine List.mem_iff_getElem?.2 ⟨0, ?_⟩
    rw [List.getElem?_drop, List.getElem?_take_of_lt (by omega), Nat.add_zero, hn]
  have hle : n ≤ ((ns.take j).drop i).sum := List.le_sum_of_mem hmem
  rw [rangeStart, rangeStart, hsplit, List.sum_append]
  omega

/-- A range ends within the whole. -/
theorem rangeStart_add_le_sum (hn : ns[i]? = some n) : rangeStart b ns i + n ≤ b + ns.sum := by
  rw [← rangeStart_length]
  exact rangeStart_add_le (List.getElem?_eq_some_iff.1 hn).1 hn

/-- A number is in one range only, and at one place of it. -/
theorem rangeStart_inj (hn : ns[i]? = some n) (hm : ns[j]? = some m) (hk : k < n) (hl : l < m)
    (h : rangeStart b ns i + k = rangeStart b ns j + l) : i = j ∧ k = l := by
  rcases Nat.lt_trichotomy i j with hij | rfl | hji
  · have := rangeStart_add_le (b := b) hij hn
    omega
  · omega
  · have := rangeStart_add_le (b := b) hji hm
    omega

end

end CcOciRuntime
