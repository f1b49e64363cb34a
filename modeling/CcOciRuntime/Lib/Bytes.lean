import Mathlib.Tactic.Ring

/-!
# Numbers as bytes

Fixed-width numbers in network order. `beBytes k n` is the `k`-byte encoding of `n` (modulo
`256 ^ k`, as an unsigned store of that width does), `beNat` reads a byte string back, and
`beNat_beBytes` is the round trip. `leBytes`, `leNat` and `leNat_leBytes` are the same for the order
with the low byte first.
-/

namespace CcOciRuntime

/-- The `k`-byte big-endian encoding of `n`. -/
def beBytes : Nat → Nat → List UInt8
  | 0, _ => []
  | k + 1, n => UInt8.ofNat (n / 256 ^ k) :: beBytes k n

/-- The number a big-endian byte string stands for. -/
def beNat (bs : List UInt8) : Nat :=
  bs.foldl (fun acc b => acc * 256 + b.toNat) 0

@[simp] theorem length_beBytes (k n : Nat) : (beBytes k n).length = k := by
  induction k with
  | zero => rfl
  | succ k ih => simp [beBytes, ih]

theorem foldl_beBytes (k n : Nat) : ∀ acc : Nat,
    (beBytes k n).foldl (fun acc b => acc * 256 + b.toNat) acc = acc * 256 ^ k + n % 256 ^ k := by
  induction k with
  | zero => intro acc; simp [beBytes, Nat.mod_one]
  | succ k ih =>
    intro acc
    have hb : (UInt8.ofNat (n / 256 ^ k)).toNat = n / 256 ^ k % 256 := UInt8.toNat_ofNat'
    have hmod : n % 256 ^ (k + 1) = 256 ^ k * (n / 256 ^ k % 256) + n % 256 ^ k := by
      rw [pow_succ, Nat.mod_mul]; ring
    rw [beBytes, List.foldl_cons, ih, hb, hmod, pow_succ]
    ring

/-- Reading back what was stored. -/
theorem beNat_beBytes (k n : Nat) : beNat (beBytes k n) = n % 256 ^ k := by
  rw [beNat, foldl_beBytes, Nat.zero_mul, Nat.zero_add]

/-- A store in two parts, the high one first. -/
theorem beBytes_add (j k n : Nat) :
    beBytes (j + k) n = beBytes j (n / 256 ^ k) ++ beBytes k n := by
  induction j with
  | zero => simp [beBytes]
  | succ j ih =>
    rw [Nat.succ_add, beBytes, ih, beBytes, List.cons_append, Nat.div_div_eq_div_mul, ← pow_add,
      Nat.add_comm k j]

/-- Only the digits that are stored matter. -/
theorem beBytes_mod {k m : Nat} (h : k ≤ m) (n : Nat) :
    beBytes k (n % 256 ^ m) = beBytes k n := by
  induction k with
  | zero => rfl
  | succ k ih =>
    have hdigit : n % 256 ^ m / 256 ^ k % 256 = n / 256 ^ k % 256 := by
      obtain ⟨d, rfl⟩ := Nat.exists_eq_add_of_le h
      have hpow : 256 ^ (k + 1 + d) = 256 ^ k * (256 * 256 ^ d) := by ring
      rw [hpow, Nat.mod_mul_right_div_self, Nat.mod_mul_right_mod]
    have hbyte : UInt8.ofNat (n % 256 ^ m / 256 ^ k) = UInt8.ofNat (n / 256 ^ k) := by
      rw [← UInt8.toNat_inj, UInt8.toNat_ofNat', UInt8.toNat_ofNat']
      exact hdigit
    rw [beBytes, beBytes, ih (by omega), hbyte]

/-! ## The low byte first -/

/-- The `k`-byte little-endian encoding of `n`. -/
def leBytes : Nat → Nat → List UInt8
  | 0, _ => []
  | k + 1, n => UInt8.ofNat n :: leBytes k (n / 256)

/-- The number a little-endian byte string stands for. -/
def leNat : List UInt8 → Nat
  | [] => 0
  | b :: bs => b.toNat + 256 * leNat bs

@[simp] theorem length_leBytes (k n : Nat) : (leBytes k n).length = k := by
  induction k generalizing n with
  | zero => rfl
  | succ k ih => rw [leBytes, List.length_cons, ih]

/-- Reading back what was stored. -/
theorem leNat_leBytes (k n : Nat) : leNat (leBytes k n) = n % 256 ^ k := by
  induction k generalizing n with
  | zero => rw [pow_zero, Nat.mod_one, leBytes, leNat]
  | succ k ih =>
    have hb : (UInt8.ofNat n).toNat = n % 256 := UInt8.toNat_ofNat'
    rw [leBytes, leNat, ih, hb, pow_succ, Nat.mul_comm (256 ^ k), Nat.mod_mul]

theorem leNat_le_append (front rest : List UInt8) : leNat front ≤ leNat (front ++ rest) := by
  induction front with
  | nil => exact Nat.zero_le _
  | cons b front ih =>
    rw [List.cons_append, leNat, leNat]
    omega

end CcOciRuntime
