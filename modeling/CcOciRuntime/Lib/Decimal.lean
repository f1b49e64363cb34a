import Mathlib.Algebra.Order.Group.Int
import Mathlib.Algebra.Ring.Int.Defs
import Mathlib.Algebra.Ring.Nat
import Mathlib.Data.List.TakeWhile

/-!
# Decimal numbers in text

Reading a decimal number from the front of a text as `strtoll` and `atoi` of the C library do:
blanks are skipped, a sign is taken, then digits up to the first other character, and a value that
does not fit 64 bits is clamped. The readers of printed numbers rest on `readInt_toString`.
-/

namespace CcOciRuntime

/-- The blanks of the C locale. -/
def isBlank (c : Char) : Bool :=
  c = ' ' || c = '\t' || c = '\n' || c = '\x0b' || c = '\x0c' || c = '\r'

/-- The value in the range of 64 bits closest to `n`. -/
def clamp64 (n : Int) : Int := max (-2 ^ 63) (min n (2 ^ 63 - 1))

/-- The number that the digits at the front of `cs` write; none when there is no digit. -/
def leadingNat (cs : List Char) : Option Nat :=
  match cs.takeWhile Char.isDigit with
  | [] => none
  | ds => some (Nat.ofDigitChars 10 ds 0)

/-- The number at the front of a text; none when the text does not begin with one, which the C
function tells by an end pointer that has not moved. -/
def strtoll (s : String) : Option Int :=
  match s.toList.dropWhile isBlank with
  | '-' :: cs => (leadingNat cs).map fun n : Nat => clamp64 (-n)
  | '+' :: cs => (leadingNat cs).map fun n : Nat => clamp64 n
  | cs => (leadingNat cs).map fun n : Nat => clamp64 n

/-- The number at the front of a text as a 32-bit integer, zero when there is none. -/
def atoi (s : String) : Int32 := Int32.ofInt ((strtoll s).getD 0)

theorem clamp64_eq {n : Int} (hlo : -2 ^ 63 ≤ n) (hhi : n < 2 ^ 63) : clamp64 n = n := by
  unfold clamp64
  omega

theorem leadingNat_of_digits {cs : List Char} (hne : cs ≠ []) (h : ∀ c ∈ cs, c.isDigit) :
    leadingNat cs = some (Nat.ofDigitChars 10 cs 0) := by
  unfold leadingNat
  rw [List.takeWhile_eq_self_iff.2 h]
  cases cs with
  | nil => exact absurd rfl hne
  | cons c cs => rfl

theorem leadingNat_toDigits (n : Nat) : leadingNat (Nat.toDigits 10 n) = some n := by
  rw [leadingNat_of_digits Nat.toDigits_ne_nil fun c hc =>
    Nat.isDigit_of_mem_toDigits (by decide) (by decide) hc, Nat.ofDigitChars_ten_toDigits]

/-- A digit is neither a blank nor a sign. -/
theorem not_blank_of_isDigit {c : Char} (h : c.isDigit) :
    isBlank c = false ∧ c ≠ '-' ∧ c ≠ '+' := by
  refine ⟨?_, ?_, ?_⟩
  · simp only [isBlank, Bool.or_eq_false_iff, decide_eq_false_iff_not]
    refine ⟨⟨⟨⟨⟨?_, ?_⟩, ?_⟩, ?_⟩, ?_⟩, ?_⟩ <;> (rintro rfl; revert h; decide)
  · rintro rfl
    revert h
    decide
  · rintro rfl
    revert h
    decide

/-- The number at the front of a text, of any size, and what follows it. -/
def readInt (cs : List Char) : Option (Int × List Char) :=
  match cs.dropWhile isBlank with
  | '-' :: cs => (leadingNat cs).map fun n : Nat => (-n, cs.dropWhile Char.isDigit)
  | '+' :: cs => (leadingNat cs).map fun n : Nat => (n, cs.dropWhile Char.isDigit)
  | cs => (leadingNat cs).map fun n : Nat => (n, cs.dropWhile Char.isDigit)

theorem strtoll_eq (s : String) : strtoll s = (readInt s.toList).map fun r => clamp64 r.1 := by
  unfold strtoll readInt
  split <;> rw [Option.map_map] <;> rfl

/-- A text of digits is read to its end. -/
theorem readInt_of_digits {cs : List Char} (hne : cs ≠ []) (h : ∀ c ∈ cs, c.isDigit) :
    readInt cs = some ((Nat.ofDigitChars 10 cs 0 : Int), []) := by
  have hval := leadingNat_of_digits hne h
  have hrest : cs.dropWhile Char.isDigit = [] := List.dropWhile_eq_nil_iff.2 h
  unfold readInt
  cases cs with
  | nil => exact absurd rfl hne
  | cons c cs =>
    obtain ⟨hb, hminus, hplus⟩ := not_blank_of_isDigit (h c List.mem_cons_self)
    rw [List.dropWhile_cons_of_neg (by simp [hb])]
    split
    next hc => exact absurd (List.cons.inj hc).1 hminus
    next hc => exact absurd (List.cons.inj hc).1 hplus
    next => rw [hval, Option.map_some, hrest]

theorem readInt_toDigits (n : Nat) : readInt (Nat.toDigits 10 n) = some ((n : Int), []) := by
  rw [readInt_of_digits Nat.toDigits_ne_nil fun c hc =>
    Nat.isDigit_of_mem_toDigits (by decide) (by decide) hc, Nat.ofDigitChars_ten_toDigits]

/-- **A printed number is read back**, up to its end. -/
theorem readInt_toString (n : Int) : readInt (toString n).toList = some (n, []) := by
  cases n with
  | ofNat n =>
    have htext : (toString (Int.ofNat n)).toList = Nat.toDigits 10 n := by
      change (toString n).toList = _
      rw [Nat.toString_eq_ofList_toDigits, String.toList_ofList]
    rw [htext]
    exact readInt_toDigits n
  | negSucc n =>
    have htext : (toString (Int.negSucc n)).toList = '-' :: Nat.toDigits 10 (n + 1) := by
      change ("-" ++ toString (n + 1)).toList = _
      rw [String.toList_append, Nat.toString_eq_ofList_toDigits, String.toList_ofList,
        String.toList_ofList]
      rfl
    have hrest : (Nat.toDigits 10 (n + 1)).dropWhile Char.isDigit = [] :=
      List.dropWhile_eq_nil_iff.2 fun c hc =>
        Nat.isDigit_of_mem_toDigits (by decide) (by decide) hc
    rw [htext]
    change (leadingNat (Nat.toDigits 10 (n + 1))).map _ = _
    rw [leadingNat_toDigits, Option.map_some, hrest]
    rfl

/-- **A printed number is read back.** -/
theorem strtoll_toString (n : Int) (hlo : -2 ^ 63 ≤ n) (hhi : n < 2 ^ 63) :
    strtoll (toString n) = some n := by
  rw [strtoll_eq, readInt_toString, Option.map_some, clamp64_eq hlo hhi]

/-- An integer of 32 bits is read back from its printed form. -/
theorem atoi_toString (n : Int32) : atoi (toString n.toInt) = n := by
  have hlo := n.le_toInt
  have hhi := n.toInt_lt
  rw [atoi, strtoll_toString _ (by omega) (by omega), Option.getD_some, Int32.ofInt_toInt]

/-- A 32-bit integer cast to unsigned, and the number cast back. -/
theorem ofInt_toUInt32 (n : Int32) : Int32.ofInt n.toUInt32.toNat = n := by
  apply Int32.toInt_inj.1
  rw [Int32.toInt_ofInt]
  exact (BitVec.toInt_eq_toNat_bmod n.toBitVec).symm

/-- An integer of 32 bits printed as unsigned is read. -/
theorem strtoll_toUInt32 (n : Int32) :
    strtoll (toString (n.toUInt32.toNat : Int)) = some (n.toUInt32.toNat : Int) := by
  have hlt : n.toUInt32.toNat < 2 ^ 32 := n.toUInt32.toNat_lt
  exact strtoll_toString _ (by omega) (by omega)

/-! ## Texts of digits -/

/-- The whole text is a decimal number, and it is `n`. -/
def IsDecimal (text : String) (n : Nat) : Prop :=
  text ≠ "" ∧ (∀ c ∈ text.toList, c.isDigit) ∧ Nat.ofDigitChars 10 text.toList 0 = n

-- over the characters of the text, not over all characters
instance (text : String) (n : Nat) : Decidable (IsDecimal text n) :=
  haveI : Decidable (∀ c ∈ text.toList, c.isDigit) := List.decidableBAll _ _
  inferInstanceAs (Decidable (_ ∧ _ ∧ _))

theorem strtoll_of_isDecimal {text : String} {n : Nat} (h : IsDecimal text n) :
    strtoll text = some (clamp64 n) := by
  obtain ⟨hne, hdigits, rfl⟩ := h
  rw [strtoll_eq, readInt_of_digits (mt String.toList_eq_nil_iff.1 hne) hdigits, Option.map_some]

/-- A number in a text of digits survives being read and cast to 32 bits exactly if it fits. -/
theorem isDecimal_cast_iff {text : String} {id : UInt32}
    (hid : (id.toNat : Int) = (strtoll text).getD 0 % 2 ^ 32) :
    IsDecimal text id.toNat ↔ ∃ n < 2 ^ 32, IsDecimal text n := by
  constructor
  · exact fun h => ⟨id.toNat, id.toNat_lt, h⟩
  · rintro ⟨n, hlt, h⟩
    rw [strtoll_of_isDecimal h, Option.getD_some, clamp64_eq (by omega) (by omega)] at hid
    have heq : id.toNat = n := by omega
    rwa [heq]

theorem toNat_atoi (text : String) :
    ((atoi text).toUInt32.toNat : Int) = (strtoll text).getD 0 % 2 ^ 32 := by
  have hcast : (atoi text).toUInt32.toNat = ((strtoll text).getD 0 % (2 ^ 32 : Nat)).toNat :=
    BitVec.toNat_ofInt _
  omega

end CcOciRuntime
