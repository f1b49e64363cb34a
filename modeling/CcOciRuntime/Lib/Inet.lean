import CcOciRuntime.Lib.Bytes
import CcOciRuntime.Lib.Decimal
import CcOciRuntime.Lib.Search

/-!
# Internet addresses

The two families of addresses, as the bytes that stand in a packet. An IPv4 address is printed as
its four bytes in decimal with dots between them, and no two addresses are printed alike.
-/

namespace CcOciRuntime

/-- An IPv4 address. -/
structure InAddr where
  a : UInt8
  b : UInt8
  c : UInt8
  d : UInt8
  deriving DecidableEq

/-- An IPv6 address. -/
structure In6Addr where
  bytes : List UInt8
  length_eq : bytes.length = 16

namespace InAddr

/-- The bytes of an address, in their order. -/
def bytes (x : InAddr) : List UInt8 := [x.a, x.b, x.c, x.d]

/-- The number that the bytes of an address stand for. -/
def toNat (x : InAddr) : Nat := beNat x.bytes

/-- The address at the front of some bytes. -/
def ofBytes (bs : List UInt8) : InAddr := ⟨bs.getD 0 0, bs.getD 1 0, bs.getD 2 0, bs.getD 3 0⟩

@[simp] theorem ofBytes_bytes (x : InAddr) : ofBytes x.bytes = x := rfl

/-- The digits of a byte. -/
def digits (n : UInt8) : List Char := Nat.toDigits 10 n.toNat

/-- The four bytes in decimal: `inet_ntop`. -/
def text (x : InAddr) : String :=
  .ofList (digits x.a ++ '.' :: (digits x.b ++ '.' :: (digits x.c ++ '.' :: digits x.d)))

theorem isDigit_of_mem_digits {n : UInt8} {c : Char} (h : c ∈ digits n) : c.isDigit :=
  Nat.isDigit_of_mem_toDigits (by decide) (by decide) h

theorem dot_not_mem_digits (n : UInt8) : '.' ∉ digits n :=
  fun h => absurd (isDigit_of_mem_digits h) (by decide)

theorem digits_injective {m n : UInt8} (h : digits m = digits n) : m = n := by
  have hread := congrArg leadingNat h
  rw [digits, digits, leadingNat_toDigits, leadingNat_toDigits] at hread
  exact UInt8.toNat_inj.1 (Option.some.inj hread)

/-- Addresses are told apart by their texts. -/
theorem text_injective : Function.Injective text := by
  rintro ⟨a, b, c, d⟩ ⟨a', b', c', d'⟩ h
  have hdot := dot_not_mem_digits
  obtain ⟨ha, h⟩ := append_cons_inj (hdot a) (hdot a') (String.ofList_inj.1 h)
  obtain ⟨hb, h⟩ := append_cons_inj (hdot b) (hdot b') h
  obtain ⟨hc, hd : digits d = digits d'⟩ := append_cons_inj (hdot c) (hdot c') h
  rw [digits_injective ha, digits_injective hb, digits_injective hc, digits_injective hd]

/-- A printed address has only digits and dots. -/
theorem of_mem_text {x : InAddr} {c : Char} (h : c ∈ x.text.toList) : c.isDigit ∨ c = '.' := by
  rw [text, String.toList_ofList] at h
  simp only [List.mem_append, List.mem_cons] at h
  obtain h | h | h | h | h | h | h := h
  all_goals first
    | exact .inr h
    | exact .inl (isDigit_of_mem_digits h)

end InAddr

end CcOciRuntime
