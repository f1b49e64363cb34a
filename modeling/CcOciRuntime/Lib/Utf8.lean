import Mathlib.Data.List.TakeWhile

/-!
# Texts as bytes

The UTF-8 bytes of a list of characters, with the two ways of measuring it: its characters and its
bytes. They agree exactly on ASCII texts (`length_utf8_le_iff`). `cString` is what a C function sees
of a text, which ends at the first zero character. `decodeUtf8` reads any bytes as a text, with a
replacement character for a byte that does not belong to one, and gives a text back from its bytes
(`decodeUtf8_utf8`). `charCount` counts characters by the first byte of each, without looking at the
others, and is right about the bytes of a text (`charCount_utf8`).
-/

namespace CcOciRuntime

/-- The bytes of a text. -/
def utf8 (cs : List Char) : List UInt8 :=
  cs.flatMap String.utf8EncodeChar

@[simp] theorem utf8_nil : utf8 [] = [] := rfl

@[simp] theorem utf8_cons (c : Char) (cs : List Char) :
    utf8 (c :: cs) = String.utf8EncodeChar c ++ utf8 cs := rfl

/-- The zero character. -/
def nul : Char := Char.ofNat 0

/-- The characters of a text up to the first zero. -/
def cString (cs : List Char) : List Char :=
  cs.takeWhile (· ≠ nul)

theorem cString_isPrefix (cs : List Char) : cString cs <+: cs :=
  List.takeWhile_prefix _

theorem cString_eq_self_iff {cs : List Char} : cString cs = cs ↔ nul ∉ cs := by
  rw [cString, List.takeWhile_eq_self_iff]
  constructor
  · intro h hnul
    exact absurd (h nul hnul) (by simp)
  · intro h c hc
    refine decide_eq_true ?_
    rintro rfl
    exact h hc

/-- Every character takes a byte. -/
theorem length_le_length_utf8 (cs : List Char) : cs.length ≤ (utf8 cs).length := by
  induction cs with
  | nil => exact Nat.le_refl _
  | cons c cs ih =>
    have hc := c.utf8Size_pos
    simp only [utf8_cons, List.length_cons, List.length_append, String.length_utf8EncodeChar]
    omega

/-- A text has no more bytes than characters exactly when it is ASCII. -/
theorem length_utf8_le_iff {cs : List Char} :
    (utf8 cs).length ≤ cs.length ↔ ∀ c ∈ cs, c.toNat < 128 := by
  induction cs with
  | nil => simp
  | cons c cs ih =>
    have hpos := c.utf8Size_pos
    have hle := length_le_length_utf8 cs
    have hone : c.utf8Size = 1 ↔ c.toNat < 128 := by
      rw [Char.utf8Size_eq_one_iff, UInt32.le_iff_toNat_le]
      exact Nat.lt_succ_iff.symm
    rw [List.forall_mem_cons, ← ih, ← hone]
    simp only [utf8_cons, List.length_cons, List.length_append, String.length_utf8EncodeChar]
    omega

/-! ## Reading bytes as a text -/

/-- What stands for a byte that is not part of the encoding of a character. -/
def replacementChar : Char := Char.ofNat 0xFFFD

/-- The character that some bytes begin with; none takes more than four of them. -/
def firstChar (bs : List UInt8) : Option Char :=
  (bs.take 4).toByteArray.utf8DecodeChar? 0

/-- `decodeUtf8` with a bound on the number of characters. -/
def decodeUtf8Fuel : Nat → List UInt8 → List Char
  | 0, _ | _, [] => []
  | fuel + 1, b :: bs =>
    match firstChar (b :: bs) with
    | some c => c :: decodeUtf8Fuel fuel ((b :: bs).drop c.utf8Size)
    | none => replacementChar :: decodeUtf8Fuel fuel bs

/-- The text that some bytes are read as. -/
def decodeUtf8 (bs : List UInt8) : List Char :=
  decodeUtf8Fuel bs.length bs

theorem firstChar_utf8EncodeChar_append (c : Char) (bs : List UInt8) :
    firstChar (String.utf8EncodeChar c ++ bs) = some c := by
  have hlen : (String.utf8EncodeChar c).length ≤ 4 := by
    rw [String.length_utf8EncodeChar]
    exact c.utf8Size_le_four
  rw [firstChar, List.take_append, List.take_of_length_le hlen, List.toByteArray_append,
    ByteArray.utf8DecodeChar?_utf8EncodeChar_append]

/-- Encoded characters are decoded. -/
theorem decodeUtf8Fuel_utf8 {fuel : Nat} {cs : List Char} (h : (utf8 cs).length ≤ fuel) :
    decodeUtf8Fuel fuel (utf8 cs) = cs := by
  induction cs generalizing fuel with
  | nil => cases fuel <;> rfl
  | cons c cs ih =>
    have hpos := c.utf8Size_pos
    have hsize := String.length_utf8EncodeChar c
    have hfirst := firstChar_utf8EncodeChar_append c (utf8 cs)
    have hrest : (String.utf8EncodeChar c ++ utf8 cs).drop c.utf8Size = utf8 cs :=
      List.drop_left' hsize
    rw [utf8_cons] at h ⊢
    rw [List.length_append, hsize] at h
    obtain ⟨b, bs, hbytes⟩ : ∃ b bs, String.utf8EncodeChar c ++ utf8 cs = b :: bs :=
      List.exists_cons_of_length_pos (by rw [List.length_append]; omega)
    obtain ⟨fuel, rfl⟩ := Nat.exists_eq_succ_of_ne_zero (Nat.ne_of_gt (by omega : 0 < fuel))
    rw [hbytes] at hfirst hrest ⊢
    simp only [decodeUtf8Fuel, hfirst, hrest]
    rw [ih (by omega)]

/-- A text is read back from its bytes. -/
theorem decodeUtf8_utf8 (cs : List Char) : decodeUtf8 (utf8 cs) = cs :=
  decodeUtf8Fuel_utf8 (Nat.le_refl _)

/-! ## Counting characters -/

/-- The number of bytes of the encoding that a byte begins. Reference: `g_utf8_skip` of GLib. -/
def charSkip (b : UInt8) : Nat :=
  if b.toNat < 0xC0 then 1
  else if b.toNat < 0xE0 then 2
  else if b.toNat < 0xF0 then 3
  else if b.toNat < 0xF8 then 4
  else if b.toNat < 0xFC then 5
  else if b.toNat < 0xFE then 6
  else 1

/-- `charCount` with a bound on the number of characters. -/
def charCountFuel : Nat → List UInt8 → Nat
  | 0, _ | _, [] => 0
  | fuel + 1, b :: bs => charCountFuel fuel ((b :: bs).drop (charSkip b)) + 1

/-- The number of characters of some bytes. Reference: `g_utf8_strlen` of GLib. -/
def charCount (bs : List UInt8) : Nat := charCountFuel bs.length bs

/-- The first byte says how many there are. -/
theorem exists_utf8EncodeChar_eq_cons (c : Char) :
    ∃ b bs, String.utf8EncodeChar c = b :: bs ∧ charSkip b = c.utf8Size := by
  have hofNat : ∀ n, n < 256 → (UInt8.ofNat n).toNat = n := fun n hn =>
    UInt8.toNat_ofNat_of_lt' hn
  have hvalid : c.toNat < 1114112 := by
    have := c.valid
    rcases this with h | ⟨-, h⟩
    · exact Nat.lt_trans h (by decide)
    · exact h
  have hsize := String.length_utf8EncodeChar c
  have hc : c.val.toNat = c.toNat := rfl
  revert hsize
  unfold String.utf8EncodeChar
  dsimp only
  split_ifs with h1 h2 h3
  all_goals
    intro hsize
    refine ⟨_, _, rfl, hsize ▸ ?_⟩
    rw [charSkip, hofNat _ (by omega)]
    simp only [List.length_cons, List.length_nil]
    split_ifs <;> omega

/-- Characters are counted by their first bytes. -/
theorem charCountFuel_utf8 {fuel : Nat} {cs : List Char} (h : (utf8 cs).length ≤ fuel) :
    charCountFuel fuel (utf8 cs) = cs.length := by
  induction cs generalizing fuel with
  | nil => cases fuel <;> rfl
  | cons c cs ih =>
    obtain ⟨b, bs, hbytes, hskip⟩ := exists_utf8EncodeChar_eq_cons c
    have hsize := String.length_utf8EncodeChar c
    have hrest : (b :: bs ++ utf8 cs).drop (charSkip b) = utf8 cs :=
      List.drop_left' (by rw [hskip, ← hsize, hbytes])
    have hpos := c.utf8Size_pos
    rw [utf8_cons, List.length_append, hsize] at h
    obtain ⟨fuel, rfl⟩ := Nat.exists_eq_succ_of_ne_zero (Nat.ne_of_gt (by omega : 0 < fuel))
    rw [utf8_cons, hbytes, List.cons_append, charCountFuel, ← List.cons_append, hrest,
      ih (by omega), List.length_cons]

/-- The characters of a text are counted right. -/
theorem charCount_utf8 (cs : List Char) : charCount (utf8 cs) = cs.length :=
  charCountFuel_utf8 (Nat.le_refl _)

end CcOciRuntime
