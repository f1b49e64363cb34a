import CcOciRuntime.Lib.Json
import Mathlib.Data.List.TakeWhile
import Mathlib.Data.String.Basic

/-!
# JSON texts

Printing a document as a text without blanks and reading any JSON text as a document, in the way of
Go's `encoding/json`: a printed string escapes what HTML gives a meaning to, and a half of a
surrogate pair is read as the replacement character. A number is kept as an integer when it is
written as one and as its text otherwise. `readJson_print` is the round trip. A map is printed with
its keys in order; `sortMembers` is that form of its member list.
-/

namespace CcOciRuntime

namespace Json

/-! ## Strings -/

/-- The value of a hexadecimal digit. -/
def hexVal (c : Char) : Option Nat :=
  if '0' ≤ c ∧ c ≤ '9' then some (c.toNat - '0'.toNat)
  else if 'a' ≤ c ∧ c ≤ 'f' then some (c.toNat - 'a'.toNat + 10)
  else if 'A' ≤ c ∧ c ≤ 'F' then some (c.toNat - 'A'.toNat + 10)
  else none

/-- Four hexadecimal digits. -/
def printHex (n : Nat) : List Char :=
  [Nat.digitChar (n / 4096 % 16), Nat.digitChar (n / 256 % 16), Nat.digitChar (n / 16 % 16),
    Nat.digitChar (n % 16)]

/-- The number that four hexadecimal digits stand for. -/
def readHex : List Char → Option (Nat × List Char)
  | a :: b :: c :: d :: rest =>
    match hexVal a, hexVal b, hexVal c, hexVal d with
    | some a, some b, some c, some d => some (((a * 16 + b) * 16 + c) * 16 + d, rest)
    | _, _, _, _ => none
  | _ => none

/-- One character in a printed string. -/
def escapeChar (c : Char) : List Char :=
  if c = '"' then ['\\', '"']
  else if c = '\\' then ['\\', '\\']
  else if c = '\n' then ['\\', 'n']
  else if c = '\r' then ['\\', 'r']
  else if c = '\t' then ['\\', 't']
  else if c.toNat < 0x20 ∨ c = '<' ∨ c = '>' ∨ c = '&' ∨ c.toNat = 0x2028 ∨ c.toNat = 0x2029 then
    '\\' :: 'u' :: printHex c.toNat
  else [c]

/-- The character of a two-character escape. -/
def simpleEscape (c : Char) : Option Char :=
  if c = '"' ∨ c = '\\' ∨ c = '/' then some c
  else if c = 'b' then some (Char.ofNat 8)
  else if c = 'f' then some (Char.ofNat 12)
  else if c = 'n' then some '\n'
  else if c = 'r' then some '\r'
  else if c = 't' then some '\t'
  else none

/-- The second half of a surrogate pair, when the text goes on with one. -/
def readLowSurrogate : List Char → Option (Nat × List Char)
  | '\\' :: 'u' :: cs =>
    match readHex cs with
    | some (n, rest) => if 0xDC00 ≤ n ∧ n < 0xE000 then some (n, rest) else none
    | none => none
  | _ => none

/-- The character of an escape by number, after its `u`. A half of a surrogate pair that stands
alone is read as the replacement character. -/
def readUnicode (cs : List Char) : Option (Char × List Char) :=
  match readHex cs with
  | none => none
  | some (n, rest) =>
    if 0xD800 ≤ n ∧ n < 0xE000 then
      match readLowSurrogate rest with
      | some (low, rest') =>
        if n < 0xDC00 then some (Char.ofNat (0x10000 + (n - 0xD800) * 1024 + (low - 0xDC00)), rest')
        else some (Char.ofNat 0xFFFD, rest)
      | none => some (Char.ofNat 0xFFFD, rest)
    else some (Char.ofNat n, rest)

/-- One character of a string. A control character has to be escaped. -/
def readChar : List Char → Option (Char × List Char)
  | [] => none
  | c :: cs =>
    if c = '\\' then
      match cs with
      | [] => none
      | e :: cs => if e = 'u' then readUnicode cs else (simpleEscape e).map (·, cs)
    else if c = '"' ∨ c.toNat < 0x20 then none
    else some (c, cs)

/-- A string from behind its opening quote; the fuel bounds its length. -/
def readStringFuel : Nat → List Char → Option (List Char × List Char)
  | 0, _ | _, [] => none
  | fuel + 1, c :: cs =>
    if c = '"' then some ([], cs)
    else
      match readChar (c :: cs) with
      | none => none
      | some (ch, rest) => (readStringFuel fuel rest).map fun r => (ch :: r.1, r.2)

def readString (cs : List Char) : Option (List Char × List Char) :=
  readStringFuel cs.length cs

def printString (s : String) : List Char :=
  '"' :: (s.toList.flatMap escapeChar ++ ['"'])

theorem hexVal_digitChar {n : Nat} (h : n < 16) : hexVal (Nat.digitChar n) = some n := by
  decide +revert

theorem readHex_printHex {n : Nat} (h : n < 65536) (rest : List Char) :
    readHex (printHex n ++ rest) = some (n, rest) := by
  simp only [printHex, List.cons_append, List.nil_append, readHex,
    hexVal_digitChar (Nat.mod_lt _ (by decide : 0 < 16))]
  congr 2
  omega

/-- Reading an escaped character back. -/
theorem readChar_escapeChar (c : Char) (rest : List Char) :
    readChar (escapeChar c ++ rest) = some (c, rest) := by
  rw [escapeChar]
  split_ifs with h1 h2 h3 h4 h5 h6
  · subst h1; rfl
  · subst h2; rfl
  · subst h3; rfl
  · subst h4; rfl
  · subst h5; rfl
  · -- the characters escaped by number are no surrogates
    have hsmall : c.toNat < 0x2030 := by
      rcases h6 with h | rfl | rfl | rfl | h | h <;> first | omega | decide
    simp only [List.cons_append, readChar, if_true, readUnicode]
    rw [readHex_printHex (by omega)]
    simp only [show ¬ (0xD800 ≤ c.toNat ∧ c.toNat < 0xE000) by omega, if_false, Char.ofNat_toNat]
  · push Not at h6
    simp only [List.cons_append, List.nil_append, readChar, if_neg h2]
    rw [if_neg (by rintro (h | h); exacts [h1 h, absurd h (by omega)])]

theorem head_escapeChar_ne_quote (c : Char) (rest : List Char) :
    ∃ d ds, escapeChar c ++ rest = d :: ds ∧ d ≠ '"' := by
  rw [escapeChar]
  split_ifs with h1 <;> first | exact ⟨_, _, rfl, h1⟩ | exact ⟨_, _, rfl, by decide⟩

/-- An escaped text is read back. -/
theorem readStringFuel_escaped {fuel : Nat} {s rest : List Char}
    (h : (s.flatMap escapeChar).length < fuel) :
    readStringFuel fuel (s.flatMap escapeChar ++ '"' :: rest) = some (s, rest) := by
  induction s generalizing fuel with
  | nil =>
    obtain ⟨fuel, rfl⟩ := Nat.exists_eq_succ_of_ne_zero (Nat.ne_of_gt h)
    rfl
  | cons c s ih =>
    obtain ⟨fuel, rfl⟩ := Nat.exists_eq_succ_of_ne_zero (Nat.ne_of_gt (Nat.zero_lt_of_lt h))
    rw [List.flatMap_cons, List.length_append] at h
    have hread := readChar_escapeChar c (s.flatMap escapeChar ++ '"' :: rest)
    obtain ⟨d, ds, hhead, hd⟩ := head_escapeChar_ne_quote c (s.flatMap escapeChar ++ '"' :: rest)
    obtain ⟨e, es, hpos, -⟩ := head_escapeChar_ne_quote c []
    have hlen : 0 < (escapeChar c).length := by
      rw [← List.append_nil (escapeChar c), hpos]
      exact Nat.succ_pos _
    rw [List.flatMap_cons, List.append_assoc, hhead]
    rw [hhead] at hread
    simp only [readStringFuel, if_neg hd, hread]
    rw [ih (by omega)]
    rfl

/-- Reading a printed string back, from behind its opening quote. -/
theorem readString_escaped (s rest : List Char) :
    readString (s.flatMap escapeChar ++ '"' :: rest) = some (s, rest) := by
  refine readStringFuel_escaped ?_
  rw [List.length_append, List.length_cons]
  omega

/-! ## Numbers -/

/-- The characters of which numbers are written. -/
def isNumberChar (c : Char) : Bool :=
  c.isDigit || c = '-' || c = '+' || c = '.' || c = 'e' || c = 'E'

/-- What follows a fraction, if there is one. -/
def skipFraction : List Char → Option (List Char)
  | '.' :: cs => if cs.takeWhile Char.isDigit = [] then none else some (cs.dropWhile Char.isDigit)
  | cs => some cs

/-- A sign of an exponent, if there is one, is skipped. -/
def skipSign : List Char → List Char
  | '+' :: cs | '-' :: cs => cs
  | cs => cs

/-- Nothing, or a whole exponent. -/
def isExponent : List Char → Bool
  | [] => true
  | e :: cs => (e = 'e' || e = 'E') && skipSign cs ≠ [] && (skipSign cs).all Char.isDigit

/-- A number without its sign: no zero before another digit. -/
def readUnsigned (text : List Char) (sign : Int) (cs : List Char) : Option Json :=
  let ds := cs.takeWhile Char.isDigit
  if ds = [] ∨ ds.head? = some '0' ∧ ds ≠ ['0'] then none
  else
    match cs.dropWhile Char.isDigit with
    | [] => some (.int (sign * Nat.ofDigitChars 10 ds 0))
    | tail =>
      match skipFraction tail with
      | none => none
      | some cs => if isExponent cs then some (.real (.ofList text)) else none

/-- The number that a whole text is. -/
def readNumber (text : List Char) : Option Json :=
  match text with
  | '-' :: cs => readUnsigned text (-1) cs
  | cs => readUnsigned text 1 cs

def printInt : Int → List Char
  | .ofNat n => Nat.toDigits 10 n
  | .negSucc n => '-' :: Nat.toDigits 10 (n + 1)

/-- No leading zero is printed. -/
theorem head?_toDigits_ne_zero {n : Nat} (h : n ≠ 0) : (Nat.toDigits 10 n).head? ≠ some '0' := by
  induction n using Nat.strongRecOn with
  | ind n ih =>
    rw [Nat.toDigits_eq_if (by decide)]
    split_ifs with hlt
    · have : ∀ k < 10, k ≠ 0 → [Nat.digitChar k].head? ≠ some '0' := by decide
      exact this n hlt h
    · rw [List.head?_append_of_ne_nil _ Nat.toDigits_ne_nil]
      exact ih (n / 10) (by omega) (by omega)

theorem takeWhile_toDigits (n : Nat) :
    (Nat.toDigits 10 n).takeWhile Char.isDigit = Nat.toDigits 10 n :=
  List.takeWhile_eq_self_iff.2 fun _ hc => Nat.isDigit_of_mem_toDigits (by decide) (by decide) hc

theorem dropWhile_toDigits (n : Nat) : (Nat.toDigits 10 n).dropWhile Char.isDigit = [] :=
  List.dropWhile_eq_nil_iff.2 fun _ hc => Nat.isDigit_of_mem_toDigits (by decide) (by decide) hc

/-- The digits of a number are read back. -/
theorem readUnsigned_toDigits (text : List Char) (sign : Int) (n : Nat) :
    readUnsigned text sign (Nat.toDigits 10 n) = some (.int (sign * n)) := by
  have hzero : ¬ (Nat.toDigits 10 n = [] ∨
      (Nat.toDigits 10 n).head? = some '0' ∧ Nat.toDigits 10 n ≠ ['0']) := by
    rintro (h | ⟨hhead, hne⟩)
    · exact Nat.toDigits_ne_nil h
    · by_cases hn : n = 0
      · exact hne (hn ▸ rfl)
      · exact head?_toDigits_ne_zero hn hhead
  simp only [readUnsigned, takeWhile_toDigits, dropWhile_toDigits, if_neg hzero,
    Nat.ofDigitChars_ten_toDigits]

/-- An integer is read back from its digits. -/
theorem readNumber_printInt (n : Int) : readNumber (printInt n) = some (.int n) := by
  cases n with
  | ofNat n =>
    have hdigit : ∀ cs, printInt (.ofNat n) ≠ '-' :: cs := by
      intro cs h
      have hmem : '-' ∈ Nat.toDigits 10 n := by
        rw [printInt] at h
        rw [h]
        exact List.mem_cons_self
      exact absurd (Nat.isDigit_of_mem_toDigits (by decide) (by decide) hmem) (by decide)
    rw [readNumber]
    · rw [printInt, readUnsigned_toDigits, Int.one_mul]
      rfl
    · exact hdigit
  | negSucc n =>
    rw [printInt, readNumber, readUnsigned_toDigits]
    congr 2
    rw [Int.neg_one_mul]
    rfl

theorem isNumberChar_of_isDigit {c : Char} (h : c.isDigit) : isNumberChar c := by
  simp [isNumberChar, h]

theorem isNumberChar_of_mem_printInt {n : Int} {c : Char} (h : c ∈ printInt n) :
    isNumberChar c := by
  cases n with
  | ofNat n =>
    exact isNumberChar_of_isDigit (Nat.isDigit_of_mem_toDigits (by decide) (by decide) h)
  | negSucc n =>
    rcases List.mem_cons.1 h with rfl | h
    · decide
    · exact isNumberChar_of_isDigit (Nat.isDigit_of_mem_toDigits (by decide) (by decide) h)

/-! ## Documents -/

def isBlank (c : Char) : Bool := c = ' ' || c = '\t' || c = '\n' || c = '\r'

def skipBlanks (cs : List Char) : List Char := cs.dropWhile isBlank

/-- What follows the character `t`, when that is the next one. -/
def expect (t : Char) (cs : List Char) : Option (List Char) :=
  match skipBlanks cs with
  | [] => none
  | c :: rest => if c = t then some rest else none

/-- What follows the word `w`, when the text begins with it. -/
def expectWord (w : String) (cs : List Char) : Option (List Char) :=
  if w.toList.isPrefixOf cs then some (cs.drop w.toList.length) else none

/-- A document that is neither a string nor made of others. -/
def readScalar (cs : List Char) : Option (Json × List Char) :=
  match expectWord "null" cs with
  | some rest => some (.null, rest)
  | none =>
    match expectWord "true" cs with
    | some rest => some (.bool true, rest)
    | none =>
      match expectWord "false" cs with
      | some rest => some (.bool false, rest)
      | none => (readNumber (cs.takeWhile isNumberChar)).map (·, cs.dropWhile isNumberChar)

/-- The name of a member with its colon. -/
def readName (cs : List Char) : Option (String × List Char) :=
  match expect '"' cs with
  | none => none
  | some cs =>
    match readString cs with
    | none => none
    | some (name, cs) => (expect ':' cs).map (.ofList name, ·)

mutual

/-- A document at the front of a text; the fuel bounds its depth and its width. -/
def readValue : Nat → List Char → Option (Json × List Char)
  | 0, _ => none
  | fuel + 1, cs =>
    match skipBlanks cs with
    | [] => none
    | c :: cs =>
      if c = '"' then (readString cs).map fun r => (.str (.ofList r.1), r.2)
      else if c = '[' then
        match expect ']' cs with
        | some rest => some (.arr [], rest)
        | none => (readElements fuel cs).map fun r => (.arr r.1, r.2)
      else if c = '\x7b' then
        match expect '\x7d' cs with
        | some rest => some (.obj [], rest)
        | none => (readMembers fuel cs).map fun r => (.obj r.1, r.2)
      else readScalar (c :: cs)

/-- The elements of an array that is not empty, up to its closing bracket. -/
def readElements : Nat → List Char → Option (List Json × List Char)
  | 0, _ => none
  | fuel + 1, cs =>
    match readValue fuel cs with
    | none => none
    | some (x, cs) =>
      match expect ',' cs with
      | some cs => (readElements fuel cs).map fun r => (x :: r.1, r.2)
      | none => (expect ']' cs).map ([x], ·)

/-- The members of an object that is not empty, up to its closing brace. -/
def readMembers : Nat → List Char → Option (List (String × Json) × List Char)
  | 0, _ => none
  | fuel + 1, cs =>
    match readName cs with
    | none => none
    | some (name, cs) =>
      match readValue fuel cs with
      | none => none
      | some (v, cs) =>
        match expect ',' cs with
        | some cs => (readMembers fuel cs).map fun r => ((name, v) :: r.1, r.2)
        | none => (expect '\x7d' cs).map ([(name, v)], ·)

end

/-- The document that a whole text is. -/
def readJson (cs : List Char) : Option Json :=
  match readValue (cs.length + 1) cs with
  | some (j, rest) => if skipBlanks rest = [] then some j else none
  | none => none

/-- What follows an entry of an array or an object: its end, or the other entries. -/
def printRest (last : Bool) (close : Char) (more : List Char) : List Char :=
  if last then [close] else ',' :: more

mutual

def print : Json → List Char
  | .null => "null".toList
  | .bool true => "true".toList
  | .bool false => "false".toList
  | .int n => printInt n
  | .real text => text.toList
  | .str s => printString s
  | .arr xs => '[' :: printElements xs
  | .obj ms => '\x7b' :: printMembers ms

/-- The elements of an array and its closing bracket. -/
def printElements : List Json → List Char
  | [] => [']']
  | x :: xs => print x ++ printRest xs.isEmpty ']' (printElements xs)

/-- The members of an object and its closing brace. -/
def printMembers : List (String × Json) → List Char
  | [] => ['\x7d']
  | (name, v) :: ms =>
    printString name ++ ':' :: (print v ++ printRest ms.isEmpty '\x7d' (printMembers ms))

end

theorem print_int (n : Int) : print (.int n) = printInt n := rfl

theorem print_real (text : String) : print (.real text) = text.toList := rfl

theorem print_str (s : String) : print (.str s) = printString s := rfl

theorem print_arr (xs : List Json) : print (.arr xs) = '[' :: printElements xs := rfl

theorem print_obj (ms : List (String × Json)) : print (.obj ms) = '\x7b' :: printMembers ms := rfl

theorem printElements_cons (x : Json) (xs : List Json) :
    printElements (x :: xs) = print x ++ printRest xs.isEmpty ']' (printElements xs) := rfl

theorem printMembers_cons (name : String) (v : Json) (ms : List (String × Json)) :
    printMembers ((name, v) :: ms)
      = printString name ++ ':' :: (print v ++ printRest ms.isEmpty '\x7d' (printMembers ms)) := rfl

mutual

/-- Every number that is kept as a text is one, and is not written as an integer. -/
def printable : Json → Bool
  | .real text => text.toList.all isNumberChar &&
    (match readNumber text.toList with | some (.real t) => t = text | _ => false)
  | .arr xs => printableElements xs
  | .obj ms => printableMembers ms
  | .null | .bool _ | .int _ | .str _ => true

def printableElements : List Json → Bool
  | [] => true
  | x :: xs => printable x && printableElements xs

def printableMembers : List (String × Json) → Bool
  | [] => true
  | (_, v) :: ms => printable v && printableMembers ms

end

/-! ## The round trip -/

/-- A character that a document can begin with. -/
def StartsValue (c : Char) : Prop := isBlank c = false ∧ c ≠ ']' ∧ c ≠ '\x7d'

theorem startsValue_of_isNumberChar {c : Char} (h : isNumberChar c) : StartsValue c := by
  refine ⟨?_, ?_, ?_⟩
  · by_contra hb
    simp only [isBlank, Bool.not_eq_false, Bool.or_eq_true, decide_eq_true_eq] at hb
    rcases hb with ((rfl | rfl) | rfl) | rfl <;> exact absurd h (by decide)
  · rintro rfl
    exact absurd h (by decide)
  · rintro rfl
    exact absurd h (by decide)

/-- The text does not go on with a character of a number. -/
def EndsNumber (rest : List Char) : Prop := ∀ c ∈ rest.head?, isNumberChar c = false

theorem endsNumber_cons {c : Char} {cs : List Char} (h : isNumberChar c = false) :
    EndsNumber (c :: cs) := by
  rintro d hd
  rwa [← Option.some.inj hd]

theorem takeWhile_append_endsNumber {cs rest : List Char} (h : cs.all isNumberChar)
    (hrest : EndsNumber rest) : (cs ++ rest).takeWhile isNumberChar = cs := by
  rw [List.takeWhile_append_of_pos (List.all_eq_true.1 h)]
  cases rest with
  | nil => rw [List.takeWhile_nil, List.append_nil]
  | cons c rest => rw [List.takeWhile_cons_of_neg (by simp [hrest c rfl]), List.append_nil]

theorem dropWhile_append_endsNumber {cs rest : List Char} (h : cs.all isNumberChar)
    (hrest : EndsNumber rest) : (cs ++ rest).dropWhile isNumberChar = rest := by
  rw [List.dropWhile_append_of_pos (List.all_eq_true.1 h)]
  cases rest with
  | nil => rfl
  | cons c rest => rw [List.dropWhile_cons_of_neg (by simp [hrest c rfl])]

theorem skipBlanks_cons {c : Char} {cs : List Char} (h : isBlank c = false) :
    skipBlanks (c :: cs) = c :: cs :=
  List.dropWhile_cons_of_neg (by simp [h])

theorem expect_cons {t c : Char} {cs : List Char} (h : isBlank c = false) :
    expect t (c :: cs) = if c = t then some cs else none := by
  rw [expect, skipBlanks_cons h]

theorem expectWord_of_head_ne {w : String} {c d : Char} {ds cs : List Char}
    (hw : w.toList = d :: ds) (h : d ≠ c) : expectWord w (c :: cs) = none := by
  rw [expectWord, if_neg]
  rw [hw, List.isPrefixOf_iff_prefix, List.cons_prefix_cons]
  exact fun hp => h hp.1

/-- A number where a document is expected. -/
theorem readValue_number {fuel : Nat} {cs rest : List Char} {j : Json}
    (h : cs.all isNumberChar) (hread : readNumber cs = some j) (hrest : EndsNumber rest) :
    readValue (fuel + 1) (cs ++ rest) = some (j, rest) := by
  have hnumber := takeWhile_append_endsNumber h hrest
  have hafter := dropWhile_append_endsNumber h hrest
  cases cs with
  | nil => cases hread
  | cons c cs =>
    have hc : isNumberChar c := List.all_eq_true.1 h c List.mem_cons_self
    have hne : ∀ d, isNumberChar d = false → d ≠ c := by
      rintro d hd rfl
      exact Bool.false_ne_true (hd.symm.trans hc)
    rw [List.cons_append] at hnumber hafter ⊢
    simp only [readValue, skipBlanks_cons (startsValue_of_isNumberChar hc).1]
    rw [if_neg (hne _ (by decide)).symm, if_neg (hne _ (by decide)).symm,
      if_neg (hne _ (by decide)).symm, readScalar,
      expectWord_of_head_ne (d := 'n') rfl (hne _ (by decide)),
      expectWord_of_head_ne (d := 't') rfl (hne _ (by decide)),
      expectWord_of_head_ne (d := 'f') rfl (hne _ (by decide))]
    dsimp only
    rw [hnumber, hafter, hread]
    rfl

theorem printable_real {text : String} (h : printable (.real text)) :
    text.toList.all isNumberChar ∧ readNumber text.toList = some (.real text) := by
  rw [printable, Bool.and_eq_true] at h
  refine ⟨h.1, ?_⟩
  have hread := h.2
  split at hread
  next t heq => rw [heq, of_decide_eq_true hread]
  next => cases hread

/-- What a printed document begins with. -/
theorem exists_print_eq_cons {j : Json} (h : printable j) :
    ∃ c cs, print j = c :: cs ∧ StartsValue c := by
  have hnumber : ∀ cs, cs ≠ [] → cs.all isNumberChar → ∃ c t, cs = c :: t ∧ StartsValue c := by
    intro cs hne hall
    obtain ⟨c, t, rfl⟩ := List.exists_cons_of_ne_nil hne
    exact ⟨c, t, rfl,
      startsValue_of_isNumberChar (List.all_eq_true.1 hall c List.mem_cons_self)⟩
  cases j with
  | null => exact ⟨_, _, rfl, by decide, by decide, by decide⟩
  | bool b => cases b <;> exact ⟨_, _, rfl, by decide, by decide, by decide⟩
  | int n =>
    refine hnumber _ ?_ (List.all_eq_true.2 fun c hc => isNumberChar_of_mem_printInt hc)
    intro hnil
    rw [print_int] at hnil
    have hread := readNumber_printInt n
    rw [hnil] at hread
    cases hread
  | real text =>
    obtain ⟨hall, hread⟩ := printable_real h
    refine hnumber _ ?_ hall
    intro hnil
    rw [print_real] at hnil
    rw [hnil] at hread
    cases hread
  | str s => exact ⟨_, _, rfl, by decide, by decide, by decide⟩
  | arr xs => exact ⟨_, _, rfl, by decide, by decide, by decide⟩
  | obj ms => exact ⟨_, _, rfl, by decide, by decide, by decide⟩

/-- A name is read back. -/
theorem readName_print (name : String) (rest : List Char) :
    readName (printString name ++ ':' :: rest) = some (name, rest) := by
  have hread := readString_escaped name.toList (':' :: rest)
  rw [readName, printString, List.cons_append, expect_cons (by decide), if_pos rfl]
  dsimp only
  rw [List.append_assoc, List.singleton_append, hread]
  dsimp only
  rw [expect_cons (by decide), if_pos rfl, Option.map_some, String.ofList_toList]

/-- The end of an entry does not go on a number. -/
theorem endsNumber_printRest {c : Char} (h : isNumberChar c = false) (last : Bool)
    (more rest : List Char) : EndsNumber (printRest last c more ++ rest) := by
  cases last with
  | true => exact endsNumber_cons h
  | false => exact endsNumber_cons (by decide)

mutual

/-- A printed document is read back with what follows it. The fuel is above the length of the text,
which shrinks with every step into an array or an object. -/
theorem readValue_print : ∀ (j : Json) (fuel : Nat) (rest : List Char), printable j →
    (print j).length < fuel → EndsNumber rest → readValue fuel (print j ++ rest) = some (j, rest)
  | _, 0, _, _, hfuel, _ => absurd hfuel (Nat.not_lt_zero _)
  | .null, _ + 1, _, _, _, _ => rfl
  | .bool true, _ + 1, _, _, _, _ => rfl
  | .bool false, _ + 1, _, _, _, _ => rfl
  | .int n, _ + 1, _, _, _, hrest =>
    readValue_number (List.all_eq_true.2 fun _ hc => isNumberChar_of_mem_printInt hc)
      (readNumber_printInt n) hrest
  | .real _, _ + 1, _, h, _, hrest =>
    readValue_number (printable_real h).1 (printable_real h).2 hrest
  | .str s, _ + 1, rest, _, _, _ => by
    rw [print_str, printString, List.cons_append, List.append_assoc, List.singleton_append,
      readValue, skipBlanks_cons (by decide)]
    dsimp only
    rw [if_pos rfl, readString_escaped, Option.map_some, String.ofList_toList]
  | .arr [], _ + 1, _, _, _, _ => rfl
  | .arr (x :: xs), fuel + 1, rest, h, hfuel, _ => by
    rw [printable] at h
    rw [print_arr, List.length_cons] at hfuel
    have hread := readElements_print x xs fuel rest h (Nat.lt_of_succ_lt_succ hfuel)
    obtain ⟨c, cs, hprint, hc⟩ := exists_print_eq_cons (Bool.and_eq_true_iff.1 h).1
    have hhead : printElements (x :: xs) ++ rest =
        c :: (cs ++ printRest xs.isEmpty ']' (printElements xs) ++ rest) := by
      rw [printElements_cons, hprint]
      rfl
    rw [print_arr, List.cons_append, readValue, skipBlanks_cons (by decide)]
    dsimp only
    rw [if_neg (by decide), if_pos rfl, hhead, expect_cons hc.1, if_neg hc.2.1, ← hhead, hread]
    rfl
  | .obj [], _ + 1, _, _, _, _ => rfl
  | .obj ((name, v) :: ms), fuel + 1, rest, h, hfuel, _ => by
    rw [printable] at h
    rw [print_obj, List.length_cons] at hfuel
    have hread := readMembers_print name v ms fuel rest h (Nat.lt_of_succ_lt_succ hfuel)
    have hhead : ∃ cs, printMembers ((name, v) :: ms) ++ rest = '"' :: cs := ⟨_, rfl⟩
    obtain ⟨cs, hhead⟩ := hhead
    rw [print_obj, List.cons_append, readValue, skipBlanks_cons (by decide)]
    dsimp only
    rw [if_neg (by decide), if_neg (by decide), if_pos rfl, hhead, expect_cons (by decide),
      if_neg (by decide), ← hhead, hread]
    rfl

/-- Elements are read back. -/
theorem readElements_print : ∀ (x : Json) (xs : List Json) (fuel : Nat) (rest : List Char),
    printableElements (x :: xs) → (printElements (x :: xs)).length < fuel →
    readElements fuel (printElements (x :: xs) ++ rest) = some (x :: xs, rest)
  | _, _, 0, _, _, hfuel => absurd hfuel (Nat.not_lt_zero _)
  | x, xs, fuel + 1, rest, h, hfuel => by
    obtain ⟨hx, hxs⟩ := Bool.and_eq_true_iff.1 h
    rw [printElements_cons, List.length_append] at hfuel
    have hpos : 0 < (printRest xs.isEmpty ']' (printElements xs)).length := by
      rw [printRest]
      split_ifs <;> exact Nat.succ_pos _
    have hread := readValue_print x fuel _ hx (by omega)
      (endsNumber_printRest (c := ']') (by decide) xs.isEmpty (printElements xs) rest)
    rw [printElements_cons, List.append_assoc, readElements, hread]
    dsimp only
    cases xs with
    | nil => rfl
    | cons y ys =>
      have hmore := readElements_print y ys fuel rest hxs (by
        simp only [printRest, List.isEmpty_cons, Bool.false_eq_true, if_false,
          List.length_cons] at hfuel
        omega)
      simp only [printRest, List.isEmpty_cons, Bool.false_eq_true, if_false, List.cons_append,
        expect_cons (show isBlank ',' = false by decide), if_true, hmore, Option.map_some]

/-- Members are read back. -/
theorem readMembers_print : ∀ (name : String) (v : Json) (ms : List (String × Json)) (fuel : Nat)
    (rest : List Char), printableMembers ((name, v) :: ms) →
    (printMembers ((name, v) :: ms)).length < fuel →
    readMembers fuel (printMembers ((name, v) :: ms) ++ rest) = some ((name, v) :: ms, rest)
  | _, _, _, 0, _, _, hfuel => absurd hfuel (Nat.not_lt_zero _)
  | name, v, ms, fuel + 1, rest, h, hfuel => by
    obtain ⟨hv, hms⟩ := Bool.and_eq_true_iff.1 h
    rw [printMembers_cons, List.length_append, List.length_cons, List.length_append] at hfuel
    have hread := readValue_print v fuel _ hv (by omega)
      (endsNumber_printRest (c := '\x7d') (by decide) ms.isEmpty (printMembers ms) rest)
    rw [printMembers_cons, List.append_assoc, List.cons_append, List.append_assoc, readMembers,
      readName_print]
    dsimp only
    rw [hread]
    dsimp only
    cases ms with
    | nil => rfl
    | cons m ms =>
      obtain ⟨name', w⟩ := m
      have hmore := readMembers_print name' w ms fuel rest hms (by
        simp only [printRest, List.isEmpty_cons, Bool.false_eq_true, if_false,
          List.length_cons] at hfuel
        omega)
      simp only [printRest, List.isEmpty_cons, Bool.false_eq_true, if_false, List.cons_append,
        expect_cons (show isBlank ',' = false by decide), if_true, hmore, Option.map_some]

end

/-- **A printed document is read back.** -/
theorem readJson_print {j : Json} (h : printable j) : readJson (print j) = some j := by
  have hread := readValue_print j _ [] h (Nat.lt_succ_self _) (fun _ hc => by cases hc)
  rw [List.append_nil] at hread
  rw [readJson, hread]
  rfl

/-! ## Maps -/

/-- The entry of a key in a member list that is sorted by its keys. -/
def insertMember (k : String) (v : Json) : List (String × Json) → List (String × Json)
  | [] => [(k, v)]
  | (n, w) :: ms =>
    if k < n then (k, v) :: (n, w) :: ms
    else if k = n then (k, v) :: ms
    else (n, w) :: insertMember k v ms

/-- Entering members one after the other, the last of a name wins. -/
def enterMembers (into ms : List (String × Json)) : List (String × Json) :=
  ms.foldl (fun acc m => insertMember m.1 m.2 acc) into

/-- The members of a map in the order of their keys. -/
def sortMembers (ms : List (String × Json)) : List (String × Json) := enterMembers [] ms

/-- The keys increase. -/
def SortedMembers (ms : List (String × Json)) : Prop := ms.Pairwise fun m m' => m.1 < m'.1

theorem mem_insertMember {k : String} {v : Json} {ms : List (String × Json)} {m : String × Json}
    (h : m ∈ insertMember k v ms) : m = (k, v) ∨ m ∈ ms := by
  induction ms with
  | nil => exact .inl (List.mem_singleton.1 h)
  | cons a ms ih =>
    obtain ⟨n, w⟩ := a
    rw [insertMember] at h
    split_ifs at h with hlt heq
    · rcases List.mem_cons.1 h with h | h
      · exact .inl h
      · exact .inr h
    · rcases List.mem_cons.1 h with h | h
      · exact .inl h
      · exact .inr (List.mem_cons_of_mem _ h)
    · rcases List.mem_cons.1 h with h | h
      · exact .inr (h ▸ List.mem_cons_self)
      · exact (ih h).imp_right (List.mem_cons_of_mem _)

/-- An insertion keeps the order. -/
theorem SortedMembers.insertMember {ms : List (String × Json)} (h : SortedMembers ms) (k : String)
    (v : Json) : SortedMembers (insertMember k v ms) := by
  induction ms with
  | nil => exact List.pairwise_singleton _ _
  | cons a ms ih =>
    obtain ⟨n, w⟩ := a
    obtain ⟨hn, hms⟩ := List.pairwise_cons.1 h
    rw [Json.insertMember]
    split_ifs with hlt heq
    · refine List.pairwise_cons.2 ⟨?_, h⟩
      intro m hm
      rcases List.mem_cons.1 hm with rfl | hm
      · exact hlt
      · exact hlt.trans (hn m hm)
    · exact List.pairwise_cons.2 ⟨fun m hm => heq ▸ hn m hm, hms⟩
    · refine List.pairwise_cons.2 ⟨?_, ih hms⟩
      intro m hm
      rcases mem_insertMember hm with rfl | hm
      · exact lt_of_le_of_ne (not_lt.1 hlt) (Ne.symm heq)
      · exact hn m hm

theorem SortedMembers.enterMembers {acc : List (String × Json)} (h : SortedMembers acc)
    (ms : List (String × Json)) : SortedMembers (enterMembers acc ms) := by
  induction ms generalizing acc with
  | nil => exact h
  | cons m ms ih => exact ih (h.insertMember m.1 m.2)

theorem sortedMembers_sortMembers (ms : List (String × Json)) : SortedMembers (sortMembers ms) :=
  SortedMembers.enterMembers List.Pairwise.nil ms

/-- A key above all others goes to the end. -/
theorem insertMember_of_forall_lt {k : String} {v : Json} {ms : List (String × Json)}
    (h : ∀ m ∈ ms, m.1 < k) : insertMember k v ms = ms ++ [(k, v)] := by
  induction ms with
  | nil => rfl
  | cons a ms ih =>
    obtain ⟨n, w⟩ := a
    obtain ⟨hn, hms⟩ := List.forall_mem_cons.1 h
    rw [insertMember, if_neg hn.not_gt, if_neg hn.ne', ih hms, List.cons_append]

/-- Sorted members are entered as they stand. -/
theorem enterMembers_of_sorted {acc ms : List (String × Json)} (h : SortedMembers (acc ++ ms)) :
    enterMembers acc ms = acc ++ ms := by
  induction ms generalizing acc with
  | nil => exact (List.append_nil acc).symm
  | cons m ms ih =>
    have hlast : insertMember m.1 m.2 acc = acc ++ [m] :=
      insertMember_of_forall_lt fun a ha =>
        (List.pairwise_append.1 h).2.2 a ha m List.mem_cons_self
    have hcons : acc ++ m :: ms = (acc ++ [m]) ++ ms := by rw [List.append_assoc]; rfl
    rw [hcons] at h ⊢
    rw [← ih h, ← hlast]
    rfl

/-- A sorted list is the form of the map it is. -/
theorem SortedMembers.sortMembers_eq {ms : List (String × Json)} (h : SortedMembers ms) :
    sortMembers ms = ms :=
  enterMembers_of_sorted h

end Json

end CcOciRuntime
