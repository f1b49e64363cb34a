import CcOciRuntime.Lib.JsonText

/-!
# The quotes of a JSON text

A string of a document needs two quotes in the text it is read from, and a backslash for each quote
and each backslash in it. So a document with much in its strings cannot be read from a text with few
quotes: `weight_le_quotes` bounds the one by the other. `readString_self` says which texts between
quotes are read as they stand. The last section reads an object from a text that begins as a printed
one does, whatever follows.
-/

namespace CcOciRuntime

namespace Json

/-- One for a quote or a backslash. -/
def quoteWeight (c : Char) : Nat := if c = '"' ∨ c = '\\' then 1 else 0

/-- The number of quotes and backslashes of a text. -/
def quotes : List Char → Nat
  | [] => 0
  | c :: cs => quoteWeight c + quotes cs

@[simp] theorem quotes_cons (c : Char) (cs : List Char) :
    quotes (c :: cs) = quoteWeight c + quotes cs := rfl

@[simp] theorem quotes_append (cs ds : List Char) :
    quotes (cs ++ ds) = quotes cs + quotes ds := by
  induction cs with
  | nil => exact (Nat.zero_add _).symm
  | cons c cs ih => rw [List.cons_append, quotes_cons, quotes_cons, ih, Nat.add_assoc]

theorem quoteWeight_le (c : Char) : quoteWeight c ≤ 1 := by
  rw [quoteWeight]
  split_ifs <;> decide

theorem quotes_le_of_suffix {cs ds : List Char} (h : cs <:+ ds) : quotes cs ≤ quotes ds := by
  obtain ⟨front, rfl⟩ := h
  rw [quotes_append]
  exact Nat.le_add_left _ _

/-! ## Characters and strings -/

/-- A character that may stand in a string as it is. -/
def Unescaped (c : Char) : Prop := c ≠ '"' ∧ c ≠ '\\' ∧ 0x20 ≤ c.toNat

instance : DecidablePred Unescaped := fun _ => inferInstanceAs (Decidable (_ ∧ _))

theorem unescaped_of_all {cs : List Char} (h : cs.all (decide <| Unescaped ·) = true) :
    ∀ c ∈ cs, Unescaped c := fun c hc => of_decide_eq_true (List.all_eq_true.1 h c hc)

theorem quotes_eq_zero {cs : List Char} (h : ∀ c ∈ cs, Unescaped c) : quotes cs = 0 := by
  induction cs with
  | nil => rfl
  | cons c cs ih =>
    obtain ⟨hc, hcs⟩ := List.forall_mem_cons.1 h
    have hzero : quoteWeight c = 0 := if_neg (not_or.2 ⟨hc.1, hc.2.1⟩)
    rw [quotes_cons, ih hcs, hzero]

theorem hexVal_quote : hexVal '"' = none := by decide

/-- Hexadecimal digits are no quotation marks. -/
theorem readHex_eq_some {cs rest : List Char} {n : Nat} (h : readHex cs = some (n, rest)) :
    ∃ ds, cs = ds ++ rest ∧ '"' ∉ ds := by
  unfold readHex at h
  split at h
  · next a b c d tail =>
    split at h
    · next ha hb hc hd =>
      obtain ⟨-, rfl⟩ := Prod.mk.inj (Option.some.inj h)
      refine ⟨[a, b, c, d], rfl, ?_⟩
      simp only [List.mem_cons, List.not_mem_nil, or_false, not_or]
      refine ⟨?_, ?_, ?_, ?_⟩ <;> rintro rfl
      · rw [hexVal_quote] at ha
        cases ha
      · rw [hexVal_quote] at hb
        cases hb
      · rw [hexVal_quote] at hc
        cases hc
      · rw [hexVal_quote] at hd
        cases hd
    · cases h
  · cases h

/-- Nor is the second of a surrogate pair. -/
theorem readLowSurrogate_eq_some {cs rest : List Char} {n : Nat}
    (h : readLowSurrogate cs = some (n, rest)) : ∃ ds, cs = ds ++ rest ∧ '"' ∉ ds := by
  unfold readLowSurrogate at h
  split at h
  · next tail =>
    split at h
    · next m rest' hhex =>
      split_ifs at h
      obtain ⟨-, rfl⟩ := Prod.mk.inj (Option.some.inj h)
      obtain ⟨ds, rfl, hds⟩ := readHex_eq_some hhex
      exact ⟨'\\' :: 'u' :: ds, rfl, by simpa using hds⟩
    · cases h
  · cases h

/-- Nor is an escaped character. -/
theorem readUnicode_eq_some {cs rest : List Char} {c : Char}
    (h : readUnicode cs = some (c, rest)) : ∃ ds, cs = ds ++ rest ∧ '"' ∉ ds := by
  unfold readUnicode at h
  split at h
  · cases h
  · next n tail hhex =>
    obtain ⟨ds, rfl, hds⟩ := readHex_eq_some hhex
    split at h
    · split at h
      · next low rest' hlow =>
        obtain ⟨es, rfl, hes⟩ := readLowSurrogate_eq_some hlow
        split at h
        · obtain ⟨-, rfl⟩ := Prod.mk.inj (Option.some.inj h)
          exact ⟨ds ++ es, (List.append_assoc ds es rest').symm, List.not_mem_append hds hes⟩
        · obtain ⟨-, rfl⟩ := Prod.mk.inj (Option.some.inj h)
          exact ⟨ds, rfl, hds⟩
      · obtain ⟨-, rfl⟩ := Prod.mk.inj (Option.some.inj h)
        exact ⟨ds, rfl, hds⟩
    · obtain ⟨-, rfl⟩ := Prod.mk.inj (Option.some.inj h)
      exact ⟨ds, rfl, hds⟩

/-- **One character of a string** stands there as it is, or is an escape, in which a quote can only
be the one that is escaped. -/
theorem readChar_eq_some {cs rest : List Char} {c : Char} (h : readChar cs = some (c, rest)) :
    (cs = c :: rest ∧ Unescaped c) ∨
      ∃ esc, cs = '\\' :: (esc ++ rest) ∧ esc ≠ [] ∧ (esc = ['"'] ∨ '"' ∉ esc) := by
  cases cs with
  | nil => cases h
  | cons d cs =>
    rw [readChar.eq_def] at h
    dsimp only at h
    split_ifs at h with hslash hplain
    · subst hslash
      right
      split at h
      · cases h
      · next e tail =>
        split_ifs at h with hu
        · subst hu
          obtain ⟨ds, rfl, hds⟩ := readUnicode_eq_some h
          exact ⟨'u' :: ds, rfl, List.cons_ne_nil _ _, .inr (by simpa using hds)⟩
        · obtain ⟨x, -, hx⟩ := Option.map_eq_some_iff.1 h
          obtain ⟨-, rfl⟩ := Prod.mk.inj hx
          refine ⟨[e], rfl, List.cons_ne_nil _ _, ?_⟩
          by_cases he : e = '"'
          · exact .inl (by rw [he])
          · exact .inr (by simpa using Ne.symm he)
    · obtain ⟨rfl, rfl⟩ := Prod.mk.inj (Option.some.inj h)
      push Not at hplain
      exact .inl ⟨rfl, hplain.1, hslash, hplain.2⟩

/-- A character takes as many quotes and backslashes as it is. -/
theorem quotes_readChar {cs rest : List Char} {c : Char} (h : readChar cs = some (c, rest)) :
    quoteWeight c + quotes rest ≤ quotes cs := by
  rcases readChar_eq_some h with ⟨rfl, -⟩ | ⟨esc, rfl, -, -⟩
  · exact Nat.le_refl _
  · have hc := quoteWeight_le c
    have hslash : quoteWeight '\\' = 1 := rfl
    rw [quotes_cons, quotes_append]
    omega

theorem readStringFuel_succ (fuel : Nat) (c : Char) (cs : List Char) :
    readStringFuel (fuel + 1) (c :: cs) = if c = '"' then some ([], cs) else
      match readChar (c :: cs) with
      | none => none
      | some (ch, rest) => (readStringFuel fuel rest).map fun r => (ch :: r.1, r.2) := rfl

/-- How a string is read: its closing quote, or a character and the rest. -/
theorem readStringFuel_eq_some {fuel : Nat} {cs s rest : List Char}
    (h : readStringFuel fuel cs = some (s, rest)) :
    (cs = '"' :: rest ∧ s = []) ∨
      ∃ fuel' c s' tail, readChar cs = some (c, tail) ∧ s = c :: s' ∧
        readStringFuel fuel' tail = some (s', rest) ∧ fuel = fuel' + 1 := by
  cases fuel with
  | zero => cases h
  | succ fuel =>
    cases cs with
    | nil => cases h
    | cons d cs =>
      rw [readStringFuel_succ] at h
      split_ifs at h with hquote
      · subst hquote
        obtain ⟨rfl, rfl⟩ := Prod.mk.inj (Option.some.inj h)
        exact .inl ⟨rfl, rfl⟩
      · split at h
        · cases h
        · next ch tail hchar =>
          obtain ⟨r, hr, heq⟩ := Option.map_eq_some_iff.1 h
          obtain ⟨rfl, rfl⟩ := Prod.mk.inj heq
          exact .inr ⟨fuel, ch, r.1, tail, hchar, rfl, hr, rfl⟩

/-- A string takes its quotes and backslashes, and the quote that closes it. -/
theorem quotes_readString {cs s rest : List Char} (h : readString cs = some (s, rest)) :
    quotes s + 1 + quotes rest ≤ quotes cs := by
  rw [readString] at h
  generalize cs.length = fuel at h
  induction fuel generalizing cs s with
  | zero => cases h
  | succ fuel ih =>
    rcases readStringFuel_eq_some h with ⟨rfl, rfl⟩ | ⟨fuel', c, s', tail, hchar, rfl, htail, hf⟩
    · exact Nat.le_refl _
    · obtain rfl : fuel = fuel' := Nat.succ.inj hf
      have hc := quotes_readChar hchar
      have hs := ih htail
      rw [quotes_cons]
      omega

/-- A plain character stands for itself. -/
theorem readChar_unescaped {c : Char} (h : Unescaped c) (rest : List Char) :
    readChar (c :: rest) = some (c, rest) := by
  obtain ⟨hquote, hslash, hcontrol⟩ := h
  have hplain : ¬ (c = '"' ∨ c.toNat < 0x20) := by
    rintro (hc | hc)
    · exact hquote hc
    · omega
  rw [readChar.eq_def]
  dsimp only
  rw [if_neg hslash, if_neg hplain]

/-- A plain text is read up to its quotation mark. -/
theorem readStringFuel_unescaped {fuel : Nat} {s rest : List Char} (h : ∀ c ∈ s, Unescaped c)
    (hfuel : s.length < fuel) : readStringFuel fuel (s ++ '"' :: rest) = some (s, rest) := by
  induction s generalizing fuel with
  | nil =>
    obtain ⟨fuel, rfl⟩ := Nat.exists_eq_succ_of_ne_zero (Nat.ne_of_gt hfuel)
    rfl
  | cons c s ih =>
    obtain ⟨fuel, rfl⟩ := Nat.exists_eq_succ_of_ne_zero (Nat.ne_of_gt (Nat.zero_lt_of_lt hfuel))
    obtain ⟨hc, hs⟩ := List.forall_mem_cons.1 h
    rw [List.cons_append, readStringFuel_succ, if_neg hc.1, readChar_unescaped hc]
    dsimp only
    rw [ih hs (Nat.lt_of_succ_lt_succ hfuel), Option.map_some]

/-- A text without escapes is read as it stands. -/
theorem readString_unescaped {s : List Char} (h : ∀ c ∈ s, Unescaped c) (rest : List Char) :
    readString (s ++ '"' :: rest) = some (s, rest) := by
  refine readStringFuel_unescaped h ?_
  rw [List.length_append, List.length_cons]
  omega

/-- A plain text is all that is read. -/
theorem eq_of_readStringFuel_unescaped {fuel : Nat} {t s tail rest : List Char}
    (ht : ∀ c ∈ t, Unescaped c) (h : readStringFuel fuel (t ++ '"' :: tail) = some (s, rest)) :
    s = t := by
  induction t generalizing fuel s with
  | nil =>
    rcases readStringFuel_eq_some h with ⟨-, rfl⟩ | ⟨_, _, _, _, hchar, -⟩
    · rfl
    · cases hchar
  | cons d t ih =>
    obtain ⟨hd, ht⟩ := List.forall_mem_cons.1 ht
    rcases readStringFuel_eq_some h with ⟨heq, -⟩ | ⟨fuel', c, s', tail', hchar, rfl, htail, -⟩
    · exact absurd (List.cons.inj heq).1 hd.1
    · rw [List.cons_append, readChar_unescaped hd] at hchar
      obtain ⟨rfl, rfl⟩ := Prod.mk.inj (Option.some.inj hchar)
      rw [ih ht htail]

/-- Where an escape ends that begins in front of `u` and a quote: in `u`, unless it escapes the
quote. -/
theorem escape_append {u esc rest tail : List Char} (h : u ++ '"' :: tail = esc ++ rest)
    (hquote : esc = ['"'] ∨ '"' ∉ esc) :
    (∃ u', u = esc ++ u' ∧ rest = u' ++ '"' :: tail) ∨ (u = [] ∧ esc = ['"'] ∧ rest = tail) := by
  rcases List.append_eq_append_iff.1 h with ⟨a, rfl, hrest⟩ | ⟨a, rfl, rfl⟩
  · cases a with
    | nil => exact .inl ⟨[], by simp, hrest.symm⟩
    | cons b a =>
      obtain ⟨rfl, rfl⟩ := List.cons.inj hrest
      rcases hquote with hquote | hquote
      · cases u with
        | nil =>
          obtain rfl : a = [] := (List.cons.inj hquote).2
          exact .inr ⟨rfl, rfl, rfl⟩
        | cons c u => exact absurd (List.cons.inj hquote).2 (by simp)
      · exact absurd (List.mem_append_right u List.mem_cons_self) hquote
  · exact .inl ⟨a, rfl, rfl⟩

/-- What a text `u` between a quote and the next one is read as: itself, if it has no escapes, or
something shorter; or its last backslash escapes the quote behind it, and the string goes on with
the text `t` up to the quote after that. -/
theorem readStringFuel_between {t : List Char} (ht : ∀ c ∈ t, Unescaped c) {fuel : Nat}
    {u s tail rest : List Char}
    (h : readStringFuel fuel (u ++ '"' :: (t ++ '"' :: tail)) = some (s, rest)) :
    (s = u ∧ ∀ c ∈ u, Unescaped c) ∨ s.length < u.length ∨
      ((∃ w, s = w ++ '"' :: t) ∧ u.getLast? = some '\\') := by
  induction fuel generalizing u s with
  | zero => cases h
  | succ fuel ih =>
    rcases readStringFuel_eq_some h with ⟨heq, rfl⟩ | ⟨fuel', c, s', tail', hchar, rfl, htail, hf⟩
    · -- the string ends here
      cases u with
      | nil => exact .inl ⟨rfl, fun c hc => by cases hc⟩
      | cons d u => exact .inr (.inl (Nat.succ_pos _))
    · obtain rfl : fuel = fuel' := Nat.succ.inj hf
      rcases readChar_eq_some hchar with ⟨heq, hc⟩ | ⟨esc, heq, hesc, hquote⟩
      · cases u with
        | nil => exact absurd (List.cons.inj heq).1.symm hc.1
        | cons d u =>
          obtain ⟨rfl, rfl⟩ := List.cons.inj heq
          rcases ih htail with ⟨rfl, hu⟩ | hlt | ⟨⟨w, rfl⟩, hlast⟩
          · exact .inl ⟨rfl, List.forall_mem_cons.2 ⟨hc, hu⟩⟩
          · exact .inr (.inl (Nat.succ_lt_succ hlt))
          · exact .inr (.inr ⟨⟨d :: w, rfl⟩, by rw [List.getLast?_cons, hlast]; rfl⟩)
      · cases u with
        | nil => exact absurd (List.cons.inj heq).1 (by decide)
        | cons d u =>
          obtain ⟨rfl, hsplit⟩ := List.cons.inj heq
          rcases escape_append hsplit hquote with ⟨u', rfl, rfl⟩ | ⟨rfl, rfl, rfl⟩
          · have hpos := List.length_pos_iff.2 hesc
            rw [List.length_cons, List.length_cons, List.length_append]
            rcases ih htail with ⟨rfl, -⟩ | hlt | ⟨⟨w, rfl⟩, hlast⟩
            · exact .inr (.inl (by omega))
            · exact .inr (.inl (by omega))
            · refine .inr (.inr ⟨⟨c :: w, rfl⟩, ?_⟩)
              rw [← List.cons_append, List.getLast?_append, hlast]
              rfl
          · have hc : c = '"' := (Prod.mk.inj (Option.some.inj hchar)).1.symm
            obtain rfl := eq_of_readStringFuel_unescaped ht htail
            exact .inr (.inr ⟨⟨[], by rw [hc]; rfl⟩, rfl⟩)

/-- **A text that is read as it stands** between two quotes has no escapes; behind it stands another
quote, with something between that could stand in a string. -/
theorem readString_self {u t tail rest : List Char} (ht : ∀ c ∈ t, Unescaped c) (hne : t ≠ [])
    (h : readString (u ++ '"' :: (t ++ '"' :: tail)) = some (u, rest)) : ∀ c ∈ u, Unescaped c := by
  rcases readStringFuel_between ht h with ⟨-, hu⟩ | hlt | ⟨⟨w, hw⟩, hlast⟩
  · exact hu
  · exact absurd hlt (Nat.lt_irrefl _)
  · rw [hw, List.getLast?_append, List.getLast?_cons,
      List.getLast?_eq_getLast_of_ne_nil hne] at hlast
    obtain ⟨-, hslash, -⟩ := ht _ (List.getLast_mem hne)
    exact absurd (Option.some.inj hlast) hslash

/-! ## Documents -/

mutual

/-- The quotes and backslashes that a document needs for its strings. -/
def weight : Json → Nat
  | .str s => quotes s.toList + 2
  | .arr xs => weightElements xs
  | .obj ms => weightMembers ms
  | .null | .bool _ | .int _ | .real _ => 0

def weightElements : List Json → Nat
  | [] => 0
  | x :: xs => weight x + weightElements xs

def weightMembers : List (String × Json) → Nat
  | [] => 0
  | (name, v) :: ms => quotes name.toList + 2 + weight v + weightMembers ms

end

theorem expect_suffix {t : Char} {cs rest : List Char} (h : expect t cs = some rest) :
    t :: rest <:+ cs := by
  have hblanks : skipBlanks cs <:+ cs := List.dropWhile_suffix _
  rw [expect] at h
  split at h
  · cases h
  · next c tail hcs =>
    split_ifs at h with hc
    obtain rfl := Option.some.inj h
    rw [hcs, hc] at hblanks
    exact hblanks

theorem quotes_expect {t : Char} {cs rest : List Char} (h : expect t cs = some rest) :
    quoteWeight t + quotes rest ≤ quotes cs :=
  quotes_le_of_suffix (expect_suffix h)

/-- The name of a member takes its two quotes. -/
theorem quotes_readName {cs rest : List Char} {name : String}
    (h : readName cs = some (name, rest)) :
    quotes name.toList + 2 + quotes rest ≤ quotes cs := by
  rw [readName] at h
  split at h
  · cases h
  · next tail hopen =>
    split at h
    · cases h
    · next s tail' hstring =>
      obtain ⟨rest', hcolon, heq⟩ := Option.map_eq_some_iff.1 h
      obtain ⟨rfl, rfl⟩ := Prod.mk.inj heq
      have h1 := quotes_expect hopen
      have h2 := quotes_readString hstring
      have h3 := quotes_expect hcolon
      have hquote : quoteWeight '"' = 1 := rfl
      rw [String.toList_ofList]
      omega


/-- A number weighs nothing. -/
theorem weight_readNumber {cs : List Char} {j : Json} (h : readNumber cs = some j) :
    weight j = 0 := by
  have hunsigned : ∀ text sign ds, readUnsigned text sign ds = some j → weight j = 0 := by
    intro text sign ds h
    unfold readUnsigned at h
    dsimp only at h
    split_ifs at h
    split at h
    · obtain rfl := Option.some.inj h
      rfl
    · split at h
      · cases h
      · split_ifs at h
        obtain rfl := Option.some.inj h
        rfl
  unfold readNumber at h
  split at h
  · exact hunsigned _ _ _ h
  · exact hunsigned _ _ _ h

theorem expectWord_suffix {w : String} {cs rest : List Char} (h : expectWord w cs = some rest) :
    rest <:+ cs := by
  rw [expectWord] at h
  split_ifs at h
  obtain rfl := Option.some.inj h
  exact List.drop_suffix _ _

/-- Nor does another scalar. -/
theorem readScalar_eq_some {cs rest : List Char} {j : Json} (h : readScalar cs = some (j, rest)) :
    weight j = 0 ∧ rest <:+ cs := by
  unfold readScalar at h
  split at h
  · next hword =>
    obtain ⟨rfl, rfl⟩ := Prod.mk.inj (Option.some.inj h)
    exact ⟨rfl, expectWord_suffix hword⟩
  · split at h
    · next hword =>
      obtain ⟨rfl, rfl⟩ := Prod.mk.inj (Option.some.inj h)
      exact ⟨rfl, expectWord_suffix hword⟩
    · split at h
      · next hword =>
        obtain ⟨rfl, rfl⟩ := Prod.mk.inj (Option.some.inj h)
        exact ⟨rfl, expectWord_suffix hword⟩
      · obtain ⟨j', hnumber, heq⟩ := Option.map_eq_some_iff.1 h
        obtain ⟨rfl, rfl⟩ := Prod.mk.inj heq
        exact ⟨weight_readNumber hnumber, List.dropWhile_suffix _⟩

/-- What a reader with `fuel` takes from a text. -/
structure Takes (fuel : Nat) : Prop where
  value : ∀ {cs j rest}, readValue fuel cs = some (j, rest) → weight j + quotes rest ≤ quotes cs
  elements : ∀ {cs xs rest}, readElements fuel cs = some (xs, rest) →
    weightElements xs + quotes rest ≤ quotes cs
  members : ∀ {cs ms rest}, readMembers fuel cs = some (ms, rest) →
    weightMembers ms + quotes rest ≤ quotes cs

section
variable {fuel : Nat} {cs rest : List Char}

/-- A value takes as many marks as it weighs. -/
theorem Takes.value_succ (ih : Takes fuel) {j : Json}
    (h : readValue (fuel + 1) cs = some (j, rest)) : weight j + quotes rest ≤ quotes cs := by
  have hblanks : quotes (skipBlanks cs) ≤ quotes cs :=
    quotes_le_of_suffix (List.dropWhile_suffix _)
  rw [readValue] at h
  split at h
  · cases h
  · next c tail hcs =>
    rw [hcs, quotes_cons] at hblanks
    split_ifs at h with hquote harr hobj
    · obtain ⟨r, hstring, heq⟩ := Option.map_eq_some_iff.1 h
      obtain ⟨rfl, rfl⟩ := Prod.mk.inj heq
      have hr := quotes_readString hstring
      have hone : quoteWeight c = 1 := by rw [hquote]; rfl
      rw [weight, String.toList_ofList]
      omega
    · split at h
      · next hclose =>
        obtain ⟨rfl, rfl⟩ := Prod.mk.inj (Option.some.inj h)
        have hr := quotes_expect hclose
        rw [weight, weightElements]
        omega
      · obtain ⟨r, helements, heq⟩ := Option.map_eq_some_iff.1 h
        obtain ⟨rfl, rfl⟩ := Prod.mk.inj heq
        have hr := ih.elements helements
        rw [weight]
        omega
    · split at h
      · next hclose =>
        obtain ⟨rfl, rfl⟩ := Prod.mk.inj (Option.some.inj h)
        have hr := quotes_expect hclose
        rw [weight, weightMembers]
        omega
      · obtain ⟨r, hmembers, heq⟩ := Option.map_eq_some_iff.1 h
        obtain ⟨rfl, rfl⟩ := Prod.mk.inj heq
        have hr := ih.members hmembers
        rw [weight]
        omega
    · obtain ⟨hzero, hsuffix⟩ := readScalar_eq_some h
      have hr := quotes_le_of_suffix hsuffix
      rw [quotes_cons] at hr
      omega

/-- So do the elements of an array. -/
theorem Takes.elements_succ (ih : Takes fuel) {xs : List Json}
    (h : readElements (fuel + 1) cs = some (xs, rest)) :
    weightElements xs + quotes rest ≤ quotes cs := by
  rw [readElements] at h
  split at h
  · cases h
  · next x tail hvalue =>
    have hx := ih.value hvalue
    split at h
    · next more hcomma =>
      obtain ⟨r, helements, heq⟩ := Option.map_eq_some_iff.1 h
      obtain ⟨rfl, rfl⟩ := Prod.mk.inj heq
      have hcomma := quotes_expect hcomma
      have hr := ih.elements helements
      rw [weightElements]
      omega
    · obtain ⟨rest', hclose, heq⟩ := Option.map_eq_some_iff.1 h
      obtain ⟨rfl, rfl⟩ := Prod.mk.inj heq
      have hclose := quotes_expect hclose
      rw [weightElements, weightElements]
      omega

/-- So do the members of an object. -/
theorem Takes.members_succ (ih : Takes fuel) {ms : List (String × Json)}
    (h : readMembers (fuel + 1) cs = some (ms, rest)) :
    weightMembers ms + quotes rest ≤ quotes cs := by
  rw [readMembers] at h
  split at h
  · cases h
  · next name tail hname =>
    have hn := quotes_readName hname
    split at h
    · cases h
    · next v tail' hvalue =>
      have hv := ih.value hvalue
      split at h
      · next more hcomma =>
        obtain ⟨r, hmembers, heq⟩ := Option.map_eq_some_iff.1 h
        obtain ⟨rfl, rfl⟩ := Prod.mk.inj heq
        have hcomma := quotes_expect hcomma
        have hr := ih.members hmembers
        rw [weightMembers]
        omega
      · obtain ⟨rest', hclose, heq⟩ := Option.map_eq_some_iff.1 h
        obtain ⟨rfl, rfl⟩ := Prod.mk.inj heq
        have hclose := quotes_expect hclose
        rw [weightMembers, weightMembers]
        omega

end

/-- All of it, by induction on the fuel. -/
theorem takes (fuel : Nat) : Takes fuel := by
  induction fuel with
  | zero =>
    refine ⟨fun h => ?_, fun h => ?_, fun h => ?_⟩
    · rw [readValue] at h
      cases h
    · rw [readElements] at h
      cases h
    · rw [readMembers] at h
      cases h
  | succ fuel ih => exact ⟨ih.value_succ, ih.elements_succ, ih.members_succ⟩

/-- **The strings of a document** need the quotes and backslashes of the text it is read from. -/
theorem weight_le_quotes {cs : List Char} {j : Json} (h : readJson cs = some j) :
    weight j ≤ quotes cs := by
  rw [readJson] at h
  split at h
  · next j' rest hvalue =>
    split_ifs at h
    obtain rfl := Option.some.inj h
    exact Nat.le_trans (Nat.le_add_right _ _) ((takes _).value hvalue)
  · cases h

/-- A member takes a part of the weight. -/
theorem weight_le_weightMembers {name : String} {v : Json} {ms : List (String × Json)}
    (h : (name, v) ∈ ms) : quotes name.toList + 2 + weight v ≤ weightMembers ms := by
  induction ms with
  | nil => cases h
  | cons m ms ih =>
    obtain ⟨n, w⟩ := m
    rw [weightMembers]
    rcases List.mem_cons.1 h with heq | h
    · obtain ⟨rfl, rfl⟩ := Prod.mk.inj heq
      omega
    · have hle := ih h
      omega

/-! ## Objects that begin with printed names -/

section
variable {fuel : Nat} {name : String} {cs rest : List Char} {ms : List (String × Json)}

theorem printString_eq_cons (name : String) : ∃ tail, printString name = '"' :: tail := ⟨_, rfl⟩

/-- The brace of an object with a member. -/
theorem readValue_brace (fuel : Nat) (name : String) (cs : List Char) :
    readValue (fuel + 1) ('\x7b' :: (printString name ++ cs)) =
      (readMembers fuel (printString name ++ cs)).map fun r => (.obj r.1, r.2) := by
  obtain ⟨tail, htail⟩ := printString_eq_cons name
  rw [readValue, skipBlanks_cons (by decide)]
  dsimp only
  rw [if_neg (by decide), if_neg (by decide), if_pos rfl, htail, List.cons_append,
    expect_cons (by decide), if_neg (by decide)]

theorem readValue_quote (fuel : Nat) (cs : List Char) :
    readValue (fuel + 1) ('"' :: cs) = (readString cs).map fun r => (.str (.ofList r.1), r.2) := by
  rw [readValue, skipBlanks_cons (by decide)]
  dsimp only
  rw [if_pos rfl]

theorem readValue_printString (fuel : Nat) (s : String) (rest : List Char) :
    readValue (fuel + 1) (printString s ++ rest) = some (.str s, rest) := by
  rw [printString, List.cons_append, List.append_assoc, List.singleton_append, readValue_quote,
    readString_escaped, Option.map_some, String.ofList_toList]

theorem readMembers_comma {v : Json} {more : List Char}
    (hv : readValue fuel cs = some (v, ',' :: more)) :
    readMembers (fuel + 1) (printString name ++ ':' :: cs) =
      (readMembers fuel more).map fun r => ((name, v) :: r.1, r.2) := by
  rw [readMembers, readName_print]
  dsimp only
  rw [hv]
  dsimp only
  rw [expect_cons (by decide), if_pos rfl]

theorem readMembers_close {v : Json} (hv : readValue fuel cs = some (v, '\x7d' :: rest)) :
    readMembers (fuel + 1) (printString name ++ ':' :: cs) = some ([(name, v)], rest) := by
  rw [readMembers, readName_print]
  dsimp only
  rw [hv]
  dsimp only
  rw [expect_cons (by decide), if_neg (by decide)]
  dsimp only
  rw [expect_cons (by decide), if_pos rfl, Option.map_some]

theorem readMembers_blank (fuel : Nat) (cs : List Char) :
    readMembers fuel (' ' :: cs) = readMembers fuel cs := by
  cases fuel with
  | zero => rw [readMembers, readMembers]
  | succ fuel =>
    have hname : readName (' ' :: cs) = readName cs := rfl
    rw [readMembers, readMembers, hname]

/-- An object whose text begins with a printed name. -/
theorem readValue_brace_eq_some {j : Json}
    (h : readValue fuel ('\x7b' :: (printString name ++ cs)) = some (j, rest)) :
    ∃ fuel' ms, j = .obj ms ∧ readMembers fuel' (printString name ++ cs) = some (ms, rest) := by
  cases fuel with
  | zero =>
    rw [readValue] at h
    cases h
  | succ fuel =>
    rw [readValue_brace] at h
    obtain ⟨r, hmembers, heq⟩ := Option.map_eq_some_iff.1 h
    obtain ⟨rfl, rfl⟩ := Prod.mk.inj heq
    exact ⟨fuel, r.1, rfl, hmembers⟩

/-- The first member, when its text begins with a printed name. -/
theorem readMembers_first
    (h : readMembers fuel (printString name ++ ':' :: cs) = some (ms, rest)) :
    ∃ fuel' v tail ms', ms = (name, v) :: ms' ∧ readValue fuel' cs = some (v, tail) := by
  cases fuel with
  | zero =>
    rw [readMembers] at h
    cases h
  | succ fuel =>
    rw [readMembers, readName_print] at h
    dsimp only at h
    split at h
    · cases h
    · next v tail hvalue =>
      split at h
      · obtain ⟨r, -, heq⟩ := Option.map_eq_some_iff.1 h
        obtain ⟨rfl, -⟩ := Prod.mk.inj heq
        exact ⟨fuel, v, tail, r.1, rfl, hvalue⟩
      · obtain ⟨r, -, heq⟩ := Option.map_eq_some_iff.1 h
        obtain ⟨rfl, -⟩ := Prod.mk.inj heq
        exact ⟨fuel, v, tail, [], rfl, hvalue⟩

/-- A first member with a printed string, and the others behind a comma. -/
theorem readMembers_string {s : String}
    (h : readMembers fuel (printString name ++ ':' :: (printString s ++ ',' :: cs)) =
      some (ms, rest)) :
    ∃ fuel' ms', ms = (name, .str s) :: ms' ∧ readMembers fuel' cs = some (ms', rest) := by
  cases fuel with
  | zero =>
    rw [readMembers] at h
    cases h
  | succ fuel =>
    cases fuel with
    | zero =>
      rw [readMembers, readName_print] at h
      dsimp only at h
      rw [readValue] at h
      cases h
    | succ fuel =>
      rw [readMembers_comma (readValue_printString fuel s _)] at h
      obtain ⟨r, hmembers, heq⟩ := Option.map_eq_some_iff.1 h
      obtain ⟨rfl, rfl⟩ := Prod.mk.inj heq
      exact ⟨fuel + 1, r.1, rfl, hmembers⟩

/-- Behind a quotation mark there is a text. -/
theorem readValue_quote_eq_some {v : Json} (h : readValue fuel ('"' :: cs) = some (v, rest)) :
    ∃ s, readString cs = some (s, rest) ∧ v = .str (.ofList s) := by
  cases fuel with
  | zero =>
    rw [readValue] at h
    cases h
  | succ fuel =>
    rw [readValue_quote] at h
    obtain ⟨r, hstring, heq⟩ := Option.map_eq_some_iff.1 h
    obtain ⟨rfl, rfl⟩ := Prod.mk.inj heq
    exact ⟨r.1, hstring, rfl⟩

end

/-! ## Numbers and members -/

theorem toList_toString_int (n : Int) : (toString n).toList = printInt n := by
  cases n with
  | ofNat n =>
    change (toString n).toList = Nat.toDigits 10 n
    rw [Nat.toString_eq_ofList_toDigits, String.toList_ofList]
  | negSucc n =>
    change ("-" ++ toString (n + 1)).toList = '-' :: Nat.toDigits 10 (n + 1)
    rw [String.toList_append, Nat.toString_eq_ofList_toDigits, String.toList_ofList,
      String.toList_ofList]
    rfl

theorem unescaped_of_isDigit {c : Char} (h : c.isDigit = true) : Unescaped c := by
  refine ⟨?_, ?_, ?_⟩
  · rintro rfl
    revert h
    decide
  · rintro rfl
    revert h
    decide
  · have hlo : (decide ('0'.val ≤ c.val) && decide (c.val ≤ '9'.val)) = true := h
    rw [Bool.and_eq_true, decide_eq_true_eq, UInt32.le_iff_toNat_le] at hlo
    exact Nat.le_trans (by decide) hlo.1

theorem unescaped_of_mem_printInt {n : Int} {c : Char} (h : c ∈ printInt n) : Unescaped c := by
  cases n with
  | ofNat n => exact unescaped_of_isDigit (Nat.isDigit_of_mem_toDigits (by decide) (by decide) h)
  | negSucc n =>
    rcases List.mem_cons.1 h with rfl | h
    · exact ⟨by decide, by decide, by decide⟩
    · exact unescaped_of_isDigit (Nat.isDigit_of_mem_toDigits (by decide) (by decide) h)

theorem mem_of_find {k : String} {v : Json} {ms : List (String × Json)}
    (h : find k ms = some v) : (k, v) ∈ ms := by
  induction ms with
  | nil => cases h
  | cons m ms ih =>
    obtain ⟨n, w⟩ := m
    rw [find_cons] at h
    split_ifs at h with hn
    · obtain rfl := Option.some.inj h
      subst hn
      exact List.mem_cons_self
    · exact List.mem_cons_of_mem _ (ih h)

end Json

end CcOciRuntime
