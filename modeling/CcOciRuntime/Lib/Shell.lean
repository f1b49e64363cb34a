import Mathlib.Data.List.Basic

/-!
# Command lines of a POSIX shell

What a shell makes of a command line, as far as the line is one simple command of literal words: the
words with their quotes removed, and the redirections of its output. `command` is `none` for every
other line: one that is not complete, has an operator that joins commands, or has a word with an
expansion, a pattern or another byte that is not literal.

The standard leaves open what a `$` means before a byte that begins no expansion, so that is a
parameter of the shell (`Shell.keepsDollar`).

A word is read byte by byte. Each byte is a `Step`, which depends on the quotes around it and on the
byte that follows, so what a text between double quotes stands for is a matter of its pairs of
neighbours (`Kept`).
-/

namespace CcOciRuntime

namespace Shell

/-! ## Bytes -/

def dquote : UInt8 := 0x22

def squote : UInt8 := 0x27

def backslash : UInt8 := 0x5c

def backquote : UInt8 := 0x60

def dollar : UInt8 := 0x24

def newline : UInt8 := 0x0a

def slash : UInt8 := 0x2f

def greater : UInt8 := 0x3e

def ampersand : UInt8 := 0x26

def blanks : List UInt8 := [0x20, 0x09]

def isDigit (b : UInt8) : Bool := 0x30 ≤ b && b ≤ 0x39

/-- Blanks, newline and `| & ; < > ( )` end a word that is not quoted. -/
def delimiters : List UInt8 := blanks ++ [newline, 0x7c, ampersand, 0x3b, 0x3c, greater, 0x28, 0x29]

/-- `$`, backquote and `* ? [ # ~ = %` are not literal outside of quotes, or not always. -/
def special : List UInt8 := [dollar, backquote, 0x2a, 0x3f, 0x5b, 0x23, 0x7e, 0x3d, 0x25]

/-- The bytes that a backslash between double quotes quotes. -/
def escapable : List UInt8 := [dollar, backquote, dquote, backslash, newline]

/-- A byte that begins an expansion after a `$`: a digit, a letter, `_`, one of the special
parameters `@ * # ? - $ !`, an opening brace or a parenthesis. -/
def beginsExpansion (b : UInt8) : Bool :=
  isDigit b || (0x41 ≤ b && b ≤ 0x5a) || (0x61 ≤ b && b ≤ 0x7a) ||
    b ∈ [(0x5f : UInt8), 0x40, 0x2a, 0x23, 0x3f, 0x2d, dollar, 0x21, 0x7b, 0x28]

end Shell

/-- What is left open about a shell: before which bytes a `$` is taken literally. -/
structure Shell where
  keepsDollar : UInt8 → Bool
  expands : ∀ b, Shell.beginsExpansion b = true → keepsDollar b = false

namespace Shell

/-! ## Words -/

/-- The quotes around a byte. -/
inductive Quoting
  | none
  | double
  | single
  deriving DecidableEq

/-- What a byte of a word does. -/
inductive Step
  /-- the word ends before it -/
  | ends
  /-- it is a quote, and the following stands between other quotes -/
  | turn (quoting : Quoting)
  /-- it stands for itself -/
  | keep
  /-- it is removed, and the next byte stands for itself -/
  | escape
  /-- it is removed together with the next byte -/
  | join
  /-- the word is not literal -/
  | refuse
  deriving DecidableEq

/-- A byte with the byte that follows it. -/
def step (sh : Shell) : Quoting → UInt8 → Option UInt8 → Step
  | .none, b, next =>
    if b ∈ delimiters then .ends
    else if b = dquote then .turn .double
    else if b = squote then .turn .single
    else if b = backslash then if next = some newline then .join else .escape
    else if b ∈ special then .refuse
    else .keep
  | .double, b, next =>
    if b = dquote then .turn .none
    else if b = backquote then .refuse
    else if b = backslash then
      if next = some newline then .join
      else if next.any (· ∈ escapable) then .escape
      else .keep
    else if b = dollar then if next.any sh.keepsDollar then .keep else .refuse
    else .keep
  | .single, b, _ => if b = squote then .turn .none else .keep

/-- The bytes that a word stands for, and what follows the word. Quotes must be closed. -/
def readWord (sh : Shell) : Quoting → List UInt8 → Option (List UInt8 × List UInt8)
  | q, [] => if q = .none then some ([], []) else none
  | q, b :: bs =>
    match step sh q b bs.head? with
    | .ends => some ([], b :: bs)
    | .turn q' => readWord sh q' bs
    | .keep => (readWord sh q bs).map fun r => (b :: r.1, r.2)
    | .escape =>
      match bs with
      | [] => none
      | c :: cs => (readWord sh q cs).map fun r => (c :: r.1, r.2)
    | .join =>
      match bs with
      | [] => none
      | _ :: cs => readWord sh q cs
    | .refuse => none

/-! ## Commands -/

/-- A redirection of an output: to a file, or to where another descriptor goes. -/
inductive Redirection
  | output (fd : Nat) (file : List UInt8)
  | duplicate (fd : Nat) (target : List UInt8)
  deriving DecidableEq

inductive Token
  | word (text : List UInt8)
  | redirection (r : Redirection)
  deriving DecidableEq

/-- The number of a descriptor before a redirection. -/
def descriptor (digits : List UInt8) : Nat :=
  if digits = [] then 1 else digits.foldl (fun n d => 10 * n + (d.toNat - 0x30)) 0

/-- A word where one must stand. -/
def readOperand (sh : Shell) (bs : List UInt8) : Option (List UInt8 × List UInt8) :=
  if bs.head?.any (· ∉ delimiters) then readWord sh .none bs else none

/-- The token at the beginning of a line that does not begin with a blank. -/
def readToken (sh : Shell) (bs : List UInt8) : Option (Token × List UInt8) :=
  let digits := bs.takeWhile isDigit
  match bs.dropWhile isDigit with
  | [] => (readOperand sh bs).map fun r => (.word r.1, r.2)
  | b :: rest =>
    if b ≠ greater then (readOperand sh bs).map fun r => (.word r.1, r.2)
    else if rest.head? = some ampersand then
      (readOperand sh rest.tail).map fun r =>
        (.redirection (.duplicate (descriptor digits) r.1), r.2)
    else
      (readOperand sh (rest.dropWhile (· ∈ blanks))).map fun r =>
        (.redirection (.output (descriptor digits) r.1), r.2)

/-- The tokens of a line, at most `fuel` of them. -/
def readTokens (sh : Shell) : Nat → List UInt8 → Option (List Token)
  | 0, _ => none
  | fuel + 1, line =>
    match line.dropWhile (· ∈ blanks) with
    | [] => some []
    | b :: bs => (readToken sh (b :: bs)).bind fun r => (readTokens sh fuel r.2).map (r.1 :: ·)

/-- A simple command. -/
structure Command where
  name : List UInt8
  args : List (List UInt8)
  redirections : List Redirection
  deriving DecidableEq

def Token.text? : Token → Option (List UInt8)
  | .word text => some text
  | .redirection _ => none

def Token.redirection? : Token → Option Redirection
  | .word _ => none
  | .redirection r => some r

/-- The simple command that a line is. A name with a slash is the file to execute; other names can
be reserved words, functions or aliases. Every token takes a byte. -/
def command (sh : Shell) (line : List UInt8) : Option Command :=
  (readTokens sh (line.length + 1) line).bind fun tokens =>
    match tokens.filterMap Token.text? with
    | [] => none
    | name :: args =>
      if slash ∈ name then
        some { name, args, redirections := tokens.filterMap Token.redirection? }
      else none

/-! ## Reading a word -/

section
variable {sh : Shell} {q q' : Quoting} {b c : UInt8} {bs cs rest w : List UInt8}

theorem readWord_ends (h : step sh q b bs.head? = .ends) :
    readWord sh q (b :: bs) = some ([], b :: bs) := by
  rw [readWord.eq_def]
  dsimp only
  rw [h]

theorem readWord_turn (h : step sh q b bs.head? = .turn q') :
    readWord sh q (b :: bs) = readWord sh q' bs := by
  rw [readWord.eq_def]
  dsimp only
  rw [h]

theorem readWord_keep (h : step sh q b bs.head? = .keep) :
    readWord sh q (b :: bs) = (readWord sh q bs).map fun r => (b :: r.1, r.2) := by
  rw [readWord.eq_def]
  dsimp only
  rw [h]

theorem readWord_refuse (h : step sh q b bs.head? = .refuse) :
    readWord sh q (b :: bs) = none := by
  rw [readWord.eq_def]
  dsimp only
  rw [h]

theorem readWord_escape (h : step sh q b (some c) = .escape) :
    readWord sh q (b :: c :: cs) = (readWord sh q cs).map fun r => (c :: r.1, r.2) := by
  rw [readWord, List.head?_cons, h]

theorem readWord_join (h : step sh q b (some c) = .join) :
    readWord sh q (b :: c :: cs) = readWord sh q cs := by
  rw [readWord, List.head?_cons, h]

/-- What the first byte of a word that is read does. -/
theorem readWord_cases (h : readWord sh q (b :: bs) = some (w, rest)) :
    (w = [] ∧ rest = b :: bs) ∨
    (∃ q', step sh q b bs.head? = .turn q' ∧ readWord sh q' bs = some (w, rest)) ∨
    (∃ w', step sh q b bs.head? = .keep ∧ w = b :: w' ∧ readWord sh q bs = some (w', rest)) ∨
    (∃ c cs w', bs = c :: cs ∧ w = c :: w' ∧ readWord sh q cs = some (w', rest)) ∨
    ∃ c cs, bs = c :: cs ∧ readWord sh q cs = some (w, rest) := by
  cases hstep : step sh q b bs.head? with
  | ends =>
    rw [readWord_ends hstep] at h
    cases h
    exact .inl ⟨rfl, rfl⟩
  | turn q' =>
    rw [readWord_turn hstep] at h
    exact .inr (.inl ⟨q', rfl, h⟩)
  | keep =>
    rw [readWord_keep hstep] at h
    obtain ⟨⟨w', r⟩, hw', heq⟩ := Option.map_eq_some_iff.1 h
    cases heq
    exact .inr (.inr (.inl ⟨w', rfl, rfl, hw'⟩))
  | escape =>
    cases bs with
    | nil =>
      rw [readWord, hstep] at h
      cases h
    | cons c cs =>
      rw [readWord_escape hstep] at h
      obtain ⟨⟨w', r⟩, hw', heq⟩ := Option.map_eq_some_iff.1 h
      cases heq
      exact .inr (.inr (.inr (.inl ⟨c, cs, w', rfl, rfl, hw'⟩)))
  | join =>
    cases bs with
    | nil =>
      rw [readWord, hstep] at h
      cases h
    | cons c cs =>
      rw [readWord_join hstep] at h
      exact .inr (.inr (.inr (.inr ⟨c, cs, rfl, h⟩)))
  | refuse =>
    rw [readWord_refuse hstep] at h
    cases h

end

/-! ## A text between double quotes -/

/-- The bytes that follow the double quote after a text close the word: nothing that is read from
there on, or from the byte after the quote on, adds to it, and there is no other double quote. -/
structure Closes (sh : Shell) (after : List UInt8) : Prop where
  quote : ∀ {q w rest}, readWord sh q (dquote :: after) = some (w, rest) → w = []
  cut : ∀ {q w rest}, readWord sh q after = some (w, rest) → w = []
  last : readWord sh .double after = none

/-- The bytes of a text with the byte that follows each of them; after the last comes the quote. -/
def followed (bs : List UInt8) : List (UInt8 × UInt8) := bs.zip (bs.tail ++ [dquote])

/-- Every byte of a text between double quotes stands for itself, before the byte that follows. -/
def Kept (sh : Shell) (bs : List UInt8) : Prop :=
  ∀ p ∈ followed bs, step sh .double p.1 (some p.2) = .keep

instance (sh : Shell) (bs : List UInt8) : Decidable (Kept sh bs) := List.decidableBAll _ _

section
variable {sh : Shell} {b : UInt8} {bs after : List UInt8}

theorem kept_cons : Kept sh (b :: bs) ↔
    step sh .double b (bs ++ dquote :: after).head? = .keep ∧ Kept sh bs := by
  cases bs with
  | nil => simp [Kept, followed]
  | cons c cs => simp [Kept, followed]

/-- A word has at most one byte for each byte of the text. -/
theorem length_readWord_le (hafter : Closes sh after) : ∀ (bs : List UInt8) {q : Quoting}
    {w rest : List UInt8}, readWord sh q (bs ++ dquote :: after) = some (w, rest) →
    w.length ≤ bs.length
  | [], q, w, rest, h => by
    obtain rfl := hafter.quote h
    exact Nat.le_refl _
  | [b], q, w, rest, h => by
    rcases readWord_cases h with ⟨rfl, -⟩ | ⟨q', -, hread⟩ | ⟨w', -, rfl, hread⟩ |
      ⟨c, cs, w', hcs, rfl, hread⟩ | ⟨c, cs, hcs, hread⟩
    · exact Nat.zero_le _
    · obtain rfl := hafter.quote hread
      exact Nat.zero_le _
    · obtain rfl := hafter.quote hread
      exact Nat.le_refl _
    · obtain ⟨-, rfl⟩ := List.cons.inj hcs
      obtain rfl := hafter.cut hread
      exact Nat.le_refl _
    · obtain ⟨-, rfl⟩ := List.cons.inj hcs
      obtain rfl := hafter.cut hread
      exact Nat.zero_le _
  | b :: c :: bs, q, w, rest, h => by
    rw [List.length_cons, List.length_cons]
    rcases readWord_cases h with ⟨rfl, -⟩ | ⟨q', -, hread⟩ | ⟨w', -, rfl, hread⟩ |
      ⟨d, ds, w', hds, rfl, hread⟩ | ⟨d, ds, hds, hread⟩
    · exact Nat.zero_le _
    · have hle := length_readWord_le hafter (c :: bs) hread
      rw [List.length_cons] at hle
      omega
    · have hle := length_readWord_le hafter (c :: bs) hread
      rw [List.length_cons] at hle ⊢
      omega
    · obtain ⟨-, rfl⟩ := List.cons.inj hds
      have hle := length_readWord_le hafter bs hread
      rw [List.length_cons]
      omega
    · obtain ⟨-, rfl⟩ := List.cons.inj hds
      have hle := length_readWord_le hafter bs hread
      omega

/-- A text that is read as itself has no byte that does something else. -/
theorem kept_of_readWord (hafter : Closes sh after) : ∀ {bs rest : List UInt8},
    readWord sh .double (bs ++ dquote :: after) = some (bs, rest) → Kept sh bs
  | [], _, _ => by simp [Kept, followed]
  | b :: bs, rest, h => by
    rcases readWord_cases h with ⟨hnil, -⟩ | ⟨q', -, hread⟩ | ⟨w', hkeep, heq, hread⟩ |
      ⟨c, cs, w', hcs, heq, hread⟩ | ⟨c, cs, hcs, hread⟩
    · cases hnil
    · have hle := length_readWord_le hafter bs hread
      rw [List.length_cons] at hle
      omega
    · obtain ⟨-, rfl⟩ := List.cons.inj heq
      exact kept_cons.2 ⟨hkeep, kept_of_readWord hafter hread⟩
    · cases bs with
      | nil =>
        obtain ⟨-, rfl⟩ := List.cons.inj hcs
        rw [hafter.last] at hread
        cases hread
      | cons d ds =>
        obtain ⟨-, rfl⟩ := List.cons.inj hcs
        obtain ⟨-, rfl⟩ := List.cons.inj heq
        have hle := length_readWord_le hafter ds hread
        rw [List.length_cons] at hle
        omega
    · cases bs with
      | nil =>
        obtain ⟨-, rfl⟩ := List.cons.inj hcs
        rw [hafter.last] at hread
        cases hread
      | cons d ds =>
        obtain ⟨-, rfl⟩ := List.cons.inj hcs
        have hle := length_readWord_le hafter ds hread
        rw [List.length_cons, List.length_cons] at hle
        omega

/-- A text of bytes that stand for themselves is read as itself. -/
theorem readWord_of_kept : ∀ {bs : List UInt8}, Kept sh bs →
    readWord sh .double (bs ++ dquote :: after) =
      (readWord sh .none after).map fun r => (bs ++ r.1, r.2)
  | [], _ => by
    have hquote : step sh .double dquote after.head? = .turn .none := by rw [step, if_pos rfl]
    rw [List.nil_append, readWord_turn hquote]
    simp
  | b :: bs, h => by
    obtain ⟨hstep, hrest⟩ := kept_cons.1 h
    rw [List.cons_append, readWord_keep hstep, readWord_of_kept hrest, Option.map_map]
    rfl

/-- **Double quotes.** A text between double quotes is read as itself exactly when each of its bytes
stands for itself. -/
theorem readWord_double_iff (hafter : Closes sh after)
    (hends : readWord sh .none after = some ([], after)) :
    (∃ rest, readWord sh .double (bs ++ dquote :: after) = some (bs, rest)) ↔ Kept sh bs := by
  constructor
  · rintro ⟨rest, h⟩
    exact kept_of_readWord hafter h
  · intro h
    rw [readWord_of_kept h, hends]
    exact ⟨after, by simp⟩

/-- The bytes that stand for themselves between double quotes. -/
theorem step_double_eq_keep_iff {c : UInt8} : step sh .double b (some c) = .keep ↔
    b ≠ dquote ∧ b ≠ backquote ∧ (b = backslash → c ∉ escapable) ∧
      (b = dollar → sh.keepsDollar c = true) := by
  have hnewline : newline ∈ escapable := by decide
  rw [step]
  split_ifs with hquote hback hslash hline hescape hdollar hkeeps
  · exact iff_of_false (by simp) fun h => h.1 hquote
  · exact iff_of_false (by simp) fun h => h.2.1 hback
  · exact iff_of_false (by simp) fun h =>
      h.2.2.1 hslash (Option.some.inj hline ▸ hnewline)
  · exact iff_of_false (by simp) fun h => h.2.2.1 hslash (by simpa using hescape)
  · refine iff_of_true rfl ⟨hquote, hback, fun _ hc => hescape (by simpa using hc), ?_⟩
    rw [hslash]
    exact fun h => absurd h (by decide)
  · exact iff_of_true rfl ⟨hquote, hback, fun h => absurd h hslash, fun _ => by simpa using hkeeps⟩
  · exact iff_of_false (by simp) fun h => hkeeps (by simpa using h.2.2.2 hdollar)
  · exact iff_of_true rfl ⟨hquote, hback, fun h => absurd h hslash, fun h => absurd h hdollar⟩

theorem map_fst_followed (bs : List UInt8) : (followed bs).map Prod.fst = bs := by
  refine List.map_fst_zip ?_
  rw [List.length_append, List.length_tail, List.length_singleton]
  omega

/-- The bytes that a shell takes as they stand. -/
theorem kept_iff : Kept sh bs ↔ dquote ∉ bs ∧ backquote ∉ bs ∧
    (∀ c, (backslash, c) ∈ followed bs → c ∉ escapable) ∧
    ∀ c, (dollar, c) ∈ followed bs → sh.keepsDollar c = true := by
  have hmem : ∀ {b}, b ∈ bs ↔ ∃ c, (b, c) ∈ followed bs := by
    intro b
    rw [← map_fst_followed bs, List.mem_map]
    simp [map_fst_followed]
  constructor
  · intro h
    have hkeep := fun b c hp => step_double_eq_keep_iff.1 (h (b, c) hp)
    refine ⟨?_, ?_, fun c hp => (hkeep _ c hp).2.2.1 rfl, fun c hp => (hkeep _ c hp).2.2.2 rfl⟩
    · intro hquote
      obtain ⟨c, hp⟩ := hmem.1 hquote
      exact (hkeep _ c hp).1 rfl
    · intro hback
      obtain ⟨c, hp⟩ := hmem.1 hback
      exact (hkeep _ c hp).2.1 rfl
  · rintro ⟨hquote, hback, hslash, hdollar⟩ ⟨b, c⟩ hp
    refine step_double_eq_keep_iff.2 ⟨?_, ?_, ?_, ?_⟩
    · rintro rfl
      exact hquote (hmem.2 ⟨c, hp⟩)
    · rintro rfl
      exact hback (hmem.2 ⟨c, hp⟩)
    · rintro rfl
      exact hslash c hp
    · rintro rfl
      exact hdollar c hp

end

end Shell

end CcOciRuntime
