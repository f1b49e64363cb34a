import CcOciRuntime.Lib.Decimal
import CcOciRuntime.Lib.SemVer

/-!
# Comparing versions

The runtime compares versions as texts: it splits them at dots, reads the numbers with the functions
of the C library, and looks for the separators of a pre-release and of build metadata each on its
own.

The numbers are clamped or cut, identifiers of different kinds are compared as texts, and a hyphen
in build metadata is taken for the start of a pre-release. `semverCmpFull_cmp_iff` says for which
versions the order is nevertheless the precedence of the standard, `semverCmpFull_build_iff` when
build metadata does not matter.

Reference: `src/semver.c`.
-/

namespace CcOciRuntime

namespace Runtime

open SemVer

/-! ## The functions -/

/-- Reference: `cc_oci_string_is_numeric` (`src/semver.c:44`). -/
def stringIsNumeric : Option (List Char) → Bool
  | none => false
  | some cs => cs.all Char.isDigit

/-- The number at the front of a text as a `long`, zero when there is none. -/
def atol (cs : List Char) : Int := (strtoll (String.ofList cs)).getD 0

/-- The sign is what the C library promises. Reference: `g_strcmp0` of GLib. -/
def strcmp (a b : List Char) : Int32 :=
  match a.compareLex compare b with
  | .lt => -1
  | .eq => 0
  | .gt => 1

/-- Splitting at dots; the empty text has no fields. Reference: `g_strsplit` of GLib. -/
def strsplit (text : List Char) : List (List Char) := if text = [] then [] else text.splitOn '.'

/-- What follows the first `sep`. -/
def after (sep : Char) (text : List Char) : Option (List Char) :=
  match text.dropWhile (· != sep) with
  | [] => none
  | _ :: rest => some rest

/-- Splitting at the first `n` dots. -/
def splitDots : Nat → List Char → List (List Char)
  | 0, text => [text]
  | n + 1, text =>
    match after '.' text with
    | none => [text]
    | some rest => text.takeWhile (· != '.') :: splitDots n rest

/-- Splitting into at most `max` fields. Reference: `g_strsplit` of GLib. -/
def strsplitMax (max : Nat) (text : List Char) : List (List Char) :=
  if text = [] then [] else splitDots (max - 1) text

/-- The comparison of two identifiers. Reference: `src/semver.c:119-127`. -/
def cmpIdentifiers (fa fb : List Char) : Int32 :=
  if stringIsNumeric (some fa) ∧ stringIsNumeric (some fb) then Int32.ofInt (atol fa - atol fb)
  else strcmp fa fb

/-- The loop over the identifiers. Reference: `src/semver.c:97-132`. -/
def cmpPreFields : List (List Char) → List (List Char) → Int32
  | _ :: _, [] => 1
  | [], _ :: _ => -1
  | [], [] => 0
  | fa :: as, fb :: bs =>
    let ret := cmpIdentifiers fa fb
    if ret ≠ 0 then ret else cmpPreFields as bs

/-- Reference: `cc_oci_semver_cmp_patch_pre_releases` (`src/semver.c:83`). -/
def cmpPatchPreReleases (preRelA preRelB : List Char) : Int32 :=
  cmpPreFields (strsplit preRelA) (strsplit preRelB)

/-- The parts of a patch version. -/
structure PatchVersion where
  num : Int32
  preRelease : Option (List Char)
  buildMetadata : Option (List Char)
  deriving DecidableEq

/-- The first plus and the first hyphen are looked for in the whole text. Each becomes the zero that
ends the text before it. Reference: `cc_oci_semver_split_patch_version` (`src/semver.c:157`). -/
def splitPatchVersion (patch : List Char) : PatchVersion where
  num := atoi (String.ofList (patch.takeWhile fun c => c != '-' && c != '+'))
  preRelease := (after '-' patch).map fun rest =>
    if '+' ∈ patch.takeWhile (· != '-') then rest else rest.takeWhile (· != '+')
  buildMetadata := (after '+' patch).map fun rest =>
    if '-' ∈ patch.takeWhile (· != '+') then rest else rest.takeWhile (· != '-')

/-- Reference: `cc_oci_semver_cmp_patch_versions` (`src/semver.c:193`). -/
def cmpPatchVersions (patchA patchB : List Char) : Int32 :=
  let a := splitPatchVersion patchA
  let b := splitPatchVersion patchB
  if b.num < a.num then 1
  else if a.num < b.num then -1
  else
    match a.preRelease, b.preRelease with
    | some _, none => -1
    | none, some _ => 1
    | none, none => 0
    | some pra, some prb => cmpPatchPreReleases pra prb

/-- How a comparison ends: with its result, at an assertion, or with a null pointer that is read. -/
inductive CmpEnd
  | returned (ret : Int32)
  | aborted
  | crashed
  deriving DecidableEq

/-- Reference: `cc_oci_semver_cmp_fields` (`src/semver.c:268`). -/
def cmpFields (fieldsA fieldsB : List (List Char)) (compatible : Bool) : CmpEnd :=
  match fieldsA, fieldsB with
  | majorA :: minorA :: patchA, majorB :: minorB :: patchB =>
    if atol majorB < atol majorA then .returned 1
    else if atol majorA < atol majorB then .returned (-1)
    else if compatible then .returned 0
    else if atol minorB < atol minorA then .returned 1
    else if atol minorA < atol minorB then .returned (-1)
    else
      match patchA, patchB with
      | patchA :: _, patchB :: _ => .returned (cmpPatchVersions patchA patchB)
      | _, _ => .aborted
  | _, _ => .crashed

/-- Reference: `cc_oci_semver_2_0_0_cmp` (`src/semver.c:330`). -/
def semver200Cmp (versionA versionB : List Char) (compatible : Bool) : CmpEnd :=
  cmpFields (strsplitMax 3 versionA) (strsplitMax 3 versionB) compatible

/-- Reference: `cc_oci_semver_cmp_full` (`src/semver.c:379`). -/
def semverCmpFull (versionA versionB : List Char) : CmpEnd := semver200Cmp versionA versionB false

/-- Reference: `cc_oci_semver_cmp` (`src/semver.c:399`). -/
def semverCmp (versionA versionB : List Char) : CmpEnd := semver200Cmp versionA versionB true

/-- The sign of a result. -/
def CmpEnd.sign : CmpEnd → Option Ordering
  | .returned ret => some (compare ret 0)
  | .aborted | .crashed => none

/-! ## Splitting -/

section
variable {sep : Char} {front rest : List Char}

theorem forall_bne_of_not_mem (h : sep ∉ front) : ∀ c ∈ front, (c != sep) = true := by
  intro c hc
  rw [bne_iff_ne]
  rintro rfl
  exact h hc

theorem takeWhile_append_sep (h : sep ∉ front) (rest : List Char) :
    (front ++ sep :: rest).takeWhile (· != sep) = front := by
  rw [List.takeWhile_append_of_pos (forall_bne_of_not_mem h),
    List.takeWhile_cons_of_neg (by simp), List.append_nil]

theorem after_append (h : sep ∉ front) (rest : List Char) :
    after sep (front ++ rest) = after sep rest := by
  rw [after, List.dropWhile_append_of_pos (forall_bne_of_not_mem h), after]

theorem after_cons_self (sep : Char) (rest : List Char) : after sep (sep :: rest) = some rest := by
  rw [after, List.dropWhile_cons_of_neg (by simp)]

theorem after_of_not_mem (h : sep ∉ front) : after sep front = none := by
  rw [← List.append_nil front, after_append h]
  rfl

end

theorem splitDots_succ {front : List Char} (h : '.' ∉ front) (n : Nat) (rest : List Char) :
    splitDots (n + 1) (front ++ '.' :: rest) = front :: splitDots n rest := by
  rw [splitDots, after_append h, after_cons_self, takeWhile_append_sep h]

/-! ## Reading the text of a version -/

theorem isDigit_of_mem_toDigits {n : Nat} {c : Char} (h : c ∈ Nat.toDigits 10 n) :
    c.isDigit = true :=
  Nat.isDigit_of_mem_toDigits (by decide) (by decide) h

theorem not_mem_toDigits {c : Char} (h : c.isDigit = false) (n : Nat) : c ∉ Nat.toDigits 10 n := by
  intro hmem
  rw [isDigit_of_mem_toDigits hmem] at h
  cases h

theorem strtoll_toDigits (n : Nat) :
    strtoll (String.ofList (Nat.toDigits 10 n)) = some (clamp64 n) := by
  rw [strtoll_eq, String.toList_ofList, readInt_toDigits, Option.map_some]

theorem atol_toDigits (n : Nat) : atol (Nat.toDigits 10 n) = clamp64 n := by
  rw [atol, strtoll_toDigits, Option.getD_some]

theorem atoi_toDigits (n : Nat) :
    atoi (String.ofList (Nat.toDigits 10 n)) = Int32.ofInt (clamp64 n) := by
  rw [atoi, strtoll_toDigits, Option.getD_some]

theorem isIdentChar_of_isDigit {c : Char} (h : c.isDigit = true) : isIdentChar c = true := by
  rw [isIdentChar, Char.isAlphanum, h, Bool.or_true, Bool.true_or]

theorem isIdentChar_of_mem_text {i : Identifier} {c : Char} (h : c ∈ i.text) :
    isIdentChar c = true := by
  cases i with
  | numeric n => exact isIdentChar_of_isDigit (isDigit_of_mem_toDigits h)
  | alnum text chars => exact List.all_eq_true.1 chars c h

theorem text_ne_nil (i : Identifier) : i.text ≠ [] := by
  cases i with
  | numeric n => exact Nat.toDigits_ne_nil
  | alnum text chars notNumeric =>
    rintro rfl
    cases notNumeric

theorem preText_ne_nil {pre : List Identifier} (h : pre ≠ []) : preText pre ≠ [] := by
  cases pre with
  | nil => exact absurd rfl h
  | cons i pre =>
    cases pre with
    | nil => simpa [preText] using text_ne_nil i
    | cons j pre => simp [preText, text_ne_nil]

/-- The plus does not occur before the build metadata. -/
theorem plus_not_mem_preText (pre : List Identifier) : '+' ∉ preText pre := by
  have hplus : ∀ i : Identifier, '+' ∉ i.text := fun i h =>
    absurd (isIdentChar_of_mem_text h) (by decide)
  induction pre with
  | nil => exact List.not_mem_nil
  | cons i pre ih =>
    cases pre with
    | nil => simpa [preText] using hplus i
    | cons j pre =>
      rw [preText, List.map_cons, List.map_cons, List.intercalate_cons_cons, List.mem_append,
        List.mem_append, not_or, not_or]
      exact ⟨⟨hplus i, by decide⟩, ih⟩

/-- A pre-release is split into its identifiers. -/
theorem strsplit_preText {pre : List Identifier} (h : pre ≠ []) :
    strsplit (preText pre) = pre.map Identifier.text := by
  rw [strsplit, if_neg (preText_ne_nil h), preText, List.splitOn_intercalate]
  · intro text htext hdot
    obtain ⟨i, -, rfl⟩ := List.mem_map.1 htext
    exact absurd (isIdentChar_of_mem_text hdot) (by decide)
  · rwa [Ne, List.map_eq_nil_iff]

/-- The third field of a version has everything behind the second dot. -/
theorem strsplitMax_text (v : Version) (tail : List Char) :
    strsplitMax 3 (v.text ++ tail) = [Nat.toDigits 10 v.major, Nat.toDigits 10 v.minor,
      Nat.toDigits 10 v.patch ++ preSuffix v.pre ++ tail] := by
  have hdot : ∀ n, '.' ∉ Nat.toDigits 10 n := not_mem_toDigits (by decide)
  have hne : v.text ++ tail ≠ [] := by simp [Version.text]
  rw [strsplitMax, if_neg hne, Version.text]
  simp only [List.append_assoc, List.cons_append]
  rw [splitDots_succ (hdot _), splitDots_succ (hdot _), splitDots]

/-- What may stand behind a version: nothing, or a plus and any text. -/
def BuildTail (tail : List Char) : Prop := ∀ c ∈ tail.head?, c = '+'

theorem buildTail_nil : BuildTail [] := by
  intro c hc
  cases hc

/-- The pre-release that the runtime finds in a version with something behind it. -/
def foundPre (pre : List Identifier) (tail : List Char) : Option (List Char) :=
  if pre = [] then after '-' tail else some (preText pre)

/-- The parts of a printed version. -/
theorem splitPatchVersion_text {tail : List Char} (h : BuildTail tail) (patch : Nat)
    (pre : List Identifier) :
    let found := splitPatchVersion (Nat.toDigits 10 patch ++ preSuffix pre ++ tail)
    found.num = Int32.ofInt (clamp64 patch) ∧ found.preRelease = foundPre pre tail := by
  have hdash : '-' ∉ Nat.toDigits 10 patch := not_mem_toDigits (by decide) patch
  have hplus : '+' ∉ Nat.toDigits 10 patch := not_mem_toDigits (by decide) patch
  have hdigits : ∀ c ∈ Nat.toDigits 10 patch, (c != '-' && c != '+') = true := fun c hc => by
    rw [Bool.and_eq_true]
    exact ⟨forall_bne_of_not_mem hdash c hc, forall_bne_of_not_mem hplus c hc⟩
  constructor
  · have hrest : (preSuffix pre ++ tail).takeWhile (fun c => c != '-' && c != '+') = [] := by
      rw [preSuffix]
      split_ifs
      · cases tail with
        | nil => rfl
        | cons c tail =>
          obtain rfl := h c rfl
          rfl
      · rfl
    rw [splitPatchVersion, List.append_assoc, List.takeWhile_append_of_pos hdigits, hrest,
      List.append_nil, atoi_toDigits]
  · rw [splitPatchVersion, foundPre, preSuffix]
    dsimp only
    by_cases hpre : pre = []
    · -- what follows the hyphen of the metadata is not cut
      rw [if_pos hpre, if_pos hpre, List.append_nil, after_append hdash]
      cases tail with
      | nil => rfl
      | cons c tail =>
        obtain rfl := h c rfl
        have hmem : '+' ∈ (Nat.toDigits 10 patch ++ '+' :: tail).takeWhile (· != '-') := by
          rw [List.takeWhile_append_of_pos (forall_bne_of_not_mem hdash),
            List.takeWhile_cons_of_pos (by decide)]
          exact List.mem_append_right _ List.mem_cons_self
        simp only [if_pos hmem, Option.map_id']
    · rw [if_neg hpre, if_neg hpre, List.append_assoc, List.cons_append, after_append hdash,
        after_cons_self, takeWhile_append_sep hdash, Option.map_some, if_neg hplus]
      congr 1
      cases tail with
      | nil =>
        rw [List.append_nil]
        exact List.takeWhile_eq_self_iff.2 (forall_bne_of_not_mem (plus_not_mem_preText pre))
      | cons c tail =>
        obtain rfl := h c rfl
        exact takeWhile_append_sep (plus_not_mem_preText pre) tail

/-! ## The sign of a comparison -/

/-- The sign of two numbers that are compared, with what is done if they are the same. -/
theorem sign_of_compare {a b : Int} {rest : CmpEnd} {o : Ordering} (h : rest.sign = some o) :
    (if b < a then CmpEnd.returned 1 else if a < b then .returned (-1) else rest).sign =
      some ((compare a b).then o) := by
  rcases Int.lt_trichotomy a b with hlt | rfl | hgt
  · have hcmp : compare a b = .lt := compare_lt_iff_lt.2 hlt
    rw [if_neg (by omega), if_pos hlt, hcmp]
    rfl
  · have hcmp : compare a a = .eq := Std.ReflCmp.compare_self
    rw [if_neg (by omega), if_neg (by omega), hcmp, h]
    rfl
  · have hcmp : compare a b = .gt := compare_gt_iff_gt.2 hgt
    rw [if_pos hgt, hcmp]
    rfl

/-- The order of the numbers of two versions as the runtime reads them. -/
def numbersCmp (v w : Version) : Ordering :=
  (compare (clamp64 v.major) (clamp64 w.major)).then <|
    (compare (clamp64 v.minor) (clamp64 w.minor)).then <|
      compare (Int32.ofInt (clamp64 v.patch)).toInt (Int32.ofInt (clamp64 w.patch)).toInt

/-- The order of what the runtime takes for the pre-releases. -/
def foundCmp : Option (List Char) → Option (List Char) → Ordering
  | some _, none => .lt
  | none, some _ => .gt
  | none, none => .eq
  | some pra, some prb => compare (cmpPatchPreReleases pra prb) 0

/-- The number first, then the pre-release. -/
theorem cmpPatchVersions_sign (patchA patchB : List Char) :
    (CmpEnd.returned (cmpPatchVersions patchA patchB)).sign =
      some ((compare (splitPatchVersion patchA).num.toInt (splitPatchVersion patchB).num.toInt).then
        (foundCmp (splitPatchVersion patchA).preRelease
          (splitPatchVersion patchB).preRelease)) := by
  rw [cmpPatchVersions]
  simp only [Int32.lt_iff_toInt_lt, apply_ite CmpEnd.returned]
  refine sign_of_compare ?_
  cases (splitPatchVersion patchA).preRelease with
  | none => cases (splitPatchVersion patchB).preRelease <;> rfl
  | some pra => cases (splitPatchVersion patchB).preRelease <;> rfl

/-- **What a comparison looks at**: the numbers, and then what it finds behind them. -/
theorem semverCmpFull_sign {tailA tailB : List Char} (hA : BuildTail tailA) (hB : BuildTail tailB)
    (v w : Version) :
    (semverCmpFull (v.text ++ tailA) (w.text ++ tailB)).sign =
      some ((numbersCmp v w).then (foundCmp (foundPre v.pre tailA) (foundPre w.pre tailB))) := by
  obtain ⟨hnumA, hpreA⟩ := splitPatchVersion_text hA v.patch v.pre
  obtain ⟨hnumB, hpreB⟩ := splitPatchVersion_text hB w.patch w.pre
  rw [semverCmpFull, semver200Cmp, strsplitMax_text, strsplitMax_text, cmpFields]
  simp only [Bool.false_eq_true, if_false, atol_toDigits]
  rw [numbersCmp, Ordering.then_assoc, Ordering.then_assoc]
  refine sign_of_compare (sign_of_compare ?_)
  rw [cmpPatchVersions_sign, hnumA, hnumB, hpreA, hpreB]

/-! ## Precedence -/

/-- The order of two fields as the runtime compares them. -/
def Field.codeCmp : Field → Field → Ordering
  | .number m, .number n => compare (clamp64 m) (clamp64 n)
  | .patch m, .patch n =>
    compare (Int32.ofInt (clamp64 m)).toInt (Int32.ofInt (clamp64 n)).toInt
  | .release r, .release s => compare r s
  | .ident i, .ident j => compare (cmpIdentifiers i.text j.text) 0
  | _, _ => .lt

/-- Fields are compared one by one. -/
theorem cmpPreFields_sign (as bs : List (List Char)) :
    compare (cmpPreFields as bs) 0 =
      as.compareLex (fun a b => compare (cmpIdentifiers a b) 0) bs := by
  induction as generalizing bs with
  | nil => cases bs <;> rfl
  | cons a as ih =>
    cases bs with
    | nil => rfl
    | cons b bs =>
      rw [cmpPreFields, List.compareLex_cons_cons]
      split_ifs with hret
      · cases hcmp : compare (cmpIdentifiers a b) 0 with
        | lt | gt => rfl
        | eq => exact absurd (Std.LawfulEqCmp.eq_of_compare hcmp) hret
      · have hzero : cmpIdentifiers a b = 0 := not_not.1 hret
        rw [hzero, ih]
        rfl

/-- The order of two pre-releases, or of a pre-release and a release. -/
theorem foundCmp_foundPre (pre pre' : List Identifier) :
    foundCmp (foundPre pre []) (foundPre pre' []) =
      (compare pre.isEmpty pre'.isEmpty).then
        ((pre.map Field.ident).compareLex Field.codeCmp (pre'.map Field.ident)) := by
  cases pre with
  | nil => cases pre' <;> rfl
  | cons i pre =>
    cases pre' with
    | nil => rfl
    | cons j pre' =>
      have hne : i :: pre ≠ [] := List.cons_ne_nil i pre
      have hne' : j :: pre' ≠ [] := List.cons_ne_nil j pre'
      rw [foundPre, foundPre, if_neg hne, if_neg hne', foundCmp, cmpPatchPreReleases,
        strsplit_preText hne, strsplit_preText hne', cmpPreFields_sign, compareLex_map,
        compareLex_map]
      rfl

/-- The runtime orders versions by their fields. -/
theorem semverCmpFull_text (v w : Version) :
    (semverCmpFull v.text w.text).sign =
      some (v.fields.compareLex Field.codeCmp w.fields) := by
  have hsign := semverCmpFull_sign buildTail_nil buildTail_nil v w
  rw [List.append_nil, List.append_nil] at hsign
  rw [hsign, numbersCmp, foundCmp_foundPre, Ordering.then_assoc, Ordering.then_assoc]
  simp only [Version.fields, List.compareLex_cons_cons, Field.codeCmp]

/-! ## Sizes and kinds -/

/-- The numbers from this one on are read as this one. -/
def largest : Nat := 9223372036854775807

/-- A number as it is read, not above the largest one. -/
def readable (n : Nat) : Int := (min n largest : Nat)

/-- A patch number as it is seen: the lowest 32 bits with their sign. -/
def seenPatch (n : Nat) : Int := (readable n).bmod 4294967296

/-- The difference of two numbers as it is seen: the lowest 32 bits with their sign. -/
def seenDiff (m n : Nat) : Int := (readable m - readable n).bmod 4294967296

/-- Different fields that the runtime does not tell apart: two numbers that are both too large, or
that agree in the bits that are looked at. -/
def Field.unseen : Field → Field → Bool
  | .number m, .number n => largest ≤ m && largest ≤ n
  | .patch m, .patch n => seenPatch m = seenPatch n
  | .ident (.numeric m), .ident (.numeric n) => seenDiff m n = 0
  | _, _ => false

/-- Different fields that the runtime orders as the standard does: numbers of which one is small
enough, numbers that the bits that are looked at order alike, a number and a text of which the
digits come first in the order of texts, and any other two fields of one kind. -/
def Field.ordered : Field → Field → Bool
  | .number m, .number n => m < largest || n < largest
  | .patch m, .patch n => compare (seenPatch m) (seenPatch n) = compare m n
  | .ident (.numeric m), .ident (.numeric n) => compare (seenDiff m n) 0 = compare m n
  | .ident (.numeric m), .ident (.alnum text _ _) =>
    (Nat.toDigits 10 m).compareLex compare text = .lt
  | .ident (.alnum text _ _), .ident (.numeric n) =>
    text.compareLex compare (Nat.toDigits 10 n) = .gt
  | _, _ => true

/-- The order that is seen of two fields by their sizes and kinds: none, that of the standard, or
its opposite. -/
def Field.seen (x y : Field) : Ordering :=
  if x = y ∨ Field.unseen x y then .eq
  else if Field.ordered x y then x.cmp y else (x.cmp y).swap

/-- An order that sees no difference between unseen fields only, and is that of the standard for
ordered ones only. -/
theorem eq_seen {x y : Field} {o : Ordering} (heq : o = .eq ↔ x = y ∨ Field.unseen x y = true)
    (hord : x ≠ y → (o = x.cmp y ↔ Field.ordered x y = true)) : o = Field.seen x y := by
  rw [Field.seen]
  split_ifs with hsame h
  · exact heq.2 hsame
  · exact (hord fun hxy => hsame (.inl hxy)).2 h
  · -- an order that is neither this one nor none
    have hxy : x ≠ y := fun hxy => hsame (.inl hxy)
    have hne : o ≠ x.cmp y := fun hcmp => h ((hord hxy).1 hcmp)
    have ho : o ≠ .eq := fun hnone => hsame (heq.1 hnone)
    have hcmp : x.cmp y ≠ .eq := fun hnone => hxy (Field.cmp_eq_iff.1 hnone)
    cases o <;> cases hc : x.cmp y <;>
      first | rfl | exact absurd rfl ho | exact absurd hc hcmp | exact absurd hc.symm hne

/-- The order of two values, from what it compares. -/
theorem compareOfLessAndEq_congr {α β : Type} [LT α] [DecidableLT α] [DecidableEq α] [LT β]
    [DecidableLT β] [DecidableEq β] {a b : α} {c d : β} (hlt : a < b ↔ c < d)
    (heq : a = b ↔ c = d) : compareOfLessAndEq a b = compareOfLessAndEq c d := by
  simp only [compareOfLessAndEq, hlt, heq]

theorem compare_int32 (r : Int32) : compare r 0 = compare r.toInt 0 :=
  compareOfLessAndEq_congr Int32.lt_iff_toInt_lt Int32.toInt_inj.symm

theorem compare_strcmp (s t : List Char) : compare (strcmp s t) 0 = s.compareLex compare t := by
  rw [strcmp]
  cases s.compareLex compare t <;> rfl

/-- A number is read with its size in view. -/
theorem clamp64_nat (n : Nat) : clamp64 n = readable n := by
  unfold clamp64 readable largest
  omega

theorem atol_of_digits {cs : List Char} (h : cs.all Char.isDigit = true) :
    atol cs = readable (Nat.ofDigitChars 10 cs 0) := by
  rw [← clamp64_nat, atol, strtoll_eq, String.toList_ofList]
  by_cases hne : cs = []
  · rw [hne]
    rfl
  · rw [readInt_of_digits hne (List.all_eq_true.1 h)]
    rfl

/-- Two texts of digits are compared by the difference of their numbers. -/
theorem cmpIdentifiers_digits {s t : List Char} (hs : s.all Char.isDigit = true)
    (ht : t.all Char.isDigit = true) :
    compare (cmpIdentifiers s t) 0 =
      compare (seenDiff (Nat.ofDigitChars 10 s 0) (Nat.ofDigitChars 10 t 0)) 0 := by
  rw [cmpIdentifiers, if_pos ⟨hs, ht⟩, atol_of_digits hs, atol_of_digits ht, compare_int32,
    Int32.toInt_ofInt]
  rfl

/-- Identifiers that are not both numbers are compared as texts. -/
theorem cmpIdentifiers_text {s t : List Char}
    (h : ¬ (s.all Char.isDigit = true ∧ t.all Char.isDigit = true)) :
    compare (cmpIdentifiers s t) 0 = s.compareLex compare t := by
  have hnot : ¬ (stringIsNumeric (some s) = true ∧ stringIsNumeric (some t) = true) := h
  rw [cmpIdentifiers, if_neg hnot, compare_strcmp]

theorem all_isDigit_toDigits (n : Nat) : (Nat.toDigits 10 n).all Char.isDigit = true :=
  List.all_eq_true.2 fun _ hc => isDigit_of_mem_toDigits hc

/-- The runtime orders two major or minor numbers by what it reads of them. -/
theorem codeCmp_number (m n : Nat) :
    Field.codeCmp (.number m) (.number n) = Field.seen (.number m) (.number n) := by
  have hun : (Field.unseen (.number m) (.number n) = true) ↔ largest ≤ m ∧ largest ≤ n := by
    simp [Field.unseen]
  have hord : (Field.ordered (.number m) (.number n) = true) ↔ m < largest ∨ n < largest := by
    simp [Field.ordered]
  have hread : readable m = readable n ↔ m = n ∨ largest ≤ m ∧ largest ≤ n := by
    unfold readable
    omega
  have hcmp : Field.codeCmp (.number m) (.number n) = compare (readable m) (readable n) := by
    rw [Field.codeCmp, clamp64_nat, clamp64_nat]
  rw [hcmp]
  refine eq_seen ?_ fun hne => ?_
  · rw [Std.compare_eq_iff_eq, hread, hun, Field.number.injEq]
  · have hne : m ≠ n := fun heq => hne (congrArg _ heq)
    rw [hord]
    constructor
    · intro heq
      by_contra hnot
      have hsame : compare (readable m) (readable n) = .eq :=
        Std.compare_eq_iff_eq.2 (hread.2 (by omega))
      have hcmp : compare m n = .eq := heq.symm.trans hsame
      exact hne (Std.LawfulEqCmp.eq_of_compare hcmp)
    · intro hsmall
      refine compareOfLessAndEq_congr ?_ ?_
      · unfold readable
        omega
      · rw [hread]
        omega

/-- The runtime orders two patch numbers by the bits that it looks at. -/
theorem codeCmp_patch (m n : Nat) :
    Field.codeCmp (.patch m) (.patch n) = Field.seen (.patch m) (.patch n) := by
  have hcmp : Field.codeCmp (.patch m) (.patch n) = compare (seenPatch m) (seenPatch n) := by
    rw [Field.codeCmp, clamp64_nat, clamp64_nat, Int32.toInt_ofInt, Int32.toInt_ofInt]
    rfl
  rw [hcmp]
  refine eq_seen ?_ fun _ => by rw [Field.ordered, decide_eq_true_iff, Field.cmp]
  rw [Std.compare_eq_iff_eq, Field.unseen, decide_eq_true_iff, Field.patch.injEq]
  exact ⟨.inr, fun h => h.elim (congrArg seenPatch) id⟩

/-- The runtime orders two identifiers by the bits of their difference, or as texts. -/
theorem codeCmp_ident (i j : Identifier) :
    Field.codeCmp (.ident i) (.ident j) = Field.seen (.ident i) (.ident j) := by
  have htext : ∀ {m : Nat} {text : List Char}, text.all Char.isDigit = false →
      Nat.toDigits 10 m ≠ text := by
    rintro m text hno rfl
    cases hno.symm.trans (all_isDigit_toDigits m)
  cases i with
  | numeric m =>
    cases j with
    | numeric n =>
      have hcmp : Field.codeCmp (.ident (.numeric m)) (.ident (.numeric n)) =
          compare (seenDiff m n) 0 := by
        rw [Field.codeCmp, Identifier.text, Identifier.text,
          cmpIdentifiers_digits (all_isDigit_toDigits m) (all_isDigit_toDigits n),
          Nat.ofDigitChars_ten_toDigits, Nat.ofDigitChars_ten_toDigits]
      rw [hcmp]
      refine eq_seen ?_ fun _ => by
        rw [Field.ordered, decide_eq_true_iff, Field.cmp, Identifier.cmp]
      have hself : m = n → seenDiff m n = 0 := by
        rintro rfl
        rw [seenDiff, Int.sub_self]
        rfl
      rw [Std.compare_eq_iff_eq, Field.unseen, decide_eq_true_iff, Field.ident.injEq,
        Identifier.numeric.injEq]
      exact ⟨.inr, fun h => h.elim hself id⟩
    | alnum text chars hno =>
      have hcmp : Field.codeCmp (.ident (.numeric m)) (.ident (.alnum text chars hno)) =
          (Nat.toDigits 10 m).compareLex compare text :=
        cmpIdentifiers_text fun h => Bool.noConfusion (hno.symm.trans h.2)
      rw [hcmp]
      refine eq_seen ⟨fun h => ?_, ?_⟩ fun _ => by rw [Field.ordered, decide_eq_true_iff]; rfl
      · exact absurd (Std.LawfulEqCmp.eq_of_compare h) (htext hno)
      · rintro (h | h) <;> cases h
  | alnum text chars hno =>
    have hcmp : Field.codeCmp (.ident (.alnum text chars hno)) (.ident j) =
        text.compareLex compare j.text :=
      cmpIdentifiers_text fun h => Bool.noConfusion (hno.symm.trans h.1)
    rw [hcmp]
    cases j with
    | numeric n =>
      refine eq_seen ⟨fun h => ?_, ?_⟩ fun _ => by rw [Field.ordered, decide_eq_true_iff]; rfl
      · exact absurd (Std.LawfulEqCmp.eq_of_compare h).symm (htext hno)
      · rintro (h | h) <;> cases h
    | alnum text' =>
      refine eq_seen ⟨fun h => .inl ?_, ?_⟩ fun _ => iff_of_true rfl rfl
      · have hsame : text = text' := Std.LawfulEqCmp.eq_of_compare h
        subst hsame
        rfl
      · rintro (h | h)
        · cases h
          exact Std.ReflCmp.compare_self
        · cases h

/-- **What the runtime sees of two fields** is said by their sizes and kinds. -/
theorem codeCmp_eq_seen (x y : Field) : Field.codeCmp x y = Field.seen x y := by
  have hkinds : ∀ {x y : Field}, Field.unseen x y = false → Field.ordered x y = true →
      Field.codeCmp x y = x.cmp y → Field.codeCmp x y = Field.seen x y := by
    intro x y hun hord hcmp
    refine eq_seen ?_ fun _ => iff_of_true hcmp hord
    rw [hcmp, Field.cmp_eq_iff, hun]
    simp
  cases x with
  | number m =>
    cases y with
    | number n => exact codeCmp_number m n
    | _ => exact hkinds rfl rfl rfl
  | patch m =>
    cases y with
    | patch n => exact codeCmp_patch m n
    | _ => exact hkinds rfl rfl rfl
  | release r => cases y <;> exact hkinds rfl rfl rfl
  | ident i =>
    cases y with
    | ident j => exact codeCmp_ident i j
    | _ => cases i <;> exact hkinds rfl rfl rfl

/-- The fields that are not told apart are not ordered. -/
theorem not_ordered_of_unseen {x y : Field} (hne : x ≠ y) (h : Field.unseen x y = true) :
    Field.ordered x y ≠ true := by
  intro hord
  cases x with
  | number m =>
    cases y with
    | number n =>
      simp only [Field.unseen, Field.ordered, Bool.and_eq_true, Bool.or_eq_true,
        decide_eq_true_eq] at h hord
      omega
    | _ => cases h
  | patch m =>
    cases y with
    | patch n =>
      simp only [Field.unseen, Field.ordered, decide_eq_true_eq] at h hord
      exact hne (congrArg _ (Std.LawfulEqCmp.eq_of_compare
        (hord.symm.trans (Std.compare_eq_iff_eq.2 h))))
    | _ => cases h
  | release r => cases h
  | ident i =>
    cases i with
    | alnum => cases h
    | numeric m =>
      cases y with
      | ident j =>
        cases j with
        | alnum => cases h
        | numeric n =>
          simp only [Field.unseen, Field.ordered, decide_eq_true_eq] at h hord
          exact hne (congrArg (Field.ident ∘ Identifier.numeric) (Std.LawfulEqCmp.eq_of_compare
            (hord.symm.trans (Std.compare_eq_iff_eq.2 h))))
      | _ => cases h

/-- What is seen of two different fields and of what follows them is the order `x.cmp y`. -/
theorem seen_then_iff {x y : Field} (hne : x ≠ y) (o : Ordering) :
    (Field.seen x y).then o = x.cmp y ↔
      Field.ordered x y = true ∨ Field.unseen x y = true ∧ o = x.cmp y := by
  have hcmp : x.cmp y ≠ .eq := fun h => hne (Field.cmp_eq_iff.1 h)
  have hthen : ∀ {p q : Ordering}, p ≠ .eq → p.then q = p := by
    intro p q hp
    cases p <;> first | rfl | exact absurd rfl hp
  rw [Field.seen]
  split_ifs with hsame hord
  · have hun := hsame.resolve_left hne
    rw [Ordering.eq_then, or_iff_right (not_ordered_of_unseen hne hun), and_iff_right hun]
  · rw [hthen hcmp]
    exact iff_of_true rfl (.inl hord)
  · have hswap : (x.cmp y).swap ≠ x.cmp y := by
      cases hc : x.cmp y <;> first | exact absurd hc hcmp | decide
    have hswap' : (x.cmp y).swap ≠ .eq := by
      cases hc : x.cmp y <;> first | exact absurd hc hcmp | decide
    rw [hthen hswap']
    exact iff_of_false hswap fun h => h.elim hord fun h => hsame (.inr h.1)

/-- **Precedence.** The runtime compares two versions as the standard does exactly if, at their
first difference, it orders the two fields as the standard does, or does not tell them apart and
what it sees of the fields behind them comes out that way. Which it is depends on the sizes and
kinds of the fields. -/
theorem semverCmpFull_cmp_iff (v w : Version) :
    (semverCmpFull v.text w.text).sign = some (v.cmp w) ↔
      ∀ front x y xs ys, v.fields = front ++ x :: xs → w.fields = front ++ y :: ys → x ≠ y →
        Field.ordered x y = true ∨
          Field.unseen x y = true ∧ xs.compareLex Field.seen ys = x.cmp y := by
  have hseen : Field.codeCmp = Field.seen := funext fun x => funext fun y => codeCmp_eq_seen x y
  have hself : ∀ x, Field.seen x x = .eq := fun x => if_pos (.inl rfl)
  rw [semverCmpFull_text, Version.cmp_eq_fields, Option.some.injEq, hseen,
    compareLex_eq_iff hself fun x y => Field.cmp_eq_iff]
  constructor
  · intro h front x y xs ys hx hy hne
    exact (seen_then_iff hne _).1 (h front x y xs ys hx hy hne)
  · intro h front x y xs ys hx hy hne
    exact (seen_then_iff hne _).2 (h front x y xs ys hx hy hne)

/-- Three pairs that are ordered the other way round, or not at all: a text that begins with a digit
comes before a larger number, a difference of two numbers does not fit its type, and numbers that
do not fit theirs are the same. -/
theorem semverCmpFull_disorder :
    let pre (i : Identifier) : Version := { major := 1, minor := 0, patch := 0, pre := [i] }
    let text : Version := pre (.alnum ['1', 'a'] (by decide) (by decide))
    let major (n : Nat) : Version := { major := n, minor := 0, patch := 0 }
    ((semverCmpFull (pre (.numeric 2)).text text.text).sign = some .gt ∧
        (pre (.numeric 2)).cmp text = .lt) ∧
      ((semverCmpFull (pre (.numeric 2147483648)).text (pre (.numeric 0)).text).sign = some .lt ∧
        (pre (.numeric 2147483648)).cmp (pre (.numeric 0)) = .gt) ∧
      (semverCmpFull (major 9223372036854775808).text (major 9223372036854775807).text).sign =
          some .eq ∧
        (major 9223372036854775808).cmp (major 9223372036854775807) = .gt := by
  decide +kernel

/-! ## Build metadata -/

/-- Two parts of a pre-release that are both numbers. -/
def bothDigits (a b : List Char) : Bool := a.all Char.isDigit && b.all Char.isDigit

/-- The difference of two parts that are numbers, as it is seen. -/
def partsDiff (a b : List Char) : Int :=
  seenDiff (Nat.ofDigitChars 10 a 0) (Nat.ofDigitChars 10 b 0)

/-- The part `a` is seen before the part `b`. -/
def SeenBefore (a b : List Char) : Prop :=
  if bothDigits a b then partsDiff a b < 0 else a.compareLex compare b = .lt

/-- The part `a` is seen behind the part `b`. -/
def SeenBehind (a b : List Char) : Prop :=
  if bothDigits a b then 0 < partsDiff a b else a.compareLex compare b = .gt

/-- The parts `a` and `b` are not told apart. -/
def SeenSame (a b : List Char) : Prop := if bothDigits a b then partsDiff a b = 0 else a = b

/-- The numbers of two versions are not told apart. -/
def SameNumbers (v w : Version) : Prop :=
  readable v.major = readable w.major ∧ readable v.minor = readable w.minor ∧
    seenPatch v.patch = seenPatch w.patch

theorem numbersCmp_eq_iff (v w : Version) : numbersCmp v w = .eq ↔ SameNumbers v w := by
  rw [numbersCmp, Ordering.then_eq_eq, Ordering.then_eq_eq, Std.compare_eq_iff_eq,
    Std.compare_eq_iff_eq, Std.compare_eq_iff_eq, clamp64_nat, clamp64_nat, clamp64_nat,
    clamp64_nat, clamp64_nat, clamp64_nat, Int32.toInt_ofInt, Int32.toInt_ofInt]
  rfl

/-- The order of two parts, by what is seen of them. -/
theorem cmpIdentifiers_cases (a b : List Char) :
    (compare (cmpIdentifiers a b) 0 = .lt ↔ SeenBefore a b) ∧
      (compare (cmpIdentifiers a b) 0 = .gt ↔ SeenBehind a b) ∧
      (compare (cmpIdentifiers a b) 0 = .eq ↔ SeenSame a b) := by
  rw [SeenBefore, SeenBehind, SeenSame]
  split_ifs with h
  · obtain ⟨ha, hb⟩ := Bool.and_eq_true_iff.1 h
    rw [cmpIdentifiers_digits ha hb, compare_lt_iff_lt, compare_gt_iff_gt, Std.compare_eq_iff_eq]
    exact ⟨Iff.rfl, Iff.rfl, Iff.rfl⟩
  · rw [cmpIdentifiers_text fun hboth => h (Bool.and_eq_true_iff.2 hboth)]
    exact ⟨Iff.rfl, Iff.rfl, ⟨fun heq => Std.LawfulEqCmp.eq_of_compare heq,
      fun heq => heq ▸ Std.ReflCmp.compare_self⟩⟩

/-- The parts of a pre-release that come before those of another one. -/
theorem cmpPatchPreReleases_lt_iff (a b : List Char) :
    compare (cmpPatchPreReleases a b) 0 = .lt ↔
      Precedes SeenBefore SeenSame (strsplit a) (strsplit b) := by
  have hlt : (fun a b => compare (cmpIdentifiers a b) 0 = .lt) = SeenBefore :=
    funext fun a => funext fun b => propext (cmpIdentifiers_cases a b).1
  have hsame : (fun a b => compare (cmpIdentifiers a b) 0 = .eq) = SeenSame :=
    funext fun a => funext fun b => propext (cmpIdentifiers_cases a b).2.2
  rw [cmpPatchPreReleases, cmpPreFields_sign, compareLex_eq_lt_iff, hlt, hsame]

/-- The parts of a pre-release that come behind those of another one. -/
theorem cmpPatchPreReleases_gt_iff (a b : List Char) :
    compare (cmpPatchPreReleases a b) 0 = .gt ↔
      Precedes (fun y x => SeenBehind x y) (fun y x => SeenSame x y) (strsplit b) (strsplit a) := by
  have hgt : (fun b a => compare (cmpIdentifiers a b) 0 = .gt) = fun b a => SeenBehind a b :=
    funext fun b => funext fun a => propext (cmpIdentifiers_cases a b).2.1
  have hsame : (fun b a => compare (cmpIdentifiers a b) 0 = .eq) = fun b a => SeenSame a b :=
    funext fun b => funext fun a => propext (cmpIdentifiers_cases a b).2.2
  rw [cmpPatchPreReleases, cmpPreFields_sign, compareLex_eq_gt_iff, hgt, hsame]

/-- The identifiers of a pre-release come before the parts of a text, when the text is compared with
them. -/
def TextBehind (rest : List Char) (pre : List Identifier) : Prop :=
  Precedes (fun y x => SeenBehind x y) (fun y x => SeenSame x y) (pre.map Identifier.text)
    (strsplit rest)

/-- The identifiers of a pre-release come before the parts of a text, when they are compared with
it. -/
def BeforeText (pre : List Identifier) (rest : List Char) : Prop :=
  Precedes SeenBefore SeenSame (pre.map Identifier.text) (strsplit rest)

theorem buildTail_plus (text : List Char) : BuildTail ('+' :: text) := by
  intro c hc
  exact (Option.some.inj hc).symm

/-- Metadata with a hyphen is found as the pre-release of a release. -/
theorem foundPre_nil_plus (text : List Char) : foundPre [] ('+' :: text) = after '-' text := by
  have hplus : '-' ∉ ['+'] := by decide
  rw [foundPre, if_pos rfl, ← List.singleton_append, after_append hplus]

theorem foundPre_of_ne {pre : List Identifier} (h : pre ≠ []) (tail : List Char) :
    foundPre pre tail = some (preText pre) := if_neg h

theorem then_eq_then_iff {o a b : Ordering} : o.then a = o.then b ↔ (o = .eq → a = b) := by
  cases o <;> simp

section
variable {pre : List Identifier} {rest : List Char}

/-- A text in the place of no pre-release, on the left. -/
theorem foundCmp_some_eq_none_iff :
    foundCmp (some rest) (foundPre pre []) = foundCmp none (foundPre pre []) ↔
      pre ≠ [] ∧ TextBehind rest pre := by
  by_cases h : pre = []
  · subst h
    exact iff_of_false (fun heq => by cases heq) fun hne => hne.1 rfl
  · rw [foundPre_of_ne h, foundCmp, foundCmp, cmpPatchPreReleases_gt_iff, strsplit_preText h,
      and_iff_right h, TextBehind]

/-- A text in the place of no pre-release, on the right. -/
theorem foundCmp_eq_none_some_iff :
    foundCmp (foundPre pre []) (some rest) = foundCmp (foundPre pre []) none ↔
      pre ≠ [] ∧ BeforeText pre rest := by
  by_cases h : pre = []
  · subst h
    exact iff_of_false (fun heq => by cases heq) fun hne => hne.1 rfl
  · rw [foundPre_of_ne h, foundCmp, foundCmp, cmpPatchPreReleases_lt_iff, strsplit_preText h,
      and_iff_right h, BeforeText]

end

section
variable (v w : Version) (m : Build)

/-- Metadata on the left. -/
theorem semverCmpFull_build_left :
    (semverCmpFull (v.withBuild m) w.text).sign = (semverCmpFull v.text w.text).sign ↔
      ∀ rest, after '-' m.text = some rest → SameNumbers v w → v.pre = [] →
        w.pre ≠ [] ∧ TextBehind rest w.pre := by
  have hbuild := semverCmpFull_sign (buildTail_plus m.text) buildTail_nil v w
  have hplain := semverCmpFull_sign buildTail_nil buildTail_nil v w
  rw [List.append_nil] at hbuild hplain
  rw [List.append_nil] at hplain
  rw [Version.withBuild, hbuild, hplain, Option.some.injEq, then_eq_then_iff,
    numbersCmp_eq_iff]
  by_cases hv : v.pre = []
  · rw [hv, foundPre_nil_plus]
    cases after '-' m.text with
    | none => exact iff_of_true (fun _ => rfl) fun _ h => by cases h
    | some rest =>
      have hside := @foundCmp_some_eq_none_iff w.pre rest
      constructor
      · rintro h rest' heq hnum -
        obtain rfl := Option.some.inj heq
        exact hside.1 (h hnum)
      · exact fun h hnum => hside.2 (h rest rfl hnum rfl)
  · rw [foundPre_of_ne hv, foundPre_of_ne hv]
    exact iff_of_true (fun _ => rfl) fun _ _ _ h => absurd h hv

/-- Metadata on the right. -/
theorem semverCmpFull_build_right :
    (semverCmpFull v.text (w.withBuild m)).sign = (semverCmpFull v.text w.text).sign ↔
      ∀ rest, after '-' m.text = some rest → SameNumbers v w → w.pre = [] →
        v.pre ≠ [] ∧ BeforeText v.pre rest := by
  have hbuild := semverCmpFull_sign buildTail_nil (buildTail_plus m.text) v w
  have hplain := semverCmpFull_sign buildTail_nil buildTail_nil v w
  rw [List.append_nil] at hbuild hplain
  rw [List.append_nil] at hplain
  rw [Version.withBuild, hbuild, hplain, Option.some.injEq, then_eq_then_iff,
    numbersCmp_eq_iff]
  by_cases hw : w.pre = []
  · rw [hw, foundPre_nil_plus]
    cases after '-' m.text with
    | none => exact iff_of_true (fun _ => rfl) fun _ h => by cases h
    | some rest =>
      have hside := @foundCmp_eq_none_some_iff v.pre rest
      constructor
      · rintro h rest' heq hnum -
        obtain rfl := Option.some.inj heq
        exact hside.1 (h hnum)
      · exact fun h hnum => hside.2 (h rest rfl hnum rfl)
  · rw [foundPre_of_ne hw, foundPre_of_ne hw]
    exact iff_of_true (fun _ => rfl) fun _ _ _ h => absurd h hw

/-- **Build metadata** behind either version leaves the sign of the comparison exactly if it has no
hyphen, or stands behind a pre-release, or the numbers differ; or if the other version is a
pre-release whose identifiers come before the parts of what follows the first hyphen. -/
theorem semverCmpFull_build_iff :
    ((semverCmpFull (v.withBuild m) w.text).sign = (semverCmpFull v.text w.text).sign ∧
      (semverCmpFull v.text (w.withBuild m)).sign = (semverCmpFull v.text w.text).sign) ↔
    ∀ rest, after '-' m.text = some rest → SameNumbers v w →
      (v.pre = [] → w.pre ≠ [] ∧ TextBehind rest w.pre) ∧
      (w.pre = [] → v.pre ≠ [] ∧ BeforeText v.pre rest) := by
  rw [semverCmpFull_build_left, semverCmpFull_build_right]
  constructor
  · rintro ⟨hleft, hright⟩ rest hrest hnum
    exact ⟨hleft rest hrest hnum, hright rest hrest hnum⟩
  · intro h
    exact ⟨fun rest hrest hnum => (h rest hrest hnum).1,
      fun rest hrest hnum => (h rest hrest hnum).2⟩

end

/-- A release with a date in its metadata comes before the release without it. -/
theorem semverCmpFull_hyphen :
    let v : Version := { major := 1, minor := 0, patch := 0 }
    let m : Build := { parts := ["2016-09".toList], nonempty := by decide, chars := by decide }
    (semverCmpFull v.text v.text).sign = some .eq ∧
      (semverCmpFull (v.withBuild m) v.text).sign = some .lt ∧
      (semverCmpFull v.text (v.withBuild m)).sign = some .gt := by
  decide +kernel

end Runtime

end CcOciRuntime
