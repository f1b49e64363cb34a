import Mathlib.Data.Char
import Mathlib.Data.List.Infix

/-!
# Semantic versions

The well-formed versions of Semantic Versioning 2.0.0, their texts and their precedence (section
11). A pre-release identifier is a number or a text with a character that is no digit, so a text
stands for one identifier only; build metadata is not part of a version, since it has no precedence.

`Version.cmp` is stated as the standard states it, one criterion after the other. `Version.fields`
puts the criteria into one list, which orders versions lexicographically (`Version.cmp_eq_fields`),
and `compareLex_eq_iff` says when another order of the fields orders two such lists alike.
`Precedes` takes a lexicographic order apart.
-/

namespace CcOciRuntime

/-! ## Lexicographic orders -/

section
variable {α : Type*} {f g : α → α → Ordering}

/-- Two orders of lists agree on a pair exactly if the one gives what the other gives at the first
difference. -/
theorem compareLex_eq_iff (hf : ∀ x, f x x = .eq) (hg : ∀ x y, g x y = .eq ↔ x = y)
    {xs ys : List α} :
    xs.compareLex f ys = xs.compareLex g ys ↔
      ∀ front x y xs' ys', xs = front ++ x :: xs' → ys = front ++ y :: ys' → x ≠ y →
        (f x y).then (xs'.compareLex f ys') = g x y := by
  have hstep : ∀ x y (o : Ordering), x ≠ y → (g x y).then o = g x y := by
    intro x y o hne
    cases hxy : g x y with
    | eq => exact absurd ((hg x y).1 hxy) hne
    | lt | gt => rfl
  constructor
  · rintro h front x y xs' ys' rfl rfl hne
    induction front with
    | nil =>
      simp only [List.nil_append, List.compareLex_cons_cons] at h
      rw [h, hstep x y _ hne]
    | cons z front ih =>
      simp only [List.cons_append, List.compareLex_cons_cons, hf, (hg z z).2 rfl,
        Ordering.eq_then] at h
      exact ih h
  · intro h
    induction xs generalizing ys with
    | nil => cases ys <;> rfl
    | cons x xs ih =>
      cases ys with
      | nil => rfl
      | cons y ys =>
        rw [List.compareLex_cons_cons, List.compareLex_cons_cons]
        by_cases hne : x = y
        · subst hne
          rw [hf, (hg x x).2 rfl, Ordering.eq_then, Ordering.eq_then]
          refine ih fun front x' y' xs' ys' hxs hys => h (x :: front) x' y' xs' ys' ?_ ?_
          · rw [hxs, List.cons_append]
          · rw [hys, List.cons_append]
        · rw [h [] x y xs ys rfl rfl hne, hstep x y _ hne]

/-- A list comes before another one: at the first difference its element does, or it ends there. -/
inductive Precedes (lt same : α → α → Prop) : List α → List α → Prop
  | shorter (y : α) (ys : List α) : Precedes lt same [] (y :: ys)
  | first {x y : α} (xs ys : List α) (h : lt x y) : Precedes lt same (x :: xs) (y :: ys)
  | next {x y : α} {xs ys : List α} (h : same x y) (hrest : Precedes lt same xs ys) :
    Precedes lt same (x :: xs) (y :: ys)

/-- The first of two lists is the smaller one. -/
theorem compareLex_eq_lt_iff {xs ys : List α} :
    xs.compareLex f ys = .lt ↔ Precedes (f · · = .lt) (f · · = .eq) xs ys := by
  constructor
  · intro h
    induction xs generalizing ys with
    | nil =>
      cases ys with
      | nil => cases h
      | cons y ys => exact .shorter y ys
    | cons x xs ih =>
      cases ys with
      | nil => cases h
      | cons y ys =>
        rw [List.compareLex_cons_cons] at h
        cases hxy : f x y with
        | lt => exact .first xs ys hxy
        | eq =>
          rw [hxy, Ordering.eq_then] at h
          exact .next hxy (ih h)
        | gt =>
          rw [hxy] at h
          cases h
  · intro h
    induction h with
    | shorter y ys => rfl
    | first xs ys h => rw [List.compareLex_cons_cons, h, Ordering.lt_then]
    | next h _ ih => rw [List.compareLex_cons_cons, h, Ordering.eq_then, ih]

/-- The order of two lists is turned around when that of their elements is. -/
theorem compareLex_swap (xs ys : List α) :
    (xs.compareLex f ys).swap = ys.compareLex (fun y x => (f x y).swap) xs := by
  induction xs generalizing ys with
  | nil => cases ys <;> rfl
  | cons x xs ih =>
    cases ys with
    | nil => rfl
    | cons y ys => rw [List.compareLex_cons_cons, List.compareLex_cons_cons, Ordering.swap_then, ih]

/-- The second of two lists is the smaller one. -/
theorem compareLex_eq_gt_iff {xs ys : List α} :
    xs.compareLex f ys = .gt ↔
      Precedes (fun y x => f x y = .gt) (fun y x => f x y = .eq) ys xs := by
  have hlt := @compareLex_eq_lt_iff _ (fun y x => (f x y).swap) ys xs
  rw [← compareLex_swap, Ordering.swap_eq_lt] at hlt
  simpa only [Ordering.swap_eq_lt, Ordering.swap_eq_eq] using hlt

/-- The order of two lists of images. -/
theorem compareLex_map {β : Type*} (p : β → α) (xs ys : List β) :
    (xs.map p).compareLex f (ys.map p) = xs.compareLex (fun x y => f (p x) (p y)) ys := by
  induction xs generalizing ys with
  | nil => cases ys <;> rfl
  | cons x xs ih =>
    cases ys with
    | nil => rfl
    | cons y ys => simp only [List.map_cons, List.compareLex_cons_cons, ih]

end

namespace SemVer

/-! ## Versions and their texts -/

/-- The characters of an identifier. -/
def isIdentChar (c : Char) : Bool := c.isAlphanum || c == '-'

/-- A pre-release identifier. -/
inductive Identifier
  | numeric (n : Nat)
  | alnum (text : List Char) (chars : text.all isIdentChar = true)
      (notNumeric : text.all Char.isDigit = false)
  deriving DecidableEq

/-- A version without its build metadata; without pre-release identifiers it is a release. -/
structure Version where
  major : Nat
  minor : Nat
  patch : Nat
  pre : List Identifier := []
  deriving DecidableEq

/-- Build metadata. -/
structure Build where
  parts : List (List Char)
  nonempty : parts ≠ []
  chars : ∀ part ∈ parts, part ≠ [] ∧ part.all isIdentChar = true

def Identifier.text : Identifier → List Char
  | numeric n => Nat.toDigits 10 n
  | alnum text _ _ => text

/-- The identifiers with the dots between them. -/
def preText (pre : List Identifier) : List Char := ['.'].intercalate (pre.map Identifier.text)

/-- What stands behind the patch number. -/
def preSuffix (pre : List Identifier) : List Char := if pre = [] then [] else '-' :: preText pre

def Version.text (v : Version) : List Char :=
  Nat.toDigits 10 v.major ++ '.' :: (Nat.toDigits 10 v.minor ++
    '.' :: (Nat.toDigits 10 v.patch ++ preSuffix v.pre))

def Build.text (m : Build) : List Char := ['.'].intercalate m.parts

/-- A version with build metadata. -/
def Version.withBuild (v : Version) (m : Build) : List Char := v.text ++ '+' :: m.text

/-- A text is a version `v`, with or without build metadata. -/
def IsVersion (text : List Char) (v : Version) : Prop :=
  text = v.text ∨ ∃ m : Build, text = v.withBuild m

/-! ## Precedence -/

/-- Numbers come before texts. -/
def Identifier.cmp : Identifier → Identifier → Ordering
  | numeric m, numeric n => compare m n
  | numeric _, alnum .. => .lt
  | alnum .., numeric _ => .gt
  | alnum s _ _, alnum t _ _ => s.compareLex compare t

instance : Ord Identifier := ⟨Identifier.cmp⟩

/-- The major, minor and patch numbers; a pre-release before its release; the identifiers from left
to right, with more of them behind fewer. -/
def Version.cmp : Version → Version → Ordering :=
  compareLex (compareOn major) <| compareLex (compareOn minor) <| compareLex (compareOn patch) <|
    compareLex (compareOn (·.pre.isEmpty)) (compareOn pre)

theorem Identifier.cmp_self (i : Identifier) : i.cmp i = .eq := by
  cases i with
  | numeric n =>
    show compare n n = .eq
    exact Std.ReflCmp.compare_self
  | alnum s =>
    show s.compareLex compare s = .eq
    exact Std.ReflCmp.compare_self

theorem Identifier.cmp_eq_iff {i j : Identifier} : i.cmp j = .eq ↔ i = j := by
  refine ⟨fun h => ?_, fun h => h ▸ cmp_self i⟩
  cases i with
  | numeric m =>
    cases j with
    | numeric n =>
      have h : compare m n = .eq := h
      rw [Std.LawfulEqCmp.eq_of_compare h]
    | alnum => cases h
  | alnum s =>
    cases j with
    | numeric => cases h
    | alnum t =>
      have h : s.compareLex compare t = .eq := h
      obtain rfl := Std.LawfulEqCmp.eq_of_compare h
      rfl

/-! ## The fields of a version -/

/-- One criterion of the precedence. -/
inductive Field
  | number (n : Nat)
  | patch (n : Nat)
  | release (isRelease : Bool)
  | ident (i : Identifier)
  deriving DecidableEq

/-- The order of two fields of one kind. Fields of different kinds are not compared. -/
def Field.cmp : Field → Field → Ordering
  | number m, number n => compare m n
  | patch m, patch n => compare m n
  | release r, release s => compare r s
  | ident i, ident j => i.cmp j
  | _, _ => .lt

def Version.fields (v : Version) : List Field :=
  .number v.major :: .number v.minor :: .patch v.patch :: .release v.pre.isEmpty ::
    v.pre.map .ident

theorem Field.cmp_eq_iff {x y : Field} : x.cmp y = .eq ↔ x = y := by
  cases x <;> cases y
  case ident.ident => simp only [cmp, Identifier.cmp_eq_iff, ident.injEq]
  all_goals simp [cmp]

theorem Version.cmp_eq_fields (v w : Version) :
    v.cmp w = v.fields.compareLex Field.cmp w.fields := by
  simp only [fields, List.compareLex_cons_cons, Field.cmp, compareLex_map]
  rfl

end SemVer

end CcOciRuntime
