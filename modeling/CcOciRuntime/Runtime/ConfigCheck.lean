import CcOciRuntime.Runtime.Create
import CcOciRuntime.Runtime.Semver

/-!
# Checking the version of a configuration

The runtime supports the configurations whose `ociVersion` is not newer than its own, by the major
number alone. The version is not checked to be one: what stands before the first dot is read as a
number, whatever it is, and a text without a dot is not handled at all.

`checkVersion_iff` says for which texts the check does what it should.

Reference: `cc_oci_config_check` (`src/oci-config.c:64`).
-/

namespace CcOciRuntime

namespace Runtime

open SemVer

/-- How the check ends. -/
inductive CheckEnd
  | returned (ok : Bool)
  | aborted
  | crashed
  deriving DecidableEq

/-- Reference: `cc_oci_config_check` (`src/oci-config.c:64`). -/
def checkVersion (ociVersion : Option String) : CheckEnd :=
  match ociVersion with
  | none => .returned false
  | some version =>
    match semverCmp supportedSpecVersion.toList version.toList with
    | .returned ret => .returned (!decide (ret < 0))
    | .aborted => .aborted
    | .crashed => .crashed

/-- The version that the runtime supports. -/
def supportedVersion : Version :=
  { major := 1, minor := 0, patch := 0, pre := [.alnum ['r', 'c', '1'] (by decide) (by decide)] }

/-- The text of a version that is not newer by its major number. -/
def Supported (text : List Char) : Prop :=
  ∃ v : Version, IsVersion text v ∧ v.major ≤ supportedVersion.major

/-! ## What the check gives -/

theorem splitDots_ne_nil (n : Nat) (text : List Char) : splitDots n text ≠ [] := by
  cases n with
  | zero => exact List.cons_ne_nil _ _
  | succ n =>
    rw [splitDots]
    split <;> exact List.cons_ne_nil _ _

/-- A text without a dot has one field, or none. -/
theorem strsplitMax_of_not_mem {text : List Char} (h : '.' ∉ text) :
    strsplitMax 3 text = [] ∨ strsplitMax 3 text = [text] := by
  rw [strsplitMax]
  split_ifs
  · exact .inl rfl
  · rw [splitDots, after_of_not_mem h]
    exact .inr rfl

/-- A text with a dot has a second field. -/
theorem strsplitMax_append {front : List Char} (h : '.' ∉ front) (rest : List Char) :
    ∃ minor fields, strsplitMax 3 (front ++ '.' :: rest) = front :: minor :: fields := by
  obtain ⟨minor, fields, hsplit⟩ := List.exists_cons_of_ne_nil (splitDots_ne_nil 1 rest)
  refine ⟨minor, fields, ?_⟩
  rw [strsplitMax, if_neg (by simp), splitDots_succ h, hsplit]

/-- A text without a dot makes the runtime read a null pointer. -/
theorem checkVersion_of_not_mem {version : String} (h : '.' ∉ version.toList) :
    checkVersion (some version) = .crashed := by
  have hcmp : semverCmp supportedSpecVersion.toList version.toList = .crashed := by
    rw [semverCmp, semver200Cmp]
    rcases strsplitMax_of_not_mem h with hsplit | hsplit
    · rw [hsplit]
      rfl
    · rw [hsplit]
      rfl
  rw [checkVersion, hcmp]

/-- What stands before the first dot decides. -/
theorem checkVersion_append {version : String} {front rest : List Char}
    (htext : version.toList = front ++ '.' :: rest) (h : '.' ∉ front) :
    checkVersion (some version) = .returned (decide (atol front ≤ 1)) := by
  obtain ⟨minor, fields, hsplit⟩ := strsplitMax_append h rest
  have hown : strsplitMax 3 supportedSpecVersion.toList =
      [['1'], ['0'], ['0', '-', 'r', 'c', '1']] := by
    decide +kernel
  have hone : atol ['1'] = 1 := by decide +kernel
  have hcmp : semverCmp supportedSpecVersion.toList version.toList =
      if atol front < 1 then .returned 1
      else if 1 < atol front then .returned (-1) else .returned 0 := by
    rw [semverCmp, semver200Cmp, htext, hsplit, hown]
    unfold cmpFields
    dsimp only
    rw [hone, if_pos rfl]
  rw [checkVersion, hcmp]
  rcases Int.lt_trichotomy (atol front) 1 with hlt | heq | hgt
  · rw [if_pos hlt, decide_eq_true (by omega)]
    rfl
  · rw [heq]
    rfl
  · rw [if_neg (by omega), if_pos hgt, decide_eq_false (by omega)]
    rfl

/-- The text of a version: the major number, a dot, and something with another dot. -/
theorem exists_append_of_isVersion {text : List Char} {v : Version} (h : IsVersion text v) :
    ∃ rest, text = Nat.toDigits 10 v.major ++ '.' :: rest ∧ '.' ∈ rest := by
  have hdot : ∀ tail, '.' ∈ Nat.toDigits 10 v.minor ++ '.' :: tail := fun tail =>
    List.mem_append_right _ List.mem_cons_self
  rcases h with rfl | ⟨m, rfl⟩
  · exact ⟨_, rfl, hdot _⟩
  · refine ⟨_, ?_, hdot (Nat.toDigits 10 v.patch ++ preSuffix v.pre ++ '+' :: m.text)⟩
    simp only [Version.withBuild, Version.text, List.append_assoc, List.cons_append]

theorem two_le_count_of_isVersion {text : List Char} {v : Version} (h : IsVersion text v) :
    2 ≤ text.count '.' := by
  obtain ⟨rest, rfl, hmem⟩ := exists_append_of_isVersion h
  have hpos := List.count_pos_iff.2 hmem
  rw [List.count_append, List.count_cons_self]
  omega

/-- Every supported version is accepted. -/
theorem checkVersion_of_supported {version : String} (h : Supported version.toList) :
    checkVersion (some version) = .returned true := by
  obtain ⟨v, hv, hmajor⟩ := h
  obtain ⟨rest, htext, -⟩ := exists_append_of_isVersion hv
  have hle : v.major ≤ 1 := hmajor
  rw [checkVersion_append htext (not_mem_toDigits (by decide) v.major), atol_toDigits,
    clamp64_eq (by omega) (by omega), decide_eq_true (by omega)]

/-- **The check of the version** accepts the supported versions and refuses every other text exactly
if the text is one of them, or has a dot and a number greater than one before it. -/
theorem checkVersion_iff (version : String) :
    ((Supported version.toList → checkVersion (some version) = .returned true) ∧
      (¬ Supported version.toList → checkVersion (some version) = .returned false)) ↔
    Supported version.toList ∨
      ∃ front rest, version.toList = front ++ '.' :: rest ∧ '.' ∉ front ∧ 1 < atol front := by
  by_cases hgood : Supported version.toList
  · exact iff_of_true ⟨checkVersion_of_supported, fun h => absurd hgood h⟩ (.inl hgood)
  · rw [or_iff_right hgood]
    constructor
    · rintro ⟨-, h⟩
      have hfalse := h hgood
      by_cases hdot : '.' ∈ version.toList
      · obtain ⟨front, rest, htext, hfront⟩ := List.eq_append_cons_of_mem hdot
        rw [checkVersion_append htext hfront, CheckEnd.returned.injEq, decide_eq_false_iff_not]
          at hfalse
        exact ⟨front, rest, htext, hfront, by omega⟩
      · rw [checkVersion_of_not_mem hdot] at hfalse
        cases hfalse
    · rintro ⟨front, rest, htext, hfront, hlt⟩
      refine ⟨fun h => absurd h hgood, fun _ => ?_⟩
      rw [checkVersion_append htext hfront, decide_eq_false (by omega)]

/-- Texts that are no versions: one is accepted, one crashes the runtime. -/
theorem checkVersion_lenient :
    (¬ Supported "1.x".toList ∧ checkVersion (some "1.x") = .returned true) ∧
      ¬ Supported "2".toList ∧ checkVersion (some "2") = .crashed := by
  have hcount : ∀ text : List Char, text.count '.' < 2 → ¬ Supported text := by
    rintro text hlt ⟨v, hv, -⟩
    exact absurd (two_le_count_of_isVersion hv) (by omega)
  exact ⟨⟨hcount _ (by decide), by decide +kernel⟩, hcount _ (by decide), by decide +kernel⟩

end Runtime

end CcOciRuntime
