import CcOciRuntime.Lib.Search
import Mathlib.Data.List.TakeWhile

/-!
# Texts of C as bytes

A text of C ends at its first zero byte; a buffer may hold more. `strstrLen` is the search of GLib
in the first bytes of such a text, which neither looks behind the zero nor behind its bound.
-/

namespace CcOciRuntime

/-- The text at the front of a buffer: what stands before the first zero byte. -/
def cBytes (buf : List UInt8) : List UInt8 := buf.takeWhile (· != 0)

/-- What stands behind the text of a buffer: nothing, or a zero byte and what follows it. -/
def NulTail (tail : List UInt8) : Prop := ∀ b ∈ tail.head?, b = 0

theorem zero_not_mem_cBytes (buf : List UInt8) : 0 ∉ cBytes buf := by
  intro hmem
  have hne := List.mem_takeWhile_imp hmem
  exact absurd hne (by decide)

theorem bne_zero_of_not_mem {text : List UInt8} (h : 0 ∉ text) : ∀ b ∈ text, (b != 0) = true := by
  intro b hb
  rw [bne_iff_ne]
  rintro rfl
  exact h hb

theorem cBytes_append {text tail : List UInt8} (h : 0 ∉ text) (htail : NulTail tail) :
    cBytes (text ++ tail) = text := by
  rw [cBytes, List.takeWhile_append_of_pos (bne_zero_of_not_mem h)]
  cases tail with
  | nil => rw [List.takeWhile_nil, List.append_nil]
  | cons b tail =>
    rw [List.takeWhile_cons_of_neg (by simp [htail b rfl]), List.append_nil]

theorem cBytes_of_not_mem {text : List UInt8} (h : 0 ∉ text) : cBytes text = text := by
  have htail : NulTail [] := fun b hb => by cases hb
  rw [← List.append_nil text, cBytes_append h htail, List.append_nil]

/-- A buffer is its text and what stands behind it. -/
theorem exists_cBytes_append (buf : List UInt8) :
    ∃ tail, buf = cBytes buf ++ tail ∧ NulTail tail := by
  refine ⟨buf.dropWhile (· != 0), (List.takeWhile_append_dropWhile ..).symm, fun b hb => ?_⟩
  by_contra hne
  have hhead := List.head?_dropWhile_not (· != (0 : UInt8)) buf
  rw [Option.mem_def.1 hb] at hhead
  simp [hne] at hhead

/-- Nothing behind a zero byte is part of the text. -/
theorem cBytes_append_of_mem {front : List UInt8} (h : 0 ∈ front) (rest : List UInt8) :
    cBytes (front ++ rest) = cBytes front := by
  induction front with
  | nil => cases h
  | cons b front ih =>
    rcases eq_or_ne b 0 with rfl | hb
    · rfl
    · have htail : 0 ∈ front := (List.mem_cons.1 h).resolve_left hb.symm
      have hpos : (b != 0) = true := bne_iff_ne.2 hb
      simp only [cBytes, List.cons_append, List.takeWhile_cons, hpos, if_true]
      exact congrArg (b :: ·) (ih htail)

theorem length_cBytes_le (buf : List UInt8) : (cBytes buf).length ≤ buf.length :=
  (List.takeWhile_sublist _).length_le

/-- The text of the front of a buffer is no longer than the text of the buffer. -/
theorem length_cBytes_le_of_prefix {front buf : List UInt8} (h : front <+: buf) :
    (cBytes front).length ≤ (cBytes buf).length := by
  obtain ⟨rest, rfl⟩ := h
  by_cases hmem : 0 ∈ front
  · rw [cBytes_append_of_mem hmem]
  · rw [cBytes_of_not_mem hmem, cBytes, List.takeWhile_append_of_pos (bne_zero_of_not_mem hmem),
      List.length_append]
    exact Nat.le_add_right _ _

/-- The search for `needle` among the first `len` bytes of a text: what stands before it, and what
follows it in the buffer. Reference: `g_strstr_len` of GLib. -/
def strstrLen (len : Nat) (haystack needle : List UInt8) : Option (List UInt8 × List UInt8) :=
  (((cBytes haystack).take len).dropInfix? needle).map fun r =>
    (r.1, haystack.drop (r.1.length + needle.length))

/-- A search whose bound is behind the text. -/
theorem strstrLen_append {len : Nat} {text tail : List UInt8} (needle : List UInt8)
    (h : 0 ∉ text) (htail : NulTail tail) (hlen : text.length ≤ len) :
    strstrLen len (text ++ tail) needle =
      (text.dropInfix? needle).map fun r => (r.1, r.2 ++ tail) := by
  rw [strstrLen, cBytes_append h htail, List.take_of_length_le hlen]
  cases hcut : text.dropInfix? needle with
  | none => rfl
  | some r =>
    obtain ⟨before, after⟩ := r
    obtain ⟨htext, -⟩ := dropInfix?_eq_some.1 hcut
    have hdrop : (text ++ tail).drop (before.length + needle.length) = after ++ tail := by
      rw [htext, List.append_assoc, ← List.length_append, List.drop_left]
    rw [Option.map_some, Option.map_some, hdrop]

end CcOciRuntime
