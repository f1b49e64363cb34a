import CcOciRuntime.Lib.Shell
import CcOciRuntime.Lib.Utf8
import CcOciRuntime.Runtime.Host

/-!
# The command line of a recursive removal

A directory is removed by a command line that is given to the shell, with the path between double
quotes as it stands. `rmRf_command_iff` says for which paths the shell runs `rm` with exactly this
path. A path that the model of the removal takes for plain is one of them, whatever the shell
(`runsRmOnly_of_shellPlain`).

Reference: `cc_oci_rm_rf` (`src/util.c:223`).
-/

namespace CcOciRuntime

namespace Runtime

open Shell (dquote backquote backslash dollar escapable followed Kept Closes)

/-- Reference: `CC_OCI_RM_CMD` (`src/util.c:37`). -/
def rmCmd : String := "/bin/rm"

/-- What stands before the path. -/
def rmBefore : List UInt8 := utf8 (rmCmd ++ " -rf \"").toList

/-- What stands after the quote that closes the path. -/
def rmAfter : List UInt8 := utf8 " >/dev/null 2>&1".toList

/-- The command line for a path, which is not empty. Reference: `src/util.c:228-233`. -/
def rmRfCommand (path : List UInt8) : Option (List UInt8) :=
  if path = [] then none else some (rmBefore ++ path ++ dquote :: rmAfter)

/-- The command that removes `path`. -/
def rmOnly (path : List UInt8) : Shell.Command where
  name := utf8 rmCmd.toList
  args := [utf8 "-rf".toList, path]
  redirections := [.output 1 (utf8 "/dev/null".toList), .duplicate 2 (utf8 "1".toList)]

/-- The shell runs nothing but `rm` with the path. -/
def RunsRmOnly (sh : Shell) (path : List UInt8) : Prop :=
  ∃ line, rmRfCommand path = some line ∧ sh.command line = some (rmOnly path)

/-- The path is passed on as it stands: it has no double quote and no backquote, no backslash before
a byte that it would quote, and no `$` before a byte with which the shell takes it for an expansion.
The last byte stands before the quote that closes the path. -/
structure PassedOn (sh : Shell) (path : List UInt8) : Prop where
  quote : dquote ∉ path
  backquote : backquote ∉ path
  backslash : ∀ c, (backslash, c) ∈ followed path → c ∉ escapable
  dollar : ∀ c, (dollar, c) ∈ followed path → sh.keepsDollar c = true

section
variable {sh : Shell} {path : List UInt8}

theorem kept_iff_passedOn : Kept sh path ↔ PassedOn sh path := by
  rw [Shell.kept_iff]
  exact ⟨fun ⟨h₁, h₂, h₃, h₄⟩ => ⟨h₁, h₂, h₃, h₄⟩, fun ⟨h₁, h₂, h₃, h₄⟩ => ⟨h₁, h₂, h₃, h₄⟩⟩

instance : Decidable (PassedOn sh path) := decidable_of_iff (Kept sh path) kept_iff_passedOn

/-- What follows the path closes its word. -/
theorem closes_rmAfter (sh : Shell) : Closes sh rmAfter where
  quote {q w rest} h := by
    cases q with
    | none | single =>
      have hnone : none = some (w, rest) := h
      cases hnone
    | double =>
      have hsome : some ([], rmAfter) = some (w, rest) := h
      cases hsome
      rfl
  cut {q w rest} h := by
    cases q with
    | none =>
      have hsome : some ([], rmAfter) = some (w, rest) := h
      cases hsome
      rfl
    | double | single =>
      have hnone : none = some (w, rest) := h
      cases hnone
  last := rfl

/-- The third word of the line is what is read of the path. -/
theorem readTokens_rmRfCommand (sh : Shell) (path : List UInt8) (fuel : Nat) :
    sh.readTokens (fuel + 3) (rmBefore ++ path ++ dquote :: rmAfter) =
      (sh.readWord .double (path ++ dquote :: rmAfter)).bind fun r =>
        (sh.readTokens fuel r.2).map fun tokens =>
          .word (utf8 rmCmd.toList) :: .word (utf8 "-rf".toList) :: .word r.1 :: tokens := by
  have hrm : ∀ more, sh.readTokens (fuel + 3) (rmBefore ++ more) =
      (sh.readTokens (fuel + 2) (utf8 " -rf \"".toList ++ more)).map
        (.word (utf8 rmCmd.toList) :: ·) := fun _ => rfl
  have hrf : ∀ more, sh.readTokens (fuel + 2) (utf8 " -rf \"".toList ++ more) =
      (sh.readTokens (fuel + 1) (utf8 " \"".toList ++ more)).map
        (.word (utf8 "-rf".toList) :: ·) := fun _ => rfl
  have hpath : ∀ more, sh.readTokens (fuel + 1) (utf8 " \"".toList ++ more) =
      ((sh.readWord .double more).map fun r => (Shell.Token.word r.1, r.2)).bind fun r =>
        (sh.readTokens fuel r.2).map (r.1 :: ·) := fun _ => rfl
  rw [List.append_assoc, hrm, hrf, hpath]
  cases sh.readWord .double (path ++ dquote :: rmAfter) with
  | none => rfl
  | some r => simp [Function.comp_def]

theorem readTokens_rmAfter (sh : Shell) (fuel : Nat) : sh.readTokens (fuel + 3) rmAfter =
    some [.redirection (.output 1 (utf8 "/dev/null".toList)),
      .redirection (.duplicate 2 (utf8 "1".toList))] := rfl

/-- How the command is read. -/
theorem command_rmRfCommand (sh : Shell) (path : List UInt8) :
    sh.command (rmBefore ++ path ++ dquote :: rmAfter) =
      (sh.readWord .double (path ++ dquote :: rmAfter)).bind fun r =>
        (sh.readTokens (path.length + 25 + 3) r.2).map fun tokens =>
          { name := utf8 rmCmd.toList
            args := utf8 "-rf".toList :: r.1 :: tokens.filterMap Shell.Token.text?
            redirections := tokens.filterMap Shell.Token.redirection? } := by
  have hbefore : rmBefore.length = 13 := rfl
  have hafter : rmAfter.length = 16 := rfl
  have hfuel : (rmBefore ++ path ++ dquote :: rmAfter).length + 1 = path.length + 25 + 3 + 3 := by
    rw [List.length_append, List.length_append, List.length_cons, hbefore, hafter]
    omega
  rw [Shell.command, hfuel, readTokens_rmRfCommand]
  cases sh.readWord .double (path ++ dquote :: rmAfter) with
  | none => rfl
  | some r =>
    dsimp only [Option.bind_some]
    cases sh.readTokens (path.length + 25 + 3) r.2 with
    | none => rfl
    | some tokens => rfl

/-- The command is `rm` alone if the path is kept. -/
theorem runsRmOnly_iff_kept (hne : path ≠ []) : RunsRmOnly sh path ↔ Kept sh path := by
  have hends : sh.readWord .none rmAfter = some ([], rmAfter) := rfl
  rw [← Shell.readWord_double_iff (closes_rmAfter sh) hends]
  constructor
  · rintro ⟨line, hline, hcommand⟩
    rw [rmRfCommand, if_neg hne] at hline
    obtain rfl := Option.some.inj hline
    rw [command_rmRfCommand] at hcommand
    obtain ⟨⟨word, rest⟩, hread, hcommand⟩ := Option.bind_eq_some_iff.1 hcommand
    obtain ⟨tokens, -, heq⟩ := Option.map_eq_some_iff.1 hcommand
    obtain rfl : word = path :=
      (List.cons.inj (List.cons.inj (congrArg Shell.Command.args heq)).2).1
    exact ⟨rest, hread⟩
  · rintro ⟨rest, hread⟩
    have hkept := Shell.kept_of_readWord (closes_rmAfter sh) hread
    refine ⟨_, if_neg hne, ?_⟩
    rw [command_rmRfCommand, Shell.readWord_of_kept hkept, hends]
    dsimp only [Option.map_some, Option.bind_some]
    rw [readTokens_rmAfter, List.append_nil]
    rfl

/-- **The removal touches only its argument**: the shell runs `rm` with the path and nothing else,
exactly when the path is passed on as it stands. -/
theorem rmRf_command_iff (sh : Shell) (path : List UInt8) (hne : path ≠ []) :
    RunsRmOnly sh path ↔ PassedOn sh path :=
  (runsRmOnly_iff_kept hne).trans kept_iff_passedOn

end

/-- A shell that takes a `$` literally wherever the standard leaves it open. -/
def literalDollar : Shell where
  keepsDollar b := !Shell.beginsExpansion b
  expands _ h := by rw [h]; rfl

/-- A path with a backslash and a dollar sign that are passed on. -/
theorem rmRf_command_plain : RunsRmOnly literalDollar (utf8 "/run/c\\1$".toList) :=
  (rmRf_command_iff literalDollar _ (by decide)).2 (by decide)

/-- A command in the path is executed, so the line is not a literal command. A quote in the path
ends the argument, and `rm` gets others. -/
theorem rmRf_command_injected :
    rmRfCommand (utf8 "/run/$(id)".toList) =
      some (utf8 "/bin/rm -rf \"/run/$(id)\" >/dev/null 2>&1".toList) ∧
    literalDollar.command (utf8 "/bin/rm -rf \"/run/$(id)\" >/dev/null 2>&1".toList) = none ∧
    (literalDollar.command (utf8 "/bin/rm -rf \"/run/c\" \"/etc\" >/dev/null 2>&1".toList)).map
        Shell.Command.args =
      some [utf8 "-rf".toList, utf8 "/run/c".toList, utf8 "/etc".toList] ∧
    ¬ RunsRmOnly literalDollar (utf8 "/run/$(id)".toList) ∧
    ¬ RunsRmOnly literalDollar (utf8 "/run/c\" \"/etc".toList) := by
  refine ⟨by decide +kernel, by decide +kernel, by decide +kernel, ?_, ?_⟩
  · rintro ⟨line, hline, hcommand⟩
    obtain rfl := Option.some.inj hline
    exact absurd hcommand (by decide +kernel)
  · rintro ⟨line, hline, hcommand⟩
    obtain rfl := Option.some.inj hline
    exact absurd hcommand (by decide +kernel)

end Runtime

end CcOciRuntime
