import CcOciRuntime.Runtime.Cmdline

/-!
# From lines to arguments

Each line of the file of the hypervisor's arguments becomes an argument, unless nothing is left of
it when its comment is cut off. But a line of blanks is taken for an argument, which is then
stripped to an empty one, and the search for a comment gives up after `LINE_MAX` bytes without a
hash.

`vmArgsGet_arguments_iff` says for which files the arguments are those that the lines stand for.

Reference: `cc_oci_vm_args_get` (`src/hypervisor.c:421`).
-/

namespace CcOciRuntime

namespace Runtime

open Substitution (replaceTags)

/-! ## What a line stands for -/

/-- The text before the comment; `blank` says that a comment may begin right away. -/
def uncommentFrom (blank : Bool) : List UInt8 → List UInt8
  | [] => []
  | b :: text => if b = hash ∧ blank = true then [] else b :: uncommentFrom (isSpace b) text

/-- A line without its comment, which begins with a hash in the first column or behind white
space. -/
def uncomment (line : List UInt8) : List UInt8 := uncommentFrom true line

/-- There is something else than white space. -/
def nonblank (text : List UInt8) : Bool := text.any fun b => !isSpace b

/-- The arguments that some lines stand for. -/
def lineArguments (tags : List SpecialTag) (lines : List (List UInt8)) : List (List UInt8) :=
  ((lines.map uncomment).filter nonblank).map fun line => strip (expandTags tags line)

/-- The line has no comment, or one that the search gets to from hash to hash. -/
def CommentInReach (line : List UInt8) : Prop :=
  uncomment line = line ∨ ∀ part ∈ (uncomment line).splitOn hash, part.length < lineMax

instance (line : List UInt8) : Decidable (CommentInReach line) :=
  inferInstanceAs (Decidable (_ ∨ _))

/-! ## Comments -/

/-- A comment may begin behind the text. -/
def endsBlank (blank : Bool) (text : List UInt8) : Bool :=
  match text.getLast? with
  | none => blank
  | some b => isSpace b

/-- A text without a hash stays. -/
theorem uncommentFrom_append {front : List UInt8} (h : hash ∉ front) (blank : Bool)
    (text : List UInt8) :
    uncommentFrom blank (front ++ text) = front ++ uncommentFrom (endsBlank blank front) text := by
  induction front generalizing blank with
  | nil => rfl
  | cons b front ih =>
    have hb : b ≠ hash := fun hb => h (hb ▸ List.mem_cons_self)
    have hfront : hash ∉ front := fun hmem => h (List.mem_cons_of_mem _ hmem)
    rw [List.cons_append, uncommentFrom, if_neg fun hcomment => hb hcomment.1, ih hfront]
    cases front with
    | nil => rfl
    | cons c front => rfl

theorem uncommentFrom_of_not_mem {text : List UInt8} (h : hash ∉ text) (blank : Bool) :
    uncommentFrom blank text = text := by
  rw [← List.append_nil text, uncommentFrom_append h]
  rfl

/-- A line is what is left without the comment, and the comment. -/
theorem uncommentFrom_cases (blank : Bool) (text : List UInt8) :
    uncommentFrom blank text = text ∨
      ∃ comment, text = uncommentFrom blank text ++ hash :: comment := by
  induction text generalizing blank with
  | nil => exact .inl rfl
  | cons b text ih =>
    rw [uncommentFrom]
    split_ifs with hb
    · rw [hb.1]
      exact .inr ⟨text, rfl⟩
    · rcases ih (isSpace b) with heq | ⟨comment, heq⟩
      · exact .inl (congrArg (b :: ·) heq)
      · exact .inr ⟨comment, congrArg (b :: ·) heq⟩

theorem exists_first_hash {text : List UInt8} (h : hash ∈ text) :
    ∃ before after, text = before ++ hash :: after ∧ hash ∉ before := by
  obtain ⟨before, after, hcut⟩ := exists_dropInfix? ((List.singleton_infix_iff _ _).2 h)
  obtain ⟨htext, hfirst⟩ := dropInfix?_eq_some.1 hcut
  rw [List.append_assoc] at htext
  refine ⟨before, after, htext, fun hmem => ?_⟩
  obtain ⟨xs, ys, rfl⟩ := List.append_of_mem hmem
  have hlen := hfirst xs (ys ++ [hash] ++ after) (by rw [htext]; simp)
  rw [List.length_append, List.length_cons] at hlen
  omega

theorem endsBlank_append (front before : List UInt8) :
    (front ++ before).getLast?.any isSpace = endsBlank (front.getLast?.any isSpace) before := by
  rw [endsBlank, List.getLast?_append]
  cases before.getLast? <;> rfl

theorem uncommentFrom_hash {before : List UInt8} (h : hash ∉ before) (blank : Bool)
    (after : List UInt8) :
    uncommentFrom blank (before ++ hash :: after) =
      if endsBlank blank before then before else before ++ hash :: uncommentFrom false after := by
  rw [uncommentFrom_append h, uncommentFrom]
  cases endsBlank blank before with
  | true => exact List.append_nil before
  | false => rfl

/-- What stands before the first hash is the first part of what is left. -/
theorem mem_splitOn_uncommentFrom {before : List UInt8} (h : hash ∉ before) (blank : Bool)
    (after : List UInt8) :
    before ∈ (uncommentFrom blank (before ++ hash :: after)).splitOn hash := by
  rw [uncommentFrom_hash h]
  split_ifs
  · rw [List.splitOn_eq_singleton h]
    exact List.mem_cons_self
  · rw [List.splitOn_append_cons_self_of_not_mem h]
    exact List.mem_cons_self

/-- The search gives up. -/
theorem cutComment_of_not_mem {fuel : Nat} {front rest : List UInt8}
    (h : hash ∉ rest.take lineMax) : cutComment (fuel + 1) front rest = front ++ rest := by
  have hnone : (rest.take lineMax).dropInfix? [hash] = none :=
    dropInfix?_eq_none.2 fun hinf => h ((List.singleton_infix_iff _ _).1 hinf)
  rw [cutComment, hnone]

/-- The search finds a hash, which begins a comment or not. -/
theorem cutComment_of_lt {fuel : Nat} {front before after : List UInt8} (h : hash ∉ before)
    (hlen : before.length < lineMax) :
    cutComment (fuel + 1) front (before ++ hash :: after) =
      if endsBlank (front.getLast?.any isSpace) before then front ++ before
      else cutComment fuel (front ++ before ++ [hash]) after := by
  have htake : ∃ more, (before ++ hash :: after).take lineMax = before ++ hash :: more := by
    obtain ⟨n, hn⟩ := Nat.exists_eq_add_of_lt hlen
    refine ⟨after.take n, ?_⟩
    rw [hn, Nat.add_assoc, List.take_length_add_append, List.take_succ_cons]
  obtain ⟨more, htake⟩ := htake
  have hdrop : (before ++ hash :: after).drop (before.length + 1) = after := by
    rw [← List.drop_drop, List.drop_left]
    rfl
  rw [cutComment, htake, dropInfix?_singleton h]
  dsimp only
  rw [endsBlank_append, hdrop]

/-- What the search for a comment does: it finds the comment, or gives up and keeps all. -/
theorem cutComment_spec {fuel : Nat} {front rest left : List UInt8} (hfuel : rest.length ≤ fuel)
    (hleft : left = uncommentFrom (front.getLast?.any isSpace) rest) :
    ∃ text, cutComment fuel front rest = front ++ text ∧ (text = left ∨ text = rest) ∧
      (text = left ↔ left = rest ∨ ∀ part ∈ left.splitOn hash, part.length < lineMax) := by
  induction fuel generalizing front rest left with
  | zero =>
    obtain rfl := List.length_eq_zero_iff.1 (Nat.le_zero.1 hfuel)
    exact ⟨[], rfl, .inr rfl, iff_of_true hleft.symm (.inl hleft)⟩
  | succ fuel ih =>
    by_cases hmem : hash ∈ rest
    swap
    · rw [uncommentFrom_of_not_mem hmem] at hleft
      exact ⟨rest, cutComment_of_not_mem fun h => hmem (List.mem_of_mem_take h), .inr rfl,
        iff_of_true hleft.symm (.inl hleft)⟩
    obtain ⟨before, after, rfl, hbefore⟩ := exists_first_hash hmem
    by_cases hlen : before.length < lineMax
    · rw [uncommentFrom_hash hbefore] at hleft
      rw [cutComment_of_lt hbefore hlen]
      split_ifs at hleft ⊢ with hblank
      · subst hleft
        refine ⟨left, rfl, .inl rfl, iff_of_true rfl (.inr ?_)⟩
        rw [List.splitOn_eq_singleton hbefore]
        exact List.forall_mem_singleton.2 hlen
      · rw [List.length_append, List.length_cons] at hfuel
        have hlast : (front ++ before ++ [hash]).getLast?.any isSpace = false := by
          rw [List.getLast?_concat]
          rfl
        obtain ⟨text, hcut, hcases, hiff⟩ := @ih (front ++ before ++ [hash]) after
          (uncommentFrom false after) (by omega) (by rw [hlast])
        subst hleft
        refine ⟨before ++ hash :: text, ?_, ?_, ?_⟩
        · rw [hcut]
          simp
        · rcases hcases with rfl | rfl
          · exact .inl rfl
          · exact .inr rfl
        · rw [List.append_right_inj, List.append_right_inj, List.cons.injEq, List.cons.injEq, hiff,
            List.splitOn_append_cons_self_of_not_mem hbefore, List.forall_mem_cons]
          simp only [true_and, hlen]
    · have htake : hash ∉ (before ++ hash :: after).take lineMax := by
        rw [List.take_append_of_le_length (Nat.le_of_not_lt hlen)]
        exact fun h => hbefore (List.mem_of_mem_take h)
      refine ⟨_, cutComment_of_not_mem htake, .inr rfl, ?_⟩
      refine ⟨fun h => .inl h.symm, ?_⟩
      rintro (h | h)
      · exact h.symm
      · rw [hleft] at h
        exact absurd (h before (mem_splitOn_uncommentFrom hbefore _ after)) hlen

/-- The comment of a line is cut off, or the whole line is kept. -/
theorem removeComment_spec (line : List UInt8) :
    (removeComment line = uncomment line ∨ removeComment line = line) ∧
      (removeComment line = uncomment line ↔ CommentInReach line) := by
  rw [removeComment]
  split_ifs with hhead
  · obtain ⟨text, rfl⟩ : ∃ text, line = hash :: text := by
      obtain ⟨hne, heq⟩ := List.head?_eq_some_iff.1 hhead
      exact ⟨_, heq⟩
    have hnone : uncomment (hash :: text) = [] := rfl
    refine ⟨.inl hnone.symm, iff_of_true hnone.symm (.inr ?_)⟩
    rw [hnone]
    decide
  · have hleft : uncomment line = uncommentFrom (([] : List UInt8).getLast?.any isSpace) line := by
      cases line with
      | nil => rfl
      | cons b line =>
        have hb : b ≠ hash := fun hb => hhead (congrArg some hb)
        rw [uncomment, uncommentFrom, uncommentFrom, if_neg fun h => hb h.1, if_neg fun h => hb h.1]
    obtain ⟨text, hcut, hspec⟩ := cutComment_spec (Nat.le_refl _) hleft
    rw [hcut]
    exact hspec

/-! ## Blanks -/

theorem countP_dropWhile_isSpace (text : List UInt8) :
    (text.dropWhile isSpace).countP (fun b => !isSpace b) = text.countP fun b => !isSpace b := by
  induction text with
  | nil => rfl
  | cons b text ih =>
    rw [List.dropWhile_cons]
    split_ifs with hb
    · rw [ih, List.countP_cons_of_neg (by simp [hb])]
    · rfl

/-- Only white space is taken away. -/
theorem countP_strip (text : List UInt8) :
    (strip text).countP (fun b => !isSpace b) = text.countP fun b => !isSpace b := by
  rw [strip, List.rdropWhile, List.countP_reverse, countP_dropWhile_isSpace, List.countP_reverse,
    countP_dropWhile_isSpace]

theorem nonblank_iff {text : List UInt8} :
    nonblank text = true ↔ 0 < text.countP fun b => !isSpace b := by
  rw [nonblank, List.any_eq_true, List.countP_pos_iff]

/-- A blank line is stripped to nothing. -/
theorem strip_eq_nil {text : List UInt8} : strip text = [] ↔ nonblank text = false := by
  constructor
  · intro h
    have hcount := countP_strip text
    rw [h, List.countP_nil] at hcount
    rw [← Bool.not_eq_true, nonblank_iff]
    omega
  · intro h
    have hall : ∀ b ∈ text, isSpace b = true := by
      intro b hb
      have hb' := List.any_eq_false.1 h b hb
      simpa using hb'
    rw [strip, List.dropWhile_eq_nil_iff.2 hall]
    rfl

/-- More than white space behind a text is not taken away. -/
theorem strip_append_hash_ne (text rest : List UInt8) :
    strip (text ++ hash :: rest) ≠ strip text := by
  intro h
  have hcount := countP_strip (text ++ hash :: rest)
  rw [h, countP_strip, List.countP_append, List.countP_cons_of_pos (by decide)] at hcount
  omega

/-! ## Lines and arguments -/

section
variable {tags : List SpecialTag}

/-- A comment that is kept stands behind the expanded line. -/
theorem expandTags_append_hash (h : ∀ tag ∈ tags, tag.1 ∈ tagNames) (text comment : List UInt8) :
    ∃ rest, expandTags tags (text ++ hash :: comment) = expandTags tags text ++ hash :: rest := by
  rw [expandTags_eq h, expandTags_eq h]
  exact Substitution.replaceTags_append_cons
    (fun tag htag => (tagNames_shape tag.1 (h tag htag)).2.1) text comment

/-- There is no tag in white space. -/
theorem expandTags_of_blank (h : ∀ tag ∈ tags, tag.1 ∈ tagNames) {text : List UInt8}
    (hblank : nonblank text = false) : expandTags tags text = text := by
  rw [expandTags_eq h]
  refine Substitution.replaceTags_of_not_mem fun tag htag => ⟨atSign, ?_, ?_⟩
  · obtain ⟨body, -, -, hname⟩ := delimited_of_mem_tagNames (h tag htag)
    rw [hname]
    exact List.mem_cons_self
  · rw [List.map_id]
    intro hmem
    exact absurd (List.any_eq_false.1 hblank atSign hmem) (by decide)

/-- The argument that a line becomes, if it becomes one. -/
def got (tags : List SpecialTag) (line : List UInt8) : List (List UInt8) :=
  if expandLine tags line = [] then [] else [strip (expandLine tags line)]

/-- The argument that a line stands for, if it stands for one. -/
def wanted (tags : List SpecialTag) (line : List UInt8) : List (List UInt8) :=
  if nonblank (uncomment line) then [strip (expandTags tags (uncomment line))] else []

/-- The line is one that becomes what it stands for. -/
def Regular (tags : List SpecialTag) (line : List UInt8) : Prop :=
  CommentInReach line ∧
    (uncomment line = [] ∨ nonblank (expandTags tags (uncomment line)) = true)

/-- The arguments that are got, line by line. -/
theorem map_strip_eq_flatMap (lines : List (List UInt8)) :
    ((lines.map (expandLine tags)).filter (· ≠ [])).map strip = lines.flatMap (got tags) := by
  induction lines with
  | nil => rfl
  | cons line lines ih =>
    rw [List.map_cons, List.flatMap_cons, got, ← ih]
    split_ifs with h
    · rw [List.filter_cons_of_neg (by simpa using h), List.nil_append]
    · rw [List.filter_cons_of_pos (by simpa using h), List.map_cons, List.singleton_append]

/-- Those that are wanted, line by line. -/
theorem lineArguments_eq_flatMap (lines : List (List UInt8)) :
    lineArguments tags lines = lines.flatMap (wanted tags) := by
  induction lines with
  | nil => rfl
  | cons line lines ih =>
    rw [List.flatMap_cons, wanted, ← ih, lineArguments, List.map_cons]
    split_ifs with h
    · rw [List.filter_cons_of_pos h, List.map_cons, List.singleton_append]
      rfl
    · rw [List.filter_cons_of_neg h, List.nil_append]
      rfl

theorem got_nil (h : ∀ tag ∈ tags, tag.1 ∈ tagNames) : got tags [] = [] := by
  rw [got, expandLine_eq h]
  exact if_pos (expandTags_of_blank h rfl)

/-- A regular line gives what is wanted. -/
theorem got_of_regular (h : ∀ tag ∈ tags, tag.1 ∈ tagNames) {line : List UInt8}
    (hline : Regular tags line) : got tags line = wanted tags line ∧ [] ∉ got tags line := by
  obtain ⟨hreach, hcases⟩ := hline
  rw [got, wanted, expandLine_eq h, (removeComment_spec line).2.2 hreach]
  rcases hcases with hnil | hfull
  · rw [hnil, expandTags_of_blank h rfl]
    exact ⟨rfl, List.not_mem_nil⟩
  · have hne : expandTags tags (uncomment line) ≠ [] := by
      intro hnil
      rw [hnil] at hfull
      cases hfull
    have hblank : nonblank (uncomment line) = true := by
      by_contra hnot
      rw [expandTags_of_blank h (Bool.not_eq_true _ ▸ hnot)] at hfull
      exact hnot hfull
    rw [if_neg hne, if_pos hblank]
    refine ⟨rfl, fun hmem => ?_⟩
    rw [strip_eq_nil.1 (List.mem_singleton.1 hmem).symm] at hfull
    cases hfull

/-- A line that stands for an argument becomes one. -/
theorem length_wanted_le (h : ∀ tag ∈ tags, tag.1 ∈ tagNames) {line : List UInt8}
    (hne : [] ∉ wanted tags line) : (wanted tags line).length ≤ (got tags line).length := by
  rw [wanted] at hne ⊢
  split_ifs at hne ⊢ with hblank
  · have hfull : expandTags tags (uncomment line) ≠ [] := by
      intro hnil
      rw [hnil] at hne
      exact hne List.mem_cons_self
    have hline : expandLine tags line ≠ [] := by
      rw [expandLine_eq h]
      rcases (removeComment_spec line).1 with heq | heq
      · rwa [heq]
      · rw [heq]
        rcases uncommentFrom_cases true line with hall | ⟨comment, hcomment⟩
        · rwa [← hall]
        · obtain ⟨rest, hrest⟩ := expandTags_append_hash h (uncomment line) comment
          rw [hcomment]
          exact hrest ▸ List.append_ne_nil_of_right_ne_nil _ (List.cons_ne_nil _ _)
    rw [got, if_neg hline]
    exact Nat.le_refl _
  · exact Nat.zero_le _

/-- Only a regular line does. -/
theorem regular_of_got (h : ∀ tag ∈ tags, tag.1 ∈ tagNames) {line : List UInt8}
    (heq : got tags line = wanted tags line) (hne : [] ∉ got tags line) : Regular tags line := by
  rw [got, wanted, expandLine_eq h] at heq
  rw [got, expandLine_eq h] at hne
  by_cases hcut : removeComment line = uncomment line
  · refine ⟨(removeComment_spec line).2.1 hcut, ?_⟩
    rw [hcut] at heq hne
    split_ifs at heq hne with hnil hblank
    · have hsame := expandTags_of_blank h (Bool.eq_false_iff.2 hblank)
      exact .inl (hsame.symm.trans hnil)
    · refine .inr (Bool.not_eq_false _ ▸ fun hfull => hne ?_)
      exact List.mem_singleton.2 (strip_eq_nil.2 hfull).symm
  · -- the comment is kept, and is part of an argument
    have hkept := (removeComment_spec line).1.resolve_left hcut
    rcases uncommentFrom_cases true line with hall | ⟨comment, hcomment⟩
    · exact absurd (hkept.trans hall.symm) hcut
    · obtain ⟨rest, hrest⟩ := expandTags_append_hash h (uncomment line) comment
      have hline : expandTags tags line = expandTags tags (uncomment line) ++ hash :: rest :=
        (congrArg (expandTags tags) hcomment).trans hrest
      rw [hkept, hline, if_neg (List.append_ne_nil_of_right_ne_nil _ (List.cons_ne_nil _ _))] at heq
      split_ifs at heq
      exact absurd (List.cons.inj heq).1 (strip_append_hash_ne _ _)

/-- The arguments of some lines are those they stand for, and none is empty, exactly if every line
is regular. -/
theorem flatMap_got_iff (h : ∀ tag ∈ tags, tag.1 ∈ tagNames) {lines : List (List UInt8)} :
    (lines.flatMap (got tags) = lines.flatMap (wanted tags) ∧ [] ∉ lines.flatMap (got tags)) ↔
      ∀ line ∈ lines, Regular tags line := by
  constructor
  · rintro ⟨heq, hne⟩
    have hparts : ∀ line ∈ lines, wanted tags line = got tags line := by
      refine forall_eq_of_flatMap_eq (fun line hline => length_wanted_le h fun hmem => ?_) heq.symm
      exact hne (heq ▸ List.mem_flatMap.2 ⟨line, hline, hmem⟩)
    intro line hline
    exact regular_of_got h (hparts line hline).symm fun hmem =>
      hne (List.mem_flatMap.2 ⟨line, hline, hmem⟩)
  · intro hlines
    refine ⟨List.flatMap_congr fun line hline => (got_of_regular h (hlines line hline)).1, ?_⟩
    intro hmem
    obtain ⟨line, hline, hmem⟩ := List.mem_flatMap.1 hmem
    exact (got_of_regular h (hlines line hline)).2 hmem

end

/-! ## The file -/

theorem splitOn_eq_splitArgs {text : List UInt8} (h : splitArgs text ≠ []) :
    text.splitOn newline = splitArgs text := by
  rw [splitArgs] at h ⊢
  split_ifs at h ⊢
  · exact absurd rfl h
  · rfl

/-- The lines of a file without zero bytes; the one behind the last newline is left out when it is
empty. -/
theorem fileToStrv_eq_ok {env : ArgsEnv} {file : String} {contents : List UInt8}
    {lines : List (List UInt8)} (hcontents : env.contents file = .ok contents)
    (hnul : 0 ∉ contents) (h : fileToStrv env file = .ok lines) :
    lines ≠ [] ∧ (contents.splitOn newline = lines ∨ contents.splitOn newline = lines ++ [[]]) := by
  rw [fileToStrv] at h
  split_ifs at h
  rw [hcontents] at h
  dsimp only at h
  rw [cBytes_of_not_mem hnul] at h
  split_ifs at h with hnil hlast
  · have hlines := Except.ok.inj h
    have hsplit : contents.splitOn newline = splitArgs contents := splitOn_eq_splitArgs hnil
    have hfull : splitArgs contents = lines ++ [[]] := by
      rw [← hlines, List.dropLast_append_getLast? _ hlast]
    refine ⟨?_, .inr (hsplit.trans hfull)⟩
    rintro rfl
    -- a single empty line is what an empty text is split into
    have hcontents : contents = [] := by
      rw [← joinArgs_splitArgs contents, hfull]
      rfl
    rw [hcontents] at hnil
    exact hnil rfl
  · obtain rfl := Except.ok.inj h
    exact ⟨hnil, .inl (splitOn_eq_splitArgs hnil)⟩

theorem findCommand_append {env : ArgsEnv} {lines : List (List UInt8)} (h : lines ≠ [])
    (more : List (List UInt8)) :
    findCommand env (lines ++ more) = findCommand env lines ++ more := by
  obtain ⟨line, lines, rfl⟩ := List.exists_cons_of_ne_nil h
  rw [List.cons_append, findCommand, findCommand]
  split_ifs <;> rfl

/-- **From lines to arguments.** The hypervisor's arguments are those that the lines and the
additional arguments stand for, and none of them is empty, exactly if the search for its comment
gets through each line, each line has no byte left without its comment or a byte that is not white
space when it has been expanded, and so has each additional argument. -/
theorem vmArgsGet_arguments_iff (env : ArgsEnv) (net : CcOciNetCfg) (config config' : Config)
    (extraArgs : List (Option (List UInt8))) (args : List (List UInt8)) (file : String)
    (contents : List UInt8) (tags : List SpecialTag)
    (hget : vmArgsGet env net config extraArgs = .ok (config', args))
    (hfile : vmArgsFilePath env config = some file) (hcontents : env.contents file = .ok contents)
    (hnul : 0 ∉ contents) (htags : specialTags env net config = .ok tags) :
    (args = lineArguments tags (findCommand env (contents.splitOn newline)) ++
        extraArgs.reduceOption.map strip ∧ [] ∉ args) ↔
      (∀ line ∈ findCommand env (contents.splitOn newline), CommentInReach line ∧
        (uncomment line = [] ∨ nonblank (expandTags tags (uncomment line)) = true)) ∧
      ∀ arg ∈ extraArgs.reduceOption, nonblank arg = true := by
  have hnames := names_mem_tagNames htags
  obtain ⟨file', lines, tags', hfile', hlines, htags', -, rfl⟩ := vmArgsGet_eq_ok hget
  obtain rfl := Except.ok.inj (htags.symm.trans htags')
  obtain rfl := Option.some.inj (hfile.symm.trans hfile')
  obtain ⟨hne, hsplit⟩ := fileToStrv_eq_ok hcontents hnul hlines
  have hgot : (findCommand env lines).flatMap (got tags) =
      (findCommand env (contents.splitOn newline)).flatMap (got tags) := by
    rcases hsplit with hsplit | hsplit
    · rw [hsplit]
    · rw [hsplit, findCommand_append hne, List.flatMap_append]
      have hempty : ([[]] : List (List UInt8)).flatMap (got tags) = [] := by
        rw [List.flatMap_singleton]
        exact got_nil hnames
      rw [hempty, List.append_nil]
  have hextra : [] ∉ extraArgs.reduceOption.map strip ↔
      ∀ arg ∈ extraArgs.reduceOption, nonblank arg = true := by
    rw [List.mem_map, not_exists]
    refine forall_congr' fun arg => ?_
    rw [not_and, strip_eq_nil, Bool.not_eq_false]
  rw [map_strip_eq_flatMap, hgot, lineArguments_eq_flatMap, List.append_left_inj,
    List.mem_append, not_or, ← and_assoc, flatMap_got_iff hnames, hextra]
  rfl

/-- A file with comments and a blank line. -/
theorem vmArgsGet_arguments_qemu :
    let contents := cText "/usr/bin/qemu # the hypervisor\n-m\n\n# memory\n2G\n"
    let env := plainHost contents
    let tags := tagTable env {} (plainConfig none) (plainVm none) 4096
    let args := [cText "/usr/bin/qemu", cText "-m", cText "2G", cText "-net"]
    (vmArgsGet env {} (plainConfig none) [none, some (cText "-net ")]).map Prod.snd = .ok args ∧
      args = lineArguments tags (findCommand env (contents.splitOn newline)) ++
        [none, some (cText "-net ")].reduceOption.map strip ∧ [] ∉ args := by
  intro contents env tags args
  have hrun : (vmArgsGet env {} (plainConfig none) [none, some (cText "-net ")]).map Prod.snd =
      .ok args := by
    decide +kernel
  refine ⟨hrun, ?_⟩
  obtain ⟨⟨config', args'⟩, hget, hargs⟩ := map_eq_ok_iff.1 hrun
  obtain rfl : args' = args := hargs
  have htags : specialTags env {} (plainConfig none) = .ok tags := by decide +kernel
  exact (vmArgsGet_arguments_iff env {} (plainConfig none) config' [none, some (cText "-net ")] args
    "/bundle/hypervisor.args" contents tags hget (by decide +kernel) rfl (by decide +kernel)
    htags).2 ⟨by decide +kernel, by decide +kernel⟩

/-- A line of blanks becomes an empty argument, and a comment that is too far behind the front of
its line is not cut off. -/
theorem vmArgsGet_empty_argument :
    let front := List.replicate 2048 120 ++ cText " "
    let far := front ++ cText "# far"
    (vmArgsGet (plainHost (cText "/usr/bin/qemu\n  \n")) {} (plainConfig none) []).map Prod.snd =
        .ok [cText "/usr/bin/qemu", []] ∧
      uncomment far = front ∧ removeComment far = far := by
  refine ⟨by decide +kernel, by decide +kernel, by decide +kernel⟩

end Runtime

end CcOciRuntime
