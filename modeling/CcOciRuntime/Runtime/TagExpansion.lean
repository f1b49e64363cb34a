import CcOciRuntime.Runtime.Cmdline

/-!
# Tags in the hypervisor's arguments

The tags of a line are replaced one after the other, in what the replacements before have made of
the line. So a value that contains the name of a later tag is itself expanded, and a tag without a
value stays as it is.

`expandCmdline_allAtOnce_iff` says for which lines and values the result is nevertheless the line
with each tag replaced by its value.

Reference: `cc_oci_expand_cmdline` (`src/hypervisor.c:168`).
-/

namespace CcOciRuntime

namespace Runtime

open Substitution (Origin everything markTable occurrences replaceTags scan)

/-- The expansion of a line with every byte marked: as text of the line, as part of a tag in it, or
as part of the value of a tag. -/
def markedExpansion (tags : List SpecialTag) (line : List UInt8) : List (UInt8 × Origin UInt8) :=
  replaceTags Prod.fst (markTable tags)
    (Substitution.place (fun _ => none) (scan tagNames line))

/-- `expanded` is the line with each tag replaced by its value, and nothing of it comes from a value
that was expanded again. -/
def AllAtOnce (tags : List SpecialTag) (line expanded : List UInt8) : Prop :=
  expanded = Substitution.fill (everything tags) (scan tagNames line) ∧
    markedExpansion tags line = Substitution.place (everything tags) (scan tagNames line)

instance (tags : List SpecialTag) (line expanded : List UInt8) :
    Decidable (AllAtOnce tags line expanded) :=
  inferInstanceAs (Decidable (_ ∧ _))

section
variable {tags : List SpecialTag}

theorem nil_not_mem_tagNames : [] ∉ tagNames := fun h => ne_nil_of_mem_tagNames h rfl

/-- The marked expansion is the expansion. -/
theorem map_fst_markedExpansion (h : ∀ tag ∈ tags, tag.1 ∈ tagNames) (line : List UInt8) :
    (markedExpansion tags line).map Prod.fst = expandTags tags line := by
  have hmap := Substitution.map_replaceTags Prod.fst id (markTable tags)
    (Substitution.place (fun _ => none) (scan tagNames line))
  have htable : (markTable tags).map (fun t => (t.1, t.2.map (List.map Prod.fst))) = tags := by
    rw [markTable, List.map_map]
    refine (List.map_congr_left fun tag _ => ?_).trans (List.map_id tags)
    obtain ⟨name, value⟩ := tag
    cases value <;> simp [Function.comp_def]
  rw [htable, Substitution.map_fst_place, Substitution.fill_scan nil_not_mem_tagNames] at hmap
  rw [expandTags_eq h]
  exact hmap

/-- An expansion that is right byte for byte with its marks is right. -/
theorem allAtOnce_iff (h : ∀ tag ∈ tags, tag.1 ∈ tagNames) (line : List UInt8) :
    AllAtOnce tags line (expandTags tags line) ↔
      markedExpansion tags line = Substitution.place (everything tags) (scan tagNames line) := by
  refine and_iff_right_of_imp fun heq => ?_
  rw [← map_fst_markedExpansion h, heq, Substitution.map_fst_place]

/-- A tag that occurs once is found once. -/
theorem count_tag_le_one {line : List UInt8} (honce : ∀ name ∈ tagNames, occurrences name line ≤ 1)
    (name : List UInt8) : (scan tagNames line).count (.tag name) ≤ 1 := by
  by_cases hmem : .tag name ∈ scan tagNames line
  · have hname := Substitution.mem_of_tag_mem_scan hmem
    have hcount := Substitution.count_tag_le_occurrences (ne_nil_of_mem_tagNames hname)
      (scan tagNames line)
    rw [Substitution.fill_scan nil_not_mem_tagNames] at hcount
    exact Nat.le_trans hcount (honce name hname)
  · rw [List.count_eq_zero.2 hmem]
    exact Nat.zero_le _

end

/-- **Expansion all at once.** A line in which each tag occurs at most once is expanded to the line
with its tags replaced exactly if its tags have values, and each tag of the table with a value, when
those before it have been replaced, is first found where it stands in the line, and is not found if
the line does not have it. A comment of the line is cut off before. -/
theorem expandCmdline_allAtOnce_iff (env : ArgsEnv) (net : CcOciNetCfg) (config config' : Config)
    (args args' : List (List UInt8)) (tags : List SpecialTag) (i : Nat)
    (arg line expanded : List UInt8)
    (hexpand : expandCmdline env net config args = .ok (config', args'))
    (htags : specialTags env net config = .ok tags)
    (harg : (findCommand env args)[i]? = some arg) (hline : removeComment arg = line)
    (hexpanded : args'[i]? = some expanded)
    (honce : ∀ name ∈ tagNames, occurrences name line ≤ 1) :
    AllAtOnce tags line expanded ↔
      (∀ name, .tag name ∈ scan tagNames line → (Substitution.assigned tags name).isSome) ∧
        Substitution.KeepsPlaces (scan tagNames line) [] tags := by
  have hnames := names_mem_tagNames htags
  obtain ⟨tags', htags', -, rfl⟩ := expandCmdline_eq_ok hexpand
  obtain rfl := Except.ok.inj (htags.symm.trans htags')
  rw [List.getElem?_map, harg, Option.map_some, expandLine_eq hnames, hline] at hexpanded
  obtain rfl := Option.some.inj hexpanded
  rw [allAtOnce_iff hnames]
  refine Substitution.replaceTags_eq_place_iff
    (fun tag htag => delimited_of_mem_tagNames (hnames tag htag)) ?_ ?_ (count_tag_le_one honce)
  · rw [names_of_specialTags htags]
    exact nodup_tagNames
  · intro name hname
    rw [names_of_specialTags htags]
    exact Substitution.mem_of_tag_mem_scan hname

/-- A line with two tags. -/
theorem expandCmdline_allAtOnce_append :
    let tags := tagTable (plainHost []) { hostname := some "box" }
      (plainConfig (some "quiet")) (plainVm (some "quiet")) 4096
    let line := cText "@KERNEL_PARAMS@ @KERNEL_NET_PARAMS@"
    AllAtOnce tags line (cText "quiet ip=::::::box::off::") := by
  intro tags line
  have htags : specialTags (plainHost []) { hostname := some "box" } (plainConfig (some "quiet")) =
      .ok tags := by
    decide +kernel
  have hvalues : ∀ name ∈ tagNames, .tag name ∈ scan tagNames line →
      (Substitution.assigned tags name).isSome := by
    decide +kernel
  exact (expandCmdline_allAtOnce_iff (plainHost []) { hostname := some "box" }
    (plainConfig (some "quiet")) _ [cText "qemu", line] _ tags 1 line line
    (cText "quiet ip=::::::box::off::") rfl htags rfl (by decide +kernel) (by decide +kernel)
    (by decide +kernel)).2
    ⟨fun name hname => hvalues name (Substitution.mem_of_tag_mem_scan hname) hname,
      by decide +kernel⟩

/-- Kernel parameters that are not set leave the tag, and a tag in the kernel parameters is expanded
like a tag of the line. -/
theorem expandCmdline_tag_left :
    (expandCmdline (plainHost []) {} (plainConfig none) [cText "@KERNEL_PARAMS@"]).map Prod.snd =
        .ok [cText "@KERNEL_PARAMS@"] ∧
      (expandCmdline (plainHost []) {} (plainConfig (some "x=@NAME@"))
        [cText "@KERNEL_PARAMS@"]).map Prod.snd = .ok [cText "x=000000000000"] ∧
      ¬ AllAtOnce (tagTable (plainHost []) {} (plainConfig none) (plainVm none) 4096)
        (cText "@KERNEL_PARAMS@") (cText "@KERNEL_PARAMS@") ∧
      ¬ AllAtOnce (tagTable (plainHost []) {} (plainConfig (some "x=@NAME@"))
        (plainVm (some "x=@NAME@")) 4096) (cText "@KERNEL_PARAMS@") (cText "x=000000000000") := by
  refine ⟨by decide +kernel, by decide +kernel, by decide +kernel, by decide +kernel⟩

end Runtime

end CcOciRuntime
