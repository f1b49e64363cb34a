import CcOciRuntime.Lib.Bytes
import CcOciRuntime.Lib.CText
import CcOciRuntime.Lib.Chunks
import CcOciRuntime.Lib.Utf8

/-!
# The pipe to the hypervisor's process

The child of `cc_oci_vm_launch` becomes the hypervisor, and gets its arguments from the parent
through a pipe: a length, and then the arguments joined by newlines. The length counts characters
and is used as a number of bytes, so a text that is not ASCII is cut. The child reads once for the
length and once for the text, whatever the two reads get.

`childExec_iff` says for which texts and which reads the child runs what the parent computed.

Reference: `cc_oci_vm_launch` (`src/process.c:859`).
-/

namespace CcOciRuntime

namespace Runtime

/-- `ARG_MAX` of Linux. -/
def argMax : Nat := 131072

/-- The newline that stands between two arguments. -/
def newline : UInt8 := 10

/-- The arguments as one text. Reference: `g_strjoinv` (`src/process.c:1111`). -/
def joinArgs (args : List (List UInt8)) : List UInt8 := [newline].intercalate args

/-- A text as arguments; the empty text has none. Reference: `g_strsplit_set`
(`src/process.c:989`). -/
def splitArgs (text : List UInt8) : List (List UInt8) :=
  if text = [] then [] else text.splitOn newline

/-- The length that the parent computes. Reference: `hypervisor_args_len` (`src/process.c:1117`). -/
def argsLen (args : List (List UInt8)) : Nat := charCount (joinArgs args)

/-- The two writes of the parent. Reference: `src/process.c:1120-1134`. -/
def writeArgs (args : List (List UInt8)) : List (List UInt8) :=
  [leBytes 4 (argsLen args), (joinArgs args).take (argsLen args)]

/-- What the child needs apart from the arguments. -/
structure ChildEnv where
  proxyDisconnected : Bool := true
  childSetUp : Bool := true

/-- The arguments that the child passes to `execvp`, unless it fails before. A read at the end of
the pipe gets nothing and is no error. Reference: `src/process.c:936-1004`. -/
def childExec (env : ChildEnv) (pipe : List (List UInt8)) : Option (List (List UInt8)) :=
  if env.proxyDisconnected = false then none
  else
    let (bytes, pipe) := (readSome 4 pipe).getD ([], [])
    -- the bytes of the length that have not been read are zero, as it was initialised
    let len := leNat bytes
    if 2147483648 ≤ len then none
    else if argMax ≤ len then none
    else
      let (text, _) := (readSome len pipe).getD ([], [])
      let args := splitArgs (cBytes text)
      if env.childSetUp = false then none else some args

/-! ## Joining and splitting -/

/-- Joining undoes splitting. -/
theorem joinArgs_splitArgs (text : List UInt8) : joinArgs (splitArgs text) = text := by
  rw [splitArgs]
  split_ifs with h
  · rw [h]
    rfl
  · exact List.intercalate_splitOn newline

theorem splitArgs_inj {text text' : List UInt8} :
    splitArgs text = splitArgs text' ↔ text = text' := by
  refine ⟨fun h => ?_, congrArg splitArgs⟩
  rw [← joinArgs_splitArgs text, h, joinArgs_splitArgs]

/-! ## Reading the arguments -/

/-- The child fails neither at the length nor afterwards if the length is in bounds. -/
theorem childExec_of_reads {env : ChildEnv} {pipe rest rest' : List (List UInt8)}
    {bytes text : List UInt8} (hproxy : env.proxyDisconnected = true)
    (hsetup : env.childSetUp = true) (hlen : (readSome 4 pipe).getD ([], []) = (bytes, rest))
    (hmax : leNat bytes < argMax)
    (htext : (readSome (leNat bytes) rest).getD ([], []) = (text, rest')) :
    childExec env pipe = some (splitArgs (cBytes text)) := by
  have hpos : ¬ 2147483648 ≤ leNat bytes := by
    have : argMax = 131072 := rfl
    omega
  simp only [childExec, hproxy, hsetup, hlen, htext, Bool.true_eq_false, if_false, if_neg hpos,
    if_neg (Nat.not_le.2 hmax)]

/-- A length that is read in part leaves a zero byte, which ends the text before the arguments. The
bytes of the length before it are zero as well if the length is small. -/
theorem length_cBytes_leBytes_drop {n k : Nat} (hn : n < argMax) (hk : 0 < k) (hk4 : k < 4)
    (rest : List UInt8) :
    (cBytes ((leBytes 4 n).drop k ++ rest)).length ≤ if n < 256 then 0 else 3 := by
  have hmax : argMax = 131072 := rfl
  have hbytes : leBytes 4 n =
      [UInt8.ofNat n, UInt8.ofNat (n / 256), UInt8.ofNat (n / 256 / 256), 0] := by
    have hlast : n / 256 / 256 / 256 = 0 := by omega
    simp only [leBytes, hlast]
    rfl
  have hcases : k = 1 ∨ k = 2 ∨ k = 3 := by omega
  have hmem : 0 ∈ (leBytes 4 n).drop k := by
    rw [hbytes]
    rcases hcases with rfl | rfl | rfl <;> simp
  rw [cBytes_append_of_mem hmem]
  split_ifs with hsmall
  · have hzero : n / 256 = 0 := by omega
    rw [hbytes, hzero]
    rcases hcases with rfl | rfl | rfl <;> exact Nat.le_refl 0
  · refine Nat.le_trans (length_cBytes_le _) ?_
    rw [List.length_drop, length_leBytes]
    omega

section
variable {args : List (List UInt8)} {chars : List Char} {pipe rest rest' : List (List UInt8)}
  {bytes text : List UInt8}

theorem argsLen_eq (hutf8 : joinArgs args = utf8 chars) : argsLen args = chars.length := by
  rw [argsLen, hutf8, charCount_utf8]

/-- There are at least as many bytes as characters. -/
theorem argsLen_le (hutf8 : joinArgs args = utf8 chars) :
    argsLen args ≤ (joinArgs args).length := by
  rw [argsLen_eq hutf8, hutf8]
  exact length_le_length_utf8 chars

/-- The length that the child reads is at most the one that was sent. -/
theorem leNat_le_argsLen (hdata : pipe.flatten = (writeArgs args).flatten)
    (hlen : (readSome 4 pipe).getD ([], []) = (bytes, rest)) : leNat bytes ≤ argsLen args := by
  obtain ⟨happend, hle⟩ := readSome_getD hlen
  have hprefix : bytes <+: leBytes 4 (argsLen args) := by
    refine List.prefix_of_prefix_length_le ⟨rest.flatten, happend.trans hdata⟩
      (List.prefix_append _ _) ?_
    rw [length_leBytes]
    exact hle
  obtain ⟨tail, htail⟩ := hprefix
  calc leNat bytes ≤ leNat (bytes ++ tail) := leNat_le_append bytes tail
    _ = argsLen args % 256 ^ 4 := by rw [htail, leNat_leBytes]
    _ ≤ argsLen args := Nat.mod_le _ _

/-- A first read that gets only a part of the length leaves no chance for the text. -/
theorem cBytes_ne_of_short (hmax : argsLen args < argMax) (hne : joinArgs args ≠ [])
    (hle : argsLen args ≤ (joinArgs args).length) (hpipe : NonemptyChunks pipe)
    (hdata : pipe.flatten = (writeArgs args).flatten)
    (hlen : (readSome 4 pipe).getD ([], []) = (bytes, rest)) (hshort : bytes.length < 4)
    (htext : (readSome (leNat bytes) rest).getD ([], []) = (text, rest')) :
    cBytes text ≠ joinArgs args := by
  intro heq
  obtain ⟨hfirst, -⟩ := readSome_getD hlen
  obtain ⟨hsecond, -⟩ := readSome_getD htext
  have hnil : pipe ≠ [] := by
    rintro rfl
    cases hdata
  have hpos := List.length_pos_iff.2 (hpipe.readSome_ne_nil (by decide) hnil hlen)
  have hrest : rest.flatten = (leBytes 4 (argsLen args)).drop bytes.length ++
      (joinArgs args).take (argsLen args) := by
    have hdrop := congrArg (List.drop bytes.length) (hfirst.trans hdata)
    rw [List.drop_left' rfl, writeArgs, List.flatten_cons, List.flatten_cons, List.flatten_nil,
      List.append_nil, List.drop_append_of_le_length (by rw [length_leBytes]; omega)] at hdrop
    exact hdrop
  have hbound := length_cBytes_leBytes_drop hmax hpos hshort ((joinArgs args).take (argsLen args))
  have hprefix := length_cBytes_le_of_prefix ⟨rest'.flatten, hsecond⟩
  have hjoined := List.length_pos_iff.2 hne
  rw [hrest, heq] at hprefix
  split_ifs at hbound <;> omega

/-- A first read that gets the length leaves the arguments for the second. -/
theorem eq_leBytes_of_four (hdata : pipe.flatten = (writeArgs args).flatten)
    (hlen : (readSome 4 pipe).getD ([], []) = (bytes, rest)) (hfour : ¬ bytes.length < 4) :
    bytes = leBytes 4 (argsLen args) ∧ rest.flatten = (joinArgs args).take (argsLen args) := by
  obtain ⟨hfirst, hle⟩ := readSome_getD hlen
  have happend : bytes ++ rest.flatten =
      leBytes 4 (argsLen args) ++ (joinArgs args).take (argsLen args) := by
    rw [hfirst, hdata, writeArgs, List.flatten_cons, List.flatten_cons, List.flatten_nil,
      List.append_nil]
  exact List.append_inj happend (by rw [length_leBytes]; omega)

theorem leNat_argsLen (hmax : argsLen args < argMax) :
    leNat (leBytes 4 (argsLen args)) = argsLen args := by
  have hbound : argMax < 256 ^ 4 := by decide
  rw [leNat_leBytes, Nat.mod_eq_of_lt (by omega)]

/-- The writes arrive one by one, or both together. -/
theorem readSome_writeArgs_iff (hne : (joinArgs args).take (argsLen args) ≠ []) :
    readSome 4 pipe = some (leBytes 4 (argsLen args), [(joinArgs args).take (argsLen args)]) ↔
      pipe = writeArgs args ∨ pipe = [(writeArgs args).flatten] := by
  have hfour : 4 = (leBytes 4 (argsLen args)).length := (length_leBytes 4 _).symm
  have hflatten : (writeArgs args).flatten =
      leBytes 4 (argsLen args) ++ (joinArgs args).take (argsLen args) := by
    rw [writeArgs, List.flatten_cons, List.flatten_cons, List.flatten_nil, List.append_nil]
  rw [hflatten, writeArgs]
  conv_lhs => rw [hfour]
  exact readSome_eq_front hne

/-- The two reads get everything, whatever has been written. -/
theorem cBytes_eq_take_iff (hmax : argsLen args < argMax) (hnul : 0 ∉ joinArgs args)
    (hne : (joinArgs args).take (argsLen args) ≠ []) (hpipe : NonemptyChunks pipe)
    (hdata : pipe.flatten = (writeArgs args).flatten)
    (hlen : (readSome 4 pipe).getD ([], []) = (bytes, rest)) (hfour : ¬ bytes.length < 4)
    (htext : (readSome (leNat bytes) rest).getD ([], []) = (text, rest')) :
    cBytes text = (joinArgs args).take (argsLen args) ↔
      pipe = writeArgs args ∨ pipe = [(writeArgs args).flatten] := by
  obtain ⟨rfl, hrest⟩ := eq_leBytes_of_four hdata hlen hfour
  obtain ⟨hsecond, -⟩ := readSome_getD htext
  rw [leNat_argsLen hmax] at htext
  have hmem : 0 ∉ text := by
    intro h
    have htake : 0 ∈ (joinArgs args).take (argsLen args) := by
      rw [← hrest, ← hsecond]
      exact List.mem_append_left _ h
    exact hnul (List.mem_of_mem_take htake)
  rw [cBytes_of_not_mem hmem, ← readSome_writeArgs_iff hne]
  constructor
  · intro heq
    have hbytes : leBytes 4 (argsLen args) ≠ [] := List.cons_ne_nil _ _
    have hend : rest' = [] := by
      refine ((hpipe.of_readSome hlen).of_readSome htext).eq_nil ?_
      rw [hrest, ← heq] at hsecond
      exact List.append_cancel_left (hsecond.trans (List.append_nil text).symm)
    subst hend
    rw [← heq] at hne ⊢
    obtain ⟨rfl, -⟩ := readSome_eq_last.1 (readSome_eq_of_getD htext hne)
    exact readSome_eq_of_getD hlen hbytes
  · intro hread
    rw [hread] at hlen
    obtain ⟨-, rfl⟩ := Prod.mk.inj hlen
    obtain ⟨rfl, -⟩ := Prod.mk.inj htext
    exact List.take_of_length_le (List.length_take_le _ _)

end

/-- **The hypervisor's arguments.** The child runs what the parent computed exactly if there is no
text, or the text is ASCII and each of the two writes arrives in one piece, or both together. -/
theorem childExec_iff (env : ChildEnv) (args : List (List UInt8)) (chars : List Char)
    (pipe : List (List UInt8)) (hproxy : env.proxyDisconnected = true)
    (hsetup : env.childSetUp = true) (hnul : 0 ∉ joinArgs args)
    (hutf8 : joinArgs args = utf8 chars) (hmax : (joinArgs args).length < argMax)
    (hpipe : NonemptyChunks pipe) (hdata : pipe.flatten = (writeArgs args).flatten) :
    childExec env pipe = some (splitArgs (joinArgs args)) ↔
      joinArgs args = [] ∨
      (∀ c ∈ chars, c.toNat < 128) ∧
        (pipe = writeArgs args ∨ pipe = [(writeArgs args).flatten]) := by
  have hle := argsLen_le hutf8
  obtain ⟨⟨bytes, rest⟩, hlen⟩ : ∃ r, (readSome 4 pipe).getD ([], []) = r := ⟨_, rfl⟩
  have hbytes := leNat_le_argsLen hdata hlen
  obtain ⟨⟨text, rest'⟩, htext⟩ : ∃ r, (readSome (leNat bytes) rest).getD ([], []) = r := ⟨_, rfl⟩
  rw [childExec_of_reads hproxy hsetup hlen (by omega) htext, Option.some.injEq, splitArgs_inj]
  by_cases hne : joinArgs args = []
  · -- no byte is asked for
    have hzero : text.length ≤ 0 := by
      have hnone : (joinArgs args).length = 0 := by rw [hne, List.length_nil]
      exact Nat.le_trans (readSome_getD htext).2 (by omega)
    rw [List.eq_nil_of_length_eq_zero (Nat.le_zero.1 hzero), hne]
    exact iff_of_true rfl (.inl rfl)
  · rw [or_iff_right hne]
    have hchars := argsLen_eq hutf8
    have hascii : (joinArgs args).length ≤ argsLen args ↔ ∀ c ∈ chars, c.toNat < 128 := by
      rw [hchars, hutf8, length_utf8_le_iff]
    have htake : (joinArgs args).take (argsLen args) ≠ [] := by
      rw [Ne, List.take_eq_nil_iff, not_or]
      refine ⟨fun hzero => hne ?_, hne⟩
      rw [hutf8, List.eq_nil_of_length_eq_zero (hchars.symm.trans hzero), utf8_nil]
    rw [← hascii]
    by_cases hshort : bytes.length < 4
    · -- the length has not arrived in one piece
      refine iff_of_false
        (cBytes_ne_of_short (by omega) hne hle hpipe hdata hlen hshort htext) ?_
      rintro ⟨-, hwhole⟩
      rw [(readSome_writeArgs_iff htake).2 hwhole] at hlen
      obtain ⟨rfl, -⟩ := Prod.mk.inj hlen
      rw [length_leBytes] at hshort
      omega
    · by_cases hfits : (joinArgs args).length ≤ argsLen args
      · have hwhole := cBytes_eq_take_iff (by omega) hnul htake hpipe hdata hlen hshort htext
        rw [List.take_of_length_le hfits] at hwhole
        rw [hwhole, and_iff_right hfits]
      · -- the parent has cut the text
        refine iff_of_false (fun heq => hfits ?_) fun h => hfits h.1
        calc (joinArgs args).length ≤ text.length := heq ▸ length_cBytes_le text
          _ ≤ argsLen args := Nat.le_trans (readSome_getD htext).2 hbytes

/-- Two arguments. -/
theorem childExec_qemu :
    let chars := "qemu\n-S".toList
    let args := splitArgs (utf8 chars)
    childExec {} [(writeArgs args).flatten] = some (splitArgs (joinArgs args)) :=
  (childExec_iff {} (splitArgs (utf8 "qemu\n-S".toList)) "qemu\n-S".toList _ rfl rfl
    (by decide +kernel) (joinArgs_splitArgs _) (by decide +kernel) (by decide +kernel)
    (by decide +kernel)).2 (.inr ⟨length_utf8_le_iff.1 (by decide +kernel), .inr rfl⟩)

/-- A name that is not ASCII loses its last byte, and a text that arrives in two pieces is cut after
the first. -/
theorem childExec_cut :
    let name := splitArgs (utf8 "qemu\n-name\né".toList)
    let args := splitArgs (utf8 "qemu\n-S".toList)
    let pieces := [leBytes 4 7, utf8 "qemu\n".toList, utf8 "-S".toList]
    childExec {} (writeArgs name) =
        some [utf8 "qemu".toList, utf8 "-name".toList, [0xC3]] ∧
      childExec {} (writeArgs name) ≠ some (splitArgs (joinArgs name)) ∧
      NonemptyChunks pieces ∧ pieces.flatten = (writeArgs args).flatten ∧
      childExec {} pieces = some [utf8 "qemu".toList, []] ∧
      childExec {} pieces ≠ some (splitArgs (joinArgs args)) := by
  decide +kernel

end Runtime

end CcOciRuntime
