import CcOciRuntime.Lib.Decimal
import CcOciRuntime.Lib.Stages

/-!
# The shim's command line

The shim takes the numbers that it works with from its options. Each is a decimal text that is read
with `strtoll`: descriptors are cut to 32 bits, sequence numbers are taken as unsigned. The value
`-1` stands for an error of the reader, and the sequence number `0` for a missing option.

Reference: `main` (`shim/shim.c:547`), `parse_numeric_option` (`shim/shim.c:515`).
-/

namespace CcOciRuntime

namespace Shim

/-- How the shim ends before it does anything. -/
inductive ShimExit
  /-- `err_exit` with its message -/
  | error (msg : String)
  /-- the usage, with an exit status -/
  | usage (status : Nat)
  deriving DecidableEq

/-- Reference: `struct cc_shim` (`shim/shim.h:23`). -/
structure CcShim where
  containerId : Option String := none
  proxySockFd : Int32 := -1
  proxyIoFd : Int32 := -1
  ioSeqNo : UInt64 := 0
  errSeqNo : UInt64 := 0
  debug : Bool := false
  deriving DecidableEq

/-- An option that `getopt_long` returns. -/
inductive ShimOption
  | containerId (arg : String)
  | proxySockFd (arg : String)
  | proxyIoFd (arg : String)
  | seqNo (arg : String)
  | errSeqNo (arg : String)
  | debug
  | help
  | unknown
  deriving DecidableEq

/-- The options with an argument. Reference: `prog_opts` (`shim/shim.c:565`). -/
def optionWithArgument (opt arg : String) : Option ShimOption :=
  if opt = "-c" ∨ opt = "--container-id" then some (.containerId arg)
  else if opt = "-p" ∨ opt = "--proxy-sock-fd" then some (.proxySockFd arg)
  else if opt = "-o" ∨ opt = "--proxy-io-fd" then some (.proxyIoFd arg)
  else if opt = "-s" ∨ opt = "--seq-no" then some (.seqNo arg)
  else if opt = "-e" ∨ opt = "--err-seq-no" then some (.errSeqNo arg)
  else none

/-- The options without an argument. -/
def optionAlone (opt : String) : Option ShimOption :=
  if opt = "-d" ∨ opt = "--debug" then some .debug
  else if opt = "-h" ∨ opt = "--help" then some .help
  else none

/-- The options of a command line in which each stands apart from its argument. Reference:
`getopt_long`, as it is called in `shim/shim.c:576`. -/
def getopt : List String → List ShimOption
  | [] => []
  | [opt] => [(optionAlone opt).getD .unknown]
  | opt :: arg :: rest =>
    match optionWithArgument opt arg, optionAlone opt with
    | some o, _ => o :: getopt rest
    | none, some o => o :: getopt (arg :: rest)
    | none, none => [.unknown]

/-- The number of a text that is one; `-1` for one that does not fit 64 bits and for other texts.
The empty text is zero. Reference: `parse_numeric_option` (`shim/shim.c:515`). -/
def parseNumericOption (input : String) : Int :=
  match readInt input.toList with
  | some (n, []) => if clamp64 n = n then n else -1
  | some (_, _ :: _) => -1
  | none => if input = "" then 0 else -1

/-- A descriptor is cut to 32 bits before it is checked. -/
def parseFd (arg msg : String) : Except ShimExit Int32 :=
  let fd := Int32.ofInt (parseNumericOption arg)
  if fd < 0 then .error (.error msg) else .ok fd

def parseSeqNo (arg msg : String) : Except ShimExit UInt64 :=
  let val := parseNumericOption arg
  if val = -1 then .error (.error msg) else .ok (Int64.ofInt val).toUInt64

/-- One option. Reference: `shim/shim.c:577-617`. -/
def CcShim.set (shim : CcShim) : ShimOption → Except ShimExit CcShim
  | .containerId arg => .ok { shim with containerId := some arg }
  | .proxySockFd arg =>
    (parseFd arg "Invalid value for proxy socket fd\n").map fun fd =>
      { shim with proxySockFd := fd }
  | .proxyIoFd arg =>
    (parseFd arg "Invalid value for proxy IO fd\n").map fun fd => { shim with proxyIoFd := fd }
  | .seqNo arg =>
    (parseSeqNo arg "Invalid value for I/O seqence no\n").map fun no => { shim with ioSeqNo := no }
  | .errSeqNo arg =>
    (parseSeqNo arg "Invalid value for error sequence no\n").map fun no =>
      { shim with errSeqNo := no }
  | .debug => .ok { shim with debug := true }
  | .help => .error (.usage 0)
  | .unknown => .error (.usage 1)

/-- What must have been given. Reference: `shim/shim.c:619-633`. -/
def CcShim.check (shim : CcShim) : Except ShimExit CcShim :=
  if shim.containerId.isNone then .error (.error "Missing container id\n")
  else if shim.proxySockFd = -1 then .error (.error "Missing proxy socket file descriptor\n")
  else if shim.proxyIoFd = -1 then .error (.error "Missing proxy I/O file descriptor\n")
  else if shim.ioSeqNo = 0 then .error (.error "Missing I/O sequence number\n")
  else .ok shim

/-- The options of the shim with the arguments `args`. Reference: `main` (`shim/shim.c:547`). -/
def shimOptions (args : List String) : Except ShimExit CcShim :=
  ((getopt args).foldlM CcShim.set {}).bind CcShim.check

/-! ## Numbers that were printed -/

theorem parseNumericOption_toString {n : Int} (hlo : -2 ^ 63 ≤ n) (hhi : n < 2 ^ 63) :
    parseNumericOption (toString n) = n := by
  rw [parseNumericOption, readInt_toString]
  dsimp only
  rw [if_pos (clamp64_eq hlo hhi)]

theorem parseNumericOption_int32 (n : Int32) :
    parseNumericOption (toString n.toInt) = n.toInt := by
  have hlo := n.le_toInt
  have hhi := n.toInt_lt
  exact parseNumericOption_toString (by omega) (by omega)

/-- A printed descriptor is read back. -/
theorem parseFd_toString {fd : Int32} (h : 0 ≤ fd) (msg : String) :
    parseFd (toString fd.toInt) msg = .ok fd := by
  rw [parseFd, parseNumericOption_int32, Int32.ofInt_toInt]
  exact if_neg (Int32.not_lt.2 h)

/-- A printed sequence number is read back, unless it is the value of an error. -/
theorem parseSeqNo_toString {no : Int32} (h : no ≠ -1) (msg : String) :
    parseSeqNo (toString no.toInt) msg = .ok no.toInt64.toUInt64 := by
  have hne : ¬ no.toInt = -1 := fun heq => h (Int32.toInt_inj.1 heq)
  rw [parseSeqNo, parseNumericOption_int32, if_neg hne]
  rfl

theorem eq_of_parseSeqNo_toString {no : Int32} {msg : String} {val : UInt64}
    (h : parseSeqNo (toString no.toInt) msg = .ok val) : val = no.toInt64.toUInt64 := by
  by_cases hne : no = -1
  · subst hne
    rw [parseSeqNo, parseNumericOption_int32, if_pos (by decide)] at h
    cases h
  · rw [parseSeqNo_toString hne] at h
    exact (Except.ok.inj h).symm

/-! ## The run over the options -/

theorem CcShim.set_seqNo {shim shim' : CcShim} {arg : String}
    (h : shim.set (.seqNo arg) = .ok shim') :
    parseSeqNo arg "Invalid value for I/O seqence no\n" = .ok shim'.ioSeqNo := by
  obtain ⟨val, hval, rfl⟩ := map_eq_ok_iff.1 h
  exact hval

theorem CcShim.set_errSeqNo {shim shim' : CcShim} {arg : String}
    (h : shim.set (.errSeqNo arg) = .ok shim') : shim'.ioSeqNo = shim.ioSeqNo := by
  obtain ⟨val, -, rfl⟩ := map_eq_ok_iff.1 h
  rfl

/-- What the shim needs to be given. -/
theorem CcShim.check_eq_ok_iff {shim shim' : CcShim} :
    shim.check = .ok shim' ↔ shim' = shim ∧ shim.containerId ≠ none ∧ shim.proxySockFd ≠ -1 ∧
      shim.proxyIoFd ≠ -1 ∧ shim.ioSeqNo ≠ 0 := by
  rw [CcShim.check]
  split_ifs with hid hsock hio hseq
  · exact iff_of_false (by simp) fun h => h.2.1 (Option.isNone_iff_eq_none.1 hid)
  · exact iff_of_false (by simp) fun h => h.2.2.1 hsock
  · exact iff_of_false (by simp) fun h => h.2.2.2.1 hio
  · exact iff_of_false (by simp) fun h => h.2.2.2.2 hseq
  · have hid' : shim.containerId ≠ none := fun h => hid (Option.isNone_iff_eq_none.2 h)
    exact ⟨fun h => ⟨(Except.ok.inj h).symm, hid', hsock, hio, hseq⟩, fun h => congrArg _ h.1.symm⟩

/-- When the options are accepted. -/
theorem shimOptions_eq_ok_iff {args : List String} {shim : CcShim} :
    shimOptions args = .ok shim ↔
      (getopt args).foldlM CcShim.set {} = .ok shim ∧ shim.check = .ok shim := by
  rw [shimOptions, bind_eq_ok_iff]
  constructor
  · rintro ⟨s, hset, hcheck⟩
    obtain rfl := (CcShim.check_eq_ok_iff.1 hcheck).1
    exact ⟨hset, hcheck⟩
  · rintro ⟨hset, hcheck⟩
    exact ⟨shim, hset, hcheck⟩

end Shim

end CcOciRuntime
