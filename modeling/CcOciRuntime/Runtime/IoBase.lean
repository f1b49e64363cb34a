import CcOciRuntime.Proxy.ClientApi
import CcOciRuntime.Runtime.Launch
import CcOciRuntime.Runtime.ProxyCommand
import CcOciRuntime.Shim.Options

/-!
# The number of a stream in four programs

The proxy numbers the streams of a container with 64 bits and sends the first number of an
allocation as a decimal text. The Go client reads the text as a `float64`. The runtime reads it as a
signed number of 64 bits, cuts it to 32 bits and prints it on the command line of the shim, which
reads it as signed again and takes it as unsigned. `ioBase_agrees_iff` says for which numbers they
all mean the same.

Reference: `AllocateIo` (`proxy/api/client.go:175`), `cc_proxy_cmd_allocate_io` (`src/proxy.c:856`),
`cc_shim_launch` (`src/process.c:605`), `main` (`shim/shim.c:547`).
-/

namespace CcOciRuntime

namespace Runtime

open Proxy (Response ApiCall marshalResponse unmarshalResponse float64OfNat)
open Shim (CcShim shimOptions)

/-! ## The answer of the proxy -/

/-- The answer to an allocation. Reference: `proxy/proxy.go:232-238`. -/
def allocation (ioBase : UInt64) : Response :=
  { success := true, error := "", data := [("ioBase", .int ioBase.toNat)] }

/-- The text of that answer. -/
def allocationText (ioBase : UInt64) : String :=
  .ofList (Json.print (.obj (allocation ioBase).members))

theorem marshalResponse_allocation (ioBase : UInt64) :
    marshalResponse (allocation ioBase) = some (allocationText ioBase) := rfl

/-! ## The runtime -/

/-- What is used of json-glib for an allocation: a value as a signed integer, too. It reads the
answer of the proxy with the members that were written, a boolean as it is, and an integer as it is
if it fits; nothing is said about an integer that does not fit 64 bits with a sign. -/
structure JsonGlibInt extends JsonGlib where
  intValue : Json → Int64
  booleanValue_bool : ∀ b, booleanValue (.bool b) = b
  reads : ∀ n : UInt64, ∃ v, parse (utf8 (allocationText n).toList) =
      some (.obj [("success", .bool true), ("data", .obj [("ioBase", v)])]) ∧
    (n.toNat < 2 ^ 63 → (intValue v).toInt = n.toNat)

/-- The number in the response to an allocation, if the command succeeds. Reference:
`cc_proxy_cmd_allocate_io` (`src/proxy.c:856`). -/
def proxyCmdAllocateIo (glib : JsonGlibInt) (response : List UInt8) : Option Int32 :=
  if proxyHyperCheckResponse glib.toJsonGlib response = some true then
    ((glib.parse response).bind fun doc => (doc.member "data").bind (Json.member "ioBase")).map
      fun v => (glib.intValue v).toInt32
  else none

/-- The arguments of the shim. Reference: `src/process.c:762-782`. -/
def shimArgs (containerId : String) (terminal : Bool)
    (proxySocketFd proxyIoFd proxyIoBase : Int32) : List String :=
  ["-c", containerId, "-p", toString proxySocketFd.toInt, "-o", toString proxyIoFd.toInt,
    "-s", toString proxyIoBase.toInt] ++
    if terminal then [] else ["-e", toString (proxyIoBase + 1).toInt]

/-- The runtime reads the number, cut to 32 bits. -/
theorem proxyCmdAllocateIo_allocation (glib : JsonGlibInt) (n : UInt64) :
    ∃ v : Int64, proxyCmdAllocateIo glib (utf8 (allocationText n).toList) = some v.toInt32 ∧
      (n.toNat < 2 ^ 63 → v.toInt = n.toNat) := by
  obtain ⟨v, hparse, hv⟩ := glib.reads n
  have hcheck : proxyHyperCheckResponse glib.toJsonGlib (utf8 (allocationText n).toList) =
      some true := by
    rw [proxyHyperCheckResponse, hparse]
    exact congrArg some (glib.booleanValue_bool true)
  refine ⟨glib.intValue v, ?_, hv⟩
  rw [proxyCmdAllocateIo, if_pos hcheck, hparse]
  rfl

/-! ## The shim -/

/-- The options that the shim is given. -/
theorem getopt_shimArgs (containerId : String) (terminal : Bool)
    (proxySocketFd proxyIoFd proxyIoBase : Int32) :
    Shim.getopt (shimArgs containerId terminal proxySocketFd proxyIoFd proxyIoBase) =
      [.containerId containerId, .proxySockFd (toString proxySocketFd.toInt),
        .proxyIoFd (toString proxyIoFd.toInt), .seqNo (toString proxyIoBase.toInt)] ++
        if terminal then [] else [.errSeqNo (toString (proxyIoBase + 1).toInt)] := by
  cases terminal <;> rfl

/-- What the shim gets, if it starts, is what the runtime has printed. -/
theorem ioSeqNo_of_shimArgs {containerId : String} {terminal : Bool}
    {proxySocketFd proxyIoFd proxyIoBase : Int32} {shim : CcShim}
    (h : shimOptions (shimArgs containerId terminal proxySocketFd proxyIoFd proxyIoBase) =
      .ok shim) :
    shim.ioSeqNo = proxyIoBase.toInt64.toUInt64 := by
  obtain ⟨hset, -⟩ := Shim.shimOptions_eq_ok_iff.1 h
  rw [getopt_shimArgs] at hset
  obtain ⟨_, -, hset⟩ := foldlM_cons_eq_ok_iff.1 hset
  obtain ⟨_, -, hset⟩ := foldlM_cons_eq_ok_iff.1 hset
  obtain ⟨_, -, hset⟩ := foldlM_cons_eq_ok_iff.1 hset
  obtain ⟨s, hseq, hset⟩ := foldlM_cons_eq_ok_iff.1 hset
  have hs : s.ioSeqNo = proxyIoBase.toInt64.toUInt64 :=
    Shim.eq_of_parseSeqNo_toString (CcShim.set_seqNo hseq)
  cases terminal with
  | true =>
    cases hset
    exact hs
  | false =>
    obtain ⟨_, herr, hset⟩ := foldlM_cons_eq_ok_iff.1 hset
    cases hset
    exact (CcShim.set_errSeqNo herr).trans hs

theorem toUInt64_of_toInt_eq {x : Int64} {n : UInt64} (h : x.toInt = n.toNat) :
    x.toUInt64 = n := by
  have hlt := x.toInt_lt
  apply UInt64.toBitVec_inj.1
  apply BitVec.eq_of_toInt_eq
  have hx : x.toUInt64.toBitVec.toInt = x.toInt := rfl
  have hn : n.toBitVec.toNat = n.toNat := rfl
  rw [hx, h, BitVec.toInt_eq_toNat_of_lt (by omega), hn]

/-- The shim starts with the number of a stream and descriptors that are open. -/
theorem shimOptions_shimArgs {proxySocketFd proxyIoFd proxyIoBase : Int32}
    (hsocket : 0 ≤ proxySocketFd) (hio : 0 ≤ proxyIoFd) (hbase : 0 < proxyIoBase)
    (containerId : String) (terminal : Bool) :
    ∃ shim, shimOptions (shimArgs containerId terminal proxySocketFd proxyIoFd proxyIoBase) =
      .ok shim := by
  have hfd : ∀ {fd : Int32}, 0 ≤ fd → fd ≠ -1 := by
    rintro fd hfd rfl
    exact absurd hfd (by decide)
  have hne : proxyIoBase ≠ -1 := hfd (Int32.le_of_lt hbase)
  have herr : proxyIoBase + 1 ≠ -1 := by
    intro heq
    obtain rfl : proxyIoBase = -2 := by grind
    exact absurd hbase (by decide)
  have hzero : proxyIoBase.toInt64.toUInt64 ≠ 0 := by
    intro heq
    have hpos := Int32.lt_iff_toInt_lt.1 hbase
    have hint : proxyIoBase.toInt64 = 0 :=
      Int64.toBitVec_inj.1 (congrArg UInt64.toBitVec heq)
    rw [← Int32.toInt_toInt64 proxyIoBase, hint] at hpos
    exact absurd hpos (by decide)
  let shim : CcShim :=
    { containerId := some containerId, proxySockFd := proxySocketFd, proxyIoFd
      ioSeqNo := proxyIoBase.toInt64.toUInt64
      errSeqNo := if terminal then 0 else (proxyIoBase + 1).toInt64.toUInt64 }
  have hcheck : shim.check = .ok shim :=
    CcShim.check_eq_ok_iff.2 ⟨rfl, Option.some_ne_none _, hfd hsocket, hfd hio, hzero⟩
  refine ⟨shim, Shim.shimOptions_eq_ok_iff.2 ⟨?_, hcheck⟩⟩
  have hsetSock := Shim.parseFd_toString hsocket "Invalid value for proxy socket fd\n"
  have hsetIo := Shim.parseFd_toString hio "Invalid value for proxy IO fd\n"
  have hsetSeq := Shim.parseSeqNo_toString hne "Invalid value for I/O seqence no\n"
  have hsetErr := Shim.parseSeqNo_toString herr "Invalid value for error sequence no\n"
  rw [getopt_shimArgs]
  refine foldlM_cons_eq_ok_iff.2 ⟨_, rfl, ?_⟩
  refine foldlM_cons_eq_ok_iff.2 ⟨_, map_eq_ok_iff.2 ⟨_, hsetSock, rfl⟩, ?_⟩
  refine foldlM_cons_eq_ok_iff.2 ⟨_, map_eq_ok_iff.2 ⟨_, hsetIo, rfl⟩, ?_⟩
  refine foldlM_cons_eq_ok_iff.2 ⟨_, map_eq_ok_iff.2 ⟨_, hsetSeq, rfl⟩, ?_⟩
  cases terminal with
  | true => rfl
  | false => exact foldlM_cons_eq_ok_iff.2 ⟨_, map_eq_ok_iff.2 ⟨_, hsetErr, rfl⟩, rfl⟩

/-! ## Agreement -/

/-- Each program takes the answer with the number `n` to mean `n`, or reports an error: the call of
the Go client, the runtime with the number that it stores and the one that it passes on, and the
shim. -/
structure IoBaseAgrees (glib : JsonGlibInt) (config : Config) (containerId : String)
    (proxySocketFd proxyIoFd : Int32) (n : UInt64) : Prop where
  client : ∀ resp nStreams file v f,
    unmarshalResponse (utf8 (allocationText n).toList) = .ok resp →
    (ApiCall.allocateIo nStreams).result (.got resp file) = some (.ok (.allocated v f)) → v = n
  stored : ∀ base, proxyCmdAllocateIo glib (utf8 (allocationText n).toList) = some base →
    (config.withStreams base).oci.process.stdioStream.toInt = n.toNat
  passed : ∀ base, proxyCmdAllocateIo glib (utf8 (allocationText n).toList) = some base →
    .seqNo (toString n.toNat) ∈ Shim.getopt
      (shimArgs containerId config.oci.process.terminal proxySocketFd proxyIoFd base)
  shim : ∀ base shim, proxyCmdAllocateIo glib (utf8 (allocationText n).toList) = some base →
    shimOptions (shimArgs containerId config.oci.process.terminal proxySocketFd proxyIoFd base) =
      .ok shim → shim.ioSeqNo = n

theorem unmarshalResponse_allocationText (n : UInt64) :
    unmarshalResponse (utf8 (allocationText n).toList) = .ok (allocation n).sorted :=
  Proxy.unmarshalResponse_marshalResponse (marshalResponse_allocation n)

/-- What the Go client returns. -/
theorem result_allocation (nStreams : Int64) (n : UInt64) (file : Option Proxy.Fd) :
    (ApiCall.allocateIo nStreams).result (.got (allocation n).sorted file) =
      some (.ok (.allocated (UInt64.ofNat (float64OfNat n.toNat)) file)) := rfl

theorem float64OfNat_of_lt {n : Nat} (h : n < 2 ^ 53) : float64OfNat n = n := if_pos h

/-- Below `2 ^ 31` the runtime gets the number. -/
theorem proxyCmdAllocateIo_of_lt (glib : JsonGlibInt) {n : UInt64} (hn : n.toNat < 2 ^ 31) :
    ∃ base, proxyCmdAllocateIo glib (utf8 (allocationText n).toList) = some base ∧
      base.toInt = n.toNat := by
  obtain ⟨v, hbase, hv⟩ := proxyCmdAllocateIo_allocation glib n
  refine ⟨v.toInt32, hbase, ?_⟩
  rw [Int64.toInt_toInt32, hv (by omega)]
  exact Int.bmod_eq_of_le (by omega) (by omega)

/-- **The number of a stream means the same to every program** exactly when it fits 31 bits. -/
theorem ioBase_agrees_iff (glib : JsonGlibInt) (config : Config) (containerId : String)
    (proxySocketFd proxyIoFd : Int32) (n : UInt64) :
    IoBaseAgrees glib config containerId proxySocketFd proxyIoFd n ↔ n.toNat < 2 ^ 31 := by
  constructor
  · intro h
    obtain ⟨v, hbase, -⟩ := proxyCmdAllocateIo_allocation glib n
    have hstored : v.toInt32.toInt = n.toNat := h.stored _ hbase
    have hlt := v.toInt32.toInt_lt
    omega
  · intro hn
    obtain ⟨base, hbase, hint⟩ := proxyCmdAllocateIo_of_lt glib hn
    have hunique : ∀ {b}, proxyCmdAllocateIo glib (utf8 (allocationText n).toList) = some b →
        b = base := fun h => Option.some.inj (h.symm.trans hbase)
    refine ⟨?_, ?_, ?_, ?_⟩
    · intro resp nStreams file v f hresp hresult
      rw [unmarshalResponse_allocationText] at hresp
      obtain rfl := Except.ok.inj hresp
      rw [result_allocation, float64OfNat_of_lt (by omega), UInt64.ofNat_toNat] at hresult
      cases hresult
      rfl
    · intro b hb
      obtain rfl := hunique hb
      exact hint
    · intro b hb
      obtain rfl := hunique hb
      have htext : toString (n.toNat : Int) = toString n.toNat := rfl
      rw [getopt_shimArgs, hint, htext]
      simp
    · intro b shim hb hshim
      obtain rfl := hunique hb
      rw [ioSeqNo_of_shimArgs hshim]
      exact toUInt64_of_toInt_eq ((Int32.toInt_toInt64 b).trans hint)

/-- A number that fits is delivered: the agreement is not one of errors. -/
theorem ioBase_delivered (glib : JsonGlibInt) (config : Config) (containerId : String)
    {proxySocketFd proxyIoFd : Int32} {n : UInt64} (hsocket : 0 ≤ proxySocketFd)
    (hio : 0 ≤ proxyIoFd) (hpos : 0 < n.toNat) (hn : n.toNat < 2 ^ 31) :
    ∃ base shim, proxyCmdAllocateIo glib (utf8 (allocationText n).toList) = some base ∧
      shimOptions (shimArgs containerId config.oci.process.terminal proxySocketFd proxyIoFd base) =
        .ok shim ∧ shim.ioSeqNo = n := by
  obtain ⟨base, hbase, hint⟩ := proxyCmdAllocateIo_of_lt glib hn
  have hbpos : 0 < base := by
    rw [Int32.lt_iff_toInt_lt, hint]
    change (0 : Int) < n.toNat
    omega
  obtain ⟨shim, hshim⟩ :=
    shimOptions_shimArgs hsocket hio hbpos containerId config.oci.process.terminal
  refine ⟨base, shim, hbase, hshim, ?_⟩
  rw [ioSeqNo_of_shimArgs hshim]
  exact toUInt64_of_toInt_eq ((Int32.toInt_toInt64 base).trans hint)

/-- An integer is cut to 64 bits. -/
def intValueText : Json → Int64
  | .int n => Int64.ofInt n
  | _ => 0

theorem parseText_reads (n : UInt64) : ∃ v, parseText (utf8 (allocationText n).toList) =
      some (.obj [("success", .bool true), ("data", .obj [("ioBase", v)])]) ∧
    (n.toNat < 2 ^ 63 → (intValueText v).toInt = n.toNat) := by
  refine ⟨.int n.toNat, parseText_marshalResponse (marshalResponse_allocation n), fun hn => ?_⟩
  exact Int64.toInt_ofInt_of_le (by omega) (by omega)

/-- A reader of whole documents. -/
def wholeText : JsonGlibInt where
  parse := parseText
  booleanValue
    | .bool b => b
    | _ => false
  beginsText h _ := beginsText_of_parseText h
  intValue := intValueText
  booleanValue_bool _ := rfl
  reads := parseText_reads

/-- The first number that does not fit: the runtime stores it as a negative number and prints it so,
and the shim starts with a number near the end of the range. Above 53 bits the Go client returns a
neighbour, without an error. -/
theorem ioBase_disagrees :
    proxyCmdAllocateIo wholeText (utf8 (allocationText 2147483648).toList) = some (-2147483648) ∧
      (configCreate.withStreams (-2147483648)).oci.process.stdioStream = -2147483648 ∧
      shimOptions (shimArgs "c1" true 3 4 (-2147483648)) =
        .ok { containerId := some "c1", proxySockFd := 3, proxyIoFd := 4
              ioSeqNo := 18446744071562067968 } ∧
      (ApiCall.allocateIo 1).result (.got (allocation 9007199254740993).sorted none) =
        some (.ok (.allocated 9007199254740992 none)) ∧
      ¬ IoBaseAgrees wholeText configCreate "c1" 3 4 2147483648 := by
  have hbase : proxyCmdAllocateIo wholeText (utf8 (allocationText 2147483648).toList) =
      some (-2147483648) := by decide +kernel
  refine ⟨hbase, rfl, by decide +kernel, by decide +kernel, fun h => ?_⟩
  exact absurd (h.stored _ hbase) (by decide)

end Runtime

end CcOciRuntime
