import CcOciRuntime.Lib.Bytes
import CcOciRuntime.Lib.Utf8

/-!
# The encoders of a proxy request

A request travels as a frame: the byte length of its JSON text as a four-byte big-endian number,
four bytes that are not used, and the text. Three programs write such frames, the runtime and the
shim in C and the Go API. A C function measures a text up to its first zero byte; the runtime
measures it in characters and then writes that many bytes.

Reference: `proxy/README.md:26-43`.
-/

namespace CcOciRuntime

namespace Wire

/-- The frame of a text, as the protocol describes it. -/
def frame (text : String) : List UInt8 :=
  beBytes 4 (utf8 text.toList).length ++ List.replicate 4 0 ++ utf8 text.toList

/-- What the runtime writes on the proxy's socket. The length is that of `g_utf8_strlen`, in the
header and for the text. Reference: `cc_proxy_msg_write` (`src/proxy.c:372`). -/
def proxyMsgWrite (text : String) : List UInt8 :=
  let len := (cString text.toList).length
  -- `struct proxy_msg` is zeroed, and its member `reserved` is not set
  beBytes 4 len ++ List.replicate 4 0 ++ (utf8 text.toList).take len

/-- What the shim writes. The length is that of `strlen`. Reference: `get_proxy_ctl_msg`
(`shim/shim.c:168`). -/
def getProxyCtlMsg (json : String) : List UInt8 :=
  let jsonLen := (utf8 (cString json.toList)).length
  beBytes 4 jsonLen ++ List.replicate 4 0 ++ (utf8 json.toList).take jsonLen

/-- What the Go API writes for the encoded message `data`. Reference: `WriteMessage`
(`proxy/api/protocol.go:94`). -/
def writeMessage (data : String) : List UInt8 :=
  let bytes := utf8 data.toList
  let buf := beBytes 4 bytes.length ++ List.replicate 4 0
  buf ++ bytes

/-- The Go API writes the frame of every text. -/
theorem writeMessage_eq_frame (text : String) : writeMessage text = frame text := rfl

/-- The shim does so for every text without a zero character. -/
theorem getProxyCtlMsg_eq_frame {text : String} (h : nul ∉ text.toList) :
    getProxyCtlMsg text = frame text := by
  rw [getProxyCtlMsg, cString_eq_self_iff.2 h, List.take_length, frame]

/-- The runtime does so exactly for texts of non-zero ASCII characters: the length that it counts
is never above the number of bytes, and it is that number for no other text. -/
theorem proxyMsgWrite_eq_frame_iff {text : String} :
    proxyMsgWrite text = frame text ↔ nul ∉ text.toList ∧ ∀ c ∈ text.toList, c.toNat < 128 := by
  constructor
  · intro h
    have hlen := congrArg List.length h
    simp only [proxyMsgWrite, frame, List.length_append, length_beBytes, List.length_replicate,
      List.length_take] at hlen
    have hbytes : (utf8 text.toList).length ≤ (cString text.toList).length := by omega
    have hchars := (cString_isPrefix text.toList).length_le
    have hle := length_le_length_utf8 text.toList
    have hwhole : cString text.toList = text.toList :=
      (cString_isPrefix text.toList).eq_of_length (by omega)
    exact ⟨cString_eq_self_iff.1 hwhole, length_utf8_le_iff.1 (by omega)⟩
  · rintro ⟨hnul, hascii⟩
    have hlen : text.toList.length = (utf8 text.toList).length :=
      (length_le_length_utf8 _).antisymm (length_utf8_le_iff.2 hascii)
    rw [proxyMsgWrite, cString_eq_self_iff.2 hnul, hlen, List.take_length, frame]

end Wire

end CcOciRuntime
