import CcOciRuntime.Lib.Bytes
import CcOciRuntime.Lib.Chunks

/-!
# The hyperstart channels

The agent in a VM is reached over two sockets. On the I/O channel the bytes are a sequence of
frames, each with a header of an 8-byte session number and a 4-byte length; on the control channel
a command is written and an answer with a code is awaited. A connection that is read is a list of
chunks, one per `Read` that returns data: a `Read` gets at most what it asks for and the rest of
the chunk stays, and the end of the list is the error that ends every reading loop.

`readIoMessageWithConn_append` is the framing theorem: whatever the chunks are, the reader takes
exactly one frame off the front. `ioMessages_encode` lifts it to whole streams: the messages read
from a stream of frames are the messages written to it.

Reference: `vendor/github.com/containers/virtcontainers/hyperstart/hyperstart.go`.
-/

namespace CcOciRuntime

namespace Proxy

/-- A connection, by its identity. -/
abbrev Conn := Nat

/-- A message of the I/O channel. Reference: `hyper.TtyMessage`. -/
structure TtyMessage where
  session : UInt64
  message : List UInt8
  deriving Repr, DecidableEq

/-- Reference: `ttyHdrSize` (`hyperstart.go:82`). -/
def ttyHdrSize : Nat := 12

/-- Reference: `ttyHdrLenOffset` (`hyperstart.go:83`). -/
def ttyHdrLenOffset : Nat := 8

/-! ## Reading the I/O channel -/

/-- The message in a whole frame. -/
def decodeTty (res : List UInt8) : TtyMessage where
  session := UInt64.ofNat (beNat (res.take ttyHdrLenOffset))
  message := res.drop ttyHdrSize

/-- The loop of `ReadIoMessageWithConn`; `res` is what has been read so far, so the source's `read`
is its length. The fuel bounds the number of reads. Reference: `hyperstart.go:292-311`. -/
def readIoLoop : Nat → (needRead length : Nat) → (res : List UInt8) → List (List UInt8) →
    Option (TtyMessage × List (List UInt8))
  | 0, _, _, _, _ => none
  | fuel + 1, needRead, length, res, chunks =>
    if res.length < needRead then
      match readSome (min (needRead - res.length) 512) chunks with
      | none => none
      | some (buf, rest) =>
        let res := res ++ buf
        if length = 0 ∧ ttyHdrSize ≤ res.length then
          let length := beNat ((res.take ttyHdrSize).drop ttyHdrLenOffset)
          readIoLoop fuel (if ttyHdrSize < length then length else needRead) length res rest
        else readIoLoop fuel needRead length res rest
    else some (decodeTty res, chunks)

/-- Reading one message: the message and what is left of the connection, or nothing when the
connection ends first. Reference: `ReadIoMessageWithConn` (`hyperstart.go:286`). -/
def readIoMessageWithConn (chunks : List (List UInt8)) : Option (TtyMessage × List (List UInt8)) :=
  readIoLoop (chunkFuel chunks) ttyHdrSize 0 [] chunks

/-- The messages that successive reads return before one fails. -/
def readIoMessages : Nat → List (List UInt8) → List TtyMessage
  | 0, _ => []
  | fuel + 1, chunks =>
    match readIoMessageWithConn chunks with
    | none => []
    | some (m, rest) => m :: readIoMessages fuel rest

/-- All the messages of a connection; every message takes at least a header, so the number of bytes
bounds the number of messages. -/
def ioMessages (chunks : List (List UInt8)) : List TtyMessage :=
  readIoMessages (chunks.flatten.length + 1) chunks

/-! ## Writing the I/O channel -/

/-- The frame of a message. Reference: `hyperstart.go:333-336`. -/
def encodeTty (m : TtyMessage) : List UInt8 :=
  beBytes 8 m.session.toNat ++ beBytes 4 (m.message.length + ttyHdrSize) ++ m.message

/-- What a `Write` answers: the count and the error. -/
structure WriteResult where
  n : Nat
  err : Option String
  deriving Repr, DecidableEq

/-- Sending one message, with the answer the connection gives to the `Write` of its frame; the
result is the error. Reference: `SendIoMessageWithConn` (`hyperstart.go:325`). -/
def sendIoMessageWithConn (write : List UInt8 → WriteResult) (m : TtyMessage) : Option String :=
  let length := m.message.length + ttyHdrSize
  if 10240 < length then some ("message too long " ++ toString length)
  else
    let r := write (encodeTty m)
    match r.err with
    | some err => some err
    | none =>
      if r.n ≠ length then
        some (toString r.n ++ " bytes written out of " ++ toString length ++ " expected")
      else none

/-! ## The framing theorem -/

/-- What a reading loop that needs `needRead` bytes of `all` returns. -/
def Reads (needRead : Nat) (all : List UInt8) (r : Option (TtyMessage × List (List UInt8))) :
    Prop :=
  (all.length < needRead → r = none) ∧
  (needRead ≤ all.length →
    ∃ rest, r = some (decodeTty (all.take needRead), rest) ∧ rest.flatten = all.drop needRead)

/-- What one `Read` of the loop asks for. -/
theorem modest_read : Modest fun missing => min missing 512 := by
  intro n hn
  dsimp only
  omega

/-- Once the header has been read, the loop reads on until the frame is there. -/
theorem readIoLoop_eq_fill {needRead length : Nat} (hlen : length = 0 → needRead ≤ ttyHdrSize) :
    ∀ {fuel : Nat} {res : List UInt8} {chunks : List (List UInt8)}, ttyHdrSize ≤ res.length →
    readIoLoop fuel needRead length res chunks =
      (fill (min · 512) needRead fuel res chunks).map fun p => (decodeTty p.1, p.2) := by
  intro fuel
  induction fuel with
  | zero =>
    intro res chunks _
    rfl
  | succ fuel ih =>
    intro res chunks hhdr
    rw [readIoLoop, fill]
    by_cases hread : res.length < needRead
    · have hne : length ≠ 0 := fun h => absurd (hlen h) (by omega)
      rw [if_pos hread, if_pos hread]
      cases readSome (min (needRead - res.length) 512) chunks with
      | none => rfl
      | some p =>
        dsimp only
        rw [if_neg fun h => hne h.1]
        exact ih (by rw [List.length_append]; omega)
    · rw [if_neg hread, if_neg hread]
      rfl

/-- Once the header has been read, the loop takes the rest of the frame. -/
theorem readIoLoop_body {needRead length : Nat} {fuel : Nat} {res : List UInt8}
    {chunks : List (List UInt8)} (hfuel : chunkFuel chunks ≤ fuel) (hle : res.length ≤ needRead)
    (hhdr : ttyHdrSize ≤ res.length) (hlen : length = 0 → needRead ≤ ttyHdrSize) :
    Reads needRead (res ++ chunks.flatten) (readIoLoop fuel needRead length res chunks) := by
  rw [readIoLoop_eq_fill hlen hhdr, fill_eq modest_read hfuel hle]
  refine ⟨fun hshort => ?_, fun hlong => ⟨dropChunks (needRead - res.length) chunks, ?_, ?_⟩⟩
  · rw [if_pos hshort]
    rfl
  · rw [if_neg (Nat.not_lt.2 hlong)]
    rfl
  · rw [flatten_dropChunks, List.drop_append, List.drop_of_length_le hle, List.nil_append]

/-- The size of the frame at the front of a byte string that has a whole header. -/
def frameSize (all : List UInt8) : Nat :=
  max ttyHdrSize (beNat ((all.take ttyHdrSize).drop ttyHdrLenOffset))

/-- While the header is incomplete the loop reads on towards it; the read that completes it sets
the size of the frame. -/
theorem readIoLoop_header : ∀ {fuel : Nat} {res : List UInt8} {chunks : List (List UInt8)},
    chunkFuel chunks ≤ fuel → res.length < ttyHdrSize →
    Reads (if (res ++ chunks.flatten).length < ttyHdrSize then ttyHdrSize
      else frameSize (res ++ chunks.flatten)) (res ++ chunks.flatten)
      (readIoLoop fuel ttyHdrSize 0 res chunks) := by
  intro fuel
  induction fuel with
  | zero =>
    intro res chunks hf
    simp [chunkFuel] at hf
  | succ fuel ih =>
    intro res chunks hf hlt
    rw [readIoLoop, if_pos hlt]
    cases chunks with
    | nil =>
      simp only [List.flatten_nil, List.append_nil, if_pos hlt]
      exact ⟨fun _ => rfl, fun h => absurd h (by omega)⟩
    | cons c cs =>
      obtain ⟨hpos, hmost⟩ := modest_read (ttyHdrSize - res.length) (by omega)
      obtain ⟨buf, rest, hr, hbuf, hstream, hfuel, -⟩ := readSome_cons c cs hpos hmost
      rw [hr, ← hstream, ← List.append_assoc]
      simp only [true_and]
      by_cases hhdr : ttyHdrSize ≤ (res ++ buf).length
      · -- the header is complete: the buffer holds exactly the header
        have hexact : (res ++ buf).length = ttyHdrSize := by
          rw [List.length_append] at hhdr ⊢
          omega
        have htake : ((res ++ buf) ++ rest.flatten).take ttyHdrSize = res ++ buf := by
          rw [List.take_left' hexact]
        have hge : ¬ ((res ++ buf) ++ rest.flatten).length < ttyHdrSize := by
          rw [List.length_append]
          omega
        rw [if_pos hhdr, if_neg hge, frameSize, htake, List.take_of_length_le hexact.le]
        have hmax : ∀ n : Nat, (if ttyHdrSize < n then n else ttyHdrSize) = max ttyHdrSize n := by
          intro n
          split_ifs <;> omega
        rw [hmax]
        refine readIoLoop_body (by omega) (by omega) hhdr (fun h0 => ?_)
        rw [h0]
        exact Nat.le_refl _
      · rw [if_neg hhdr]
        exact ih (by omega) (by omega)

/-- Reading one message takes one frame off the front of the stream, however the stream is cut into
chunks. -/
theorem readIoMessageWithConn_reads (chunks : List (List UInt8)) :
    Reads (if chunks.flatten.length < ttyHdrSize then ttyHdrSize else frameSize chunks.flatten)
      chunks.flatten (readIoMessageWithConn chunks) := by
  have h := @readIoLoop_header (chunkFuel chunks) [] chunks le_rfl (by decide)
  rwa [List.nil_append] at h

/-- The payload is short enough for its frame's length field. -/
def TtyMessage.WellFormed (m : TtyMessage) : Prop := m.message.length + ttyHdrSize < 2 ^ 32

instance (m : TtyMessage) : Decidable m.WellFormed :=
  inferInstanceAs (Decidable (m.message.length + ttyHdrSize < 2 ^ 32))

@[simp] theorem length_encodeTty (m : TtyMessage) :
    (encodeTty m).length = m.message.length + ttyHdrSize := by
  simp only [encodeTty, List.length_append, length_beBytes, ttyHdrSize]
  omega

/-- A message is read back from its frame. -/
theorem decodeTty_encodeTty (m : TtyMessage) : decodeTty (encodeTty m) = m := by
  have hsession : (encodeTty m).take ttyHdrLenOffset = beBytes 8 m.session.toNat := by
    rw [encodeTty, List.append_assoc, List.take_left' (by simp [ttyHdrLenOffset])]
  have hmessage : (encodeTty m).drop ttyHdrSize = m.message := by
    rw [encodeTty, List.drop_left' (by simp [ttyHdrSize])]
  have hlt : m.session.toNat < 256 ^ 8 := m.session.toNat_lt
  rw [decodeTty, hsession, hmessage, beNat_beBytes, Nat.mod_eq_of_lt hlt, UInt64.ofNat_toNat]

/-- The size of a frame is in its header. -/
theorem frameSize_encodeTty {m : TtyMessage} (hm : m.WellFormed) (tail : List UInt8) :
    frameSize (encodeTty m ++ tail) = (encodeTty m).length := by
  have hhead : ((encodeTty m ++ tail).take ttyHdrSize).drop ttyHdrLenOffset
      = beBytes 4 (m.message.length + ttyHdrSize) := by
    rw [encodeTty, List.append_assoc, List.take_left' (by simp [ttyHdrSize]),
      List.drop_left' (by simp [ttyHdrLenOffset])]
  have hlt : m.message.length + ttyHdrSize < 256 ^ 4 := hm
  rw [frameSize, hhead, beNat_beBytes, Nat.mod_eq_of_lt hlt, length_encodeTty]
  omega

/-- **The framing theorem.** A stream that starts with the frame of `m` is read as `m`, and what is
left of the connection is the rest of the stream. -/
theorem readIoMessageWithConn_append {m : TtyMessage} (hm : m.WellFormed) {tail : List UInt8}
    {chunks : List (List UInt8)} (h : chunks.flatten = encodeTty m ++ tail) :
    ∃ rest, readIoMessageWithConn chunks = some (m, rest) ∧ rest.flatten = tail := by
  have hreads := readIoMessageWithConn_reads chunks
  have hlen : ¬ (encodeTty m ++ tail).length < ttyHdrSize := by
    rw [List.length_append, length_encodeTty]
    omega
  rw [h, if_neg hlen, frameSize_encodeTty hm] at hreads
  obtain ⟨rest, hr, hrest⟩ := hreads.2 (by rw [List.length_append]; omega)
  rw [List.take_left' rfl, decodeTty_encodeTty] at hr
  rw [List.drop_left' rfl] at hrest
  exact ⟨rest, hr, hrest⟩

theorem readIoMessageWithConn_nil {chunks : List (List UInt8)} (h : chunks.flatten = []) :
    readIoMessageWithConn chunks = none := by
  have hreads := readIoMessageWithConn_reads chunks
  rw [h] at hreads
  exact hreads.1 (by decide)

/-- Encoded messages are read back. -/
theorem readIoMessages_encode : ∀ {ms : List TtyMessage}, (∀ m ∈ ms, m.WellFormed) →
    ∀ {fuel : Nat} {chunks : List (List UInt8)}, ms.length < fuel →
    chunks.flatten = ms.flatMap encodeTty → readIoMessages fuel chunks = ms
  | _, _, 0, _, hf, _ => absurd hf (Nat.not_lt_zero _)
  | [], _, fuel + 1, chunks, _, h => by
    rw [readIoMessages, readIoMessageWithConn_nil h]
  | m :: ms, hms, fuel + 1, chunks, hf, h => by
    rw [List.flatMap_cons] at h
    obtain ⟨rest, hr, hrest⟩ := readIoMessageWithConn_append (hms m (List.mem_cons_self ..)) h
    have hf' : ms.length < fuel := Nat.lt_of_succ_lt_succ hf
    have hms' : ∀ x ∈ ms, x.WellFormed := fun x hx => hms x (List.mem_cons_of_mem m hx)
    rw [readIoMessages, hr]
    exact congrArg _ (readIoMessages_encode hms' hf' hrest)

theorem length_le_flatMap_encodeTty (ms : List TtyMessage) :
    ms.length ≤ (ms.flatMap encodeTty).length := by
  induction ms with
  | nil => simp
  | cons m ms ih =>
    rw [List.flatMap_cons, List.length_append, length_encodeTty, List.length_cons, ttyHdrSize]
    omega

/-- The messages read from a stream of frames are the messages written to it, whatever the chunks
the stream arrives in. -/
theorem ioMessages_encode {ms : List TtyMessage} (hms : ∀ m ∈ ms, m.WellFormed)
    {chunks : List (List UInt8)} (h : chunks.flatten = ms.flatMap encodeTty) :
    ioMessages chunks = ms := by
  refine readIoMessages_encode hms ?_ h
  rw [h]
  exact Nat.lt_succ_of_le (length_le_flatMap_encodeTty ms)

/-! ## The control channel -/

/-- Reference: `hyper.INIT_READY`. -/
def initReady : UInt32 := 8

/-- Reference: `hyper.INIT_ACK`. -/
def initAck : UInt32 := 9

/-- Reference: `hyper.INIT_ERROR`. -/
def initError : UInt32 := 10

/-- Reference: `hyper.INIT_NEXT`. -/
def initNext : UInt32 := 14

/-- The commands a client may send, with their codes. Reference: `codeList`
(`hyperstart.go:54-72`). -/
def codeList : List (String × UInt32) :=
  [("version", 0), ("startpod", 1), ("destroypod", 4), ("execcmd", 6), ("ready", initReady),
   ("ack", initAck), ("error", initError), ("winsize", 11), ("ping", 12), ("next", initNext),
   ("writefile", 15), ("readfile", 16), ("newcontainer", 17), ("killcontainer", 18),
   ("onlinecpumem", 19), ("setupinterface", 20), ("setuproute", 21)]

/-- Reference: `codeFromCmd` (`hyperstart.go:355`). -/
def codeFromCmd (cmd : String) : Except String UInt32 :=
  match codeList.lookup cmd with
  | none => .error ("unknown command '" ++ cmd ++ "'")
  | some code => .ok code

/-- Waiting for a message with the code `code` among the codes that arrive, up to the read that
fails. A failed read is no error here: the source returns neither a message nor an error.
Reference: `expectReadingCmd` (`hyperstart.go:364`). -/
def expectReadingCmd (code : UInt32) : List UInt32 → Option String
  | [] => none
  | c :: cs =>
    if c = code then none
    else if c = initNext ∨ c = initReady then expectReadingCmd code cs
    else if c = initError then some "ERROR received from Hyperstart"
    else some ("CMD ID received " ++ toString c ++ " not matching expected " ++ toString code)

/-- What the control channel answers to one command: the error of the write and the codes that
arrive afterwards. -/
structure CtlAnswer where
  writeErr : Option String
  codes : List UInt32

/-- What ends the whole proxy process: a Go panic, here the use of a nil connection. -/
inductive Fault
  | nilConn
  deriving Repr, DecidableEq

/-- Sending a command with `len` bytes of data over the control connection and awaiting its
acknowledgement; the result is the error. Reference: `SendCtlMessage` and `writeCtlMessage`
(`hyperstart.go:408`, `:264`). -/
def sendCtlMessage (ctl : Option Conn) (cmd : String) (len : Nat) (a : CtlAnswer) :
    Except Fault (Option String) :=
  match codeFromCmd cmd with
  | .error err => .ok (some err)
  | .ok _ =>
    let length := len + 8
    if 10240 < length then .ok (some ("message too long " ++ toString length))
    else
      match ctl with
      | none => .error .nilConn
      | some _ =>
        match a.writeErr with
        | some err => .ok (some err)
        | none => .ok (expectReadingCmd initAck a.codes)

/-- A command panics only on a connection that was never opened. -/
theorem ctl_of_sendCtlMessage {ctl : Option Conn} {cmd : String} {len : Nat} {a : CtlAnswer}
    {fault : Fault} (h : sendCtlMessage ctl cmd len a = .error fault) : ctl = none := by
  cases ctl with
  | none => rfl
  | some conn =>
    simp only [sendCtlMessage] at h
    repeat' split at h
    all_goals cases h

end Proxy

end CcOciRuntime
