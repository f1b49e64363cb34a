import CcOciRuntime.Shim.Stream

/-!
# The shim's output

`handle_proxy_output` takes one frame from the proxy and passes its payload to stdout or stderr. The
end of the workload is told in two frames of ordinary shape: a frame without a payload, after which
the shim is exiting, and then a frame of one byte, which is the exit status. `write i n` is how much
the `i`-th write of the process takes of `n` bytes, nothing when it fails.

`handleProxyOutputs_frames` is what repeated calls do with the frames of a workload.

Reference: `shim/shim.c:421-481`.
-/

namespace CcOciRuntime

namespace Shim

open Proxy (TtyMessage encodeTty length_encodeTty)

/-- The state of the shim that its output handler uses, with what it has written so far; `conn` is
what the proxy's I/O descriptor will deliver, and `writeFailed` records that a write has failed, so
that the rest of its frame was dropped. Reference: `cc_shim` (`shim/shim.h:23`). -/
structure ShimState where
  ioSeqNo : UInt64
  exiting : Bool := false
  conn : List (List UInt8)
  stdout : List UInt8 := []
  stderr : List UInt8 := []
  writes : Nat := 0
  writeFailed : Bool := false

/-- The descriptors that output goes to. -/
inductive OutFd
  | stdout
  | stderr
  deriving DecidableEq

/-- The process goes on, or has exited with a status. -/
inductive ShimRun
  | running (shim : ShimState)
  | exited (status : UInt8) (shim : ShimState)

/-- The value of a `char`, which is signed. -/
def charValue (b : UInt8) : Int := if b.toNat < 128 then b.toNat else b.toNat - 256

/-- The status that the parent sees of `exit(code)`. -/
def exitStatus (code : Int) : UInt8 := UInt8.ofNat (code % 256).toNat

/-- A write of some bytes that were taken. -/
def ShimState.append (shim : ShimState) (outfd : OutFd) (data : List UInt8) : ShimState :=
  match outfd with
  | .stdout => { shim with stdout := shim.stdout ++ data, writes := shim.writes + 1 }
  | .stderr => { shim with stderr := shim.stderr ++ data, writes := shim.writes + 1 }

/-- The loop that writes a payload, with nothing taken by a write that fails; the fuel bounds the
number of writes. Reference: `shim/shim.c:468-474`. -/
def writeLoop (write : Nat → Nat → Nat) (outfd : OutFd) : Nat → ShimState → List UInt8 → ShimState
  | 0, shim, _ | _, shim, [] => shim
  | fuel + 1, shim, b :: bs =>
    match write shim.writes (b :: bs).length with
    | 0 => { shim with writes := shim.writes + 1, writeFailed := true }
    | n + 1 =>
      writeLoop write outfd fuel (shim.append outfd ((b :: bs).take (n + 1)))
        ((b :: bs).drop (n + 1))

/-- What is done with a frame for `outfd`. Reference: `shim/shim.c:454-474`. -/
def ShimState.handleFrame (shim : ShimState) (write : Nat → Nat → Nat) (outfd : OutFd)
    (streamLen : Nat) (buf : List UInt8) : ShimRun :=
  let payload := (buf.take streamLen).drop streamHeaderSize
  if shim.exiting = false ∧ streamLen = streamHeaderSize then
    .running { shim with exiting := true }
  else if shim.exiting = true ∧ streamLen = streamHeaderSize + 1 then
    -- hyperstart has sent the exit status
    .exited (exitStatus (charValue (buf.getD streamHeaderSize 0))) shim
  else .running (writeLoop write outfd payload.length shim payload)

/-- Reference: `handle_proxy_output` (`shim/shim.c:422`). -/
def ShimState.handleProxyOutput (shim : ShimState) (write : Nat → Nat → Nat) : ShimRun :=
  match readIOMessage shim.conn with
  | .eof => .exited 1 { shim with conn := [] }
  | .refused conn => .running { shim with conn }
  | .message seq streamLen buf conn =>
    let shim := { shim with conn }
    if streamLen = 0 ∨ hyperstartMaxRecvBytes < streamLen then .running shim
    else if seq = shim.ioSeqNo then shim.handleFrame write .stdout streamLen buf
    else if seq = shim.ioSeqNo + 1 then shim.handleFrame write .stderr streamLen buf
    else .running shim

/-- Repeated calls of the handler, up to the exit of the process. -/
def handleProxyOutputs (write : Nat → Nat → Nat) : Nat → ShimState → ShimRun
  | 0, shim => .running shim
  | n + 1, shim =>
    match shim.handleProxyOutput write with
    | .running shim => handleProxyOutputs write n shim
    | .exited status shim => .exited status shim

theorem exitStatus_charValue (b : UInt8) : exitStatus (charValue b) = b := by
  have hb := b.toNat_lt
  rw [exitStatus, charValue, ← UInt8.toNat_inj, UInt8.toNat_ofNat']
  split_ifs <;> omega

/-! ## Writing a payload -/

/-- What has been written to a descriptor. -/
def ShimState.out (shim : ShimState) : OutFd → List UInt8
  | .stdout => shim.stdout
  | .stderr => shim.stderr

/-- The state `shim'` is `shim` with `data` written to `outfd`. -/
structure Wrote (outfd : OutFd) (data : List UInt8) (shim shim' : ShimState) : Prop where
  ioSeqNo : shim'.ioSeqNo = shim.ioSeqNo
  exiting : shim'.exiting = shim.exiting
  conn : shim'.conn = shim.conn
  out : ∀ fd, shim'.out fd = shim.out fd ++ if fd = outfd then data else []

theorem ShimState.wrote_append (shim : ShimState) (outfd : OutFd) (data : List UInt8) :
    Wrote outfd data shim (shim.append outfd data) := by
  cases outfd with
  | stdout =>
    exact ⟨rfl, rfl, rfl, fun fd => by cases fd <;> simp [ShimState.out, ShimState.append]⟩
  | stderr =>
    exact ⟨rfl, rfl, rfl, fun fd => by cases fd <;> simp [ShimState.out, ShimState.append]⟩

/-- One write after the other. -/
theorem Wrote.trans {outfd : OutFd} {d d' : List UInt8} {s s' s'' : ShimState}
    (h : Wrote outfd d s s') (h' : Wrote outfd d' s' s'') : Wrote outfd (d ++ d') s s'' where
  ioSeqNo := h'.ioSeqNo.trans h.ioSeqNo
  exiting := h'.exiting.trans h.exiting
  conn := h'.conn.trans h.conn
  out fd := by
    rw [h'.out, h.out, List.append_assoc]
    split_ifs <;> rfl

theorem Wrote.nil (outfd : OutFd) (shim : ShimState) : Wrote outfd [] shim shim :=
  ⟨rfl, rfl, rfl, fun fd => by split_ifs <;> exact (List.append_nil _).symm⟩

/-- **Short writes lose nothing.** The induction is on the fuel, which is at least what is left to
write: every write takes something. -/
theorem wrote_writeLoop {write : Nat → Nat → Nat} (hwrite : ∀ i, Modest (write i)) (outfd : OutFd) :
    ∀ {fuel : Nat} {shim : ShimState} {data : List UInt8}, data.length ≤ fuel →
    Wrote outfd data shim (writeLoop write outfd fuel shim data) := by
  intro fuel
  induction fuel with
  | zero =>
    intro shim data hdata
    obtain rfl := List.eq_nil_of_length_eq_zero (Nat.le_zero.1 hdata)
    exact .nil outfd shim
  | succ fuel ih =>
    intro shim data hdata
    cases data with
    | nil => exact .nil outfd shim
    | cons b bs =>
      obtain ⟨hpos, hle⟩ := hwrite shim.writes (b :: bs).length (Nat.succ_pos _)
      obtain ⟨n, hn⟩ := Nat.exists_eq_succ_of_ne_zero (Nat.ne_of_gt hpos)
      rw [writeLoop, hn]
      dsimp only
      have hstep := shim.wrote_append outfd ((b :: bs).take (n + 1))
      have hrest := @ih (shim.append outfd ((b :: bs).take (n + 1))) ((b :: bs).drop (n + 1))
        (by rw [List.length_drop]; omega)
      have hall := hstep.trans hrest
      rwa [List.take_append_drop] at hall

/-! ## The frames of a workload -/

/-- The two streams of a session have different numbers. -/
theorem add_one_ne (io : UInt64) : io + 1 ≠ io := by
  intro h
  have hlt := io.toNat_lt
  have hnat := congrArg UInt64.toNat h
  rw [UInt64.toNat_add] at hnat
  change (io.toNat + 1) % 2 ^ 64 = io.toNat at hnat
  omega

/-- The sequence number of the stream that goes to a descriptor. -/
def OutFd.seq (io : UInt64) : OutFd → UInt64
  | .stdout => io
  | .stderr => io + 1

/-- The two outputs have different numbers. -/
theorem OutFd.seq_inj {io : UInt64} {fd fd' : OutFd} (h : fd.seq io = fd'.seq io) : fd = fd' := by
  cases fd <;> cases fd'
  · rfl
  · exact absurd h.symm (add_one_ne io)
  · exact absurd h (add_one_ne io)
  · rfl

section
variable {write : Nat → Nat → Nat} {shim : ShimState} {m : TtyMessage} {tail : List UInt8}

/-- A frame of the session, whatever its stream. -/
theorem handleProxyOutput_frame
    (hlen : m.message.length + streamHeaderSize ≤ hyperstartMaxRecvBytes)
    (hne : NonemptyChunks shim.conn) (hconn : shim.conn.flatten = encodeTty m ++ tail)
    {outfd : OutFd} (hseq : m.session = outfd.seq shim.ioSeqNo) :
    shim.handleProxyOutput write =
      { shim with conn := dropChunks (encodeTty m).length shim.conn }.handleFrame write outfd
        (m.message.length + streamHeaderSize) (encodeTty m) := by
  have hnonzero : ¬ (m.message.length + streamHeaderSize = 0 ∨
      hyperstartMaxRecvBytes < m.message.length + streamHeaderSize) := by
    rw [streamHeaderSize] at hlen ⊢
    omega
  rw [ShimState.handleProxyOutput, readIOMessage_encodeTty hlen hne hconn]
  dsimp only
  rw [if_neg hnonzero]
  cases outfd with
  | stdout =>
    change m.session = shim.ioSeqNo at hseq
    rw [if_pos hseq]
  | stderr =>
    change m.session = shim.ioSeqNo + 1 at hseq
    rw [if_neg (by rw [hseq]; exact add_one_ne _), if_pos hseq]

/-- A data frame is written whole to its stream. -/
theorem handleProxyOutput_data (hwrite : ∀ i, Modest (write i)) (hexiting : shim.exiting = false)
    (hpos : 0 < m.message.length)
    (hlen : m.message.length + streamHeaderSize ≤ hyperstartMaxRecvBytes)
    (hne : NonemptyChunks shim.conn) (hconn : shim.conn.flatten = encodeTty m ++ tail)
    {outfd : OutFd} (hseq : m.session = outfd.seq shim.ioSeqNo) :
    ∃ shim', shim.handleProxyOutput write = .running shim' ∧
      Wrote outfd m.message { shim with conn := dropChunks (encodeTty m).length shim.conn }
        shim' := by
  have hpayload : ((encodeTty m).take (m.message.length + streamHeaderSize)).drop
      streamHeaderSize = m.message := by
    have hsize : (encodeTty m).length = m.message.length + streamHeaderSize := length_encodeTty m
    rw [← hsize, List.take_length, encodeTty, List.drop_left' (by simp [streamHeaderSize])]
  rw [handleProxyOutput_frame hlen hne hconn hseq, ShimState.handleFrame, hpayload]
  dsimp only
  rw [if_neg (by omega), if_neg (by rw [hexiting]; exact fun h => Bool.false_ne_true h.1)]
  exact ⟨_, rfl, wrote_writeLoop hwrite outfd (Nat.le_refl _)⟩

/-- The frame that ends the output. -/
theorem handleProxyOutput_end (hexiting : shim.exiting = false) (hne : NonemptyChunks shim.conn)
    (hconn : shim.conn.flatten = encodeTty ⟨shim.ioSeqNo, []⟩ ++ tail) :
    shim.handleProxyOutput write =
      .running { shim with
        conn := dropChunks (encodeTty ⟨shim.ioSeqNo, []⟩).length shim.conn, exiting := true } := by
  have hlen : (⟨shim.ioSeqNo, []⟩ : TtyMessage).message.length + streamHeaderSize ≤
    hyperstartMaxRecvBytes := by simp [streamHeaderSize, hyperstartMaxRecvBytes]
  rw [handleProxyOutput_frame hlen hne hconn (show _ = OutFd.stdout.seq shim.ioSeqNo from rfl),
    ShimState.handleFrame]
  dsimp only
  rw [if_pos ⟨hexiting, rfl⟩]

/-- The frame with the exit status. -/
theorem handleProxyOutput_status {code : UInt8} (hexiting : shim.exiting = true)
    (hne : NonemptyChunks shim.conn)
    (hconn : shim.conn.flatten = encodeTty ⟨shim.ioSeqNo, [code]⟩ ++ tail) :
    shim.handleProxyOutput write =
      .exited code { shim with
        conn := dropChunks (encodeTty ⟨shim.ioSeqNo, [code]⟩).length shim.conn } := by
  have hlen : (⟨shim.ioSeqNo, [code]⟩ : TtyMessage).message.length + streamHeaderSize ≤
    hyperstartMaxRecvBytes := by simp [streamHeaderSize, hyperstartMaxRecvBytes]
  have hcode : (encodeTty ⟨shim.ioSeqNo, [code]⟩).getD streamHeaderSize 0 = code := by
    rw [List.getD_eq_getElem?_getD, encodeTty,
      List.getElem?_append_right (by simp [streamHeaderSize])]
    rfl
  rw [handleProxyOutput_frame hlen hne hconn (show _ = OutFd.stdout.seq shim.ioSeqNo from rfl),
    ShimState.handleFrame]
  dsimp only
  rw [if_neg (by rw [hexiting]; exact fun h => Bool.noConfusion h.1), if_pos ⟨hexiting, rfl⟩, hcode,
    exitStatus_charValue]

end

/-- The payloads of the frames with the number `seq`, one after the other. -/
def payloads (seq : UInt64) (frames : List TtyMessage) : List UInt8 :=
  (frames.filter (·.session = seq)).flatMap (·.message)

/-- The frames that end a workload with the exit status `code`: the end of its output, then the
status. -/
def exitFrames (io : UInt64) (code : UInt8) : List TtyMessage := [⟨io, []⟩, ⟨io, [code]⟩]

/-- The last two frames. -/
theorem handleProxyOutputs_exit {write : Nat → Nat → Nat} {shim : ShimState} {code : UInt8}
    (hexiting : shim.exiting = false) (hne : NonemptyChunks shim.conn)
    (hconn : shim.conn.flatten = (exitFrames shim.ioSeqNo code).flatMap encodeTty) :
    ∃ shim', handleProxyOutputs write 2 shim = .exited code shim' ∧
      ∀ fd, shim'.out fd = shim.out fd := by
  rw [exitFrames, List.flatMap_cons, List.flatMap_cons, List.flatMap_nil] at hconn
  rw [handleProxyOutputs, handleProxyOutput_end hexiting hne hconn]
  dsimp only
  rw [handleProxyOutputs, handleProxyOutput_status rfl (hne.dropChunks _)
    (by rw [flatten_dropChunks, hconn, List.drop_left' rfl])]
  exact ⟨_, rfl, fun fd => by cases fd <;> rfl⟩

theorem payloads_cons (seq : UInt64) (m : TtyMessage) (frames : List TtyMessage) :
    payloads seq (m :: frames) =
      (if m.session = seq then m.message else []) ++ payloads seq frames := by
  rw [payloads, List.filter_cons]
  by_cases h : m.session = seq
  · rw [if_pos h, if_pos (decide_eq_true h), List.flatMap_cons]
    rfl
  · rw [if_neg h, if_neg (by simpa using h)]
    rfl

/-- The frames of a workload, from any state of the shim in which it is not exiting. -/
theorem handleProxyOutputs_append {write : Nat → Nat → Nat} (hwrite : ∀ i, Modest (write i))
    {code : UInt8} : ∀ {frames : List TtyMessage} {shim : ShimState}, shim.exiting = false →
    (∀ m ∈ frames, ∃ fd : OutFd, m.session = fd.seq shim.ioSeqNo) →
    (∀ m ∈ frames, 1 ≤ m.message.length ∧ m.message.length ≤ 10228) → NonemptyChunks shim.conn →
    shim.conn.flatten = (frames ++ exitFrames shim.ioSeqNo code).flatMap encodeTty →
    ∃ shim', handleProxyOutputs write (frames.length + 2) shim = .exited code shim' ∧
      ∀ fd, shim'.out fd = shim.out fd ++ payloads (fd.seq shim.ioSeqNo) frames := by
  intro frames
  induction frames with
  | nil =>
    intro shim hexiting _ _ hne hconn
    rw [List.nil_append] at hconn
    obtain ⟨shim', hrun, hout⟩ := handleProxyOutputs_exit hexiting hne hconn
    exact ⟨shim', hrun, fun fd => (hout fd).trans (List.append_nil _).symm⟩
  | cons m frames ih =>
    intro shim hexiting hseq hlen hne hconn
    obtain ⟨⟨outfd, hm⟩, hseq⟩ := List.forall_mem_cons.1 hseq
    obtain ⟨⟨hpos, hle⟩, hlen⟩ := List.forall_mem_cons.1 hlen
    rw [List.cons_append, List.flatMap_cons] at hconn
    have hlimit : m.message.length + streamHeaderSize ≤ hyperstartMaxRecvBytes := by
      rw [streamHeaderSize, hyperstartMaxRecvBytes]
      omega
    obtain ⟨shim', hcall, hwrote⟩ :=
      handleProxyOutput_data hwrite hexiting hpos hlimit hne hconn hm
    have hseqNo : shim'.ioSeqNo = shim.ioSeqNo := hwrote.ioSeqNo
    have hconn' : shim'.conn = dropChunks (encodeTty m).length shim.conn := hwrote.conn
    have hrest : shim'.conn.flatten =
        (frames ++ exitFrames shim'.ioSeqNo code).flatMap encodeTty := by
      rw [hconn', flatten_dropChunks, hconn, List.drop_left' rfl, hseqNo]
    obtain ⟨final, hrun, hout⟩ := ih (hwrote.exiting.trans hexiting) (hseqNo ▸ hseq) hlen
      (hconn' ▸ hne.dropChunks _) hrest
    refine ⟨final, ?_, fun fd => ?_⟩
    · rw [List.length_cons, Nat.add_right_comm, handleProxyOutputs, hcall]
      exact hrun
    · have hone : (if fd = outfd then m.message else []) =
          if m.session = fd.seq shim.ioSeqNo then m.message else [] := by
        by_cases hfd : fd = outfd
        · rw [if_pos hfd, if_pos (hfd ▸ hm)]
        · rw [if_neg hfd, if_neg fun h => hfd (OutFd.seq_inj (h.symm.trans hm))]
      have hsame : ∀ fd : OutFd,
          ({ shim with conn := dropChunks (encodeTty m).length shim.conn } : ShimState).out fd =
            shim.out fd := by
        intro fd
        cases fd <;> rfl
      rw [hout, hwrote.out, hsame, hone, hseqNo, payloads_cons, List.append_assoc]

/-- **The shim reproduces the output and the exit status of a workload.** The frames of its two
streams within the limit, the frame that ends them and the one with the status arrive in any
non-empty chunks, and writes are short in any pattern: as many calls as there are frames write the
payloads of each stream in order, and the process exits with the status. -/
theorem handleProxyOutputs_frames (io : UInt64) (frames : List TtyMessage)
    (hseq : ∀ m ∈ frames, m.session = io ∨ m.session = io + 1)
    (hlen : ∀ m ∈ frames, 1 ≤ m.message.length ∧ m.message.length ≤ 10228) (code : UInt8)
    (conn : List (List UInt8)) (hne : NonemptyChunks conn)
    (hconn : conn.flatten = (frames ++ exitFrames io code).flatMap encodeTty)
    (write : Nat → Nat → Nat) (hwrite : ∀ i, Modest (write i)) :
    ∃ shim, handleProxyOutputs write (frames.length + 2) { ioSeqNo := io, conn } =
        .exited code shim ∧
      shim.stdout = payloads io frames ∧ shim.stderr = payloads (io + 1) frames := by
  have hfd : ∀ m ∈ frames, ∃ fd : OutFd, m.session = fd.seq io := by
    intro m hm
    rcases hseq m hm with h | h
    · exact ⟨.stdout, h⟩
    · exact ⟨.stderr, h⟩
  obtain ⟨shim, hrun, hout⟩ :=
    @handleProxyOutputs_append write hwrite code frames { ioSeqNo := io, conn } rfl hfd hlen hne
      hconn
  exact ⟨shim, hrun, hout .stdout, hout .stderr⟩

/-- The output of a workload that writes two bytes and an error. -/
def sampleFrames : List TtyMessage := [⟨1, [104, 105]⟩, ⟨2, [33]⟩]

/-- Its stream with the exit status 255, cut inside two headers. -/
def sampleConn : List (List UInt8) :=
  let stream := (sampleFrames ++ exitFrames 1 255).flatMap encodeTty
  [stream.take 5, (stream.drop 5).take 20, stream.drop 25]

/-- The sample read from its chunks and written one byte at a time. -/
theorem handleProxyOutputs_sample :
    ∃ shim, handleProxyOutputs (fun _ _ => 1) (sampleFrames.length + 2)
        { ioSeqNo := 1, conn := sampleConn } = .exited 255 shim ∧
      shim.stdout = payloads 1 sampleFrames ∧ shim.stderr = payloads (1 + 1) sampleFrames :=
  handleProxyOutputs_frames 1 sampleFrames (by decide) (by decide) 255 sampleConn
    (by decide +kernel) (by decide +kernel) (fun _ _ => 1) fun _ _ hn => ⟨Nat.one_pos, hn⟩

end Shim

end CcOciRuntime
