import CcOciRuntime.Proxy.Dispatch
import CcOciRuntime.Shim.Output

/-!
# Stdin from the shim to hyperstart

`handle_stdin` puts what it reads from stdin into frames for the proxy, and at the end of stdin it
sends a frame without a payload and takes stdin off the polled descriptors. The proxy reads the
frames of a session and hands them to the agent (`IoSession.ioClientToHyper`).
`stdin_reaches_hyperstart` is the whole way. A read of stdin that fails has no effect and is left
out, and the writes of both programs complete.

Reference: `shim/shim.c:302-336`, `proxy/vm.go:212-266`.
-/

namespace CcOciRuntime

namespace Shim

open Proxy (TtyMessage encodeTty length_encodeTty ioMessages ioMessages_encode ttyHdrSize Vm
  IoSession WriteResult Conn Accepts sendIoMessageWithConn sendIoMessageWithConn_eq_none)

/-- What `handle_stdin` uses and changes: what stdin will deliver, whether it is polled, and the
bytes written to the proxy so far. -/
structure StdinState where
  ioSeqNo : UInt64
  stdin : List (List UInt8)
  polled : Bool := true
  sent : List UInt8 := []

/-- The buffer that is written for `data`. Reference: `shim/shim.c:325-327`. -/
def stdinFrame (ioSeqNo : UInt64) (data : List UInt8) : List UInt8 :=
  let len := data.length + streamHeaderSize
  setBigEndian64 ioSeqNo ++ setBigEndian32 (UInt32.ofNat len) ++ data

/-- Reference: `handle_stdin` (`shim/shim.c:303`). -/
def StdinState.handleStdin (st : StdinState) : StdinState :=
  match readSome bufsiz st.stdin with
  | none => { st with polled := false, sent := st.sent ++ stdinFrame st.ioSeqNo [] }
  | some ([], stdin) =>
    { st with stdin, polled := false, sent := st.sent ++ stdinFrame st.ioSeqNo [] }
  | some (b :: bs, stdin) => { st with stdin, sent := st.sent ++ stdinFrame st.ioSeqNo (b :: bs) }

/-- Turns of the main loop in which stdin is ready: a descriptor that is not polled has no events.
Reference: `shim/shim.c:711-737`. -/
def StdinState.poll : Nat → StdinState → StdinState
  | 0, st => st
  | n + 1, st => StdinState.poll n (if st.polled then st.handleStdin else st)

/-- Input is framed as a message of the agent. -/
theorem stdinFrame_eq {data : List UInt8} (h : data.length ≤ bufsiz) (ioSeqNo : UInt64) :
    stdinFrame ioSeqNo data = encodeTty ⟨ioSeqNo, data⟩ := by
  have hlt : data.length + streamHeaderSize < 2 ^ 32 := by
    rw [bufsiz] at h
    rw [streamHeaderSize]
    omega
  rw [stdinFrame, setBigEndian64_eq, setBigEndian32_eq, UInt32.toNat_ofNat', Nat.mod_eq_of_lt hlt]
  rfl

/-- Nothing more is sent once stdin has ended. -/
theorem poll_of_not_polled {n : Nat} {st : StdinState} (h : st.polled = false) :
    StdinState.poll n st = st := by
  induction n with
  | zero => rfl
  | succ n ih =>
    rw [StdinState.poll, if_neg (by rw [h]; exact Bool.false_ne_true), ih]

/-- **The frames of stdin.** Stdin is cut into reads that are neither empty nor longer than the
buffer; each is sent in a frame, and a frame without a payload follows. -/
theorem exists_frames_poll : ∀ {n : Nat} {st : StdinState}, chunkFuel st.stdin ≤ n →
    NonemptyChunks st.stdin → st.polled = true →
    ∃ reads : List (List UInt8), reads.flatten = st.stdin.flatten ∧
      (∀ d ∈ reads, d ≠ [] ∧ d.length ≤ bufsiz) ∧
      (StdinState.poll n st).sent = st.sent ++
        (reads ++ [[]]).flatMap fun d => encodeTty ⟨st.ioSeqNo, d⟩ := by
  intro n
  induction n with
  | zero =>
    intro st hn
    exact absurd hn (by simp [chunkFuel])
  | succ n ih =>
    intro st hn hne hpolled
    rw [StdinState.poll, if_pos hpolled]
    cases hstdin : st.stdin with
    | nil =>
      have hhandle : st.handleStdin =
          { st with polled := false, sent := st.sent ++ stdinFrame st.ioSeqNo [] } := by
        rw [StdinState.handleStdin, hstdin]
        rfl
      refine ⟨[], rfl, fun d hd => absurd hd List.not_mem_nil, ?_⟩
      rw [hhandle, poll_of_not_polled rfl, stdinFrame_eq (Nat.zero_le _)]
      rfl
    | cons c cs =>
      rw [hstdin] at hn hne
      obtain ⟨b, bs, rest, hread, hrest, hgot, hstream, hless, -⟩ :=
        hne.readSome_cons (by decide : 0 < bufsiz) (Nat.le_refl bufsiz)
      have hhandle : st.handleStdin =
          { st with stdin := rest, sent := st.sent ++ stdinFrame st.ioSeqNo (b :: bs) } := by
        rw [StdinState.handleStdin, hstdin, hread]
      obtain ⟨reads, hflatten, hreads, hsent⟩ := @ih st.handleStdin
        (by rw [hhandle]; exact Nat.le_of_lt_succ (Nat.lt_of_lt_of_le hless hn))
        (by rw [hhandle]; exact hrest) (by rw [hhandle]; exact hpolled)
      rw [hhandle] at hflatten hsent
      refine ⟨(b :: bs) :: reads, ?_, ?_, ?_⟩
      · rw [List.flatten_cons, hflatten, hstream]
      · exact List.forall_mem_cons.2 ⟨⟨List.cons_ne_nil b bs, hgot⟩, hreads⟩
      · rw [hhandle, hsent, stdinFrame_eq hgot, List.append_assoc, List.cons_append,
          List.flatMap_cons]

/-! ## The proxy's side -/

/-- What fits the shim's buffer fits the length field of a message. -/
theorem wellFormed_of_le_bufsiz {m : TtyMessage} (h : m.message.length ≤ bufsiz) :
    m.WellFormed := by
  rw [bufsiz] at h
  rw [TtyMessage.WellFormed, ttyHdrSize]
  omega

/-- What fits the shim's buffer is within the limit of the agent's connection. -/
theorem sendIoMessageWithConn_of_le_bufsiz {m : TtyMessage} {write : List UInt8 → WriteResult}
    (h : m.message.length ≤ bufsiz)
    (hwrite : ∀ bytes, write bytes = { n := bytes.length, err := none }) :
    sendIoMessageWithConn write m = none := by
  rw [bufsiz] at h
  refine sendIoMessageWithConn_eq_none.2 ⟨?_, ?_⟩
  · rw [ttyHdrSize]
    omega
  · rw [Accepts, hwrite, length_encodeTty]

/-- Messages with the session's number that the agent's connection takes are all handed on. -/
theorem forward_eq {session : IoSession} {write : Nat → List UInt8 → WriteResult} :
    ∀ {ms : List TtyMessage} {i : Nat}, (∀ m ∈ ms, m.session = session.ioBase) →
    (∀ m ∈ ms, ∀ j, sendIoMessageWithConn (write j) m = none) →
    session.forward write i ms = ms := by
  intro ms
  induction ms with
  | nil =>
    intro i _ _
    rfl
  | cons m ms ih =>
    intro i hseq hsend
    obtain ⟨hm, hms⟩ := List.forall_mem_cons.1 hseq
    obtain ⟨hone, hrest⟩ := List.forall_mem_cons.1 hsend
    rw [IoSession.forward, if_neg (fun h => h hm), hone i]
    dsimp only
    rw [ih hms hrest]

/-- The session of an allocation of one or two streams is found under its first number. -/
theorem findSession_allocateIo (vm : Vm) {n : Int} (hn : n = 1 ∨ n = 2) (clientID : UInt64)
    (c : Conn) :
    (vm.allocateIo n clientID c).1.findSession (vm.allocateIo n clientID c).2 =
      some { nStreams := n, ioBase := (vm.allocateIo n clientID c).2, clientID, client := c } := by
  have hbase : vm.nextIoBase + UInt64.ofNat 0 = vm.nextIoBase := UInt64.add_zero _
  have hfound : (vm.allocateIo n clientID c).1.ioSessions vm.nextIoBase =
      some vm.sessions.length := by
    rcases hn with rfl | rfl
    · change Function.update vm.ioSessions (vm.nextIoBase + UInt64.ofNat 0) _ _ = _
      rw [hbase, Function.update_self]
    · change Function.update (Function.update vm.ioSessions (vm.nextIoBase + UInt64.ofNat 0) _)
        (vm.nextIoBase + 1) _ _ = _
      rw [Function.update_of_ne (add_one_ne _).symm, hbase, Function.update_self]
  change ((vm.allocateIo n clientID c).1.ioSessions vm.nextIoBase).bind _ = _
  rw [hfound, Option.bind_some]
  exact List.getElem?_concat_length

/-- **Stdin reaches hyperstart intact.** For the session of an allocation of one or two streams and
every stdin, in whatever non-empty chunks it arrives and in whatever chunks its frames reach the
proxy: the messages handed to the agent all have the session's number, their payloads are stdin in
order, one empty message ends them and none of the others is empty, and no message is left out or
refused. -/
theorem stdin_reaches_hyperstart (vm : Vm) (n : Int) (hn : n = 1 ∨ n = 2) (clientID : UInt64)
    (c : Conn) (stdin : List (List UInt8)) (hne : NonemptyChunks stdin) (polls : Nat)
    (hpolls : chunkFuel stdin ≤ polls) (conn : List (List UInt8))
    (hconn : conn.flatten =
      (StdinState.poll polls { ioSeqNo := (vm.allocateIo n clientID c).2, stdin }).sent)
    (write : Nat → List UInt8 → WriteResult)
    (hwrite : ∀ i bytes, write i bytes = { n := bytes.length, err := none }) :
    let io := (vm.allocateIo n clientID c).2
    ∃ session data, (vm.allocateIo n clientID c).1.findSession io = some session ∧
      session.ioClientToHyper write conn = data ++ [⟨io, []⟩] ∧
      ioMessages conn = data ++ [⟨io, []⟩] ∧
      (∀ m ∈ data, m.session = io ∧ m.message ≠ []) ∧
      data.flatMap (·.message) = stdin.flatten ∧
      ∀ m ∈ data ++ [⟨io, []⟩], ∀ i, sendIoMessageWithConn (write i) m = none := by
  intro io
  obtain ⟨reads, hflatten, hreads, hsent⟩ :=
    @exists_frames_poll polls { ioSeqNo := io, stdin } hpolls hne rfl
  let data : List TtyMessage := reads.map fun d => ⟨io, d⟩
  have hmessages : ∀ m ∈ data ++ [⟨io, []⟩],
      m.session = io ∧ m.message.length ≤ bufsiz := by
    intro m hm
    rcases List.mem_append.1 hm with hm | hm
    · obtain ⟨d, hd, rfl⟩ := List.mem_map.1 hm
      exact ⟨rfl, (hreads d hd).2⟩
    · rw [List.mem_singleton.1 hm]
      exact ⟨rfl, Nat.zero_le _⟩
  have hstream : conn.flatten = (data ++ [(⟨io, []⟩ : TtyMessage)]).flatMap encodeTty := by
    rw [hconn, hsent, List.nil_append, List.flatMap_append, List.flatMap_append, List.flatMap_map]
    rfl
  have hio : ioMessages conn = data ++ [⟨io, []⟩] :=
    ioMessages_encode (fun m hm => wellFormed_of_le_bufsiz (hmessages m hm).2) hstream
  have hsend : ∀ m ∈ data ++ [⟨io, []⟩], ∀ i, sendIoMessageWithConn (write i) m = none :=
    fun m hm i => sendIoMessageWithConn_of_le_bufsiz (hmessages m hm).2 (hwrite i)
  refine ⟨_, data, findSession_allocateIo vm hn clientID c, ?_, hio, ?_, ?_, hsend⟩
  · rw [IoSession.ioClientToHyper, hio]
    exact forward_eq (fun m hm => (hmessages m hm).1) hsend
  · intro m hm
    obtain ⟨d, hd, rfl⟩ := List.mem_map.1 hm
    exact ⟨rfl, (hreads d hd).1⟩
  · rw [List.flatMap_map, ← hflatten]
    exact List.flatMap_id

/-- The six bytes of a line on stdin, with the session of a client that asked for two streams. -/
theorem stdin_reaches_hyperstart_line :
    let vm := Proxy.newVM "pod" "/run/ctl.sock" "/run/tty.sock"
    let stdin : List (List UInt8) := [[104, 101], [108, 108, 111, 10]]
    let conn := [(StdinState.poll 9 { ioSeqNo := 1, stdin }).sent]
    ∃ session data, (vm.allocateIo 2 5 7).1.findSession 1 = some session ∧
      session.ioClientToHyper (fun _ bytes => { n := bytes.length, err := none }) conn =
        data ++ [⟨1, []⟩] ∧
      ioMessages conn = data ++ [⟨1, []⟩] ∧
      (∀ m ∈ data, m.session = 1 ∧ m.message ≠ []) ∧
      data.flatMap (·.message) = [104, 101, 108, 108, 111, 10] ∧
      ∀ m ∈ data ++ [⟨1, []⟩], ∀ i, sendIoMessageWithConn
        ((fun _ bytes => { n := bytes.length, err := none } : Nat → List UInt8 → WriteResult) i) m =
          none :=
  stdin_reaches_hyperstart (Proxy.newVM "pod" "/run/ctl.sock" "/run/tty.sock") 2 (.inr rfl) 5 7
    [[104, 101], [108, 108, 111, 10]] (by decide) 9 (by decide)
    [(StdinState.poll 9 { ioSeqNo := 1, stdin := [[104, 101], [108, 108, 111, 10]] }).sent]
    (List.append_nil _) (fun _ bytes => { n := bytes.length, err := none }) fun _ _ => rfl

end Shim

end CcOciRuntime
