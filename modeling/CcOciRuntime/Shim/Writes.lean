import CcOciRuntime.Shim.Stdin
import CcOciRuntime.Wire.Encoders
import Mathlib.Data.List.Nodup
import Mathlib.Data.List.TakeDrop

/-!
# Writes that take a part

`write(2)` may take a part of what it is offered, and a signal may interrupt it. The shim writes the
messages for the proxy's control socket in a loop, which compares the count that `write` returned
with the number of the error `EINTR`; `sendProxyHyperMessage_iff` says for which answers of the
kernel each byte of the message is sent once. What it reads from stdin it writes with one call,
whatever that takes: `handleStdins_iff` says when the bytes sent are whole frames.

Reference: `send_proxy_hyper_message` (`shim/shim.c:199`), `handle_stdin` (`shim/shim.c:303`).
-/

namespace CcOciRuntime

namespace Shim

open Proxy (TtyMessage encodeTty length_encodeTty ioMessages ioMessages_encode)

/-- The answer to a `write(2)`: the number of bytes taken, or the error in `errno`. -/
inductive WriteReturn
  | took (n : Nat)
  | failed (errno : Nat)
  deriving DecidableEq

/-- The part of some bytes that a call has sent. -/
def WriteReturn.sent {α : Type*} (ret : WriteReturn) (bytes : List α) : List α :=
  match ret with
  | .took n => bytes.take n
  | .failed _ => []

/-! ## Control messages -/

/-- The error number of an interrupted call. Reference: `EINTR` of Linux. -/
def eintr : Nat := 4

/-- What a run of the loop leaves: the elements on the socket, and whether all were taken. -/
structure SendResult (α : Type*) where
  sent : List α
  complete : Bool
  deriving DecidableEq

/-- The loop of `send_proxy_hyper_message`, from its call `i` on; `write i n` is the answer to that
call when `n` bytes are offered. The fuel bounds the number of calls. Reference:
`shim/shim.c:232-243`. -/
def sendLoop {α : Type*} (write : Nat → Nat → WriteReturn) (msg : List α) :
    (fuel i offset : Nat) → List α → Option (SendResult α)
  | 0, _, _, _ => none
  | fuel + 1, i, offset, sent =>
    if offset < msg.length then
      match write i (msg.length - offset) with
      | .failed _ => some ⟨sent, false⟩
      | .took n =>
        let sent := sent ++ (msg.drop offset).take n
        -- the bytes are sent, and the offset stays
        if n = eintr then sendLoop write msg fuel (i + 1) offset sent
        else if n = 0 then some ⟨sent, false⟩
        else sendLoop write msg fuel (i + 1) (offset + n) sent
    else some ⟨sent, true⟩

/-- The text of a message for the agent; the arguments are C strings. Reference:
`shim/shim.c:222-224`. -/
def hyperPayload (hyperCmd json : String) : String :=
  String.ofList ("\x7b\"id\":\"hyper\",\"data\":\x7b\"hyperName\":\"".toList ++
    cString hyperCmd.toList ++ "\",\"data\":".toList ++ cString json.toList ++
    "\x7d\x7d".toList)

/-- The bytes on the control socket after a message, if the function returns within the fuel.
Reference: `send_proxy_hyper_message` (`shim/shim.c:199`). -/
def sendProxyHyperMessage (write : Nat → Nat → WriteReturn) (hyperCmd json : String) (fuel : Nat) :
    Option (SendResult UInt8) :=
  sendLoop write (Wire.getProxyCtlMsg (hyperPayload hyperCmd json)) fuel 0 0 []

theorem nul_not_mem_cString (cs : List Char) : nul ∉ cString cs := by
  intro hmem
  have hne := List.mem_takeWhile_imp (show nul ∈ cs.takeWhile (· ≠ nul) from hmem)
  exact absurd rfl (of_decide_eq_true hne)

/-- A payload has no zero. -/
theorem nul_not_mem_hyperPayload (hyperCmd json : String) :
    nul ∉ (hyperPayload hyperCmd json).toList := by
  have hname : nul ∉ "\x7b\"id\":\"hyper\",\"data\":\x7b\"hyperName\":\"".toList := by
    decide +kernel
  have hdata : nul ∉ "\",\"data\":".toList := by decide +kernel
  have hend : nul ∉ "\x7d\x7d".toList := by decide +kernel
  have htext : (hyperPayload hyperCmd json).toList = _ := String.toList_ofList
  rw [htext]
  exact List.not_mem_append (List.not_mem_append (List.not_mem_append (List.not_mem_append hname
    (nul_not_mem_cString _)) hdata) (nul_not_mem_cString _)) hend

/-- The message that is sent is the frame of its text. -/
theorem getProxyCtlMsg_hyperPayload (hyperCmd json : String) :
    Wire.getProxyCtlMsg (hyperPayload hyperCmd json) = Wire.frame (hyperPayload hyperCmd json) :=
  Wire.getProxyCtlMsg_eq_frame (nul_not_mem_hyperPayload hyperCmd json)

/-- An answer that ends the loop. -/
def WriteReturn.Stops (ret : WriteReturn) : Prop := ∀ n, ret = .took n → n = 0

/-- The answers from call `i` on, with `left` bytes to go, by which each byte is taken once: no call
fails and none takes as many bytes as the number of that error; only the last bytes may be taken by
a call of that count, when the call after it fails. -/
inductive EachOnce (write : Nat → Nat → WriteReturn) : Nat → Nat → Prop
  | done (i : Nat) : EachOnce write i 0
  | next {i left n : Nat} (hleft : 0 < left) (hwrite : write i left = .took n) (hpos : 0 < n)
      (hne : n ≠ eintr) (hrest : EachOnce write (i + 1) (left - n)) : EachOnce write i left
  | last {i left : Nat} (hleft : 0 < left) (hle : left ≤ eintr)
      (hwrite : write i left = .took eintr) (hnext : (write (i + 1) left).Stops) :
      EachOnce write i left

section
variable {α : Type*} {write : Nat → Nat → WriteReturn} {msg sent : List α} {fuel i offset n : Nat}
  {r : SendResult α}

theorem sendLoop_done (h : msg.length ≤ offset) :
    sendLoop write msg (fuel + 1) i offset sent = some ⟨sent, true⟩ := by
  rw [sendLoop, if_neg (Nat.not_lt.2 h)]

/-- A write of nothing ends the loop. -/
theorem sendLoop_stops (h : offset < msg.length) (hw : (write i (msg.length - offset)).Stops) :
    sendLoop write msg (fuel + 1) i offset sent = some ⟨sent, false⟩ := by
  rw [sendLoop, if_pos h]
  cases hret : write i (msg.length - offset) with
  | failed _ => rfl
  | took n =>
    rw [hw n hret]
    simp [eintr]

/-- A count of `EINTR` bytes is taken for an interruption. -/
theorem sendLoop_stays (h : offset < msg.length)
    (hw : write i (msg.length - offset) = .took eintr) :
    sendLoop write msg (fuel + 1) i offset sent =
      sendLoop write msg fuel (i + 1) offset (sent ++ (msg.drop offset).take eintr) := by
  rw [sendLoop, if_pos h, hw]
  rfl

/-- A write that took bytes. -/
theorem sendLoop_next (h : offset < msg.length) (hw : write i (msg.length - offset) = .took n)
    (hpos : 0 < n) (hne : n ≠ eintr) :
    sendLoop write msg (fuel + 1) i offset sent =
      sendLoop write msg fuel (i + 1) (offset + n) (sent ++ (msg.drop offset).take n) := by
  rw [sendLoop, if_pos h, hw]
  dsimp only
  rw [if_neg hne, if_neg (Nat.ne_of_gt hpos)]

/-- What one turn of the loop can do. -/
theorem sendLoop_cases (write : Nat → Nat → WriteReturn) (msg : List α) (i offset : Nat) :
    msg.length ≤ offset ∨ offset < msg.length ∧
      ((write i (msg.length - offset)).Stops ∨ write i (msg.length - offset) = .took eintr ∨
        ∃ n, write i (msg.length - offset) = .took n ∧ 0 < n ∧ n ≠ eintr) := by
  rcases Nat.lt_or_ge offset msg.length with h | h
  · refine .inr ⟨h, ?_⟩
    cases hret : write i (msg.length - offset) with
    | failed _ => exact .inl fun n hn => by cases hn
    | took n =>
      rcases Nat.eq_zero_or_pos n with rfl | hpos
      · exact .inl fun n hn => by cases hn; rfl
      · rcases Decidable.em (n = eintr) with rfl | hne
        · exact .inr (.inl rfl)
        · exact .inr (.inr ⟨n, rfl, hpos, hne⟩)
  · exact .inl h

/-- What is on the socket stays there. -/
theorem isPrefix_sendLoop (h : sendLoop write msg fuel i offset sent = some r) :
    sent <+: r.sent := by
  induction fuel generalizing i offset sent with
  | zero => cases h
  | succ fuel ih =>
    obtain hdone | ⟨hlt, hstops | hstays | ⟨n, hw, hpos, hne⟩⟩ := sendLoop_cases write msg i offset
    · rw [sendLoop_done hdone] at h
      cases h
      exact List.prefix_rfl
    · rw [sendLoop_stops hlt hstops] at h
      cases h
      exact List.prefix_rfl
    · rw [sendLoop_stays hlt hstays] at h
      exact (List.prefix_append _ _).trans (ih h)
    · rw [sendLoop_next hlt hw hpos hne] at h
      exact (List.prefix_append _ _).trans (ih h)

/-- The loop moves bytes without looking at them. -/
theorem sendLoop_map {β : Type*} (f : α → β) :
    sendLoop write (msg.map f) fuel i offset (sent.map f) =
      (sendLoop write msg fuel i offset sent).map fun r => ⟨r.sent.map f, r.complete⟩ := by
  induction fuel generalizing i offset sent with
  | zero => rfl
  | succ fuel ih =>
    have hlen : (msg.map f).length = msg.length := List.length_map f
    have hpart : ∀ n, sent.map f ++ ((msg.map f).drop offset).take n =
        (sent ++ (msg.drop offset).take n).map f := fun n => by
      rw [List.map_append, List.map_take, List.map_drop]
    obtain hdone | ⟨hlt, hstops | hstays | ⟨n, hw, hpos, hne⟩⟩ := sendLoop_cases write msg i offset
    · rw [sendLoop_done hdone, sendLoop_done (hlen ▸ hdone)]
      rfl
    · rw [sendLoop_stops hlt hstops, sendLoop_stops (hlen ▸ hlt) (hlen.symm ▸ hstops)]
      rfl
    · rw [sendLoop_stays hlt hstays, sendLoop_stays (hlen ▸ hlt) (hlen.symm ▸ hstays), hpart, ih]
    · rw [sendLoop_next hlt hw hpos hne, sendLoop_next (hlen ▸ hlt) (hlen.symm ▸ hw) hpos hne,
        hpart, ih]

/-- Writes that take each byte once send all. -/
theorem exists_sendLoop_of_eachOnce {left : Nat} (h : EachOnce write i left) :
    ∀ {offset : Nat}, left = msg.length - offset →
      ∃ fuel complete, sendLoop write msg fuel i offset (msg.take offset) =
        some ⟨msg, complete⟩ := by
  induction h with
  | done i =>
    intro offset hleft
    have hle : msg.length ≤ offset := Nat.le_of_sub_eq_zero hleft.symm
    refine ⟨1, true, ?_⟩
    rw [sendLoop_done hle, List.take_of_length_le hle]
  | @next i left n hpos hwrite hn hne _ ih =>
    intro offset hleft
    subst hleft
    obtain ⟨fuel, complete, hrun⟩ := @ih (offset + n) (Nat.sub_sub _ _ _)
    refine ⟨fuel + 1, complete, ?_⟩
    rw [sendLoop_next (Nat.lt_of_sub_pos hpos) hwrite hn hne, ← List.take_add, hrun]
  | @last i left hpos hle hwrite hnext =>
    intro offset hleft
    subst hleft
    have hlt : offset < msg.length := Nat.lt_of_sub_pos hpos
    refine ⟨2, false, ?_⟩
    rw [sendLoop_stays hlt hwrite, ← List.take_add, sendLoop_stops hlt hnext,
      List.take_of_length_le (Nat.sub_le_iff_le_add'.1 hle)]

/-- An element that is sent a second time shows. -/
theorem not_isPrefix_repeated (hnd : msg.Nodup) {k : Nat} (hlt : offset < msg.length)
    (hk : offset < k) (hn : 0 < n) : ¬msg.take k ++ (msg.drop offset).take n <+: msg := by
  intro h
  have hdisjoint := List.disjoint_of_nodup_append (hnd.sublist h.sublist)
  refine @hdisjoint msg[offset] ?_ ?_
  · exact List.mem_take_iff_getElem.2 ⟨offset, Nat.lt_min.2 ⟨hk, hlt⟩, rfl⟩
  · rw [List.drop_eq_getElem_cons hlt]
    obtain ⟨n, rfl⟩ := Nat.exists_eq_succ_of_ne_zero (Nat.ne_of_gt hn)
    exact List.mem_cons_self

/-- A loop that is behind what it has sent leaves the message whole only if it ends there. -/
theorem stops_of_behind (hnd : msg.Nodup) {k : Nat} (hlt : offset < msg.length) (hk : offset < k)
    (h : sendLoop write msg fuel i offset (msg.take k) = some r) (hr : r.sent = msg) :
    msg.length ≤ k ∧ (write i (msg.length - offset)).Stops := by
  cases fuel with
  | zero => cases h
  | succ fuel =>
    obtain hdone | ⟨-, hstops | hstays | ⟨n, hw, hpos, hne⟩⟩ := sendLoop_cases write msg i offset
    · exact absurd hlt (Nat.not_lt.2 hdone)
    · rw [sendLoop_stops hlt hstops] at h
      cases h
      exact ⟨(List.take_eq_self_iff _).1 hr, hstops⟩
    · rw [sendLoop_stays hlt hstays] at h
      have hsent := isPrefix_sendLoop h
      rw [hr] at hsent
      exact absurd hsent (not_isPrefix_repeated hnd hlt hk (by decide))
    · rw [sendLoop_next hlt hw hpos hne] at h
      have hsent := isPrefix_sendLoop h
      rw [hr] at hsent
      exact absurd hsent (not_isPrefix_repeated hnd hlt hk hpos)

/-- Only those do, for bytes that differ. -/
theorem eachOnce_of_sendLoop (hnd : msg.Nodup)
    (h : sendLoop write msg fuel i offset (msg.take offset) = some r) (hr : r.sent = msg) :
    EachOnce write i (msg.length - offset) := by
  induction fuel generalizing i offset with
  | zero => cases h
  | succ fuel ih =>
    obtain hdone | ⟨hlt, hstops | hstays | ⟨n, hw, hpos, hne⟩⟩ := sendLoop_cases write msg i offset
    · rw [Nat.sub_eq_zero_of_le hdone]
      exact .done i
    · rw [sendLoop_stops hlt hstops] at h
      cases h
      exact absurd ((List.take_eq_self_iff _).1 hr) (Nat.not_le.2 hlt)
    · rw [sendLoop_stays hlt hstays, ← List.take_add] at h
      have hbehind := stops_of_behind hnd hlt (Nat.lt_add_of_pos_right (by decide)) h hr
      exact .last (Nat.sub_pos_of_lt hlt) (Nat.sub_le_iff_le_add'.2 hbehind.1) hstays hbehind.2
    · rw [sendLoop_next hlt hw hpos hne, ← List.take_add] at h
      refine .next (Nat.sub_pos_of_lt hlt) hw hpos hne ?_
      rw [Nat.sub_sub]
      exact ih h

end

/-- The loop returns, and every byte of the message, told apart by its place in it, is on the socket
once and in order. -/
def SendsOnce (write : Nat → Nat → WriteReturn) (msg : List UInt8) : Prop :=
  ∃ fuel r, sendLoop write msg.zipIdx fuel 0 0 [] = some r ∧ r.sent = msg.zipIdx

/-- When a message is sent once. -/
theorem sendsOnce_iff {write : Nat → Nat → WriteReturn} {msg : List UInt8} :
    SendsOnce write msg ↔ EachOnce write 0 msg.length := by
  constructor
  · rintro ⟨fuel, r, hrun, hsent⟩
    have hnd : msg.zipIdx.Nodup := by
      refine List.Nodup.of_map Prod.snd ?_
      rw [List.zipIdx_map_snd]
      exact List.nodup_range'
    have honce := eachOnce_of_sendLoop hnd hrun hsent
    rwa [List.length_zipIdx, Nat.sub_zero] at honce
  · intro h
    obtain ⟨fuel, complete, hrun⟩ :=
      exists_sendLoop_of_eachOnce h (show msg.length = msg.zipIdx.length - 0 by simp)
    exact ⟨fuel, _, hrun, rfl⟩

/-- What is on the socket then is the message. -/
theorem SendsOnce.sent {write : Nat → Nat → WriteReturn} {msg : List UInt8}
    (h : SendsOnce write msg) :
    ∃ fuel complete, sendLoop write msg fuel 0 0 [] = some ⟨msg, complete⟩ := by
  obtain ⟨fuel, r, hrun, hsent⟩ := h
  have hmap := @sendLoop_map _ write msg.zipIdx [] fuel 0 0 _ Prod.fst
  rw [List.zipIdx_map_fst, hrun, Option.map_some, hsent, List.zipIdx_map_fst] at hmap
  exact ⟨fuel, r.complete, hmap⟩

/-- **A control message is sent once** exactly if no write of it is interrupted or fails and none
takes as many bytes as the number of the error `EINTR` (`EachOnce`); the socket then holds the frame
of the message. -/
theorem sendProxyHyperMessage_iff (write : Nat → Nat → WriteReturn) (hyperCmd json : String) :
    let payload := hyperPayload hyperCmd json
    (SendsOnce write (Wire.getProxyCtlMsg payload) ∧
      ∃ fuel complete, sendProxyHyperMessage write hyperCmd json fuel =
        some ⟨Wire.frame payload, complete⟩) ↔
    EachOnce write 0 (Wire.frame payload).length := by
  dsimp only
  rw [← getProxyCtlMsg_hyperPayload, sendsOnce_iff]
  constructor
  · exact fun h => h.1
  · intro h
    exact ⟨h, (sendsOnce_iff.2 h).sent⟩

/-- Two kernels that take every byte that they are offered again. The first write of one takes four
bytes: they are sent twice. The first write of the other is interrupted: nothing is sent. -/
theorem sendProxyHyperMessage_four_bytes :
    let four : Nat → Nat → WriteReturn := fun i n => if i = 0 then .took 4 else .took n
    let interrupted : Nat → Nat → WriteReturn :=
      fun i n => if i = 0 then .failed eintr else .took n
    let frame := Wire.frame (hyperPayload "ping" "null")
    (sendProxyHyperMessage four "ping" "null" 3 = some ⟨frame.take 4 ++ frame, true⟩ ∧
      ¬SendsOnce four (Wire.getProxyCtlMsg (hyperPayload "ping" "null"))) ∧
    sendProxyHyperMessage interrupted "ping" "null" 3 = some ⟨[], false⟩ ∧
      ¬SendsOnce interrupted (Wire.getProxyCtlMsg (hyperPayload "ping" "null")) := by
  refine ⟨⟨by decide +kernel, fun h => ?_⟩, by decide +kernel, fun h => ?_⟩
  · cases sendsOnce_iff.1 h with
    | next _ hwrite _ hne _ =>
      cases hwrite
      exact hne rfl
    | last _ hle _ _ => exact absurd hle (by decide +kernel)
  · cases sendsOnce_iff.1 h with
    | next _ hwrite _ _ _ => cases hwrite
    | last _ _ hwrite _ => cases hwrite

/-! ## Stdin -/

/-- What a read of stdin returns, with nothing at its end, and what is left. -/
def readStdin (stdin : List (List UInt8)) : List UInt8 × List (List UInt8) :=
  (readSome bufsiz stdin).getD ([], stdin)

/-- `handle_stdin` with `write n` for the answer of the kernel to a write of `n` bytes: it takes any
count for the whole. Reference: `shim/shim.c:303-336`. -/
def StdinState.handleStdinWith (write : Nat → WriteReturn) (st : StdinState) : StdinState :=
  let (data, stdin) := readStdin st.stdin
  let frame := stdinFrame st.ioSeqNo data
  { st with
    stdin
    polled := st.polled && !data.isEmpty
    sent := st.sent ++ (write frame.length).sent frame }

/-- Calls of `handle_stdin`, the first of which is answered by `write i`. -/
def StdinState.calls (write : Nat → Nat → WriteReturn) : (i n : Nat) → StdinState → StdinState
  | _, 0, st => st
  | i, n + 1, st => StdinState.calls write (i + 1) n (st.handleStdinWith (write i))

/-- What those calls read. -/
def stdinReads : Nat → List (List UInt8) → List (List UInt8)
  | 0, _ => []
  | n + 1, stdin => (readStdin stdin).1 :: stdinReads n (readStdin stdin).2

/-- The answer to a write takes all of `n` bytes. -/
def WriteReturn.Whole (ret : WriteReturn) (n : Nat) : Prop := ∃ k, ret = .took k ∧ n ≤ k

theorem length_readStdin_le (stdin : List (List UInt8)) : (readStdin stdin).1.length ≤ bufsiz := by
  cases stdin with
  | nil => exact Nat.zero_le _
  | cons c cs => exact List.length_take_le _ _

theorem length_le_of_mem_stdinReads {n : Nat} {stdin : List (List UInt8)} {data : List UInt8}
    (h : data ∈ stdinReads n stdin) : data.length ≤ bufsiz := by
  induction n generalizing stdin with
  | zero => cases h
  | succ n ih =>
    rcases List.mem_cons.1 h with rfl | h
    · exact length_readStdin_le stdin
    · exact ih h

theorem WriteReturn.sent_isPrefix {α : Type*} (ret : WriteReturn) (bytes : List α) :
    ret.sent bytes <+: bytes := by
  cases ret with
  | took n => exact List.take_prefix n bytes
  | failed _ => exact List.nil_prefix

/-- When a write takes all. -/
theorem WriteReturn.sent_eq_self_iff {α : Type*} {ret : WriteReturn} {bytes : List α}
    (hne : bytes ≠ []) : ret.sent bytes = bytes ↔ ret.Whole bytes.length := by
  cases ret with
  | took n =>
    refine (List.take_eq_self_iff bytes).trans ⟨fun h => ⟨n, rfl, h⟩, ?_⟩
    rintro ⟨k, ⟨⟩, hle⟩
    exact hle
  | failed _ =>
    refine ⟨fun h => absurd h.symm hne, ?_⟩
    rintro ⟨k, ⟨⟩, -⟩

theorem length_stdinFrame (ioSeqNo : UInt64) (data : List UInt8) :
    (stdinFrame ioSeqNo data).length = data.length + streamHeaderSize := by
  rw [stdinFrame, List.length_append, List.length_append, setBigEndian64_eq, setBigEndian32_eq,
    length_beBytes, length_beBytes, Nat.add_comm]
  rfl

/-- Writes that take the whole frame are those of `handleStdin`. -/
theorem handleStdinWith_eq_handleStdin {write : Nat → WriteReturn} {st : StdinState}
    (h : ∀ n, (write n).Whole n) : st.handleStdinWith write = st.handleStdin := by
  have hsent : ∀ data, (write (stdinFrame st.ioSeqNo data).length).sent
      (stdinFrame st.ioSeqNo data) = stdinFrame st.ioSeqNo data := fun data => by
    refine (WriteReturn.sent_eq_self_iff ?_).2 (h _)
    exact List.ne_nil_of_length_pos (by rw [length_stdinFrame]; exact Nat.succ_pos _)
  rw [StdinState.handleStdinWith, StdinState.handleStdin, readStdin]
  rcases readSome bufsiz st.stdin with - | ⟨- | ⟨b, bs⟩, stdin⟩
  · simp [hsent]
  · simp [hsent]
  · simp [hsent]

/-- What is sent of the frames of some reads. -/
def framesTaken (write : Nat → Nat → WriteReturn) (ioSeqNo : UInt64) :
    Nat → List (List UInt8) → List UInt8
  | _, [] => []
  | i, data :: reads =>
    let frame := stdinFrame ioSeqNo data
    (write i frame.length).sent frame ++ framesTaken write ioSeqNo (i + 1) reads

section
variable {write : Nat → Nat → WriteReturn} {ioSeqNo : UInt64} {i n : Nat}
  {reads : List (List UInt8)}

theorem sent_calls (st : StdinState) :
    (st.calls write i n).sent =
      st.sent ++ framesTaken write st.ioSeqNo i (stdinReads n st.stdin) := by
  induction n generalizing i st with
  | zero => exact (List.append_nil _).symm
  | succ n ih =>
    rw [StdinState.calls, ih, stdinReads, framesTaken, ← List.append_assoc]
    rfl

theorem length_framesTaken_le : (framesTaken write ioSeqNo i reads).length ≤
    (reads.flatMap (stdinFrame ioSeqNo)).length := by
  induction reads generalizing i with
  | nil => exact Nat.le_refl _
  | cons data reads ih =>
    rw [framesTaken, List.flatMap_cons, List.length_append, List.length_append]
    exact Nat.add_le_add (WriteReturn.sent_isPrefix _ _).length_le ih

/-- No byte is missing exactly if every write takes its whole frame: each sends at most its frame,
so what one of them leaves out, no other can make up for. -/
theorem framesTaken_eq_iff : framesTaken write ioSeqNo i reads =
      reads.flatMap (stdinFrame ioSeqNo) ↔
    ∀ k data, reads[k]? = some data →
      (write (i + k) (data.length + streamHeaderSize)).Whole (data.length + streamHeaderSize) := by
  induction reads generalizing i with
  | nil => exact ⟨fun _ k data h => absurd h (Option.some_ne_none data).symm, fun _ => rfl⟩
  | cons data reads ih =>
    have hone := @WriteReturn.sent_eq_self_iff _ (write i (stdinFrame ioSeqNo data).length)
      (stdinFrame ioSeqNo data)
      (List.ne_nil_of_length_pos (by rw [length_stdinFrame]; exact Nat.succ_pos _))
    have hsplit : framesTaken write ioSeqNo i (data :: reads) =
        (data :: reads).flatMap (stdinFrame ioSeqNo) ↔
        (write i (stdinFrame ioSeqNo data).length).sent (stdinFrame ioSeqNo data) =
          stdinFrame ioSeqNo data ∧
        framesTaken write ioSeqNo (i + 1) reads = reads.flatMap (stdinFrame ioSeqNo) := by
      rw [framesTaken, List.flatMap_cons]
      refine ⟨fun h => ?_, fun h => by rw [h.1, h.2]⟩
      have hpart := (WriteReturn.sent_isPrefix (write i (stdinFrame ioSeqNo data).length)
        (stdinFrame ioSeqNo data)).length_le
      have hrest := @length_framesTaken_le write ioSeqNo (i + 1) reads
      have hlen := congrArg List.length h
      rw [List.length_append, List.length_append] at hlen
      exact List.append_inj h (by omega)
    rw [hsplit, hone, ih, length_stdinFrame]
    constructor
    · rintro ⟨hfirst, hrest⟩ k d hk
      cases k with
      | zero =>
        cases hk
        exact hfirst
      | succ k =>
        have := hrest k d hk
        rwa [Nat.add_assoc, Nat.add_comm 1] at this
    · intro h
      refine ⟨h 0 data rfl, fun k d hk => ?_⟩
      rw [Nat.add_assoc, Nat.add_comm 1]
      exact h (k + 1) d hk

end

/-- **The bytes of stdin are sent in whole frames** exactly if every write takes the whole of what
`handle_stdin` offers it. The bytes that the calls add are then the frames of what they read, and
the proxy reads these messages from them in whatever chunks they arrive. -/
theorem handleStdins_iff (write : Nat → Nat → WriteReturn) (n : Nat) (st : StdinState) :
    let messages : List TtyMessage := (stdinReads n st.stdin).map fun data => ⟨st.ioSeqNo, data⟩
    ((st.calls write 0 n).sent = st.sent ++ messages.flatMap encodeTty ∧
      ∀ conn : List (List UInt8), st.sent ++ conn.flatten = (st.calls write 0 n).sent →
        ioMessages conn = messages) ↔
    ∀ i data, (stdinReads n st.stdin)[i]? = some data →
      (write i (data.length + streamHeaderSize)).Whole (data.length + streamHeaderSize) := by
  intro messages
  have hframes : messages.flatMap encodeTty =
      (stdinReads n st.stdin).flatMap (stdinFrame st.ioSeqNo) := by
    rw [List.flatMap_map]
    exact List.flatMap_congr fun data hdata =>
      (stdinFrame_eq (length_le_of_mem_stdinReads hdata) st.ioSeqNo).symm
  have hmessages : ∀ m ∈ messages, m.WellFormed := by
    intro m hm
    obtain ⟨data, hdata, rfl⟩ := List.mem_map.1 hm
    exact wellFormed_of_le_bufsiz (length_le_of_mem_stdinReads hdata)
  have hwhole := @framesTaken_eq_iff write st.ioSeqNo 0 (stdinReads n st.stdin)
  simp only [Nat.zero_add] at hwhole
  rw [sent_calls, hframes, List.append_right_inj, ← hwhole]
  refine ⟨fun h => h.1, fun h => ⟨h, fun conn hconn => ?_⟩⟩
  refine ioMessages_encode hmessages ?_
  rw [hframes, ← h]
  exact List.append_cancel_left hconn

/-- The first of two writes takes a byte less than the frame: the last byte read is never sent, and
the proxy reads a message that ends with a byte of the second frame's header. -/
theorem handleStdins_short_write :
    let write : Nat → Nat → WriteReturn := fun i n => if i = 0 then .took (n - 1) else .took n
    let st : StdinState := { ioSeqNo := 1, stdin := [[104, 105], [10]] }
    stdinReads 2 st.stdin = [[104, 105], [10]] ∧
    (st.calls write 0 2).sent ≠ encodeTty ⟨1, [104, 105]⟩ ++ encodeTty ⟨1, [10]⟩ ∧
    ioMessages [(st.calls write 0 2).sent] = [⟨1, [104, 0]⟩] :=
  ⟨by decide +kernel, by decide +kernel, by decide +kernel⟩

end Shim

end CcOciRuntime
