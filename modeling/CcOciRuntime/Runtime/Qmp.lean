import CcOciRuntime.Lib.CText
import CcOciRuntime.Lib.Utf8

/-!
# Messages of the hypervisor

The hypervisor answers on a stream socket; each of its messages ends with CR LF. The client reads
chunks, takes the complete messages off the front of what it has, and stops when it has as many as
it expects: the count has to be met exactly after a chunk, and nothing may be left over.

What it has after some chunks is a function of their bytes (`recvLoop_data`): the pieces of the text
that they are, up to the first zero byte. `qmpMsgRecv_messages` is the stream of the expected
messages, and `qmpMsgRecv_returns_iff` says for which streams with more in them the client returns
when the expected number is complete.

Reference: `cc_oci_qmp_msg_recv` (`src/network.c:104`).
-/

namespace CcOciRuntime

namespace Runtime

/-- Reference: `CC_OCI_NET_BUF_SIZE` (`src/network.c:47`). -/
def netBufSize : Nat := 2048

/-- Reference: `CC_OCI_MSG_SEPARATOR` (`src/network.c:50`). -/
def msgSeparator : List UInt8 := [13, 10]

/-- What one call of `g_socket_receive` delivers. -/
structure Chunk where
  bytes : List UInt8
  nonempty : bytes ≠ []
  fits : bytes.length ≤ netBufSize
  deriving DecidableEq

/-- The answer to a `g_socket_receive`. -/
inductive Receive
  | data (chunk : Chunk)
  | closed
  | failed
  deriving DecidableEq

/-- How a call of the receiver ends. -/
inductive RecvEnd
  | returned (ok : Bool)
  /-- an assertion does not hold -/
  | aborted
  /-- the message of an error is read that is not set -/
  | crashed
  /-- it waits for data that does not come -/
  | blocked
  deriving DecidableEq

/-- The end of a call, the messages in its list, and what it has left on the socket. -/
structure RecvResult where
  ending : RecvEnd
  msgs : List (List UInt8)
  socket : List Receive
  deriving DecidableEq

/-- The loop that takes complete messages out of the buffer; `total` is the number of all bytes
received. The fuel bounds the number of messages. Reference: `src/network.c:159-200`. -/
def takeMessages (total : Nat) :
    Nat → List UInt8 → List (List UInt8) → List UInt8 × List (List UInt8)
  | 0, received, msgs => (received, msgs)
  | fuel + 1, received, msgs =>
    if received = [] then (received, msgs)
    else
      match strstrLen total received msgSeparator with
      | none => (received, msgs)
      | some (msg, rest) => takeMessages total fuel rest (msgs ++ [msg])

/-- The loop over the chunks. Reference: `src/network.c:128-211`. -/
def recvLoop (expectedCount : Nat) (received : List UInt8) (total : Nat)
    (msgs : List (List UInt8)) : List Receive → RecvResult
  | [] => ⟨.blocked, msgs, []⟩
  | .closed :: socket => ⟨.crashed, msgs, socket⟩
  | .failed :: socket => ⟨.returned false, msgs, socket⟩
  | .data chunk :: socket =>
    let received := received ++ chunk.bytes
    let total := total + chunk.bytes.length
    let (received, msgs) := takeMessages total received.length received msgs
    if msgs.length = expectedCount then
      if received = [] then ⟨.returned true, msgs, socket⟩ else ⟨.aborted, msgs, socket⟩
    else recvLoop expectedCount received total msgs socket

/-- Reference: `cc_oci_qmp_msg_recv` (`src/network.c:104`). -/
def qmpMsgRecv (expectedCount : Nat) (socket : List Receive) : RecvResult :=
  if expectedCount = 0 then ⟨.aborted, [], socket⟩ else recvLoop expectedCount [] 0 [] socket

/-! ## What the client has -/

/-- The bytes of some chunks. -/
def bytesOf (chunks : List Chunk) : List UInt8 := chunks.flatMap Chunk.bytes

@[simp] theorem bytesOf_nil : bytesOf [] = [] := rfl

@[simp] theorem bytesOf_cons (chunk : Chunk) (chunks : List Chunk) :
    bytesOf (chunk :: chunks) = chunk.bytes ++ bytesOf chunks := rfl

@[simp] theorem bytesOf_append (chunks chunks' : List Chunk) :
    bytesOf (chunks ++ chunks') = bytesOf chunks ++ bytesOf chunks' := List.flatMap_append

theorem msgSeparator_ne_nil : msgSeparator ≠ [] := by decide

/-- The loop takes the pieces of the text in the buffer and leaves what stands behind it. -/
theorem takeMessages_eq {total fuel : Nat} {text tail : List UInt8} {msgs : List (List UInt8)}
    (h : 0 ∉ text) (htail : NulTail tail) (htotal : text.length ≤ total)
    (hfuel : text.length ≤ fuel) :
    takeMessages total fuel (text ++ tail) msgs =
      ((pieces msgSeparator text).2 ++ tail, msgs ++ (pieces msgSeparator text).1) := by
  induction fuel generalizing text msgs with
  | zero =>
    obtain rfl := List.length_eq_zero_iff.1 (Nat.le_zero.1 hfuel)
    exact Prod.ext rfl (List.append_nil msgs).symm
  | succ fuel ih =>
    have hsearch := strstrLen_append msgSeparator h htail htotal
    rw [takeMessages, hsearch]
    cases hcut : text.dropInfix? msgSeparator with
    | none =>
      rw [pieces_of_none hcut, Option.map_none, List.append_nil, ite_self]
    | some r =>
      obtain ⟨msg, rest⟩ := r
      obtain ⟨htext, -⟩ := dropInfix?_eq_some.1 hcut
      have hlt := length_lt_of_dropInfix? msgSeparator_ne_nil hcut
      have hne : ¬ text ++ tail = [] := by
        intro hnil
        rw [(List.append_eq_nil_iff.1 hnil).1] at hlt
        exact Nat.not_lt_zero _ hlt
      have hrest : 0 ∉ rest := fun hmem => h (htext ▸ List.mem_append_right _ hmem)
      rw [if_neg hne, pieces_of_some msgSeparator_ne_nil hcut]
      refine (ih hrest (by omega) (by omega)).trans ?_
      rw [List.append_assoc, List.singleton_append]

/-- What the client has once the bytes `bytes` have arrived: the messages in its list and the rest
in its buffer. -/
def collected (bytes : List UInt8) : List (List UInt8) × List UInt8 :=
  ((pieces msgSeparator (cBytes bytes)).1,
    (pieces msgSeparator (cBytes bytes)).2 ++ bytes.drop (cBytes bytes).length)

theorem collected_append {text tail : List UInt8} (h : 0 ∉ text) (htail : NulTail tail) :
    collected (text ++ tail) =
      ((pieces msgSeparator text).1, (pieces msgSeparator text).2 ++ tail) := by
  rw [collected, cBytes_append h htail, List.drop_left]

/-- **One chunk** takes what the client has of the bytes before to what it has of the bytes with the
chunk. -/
theorem takeMessages_collected (bytes more : List UInt8) {total fuel : Nat}
    (htotal : (bytes ++ more).length ≤ total)
    (hfuel : ((collected bytes).2 ++ more).length ≤ fuel) :
    takeMessages total fuel ((collected bytes).2 ++ more) (collected bytes).1 =
      ((collected (bytes ++ more)).2, (collected (bytes ++ more)).1) := by
  obtain ⟨tail, hbytes, htail⟩ := exists_cBytes_append bytes
  have hzero := zero_not_mem_cBytes bytes
  generalize cBytes bytes = text at hbytes hzero
  subst hbytes
  have hpieces := flatMap_pieces msgSeparator_ne_nil text
  have hrest : 0 ∉ (pieces msgSeparator text).2 := fun hmem =>
    hzero (mem_of_mem_pieces_snd msgSeparator_ne_nil hmem)
  have hle : (pieces msgSeparator text).2.length ≤ text.length := by
    conv_rhs => rw [← hpieces, List.length_append]
    exact Nat.le_add_left _ _
  rw [collected_append hzero htail] at hfuel ⊢
  simp only [List.length_append] at htotal hfuel
  cases tail with
  | nil =>
    -- the text goes on with what has arrived
    obtain ⟨tail, hmore, htail⟩ := exists_cBytes_append more
    have hmoreZero := zero_not_mem_cBytes more
    generalize cBytes more = text' at hmore hmoreZero
    subst hmore
    simp only [List.length_append, List.append_nil] at htotal hfuel ⊢
    rw [← List.append_assoc, ← List.append_assoc,
      collected_append (List.not_mem_append hzero hmoreZero) htail,
      takeMessages_eq (List.not_mem_append hrest hmoreZero) htail
        (by rw [List.length_append]; omega) (by rw [List.length_append]; omega),
      pieces_append msgSeparator_ne_nil text text']
  | cons b tail =>
    -- a zero byte has arrived before, and nothing behind it is looked at
    have htail' : NulTail (b :: tail ++ more) := htail
    rw [List.append_assoc, List.append_assoc, collected_append hzero htail',
      takeMessages_eq hrest htail' (by omega) (by omega), pieces_rest msgSeparator_ne_nil,
      List.append_nil]

/-- A turn of the loop over the chunks. -/
theorem recvLoop_data (n : Nat) (bytes : List UInt8) (chunk : Chunk) (socket : List Receive) :
    recvLoop n (collected bytes).2 bytes.length (collected bytes).1 (.data chunk :: socket) =
      let now := collected (bytes ++ chunk.bytes)
      if now.1.length = n then
        if now.2 = [] then ⟨.returned true, now.1, socket⟩ else ⟨.aborted, now.1, socket⟩
      else recvLoop n now.2 (bytes ++ chunk.bytes).length now.1 socket := by
  rw [recvLoop]
  dsimp only
  rw [takeMessages_collected bytes chunk.bytes (by rw [List.length_append]) (Nat.le_refl _),
    List.length_append]

/-! ## Complete messages -/

/-- The messages of a stream that are complete, by their separators. -/
def completeMessages (bytes : List UInt8) : List (List UInt8) := (pieces msgSeparator bytes).1

theorem completeMessages_isPrefix (bytes more : List UInt8) :
    completeMessages bytes <+: completeMessages (bytes ++ more) := by
  rw [completeMessages, completeMessages, pieces_append msgSeparator_ne_nil]
  exact List.prefix_append _ _

/-- The client sees no more messages than are complete. -/
theorem length_collected_le_complete (bytes : List UInt8) :
    (collected bytes).1.length ≤ (completeMessages bytes).length := by
  obtain ⟨tail, hbytes, -⟩ := exists_cBytes_append bytes
  conv_rhs => rw [hbytes]
  exact (completeMessages_isPrefix (cBytes bytes) tail).length_le

/-- Chunks that do not complete the expected number are read. -/
theorem recvLoop_of_lt {n : Nat} {bytes : List UInt8} {pre : List Chunk}
    (h : (completeMessages (bytes ++ bytesOf pre)).length < n) (socket : List Receive) :
    recvLoop n (collected bytes).2 bytes.length (collected bytes).1
        (pre.map .data ++ socket) =
      recvLoop n (collected (bytes ++ bytesOf pre)).2 (bytes ++ bytesOf pre).length
        (collected (bytes ++ bytesOf pre)).1 socket := by
  induction pre generalizing bytes with
  | nil => rw [bytesOf_nil, List.append_nil, List.map_nil, List.nil_append]
  | cons chunk pre ih =>
    rw [bytesOf_cons, ← List.append_assoc] at h ⊢
    have hseen := length_collected_le_complete (bytes ++ chunk.bytes)
    have hmore := (completeMessages_isPrefix (bytes ++ chunk.bytes) (bytesOf pre)).length_le
    rw [List.map_cons, List.cons_append, recvLoop_data]
    dsimp only
    rw [if_neg (by omega), ih h]

/-- The call up to the chunk behind `pre`, if the messages of `pre` are too few. -/
theorem qmpMsgRecv_of_lt {n : Nat} {pre : List Chunk}
    (h : (completeMessages (bytesOf pre)).length < n) (chunk : Chunk) (socket : List Receive) :
    qmpMsgRecv n (pre.map .data ++ .data chunk :: socket) =
      let now := collected (bytesOf pre ++ chunk.bytes)
      if now.1.length = n then
        if now.2 = [] then ⟨.returned true, now.1, socket⟩ else ⟨.aborted, now.1, socket⟩
      else recvLoop n now.2 (bytesOf pre ++ chunk.bytes).length now.1 socket := by
  have hn : ¬ n = 0 := by omega
  have hread := @recvLoop_of_lt n [] pre h (.data chunk :: socket)
  rw [qmpMsgRecv, if_neg hn]
  exact hread.trans (recvLoop_data n (bytesOf pre) chunk socket)

/-! ## The expected messages -/

/-- A message without the separator ends at the separator that is written behind it. -/
theorem dropInfix?_message {m : List UInt8} (h : ¬ msgSeparator <:+: m) :
    (m ++ msgSeparator).dropInfix? msgSeparator = some (m, []) := by
  refine dropInfix?_eq_some.2 ⟨(List.append_nil _).symm, fun before after heq => ?_⟩
  by_contra hlt
  rw [Nat.not_le] at hlt
  have hlen := congrArg List.length heq
  simp only [List.length_append, msgSeparator, List.length_cons, List.length_nil] at hlen
  -- an earlier one lies in the message, or its LF is the CR behind the message
  rcases Nat.lt_or_ge (before.length + 1) m.length with hin | hat
  · refine h ?_
    have hpre : before ++ msgSeparator <+: m := by
      refine List.prefix_of_prefix_length_le ⟨after, heq.symm⟩ (List.prefix_append m _) ?_
      simp only [List.length_append, msgSeparator, List.length_cons, List.length_nil]
      omega
    exact (List.suffix_append before msgSeparator).isInfix.trans hpre.isInfix
  · have hm : m.length = before.length + 1 := by omega
    have hget := congrArg (fun l => l[m.length]?) heq
    rw [List.getElem?_append_right (Nat.le_refl _), List.append_assoc,
      List.getElem?_append_right (by omega), Nat.sub_self,
      show m.length - before.length = 1 by omega] at hget
    exact absurd hget (by simp [msgSeparator])

/-- A stream of messages has fewer of them complete before its end. -/
theorem length_completeMessages_lt {msgs : List (List UInt8)} {bytes more : List UInt8}
    (h : pieces msgSeparator (bytes ++ more) = (msgs, [])) (hmore : more ≠ []) :
    (completeMessages bytes).length < msgs.length := by
  rw [pieces_append msgSeparator_ne_nil] at h
  have hmsgs := congrArg Prod.fst h
  have hrest := congrArg Prod.snd h
  dsimp only at hmsgs hrest
  have hall := flatMap_pieces msgSeparator_ne_nil ((pieces msgSeparator bytes).2 ++ more)
  rw [hrest, List.append_nil] at hall
  rw [← hmsgs, List.length_append, completeMessages]
  suffices hpos : 0 < (pieces msgSeparator ((pieces msgSeparator bytes).2 ++ more)).1.length by
    omega
  refine List.length_pos_iff.2 fun hnil => hmore ?_
  rw [hnil, List.flatMap_nil] at hall
  exact (List.append_eq_nil_iff.1 hall.symm).2

/-- **Messages are reassembled.** Whatever chunks the stream of `msgs` is cut into, the client that
expects as many messages gets these, reads the stream to its end and no further. -/
theorem qmpMsgRecv_messages (msgs : List (List UInt8)) (hne : 1 ≤ msgs.length)
    (hmsgs : ∀ m ∈ msgs, 0 ∉ m ∧ ¬ msgSeparator <:+: m) (chunks : List Chunk)
    (hchunks : bytesOf chunks = msgs.flatMap (· ++ msgSeparator)) (socket : List Receive) :
    qmpMsgRecv msgs.length (chunks.map .data ++ socket) = ⟨.returned true, msgs, socket⟩ := by
  have hpieces : pieces msgSeparator (bytesOf chunks) = (msgs, []) := by
    rw [hchunks]
    exact pieces_flatMap msgSeparator_ne_nil fun m hm => dropInfix?_message (hmsgs m hm).2
  have hzero : 0 ∉ bytesOf chunks := by
    rw [hchunks]
    intro hmem
    obtain ⟨m, hm, hin⟩ := List.mem_flatMap.1 hmem
    rcases List.mem_append.1 hin with hin | hin
    · exact (hmsgs m hm).1 hin
    · exact absurd hin (by decide)
  rcases List.eq_nil_or_concat chunks with rfl | ⟨pre, chunk, rfl⟩
  · rw [bytesOf_nil, pieces_of_none (by decide)] at hpieces
    rw [← (Prod.mk.inj hpieces).1] at hne
    exact absurd hne (by decide)
  · rw [List.concat_eq_append, bytesOf_append, bytesOf_cons, bytesOf_nil, List.append_nil]
      at hpieces hzero
    have hcollected : collected (bytesOf pre ++ chunk.bytes) = (msgs, []) := by
      rw [collected, cBytes_of_not_mem hzero, hpieces, List.drop_length]
      rfl
    have hlt := length_completeMessages_lt hpieces chunk.nonempty
    rw [List.concat_eq_append, List.map_append, List.append_assoc, List.map_cons, List.map_nil,
      List.singleton_append, qmpMsgRecv_of_lt hlt, hcollected]
    simp only [if_true]

/-- A reply and an empty message, cut within a separator. -/
theorem qmpMsgRecv_cut_separator :
    let reply := utf8 "\x7b\"return\": \x7b\x7d\x7d".toList
    let chunks : List Chunk :=
      [⟨utf8 "\x7b\"return\"".toList, by decide, by decide⟩,
        ⟨utf8 ": \x7b\x7d\x7d\r".toList, by decide, by decide⟩, ⟨[10, 13], by decide, by decide⟩,
        ⟨[10], by decide, by decide⟩]
    qmpMsgRecv 2 (chunks.map .data) = ⟨.returned true, [reply, []], []⟩ := by
  intro reply chunks
  exact qmpMsgRecv_messages [reply, []] (by decide) (by decide) chunks (by decide) []

/-! ## More messages than expected -/

/-- A call that returns has read something. -/
theorem length_socket_recvLoop {n total : Nat} {received : List UInt8} {msgs : List (List UInt8)}
    {socket : List Receive} {ok : Bool}
    (h : (recvLoop n received total msgs socket).ending = .returned ok) :
    (recvLoop n received total msgs socket).socket.length < socket.length := by
  induction socket generalizing received total msgs with
  | nil => cases h
  | cons answer socket ih =>
    cases answer with
    | closed => cases h
    | failed => exact Nat.lt_succ_self _
    | data chunk =>
      rw [recvLoop] at h ⊢
      dsimp only at h ⊢
      split_ifs at h ⊢ with hcount hempty
      · exact Nat.lt_succ_self _
      · exact Nat.lt_succ_of_lt (ih h)

/-- Nothing is left over exactly if there is no zero byte and the last message is complete. -/
theorem collected_eq_nil_iff {bytes : List UInt8} :
    (collected bytes).2 = [] ↔ 0 ∉ bytes ∧ (pieces msgSeparator bytes).2 = [] := by
  constructor
  · intro h
    obtain ⟨tail, hbytes, htail⟩ := exists_cBytes_append bytes
    have hzero := zero_not_mem_cBytes bytes
    generalize cBytes bytes = text at hbytes hzero
    subst hbytes
    rw [collected_append hzero htail] at h
    obtain ⟨hrest, rfl⟩ := List.append_eq_nil_iff.1 h
    rw [List.append_nil]
    exact ⟨hzero, hrest⟩
  · rintro ⟨hzero, hrest⟩
    rw [collected, cBytes_of_not_mem hzero, hrest, List.drop_length]
    rfl

/-- **Returning in time.** The messages of the chunks `pre` are fewer than expected. The client
returns after the next chunk, without reading again and with all its assertions met, exactly if that
chunk ends with the last expected message and no byte so far is zero. -/
theorem qmpMsgRecv_returns_iff (n : Nat) (pre : List Chunk) (chunk : Chunk) (socket : List Receive)
    (hpre : (completeMessages (bytesOf pre)).length < n) :
    (∃ ok, (qmpMsgRecv n (pre.map .data ++ .data chunk :: socket)).ending = .returned ok ∧
      (qmpMsgRecv n (pre.map .data ++ .data chunk :: socket)).socket = socket) ↔
    0 ∉ bytesOf pre ++ chunk.bytes ∧
      (completeMessages (bytesOf pre ++ chunk.bytes)).length = n ∧
      (pieces msgSeparator (bytesOf pre ++ chunk.bytes)).2 = [] := by
  rw [qmpMsgRecv_of_lt hpre]
  generalize bytesOf pre ++ chunk.bytes = bytes
  dsimp only
  constructor
  · rintro ⟨ok, hend, hsocket⟩
    split_ifs at hend hsocket with hcount hempty
    · obtain ⟨hzero, hrest⟩ := collected_eq_nil_iff.1 hempty
      refine ⟨hzero, ?_, hrest⟩
      rwa [collected, cBytes_of_not_mem hzero] at hcount
    · have hlt := length_socket_recvLoop hend
      rw [hsocket] at hlt
      exact absurd hlt (Nat.lt_irrefl _)
  · rintro ⟨hzero, hcount, hrest⟩
    have hseen : (collected bytes).1.length = n := by
      rw [collected, cBytes_of_not_mem hzero]
      exact hcount
    rw [if_pos hseen, if_pos (collected_eq_nil_iff.2 ⟨hzero, hrest⟩)]
    exact ⟨true, rfl, rfl⟩

/-- The reply to the capabilities in one chunk. -/
theorem qmpMsgRecv_returns_reply :
    let reply : Chunk := ⟨utf8 "\x7b\"return\": \x7b\x7d\x7d\r\n".toList, by decide, by decide⟩
    ∃ ok, (qmpMsgRecv 1 [.data reply]).ending = .returned ok ∧
      (qmpMsgRecv 1 [.data reply]).socket = [] := by
  intro reply
  exact (qmpMsgRecv_returns_iff 1 [] reply [] (by decide)).2 (by decide)

/-- An event in the chunk of the reply: if it is complete, the client reads on, since it has more
messages than it expects; if it is not, an assertion fails. -/
theorem qmpMsgRecv_event :
    let reply := "\x7b\"return\": \x7b\x7d\x7d\r\n"
    let event := "\x7b\"event\": \"STOP\"\x7d"
    let whole : Chunk := ⟨utf8 (reply ++ event ++ "\r\n").toList, by decide, by decide⟩
    let part : Chunk := ⟨utf8 (reply ++ event).toList, by decide, by decide⟩
    (completeMessages whole.bytes).length = 2 ∧ (completeMessages part.bytes).length = 1 ∧
      (qmpMsgRecv 1 [.data whole]).ending = .blocked ∧
      (qmpMsgRecv 1 [.data part]).ending = .aborted := by
  decide

end Runtime

end CcOciRuntime
