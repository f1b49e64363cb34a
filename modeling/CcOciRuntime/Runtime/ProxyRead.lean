import CcOciRuntime.Proxy.Messages
import CcOciRuntime.Runtime.Types
import CcOciRuntime.Shim.Stream

/-!
# Reading a response of the proxy

The runtime reads the frame of a response with `recvmsg` on a descriptor that does not block. The
first result is taken to begin with the whole header; a loop collects the rest. `Channel` is what
the descriptor will deliver: some results, and then for ever no data or, once the proxy has closed
its end, the end of the file.

The loop has no bound, so it is modelled with fuel, and `exists_readMissing_iff` says how it ends in
terms of `stopAt`, which follows the results only. A response is reassembled if and only if its
header arrives whole (`proxyMsgRead_reassembles`).

Reference: `cc_proxy_msg_read` (`src/proxy.c:237`).
-/

namespace CcOciRuntime

namespace Runtime

/-! ## The descriptor -/

/-- A result of `recvmsg`: bytes, with a descriptor that came along as ancillary data; no data yet;
or another error. No bytes are the end of the file. -/
inductive Recv
  | data (bytes : List UInt8) (fd : Option Nat)
  | again
  | failed
  deriving Repr, DecidableEq

/-- The bytes of a result. -/
def Recv.bytes : Recv → List UInt8
  | .data bytes _ => bytes
  | .again | .failed => []

/-- What the descriptor will deliver, and whether the proxy closes its end after that. -/
structure Channel where
  results : List Recv
  closed : Bool

/-- The next result. -/
def Channel.recvmsg (ch : Channel) : Recv × Channel :=
  match ch.results with
  | r :: rs => (r, { ch with results := rs })
  | [] => (if ch.closed then .data [] none else .again, ch)

/-! ## `cc_proxy_msg_read` -/

/-- Reference: `MESSAGE_HEADER_LENGTH` (`src/proxy.h:37`). -/
def messageHeaderLength : Nat := 8

/-- Reference: `OOB_FD_FLAG` (`src/proxy.h:44`). -/
def oobFdFlag : UInt8 := 70

/-- The same conversion as the shim's. Reference: `cc_oci_get_big_endian_32` (`src/util.c:575`). -/
def ociGetBigEndian32 (buf : List UInt8) : UInt32 := Shim.getBigEndian32 buf

/-- What `g_string_append_len` appends: with a negative length, the bytes up to a zero. -/
def appended (val : List UInt8) (len : Int) : List UInt8 :=
  if len < 0 then val.takeWhile (· ≠ 0) else val.take len.toNat

/-- Reference: `watcher_proxy_data` (`src/proxy.c:37`). `wantsFd` says that `oob_fd` is not NULL,
and `fd` is what was stored there; `quit` says that the main loop was told to quit. -/
structure WatcherProxyData where
  msgReceived : List UInt8 := []
  wantsFd : Bool
  fd : Option Nat := none
  oobFdFound : Bool := false
  quit : Bool := false
  deriving Repr, DecidableEq

/-- The loop that reads the missing bytes. Reference: `src/proxy.c:332-349`. -/
def readMissing (need : Nat) : Nat → Channel → Nat → List UInt8 → Option (List UInt8 × Channel)
  | 0, _, _, _ => none
  | fuel + 1, ch, total, received =>
    match ch.recvmsg with
    | (.again, ch) =>
      if total < need then readMissing need fuel ch total received else some (received, ch)
    | (.failed, ch) => some (received, ch)
    | (.data bytes _, ch) =>
      readMissing need fuel ch (total + bytes.length) (received ++ bytes)

/-- One call of the watcher: whether it stays registered, and what it leaves; `none` when the fuel
does not suffice. Reference: `cc_proxy_msg_read` (`src/proxy.c:237`). -/
def proxyMsgRead (fuel : Nat) (data : WatcherProxyData) (ch : Channel) :
    Option (Bool × WatcherProxyData × Channel) :=
  match ch.recvmsg with
  | (.again, ch) | (.failed, ch) => some (false, data, ch)
  | (.data bytes fd, ch) =>
    if bytes = [] then some (false, data, ch)
    else if data.wantsFd && !data.oobFdFound then
      match fd with
      | none => some (false, { data with quit := true }, ch)
      | some fd =>
        if bytes.head? = some oobFdFlag then
          some (true, { data with fd := some fd, oobFdFound := true }, ch)
        else some (false, { data with quit := true }, ch)
    else
      let buffer := bytes ++ List.replicate (lineMax - bytes.length) 0
      let need := (ociGetBigEndian32 (buffer.take 4)).toNat + messageHeaderLength
      let received := data.msgReceived ++
        appended (buffer.drop messageHeaderLength) (bytes.length - messageHeaderLength)
      if need ≤ bytes.length then
        some (false, { data with msgReceived := received, quit := true }, ch)
      else
        match readMissing need fuel ch bytes.length received with
        | none => none
        | some (received, ch) =>
          some (false, { data with msgReceived := received, quit := true }, ch)

/-! ## How the loop ends -/

/-- The bytes that the loop reads until it ends, and the results it leaves; `none` when it goes on
for ever. -/
def stopAt (need : Nat) (closed : Bool) : Nat → List Recv → Option (List UInt8 × List Recv)
  | total, [] => if closed = true ∨ total < need then none else some ([], [])
  | total, .again :: rs => if total < need then stopAt need closed total rs else some ([], rs)
  | _, .failed :: rs => some ([], rs)
  | total, .data bytes _ :: rs =>
    (stopAt need closed (total + bytes.length) rs).map fun r => (bytes ++ r.1, r.2)

section
variable {need : Nat} {closed : Bool}

/-- After the results, a closed end or too few bytes keep the loop going. -/
theorem readMissing_nil_eq_none {total : Nat} (h : closed = true ∨ total < need) (fuel : Nat)
    (received : List UInt8) : readMissing need fuel ⟨[], closed⟩ total received = none := by
  induction fuel generalizing received with
  | zero => rfl
  | succ fuel ih =>
    cases closed with
    | true =>
      rw [readMissing, Channel.recvmsg]
      exact ih (received ++ [])
    | false =>
      have hmissing : total < need := h.resolve_left Bool.false_ne_true
      rw [readMissing, Channel.recvmsg]
      dsimp only
      rw [if_neg Bool.false_ne_true]
      dsimp only
      rw [if_pos hmissing]
      exact ih received

/-- A run with enough fuel has a first turn. -/
theorem exists_readMissing_succ {ch : Channel} {total : Nat} {received : List UInt8}
    {r : List UInt8 × Channel} :
    (∃ fuel, readMissing need fuel ch total received = some r) ↔
      ∃ fuel, readMissing need (fuel + 1) ch total received = some r := by
  constructor
  · rintro ⟨fuel, h⟩
    cases fuel with
    | zero => cases h
    | succ fuel => exact ⟨fuel, h⟩
  · rintro ⟨fuel, h⟩
    exact ⟨fuel + 1, h⟩

/-- The loop ends here. -/
theorem exists_stop_iff {left : List Recv} {received msg : List UInt8} {ch : Channel} :
    (∃ _ : Nat, some (received, (⟨left, closed⟩ : Channel)) = some (msg, ch)) ↔
      ∃ more left', some (([] : List UInt8), left) = some (more, left') ∧ msg = received ++ more ∧
        ch = ⟨left', closed⟩ := by
  constructor
  · rintro ⟨-, ⟨⟩⟩
    exact ⟨[], left, rfl, (List.append_nil received).symm, rfl⟩
  · rintro ⟨_, _, ⟨⟩, rfl, rfl⟩
    exact ⟨0, by rw [List.append_nil]⟩

/-- **How the loop ends.** The induction is on the results; each turn of the loop takes one. -/
theorem exists_readMissing_iff {rs : List Recv} {total : Nat} {received msg : List UInt8}
    {ch : Channel} :
    (∃ fuel, readMissing need fuel ⟨rs, closed⟩ total received = some (msg, ch)) ↔
      ∃ more left, stopAt need closed total rs = some (more, left) ∧ msg = received ++ more ∧
        ch = ⟨left, closed⟩ := by
  induction rs generalizing total received with
  | nil =>
    rw [stopAt]
    by_cases hgoes : closed = true ∨ total < need
    · simp [hgoes, readMissing_nil_eq_none]
    · obtain ⟨hopen, hall⟩ := not_or.1 hgoes
      rw [exists_readMissing_succ, if_neg hgoes]
      simp only [readMissing, Channel.recvmsg, if_neg hopen, if_neg hall]
      exact exists_stop_iff
  | cons r rs ih =>
    rw [exists_readMissing_succ]
    cases r with
    | again =>
      simp only [readMissing, Channel.recvmsg, stopAt]
      split_ifs with hmissing
      · exact ih
      · exact exists_stop_iff
    | failed =>
      simp only [readMissing, Channel.recvmsg, stopAt]
      exact exists_stop_iff
    | data bytes fd =>
      simp only [readMissing, Channel.recvmsg, stopAt]
      rw [ih]
      constructor
      · rintro ⟨more, left, hstop, rfl, rfl⟩
        exact ⟨bytes ++ more, left, by rw [hstop]; rfl, by rw [List.append_assoc], rfl⟩
      · rintro ⟨more, left, hstop, rfl, rfl⟩
        obtain ⟨⟨rest, left'⟩, hrest, heq⟩ := Option.map_eq_some_iff.1 hstop
        cases heq
        exact ⟨rest, left', hrest, by rw [List.append_assoc], rfl⟩

/-- What the loop reads is a prefix of what arrives, and all that it asks for unless `recvmsg`
fails. -/
theorem stopAt_eq_some {rs : List Recv} {total : Nat} {more : List UInt8} {left : List Recv}
    (h : stopAt need closed total rs = some (more, left)) :
    more <+: rs.flatMap Recv.bytes ∧ (.failed ∉ rs → need ≤ total + more.length) := by
  induction rs generalizing total more with
  | nil =>
    rw [stopAt] at h
    split_ifs at h with hgoes
    cases h
    exact ⟨List.prefix_rfl, fun _ => Nat.le_of_not_lt (not_or.1 hgoes).2⟩
  | cons r rs ih =>
    cases r with
    | again =>
      rw [stopAt] at h
      split_ifs at h with hmissing
      · obtain ⟨hmore, hneed⟩ := ih h
        exact ⟨hmore, fun hf => hneed fun hmem => hf (.tail _ hmem)⟩
      · cases h
        exact ⟨List.nil_prefix, fun _ => Nat.le_of_not_lt hmissing⟩
    | failed =>
      cases h
      exact ⟨List.nil_prefix, fun hf => absurd (.head _) hf⟩
    | data bytes fd =>
      obtain ⟨⟨rest, left'⟩, hrest, heq⟩ := Option.map_eq_some_iff.1 h
      cases heq
      obtain ⟨hmore, hneed⟩ := ih hrest
      refine ⟨(List.prefix_append_right_inj bytes).2 hmore, fun hf => ?_⟩
      have hall : need ≤ total + bytes.length + rest.length :=
        hneed fun hmem => hf (.tail _ hmem)
      rwa [List.length_append, ← Nat.add_assoc]

/-- While the proxy keeps its end open, the loop ends once the bytes it asks for have arrived. -/
theorem exists_stopAt_open {rs : List Recv} {total : Nat}
    (h : need ≤ total + (rs.flatMap Recv.bytes).length) :
    ∃ more left, stopAt need false total rs = some (more, left) := by
  induction rs generalizing total with
  | nil =>
    rw [stopAt, if_neg]
    · exact ⟨_, _, rfl⟩
    · rintro (hclosed | hmissing)
      · cases hclosed
      · exact absurd h (Nat.not_le_of_gt hmissing)
  | cons r rs ih =>
    cases r with
    | again =>
      rw [stopAt]
      split_ifs with hmissing
      · exact ih h
      · exact ⟨_, _, rfl⟩
    | failed => exact ⟨_, _, rfl⟩
    | data bytes fd =>
      rw [List.flatMap_cons, List.length_append, ← Nat.add_assoc] at h
      obtain ⟨more, left, hstop⟩ := @ih (total + bytes.length) h
      exact ⟨_, _, by rw [stopAt, hstop]; rfl⟩

end

/-! ## One call of the watcher -/

/-- The length of the frame that a first result announces; what is missing of its length field is
read as zero. -/
def announced (first : List UInt8) : Nat :=
  beNat ((first ++ List.replicate 4 0).take 4) + messageHeaderLength

theorem take_append_replicate {first : List UInt8} {k m : Nat} (h : k ≤ first.length + m) :
    (first ++ List.replicate m 0).take k
      = first.take k ++ List.replicate (k - first.length) 0 := by
  rw [List.take_append, List.take_replicate, Nat.min_eq_left (by omega)]

/-- The announced length, from a buffer of zeros. -/
theorem announced_eq (first : List UInt8) :
    (ociGetBigEndian32 ((first ++ List.replicate (lineMax - first.length) 0).take 4)).toNat
      + messageHeaderLength = announced first := by
  have hbuffer : (first ++ List.replicate (lineMax - first.length) 0).take 4
      = (first ++ List.replicate 4 0).take 4 := by
    rw [take_append_replicate (by rw [lineMax]; omega), take_append_replicate (by omega)]
  have hlen : ((first ++ List.replicate 4 0).take 4).length = 4 := by simp
  rw [hbuffer, announced, ociGetBigEndian32]
  match (first ++ List.replicate 4 (0 : UInt8)).take 4, hlen with
  | [a, b, c, d], _ => rw [Shim.getBigEndian32_eq]

/-- Of a first result that is shorter than the header nothing is kept. -/
theorem appended_eq (first : List UInt8) :
    appended ((first ++ List.replicate (lineMax - first.length) 0).drop messageHeaderLength)
      (first.length - messageHeaderLength) = first.drop messageHeaderLength := by
  rw [appended, messageHeaderLength, List.drop_append]
  split_ifs with hshort
  · have hle : first.length ≤ 8 := by omega
    rw [List.drop_eq_nil_of_le hle, List.nil_append, List.drop_replicate]
    cases lineMax - first.length - (8 - first.length) <;> rfl
  · have hlen : ((first.length : Int) - (8 : Nat)).toNat = (first.drop 8).length := by
      rw [List.length_drop]
      omega
    rw [hlen, List.take_left]

/-- What a call reads after its first result, and the results it leaves; `none` when it does not
return. -/
def readRest (closed : Bool) (first : List UInt8) (rest : List Recv) :
    Option (List UInt8 × List Recv) :=
  if announced first ≤ first.length then some ([], rest)
  else stopAt (announced first) closed first.length rest

theorem readRest_prefix {closed : Bool} {first more : List UInt8} {rest left : List Recv}
    (h : readRest closed first rest = some (more, left)) : more <+: rest.flatMap Recv.bytes := by
  rw [readRest] at h
  split_ifs at h
  · cases h
    exact List.nil_prefix
  · exact (stopAt_eq_some h).1

/-- A call that no failure ends has got the frame that it was announced. -/
theorem announced_le_of_readRest {closed : Bool} {first more : List UInt8}
    {rest left : List Recv} (h : readRest closed first rest = some (more, left))
    (hfailed : .failed ∉ rest) : announced first ≤ first.length + more.length := by
  rw [readRest] at h
  split_ifs at h with hwhole
  · exact Nat.le_add_right_of_le hwhole
  · exact (stopAt_eq_some h).2 hfailed

/-- **A call that reads a frame**, when no descriptor has to come first. -/
theorem exists_proxyMsgRead_iff {data data' : WatcherProxyData} {first : List UInt8}
    {fd : Option Nat} {rest : List Recv} {closed stays : Bool} {ch : Channel}
    (hdata : (data.wantsFd && !data.oobFdFound) = false) (hfirst : first ≠ []) :
    (∃ fuel, proxyMsgRead fuel data ⟨.data first fd :: rest, closed⟩ = some (stays, data', ch)) ↔
      ∃ more left, readRest closed first rest = some (more, left) ∧ stays = false ∧
        data' = { data with
          msgReceived := data.msgReceived ++ (first.drop messageHeaderLength ++ more)
          quit := true } ∧
        ch = ⟨left, closed⟩ := by
  simp only [proxyMsgRead, Channel.recvmsg, hfirst, hdata, announced_eq, appended_eq, readRest,
    if_false, Bool.false_eq_true]
  split_ifs with hwhole
  · constructor
    · rintro ⟨-, ⟨⟩⟩
      exact ⟨[], rest, rfl, rfl, by rw [List.append_nil], rfl⟩
    · rintro ⟨_, _, ⟨⟩, rfl, rfl, rfl⟩
      exact ⟨0, by rw [List.append_nil]⟩
  · constructor
    · rintro ⟨fuel, h⟩
      split at h
      · cases h
      · next received ch' hread =>
        cases h
        obtain ⟨more, left, hstop, rfl, rfl⟩ := exists_readMissing_iff.1 ⟨fuel, hread⟩
        exact ⟨more, left, hstop, rfl, by rw [List.append_assoc], rfl⟩
    · rintro ⟨more, left, hstop, rfl, rfl, rfl⟩
      obtain ⟨fuel, hread⟩ := exists_readMissing_iff.2 ⟨more, left, hstop, rfl, rfl⟩
      refine ⟨fuel, ?_⟩
      rw [hread, List.append_assoc]

/-! ## Frames -/

/-- The frame of a response. -/
abbrev responseFrame (payload : List UInt8) : List UInt8 :=
  Wire.rawFrame (List.replicate 4 0) payload

theorem length_responseFrame (payload : List UInt8) :
    (responseFrame payload).length = messageHeaderLength + payload.length :=
  Wire.length_rawFrame List.length_replicate payload

theorem drop_responseFrame (payload : List UInt8) :
    (responseFrame payload).drop messageHeaderLength = payload := by
  have h := @Wire.drop_rawFrame (List.replicate 4 0) payload [] List.length_replicate
  rwa [List.append_nil, List.append_nil] at h

/-- A text that begins with four bytes that are not zero. -/
def BeginsText (text : List UInt8) : Prop := ∀ i < 4, ∃ b, text[i]? = some b ∧ b ≠ 0

/-- With a whole header, the first result announces the frame. -/
theorem announced_of_whole_header {payload first tail : List UInt8}
    (hlen : payload.length < 2 ^ 32) (hframe : responseFrame payload = first ++ tail)
    (hwhole : messageHeaderLength ≤ first.length) :
    announced first = (responseFrame payload).length := by
  have hfour : 4 ≤ first.length := by rw [messageHeaderLength] at hwhole; omega
  have htake : (first ++ List.replicate 4 0).take 4 = (responseFrame payload ++ []).take 4 := by
    rw [List.append_nil, hframe, List.take_append_of_le_length hfour,
      List.take_append_of_le_length hfour]
  rw [announced, htake, Wire.beNat_take_rawFrame hlen, length_responseFrame, Nat.add_comm]

/-- With a header that is cut, the rest of it is taken for the payload: a zero byte of the flags
comes among its first four bytes. -/
theorem not_beginsText_of_cut_header {payload first more : List UInt8} (hfirst : first ≠ [])
    (hcut : first.length < messageHeaderLength) (hframe : first ++ more <+: responseFrame payload) :
    ¬ BeginsText more := by
  intro hbegins
  have hpos : 0 < first.length := List.length_pos_of_ne_nil hfirst
  rw [messageHeaderLength] at hcut
  obtain ⟨b, hb, hne⟩ := hbegins (max 4 first.length - first.length) (by omega)
  refine hne ?_
  have hindex : (first ++ more)[max 4 first.length]? = some b := by
    rw [List.getElem?_append_right (by omega), hb]
  have hflag : (responseFrame payload)[max 4 first.length]? = some 0 := by
    rw [responseFrame, Wire.rawFrame, List.getElem?_append_left, List.getElem?_append_right,
      length_beBytes, List.getElem?_replicate_of_lt (by omega)]
    · rw [length_beBytes]
      omega
    · rw [List.length_append, length_beBytes, List.length_replicate]
      omega
  obtain ⟨tail, htail⟩ := hframe
  rw [← htail, List.getElem?_append_left (List.getElem?_eq_some_iff.1 hindex).1, hindex] at hflag
  exact Option.some.inj hflag

/-- The text of a response begins with an opening brace and the name of its first member. -/
theorem beginsText_marshalResponse {resp : Proxy.Response} {text : String}
    (h : Proxy.marshalResponse resp = some text) : BeginsText (utf8 text.toList) := by
  rw [Proxy.marshalResponse, Proxy.marshalJson] at h
  split_ifs at h with hprint
  obtain rfl := Option.some.inj h
  obtain ⟨more, hmore⟩ : ∃ more, (Json.obj resp.members).print
      = '\x7b' :: '"' :: 's' :: 'u' :: more := by
    have hname : Json.printString "success"
        = '"' :: 's' :: 'u' :: ['c', 'c', 'e', 's', 's', '"'] := by decide
    rw [Proxy.Response.members, Json.print_obj, Json.printMembers_cons, hname]
    exact ⟨_, rfl⟩
  have hbytes : utf8 ('\x7b' :: '"' :: 's' :: 'u' :: more)
      = 0x7b :: 0x22 :: 0x73 :: 0x75 :: utf8 more := rfl
  rw [hmore, String.toList_ofList, hbytes]
  intro i hi
  obtain rfl | rfl | rfl | rfl : i = 0 ∨ i = 1 ∨ i = 2 ∨ i = 3 := by omega
  · exact ⟨_, rfl, by decide⟩
  · exact ⟨_, rfl, by decide⟩
  · exact ⟨_, rfl, by decide⟩
  · exact ⟨_, rfl, by decide⟩

/-- A reader of documents that begin as a text. -/
def parseText (text : List UInt8) : Option Json :=
  if 4 ≤ text.length ∧ (text.take 4).all (· != 0) = true then (Proxy.parseJson text).toOption
  else none

/-- Whether a text begins so can be read off its first four bytes. -/
theorem beginsText_iff {text : List UInt8} :
    BeginsText text ↔ 4 ≤ text.length ∧ (text.take 4).all (· != 0) = true := by
  simp only [List.all_eq_true, bne_iff_ne]
  constructor
  · intro h
    have hlen : 4 ≤ text.length := by
      obtain ⟨b, hb, -⟩ := h 3 (by decide)
      have := (List.getElem?_eq_some_iff.1 hb).1
      omega
    refine ⟨hlen, fun b hb => ?_⟩
    obtain ⟨i, hi, rfl⟩ := List.getElem_of_mem hb
    rw [List.length_take] at hi
    obtain ⟨b, hb, hne⟩ := h i (by omega)
    rw [List.getElem_take]
    rw [List.getElem?_eq_getElem (by omega)] at hb
    cases hb
    exact hne
  · rintro ⟨hlen, hall⟩ i hi
    refine ⟨text[i], List.getElem?_eq_getElem (by omega), hall _ ?_⟩
    exact List.mem_take_iff_getElem.2 ⟨i, by omega, rfl⟩

/-- What the reader accepts begins as a text. -/
theorem beginsText_of_parseText {text : List UInt8} {doc : Json} (h : parseText text = some doc) :
    BeginsText text := by
  rw [parseText] at h
  split_ifs at h with hbegins
  exact beginsText_iff.2 hbegins

/-- The reader reads the responses of the proxy. -/
theorem parseText_marshalResponse {resp : Proxy.Response} {text : String}
    (h : Proxy.marshalResponse resp = some text) :
    parseText (utf8 text.toList) = some (.obj resp.members) := by
  rw [parseText, if_pos (beginsText_iff.1 (beginsText_marshalResponse h)),
    Proxy.parseJson_marshalJson h]
  rfl

/-! ## Reassembling a response -/

/-- Results by which some bytes arrive: pieces that are not empty and fit into the buffer, with any
number of times that no data was there or that `recvmsg` failed. -/
def Arrives (rs : List Recv) (bytes : List UInt8) : Prop :=
  (∀ piece fd, .data piece fd ∈ rs → piece ≠ [] ∧ piece.length ≤ lineMax ∧ fd = none) ∧
    rs.flatMap Recv.bytes = bytes

/-- The same without failures. -/
def Delivers (rs : List Recv) (bytes : List UInt8) : Prop := Arrives rs bytes ∧ .failed ∉ rs

/-- A call ends with the payload as the message received, and with the main loop told to quit. -/
def Reassembles (data : WatcherProxyData) (ch : Channel) (payload : List UInt8) : Prop :=
  ∃ fuel stays data' ch', proxyMsgRead fuel data ch = some (stays, data', ch') ∧
    data'.msgReceived = payload ∧ data'.quit = true

section
variable {data : WatcherProxyData} {payload first tail : List UInt8} {rest : List Recv}

/-- What a call that reads a frame ends with. -/
theorem reassembles_iff (hempty : data.msgReceived = [])
    (hdata : (data.wantsFd && !data.oobFdFound) = false) (hfirst : first ≠ []) :
    Reassembles data ⟨.data first none :: rest, false⟩ payload ↔
      ∃ more left, readRest false first rest = some (more, left) ∧
        first.drop messageHeaderLength ++ more = payload := by
  constructor
  · rintro ⟨fuel, stays, data', ch', hcall, hreceived, -⟩
    obtain ⟨more, left, hrest, -, rfl, -⟩ :=
      (exists_proxyMsgRead_iff hdata hfirst).1 ⟨fuel, hcall⟩
    refine ⟨more, left, hrest, ?_⟩
    rwa [hempty, List.nil_append] at hreceived
  · rintro ⟨more, left, hrest, rfl⟩
    obtain ⟨fuel, hcall⟩ := (exists_proxyMsgRead_iff hdata hfirst).2
      ⟨more, left, hrest, rfl, rfl, rfl⟩
    refine ⟨fuel, _, _, _, hcall, ?_, rfl⟩
    rw [hempty, List.nil_append]

/-- A frame whose header arrives whole is read to its end. -/
theorem exists_readRest_of_whole_header (hlen : payload.length < 2 ^ 32)
    (hframe : responseFrame payload = first ++ tail) (hrest : Delivers rest tail)
    (hwhole : messageHeaderLength ≤ first.length) :
    ∃ left, readRest false first rest = some (tail, left) := by
  have hneed := announced_of_whole_header hlen hframe hwhole
  rw [hframe, List.length_append] at hneed
  rw [readRest, hneed]
  split_ifs with hall
  · have hnil : tail = [] := List.eq_nil_of_length_eq_zero (by omega)
    exact ⟨rest, by rw [hnil]⟩
  · obtain ⟨more, left, hstop⟩ := exists_stopAt_open
      (show first.length + tail.length ≤ first.length + (rest.flatMap Recv.bytes).length by
        rw [hrest.1.2])
    obtain ⟨hpart, hall⟩ := stopAt_eq_some hstop
    have hmore : more = tail := by
      rw [hrest.1.2] at hpart
      exact hpart.eq_of_length_le (by have := hall hrest.2; omega)
    exact ⟨left, by rw [hstop, hmore]⟩

end

/-- **Reassembling a response.** For every payload and every way in which its frame arrives, in a
first piece and further results with any number of times that no data was there, while the proxy
keeps its end open: if the first piece holds the header, the call ends with the payload received
and the main loop told to quit. For the payload of a response this is the only case. -/
theorem proxyMsgRead_reassembles (payload : List UInt8) (hlen : payload.length < 2 ^ 32)
    (data : WatcherProxyData) (hempty : data.msgReceived = [])
    (hdata : (data.wantsFd && !data.oobFdFound) = false) (first : List UInt8) (hfirst : first ≠ [])
    (tail : List UInt8) (hframe : responseFrame payload = first ++ tail) (rest : List Recv)
    (hrest : Delivers rest tail) :
    (messageHeaderLength ≤ first.length →
      Reassembles data ⟨.data first none :: rest, false⟩ payload) ∧
    ∀ resp text, Proxy.marshalResponse resp = some text → payload = utf8 text.toList →
      (Reassembles data ⟨.data first none :: rest, false⟩ payload ↔
        messageHeaderLength ≤ first.length) := by
  have hmp : messageHeaderLength ≤ first.length →
      Reassembles data ⟨.data first none :: rest, false⟩ payload := by
    intro hwhole
    obtain ⟨left, hread⟩ := exists_readRest_of_whole_header hlen hframe hrest hwhole
    refine (reassembles_iff hempty hdata hfirst).2 ⟨tail, left, hread, ?_⟩
    rw [← List.drop_append_of_le_length hwhole, ← hframe, drop_responseFrame]
  refine ⟨hmp, fun resp text htext hpayload => ⟨fun h => ?_, hmp⟩⟩
  by_contra hcut
  have hcut : first.length < messageHeaderLength := Nat.lt_of_not_le hcut
  obtain ⟨more, left, hread, hmore⟩ := (reassembles_iff hempty hdata hfirst).1 h
  rw [List.drop_eq_nil_of_le (Nat.le_of_lt hcut), List.nil_append, hpayload] at hmore
  have hpart : first ++ more <+: responseFrame payload := by
    rw [hframe, List.prefix_append_right_inj, ← hrest.1.2]
    exact readRest_prefix hread
  refine not_beginsText_of_cut_header hfirst hcut hpart ?_
  rw [hmore]
  exact beginsText_marshalResponse htext

/-- A response without data. -/
def okText : String := "\x7b\"success\":true\x7d"

/-- Its payload. -/
def okPayload : List UInt8 := utf8 okText.toList

/-- The payload arrives in two pieces, the first of them with the header. -/
theorem proxyMsgRead_reassembles_ok :
    Proxy.marshalResponse { success := true, error := "", data := [] } = some okText ∧
      Reassembles { wantsFd := false }
        ⟨[.data ((responseFrame okPayload).take 10) none, .again, .again,
          .data ((responseFrame okPayload).drop 10) none], false⟩ okPayload := by
  refine ⟨rfl, ?_⟩
  refine (proxyMsgRead_reassembles okPayload (by decide +kernel) { wantsFd := false } rfl rfl
    ((responseFrame okPayload).take 10) (by decide +kernel) ((responseFrame okPayload).drop 10)
    (List.take_append_drop ..).symm
    [.again, .again, .data ((responseFrame okPayload).drop 10) none] ⟨⟨?_, rfl⟩, by simp⟩).1
    (by decide +kernel)
  intro piece fd hmem
  simp only [List.mem_cons, List.not_mem_nil, or_false, reduceCtorEq, false_or] at hmem
  cases hmem
  exact ⟨by decide +kernel, by decide +kernel, rfl⟩

/-- A header that is cut after three bytes: the message received begins with the rest of it. -/
theorem cut_header_not_reassembled :
    ¬ Reassembles { wantsFd := false }
      ⟨[.data ((responseFrame okPayload).take 3) none,
        .data ((responseFrame okPayload).drop 3) none], false⟩ okPayload := by
  intro h
  obtain ⟨more, left, hread, hmore⟩ := (reassembles_iff rfl rfl (by decide +kernel)).1 h
  have hrest : readRest false ((responseFrame okPayload).take 3)
      [.data ((responseFrame okPayload).drop 3) none]
      = some ((responseFrame okPayload).drop 3, []) := by decide +kernel
  rw [hrest] at hread
  cases hread
  exact absurd hmore (by decide +kernel)

end Runtime

end CcOciRuntime
