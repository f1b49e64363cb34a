import CcOciRuntime.Lib.Chunks
import CcOciRuntime.Wire.Encoders

/-!
# Reading frames

`ReadMessage` of the Go API reads a frame from a stream that arrives in chunks. The header is read
by one call that has to return all eight bytes, the body by a loop, so what the cuts of the stream
do to a reader depends on the frame's first chunk alone: `readMessage_rawFrame` is the frame that is
read and `readMessage_of_short_header` the one that is not. `readsBack_iff` is the sequence of
frames.

Reference: `proxy/api/protocol.go:55-119`.
-/

namespace CcOciRuntime

namespace Wire

/-- A type of messages with its encoding. Not every value has one, as `json.Marshal` can fail; what
has been encoded is decoded to the same message. -/
structure Codec (α : Type) where
  marshal : α → Option String
  unmarshal : List UInt8 → Except String α
  unmarshal_marshal : ∀ {m text}, marshal m = some text → unmarshal (utf8 text.toList) = .ok m

/-- Reference: `headerLength` (`proxy/api/protocol.go:24`). -/
def headerLength : Nat := 8

/-- Reference: `ReadMessage` (`proxy/api/protocol.go:57`). The reader is the chunks that it will
still get. -/
def readMessage {α : Type} (unmarshal : List UInt8 → Except String α)
    (reader : List (List UInt8)) : Except String (α × List (List UInt8)) :=
  match readSome headerLength reader with
  | none => .error "EOF"
  | some (buf, reader) =>
    if buf.length ≠ headerLength then .error "couldn't read the full header"
    else
      -- bytes 4 to 8 are the flags, which nothing looks at
      let need := beNat (buf.take 4)
      match fill id need (chunkFuel reader) [] reader with
      | none => .error "EOF"
      | some (data, reader) => (unmarshal data).map (·, reader)

/-- A frame with any flags and any bytes as its body. -/
def rawFrame (flags payload : List UInt8) : List UInt8 :=
  beBytes 4 payload.length ++ flags ++ payload

theorem frame_eq_rawFrame (text : String) :
    frame text = rawFrame (List.replicate 4 0) (utf8 text.toList) := rfl

theorem length_rawFrame {flags : List UInt8} (h : flags.length = 4) (payload : List UInt8) :
    (rawFrame flags payload).length = headerLength + payload.length := by
  rw [rawFrame, List.length_append, List.length_append, length_beBytes, h]
  rfl

theorem length_frame (text : String) :
    (frame text).length = headerLength + (utf8 text.toList).length :=
  length_rawFrame List.length_replicate _

section
variable {α : Type} {unmarshal : List UInt8 → Except String α} {flags payload tail c : List UInt8}
  {cs : List (List UInt8)}

/-- A header that arrives whole: what is read depends on the stream only, not on its cuts. -/
theorem readMessage_of_whole_header (hc : headerLength ≤ c.length) :
    readMessage unmarshal (c :: cs) =
      let stream := (c :: cs).flatten
      let need := beNat (stream.take 4)
      if (stream.drop headerLength).length < need then .error "EOF"
      else (unmarshal ((stream.drop headerLength).take need)).map
        (·, dropChunks (headerLength + need) (c :: cs)) := by
  have hneed : (c.take headerLength).take 4 = (c :: cs).flatten.take 4 := by
    rw [List.take_take, List.flatten_cons,
      List.take_append_of_le_length (by rw [headerLength] at hc; omega)]
    rfl
  rw [readMessage, readSome_of_le (by decide) hc]
  dsimp only
  rw [if_neg (by rw [List.length_take_of_le hc]; exact fun h => h rfl), hneed,
    fill_eq modest_id (Nat.le_refl _) (Nat.zero_le _), List.nil_append, flatten_dropChunks]
  split_ifs
  · rfl
  · dsimp only
    rw [dropChunks_add, List.length_nil, Nat.sub_zero]

/-- The length that a frame announces. -/
theorem beNat_take_rawFrame (hlen : payload.length < 2 ^ 32) :
    beNat ((rawFrame flags payload ++ tail).take 4) = payload.length := by
  rw [rawFrame, List.append_assoc, List.append_assoc, List.take_left' (length_beBytes _ _),
    beNat_beBytes]
  exact Nat.mod_eq_of_lt hlen

theorem drop_rawFrame (hflags : flags.length = 4) :
    (rawFrame flags payload ++ tail).drop headerLength = payload ++ tail := by
  rw [rawFrame, List.append_assoc, List.drop_left']
  rw [List.length_append, length_beBytes, hflags]
  rfl

theorem beNat_take_frame {text : String} (h : (utf8 text.toList).length < 2 ^ 32) :
    beNat ((frame text).take 4) = (utf8 text.toList).length := by
  rw [frame_eq_rawFrame, ← List.append_nil (rawFrame _ _), beNat_take_rawFrame h]

theorem drop_frame (text : String) : (frame text).drop headerLength = utf8 text.toList := by
  rw [frame_eq_rawFrame, ← List.append_nil (rawFrame _ _), drop_rawFrame List.length_replicate,
    List.append_nil]

/-- A stream with a frame in it has a first chunk. -/
theorem exists_cons_of_flatten_rawFrame {reader : List (List UInt8)} (hflags : flags.length = 4)
    (h : reader.flatten = rawFrame flags payload ++ tail) : ∃ c cs, reader = c :: cs := by
  refine List.exists_cons_of_ne_nil ?_
  rintro rfl
  have hlen := congrArg List.length h
  rw [List.flatten_nil, List.length_nil, List.length_append, length_rawFrame hflags,
    headerLength] at hlen
  omega

/-- A frame whose header arrives whole is read to its end, however its body is cut. -/
theorem readMessage_rawFrame (hflags : flags.length = 4) (hlen : payload.length < 2 ^ 32)
    (hcs : (c :: cs).flatten = rawFrame flags payload ++ tail) (hc : headerLength ≤ c.length) :
    readMessage unmarshal (c :: cs) = (unmarshal payload).map
      (·, dropChunks (rawFrame flags payload).length (c :: cs)) := by
  rw [readMessage_of_whole_header hc, hcs]
  dsimp only
  rw [beNat_take_rawFrame hlen, drop_rawFrame hflags, if_neg, List.take_left' rfl,
    length_rawFrame hflags]
  rw [List.length_append]
  omega

/-- A header that is cut: the call fails. -/
theorem readMessage_of_short_header (hc : c.length < headerLength) :
    readMessage unmarshal (c :: cs) = .error "couldn't read the full header" := by
  rw [readMessage, readSome]
  dsimp only
  rw [if_pos]
  rw [List.length_take]
  omega

end

/-! ## A sequence of frames -/

/-- A message that `WriteMessage` has written, with the text of its frame. -/
structure Sent {α : Type} (codec : Codec α) where
  msg : α
  text : String
  marshalled : codec.marshal msg = some text
  short : (utf8 text.toList).length < 2 ^ 32

/-- What stands on the wire for the message. -/
def Sent.bytes {α : Type} {codec : Codec α} (m : Sent codec) : List UInt8 := writeMessage m.text

/-- Each call of `ReadMessage` decodes the next message and leaves the reader at the first byte of
the frame after it. -/
def ReadsBack {α : Type} {codec : Codec α} : List (Sent codec) → List (List UInt8) → Prop
  | [], _ => True
  | m :: ms, reader => ∃ rest, readMessage codec.unmarshal reader = .ok (m.msg, rest) ∧
      rest.flatten = ms.flatMap Sent.bytes ∧ ReadsBack ms rest

/-- The read that begins a frame of the given length gets the whole header, for each of some
frames. -/
def HeadersWhole : List Nat → List (List UInt8) → Prop
  | [], _ => True
  | _ :: _, [] => False
  | n :: ns, c :: cs => headerLength ≤ c.length ∧ HeadersWhole ns (dropChunks n (c :: cs))

instance decidableHeadersWhole : ∀ ns cs, Decidable (HeadersWhole ns cs)
  | [], _ => .isTrue trivial
  | _ :: _, [] => .isFalse id
  | n :: ns, c :: cs =>
    have := decidableHeadersWhole ns (dropChunks n (c :: cs))
    inferInstanceAs (Decidable (_ ∧ _))

/-- **Framing and the cuts of the stream.** A sequence of messages is read back exactly when no read
that begins a frame gets a part of the header only. -/
theorem readsBack_iff {α : Type} {codec : Codec α} (ms : List (Sent codec))
    (reader : List (List UInt8)) (hstream : reader.flatten = ms.flatMap Sent.bytes) :
    ReadsBack ms reader ↔ HeadersWhole (ms.map (·.bytes.length)) reader := by
  induction ms generalizing reader with
  | nil => exact Iff.rfl
  | cons m ms ih =>
    rw [List.flatMap_cons, Sent.bytes, writeMessage_eq_frame] at hstream
    obtain ⟨c, cs, rfl⟩ := exists_cons_of_flatten_rawFrame List.length_replicate hstream
    rcases Nat.lt_or_ge c.length headerLength with hc | hc
    · -- the header is cut
      refine iff_of_false ?_ fun h => absurd h.1 (by omega)
      rintro ⟨rest, hread, -⟩
      rw [readMessage_of_short_header hc] at hread
      cases hread
    · have hread : readMessage codec.unmarshal (c :: cs) = _ :=
        readMessage_rawFrame List.length_replicate m.short hstream hc
      rw [codec.unmarshal_marshal m.marshalled] at hread
      have hrest : (dropChunks (frame m.text).length (c :: cs)).flatten =
          ms.flatMap Sent.bytes := by
        rw [flatten_dropChunks, hstream, List.drop_left' rfl]
      have ih := ih _ hrest
      constructor
      · rintro ⟨rest, hread', -, hback⟩
        obtain rfl : dropChunks (frame m.text).length (c :: cs) = rest :=
          (Prod.mk.inj (Except.ok.inj (hread.symm.trans hread'))).2
        exact ⟨hc, ih.1 hback⟩
      · rintro ⟨-, hwhole⟩
        exact ⟨_, hread, hrest, ih.2 hwhole⟩

end Wire

end CcOciRuntime
