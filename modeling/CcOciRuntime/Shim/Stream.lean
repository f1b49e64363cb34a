import CcOciRuntime.Proxy.Hyperstart

/-!
# The shim's I/O stream

The shim and the proxy exchange frames of an 8-byte sequence number, a 4-byte length and a payload
over the I/O descriptor. `setBigEndian64` and its companions are the shim's own conversions, which
store and load big-endian numbers; `readIOMessage` is the function that reads one frame, with its
loop over reads, its limit and its early end on a frame without a payload. On the frame of a message
it returns that frame and leaves the stream behind it, however the stream is cut
(`readIOMessage_encodeTty`).

Reference: `shim/shim.c:347-414`, `shim/utils.c:105-154`, `shim/shim.h:41-60`.
-/

namespace CcOciRuntime

namespace Shim

open Proxy (TtyMessage encodeTty length_encodeTty)

/-! ## Big-endian numbers -/

/-- Reference: `set_big_endian_32` (`shim/utils.c:106`). -/
def setBigEndian32 (val : UInt32) : List UInt8 :=
  [(val >>> 24).toUInt8, (val >>> 16).toUInt8, (val >>> 8).toUInt8, val.toUInt8]

/-- Reference: `get_big_endian_32` (`shim/utils.c:122`). -/
def getBigEndian32 : List UInt8 → UInt32
  | a :: b :: c :: d :: _ =>
    a.toUInt32 <<< 24 ||| b.toUInt32 <<< 16 ||| c.toUInt32 <<< 8 ||| d.toUInt32
  | _ => 0

/-- Reference: `set_big_endian_64` (`shim/utils.c:134`). -/
def setBigEndian64 (val : UInt64) : List UInt8 :=
  setBigEndian32 (val >>> 32).toUInt32 ++ setBigEndian32 val.toUInt32

/-- Reference: `get_big_endian_64` (`shim/utils.c:148`). -/
def getBigEndian64 (buf : List UInt8) : UInt64 :=
  (getBigEndian32 buf).toUInt64 <<< 32 ||| (getBigEndian32 (buf.drop 4)).toUInt64

theorem toUInt8_shiftRight (val : UInt32) {k : Nat} (h : k < 32) :
    (val >>> UInt32.ofNat k).toUInt8 = UInt8.ofNat (val.toNat / 2 ^ k) := by
  have hmod : (UInt32.ofNat k).toNat % 32 = k := by
    rw [UInt32.toNat_ofNat']
    omega
  rw [← UInt8.toNat_inj, UInt32.toNat_toUInt8, UInt8.toNat_ofNat', UInt32.toNat_shiftRight, hmod,
    Nat.shiftRight_eq_div_pow]

/-- Four bytes, the highest first. -/
theorem setBigEndian32_eq (val : UInt32) : setBigEndian32 val = beBytes 4 val.toNat := by
  have h24 : (val >>> 24).toUInt8 = UInt8.ofNat (val.toNat / 256 ^ 3) :=
    toUInt8_shiftRight val (by decide : 24 < 32)
  have h16 : (val >>> 16).toUInt8 = UInt8.ofNat (val.toNat / 256 ^ 2) :=
    toUInt8_shiftRight val (by decide : 16 < 32)
  have h8 : (val >>> 8).toUInt8 = UInt8.ofNat (val.toNat / 256 ^ 1) :=
    toUInt8_shiftRight val (by decide : 8 < 32)
  have h0 : val.toUInt8 = UInt8.ofNat (val.toNat / 256 ^ 0) := by
    rw [pow_zero, Nat.div_one, ← UInt8.toNat_inj, UInt32.toNat_toUInt8, UInt8.toNat_ofNat']
  rw [setBigEndian32, h24, h16, h8, h0]
  rfl

/-- Eight bytes, the highest first. -/
theorem setBigEndian64_eq (val : UInt64) : setBigEndian64 val = beBytes 8 val.toNat := by
  have hhigh : (val >>> 32).toNat = val.toNat / 256 ^ 4 := by
    rw [UInt64.toNat_shiftRight, Nat.shiftRight_eq_div_pow]
    rfl
  have hmod : (2 : Nat) ^ 32 = 256 ^ 4 := by decide
  rw [setBigEndian64, setBigEndian32_eq, setBigEndian32_eq, UInt64.toNat_toUInt32,
    UInt64.toNat_toUInt32, hhigh, hmod, beBytes_mod (Nat.le_refl 4), beBytes_mod (Nat.le_refl 4),
    ← beBytes_add]

/-- Four bytes are read so. -/
theorem getBigEndian32_eq (a b c d : UInt8) (tail : List UInt8) :
    (getBigEndian32 (a :: b :: c :: d :: tail)).toNat = beNat [a, b, c, d] := by
  have ha := a.toNat_lt
  have hb := b.toNat_lt
  have hc := c.toNat_lt
  have hd := d.toNat_lt
  have hshift : ∀ (x : UInt8) (k : Nat), k < 25 →
      (x.toUInt32 <<< UInt32.ofNat k).toNat = 2 ^ k * x.toNat := by
    intro x k hk
    have hx := x.toNat_lt
    have hpow : 2 ^ k ≤ 2 ^ 24 := Nat.pow_le_pow_right (by decide) (by omega)
    have hmod : (UInt32.ofNat k).toNat % 32 = k := by
      rw [UInt32.toNat_ofNat']
      omega
    rw [UInt32.toNat_shiftLeft, hmod, UInt8.toNat_toUInt32, Nat.shiftLeft_eq, Nat.mul_comm,
      Nat.mod_eq_of_lt]
    calc 2 ^ k * x.toNat ≤ 2 ^ 24 * x.toNat := Nat.mul_le_mul_right _ hpow
      _ < 2 ^ 32 := by omega
  have h1 : 2 ^ 24 * a.toNat ||| 2 ^ 16 * b.toNat = 2 ^ 16 * (2 ^ 8 * a.toNat + b.toNat) := by
    rw [← Nat.two_pow_add_eq_or_of_lt (by omega)]
    omega
  have h2 : 2 ^ 16 * (2 ^ 8 * a.toNat + b.toNat) ||| 2 ^ 8 * c.toNat =
      2 ^ 8 * (2 ^ 16 * a.toNat + 2 ^ 8 * b.toNat + c.toNat) := by
    rw [← Nat.two_pow_add_eq_or_of_lt (by omega)]
    omega
  have h3 : 2 ^ 8 * (2 ^ 16 * a.toNat + 2 ^ 8 * b.toNat + c.toNat) ||| d.toNat =
      2 ^ 8 * (2 ^ 16 * a.toNat + 2 ^ 8 * b.toNat + c.toNat) + d.toNat :=
    (Nat.two_pow_add_eq_or_of_lt hd _).symm
  have ha24 : (a.toUInt32 <<< 24).toNat = 2 ^ 24 * a.toNat := hshift a 24 (by decide)
  have hb16 : (b.toUInt32 <<< 16).toNat = 2 ^ 16 * b.toNat := hshift b 16 (by decide)
  have hc8 : (c.toUInt32 <<< 8).toNat = 2 ^ 8 * c.toNat := hshift c 8 (by decide)
  rw [getBigEndian32, UInt32.toNat_or, UInt32.toNat_or, UInt32.toNat_or, ha24, hb16, hc8,
    UInt8.toNat_toUInt32, h1, h2, h3]
  simp only [beNat, List.foldl_cons, List.foldl_nil]
  omega

/-- Reading back what was stored. -/
theorem getBigEndian32_beBytes {n : Nat} (h : n < 2 ^ 32) (tail : List UInt8) :
    (getBigEndian32 (beBytes 4 n ++ tail)).toNat = n := by
  refine (getBigEndian32_eq _ _ _ _ tail).trans ?_
  exact (beNat_beBytes 4 n).trans (Nat.mod_eq_of_lt h)

/-- A word made of two halves. -/
theorem toNat_shiftLeft_or (high low : UInt32) :
    (high.toUInt64 <<< 32 ||| low.toUInt64).toNat = 2 ^ 32 * high.toNat + low.toNat := by
  have hhigh := high.toNat_lt
  have hlow := low.toNat_lt
  have hshift : (high.toUInt64 <<< 32).toNat = 2 ^ 32 * high.toNat := by
    rw [UInt64.toNat_shiftLeft, UInt32.toNat_toUInt64, Nat.shiftLeft_eq]
    simp only [UInt64.toNat_ofNat, Nat.reducePow, Nat.reduceMod]
    omega
  rw [UInt64.toNat_or, hshift, UInt32.toNat_toUInt64, ← Nat.two_pow_add_eq_or_of_lt hlow]

/-- Eight bytes are read back. -/
theorem getBigEndian64_beBytes (val : UInt64) (tail : List UInt8) :
    getBigEndian64 (beBytes 8 val.toNat ++ tail) = val := by
  have hlt := val.toNat_lt
  have hpow : (256 : Nat) ^ 4 = 2 ^ 32 := by decide
  have hsplit : beBytes 8 val.toNat = beBytes 4 (val.toNat / 256 ^ 4) ++ beBytes 4 val.toNat :=
    beBytes_add 4 4 val.toNat
  have hmod : beBytes 4 val.toNat = beBytes 4 (val.toNat % 2 ^ 32) := by
    rw [← hpow, beBytes_mod (Nat.le_refl 4)]
  rw [← UInt64.toNat_inj, getBigEndian64, toNat_shiftLeft_or, hsplit, List.append_assoc,
    List.drop_left' (length_beBytes _ _), hpow, getBigEndian32_beBytes (by omega), hmod,
    getBigEndian32_beBytes (Nat.mod_lt _ (by decide)), Nat.div_add_mod]

/-! ## Reading a frame -/

/-- Reference: `STREAM_HEADER_SIZE` (`shim/shim.h:47`). -/
def streamHeaderSize : Nat := 12

/-- Reference: `STREAM_HEADER_LENGTH_OFFSET` (`shim/shim.h:48`). -/
def streamHeaderLengthOffset : Nat := 8

/-- Reference: `HYPERSTART_MAX_RECV_BYTES` (`shim/shim.h:60`). -/
def hyperstartMaxRecvBytes : Nat := 10240

/-- The buffer size of glibc's `stdio.h`. -/
def bufsiz : Nat := 8192

/-- How `read_IO_message` ends: the process exits at the end of the stream, a frame above the limit
is refused, or there is a frame with its sequence number and the length in its header. -/
inductive IoRead
  | eof
  | refused (conn : List (List UInt8))
  | message (seq : UInt64) (streamLen : Nat) (buf : List UInt8) (conn : List (List UInt8))

/-- The frame that is returned. Reference: `shim/shim.c:408-409`. -/
def IoRead.ofBuffer (streamLen : Nat) (buf : List UInt8) (conn : List (List UInt8)) : IoRead :=
  .message (getBigEndian64 buf) streamLen buf conn

/-- The loop of `read_IO_message`; `buf` is what has been read, so the source's `bytes_read` is its
length. The fuel bounds the number of reads. Reference: `shim/shim.c:365-407`. -/
def readIOLoop : Nat → (needRead streamLen : Nat) → (buf : List UInt8) → List (List UInt8) → IoRead
  | 0, _, _, _, _ => .eof
  | fuel + 1, needRead, streamLen, buf, conn =>
    if buf.length < needRead then
      match readSome (min (needRead - buf.length) bufsiz) conn with
      | none | some ([], _) => .eof
      | some (b :: bs, conn) =>
        let buf := buf ++ b :: bs
        if streamLen = 0 ∧ streamHeaderSize ≤ buf.length then
          let streamLen := (getBigEndian32 (buf.drop streamHeaderLengthOffset)).toNat
          if streamLen = streamHeaderSize then .ofBuffer streamLen buf conn
          else if hyperstartMaxRecvBytes < streamLen then .refused conn
          else
            readIOLoop fuel (if streamHeaderSize < streamLen then streamLen else needRead)
              streamLen buf conn
        else readIOLoop fuel needRead streamLen buf conn
    else .ofBuffer streamLen buf conn

/-- Reference: `read_IO_message` (`shim/shim.c:348`). -/
def readIOMessage (conn : List (List UInt8)) : IoRead :=
  readIOLoop (chunkFuel conn) streamHeaderSize 0 [] conn

/-- What the shim asks for. -/
def wantAtMost (missing : Nat) : Nat := min missing bufsiz

theorem modest_wantAtMost : Modest wantAtMost := by
  intro n hn
  rw [wantAtMost, bufsiz]
  omega

/-- Once the length is known, the loop only reads on. -/
theorem readIOLoop_eq_fill {needRead streamLen : Nat} (hlen : streamLen ≠ 0) :
    ∀ {fuel : Nat} {buf : List UInt8} {conn : List (List UInt8)}, NonemptyChunks conn →
    readIOLoop fuel needRead streamLen buf conn =
      match fill wantAtMost needRead fuel buf conn with
      | none => .eof
      | some (buf, conn) => .ofBuffer streamLen buf conn := by
  intro fuel
  induction fuel with
  | zero =>
    intro buf conn _
    rfl
  | succ fuel ih =>
    intro buf conn hconn
    rw [readIOLoop, fill]
    by_cases hlt : buf.length < needRead
    · rw [if_pos hlt, if_pos hlt]
      cases conn with
      | nil => rfl
      | cons c cs =>
        have hmodest := modest_wantAtMost (needRead - buf.length) (by omega)
        obtain ⟨b, bs, rest, hread, hrest, -⟩ := hconn.readSome_cons hmodest.1 hmodest.2
        have hread' : readSome (min (needRead - buf.length) bufsiz) (c :: cs) =
          some (b :: bs, rest) := hread
        rw [hread', hread]
        dsimp only
        rw [if_neg (fun h => hlen h.1)]
        exact ih hrest
    · rw [if_neg hlt, if_neg hlt]

/-- While the header is incomplete the loop reads on towards it; the read that completes it gives
the length of the frame. -/
theorem readIOLoop_header : ∀ {fuel : Nat} {buf : List UInt8} {conn : List (List UInt8)},
    chunkFuel conn ≤ fuel → NonemptyChunks conn → buf.length < streamHeaderSize →
    streamHeaderSize ≤ (buf ++ conn.flatten).length →
    ∃ fuel', chunkFuel (dropChunks (streamHeaderSize - buf.length) conn) ≤ fuel' ∧
      readIOLoop fuel streamHeaderSize 0 buf conn =
        let head := (buf ++ conn.flatten).take streamHeaderSize
        let rest := dropChunks (streamHeaderSize - buf.length) conn
        let streamLen := (getBigEndian32 (head.drop streamHeaderLengthOffset)).toNat
        if streamLen = streamHeaderSize then .ofBuffer streamLen head rest
        else if hyperstartMaxRecvBytes < streamLen then .refused rest
        else readIOLoop fuel' (if streamHeaderSize < streamLen then streamLen else streamHeaderSize)
          streamLen head rest := by
  intro fuel
  induction fuel with
  | zero =>
    intro buf conn hfuel
    exact absurd hfuel (by simp [chunkFuel])
  | succ fuel ih =>
    intro buf conn hfuel hconn hlt hlong
    cases conn with
    | nil =>
      rw [List.flatten_nil, List.append_nil] at hlong
      omega
    | cons c cs =>
      have hmodest := modest_wantAtMost (streamHeaderSize - buf.length) (by omega)
      obtain ⟨b, bs, rest, hread, hrest, hgot, hstream, hless, hdrop⟩ :=
        hconn.readSome_cons hmodest.1 hmodest.2
      have hread : readSome (min (streamHeaderSize - buf.length) bufsiz) (c :: cs) =
        some (b :: bs, rest) := hread
      rw [← hstream, ← List.append_assoc] at hlong ⊢
      have hle : (b :: bs).length ≤ streamHeaderSize - buf.length := Nat.le_trans hgot hmodest.2
      have hsum : (buf ++ b :: bs).length = buf.length + (b :: bs).length := List.length_append
      rw [readIOLoop, if_pos hlt, hread, ← hdrop]
      dsimp only
      by_cases hhead : streamHeaderSize ≤ (buf ++ b :: bs).length
      · -- the buffer holds exactly the header
        have hexact : (buf ++ b :: bs).length = streamHeaderSize := by omega
        have hzero : streamHeaderSize - buf.length - (b :: bs).length = 0 := by omega
        rw [if_pos ⟨rfl, hhead⟩, List.take_left' hexact, hzero, dropChunks_zero]
        exact ⟨fuel, by omega, rfl⟩
      · rw [if_neg (fun h => hhead h.2)]
        have hmissing : streamHeaderSize - (buf ++ b :: bs).length =
          streamHeaderSize - buf.length - (b :: bs).length := by omega
        have ih := ih (Nat.le_of_lt_succ (Nat.lt_of_lt_of_le hless hfuel)) hrest (by omega) hlong
        rwa [hmissing] at ih

/-- **Reading a frame.** On the frame of a message within the limit, the whole frame is returned
with the message's number, and the stream behind it is left. -/
theorem readIOMessage_encodeTty {m : TtyMessage} {tail : List UInt8} {conn : List (List UInt8)}
    (hlen : m.message.length + streamHeaderSize ≤ hyperstartMaxRecvBytes)
    (hne : NonemptyChunks conn) (hconn : conn.flatten = encodeTty m ++ tail) :
    readIOMessage conn = .message m.session (m.message.length + streamHeaderSize) (encodeTty m)
      (dropChunks (encodeTty m).length conn) := by
  have hsize : (encodeTty m).length = m.message.length + streamHeaderSize := length_encodeTty m
  have hhead : (encodeTty m ++ tail).take streamHeaderSize =
      beBytes 8 m.session.toNat ++ beBytes 4 (m.message.length + streamHeaderSize) := by
    rw [encodeTty, List.append_assoc, List.take_left' (by simp [streamHeaderSize])]
    rfl
  have hstreamLen : (getBigEndian32 ((beBytes 8 m.session.toNat ++
      beBytes 4 (m.message.length + streamHeaderSize)).drop streamHeaderLengthOffset)).toNat =
      m.message.length + streamHeaderSize := by
    rw [List.drop_left' (by simp [streamHeaderLengthOffset]), ← List.append_nil (beBytes 4 _),
      getBigEndian32_beBytes]
    rw [hyperstartMaxRecvBytes] at hlen
    omega
  have hseq : getBigEndian64 (encodeTty m) = m.session := by
    rw [encodeTty, List.append_assoc, getBigEndian64_beBytes]
  have hlong : streamHeaderSize ≤ (encodeTty m ++ tail).length := by
    rw [List.length_append]
    omega
  obtain ⟨fuel, hfuel, hloop⟩ := @readIOLoop_header (chunkFuel conn) [] conn (Nat.le_refl _) hne
    (by decide) (by rwa [List.nil_append, hconn])
  rw [List.nil_append, hconn, hhead, List.length_nil, Nat.sub_zero] at hloop
  rw [List.length_nil, Nat.sub_zero] at hfuel
  dsimp only at hloop
  rw [readIOMessage, hloop, hstreamLen]
  by_cases hempty : m.message = []
  · -- a frame without a payload ends the loop with its header
    have hwhole : encodeTty m = beBytes 8 m.session.toNat ++ beBytes 4 streamHeaderSize := by
      rw [encodeTty, hempty, List.append_nil]
      rfl
    rw [hempty, List.length_nil, Nat.zero_add] at hsize ⊢
    rw [if_pos rfl, IoRead.ofBuffer, ← hwhole, hseq, hsize]
  · have hpos := List.length_pos_iff.2 hempty
    have hall : beBytes 8 m.session.toNat ++ beBytes 4 (m.message.length + streamHeaderSize) ++
        (dropChunks streamHeaderSize conn).flatten = encodeTty m ++ tail := by
      rw [flatten_dropChunks, hconn, ← hhead, List.take_append_drop]
    have hbuf : (beBytes 8 m.session.toNat ++
        beBytes 4 (m.message.length + streamHeaderSize)).length = streamHeaderSize := by
      simp [streamHeaderSize]
    rw [if_neg (by omega), if_neg (by omega), if_pos (by omega),
      readIOLoop_eq_fill (by omega) (hne.dropChunks _), fill_eq modest_wantAtMost hfuel (by omega),
      hall, if_neg (by rw [List.length_append]; omega), hbuf, ← hsize, List.take_left' rfl,
      dropChunks_add, Nat.add_sub_cancel' (by omega)]
    dsimp only
    rw [IoRead.ofBuffer, hseq]

end Shim

end CcOciRuntime
