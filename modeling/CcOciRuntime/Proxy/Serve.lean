import CcOciRuntime.Proxy.Handlers
import CcOciRuntime.Proxy.Messages
import Mathlib.Algebra.BigOperators.Group.List.Basic

/-!
# The request loop of a connection

`Serve` reads one request after the other and answers each before it reads the next: a byte with the
handler's file if there is one, then the frame of the response. The set of handlers is arbitrary, a
handler works on a state of its own; `proxyProtocol` is the set that the proxy installs.

A stream of requests is some well-formed frames (`RequestFrame`) and what follows them, which is
malformed (`Malformed`) in one of three ways: too short for a header, too short for its body, or
with a body that is no request. `serve_eq_answers_iff` says when the bytes that `Serve` writes are
the answers to the well-formed frames.

Reference: `proxy/protocol.go:79-146`, `proxy/api/fdpassing.go:34-42`.
-/

namespace CcOciRuntime

namespace Proxy

/-- A byte on a socket, with the descriptor that travels with it. -/
abbrev SocketByte := UInt8 × Option Fd

/-- Bytes without a descriptor. -/
def plain (bs : List UInt8) : List SocketByte := bs.map (·, none)

/-- Reference: `fileTag` (`proxy/api/fdpassing.go:30`). -/
def fileTag : UInt8 := 70

/-- Reference: `WriteFd` (`proxy/api/fdpassing.go:38`). -/
def writeFd (fd : Fd) : List SocketByte := [(fileTag, some fd)]

/-- Reference: `protocol` (`proxy/protocol.go:59`). A handler gets the data of the request and
leaves a response, or it ends the process. -/
structure Protocol (σ : Type) where
  handlers : String → Option (σ → Option Json → Except Fault (σ × HandlerResponse))

section
variable {σ : Type}

/-- The state after a request, the response, and the file of the handler. Reference: `handleRequest`
(`proxy/protocol.go:79`). -/
def Protocol.handleRequest (proto : Protocol σ) (s : σ) (req : Request) :
    Except Fault (σ × Response × Option Fd) :=
  if req.id = "" then .ok (s, Response.failure "no 'id' field in request", none)
  else
    match proto.handlers req.id with
    | none => .ok (s, Response.failure ("no payload named '" ++ req.id ++ "'"), none)
    | some handler => (handler s req.data).map fun (s', hr) => (s', hr.response, hr.file)

/-- How the loop ended: `Serve` returned an error, or a handler ended the process. -/
inductive ServeEnd
  | returned (err : String)
  | fault (f : Fault)
  deriving DecidableEq

/-- What `Serve` leaves. -/
structure Served (σ : Type) where
  state : σ
  written : List SocketByte
  ended : ServeEnd

/-- The byte sent before a response. Reference: `proxy/protocol.go:132-137`. -/
def fileBytes : Option Fd → List SocketByte
  | none => []
  | some fd => writeFd fd

/-- The loop of `Serve`; the fuel bounds the number of requests. Writes succeed, so a response is
not written only when it has no encoding. -/
def Protocol.serveLoop (proto : Protocol σ) : Nat → σ → List (List UInt8) → Served σ
  | 0, s, _ => { state := s, written := [], ended := .returned "EOF" }
  | fuel + 1, s, conn =>
    match Wire.readMessage unmarshalRequest conn with
    | .error err => { state := s, written := [], ended := .returned err }
    | .ok (req, conn) =>
      match proto.handleRequest s req with
      | .error f => { state := s, written := [], ended := .fault f }
      | .ok (s, resp, file) =>
        match marshalResponse resp with
        | none =>
          { state := s, written := fileBytes file, ended := .returned "json: unsupported value" }
        | some text =>
          let r := proto.serveLoop fuel s conn
          { r with written := fileBytes file ++ plain (Wire.writeMessage text) ++ r.written }

/-- Reference: `Serve` (`proxy/protocol.go:110`). The connection is the chunks that it will read. -/
def Protocol.serve (proto : Protocol σ) (s : σ) (conn : List (List UInt8)) : Served σ :=
  proto.serveLoop (chunkFuel conn) s conn

/-! ## Streams of requests -/

/-- A well-formed frame of a request. -/
structure RequestFrame where
  flags : List UInt8
  payload : List UInt8
  req : Request
  length_flags : flags.length = 4
  short : payload.length < 2 ^ 32
  decoded : unmarshalRequest payload = .ok req

/-- What stands on the wire for the request. -/
def RequestFrame.bytes (f : RequestFrame) : List UInt8 := Wire.rawFrame f.flags f.payload

/-- A stream that does not begin with a well-formed frame. -/
def Malformed (stream : List UInt8) : Prop :=
  let need := beNat (stream.take 4)
  let body := stream.drop Wire.headerLength
  stream.length < Wire.headerLength ∨ body.length < need ∨
    ∃ err, unmarshalRequest (body.take need) = .error err

/-- The bytes that answer some requests one after the other, when every handler returns a response
that has an encoding. -/
def Protocol.answers (proto : Protocol σ) : σ → List Request → Option (List SocketByte)
  | _, [] => some []
  | s, req :: reqs =>
    match proto.handleRequest s req with
    | .error _ => none
    | .ok (s, resp, file) =>
      match marshalResponse resp with
      | none => none
      | some text =>
        (proto.answers s reqs).map (fileBytes file ++ plain (Wire.writeMessage text) ++ ·)

/-- Along some requests every handler returns, and with results that have an encoding. -/
def Protocol.Encodable (proto : Protocol σ) : σ → List Request → Prop
  | _, [] => True
  | s, req :: reqs => ∃ s' resp file, proto.handleRequest s req = .ok (s', resp, file) ∧
      (Json.obj resp.members).printable ∧ proto.Encodable s' reqs

/-- When a response can be encoded. -/
theorem isSome_marshalResponse {resp : Response} :
    (marshalResponse resp).isSome ↔ (Json.obj resp.members).printable := by
  rw [marshalResponse, marshalJson]
  split_ifs with h
  · exact iff_of_true rfl h
  · exact iff_of_false Bool.false_ne_true h

/-- There are answers if each can be encoded. -/
theorem isSome_answers {proto : Protocol σ} {s : σ} {reqs : List Request} :
    (proto.answers s reqs).isSome ↔ proto.Encodable s reqs := by
  induction reqs generalizing s with
  | nil => exact iff_of_true rfl trivial
  | cons req reqs ih =>
    rw [Protocol.answers, Protocol.Encodable]
    cases hreq : proto.handleRequest s req with
    | error f => exact iff_of_false Bool.false_ne_true (by rintro ⟨_, _, _, h, -⟩; cases h)
    | ok r =>
      obtain ⟨s', resp, file⟩ := r
      dsimp only
      cases htext : marshalResponse resp with
      | none =>
        refine iff_of_false Bool.false_ne_true ?_
        rintro ⟨_, _, _, h, hp, -⟩
        cases h
        rw [← isSome_marshalResponse, htext] at hp
        cases hp
      | some text =>
        dsimp only
        rw [Option.isSome_map, ih]
        constructor
        · intro h
          exact ⟨s', resp, file, rfl, isSome_marshalResponse.1 (by rw [htext]; rfl), h⟩
        · rintro ⟨_, _, _, h, -, hrest⟩
          cases h
          exact hrest

/-- Every request has an answer that is not empty. -/
theorem answers_cons_ne_nil {proto : Protocol σ} {s : σ} {req : Request} {reqs : List Request} :
    proto.answers s (req :: reqs) ≠ some [] := by
  intro h
  rw [Protocol.answers] at h
  split at h
  · cases h
  · split at h
    · cases h
    · next text _ =>
      obtain ⟨out, -, hnil⟩ := Option.map_eq_some_iff.1 h
      have hlen := congrArg List.length hnil
      rw [List.length_append, List.length_append, plain, List.length_map,
        Wire.writeMessage_eq_frame, Wire.length_frame, Wire.headerLength, List.length_nil] at hlen
      omega

/-- A malformed stream is not read, however it is cut. -/
theorem exists_readMessage_error {conn : List (List UInt8)} (h : Malformed conn.flatten) :
    ∃ err, Wire.readMessage unmarshalRequest conn = .error err := by
  cases conn with
  | nil => exact ⟨_, rfl⟩
  | cons c cs =>
    rcases Nat.lt_or_ge c.length Wire.headerLength with hc | hc
    · exact ⟨_, Wire.readMessage_of_short_header hc⟩
    · rw [Wire.readMessage_of_whole_header hc]
      dsimp only
      split_ifs with hshort
      · exact ⟨_, rfl⟩
      · rcases h with h | h | ⟨err, h⟩
        · rw [List.flatten_cons, List.length_append] at h
          exact absurd h (by omega)
        · exact absurd h hshort
        · exact ⟨err, by rw [h]; rfl⟩

theorem RequestFrame.length_bytes (f : RequestFrame) :
    f.bytes.length = Wire.headerLength + f.payload.length :=
  Wire.length_rawFrame f.length_flags f.payload

/-- The loop on the frames of some requests. The induction is on the frames; what the first one's
read leaves is again frames and a malformed rest. -/
theorem serveLoop_eq_answers_iff (proto : Protocol σ) {frames : List RequestFrame}
    {rest : List UInt8} (hrest : Malformed rest) :
    ∀ {fuel : Nat} {s : σ} {conn : List (List UInt8)}, frames.length < fuel →
    conn.flatten = frames.flatMap RequestFrame.bytes ++ rest →
    (proto.answers s (frames.map (·.req)) = some (proto.serveLoop fuel s conn).written ↔
      Wire.HeadersWhole (frames.map (·.bytes.length)) conn ∧
        proto.Encodable s (frames.map (·.req))) := by
  induction frames with
  | nil =>
    intro fuel s conn hfuel hconn
    obtain ⟨fuel, rfl⟩ := Nat.exists_eq_succ_of_ne_zero (Nat.ne_of_gt hfuel)
    rw [List.flatMap_nil, List.nil_append] at hconn
    obtain ⟨err, herr⟩ := exists_readMessage_error (hconn ▸ hrest)
    rw [Protocol.serveLoop, herr]
    exact iff_of_true rfl ⟨trivial, trivial⟩
  | cons f frames ih =>
    intro fuel s conn hfuel hconn
    obtain ⟨fuel, rfl⟩ := Nat.exists_eq_succ_of_ne_zero (Nat.ne_of_gt (Nat.zero_lt_of_lt hfuel))
    rw [List.flatMap_cons, List.append_assoc] at hconn
    obtain ⟨c, cs, rfl⟩ := Wire.exists_cons_of_flatten_rawFrame f.length_flags hconn
    rw [List.map_cons, List.map_cons, Wire.HeadersWhole, Protocol.serveLoop]
    rcases Nat.lt_or_ge c.length Wire.headerLength with hc | hc
    · -- the header is cut: nothing is written for this request
      refine iff_of_false ?_ fun h => absurd h.1.1 (by omega)
      rw [Wire.readMessage_of_short_header hc]
      exact answers_cons_ne_nil
    · have hread : Wire.readMessage unmarshalRequest (c :: cs) =
          .ok (f.req, dropChunks f.bytes.length (c :: cs)) := by
        rw [Wire.readMessage_rawFrame f.length_flags f.short hconn hc, f.decoded]
        rfl
      have hafter : (dropChunks f.bytes.length (c :: cs)).flatten =
          frames.flatMap RequestFrame.bytes ++ rest := by
        rw [flatten_dropChunks, hconn, List.drop_left' rfl]
      rw [hread, ← isSome_answers, Protocol.answers]
      dsimp only
      cases hreq : proto.handleRequest s f.req with
      | error fault =>
        dsimp only
        exact iff_of_false (fun h => by cases h) fun h => Bool.false_ne_true h.2
      | ok r =>
        obtain ⟨s', resp, file⟩ := r
        dsimp only
        cases marshalResponse resp with
        | none => exact iff_of_false (fun h => by cases h) fun h => Bool.false_ne_true h.2
        | some text =>
          have ih := @ih fuel s' _ (Nat.lt_of_succ_lt_succ hfuel) hafter
          dsimp only
          rw [Option.isSome_map, isSome_answers, and_assoc]
          constructor
          · intro h
            obtain ⟨out, hout, heq⟩ := Option.map_eq_some_iff.1 h
            rw [List.append_cancel_left heq] at hout
            exact ⟨hc, ih.1 hout⟩
          · rintro ⟨-, h⟩
            rw [ih.2 h]
            rfl

/-- A request without an ID, or with one that has no handler, gets a failure that has an encoding,
and leaves the state. -/
theorem handleRequest_unknown {proto : Protocol σ} {req : Request}
    (h : req.id = "" ∨ proto.handlers req.id = none) (s : σ) :
    ∃ err, proto.handleRequest s req = .ok (s, Response.failure err, none) ∧
      (marshalResponse (Response.failure err)).isSome := by
  have hmarshal : ∀ err, (marshalResponse (Response.failure err)).isSome := by
    intro err
    rw [isSome_marshalResponse, Response.members, Response.failure]
    by_cases herr : err = ""
    · simp [herr, Json.printable, Json.printableMembers]
    · simp [herr, Json.printable, Json.printableMembers]
  by_cases hid : req.id = ""
  · exact ⟨_, by rw [Protocol.handleRequest, if_pos hid], hmarshal _⟩
  · have hnone := h.resolve_left hid
    exact ⟨_, by rw [Protocol.handleRequest, if_neg hid, hnone], hmarshal _⟩

/-- **One response per request, in order.** For every set of handlers and every stream of
well-formed requests up to a malformed rest, the bytes that `Serve` writes are the answers to those
requests exactly when no read that begins one of their frames gets a part of the header only and
every handler returns a response that has an encoding. A request without a handler is answered by a
failure like any other. -/
theorem serve_eq_answers_iff (proto : Protocol σ) (s : σ) (frames : List RequestFrame)
    (rest : List UInt8) (hrest : Malformed rest) (conn : List (List UInt8))
    (hconn : conn.flatten = frames.flatMap RequestFrame.bytes ++ rest) :
    (proto.answers s (frames.map (·.req)) = some (proto.serve s conn).written ↔
      Wire.HeadersWhole (frames.map (·.bytes.length)) conn ∧
        proto.Encodable s (frames.map (·.req))) ∧
    ∀ (s : σ) (req : Request), req.id = "" ∨ proto.handlers req.id = none →
      ∃ err, proto.handleRequest s req = .ok (s, Response.failure err, none) ∧
        (marshalResponse (Response.failure err)).isSome := by
  refine ⟨serveLoop_eq_answers_iff proto hrest ?_ hconn, fun s req h => handleRequest_unknown h s⟩
  have hframes : frames.length ≤ (frames.flatMap RequestFrame.bytes).length := by
    rw [List.length_flatMap, ← List.length_map (fun f : RequestFrame => f.bytes.length)]
    refine List.length_le_sum_of_one_le _ fun n hn => ?_
    obtain ⟨f, -, rfl⟩ := List.mem_map.1 hn
    rw [f.length_bytes, Wire.headerLength]
    omega
  rw [chunkFuel, hconn, List.length_append]
  omega

end

/-! ## The proxy's handlers -/

/-- The handlers that the proxy installs, for a client and what the environment answers to its
requests. Reference: `proxy/proxy.go:360-364`. -/
def proxyProtocol (c : ClientRef) (env : Env) : Protocol ProxyState where
  handlers id :=
    if id = "hello" then some fun s data => .ok (helloHandler s c env data)
    else if id = "attach" then some fun s data => .ok (attachHandler s c data)
    else if id = "bye" then some fun s data => .ok (byeHandler s c data)
    else if id = "allocateIO" then some fun s data => .ok (allocateIoHandler s c env data)
    else if id = "hyper" then some fun s data => hyperHandler s c env data
    else none

/-- The dispatch with that table is the one of the handlers' model. -/
theorem proxyProtocol_handleRequest (c : ClientRef) (env : Env) (s : ProxyState) (req : Request) :
    (proxyProtocol c env).handleRequest s req = handleRequest s c env req := by
  rw [Protocol.handleRequest, handleRequest, proxyProtocol, handle]
  dsimp only
  split_ifs <;> rfl

/-- A frame that `WriteMessage` has written for a request. -/
def RequestFrame.ofSent (m : Wire.Sent requestCodec) : RequestFrame where
  flags := List.replicate 4 0
  payload := utf8 m.text.toList
  req := m.msg
  length_flags := List.length_replicate
  short := m.short
  decoded := requestCodec.unmarshal_marshal m.marshalled

/-- A protocol whose one handler passes a file. -/
def fileProtocol : Protocol Nat where
  handlers id := if id = "simple" then some fun n _ => .ok (n + 1, { file := some n }) else none

/-- Two requests, the second of them cut in its body, get a file and a response each. -/
theorem serve_eq_answers_two :
    let f := RequestFrame.ofSent sentSimple
    let conn := [f.bytes ++ f.bytes.take 11, f.bytes.drop 11]
    fileProtocol.answers 4 [f.req, f.req] = some (fileProtocol.serve 4 conn).written :=
  (serve_eq_answers_iff fileProtocol 4
    [RequestFrame.ofSent sentSimple, RequestFrame.ofSent sentSimple] [] (.inl (by decide))
    [(RequestFrame.ofSent sentSimple).bytes ++ (RequestFrame.ofSent sentSimple).bytes.take 11,
      (RequestFrame.ofSent sentSimple).bytes.drop 11] (by decide +kernel)).1.2
    ⟨by decide +kernel, _, _, _, rfl, by decide, _, _, _, rfl, by decide, trivial⟩

/-- A request whose header arrives as three bytes and five gets no answer: the connection ends with
nothing written. -/
theorem serve_cut_header :
    let f := RequestFrame.ofSent sentSimple
    let conn := [f.bytes.take 3, f.bytes.drop 3]
    conn.flatten = f.bytes ∧
    (fileProtocol.serve 4 conn).written = [] ∧
    (fileProtocol.serve 4 conn).ended = .returned "couldn't read the full header" ∧
    fileProtocol.answers 4 [f.req] =
      some (writeFd 4 ++ plain (Wire.writeMessage "\x7b\"success\":true\x7d")) := by
  decide +kernel

end Proxy

end CcOciRuntime
