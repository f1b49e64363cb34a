import CcOciRuntime.Proxy.FailedRequest
import CcOciRuntime.Proxy.Serve

/-!
# The Go client and the proxy

The calls of `api.Client` on one connection, against the proxy's handlers. A call writes its
request, the proxy answers it, and the call reads its response from the bytes on the socket; the
call for an I/O channel first reads a byte that carries a descriptor, whether or not the proxy sent
one. What a call leaves unread stands before the answer to the next one. An exchange is in step when
the call has decoded the response to its own request and nothing is left (`Exchange.InStep`).

Between two calls other clients have their requests handled. Reads get what they ask for once it has
been written, and wait for it otherwise.

Reference: `proxy/api/client.go:45-244`, `proxy/api/fdpassing.go:44-78`.
-/

namespace CcOciRuntime

namespace Proxy

/-- The calls of the client with their arguments; the message of a hyper call is the document that
it is encoded to. -/
inductive ApiCall
  | hello (containerID ctlSerial ioSerial console : String)
  | attach (containerID : String)
  | allocateIo (nStreams : Int64)
  | hyper (hyperName : String) (hyperMessage : Option Json)
  | bye (containerID : String)

/-- The members of a `Hello`; an empty console is left out. Reference: `proxy/api/api.go:38`. -/
def helloMembers (containerID ctlSerial ioSerial console : String) : List (String × Json) :=
  [("containerId", .str containerID), ("ctlSerial", .str ctlSerial), ("ioSerial", .str ioSerial)] ++
    if console = "" then [] else [("console", .str console)]

/-- The members of a `Hyper`; absent data is left out. Reference: `proxy/api/api.go:137`. -/
def hyperMembers (hyperName : String) (data : Option Json) : List (String × Json) :=
  ("hyperName", .str hyperName) ::
    match data with
    | none => []
    | some data => [("data", data)]

/-- The request of a call. Reference: `proxy/api/client.go:127-244`. -/
def ApiCall.request : ApiCall → Request
  | .hello containerID ctlSerial ioSerial console =>
    { id := "hello", data := some (.obj (helloMembers containerID ctlSerial ioSerial console)) }
  | .attach containerID =>
    { id := "attach", data := some (.obj [("containerId", .str containerID)]) }
  | .allocateIo nStreams =>
    { id := "allocateIO", data := some (.obj [("nStreams", .int nStreams.toInt)]) }
  | .hyper hyperName hyperMessage =>
    { id := "hyper", data := some (.obj (hyperMembers hyperName hyperMessage)) }
  | .bye containerID => { id := "bye", data := some (.obj [("containerId", .str containerID)]) }

/-- The call goes through `sendPayloadGetFd`. -/
def ApiCall.getsFd : ApiCall → Bool
  | .allocateIo _ => true
  | .hello .. | .attach _ | .hyper .. | .bye _ => false

/-! ## Reading the answer -/

/-- Reference: `ReadFd` (`proxy/api/fdpassing.go:45`). It waits for a byte; the tag is compared only
when the read got none. -/
def readFd : List SocketByte → Option (Except String Fd × List SocketByte)
  | [] => none
  | (_, none) :: queue => some (.error "no out of band data read", queue)
  | (_, some fd) :: queue => some (.ok fd, queue)

/-- `ReadMessage` of a response, which waits for a whole frame. -/
def receive (queue : List SocketByte) : Option (Except String SortedResponse × List SocketByte) :=
  let need := beNat ((queue.take 4).map Prod.fst)
  let body := queue.drop Wire.headerLength
  if queue.length < Wire.headerLength then none
  else if body.length < need then none
  else some (unmarshalResponse ((body.take need).map Prod.fst), body.drop need)

/-- What a call gets: it waits for ever, it fails, or it has a response and perhaps a file. -/
inductive Received
  | waits
  | failed (err : String)
  | got (resp : SortedResponse) (file : Option Fd)

/-- The response that was decoded. -/
def Received.response : Received → Option SortedResponse
  | .got resp _ => some resp
  | .waits | .failed _ => none

/-- Reading a response after `file`. Reference: `proxy/api/client.go:59-65`, `:92-97`. -/
def awaitResponse (file : Option Fd) (queue : List SocketByte) : Received × List SocketByte :=
  match receive queue with
  | none => (.waits, queue)
  | some (.error err, queue) => (.failed err, queue)
  | some (.ok resp, queue) => (.got resp file, queue)

/-- Reference: `sendPayload`, `sendPayloadGetFd` (`proxy/api/client.go:45`, `:70`), once the request
is written. -/
def ApiCall.await (call : ApiCall) (queue : List SocketByte) : Received × List SocketByte :=
  if call.getsFd then
    match readFd queue with
    | none => (.waits, queue)
    | some (.error _, queue) =>
      (.failed ("sendPayloadGetFd: couldn't read fd for request " ++ call.request.id), queue)
    | some (.ok fd, queue) => awaitResponse (some fd) queue
  else awaitResponse none queue

/-- The error of a response that is a refusal. Reference: `errorFromResponse`
(`proxy/api/client.go:101`). -/
def errorFromResponse (resp : Response) : Option String :=
  if resp.success then none
  else if resp.error ≠ "" then some resp.error
  else some "unknown error"

/-- A number as a `float64`, rounded to 53 bits and to even. -/
def float64OfNat (n : Nat) : Nat :=
  if n < 2 ^ 53 then n
  else
    let unit := 2 ^ (n.log2 - 52)
    let q := n / unit
    let up := unit < 2 * (n % unit) ∨ unit = 2 * (n % unit) ∧ q % 2 = 1
    (if up then q + 1 else q) * unit

/-- What a call returns when it succeeds. -/
inductive CallReturn
  | done
  | allocated (ioBase : UInt64) (file : Option Fd)
  deriving DecidableEq

/-- The values of an allocation. A value of `ioBase` that is no number ends the process; the proxy
only sends numbers. One that rounds to `2 ^ 64` is no `uint64`, for which the language leaves the
result open; it is 0 here. Reference: `proxy/api/client.go:191-196`. -/
def allocated (resp : Response) (file : Option Fd) : Except String CallReturn :=
  match Json.find "ioBase" resp.data with
  | none => .error "allocateio: no ioBase in response"
  | some (.int n) => .ok (.allocated (UInt64.ofNat (float64OfNat n.toNat)) file)
  | some _ => .error "interface conversion"

/-- The result of a call, if it returns. Reference: `proxy/api/client.go:127-244`. -/
def ApiCall.result (call : ApiCall) : Received → Option (Except String CallReturn)
  | .waits => none
  | .failed err => some (.error err)
  | .got resp file =>
    match errorFromResponse resp.1 with
    | some err => some (.error err)
    | none => some (if call.getsFd then allocated resp.1 file else .ok .done)

/-! ## Runs -/

/-- A call with what happens around it: the requests of other clients that are handled before it,
and the answers of the environment to its own. Its request fits the length of a frame: of a longer
one the proxy reads a part and closes the connection. -/
structure Turn (c : ClientRef) where
  others : List (ClientRef × Env × Request)
  others_ne : ∀ o ∈ others, o.1 ≠ c
  env : Env
  call : ApiCall
  short : ∀ text, marshalRequest call.request = some text → (utf8 text.toList).length < 2 ^ 32

/-- The state after the requests of other clients, unless one of them ends the process. -/
def afterOthers : ProxyState → List (ClientRef × Env × Request) → Option ProxyState
  | s, [] => some s
  | s, (c, env, req) :: others =>
    match handleRequest s c env req with
    | .error _ => none
    | .ok (s, _, _) => afterOthers s others

/-- A call whose request was sent: the response that the proxy made for it and its text, what the
call got and what it returned, and what it left unread. -/
structure Exchange where
  resp : Response
  text : String
  received : Received
  result : Option (Except String CallReturn)
  unread : List SocketByte

/-- The exchange of a call, with the state of the proxy after it. Nothing when the connection does
not stay open: the proxy cannot read the request or write the response, or it ends. -/
def exchange (c : ClientRef) (s : ProxyState) (queue : List SocketByte) (env : Env) (call : ApiCall)
    (text : String) : Option (ProxyState × Exchange) :=
  match Wire.readMessage unmarshalRequest [Wire.writeMessage text] with
  | .error _ => none
  | .ok (req, _) =>
    match handleRequest s c env req with
    | .error _ => none
    | .ok (s, resp, file) =>
      match marshalResponse resp with
      | none => none
      | some text =>
        let r := call.await (queue ++ (fileBytes file ++ plain (Wire.writeMessage text)))
        some (s, { resp, text, received := r.1, result := call.result r.1, unread := r.2 })

/-- The exchanges of a sequence of calls. A call whose message has no encoding returns before it
sends anything, and a call that waits for ever is the last one. -/
def runCalls (c : ClientRef) : ProxyState → List SocketByte → List (Turn c) → Option (List Exchange)
  | _, _, [] => some []
  | s, queue, t :: ts =>
    match afterOthers s t.others with
    | none => none
    | some s =>
      match marshalRequest t.call.request with
      | none => runCalls c s queue ts
      | some text =>
        match exchange c s queue t.env t.call text with
        | none => none
        | some (s, x) =>
          match x.received with
          | .waits => some [x]
          | .failed _ | .got .. => (runCalls c s x.unread ts).map (x :: ·)

/-- The call has decoded the response to its own request, has left nothing of it, and returns the
error of a refusal. -/
def Exchange.InStep (x : Exchange) : Prop :=
  x.received.response = some x.resp.sorted ∧ x.unread = [] ∧
    ∀ err, errorFromResponse x.resp = some err → x.result = some (.error err)

/-- The response fits the length of a frame. -/
def Exchange.Fits (x : Exchange) : Prop := (utf8 x.text.toList).length < 2 ^ 32

instance (x : Exchange) : Decidable x.Fits := inferInstanceAs (Decidable (_ < _))

/-! ## One exchange -/

/-- The proxy reads the request that was written. -/
theorem readMessage_writeMessage {req : Request} {text : String}
    (h : marshalRequest req = some text) (hshort : (utf8 text.toList).length < 2 ^ 32) :
    Wire.readMessage unmarshalRequest [Wire.writeMessage text] = .ok (req, []) := by
  have hlen := Wire.length_frame text
  have hstream : ([Wire.writeMessage text] : List (List UInt8)).flatten =
      Wire.rawFrame (List.replicate 4 0) (utf8 text.toList) ++ [] := by
    rw [List.flatten_cons, List.flatten_nil, Wire.writeMessage_eq_frame, Wire.frame_eq_rawFrame]
  rw [Wire.readMessage_rawFrame List.length_replicate hshort hstream
      (by rw [Wire.writeMessage_eq_frame]; omega),
    unmarshalRequest_marshalRequest h, ← Wire.frame_eq_rawFrame, Wire.writeMessage_eq_frame,
    dropChunks_cons_of_le (by rw [hlen, Wire.headerLength]; omega) (Nat.le_refl _), Nat.sub_self]
  rfl

/-- The frame of a response is read to its end. -/
theorem receive_writeMessage {resp : Response} {text : String}
    (h : marshalResponse resp = some text) (hshort : (utf8 text.toList).length < 2 ^ 32) :
    receive (plain (Wire.writeMessage text)) = some (.ok resp.sorted, []) := by
  have hlen := Wire.length_frame text
  have hfst : ∀ bs : List UInt8, (plain bs).map Prod.fst = bs := by
    intro bs
    rw [plain, List.map_map]
    exact List.map_id bs
  have htake : ∀ n, ((plain (Wire.frame text)).take n).map Prod.fst = (Wire.frame text).take n := by
    intro n
    rw [List.map_take, hfst]
  have hdrop : (plain (Wire.frame text)).drop Wire.headerLength = plain (utf8 text.toList) := by
    rw [plain, ← List.map_drop, Wire.drop_frame]
    rfl
  have hbody : (plain (utf8 text.toList)).length = (utf8 text.toList).length := List.length_map _
  have hwhole : (plain (Wire.frame text)).length = (Wire.frame text).length := List.length_map _
  rw [receive, Wire.writeMessage_eq_frame, htake, hdrop, Wire.beNat_take_frame hshort]
  rw [if_neg (by omega), if_neg (by omega), ← hbody, List.take_length, List.drop_length, hfst,
    unmarshalResponse_marshalResponse h]

/-- Of a response that is longer than the length of a frame a part is left unread. -/
theorem receive_long {text : String} (hlong : ¬ (utf8 text.toList).length < 2 ^ 32) :
    ∃ out rest, receive (plain (Wire.writeMessage text)) = some (out, rest) ∧ rest ≠ [] := by
  have hlen := Wire.length_frame text
  have hwhole : (plain (Wire.frame text)).length = (Wire.frame text).length := List.length_map _
  have hneed : beNat (((plain (Wire.frame text)).take 4).map Prod.fst)
      = (utf8 text.toList).length % 2 ^ 32 := by
    rw [plain, ← List.map_take, List.map_map]
    change beNat (((Wire.frame text).take 4).map id) = _
    rw [List.map_id, Wire.frame, List.append_assoc, List.take_left' (length_beBytes _ _),
      beNat_beBytes]
    rfl
  rw [receive, Wire.writeMessage_eq_frame, hneed]
  rw [if_neg (by omega), if_neg (by rw [List.length_drop]; omega)]
  refine ⟨_, _, rfl, List.ne_nil_of_length_pos ?_⟩
  rw [List.length_drop, List.length_drop]
  omega

/-- A call that expects a descriptor gets one: the client is attached, and the socket pair and the
file can be made. -/
def ApiCall.Supported (call : ApiCall) (c : ClientRef) (s : ProxyState) (env : Env) : Prop :=
  call.getsFd = true → (s.clients c).vm ≠ none ∧ (∃ pair, env.socketpair = .ok pair) ∧
    ∃ fd, env.file = .ok fd

/-- Reading the answer is in step exactly when the client expects a descriptor just where the proxy
passes one. -/
theorem await_answer {call : ApiCall} {resp : Response} {text : String} {file : Option Fd}
    (h : marshalResponse resp = some text) (hshort : (utf8 text.toList).length < 2 ^ 32)
    (hfile : call.getsFd = file.isSome) :
    call.await (fileBytes file ++ plain (Wire.writeMessage text)) =
      (.got resp.sorted file, []) := by
  have hreceive := receive_writeMessage h hshort
  rw [ApiCall.await, hfile]
  cases file with
  | none =>
    change awaitResponse none (plain (Wire.writeMessage text)) = _
    rw [awaitResponse, hreceive]
  | some fd =>
    change awaitResponse (some fd) (plain (Wire.writeMessage text)) = _
    rw [awaitResponse, hreceive]

/-- Of an answer that is longer than the length of a frame a part is left unread. -/
theorem await_answer_unread {call : ApiCall} {text : String} {file : Option Fd}
    (hlong : ¬ (utf8 text.toList).length < 2 ^ 32) (hfile : call.getsFd = file.isSome) :
    (call.await (fileBytes file ++ plain (Wire.writeMessage text))).2 ≠ [] := by
  obtain ⟨out, rest, hreceive, hne⟩ := receive_long hlong
  have hawait : ∀ file, (awaitResponse file (plain (Wire.writeMessage text))).2 = rest := by
    intro file
    rw [awaitResponse, hreceive]
    cases out <;> rfl
  have hqueue : call.await (fileBytes file ++ plain (Wire.writeMessage text))
      = awaitResponse file (plain (Wire.writeMessage text)) := by
    rw [ApiCall.await, hfile]
    cases file <;> rfl
  rw [hqueue, hawait]
  exact hne

/-- An answer without the descriptor that is expected: the call fails with its first byte. -/
theorem await_answer_without_fd {call : ApiCall} {text : String} (h : call.getsFd = true) :
    (call.await (fileBytes none ++ plain (Wire.writeMessage text))).1.response = none := by
  have hpos : Wire.writeMessage text ≠ [] := by
    intro hnil
    have hlen := Wire.length_frame text
    rw [← Wire.writeMessage_eq_frame, hnil, Wire.headerLength, List.length_nil] at hlen
    omega
  obtain ⟨b, bs, hbytes⟩ := List.exists_cons_of_ne_nil hpos
  rw [ApiCall.await, if_pos h, hbytes]
  rfl

/-! ## Which responses carry a file -/

/-- The proxy reads the number of streams. -/
theorem unmarshalAllocateIo_call (n : Int64) :
    unmarshalAllocateIo (some (.obj [("nStreams", .int n.toInt)])) =
      .ok { nStreams := n.toInt } := by
  have hmatch : matchesField "nStreams" "nStreams" = true := by decide
  have hset : setInt 0 (.int n.toInt) = .ok n.toInt := by
    rw [setInt, if_pos ⟨n.le_toInt, n.toInt_lt⟩]
  rw [unmarshalAllocateIo, unmarshal]
  simp only [List.foldlM_cons, List.foldlM_nil, hmatch, if_true, hset]
  rfl

/-- An allocation passes a file exactly when the client is attached and its socket pair and file can
be made; the number of streams does not matter. -/
theorem allocateIoHandler_file_isSome (s : ProxyState) (c : ClientRef) (env : Env) (n : Int64) :
    (allocateIoHandler s c env (some (.obj [("nStreams", .int n.toInt)]))).2.file.isSome ↔
      (s.clients c).vm ≠ none ∧ (∃ pair, env.socketpair = .ok pair) ∧ ∃ fd, env.file = .ok fd := by
  rw [allocateIoHandler, unmarshalAllocateIo_call]
  dsimp only
  cases (s.clients c).vm with
  | none => exact iff_of_false (by simp) fun h => h.1 rfl
  | some v =>
    dsimp only
    rw [allocateOn]
    cases env.socketpair with
    | error err =>
      exact iff_of_false (by simp) fun ⟨_, ⟨_, h⟩, _⟩ => by cases h
    | ok pair =>
      dsimp only
      cases env.file with
      | error err =>
        exact iff_of_false (by simp) fun ⟨_, _, _, h⟩ => by cases h
      | ok fd => exact iff_of_true rfl ⟨by simp, ⟨_, rfl⟩, _, rfl⟩

/-- A request with a handler is answered with what that handler leaves. -/
theorem file_of_handleRequest {s s' : ProxyState} {c : ClientRef} {env : Env} {req : Request}
    {r : Except Fault (ProxyState × HandlerResponse)} {resp : Response} {file : Option Fd}
    (hid : req.id ≠ "") (hhandle : handle s c env req.id req.data = some r)
    (h : handleRequest s c env req = .ok (s', resp, file)) :
    ∃ left, r = .ok left ∧ file = left.2.file := by
  rw [handleRequest, if_neg hid, hhandle] at h
  cases r with
  | error f => cases h
  | ok left =>
    cases h
    exact ⟨left, rfl, rfl⟩

theorem ApiCall.request_id_ne (call : ApiCall) : call.request.id ≠ "" := by
  cases call <;> simp [ApiCall.request]

/-- **The two sides agree on the descriptor** exactly when a call that expects one is supported. -/
theorem getsFd_eq_isSome_iff {call : ApiCall} {s s' : ProxyState} {c : ClientRef} {env : Env}
    {resp : Response} {file : Option Fd}
    (h : handleRequest s c env call.request = .ok (s', resp, file)) :
    call.getsFd = file.isSome ↔ call.Supported c s env := by
  -- only an allocation passes a file, and only it expects one
  have hother : call.getsFd = false → file = none →
      (call.getsFd = file.isSome ↔ call.Supported c s env) := by
    rintro hgets rfl
    refine iff_of_true hgets fun hget => ?_
    exact absurd (hgets.symm.trans hget) Bool.false_ne_true
  have hid := call.request_id_ne
  cases call with
  | hello containerID ctlSerial ioSerial console =>
    obtain ⟨left, hok, rfl⟩ := file_of_handleRequest hid rfl h
    obtain rfl := Except.ok.inj hok
    exact hother rfl (helloHandler_file s c env _)
  | attach containerID =>
    obtain ⟨left, hok, rfl⟩ := file_of_handleRequest hid rfl h
    obtain rfl := Except.ok.inj hok
    exact hother rfl (attachHandler_file s c _)
  | allocateIo n =>
    obtain ⟨left, hok, rfl⟩ := file_of_handleRequest hid rfl h
    obtain rfl := Except.ok.inj hok
    have hfile := allocateIoHandler_file_isSome s c env n
    constructor
    · intro heq _
      exact hfile.1 heq.symm
    · intro hsupported
      exact (hfile.2 (hsupported rfl)).symm
  | hyper hyperName hyperMessage =>
    obtain ⟨left, hok, rfl⟩ := file_of_handleRequest hid rfl h
    exact hother rfl (hyperHandler_file hok)
  | bye containerID =>
    obtain ⟨left, hok, rfl⟩ := file_of_handleRequest hid rfl h
    obtain rfl := Except.ok.inj hok
    exact hother rfl (byeHandler_file s c _)

/-! ## Sequences of calls -/

/-- What an exchange consists of. -/
theorem exchange_inv {c : ClientRef} {s s' : ProxyState} {queue : List SocketByte} {env : Env}
    {call : ApiCall} {text : String} {x : Exchange} (hreq : marshalRequest call.request = some text)
    (hshort : (utf8 text.toList).length < 2 ^ 32)
    (h : exchange c s queue env call text = some (s', x)) :
    ∃ file, handleRequest s c env call.request = .ok (s', x.resp, file) ∧
      marshalResponse x.resp = some x.text ∧
      (x.received, x.unread) =
        call.await (queue ++ (fileBytes file ++ plain (Wire.writeMessage x.text))) ∧
      x.result = call.result x.received := by
  rw [exchange, readMessage_writeMessage hreq hshort] at h
  dsimp only at h
  split at h
  · cases h
  · next s₁ resp file hhandle =>
    split at h
    · cases h
    · next text hmarshal =>
      cases h
      exact ⟨file, hhandle, hmarshal, rfl, rfl⟩

/-- **One exchange.** With nothing left of the calls before it, a call is in step exactly when it is
supported and its response fits the length of a frame. -/
theorem exchange_inStep_iff {c : ClientRef} {s s' : ProxyState} {env : Env} {call : ApiCall}
    {text : String} {x : Exchange} (hreq : marshalRequest call.request = some text)
    (hshort : (utf8 text.toList).length < 2 ^ 32)
    (h : exchange c s [] env call text = some (s', x)) :
    x.InStep ↔ call.Supported c s env ∧ x.Fits := by
  obtain ⟨file, hhandle, hmarshal, hawait, hresult⟩ := exchange_inv hreq hshort h
  rw [List.nil_append] at hawait
  have hagree := getsFd_eq_isSome_iff hhandle
  constructor
  · rintro ⟨hdecoded, hunread, -⟩
    have hfile : call.getsFd = file.isSome := by
      by_contra hdisagree
      cases hgets : call.getsFd with
      | false => exact hdisagree (hagree.2 fun hget => absurd (hgets.symm.trans hget) (by decide))
      | true =>
        obtain rfl : file = none := by
          rw [hgets] at hdisagree
          exact Option.not_isSome_iff_eq_none.1 fun h => hdisagree h.symm
        have hnone := @await_answer_without_fd call x.text hgets
        rw [← hawait, hdecoded] at hnone
        cases hnone
    refine ⟨hagree.1 hfile, ?_⟩
    by_contra hlong
    refine await_answer_unread hlong hfile ?_
    rw [← hawait]
    exact hunread
  · rintro ⟨hsupported, hfits⟩
    rw [await_answer hmarshal hfits (hagree.2 hsupported)] at hawait
    obtain ⟨hreceived, hunread⟩ := Prod.mk.inj hawait
    refine ⟨by rw [hreceived]; rfl, hunread, ?_⟩
    intro err herr
    have hsorted : errorFromResponse x.resp.sorted.1 = some err := herr
    rw [hresult, hreceived, ApiCall.result, hsorted]

/-- The state of the proxy after a call. -/
def Turn.after {c : ClientRef} (t : Turn c) (s : ProxyState) : ProxyState :=
  match marshalRequest t.call.request with
  | none => s
  | some _ =>
    match handleRequest s c t.env t.call.request with
    | .error _ => s
    | .ok (s', _) => s'

/-- Every call of a sequence is supported in the state in which it is made. -/
def Guarded (c : ClientRef) : ProxyState → List (Turn c) → Prop
  | _, [] => True
  | s, t :: ts =>
    match afterOthers s t.others with
    | none => True
    | some s₁ => t.call.Supported c s₁ t.env ∧ Guarded c (t.after s₁) ts

/-- Only a call without a descriptor can fail to send its request. -/
theorem getsFd_of_marshalRequest_eq_none {call : ApiCall} (h : marshalRequest call.request = none) :
    call.getsFd = false := by
  cases call with
  | allocateIo n => cases h
  | hello containerID ctlSerial ioSerial console => rfl
  | attach containerID => rfl
  | hyper hyperName hyperMessage => rfl
  | bye containerID => rfl

/-- The exchanges of a sequence whose first call sends its request: that of the call, and, unless
it waits for ever, those of the calls after it. -/
theorem runCalls_cons {c : ClientRef} {s s₁ s' : ProxyState} {queue : List SocketByte} {t : Turn c}
    {ts : List (Turn c)} {text : String} {x : Exchange} {xs : List Exchange}
    (hothers : afterOthers s t.others = some s₁)
    (hreq : marshalRequest t.call.request = some text)
    (hx : exchange c s₁ queue t.env t.call text = some (s', x))
    (hrun : runCalls c s queue (t :: ts) = some xs) :
    x.received = .waits ∧ xs = [x] ∨
      ∃ ys, runCalls c s' x.unread ts = some ys ∧ xs = x :: ys := by
  rw [runCalls, hothers] at hrun
  dsimp only at hrun
  rw [hreq] at hrun
  dsimp only at hrun
  rw [hx] at hrun
  dsimp only at hrun
  cases hreceived : x.received with
  | waits =>
    rw [hreceived] at hrun
    exact .inl ⟨rfl, (Option.some.inj hrun).symm⟩
  | failed err =>
    rw [hreceived] at hrun
    obtain ⟨ys, hys, hxs⟩ := Option.map_eq_some_iff.1 hrun
    exact .inr ⟨ys, hys, hxs.symm⟩
  | got resp file =>
    rw [hreceived] at hrun
    obtain ⟨ys, hys, hxs⟩ := Option.map_eq_some_iff.1 hrun
    exact .inr ⟨ys, hys, hxs.symm⟩

/-- **Client and proxy in step.** In every sequence of calls over a connection that stays open, each
call decodes the response to its own request and returns the error of a refusal, exactly when every
call that expects a descriptor is made by an attached client whose socket pair and file can be made,
and every response fits the length of a frame. -/
theorem calls_inStep_iff (c : ClientRef) (turns : List (Turn c)) (s : ProxyState)
    (xs : List Exchange) (hrun : runCalls c s [] turns = some xs) :
    (∀ x ∈ xs, x.InStep) ↔ Guarded c s turns ∧ ∀ x ∈ xs, x.Fits := by
  induction turns generalizing s xs with
  | nil =>
    cases hrun
    exact iff_of_true (fun x hx => by cases hx) ⟨trivial, fun x hx => by cases hx⟩
  | cons t ts ih =>
    rw [Guarded]
    cases hothers : afterOthers s t.others with
    | none =>
      rw [runCalls, hothers] at hrun
      cases hrun
    | some s₁ =>
      dsimp only
      cases hreq : marshalRequest t.call.request with
      | none =>
        -- nothing is sent, and the call expects no descriptor
        have hafter : t.after s₁ = s₁ := by rw [Turn.after, hreq]
        have hsupported : t.call.Supported c s₁ t.env := fun hgets =>
          absurd (getsFd_of_marshalRequest_eq_none hreq ▸ hgets) Bool.false_ne_true
        rw [runCalls, hothers] at hrun
        dsimp only at hrun
        rw [hreq] at hrun
        rw [ih s₁ xs hrun, hafter, and_iff_right hsupported]
      | some text =>
        cases hx : exchange c s₁ [] t.env t.call text with
        | none =>
          rw [runCalls, hothers] at hrun
          dsimp only at hrun
          rw [hreq] at hrun
          dsimp only at hrun
          rw [hx] at hrun
          cases hrun
        | some r =>
          obtain ⟨s', x⟩ := r
          have hshort := t.short text hreq
          have hstep := exchange_inStep_iff hreq hshort hx
          obtain ⟨file, hhandle, -⟩ := exchange_inv hreq hshort hx
          have hafter : t.after s₁ = s' := by rw [Turn.after, hreq, hhandle]
          rw [hafter]
          rcases runCalls_cons hothers hreq hx hrun with ⟨hwaits, rfl⟩ | ⟨ys, hys, rfl⟩
          · have hout : ¬ x.InStep := by
              rintro ⟨hdecoded, -⟩
              rw [hwaits] at hdecoded
              cases hdecoded
            rw [List.forall_mem_singleton, List.forall_mem_singleton]
            exact iff_of_false hout fun h => hout (hstep.2 ⟨h.1.1, h.2⟩)
          · rw [List.forall_mem_cons, List.forall_mem_cons]
            by_cases hin : x.InStep
            · -- the call has left nothing, so the next one begins in step
              obtain ⟨hsupported, hfits⟩ := hstep.1 hin
              rw [hin.2.1] at hys
              rw [ih s' ys hys, and_iff_right hin, and_iff_right hsupported, and_iff_right hfits]
            · exact iff_of_false (fun h => hin h.1) fun h => hin (hstep.2 ⟨h.1.1, h.2.1⟩)

/-- A call without other clients in between. -/
def Turn.alone (c : ClientRef) (env : Env) (call : ApiCall) (text : String)
    (hreq : marshalRequest call.request = some text)
    (hshort : (utf8 text.toList).length < 2 ^ 32) : Turn c where
  others := []
  others_ne _ h := absurd h List.not_mem_nil
  env
  call
  short _ h := Option.some.inj (hreq.symm.trans h) ▸ hshort

/-- A client that starts a VM. -/
def helloTurn : Turn 0 :=
  .alone 0 willingEnv (.hello "c" "ctl" "io" "")
    ("\x7b\"id\":\"hello\",\"data\":\x7b\"containerId\":\"c\",\"ctlSerial\":\"ctl\"," ++
      "\"ioSerial\":\"io\"\x7d\x7d")
    (by decide +kernel) (by decide +kernel)

/-- A client that asks for an I/O channel of one stream. -/
def allocateTurn : Turn 0 :=
  .alone 0 willingEnv (.allocateIo 1)
    "\x7b\"id\":\"allocateIO\",\"data\":\x7b\"nStreams\":1\x7d\x7d" (by decide +kernel)
    (by decide +kernel)

/-- A client that attaches to a VM. -/
def attachTurn : Turn 0 :=
  .alone 0 willingEnv (.attach "c")
    "\x7b\"id\":\"attach\",\"data\":\x7b\"containerId\":\"c\"\x7d\x7d"
    (by decide +kernel) (by decide +kernel)

/-- The run of a client that starts its VM, gets its channel and attaches. -/
theorem exists_attachedRun :
    ∃ xs,
      runCalls 0 (newProxy false fun _ => 0) [] [helloTurn, allocateTurn, attachTurn] = some xs ∧
      xs.length = 3 ∧ ∀ x ∈ xs, x.Fits := by
  have hany : (runCalls 0 (newProxy false fun _ => 0) []
      [helloTurn, allocateTurn, attachTurn]).any
      (fun xs => xs.length = 3 ∧ ∀ x ∈ xs, x.Fits) = true := by decide +kernel
  obtain ⟨xs, hxs, hall⟩ := (Option.any_eq_true _ _).1 hany
  exact ⟨xs, hxs, of_decide_eq_true hall⟩

/-- It goes on in step. -/
theorem calls_inStep_attached :
    ∃ xs,
      runCalls 0 (newProxy false fun _ => 0) [] [helloTurn, allocateTurn, attachTurn] = some xs ∧
      xs.length = 3 ∧ ∀ x ∈ xs, x.InStep := by
  obtain ⟨xs, hrun, hlength, hfits⟩ := exists_attachedRun
  refine ⟨xs, hrun, hlength, ?_⟩
  refine (calls_inStep_iff 0 [helloTurn, allocateTurn, attachTurn] (newProxy false fun _ => 0) xs
    hrun).2 ⟨?_, hfits⟩
  let s := newProxy false fun _ => 0
  change helloTurn.call.Supported 0 s willingEnv ∧
    allocateTurn.call.Supported 0 (helloTurn.after s) willingEnv ∧
    attachTurn.call.Supported 0 (allocateTurn.after (helloTurn.after s)) willingEnv ∧ True
  refine ⟨fun h => Bool.noConfusion h, fun _ => ?_, fun h => Bool.noConfusion h, trivial⟩
  exact ⟨by decide +kernel, ⟨_, rfl⟩, _, rfl⟩

/-- A client that is not attached asks for a channel and is refused: it reports another error, and
its next call reads the rest of that refusal as a length and waits for ever. -/
theorem refused_allocation_out_of_step :
    let xs := (runCalls 0 (newProxy false fun _ => 0) [] [allocateTurn, attachTurn]).getD []
    xs.map (fun x => (x.resp.error, x.result, x.received.response.isSome)) =
      [(notAttached, some (.error "sendPayloadGetFd: couldn't read fd for request allocateIO"),
          false),
        (unknownContainer "c", none, false)] ∧
    ¬ ∀ x ∈ xs, x.InStep := by
  intro xs
  have hmap : xs.map (fun x => (x.resp.error, x.result, x.received.response.isSome)) =
      [(notAttached, some (.error "sendPayloadGetFd: couldn't read fd for request allocateIO"),
          false),
        (unknownContainer "c", none, false)] := by decide +kernel
  refine ⟨hmap, fun h => ?_⟩
  have hmem : (notAttached,
      some (.error "sendPayloadGetFd: couldn't read fd for request allocateIO"), false) ∈
        xs.map (fun x => (x.resp.error, x.result, x.received.response.isSome)) := by
    rw [hmap]
    exact List.mem_cons_self
  obtain ⟨x, hx, heq⟩ := List.mem_map.1 hmem
  have hnone := congrArg (fun p => p.2.2) heq
  rw [(h x hx).1] at hnone
  cases hnone

end Proxy

end CcOciRuntime
