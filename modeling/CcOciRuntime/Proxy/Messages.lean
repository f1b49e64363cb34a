import CcOciRuntime.Lib.JsonText
import CcOciRuntime.Proxy.Api
import CcOciRuntime.Wire.Framing

/-!
# The encodings of requests and responses

`json.Marshal` and `json.Unmarshal` of the two messages of the proxy's API. A message is printed as
an object whose members are its fields, without those that are empty and may be left out. The data
of a response is a Go map: it is printed in the order of its keys, so its one form as a list is the
sorted one (`sortMembers`), and that is the one a response is decoded to. Its numbers stay the
documents they are written as until the client uses them.

Reference: `proxy/api/protocol.go:39-53`.
-/

namespace CcOciRuntime

namespace Proxy

/-- The text of a document, if it has one. -/
def marshalJson (j : Json) : Option String :=
  if j.printable then some (.ofList j.print) else none

/-- The document that some bytes are. The error of a text that is none names a character of it,
which nothing looks at. -/
def parseJson (data : List UInt8) : Except String Json :=
  match Json.readJson (decodeUtf8 data) with
  | some j => .ok j
  | none => .error "invalid character"

/-- What is encoded can be decoded. -/
theorem parseJson_marshalJson {j : Json} {text : String} (h : marshalJson j = some text) :
    parseJson (utf8 text.toList) = .ok j := by
  rw [marshalJson] at h
  split_ifs at h with hp
  obtain rfl := Option.some.inj h
  rw [parseJson, String.toList_ofList, decodeUtf8_utf8, Json.readJson_print hp]

/-- Decoding the text of a struct of Go type `type`. -/
def unmarshalText {α : Type} (type : String) (zero : α)
    (set : α → String → Json → Except String α) (data : List UInt8) : Except String α :=
  match parseJson data with
  | .error err => .error err
  | .ok j => unmarshal type zero set (some j)

theorem unmarshalText_marshalJson {α : Type} {type : String} {zero : α}
    {set : α → String → Json → Except String α} {ms : List (String × Json)} {text : String}
    (h : marshalJson (.obj ms) = some text) :
    unmarshalText type zero set (utf8 text.toList) =
      ms.foldlM (fun a m => set a m.1 m.2) zero := by
  rw [unmarshalText, parseJson_marshalJson h]
  rfl

/-- Storing members one after the other. -/
theorem foldlM_cons_of_ok {α : Type} {set : α → String → Json → Except String α} {a b : α}
    {name : String} {v : Json} {ms : List (String × Json)} (h : set a name v = .ok b) :
    ((name, v) :: ms).foldlM (fun a m => set a m.1 m.2) a =
      ms.foldlM (fun a m => set a m.1 m.2) b := by
  rw [List.foldlM_cons, h]
  rfl

/-! ## Requests -/

/-- The members of a request. -/
def Request.members (req : Request) : List (String × Json) :=
  ("id", .str req.id) ::
    match req.data with
    | none => []
    | some data => [("data", data)]

/-- Storing a member of a request; the raw `data` keeps any value. -/
def Request.set (req : Request) (name : String) (v : Json) : Except String Request :=
  if matchesField "id" name then (setString req.id v).map fun x => { req with id := x }
  else if matchesField "data" name then .ok { req with data := some v }
  else .ok req

theorem Request.set_id (req : Request) (id : String) :
    req.set "id" (.str id) = .ok { req with id } := by
  rw [Request.set, if_pos (by decide)]
  rfl

theorem Request.set_data (req : Request) (v : Json) :
    req.set "data" v = .ok { req with data := some v } := by
  rw [Request.set, if_neg (by decide), if_pos (by decide)]

/-- Reference: `json.Marshal` of a `Request` (`proxy/api/protocol.go:95`). -/
def marshalRequest (req : Request) : Option String := marshalJson (.obj req.members)

/-- Reference: `json.Unmarshal` into a `Request` (`proxy/api/protocol.go:84`). -/
def unmarshalRequest : List UInt8 → Except String Request :=
  unmarshalText "api.Request" { id := "", data := none } Request.set

/-- A request is decoded to what was encoded. -/
theorem unmarshalRequest_marshalRequest {req : Request} {text : String}
    (h : marshalRequest req = some text) : unmarshalRequest (utf8 text.toList) = .ok req := by
  obtain ⟨id, data⟩ := req
  rw [unmarshalRequest, unmarshalText_marshalJson h, Request.members,
    foldlM_cons_of_ok (Request.set_id _ id)]
  cases data with
  | none => rfl
  | some data => exact foldlM_cons_of_ok (Request.set_data _ data)

/-- The encoding of requests. -/
def requestCodec : Wire.Codec Request where
  marshal := marshalRequest
  unmarshal := unmarshalRequest
  unmarshal_marshal := unmarshalRequest_marshalRequest

/-- A written request without data. -/
def sentSimple : Wire.Sent requestCodec where
  msg := { id := "simple", data := none }
  text := "\x7b\"id\":\"simple\"\x7d"
  marshalled := by decide +kernel
  short := by decide +kernel

/-! ## Responses -/

/-- A response whose data is in the order of its keys. -/
abbrev SortedResponse := { resp : Response // Json.SortedMembers resp.data }

/-- The same response with its data in the order of its keys. -/
def Response.sorted (resp : Response) : SortedResponse :=
  ⟨{ resp with data := Json.sortMembers resp.data }, Json.sortedMembers_sortMembers resp.data⟩

/-- The members of a response. -/
def Response.members (resp : Response) : List (String × Json) :=
  ("success", .bool resp.success) ::
    ((if resp.error = "" then [] else [("error", .str resp.error)]) ++
      if resp.data = [] then [] else [("data", .obj (Json.sortMembers resp.data))])

/-- Storing a value into a `bool` field. -/
def setBool (old : Bool) : Json → Except String Bool
  | .null => .ok old
  | .bool b => .ok b
  | v => .error (typeError (jsonKind v) "bool")

/-- Storing a value into the data of a response: `null` clears the map, the members of an object are
entered into it. -/
def SortedResponse.setData (resp : SortedResponse) : Json → Except String SortedResponse
  | .null => .ok ⟨{ resp.1 with data := [] }, List.Pairwise.nil⟩
  | .obj ms =>
    .ok ⟨{ resp.1 with data := Json.enterMembers resp.1.data ms }, resp.2.enterMembers ms⟩
  | v => .error (typeError (jsonKind v) "map[string]interface \x7b\x7d")

/-- Storing a member of a response. -/
def SortedResponse.set (resp : SortedResponse) (name : String) (v : Json) :
    Except String SortedResponse :=
  if matchesField "success" name then
    (setBool resp.1.success v).map fun x => ⟨{ resp.1 with success := x }, resp.2⟩
  else if matchesField "error" name then
    (setString resp.1.error v).map fun x => ⟨{ resp.1 with error := x }, resp.2⟩
  else if matchesField "data" name then resp.setData v
  else .ok resp

theorem SortedResponse.set_success (resp : SortedResponse) (b : Bool) :
    resp.set "success" (.bool b) = .ok ⟨{ resp.1 with success := b }, resp.2⟩ := by
  rw [SortedResponse.set, if_pos (by decide)]
  rfl

theorem SortedResponse.set_error (resp : SortedResponse) (err : String) :
    resp.set "error" (.str err) = .ok ⟨{ resp.1 with error := err }, resp.2⟩ := by
  rw [SortedResponse.set, if_neg (by decide), if_pos (by decide)]
  rfl

theorem SortedResponse.set_data (resp : SortedResponse) (v : Json) :
    resp.set "data" v = resp.setData v := by
  rw [SortedResponse.set, if_neg (by decide), if_neg (by decide), if_pos (by decide)]

/-- Reference: `json.Marshal` of a `Response` (`proxy/api/protocol.go:95`). -/
def marshalResponse (resp : Response) : Option String := marshalJson (.obj resp.members)

/-- Reference: `json.Unmarshal` into a `Response` (`proxy/api/protocol.go:84`). -/
def unmarshalResponse : List UInt8 → Except String SortedResponse :=
  unmarshalText "api.Response" ⟨{ success := false, error := "", data := [] }, List.Pairwise.nil⟩
    SortedResponse.set

/-- A response is decoded to what was encoded, with its data in the order of its keys. -/
theorem unmarshalResponse_marshalResponse {resp : Response} {text : String}
    (h : marshalResponse resp = some text) :
    unmarshalResponse (utf8 text.toList) = .ok resp.sorted := by
  obtain ⟨success, error, data⟩ := resp
  have hdata : ∀ r : SortedResponse, r.1.data = [] →
      r.setData (.obj (Json.sortMembers data)) =
        .ok ⟨{ r.1 with data := Json.sortMembers data }, Json.sortedMembers_sortMembers data⟩ := by
    intro r hr
    have hsorted := (Json.sortedMembers_sortMembers data).sortMembers_eq
    simp only [SortedResponse.setData, hr]
    congr 3
  rw [unmarshalResponse, unmarshalText_marshalJson h, Response.members,
    foldlM_cons_of_ok (SortedResponse.set_success _ success)]
  by_cases herr : error = ""
  · subst herr
    rw [if_pos rfl, List.nil_append]
    by_cases hnil : data = []
    · subst hnil
      rfl
    · rw [if_neg hnil]
      exact foldlM_cons_of_ok ((SortedResponse.set_data _ _).trans (hdata _ rfl))
  · rw [if_neg herr, List.cons_append, List.nil_append,
      foldlM_cons_of_ok (SortedResponse.set_error _ error)]
    by_cases hnil : data = []
    · subst hnil
      rfl
    · rw [if_neg hnil]
      exact foldlM_cons_of_ok ((SortedResponse.set_data _ _).trans (hdata _ rfl))

theorem SortedResponse.sorted_eq (resp : SortedResponse) : resp.1.sorted = resp := by
  have hdata := resp.2.sortMembers_eq
  refine Subtype.ext ?_
  change { resp.1 with data := Json.sortMembers resp.1.data } = resp.1
  rw [hdata]

/-- The encoding of responses. -/
def responseCodec : Wire.Codec SortedResponse where
  marshal resp := marshalResponse resp.1
  unmarshal := unmarshalResponse
  unmarshal_marshal {m} _ h := by rw [unmarshalResponse_marshalResponse h, m.sorted_eq]

/-! ## Frames of both -/

/-- A written response without data. -/
def sentSuccess : Wire.Sent responseCodec where
  msg := ⟨{ success := true, error := "", data := [] }, List.Pairwise.nil⟩
  text := "\x7b\"success\":true\x7d"
  marshalled := by decide +kernel
  short := by decide +kernel

/-- Two requests whose bodies are cut, with the second header in one chunk with the end of the first
body, are read back, and so is a response whose body arrives byte by byte at first. -/
theorem readsBack_cut_bodies :
    let requests := [sentSimple.bytes.take 9, sentSimple.bytes.drop 9 ++ sentSimple.bytes.take 12,
      sentSimple.bytes.drop 12]
    let responses := [sentSuccess.bytes.take 8, (sentSuccess.bytes.drop 8).take 1,
      sentSuccess.bytes.drop 9]
    Wire.ReadsBack [sentSimple, sentSimple] requests ∧ Wire.ReadsBack [sentSuccess] responses :=
  ⟨(Wire.readsBack_iff [sentSimple, sentSimple]
      [sentSimple.bytes.take 9, sentSimple.bytes.drop 9 ++ sentSimple.bytes.take 12,
        sentSimple.bytes.drop 12] (by decide +kernel)).2 (by decide +kernel),
    (Wire.readsBack_iff [sentSuccess]
      [sentSuccess.bytes.take 8, (sentSuccess.bytes.drop 8).take 1, sentSuccess.bytes.drop 9]
      (by decide +kernel)).2 (by decide +kernel)⟩

/-- A request whose header arrives as three bytes and five is not read. -/
theorem cut_header_not_readsBack :
    let reader := [sentSimple.bytes.take 3, sentSimple.bytes.drop 3]
    NonemptyChunks reader ∧ reader.flatten = [sentSimple].flatMap Wire.Sent.bytes ∧
    Wire.readMessage requestCodec.unmarshal reader = .error "couldn't read the full header" ∧
    ¬ Wire.ReadsBack [sentSimple] reader := by
  have hread : Wire.readMessage requestCodec.unmarshal
      [sentSimple.bytes.take 3, sentSimple.bytes.drop 3] = .error "couldn't read the full header" :=
    Wire.readMessage_of_short_header (by decide +kernel)
  refine ⟨by decide +kernel, by decide +kernel, hread, ?_⟩
  rintro ⟨rest, hok, -⟩
  rw [hread] at hok
  cases hok

end Proxy

end CcOciRuntime
