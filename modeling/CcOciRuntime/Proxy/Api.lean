import CcOciRuntime.Lib.Json
import Mathlib.Algebra.Ring.Int.Defs

/-!
# The payloads of the proxy's API

The requests a client sends to `cc-proxy`, the responses it gets back, and the decoding of a
request's `data` into the payload of its handler. `unmarshal` is `json.Unmarshal` into a struct:
members are taken in order, a member is matched to a field by its folded name, `null` leaves a
field alone, and a member of the wrong type is an error of the whole call.

Reference: `proxy/api/api.go`, `proxy/api/protocol.go:39-53`.
-/

namespace CcOciRuntime

namespace Proxy

/-- A request frame once `ReadMessage` has decoded it; `data` is absent when the frame has no such
member. Reference: `Request` (`proxy/api/protocol.go:39`). -/
structure Request where
  id : String
  data : Option Json

/-- The response frame. Reference: `Response` (`proxy/api/protocol.go:49`). -/
structure Response where
  success : Bool
  error : String
  data : List (String × Json)

/-- Reference: `Hello` (`proxy/api/api.go:38`). -/
structure Hello where
  containerID : String := ""
  ctlSerial : String := ""
  ioSerial : String := ""
  console : String := ""

/-- Reference: `Attach` (`proxy/api/api.go:55`). -/
structure Attach where
  containerID : String := ""

/-- Reference: `Bye` (`proxy/api/api.go:69`). -/
structure Bye where
  containerID : String := ""

/-- Reference: `AllocateIo` (`proxy/api/api.go:95`); Go's `int` is a 64-bit integer, and the
decoder only produces values in its range (`setInt`). -/
structure AllocateIo where
  nStreams : Int := 0

/-- Reference: `Hyper` (`proxy/api/api.go:137`). -/
structure Hyper where
  hyperName : String := ""
  data : Option Json := none

/-! ## Decoding -/

/-- One character of a folded field name. Besides the case of an ASCII letter, the two other
characters that fold to an ASCII letter are the long s and the Kelvin sign. -/
def foldChar (c : Char) : Char :=
  if c = Char.ofNat 0x17F then 's' else if c = Char.ofNat 0x212A then 'k' else c.toLower

/-- The member `name` sets the field whose tag is `field`. -/
def matchesField (field name : String) : Bool :=
  name.toList.map foldChar == field.toList.map foldChar

/-- The kind of a JSON value as the decoder's error texts name it. -/
def jsonKind : Json → String
  | .null => "null"
  | .bool _ => "bool"
  | .int _ | .real _ => "number"
  | .str _ => "string"
  | .arr _ => "array"
  | .obj _ => "object"

/-- The decoder's error for a value described by `what` that does not fit the Go type `type`. -/
def typeError (what type : String) : String :=
  "json: cannot unmarshal " ++ what ++ " into Go value of type " ++ type

/-- Storing a value into a string field. -/
def setString (old : String) : Json → Except String String
  | .null => .ok old
  | .str s => .ok s
  | v => .error (typeError (jsonKind v) "string")

/-- Storing a value into an `int` field: a number written as an integer of 64 bits. -/
def setInt (old : Int) : Json → Except String Int
  | .null => .ok old
  | .int n =>
    if -2 ^ 63 ≤ n ∧ n < 2 ^ 63 then .ok n else .error (typeError ("number " ++ toString n) "int")
  | .real text => .error (typeError ("number " ++ text) "int")
  | v => .error (typeError (jsonKind v) "int")

/-- Decoding into a struct of Go type `type`, whose members are stored by `set`. -/
def unmarshal {α : Type} (type : String) (zero : α) (set : α → String → Json → Except String α) :
    Option Json → Except String α
  | none => .error "unexpected end of JSON input"
  | some .null => .ok zero
  | some (.obj ms) => ms.foldlM (fun a m => set a m.1 m.2) zero
  | some v => .error (typeError (jsonKind v) type)

/-- Reference: `json.Unmarshal(data, &hello)` (`proxy/proxy.go:85`). -/
def unmarshalHello : Option Json → Except String Hello :=
  unmarshal "api.Hello" {} fun h name v =>
    if matchesField "containerId" name then
      (setString h.containerID v).map fun x => { h with containerID := x }
    else if matchesField "ctlSerial" name then
      (setString h.ctlSerial v).map fun x => { h with ctlSerial := x }
    else if matchesField "ioSerial" name then
      (setString h.ioSerial v).map fun x => { h with ioSerial := x }
    else if matchesField "console" name then
      (setString h.console v).map fun x => { h with console := x }
    else .ok h

/-- Reference: `json.Unmarshal(data, &attach)` (`proxy/proxy.go:140`). -/
def unmarshalAttach : Option Json → Except String Attach :=
  unmarshal "api.Attach" {} fun a name v =>
    if matchesField "containerId" name then
      (setString a.containerID v).map fun x => { a with containerID := x }
    else .ok a

/-- Reference: `json.Unmarshal(data, &bye)` (`proxy/proxy.go:171`). -/
def unmarshalBye : Option Json → Except String Bye :=
  unmarshal "api.Bye" {} fun b name v =>
    if matchesField "containerId" name then
      (setString b.containerID v).map fun x => { b with containerID := x }
    else .ok b

/-- Reference: `json.Unmarshal(data, &allocateIo)` (`proxy/proxy.go:200`). -/
def unmarshalAllocateIo : Option Json → Except String AllocateIo :=
  unmarshal "api.AllocateIo" {} fun a name v =>
    if matchesField "nStreams" name then
      (setInt a.nStreams v).map fun x => { a with nStreams := x }
    else .ok a

/-- Reference: `json.Unmarshal(data, &hyper)` (`proxy/proxy.go:248`). The raw `data` member keeps
any value, `null` included. -/
def unmarshalHyper : Option Json → Except String Hyper :=
  unmarshal "api.Hyper" {} fun h name v =>
    if matchesField "hyperName" name then
      (setString h.hyperName v).map fun x => { h with hyperName := x }
    else if matchesField "data" name then .ok { h with data := some v }
    else .ok h

example : (unmarshalAllocateIo (some (.obj [("NSTREAMS", .int (-1))]))).map (·.nStreams)
    = .ok (-1) := by decide

end Proxy

end CcOciRuntime
