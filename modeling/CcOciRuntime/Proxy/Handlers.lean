import CcOciRuntime.Proxy.Api
import CcOciRuntime.Proxy.Vm

/-!
# The request handlers of the proxy

The state of the proxy and its five handlers, each run to its end without another request in
between. A handler that records an error in its response does not stop there unless it returns, so
every handler keeps the source's order of checks and returns. `Proxy.step` in
`CcOciRuntime.Proxy.Concurrent` cuts the same handlers at their critical sections.

VM objects live in a heap and are named by references: the registry `vms`, the clients and the
goroutines share them. A reference below `nextVm` has been allocated.

Reference: `proxy/proxy.go:35-262`, `proxy/protocol.go:29-108`.
-/

namespace CcOciRuntime

namespace Proxy

/-- A pointer to a VM object. -/
abbrev VmRef := Nat

/-- A client of the proxy, by its identity. -/
abbrev ClientRef := Nat

/-- A file descriptor sent along with a response. -/
abbrev Fd := Nat

/-- Reference: `client` (`proxy/proxy.go:55`). -/
structure Client where
  id : UInt64
  vm : Option VmRef := none

/-- Reference: `proxy` (`proxy/proxy.go:36`), with the heap of VM objects and the clients. -/
structure ProxyState where
  vms : String → Option VmRef
  heap : VmRef → Vm
  nextVm : VmRef
  clients : ClientRef → Client
  enableVMConsole : Bool

/-- The proxy before its first client: `newProxy`, with unattached clients of the given ids.
Reference: `newProxy` (`proxy/proxy.go:264`), `serveNewClient` (`:334`). -/
def newProxy (enableVMConsole : Bool) (ids : ClientRef → UInt64) : ProxyState where
  vms := fun _ => none
  heap := fun _ => newVM "" "" ""
  nextVm := 0
  clients := fun c => { id := ids c }
  enableVMConsole

/-- Reference: `handlerResponse` (`proxy/protocol.go:30`). -/
structure HandlerResponse where
  err : Option String := none
  results : List (String × Json) := []
  file : Option Fd := none

/-- Reference: `SetError`, `SetErrorMsg`, `SetErrorf` (`proxy/protocol.go:36-46`). -/
def HandlerResponse.setError (hr : HandlerResponse) (err : String) : HandlerResponse :=
  { hr with err := some err }

/-- Reference: `AddResult` (`proxy/protocol.go:48`). -/
def HandlerResponse.addResult (hr : HandlerResponse) (key : String) (value : Json) :
    HandlerResponse :=
  { hr with results := Json.setMember key value hr.results }

/-- What the environment answers to the calls of one handler: the steps of `Connect`, the socket
pair of an allocation and the duplicate of its first socket, the agent's answer to a command, and
the number of bytes of the command's raw data. -/
structure Env where
  connect : ConnectEnv
  socketpair : Except String (Conn × Conn)
  file : Except String Fd
  ctl : CtlAnswer
  rawLen : Nat

/-- An environment in which everything succeeds. -/
def willingEnv : Env where
  connect := { console := .ok 3, ctl := .ok 4, io := .ok 5, ready := [initReady],
               closeCtl := true, closeIo := true }
  socketpair := .ok (6, 7)
  file := .ok 8
  ctl := { writeErr := none, codes := [initAck] }
  rawLen := 0

/-! ## Updates of the state -/

/-- Storing a VM object. -/
def ProxyState.setVm (s : ProxyState) (v : VmRef) (vm : Vm) : ProxyState :=
  { s with heap := Function.update s.heap v vm }

/-- Storing a client's VM pointer. -/
def ProxyState.attach (s : ProxyState) (c : ClientRef) (v : Option VmRef) : ProxyState :=
  { s with clients := Function.update s.clients c { s.clients c with vm := v } }

/-- Deleting an entry of the registry. -/
def ProxyState.unregister (s : ProxyState) (id : String) : ProxyState :=
  { s with vms := Function.update s.vms id none }

/-- The VM object a hello creates; its console is set before `Connect` reads it. Reference:
`proxy/proxy.go:107-113`. -/
def helloVm (enableVMConsole : Bool) (hello : Hello) : Vm :=
  let vm := newVM hello.containerID hello.ctlSerial hello.ioSerial
  if hello.console ≠ "" ∧ enableVMConsole = true then vm.setConsole hello.console else vm

/-- Registering a new VM object under the container's ID. Reference: `proxy/proxy.go:107-108`. -/
def ProxyState.register (s : ProxyState) (hello : Hello) : ProxyState :=
  { s with
    vms := Function.update s.vms hello.containerID (some s.nextVm)
    heap := Function.update s.heap s.nextVm (helloVm s.enableVMConsole hello)
    nextVm := s.nextVm + 1 }

/-! ## The handlers -/

/-- A hello without one of the fields the handler asks for. Reference: `proxy/proxy.go:90`. -/
def Hello.Malformed (hello : Hello) : Prop :=
  hello.containerID = "" ∨ hello.ctlSerial = "" ∨ hello.ioSerial = ""

instance (hello : Hello) : Decidable hello.Malformed := inferInstanceAs (Decidable (_ ∨ _ ∨ _))

/-- The response after the check of the fields, which does not end the handler. Reference:
`proxy/proxy.go:90-92`. -/
def helloCheck (hello : Hello) : HandlerResponse :=
  if hello.Malformed then HandlerResponse.setError {} "malformed hello command" else {}

/-- The error of a hello for an ID that is taken. Reference: `proxy/proxy.go:99`. -/
def alreadyRegistered (id : String) : String := id ++ ": container already registered"

/-- The error of an attach or a bye for an ID that is not registered. Reference:
`proxy/proxy.go:150`, `:181`. -/
def unknownContainer (id : String) : String := "unknown containerID: " ++ id

/-- Reference: `proxy/proxy.go:211`, `:254`. -/
def notAttached : String := "client not attached to a vm"

/-- Reference: `helloHandler` (`proxy/proxy.go:81`). -/
def helloHandler (s : ProxyState) (c : ClientRef) (env : Env) (data : Option Json) :
    ProxyState × HandlerResponse :=
  match unmarshalHello data with
  | .error err => (s, HandlerResponse.setError {} err)
  | .ok hello =>
    let hr := helloCheck hello
    match s.vms hello.containerID with
    | some _ => (s, hr.setError (alreadyRegistered hello.containerID))
    | none =>
      let v := s.nextVm
      let s := s.register hello
      match (s.heap v).connect env.connect with
      | (vm, some err) => ((s.setVm v vm).unregister hello.containerID, hr.setError err)
      | (vm, none) => ((s.setVm v vm).attach c (some v), hr)

/-- Reference: `attachHandler` (`proxy/proxy.go:135`). -/
def attachHandler (s : ProxyState) (c : ClientRef) (data : Option Json) :
    ProxyState × HandlerResponse :=
  match unmarshalAttach data with
  | .error err => (s, HandlerResponse.setError {} err)
  | .ok attach =>
    match s.vms attach.containerID with
    | none => (s, HandlerResponse.setError {} (unknownContainer attach.containerID))
    | some v => (s.attach c (some v), {})

/-- The entry deleted is the one under the VM's own ID. Reference: `byeHandler`
(`proxy/proxy.go:160`). -/
def byeHandler (s : ProxyState) (c : ClientRef) (data : Option Json) :
    ProxyState × HandlerResponse :=
  match unmarshalBye data with
  | .error err => (s, HandlerResponse.setError {} err)
  | .ok bye =>
    match s.vms bye.containerID with
    | none => (s, HandlerResponse.setError {} (unknownContainer bye.containerID))
    | some v => ((s.unregister (s.heap v).containerID).attach c none, {})

/-- A number of streams the handler reports as an error. Reference: `proxy/proxy.go:205`. -/
def AllocateIo.Unexpected (a : AllocateIo) : Prop := a.nStreams < 1 ∨ 2 < a.nStreams

instance (a : AllocateIo) : Decidable a.Unexpected := inferInstanceAs (Decidable (_ ∨ _))

/-- The response after the check of the number of streams, which does not end the handler.
Reference: `proxy/proxy.go:205-208`. -/
def allocateIoCheck (a : AllocateIo) : HandlerResponse :=
  if a.Unexpected then
    HandlerResponse.setError {}
      ("asking for unexpected number of streams (" ++ toString a.nStreams ++ ")")
  else {}

/-- The part of an allocation that uses the VM. Reference: `proxy/proxy.go:218-239`. -/
def allocateOn (s : ProxyState) (c : ClientRef) (v : VmRef) (env : Env) (a : AllocateIo)
    (hr : HandlerResponse) : ProxyState × HandlerResponse :=
  match env.socketpair with
  | .error err => (s, hr.setError err)
  | .ok (_, c1) =>
    match env.file with
    | .error err => (s, hr.setError err)
    | .ok f0 =>
      let r := (s.heap v).allocateIo a.nStreams (s.clients c).id c1
      (s.setVm v r.1, { hr.addResult "ioBase" (.int r.2.toNat) with file := some f0 })

/-- Reference: `allocateIoHandler` (`proxy/proxy.go:195`). -/
def allocateIoHandler (s : ProxyState) (c : ClientRef) (env : Env) (data : Option Json) :
    ProxyState × HandlerResponse :=
  match unmarshalAllocateIo data with
  | .error err => (s, HandlerResponse.setError {} err)
  | .ok a =>
    let hr := allocateIoCheck a
    match (s.clients c).vm with
    | none => (s, hr.setError notAttached)
    | some v => allocateOn s c v env a hr

/-- Reference: `hyperHandler` (`proxy/proxy.go:243`), `SendMessage` (`proxy/vm.go:207`). -/
def hyperHandler (s : ProxyState) (c : ClientRef) (env : Env) (data : Option Json) :
    Except Fault (ProxyState × HandlerResponse) :=
  match unmarshalHyper data with
  | .error err => .ok (s, HandlerResponse.setError {} err)
  | .ok hyper =>
    match (s.clients c).vm with
    | none => .ok (s, HandlerResponse.setError {} notAttached)
    | some v =>
      (sendCtlMessage (s.heap v).hyperHandler.ctl hyper.hyperName env.rawLen env.ctl).map
        fun err => (s, { err })

/-- The handler of a request, for the names that have one. Reference: `proxy/proxy.go:360-364`. -/
def handle (s : ProxyState) (c : ClientRef) (env : Env) (id : String) (data : Option Json) :
    Option (Except Fault (ProxyState × HandlerResponse)) :=
  if id = "hello" then some (.ok (helloHandler s c env data))
  else if id = "attach" then some (.ok (attachHandler s c data))
  else if id = "bye" then some (.ok (byeHandler s c data))
  else if id = "allocateIO" then some (.ok (allocateIoHandler s c env data))
  else if id = "hyper" then some (hyperHandler s c env data)
  else none

/-- The response to what a handler leaves. Reference: `proxy/protocol.go:96-107`. -/
def HandlerResponse.response (hr : HandlerResponse) : Response :=
  match hr.err with
  | some err => { success := false, error := err, data := hr.results }
  | none => { success := true, error := "", data := hr.results }

/-- A response that only carries an error. -/
def Response.failure (error : String) : Response := { success := false, error, data := [] }

/-- One request of a client: the state after it, the response, and the file sent before the
response. Reference: `handleRequest` and `Serve` (`proxy/protocol.go:79`, `:129-137`). -/
def handleRequest (s : ProxyState) (c : ClientRef) (env : Env) (req : Request) :
    Except Fault (ProxyState × Response × Option Fd) :=
  if req.id = "" then .ok (s, Response.failure "no 'id' field in request", none)
  else
    match handle s c env req.id req.data with
    | none => .ok (s, Response.failure ("no payload named '" ++ req.id ++ "'"), none)
    | some r => r.map fun (s', hr) => (s', hr.response, hr.file)

end Proxy

end CcOciRuntime
