import CcOciRuntime.Proxy.Concurrent
import CcOciRuntime.Proxy.FailedRequest

/-!
# What a failed request leaves behind

A hello dials up to three sockets and starts up to three goroutines; an allocateIO makes a socket
pair, turns it into connections and a file, and starts a goroutine. The functions `..Ops` list what
each step creates and releases, along the control flow of the model of the handlers, so that every
failure of a step has its own list. A call of `Close` releases the descriptor whatever it returns;
what it returns decides what is done next.

`leaksNothing_iff` says which failed requests release all they have created. No release follows from
the end of the client's connection: `serveNewClient` closes that connection and nothing else.

Reference: `Connect` (`proxy/vm.go:179`), `helloHandler` and `allocateIoHandler`
(`proxy/proxy.go:81`, `:195`), `Socketpair` (`proxy/syscall.go:25`), `Serve`
(`proxy/protocol.go:110`).
-/

namespace CcOciRuntime

namespace Proxy

/-- What handling a request can create: the connections of `Connect`, the two descriptors of a
socket pair, the connections and the file made of them, and the goroutines. -/
inductive Resource
  | console
  | ctl
  | io
  | fd0
  | fd1
  | c0
  | c1
  | f0
  | consoleToLog
  | ioHyperToClients
  | monitor
  | ioClientToHyper
  deriving Repr, DecidableEq

/-- A resource comes into being, or it is closed or has ended. -/
inductive ResourceOp
  | create (r : Resource)
  | release (r : Resource)
  deriving Repr, DecidableEq

/-- The resources held after an operation. -/
def ResourceOp.apply (held : List Resource) : ResourceOp → List Resource
  | .create r => r :: held
  | .release r => held.filter (· ≠ r)

/-- The resources that are still there after some operations. -/
def live (ops : List ResourceOp) : List Resource := ops.foldl ResourceOp.apply []

/-- Nothing is left when the client's connection is closed, whatever other goroutines happen to
release until then. -/
def LeaksNothing (ops : List ResourceOp) : Prop :=
  ∀ meanwhile : List Resource, live (ops ++ meanwhile.map .release) = []

/-- Nothing leaks if nothing is live at the end. -/
theorem leaksNothing_iff_live {ops : List ResourceOp} : LeaksNothing ops ↔ live ops = [] := by
  constructor
  · intro h
    simpa using h []
  · intro h meanwhile
    rw [live, List.foldl_append, ← live, h]
    induction meanwhile with
    | nil => rfl
    | cons r rs ih => exact ih

/-! ## Hello -/

/-- A failing `Close` of the control socket keeps the other one open. Reference: `CloseSockets`
(`hyperstart.go:154`). -/
def Hyperstart.closeSocketsOps (h : Hyperstart) (closeCtl : Bool) : List ResourceOp :=
  if h.ctlOpened && !closeCtl then [.release .ctl]
  else
    (if h.ctlOpened then [.release .ctl] else []) ++ if h.ioOpened then [.release .io] else []

/-- Reference: `Connect` (`proxy/vm.go:179`), `OpenSockets` (`hyperstart.go:134`). -/
def Vm.connectStepOps (vm : Vm) (env : ConnectEnv) : ConnectStage → List ResourceOp
  | .console =>
    if vm.socketPath = "" then []
    else
      match env.console with
      | .error _ => []
      | .ok _ => [.create .console, .create .consoleToLog]
  | .ctl =>
    match env.ctl with
    | .error _ => []
    | .ok _ => [.create .ctl]
  | .io =>
    match env.io with
    | .error _ => [.release .ctl]
    | .ok _ => [.create .io]
  | .ready =>
    match expectReadingCmd initReady env.ready with
    | some _ => vm.hyperHandler.closeSocketsOps env.closeCtl
    | none => [.create .ioHyperToClients]

/-- The steps of `Connect` up to the first that fails. -/
def Vm.connectOps (vm : Vm) (env : ConnectEnv) : List ConnectStage → List ResourceOp
  | [] => []
  | st :: sts =>
    vm.connectStepOps env st ++
      match vm.connectStep env st with
      | (_, some _) => []
      | (vm', none) => vm'.connectOps env sts

/-- Reference: `helloHandler` (`proxy/proxy.go:81`). -/
def helloOps (s : ProxyState) (env : Env) (data : Option Json) : List ResourceOp :=
  match unmarshalHello data with
  | .error _ => []
  | .ok hello =>
    match s.vms hello.containerID with
    | some _ => []
    | none =>
      let vm := helloVm s.enableVMConsole hello
      vm.connectOps env.connect connectStages ++
        match vm.connect env.connect with
        | (_, some _) => []
        | (_, none) => [.create .monitor]

/-- When `Connect` leaves nothing open: its first dial fails, or, without a console, it fails later
and does not stop at a failing `Close` of the control socket. -/
def Vm.ConnectReleases (vm : Vm) (env : ConnectEnv) : Prop :=
  if vm.socketPath = "" then
    (∃ err, env.ctl = .error err) ∨ (∃ err, env.io = .error err) ∨
      (expectReadingCmd initReady env.ready ≠ none ∧ env.closeCtl = true)
  else ∃ err, env.console = .error err

/-- When a connection releases all. -/
theorem Vm.live_connectOps_iff {vm : Vm} (hctl : vm.hyperHandler.ctlOpened = false)
    (hio : vm.hyperHandler.ioOpened = false) (env : ConnectEnv) :
    live (vm.connectOps env connectStages ++
      match vm.connect env with
      | (_, some _) => []
      | (_, none) => [.create .monitor]) = [] ↔ vm.ConnectReleases env := by
  -- one case for each pattern of failures of the dials, of the wait and of the close
  obtain ⟨console, ctl, io, ready, closeCtl, closeIo⟩ := env
  by_cases hpath : vm.socketPath = "" <;> cases console <;> cases ctl <;> cases io <;>
    cases hready : expectReadingCmd initReady ready <;> cases closeCtl <;>
    simp [Vm.connectOps, Vm.connectStepOps, Vm.connectStep, Vm.connect, Vm.connectFrom,
      connectStages, Hyperstart.closeSocketsOps, Vm.ConnectReleases, live, ResourceOp.apply, hpath,
      hready, hctl, hio]

theorem helloVm_closed (enableVMConsole : Bool) (hello : Hello) :
    (helloVm enableVMConsole hello).hyperHandler.ctlOpened = false ∧
      (helloVm enableVMConsole hello).hyperHandler.ioOpened = false := by
  unfold helloVm
  split <;> exact ⟨rfl, rfl⟩

/-- A hello that leaves nothing open: it does not get to `Connect`, or `Connect` fails and leaves
nothing open. -/
def HelloReleases (s : ProxyState) (env : Env) (data : Option Json) : Prop :=
  ∀ hello, unmarshalHello data = .ok hello → s.vms hello.containerID = none →
    (helloVm s.enableVMConsole hello).ConnectReleases env.connect

/-- When `hello` releases all. -/
theorem live_helloOps_iff {s : ProxyState} {env : Env} {data : Option Json} :
    live (helloOps s env data) = [] ↔ HelloReleases s env data := by
  unfold helloOps HelloReleases
  cases unmarshalHello data with
  | error err => exact iff_of_true rfl nofun
  | ok hello =>
    dsimp only
    cases hv : s.vms hello.containerID with
    | some v =>
      refine iff_of_true rfl ?_
      rintro _ ⟨⟩ hfree
      rw [hv] at hfree
      cases hfree
    | none =>
      obtain ⟨hctl, hio⟩ := helloVm_closed s.enableVMConsole hello
      refine (Vm.live_connectOps_iff hctl hio env.connect).trans ⟨?_, fun h => h hello rfl hv⟩
      rintro h _ ⟨⟩ -
      exact h

/-! ## AllocateIO -/

/-- What the environment answers to the calls of `Socketpair`: the error of the system call, and
the two conversions to connections. -/
structure SocketpairEnv where
  pair : Option String
  conn0 : Except String Conn
  conn1 : Except String Conn

/-- Reference: `Socketpair` (`proxy/syscall.go:25`). -/
def SocketpairEnv.socketpair (env : SocketpairEnv) : Except String (Conn × Conn) :=
  match env.pair with
  | some err => .error err
  | none => do
    let c0 ← env.conn0
    let c1 ← env.conn1
    return (c0, c1)

/-- The deferred closes run when the function returns: that of the first descriptor once it is a
file, that of the second only after the first conversion. Reference: `Socketpair`
(`proxy/syscall.go:25`). -/
def SocketpairEnv.ops (env : SocketpairEnv) : List ResourceOp :=
  match env.pair with
  | some _ => []
  | none =>
    [.create .fd0, .create .fd1] ++
      match env.conn0 with
      | .error _ => [.release .fd0]
      | .ok _ =>
        .create .c0 ::
          match env.conn1 with
          | .error _ => [.release .fd1, .release .fd0]
          | .ok _ => [.create .c1, .release .fd1, .release .fd0]

/-- Reference: `allocateIoHandler` (`proxy/proxy.go:195`), `AllocateIo` (`proxy/vm.go:243`). -/
def allocateIoOps (s : ProxyState) (c : ClientRef) (env : Env) (pair : SocketpairEnv)
    (data : Option Json) : List ResourceOp :=
  match unmarshalAllocateIo data with
  | .error _ => []
  | .ok _ =>
    match (s.clients c).vm with
    | none => []
    | some _ =>
      pair.ops ++
        match pair.socketpair with
        | .error _ => []
        | .ok _ =>
          match env.file with
          | .error _ => []
          | .ok _ => [.create .f0, .create .ioClientToHyper, .release .c0]

/-- The file of a response is closed once it has been sent.
Reference: `proxy/protocol.go:132-137`. -/
def sendOps : Option Fd → List ResourceOp
  | none => []
  | some _ => [.release .f0]

/-- An allocateIO that leaves nothing open: it does not get to the socket pair, or there is none. -/
def AllocateReleases (s : ProxyState) (c : ClientRef) (pair : SocketpairEnv)
    (data : Option Json) : Prop :=
  ∀ a, unmarshalAllocateIo data = .ok a → (s.clients c).vm ≠ none → pair.pair ≠ none

/-- Once there is a socket pair, one of its descriptors stays open on every path. -/
theorem live_socketpair_ne_nil {pair : SocketpairEnv} (hpair : pair.pair = none)
    (file : Except String Fd) (sent : Option Fd) :
    live ((pair.ops ++
      match pair.socketpair with
      | .error _ => []
      | .ok _ =>
        match file with
        | .error _ => []
        | .ok _ => [.create .f0, .create .ioClientToHyper, .release .c0]) ++ sendOps sent) ≠
      [] := by
  obtain ⟨err, conn0, conn1⟩ := pair
  cases hpair
  cases conn0 with
  | error err => cases sent <;> exact List.cons_ne_nil _ _
  | ok c0 =>
    cases conn1 with
    | error err => cases sent <;> exact List.cons_ne_nil _ _
    | ok c1 => cases file <;> cases sent <;> exact List.cons_ne_nil _ _

/-- When `allocateIO` releases all. -/
theorem live_allocateIoOps_iff {s : ProxyState} {c : ClientRef} {env : Env} {pair : SocketpairEnv}
    {data : Option Json} (sent : Option Fd) :
    live (allocateIoOps s c env pair data ++ sendOps sent) = [] ↔
      AllocateReleases s c pair data := by
  have hnone : live ([] ++ sendOps sent) = [] := by cases sent <;> rfl
  unfold allocateIoOps AllocateReleases
  cases unmarshalAllocateIo data with
  | error err => exact iff_of_true hnone nofun
  | ok a =>
    dsimp only
    cases (s.clients c).vm with
    | none => exact iff_of_true hnone fun _ _ h => absurd rfl h
    | some v =>
      dsimp only
      cases hpair : pair.pair with
      | some err =>
        refine iff_of_true ?_ fun _ _ _ => Option.some_ne_none err
        have hops : pair.ops = [] := by rw [SocketpairEnv.ops, hpair]
        have herror : pair.socketpair = .error err := by rw [SocketpairEnv.socketpair, hpair]
        rw [hops, herror]
        exact hnone
      | none =>
        exact iff_of_false (live_socketpair_ne_nil hpair env.file sent) fun h =>
          h a rfl (Option.some_ne_none v) rfl

/-! ## Failed requests -/

/-- What is created and released for a hello or an allocateIO until its answer has been sent. -/
def requestOps (s : ProxyState) (c : ClientRef) (env : Env) (pair : SocketpairEnv) (req : Request)
    (file : Option Fd) : List ResourceOp :=
  (if req.id = "hello" then helloOps s env req.data
    else if req.id = "allocateIO" then allocateIoOps s c env pair req.data
    else []) ++ sendOps file

/-- The requests that leave nothing open. -/
def Releases (s : ProxyState) (c : ClientRef) (env : Env) (pair : SocketpairEnv) (req : Request) :
    Prop :=
  (req.id = "hello" → HelloReleases s env req.data) ∧
    (req.id = "allocateIO" → AllocateReleases s c pair req.data)

/-- **Failed requests and what they leave open.** For every hello or allocateIO that is answered
with `success = false`, and every pattern of failures of its socket operations: all that the proxy
created while handling it is closed or has ended when the client's connection is closed, if and
only if the hello does not get to `Connect`, or its first dial fails, or it has no console and
`Connect` fails without a failing close of the control socket; or the allocateIO does not get to
the socket pair, or gets none. -/
theorem failed_leaksNothing_iff (s s' : ProxyState) (c : ClientRef) (env : Env)
    (pair : SocketpairEnv) (req : Request) (resp : Response) (file : Option Fd)
    (hid : req.id = "hello" ∨ req.id = "allocateIO")
    (hreq : handleRequest s c { env with socketpair := pair.socketpair } req
      = .ok (s', resp, file))
    (hfail : resp.success = false) :
    LeaksNothing (requestOps s c env pair req file) ↔ Releases s c env pair req := by
  rw [leaksNothing_iff_live, requestOps, Releases]
  rcases hid with hid | hid
  · have hfile : file = none := by
      rw [handleRequest, if_neg (by rw [hid]; decide), handle, if_pos hid] at hreq
      cases hreq
      exact helloHandler_file _ _ _ _
    have hne : ¬ ("hello" : String) = "allocateIO" := by decide
    rw [if_pos hid, hid, hfile]
    simp only [sendOps, List.append_nil, live_helloOps_iff, true_implies, hne, false_implies,
      and_true]
  · have hne : ¬ ("allocateIO" : String) = "hello" := by decide
    rw [if_neg (by rw [hid]; exact hne), if_pos hid, hid]
    simp only [live_allocateIoOps_iff, true_implies, hne, false_implies, true_and]

/-- A socket pair that is made. -/
def madePair : SocketpairEnv := { pair := none, conn0 := .ok 6, conn1 := .ok 7 }

/-- An environment in which the dial of the agent's I/O socket fails. -/
def noIoSocket : Env :=
  { willingEnv with connect := { willingEnv.connect with io := .error "connection refused" } }

/-- A VM without its second socket. -/
theorem failed_leaksNothing_noIoSocket :
    ∃ s' resp file,
      handleRequest (newProxy true fun _ => 1) 0
        { noIoSocket with socketpair := madePair.socketpair } (helloRequest "pod")
        = .ok (s', resp, file) ∧ resp.success = false ∧
      LeaksNothing
        (requestOps (newProxy true fun _ => 1) 0 noIoSocket madePair (helloRequest "pod") file) :=
  ⟨_, _, _, rfl, rfl,
    (failed_leaksNothing_iff (newProxy true fun _ => 1) _ 0 noIoSocket madePair
      (helloRequest "pod") _ _ (.inl rfl) rfl rfl).2
      ⟨fun _ _ hdecoded _ => by cases hdecoded; exact .inr (.inl ⟨_, rfl⟩),
        fun h => absurd h (by decide)⟩⟩

/-- A hello for a VM with a console. -/
def consoleRequest : Request where
  id := "hello"
  data := some (.obj [("containerId", .str "pod"), ("ctlSerial", .str "/run/ctl.sock"),
    ("ioSerial", .str "/run/tty.sock"), ("console", .str "/run/console.sock")])

/-- With the console open, the failing dial leaves its connection and its goroutine. -/
theorem failed_hello_leaks_console :
    ∃ s' resp file,
      handleRequest (newProxy true fun _ => 1) 0
        { noIoSocket with socketpair := madePair.socketpair } consoleRequest
        = .ok (s', resp, file) ∧ resp.success = false ∧
      ¬ LeaksNothing
        (requestOps (newProxy true fun _ => 1) 0 noIoSocket madePair consoleRequest file) :=
  ⟨_, _, _, rfl, rfl, fun h => absurd (h []) (by decide)⟩

end Proxy

end CcOciRuntime
