import CcOciRuntime.Proxy.Hyperstart
import Mathlib.Logic.Function.Basic

/-!
# The VM object of the proxy

One `Vm` stands for a running VM: its two hyperstart sockets, the counter its I/O sequence numbers
come from, and the table that maps a sequence number to the session it belongs to. The source keeps
sessions behind pointers; here `sessions` holds the session objects in the order they were
allocated, and a `SessionRef` is a position in it.

`ioHyperToClients` and `ioClientToHyper` are the two forwarding loops, as functions of what arrives
on the connection they read and of the answers to what they write. `Vm.connectStep` is one step of
`Connect`, so that the steps of several requests can be interleaved.

Reference: `proxy/vm.go`.
-/

namespace CcOciRuntime

namespace Proxy

/-- A pointer to a session of a VM: its position in `Vm.sessions`. -/
abbrev SessionRef := Nat

/-- A set of I/O streams between a client and a process in the VM. Reference: `ioSession`
(`proxy/vm.go:59`). -/
structure IoSession where
  nStreams : Int
  ioBase : UInt64
  clientID : UInt64
  client : Conn
  deriving Repr, DecidableEq

/-- The two sockets to the agent: `none` is Go's nil connection, and the flags are the source's
`connState`s. Reference: `Hyperstart` (`hyperstart.go:113`). -/
structure Hyperstart where
  ctlSerial : String
  ioSerial : String
  ctl : Option Conn := none
  io : Option Conn := none
  ctlOpened : Bool := false
  ioOpened : Bool := false

/-- Reference: `vm` (`proxy/vm.go:30`). `connected` says that `Connect` has returned nil, which is
when the goroutine of `ioHyperToClients` exists. -/
structure Vm where
  containerID : String
  hyperHandler : Hyperstart
  socketPath : String := ""
  console : Option Conn := none
  nextIoBase : UInt64 := 1
  sessions : List IoSession := []
  ioSessions : UInt64 → Option SessionRef := fun _ => none
  connected : Bool := false

/-- Reference: `newVM` (`proxy/vm.go:74`). -/
def newVM (id ctlSerial ioSerial : String) : Vm where
  containerID := id
  hyperHandler := { ctlSerial, ioSerial }

/-- Reference: `setConsole` (`proxy/vm.go:87`). -/
def Vm.setConsole (vm : Vm) (path : String) : Vm := { vm with socketPath := path }

/-- Reference: `findSession` (`proxy/vm.go:124`). -/
def Vm.findSession (vm : Vm) (seq : UInt64) : Option IoSession :=
  (vm.ioSessions seq).bind fun r => vm.sessions[r]?

/-! ## Allocating sequence numbers -/

/-- The table after `session` has been entered for `n` numbers from `ioBase` on. Reference: the loop
of `AllocateIo` (`proxy/vm.go:256-258`). -/
def enterSession (ioBase : UInt64) (session : SessionRef) (m : UInt64 → Option SessionRef) :
    Nat → UInt64 → Option SessionRef
  | 0 => m
  | i + 1 => Function.update (enterSession ioBase session m i) (ioBase + UInt64.ofNat i)
      (some session)

/-- Allocating `n` sequence numbers for a client, and the first of them. The conversion `uint64(n)`
of a negative `n` wraps, while the loop over `n` numbers then runs no time. Reference: `AllocateIo`
(`proxy/vm.go:243`). -/
def Vm.allocateIo (vm : Vm) (n : Int) (clientID : UInt64) (c : Conn) : Vm × UInt64 :=
  let ioBase := vm.nextIoBase
  let session : IoSession := { nStreams := n, ioBase, clientID, client := c }
  ({ vm with
      nextIoBase := vm.nextIoBase + UInt64.ofInt n
      sessions := vm.sessions ++ [session]
      ioSessions := enterSession ioBase vm.sessions.length vm.ioSessions n.toNat },
    ioBase)

/-- The sequence numbers that were put in the table for a session. -/
def IoSession.numbers (s : IoSession) : List UInt64 :=
  (List.range s.nStreams.toNat).map fun i => s.ioBase + UInt64.ofNat i

theorem IoSession.mem_numbers {s : IoSession} {k : UInt64} :
    k ∈ s.numbers ↔ ∃ i < s.nStreams.toNat, k = s.ioBase + UInt64.ofNat i := by
  simp [IoSession.numbers, eq_comm]

/-- What the table maps a number to after a session has been entered. -/
theorem enterSession_eq_some {ioBase : UInt64} {session r : SessionRef}
    {m : UInt64 → Option SessionRef} {n : Nat} {k : UInt64}
    (h : enterSession ioBase session m n k = some r) :
    (r = session ∧ ∃ i < n, k = ioBase + UInt64.ofNat i) ∨ m k = some r := by
  induction n with
  | zero => exact .inr h
  | succ n ih =>
    rw [enterSession, Function.update_apply] at h
    by_cases hk : k = ioBase + UInt64.ofNat n
    · rw [if_pos hk] at h
      exact .inl ⟨(Option.some.inj h).symm, n, Nat.lt_succ_self n, hk⟩
    · rw [if_neg hk] at h
      rcases ih h with ⟨hr, i, hi, hki⟩ | hm
      · exact .inl ⟨hr, i, Nat.lt_succ_of_lt hi, hki⟩
      · exact .inr hm

/-! ## Forwarding -/

/-- How a run of `ioHyperToClients` ends. -/
inductive DispatchEnd
  | vmLost
  | writeError (err : String)
  deriving Repr, DecidableEq

/-- The loop of `ioHyperToClients` over the messages it reads: the writes it completes, with the
client connection of each, and how it ends. `write i` is what the connection of the `i`-th message's
session answers. Reference: `proxy/vm.go:135-159`. -/
def Vm.dispatch (vm : Vm) (write : Nat → List UInt8 → WriteResult) :
    Nat → List TtyMessage → List (Conn × TtyMessage) × DispatchEnd
  | _, [] => ([], .vmLost)
  | i, m :: ms =>
    match vm.findSession m.session with
    | none => vm.dispatch write (i + 1) ms
    | some session =>
      match sendIoMessageWithConn (write i) m with
      | some err => ([], .writeError err)
      | none =>
        let r := vm.dispatch write (i + 1) ms
        ((session.client, m) :: r.1, r.2)

/-- The goroutine that dispatches what the agent sends, on the chunks its connection delivers before
a read fails. Reference: `ioHyperToClients` (`proxy/vm.go:134`). -/
def Vm.ioHyperToClients (vm : Vm) (write : Nat → List UInt8 → WriteResult)
    (chunks : List (List UInt8)) : List (Conn × TtyMessage) × DispatchEnd :=
  vm.dispatch write 0 (ioMessages chunks)

/-- The loop of `ioClientToHyper` over the messages it reads: those it hands to the agent. `write i`
is what the agent's connection answers to the `i`-th. Reference: `proxy/vm.go:216-238`. -/
def IoSession.forward (session : IoSession) (write : Nat → List UInt8 → WriteResult) :
    Nat → List TtyMessage → List TtyMessage
  | _, [] => []
  | i, m :: ms =>
    if m.session ≠ session.ioBase then []
    else
      match sendIoMessageWithConn (write i) m with
      | some _ => [m]
      | none => m :: session.forward write (i + 1) ms

/-- The goroutine that forwards a session's stdin. Reference: `ioClientToHyper`
(`proxy/vm.go:215`). -/
def IoSession.ioClientToHyper (session : IoSession) (write : Nat → List UInt8 → WriteResult)
    (chunks : List (List UInt8)) : List TtyMessage :=
  session.forward write 0 (ioMessages chunks)

/-! ## Connecting and closing -/

/-- The steps of `Connect`, in the order the source takes them. -/
inductive ConnectStage
  | console
  | ctl
  | io
  | ready
  deriving Repr, DecidableEq

/-- What the environment answers to the steps of `Connect`: the three dials, the codes that arrive
on the control socket, and whether closing each socket succeeds. -/
structure ConnectEnv where
  console : Except String Conn
  ctl : Except String Conn
  io : Except String Conn
  ready : List UInt32
  closeCtl : Bool
  closeIo : Bool

/-- Reference: `CloseSockets` (`hyperstart.go:154`). -/
def Hyperstart.closeSockets (h : Hyperstart) (closeCtl closeIo : Bool) : Hyperstart :=
  if h.ctlOpened && !closeCtl then h
  else if h.ioOpened && !closeIo then { h with ctlOpened := false }
  else { h with ctlOpened := false, ioOpened := false }

/-- One step of `Connect`, with its error. A dial that fails leaves a nil connection; when the
second dial of `OpenSockets` fails, the first socket is closed but its state stays opened.
Reference: `Connect` (`proxy/vm.go:179`), `OpenSockets` (`hyperstart.go:134`). -/
def Vm.connectStep (vm : Vm) (env : ConnectEnv) : ConnectStage → Vm × Option String
  | .console =>
    if vm.socketPath = "" then (vm, none)
    else
      match env.console with
      | .error err => ({ vm with console := none }, some err)
      | .ok c => ({ vm with console := some c }, none)
  | .ctl =>
    match env.ctl with
    | .error err => ({ vm with hyperHandler := { vm.hyperHandler with ctl := none } }, some err)
    | .ok c =>
      ({ vm with hyperHandler := { vm.hyperHandler with ctl := some c, ctlOpened := true } }, none)
  | .io =>
    match env.io with
    | .error err => ({ vm with hyperHandler := { vm.hyperHandler with io := none } }, some err)
    | .ok c =>
      ({ vm with hyperHandler := { vm.hyperHandler with io := some c, ioOpened := true } }, none)
  | .ready =>
    match expectReadingCmd initReady env.ready with
    | some err =>
      ({ vm with hyperHandler := vm.hyperHandler.closeSockets env.closeCtl env.closeIo }, some err)
    | none => ({ vm with connected := true }, none)

/-- Reference: `Connect` (`proxy/vm.go:179`). -/
def connectStages : List ConnectStage := [.console, .ctl, .io, .ready]

/-- The steps of `Connect` that are left, up to the first that fails. -/
def Vm.connectFrom (vm : Vm) (env : ConnectEnv) : List ConnectStage → Vm × Option String
  | [] => (vm, none)
  | st :: sts =>
    match vm.connectStep env st with
    | (vm', some err) => (vm', some err)
    | (vm', none) => vm'.connectFrom env sts

/-- Reference: `Connect` (`proxy/vm.go:179`). -/
def Vm.connect (vm : Vm) (env : ConnectEnv) : Vm × Option String := vm.connectFrom env connectStages

/-- The teardown once the VM process is gone: the sockets are closed and every session is taken out
of the table. Reference: `Close` (`proxy/vm.go:288`). -/
def Vm.close (vm : Vm) (closeCtl closeIo : Bool) : Vm :=
  { vm with
    hyperHandler := vm.hyperHandler.closeSockets closeCtl closeIo
    ioSessions := fun _ => none }

/-- What a step of `Connect` leaves alone. -/
theorem Vm.connectStep_frame (vm : Vm) (env : ConnectEnv) (st : ConnectStage) :
    (vm.connectStep env st).1.containerID = vm.containerID ∧
    (vm.connectStep env st).1.nextIoBase = vm.nextIoBase ∧
    (vm.connectStep env st).1.sessions = vm.sessions ∧
    (vm.connectStep env st).1.ioSessions = vm.ioSessions := by
  cases st <;> simp only [Vm.connectStep] <;> repeat' split
  all_goals exact ⟨rfl, rfl, rfl, rfl⟩

end Proxy

end CcOciRuntime
