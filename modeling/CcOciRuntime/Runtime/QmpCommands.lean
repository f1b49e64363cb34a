import CcOciRuntime.Lib.JsonText
import CcOciRuntime.Runtime.Qmp

/-!
# Pausing and resuming the hypervisor

To pause or resume the hypervisor the runtime connects to its socket, reads the welcome, asks for
the capabilities unless the process has done so before, sends the command and reads two messages.
The check of the welcome returns true whatever it finds, the check of a reply accepts members where
it expects none, and a command that cannot be sent leaves the result of the step before it.

`vmRequest_proper_iff` says which of the runs that succeed are proper exchanges.

Reference: `cc_oci_vm_pause` and `cc_oci_vm_resume` (`src/network.c:655`, `:691`).
-/

namespace CcOciRuntime

namespace Runtime

/-- What the host and the hypervisor answer, apart from the messages: whether there is a socket and
the connection can be made, and whether the two messages can be sent. `parse` is json-glib's reader
of a document. -/
structure QmpHost where
  parse : List UInt8 → Option Json
  socketExists : Bool := true
  address : Bool := true
  socket : Bool := true
  connected : Bool := true
  capabilitiesSent : Bool := true
  commandSent : Bool := true

/-- A run of a command: how it ends, the static variable of `cc_oci_qmp_msg_send`, the messages that
were to be sent, and the messages of the three receptions. -/
structure QmpRun where
  ending : RecvEnd := .returned false
  initialised : Bool
  sent : List String := []
  welcome : List (List UInt8) := []
  reply : List (List UInt8) := []
  response : List (List UInt8) := []

/-- Reference: `cc_oci_qmp_check_result` (`src/network.c:240`). -/
def qmpCheckResult (parse : List UInt8 → Option Json) (result : List UInt8) (expectEmpty : Bool) :
    Bool :=
  match parse result with
  | none => false
  | some doc =>
    match doc.member "return" with
    | some (.obj ms) =>
      let ret := true
      -- a message is logged, and `ret` is still the result of the check before
      if ms.length ≠ 0 ∧ expectEmpty = true then ret else true
    | _ => false

/-- The message that is checked. Reference: `src/network.c:404-432`. -/
def responseMessage (expectedRespCount : Nat) (msgs : List (List UInt8)) : Option (List UInt8) :=
  if expectedRespCount = 1 then msgs[0]?
  else if expectedRespCount = 2 then msgs[1]?
  else if expectedRespCount = 3 then msgs[0]?
  else none

/-- Sending the command itself; `ret` is the result so far. Reference: `src/network.c:380-444`. -/
def sendCommand (host : QmpHost) (msg : String) (expectedRespCount : Nat) (expectEmpty ret : Bool)
    (run : QmpRun) (socket : List Receive) : QmpRun :=
  let run := { run with sent := run.sent ++ [msg] }
  if host.commandSent = false then { run with ending := .returned ret }
  else if expectedRespCount = 0 then { run with ending := .returned true }
  else
    let r := qmpMsgRecv expectedRespCount socket
    let run := { run with response := r.msgs }
    match r.ending with
    | .returned true =>
      match responseMessage expectedRespCount r.msgs with
      | none => { run with ending := .returned false }
      | some m => { run with ending := .returned (qmpCheckResult host.parse m expectEmpty) }
    | ending => { run with ending }

/-- Reference: `capabilities` (`src/network.c:318`). -/
def capabilities : String := "\x7b \"execute\": \"qmp_capabilities\" \x7d"

/-- Reference: `cc_oci_qmp_msg_send` (`src/network.c:311`). -/
def qmpMsgSend (host : QmpHost) (msg : String) (expectedRespCount : Nat) (expectEmpty : Bool)
    (run : QmpRun) (socket : List Receive) : QmpRun :=
  if run.initialised then sendCommand host msg expectedRespCount expectEmpty false run socket
  else
    let run := { run with sent := run.sent ++ [capabilities] }
    if host.capabilitiesSent = false then { run with ending := .returned false }
    else
      let r := qmpMsgRecv 1 socket
      let run := { run with reply := r.msgs }
      match r.ending with
      | .returned true =>
        match r.msgs[0]? with
        | none => { run with ending := .returned false }
        | some m =>
          if qmpCheckResult host.parse m true then
            sendCommand host msg expectedRespCount expectEmpty true { run with initialised := true }
              r.socket
          else { run with ending := .returned false }
      | ending => { run with ending }

/-- The two commands. -/
inductive VmCommand
  | pause
  | resume
  deriving DecidableEq

/-- Reference: `pause_msg` (`src/network.c:466`), `resume_msg` (`:485`). -/
def VmCommand.message : VmCommand → String
  | .pause => "\x7b \"execute\": \"stop\" \x7d"
  | .resume => "\x7b \"execute\": \"cont\" \x7d"

/-- A command with its connection. The result of the checks of the welcome is not returned.
Reference: `cc_oci_vm_conn_new` (`src/network.c:579`), `cc_oci_qmp_check_welcome` (`:501`). -/
def vmRequest (cmd : VmCommand) (host : QmpHost) (socketPath : Option String) (pid : Int32)
    (initialised : Bool) (socket : List Receive) : QmpRun :=
  if socketPath = none ∨ pid ≤ 0 then { initialised }
  else if host.socketExists = false ∨ host.address = false ∨ host.socket = false ∨
      host.connected = false then { initialised }
  else
    let r := qmpMsgRecv 1 socket
    let run : QmpRun := { initialised, welcome := r.msgs }
    match r.ending with
    | .returned _ => qmpMsgSend host cmd.message 2 false run r.socket
    | ending => { run with ending }

/-- Reference: `cc_oci_vm_pause` (`src/network.c:655`). -/
def vmPause := vmRequest .pause

/-- Reference: `cc_oci_vm_resume` (`src/network.c:691`). -/
def vmResume := vmRequest .resume

/-! ## Runs that succeed -/

/-- The message has a return member that is an object. -/
def ReturnsObject (parse : List UInt8 → Option Json) (m : List UInt8) : Prop :=
  ∃ doc ms, parse m = some doc ∧ doc.member "return" = some (.obj ms)

/-- The message has a return member that is an empty object. -/
def ReturnsEmpty (parse : List UInt8 → Option Json) (m : List UInt8) : Prop :=
  ∃ doc, parse m = some doc ∧ doc.member "return" = some (.obj [])

/-- The message is an object with a QMP member. -/
def Welcomes (parse : List UInt8 → Option Json) (m : List UInt8) : Prop :=
  ∃ ms v, parse m = some (.obj ms) ∧ Json.find "QMP" ms = some v

/-- The exchange that the protocol asks for. -/
structure ProperExchange (parse : List UInt8 → Option Json) (run : QmpRun) : Prop where
  welcome : ∃ m, run.welcome[0]? = some m ∧ Welcomes parse m
  reply : ∃ m, run.reply[0]? = some m ∧ ReturnsEmpty parse m
  response : ∃ m, run.response[1]? = some m ∧ ReturnsObject parse m

section
variable {parse : List UInt8 → Option Json} {m : List UInt8}

instance : Decidable (ReturnsEmpty parse m) :=
  decidable_of_iff ((parse m).any fun doc =>
      (doc.member "return").any fun v => v matches .obj []) <| by
    simp only [Option.any_eq_true, ReturnsEmpty]
    constructor
    · rintro ⟨doc, hdoc, v, hv, hempty⟩
      match v, hempty with
      | .obj [], _ => exact ⟨doc, hdoc, hv⟩
    · rintro ⟨doc, hdoc, hv⟩
      exact ⟨doc, hdoc, _, hv, rfl⟩

instance : Decidable (ReturnsObject parse m) :=
  decidable_of_iff ((parse m).any fun doc =>
      (doc.member "return").any fun v => v matches .obj _) <| by
    simp only [Option.any_eq_true, ReturnsObject]
    constructor
    · rintro ⟨doc, hdoc, v, hv, hobj⟩
      match v, hobj with
      | .obj ms, _ => exact ⟨doc, ms, hdoc, hv⟩
    · rintro ⟨doc, ms, hdoc, hv⟩
      exact ⟨doc, hdoc, _, hv, rfl⟩

instance : Decidable (Welcomes parse m) :=
  decidable_of_iff ((parse m).any fun doc =>
      match doc with
      | .obj ms => (Json.find "QMP" ms).isSome
      | _ => false) <| by
    simp only [Option.any_eq_true, Welcomes]
    constructor
    · rintro ⟨doc, hdoc, hqmp⟩
      match doc, hqmp with
      | .obj ms, hqmp =>
        obtain ⟨v, hv⟩ := Option.isSome_iff_exists.1 hqmp
        exact ⟨ms, v, hdoc, hv⟩
    · rintro ⟨ms, v, hdoc, hv⟩
      exact ⟨_, hdoc, Option.isSome_iff_exists.2 ⟨v, hv⟩⟩

instance {run : QmpRun} : Decidable (ProperExchange parse run) :=
  decidable_of_iff (run.welcome[0]?.any (Welcomes parse ·) ∧
      run.reply[0]?.any (ReturnsEmpty parse ·) ∧
      run.response[1]?.any (ReturnsObject parse ·)) <| by
    simp only [Option.any_eq_true, decide_eq_true_eq]
    exact ⟨fun ⟨hw, hr, hs⟩ => ⟨hw, hr, hs⟩, fun ⟨hw, hr, hs⟩ => ⟨hw, hr, hs⟩⟩

end

/-- A result that passes the check returns an object. -/
theorem qmpCheckResult_eq_true {parse : List UInt8 → Option Json} {m : List UInt8}
    {expectEmpty : Bool} (h : qmpCheckResult parse m expectEmpty = true) :
    ReturnsObject parse m := by
  rw [qmpCheckResult] at h
  split at h
  · cases h
  · next doc hdoc =>
    split at h
    · next ms hms => exact ⟨doc, ms, hdoc, hms⟩
    · cases h

section
variable {host : QmpHost} {msg : String} {ret : Bool} {run : QmpRun} {socket : List Receive}

/-- How sending a command with two responses succeeds: it was not sent, and the result was true
before, or the second response has been checked. -/
theorem sendCommand_true
    (h : (sendCommand host msg 2 false ret run socket).ending = .returned true) :
    (host.commandSent = false ∧ ret = true ∧
      (sendCommand host msg 2 false ret run socket).response = run.response) ∨
    (host.commandSent = true ∧
      ∃ m, (sendCommand host msg 2 false ret run socket).response[1]? = some m ∧
        ReturnsObject host.parse m) := by
  unfold sendCommand at h ⊢
  cases hsent : host.commandSent with
  | false =>
    rw [hsent] at h
    simp only [if_true, RecvEnd.returned.injEq] at h
    exact .inl ⟨rfl, h, rfl⟩
  | true =>
    rw [hsent] at h
    simp only [Bool.true_eq_false, if_false] at h ⊢
    refine .inr ⟨trivial, ?_⟩
    cases hend : (qmpMsgRecv 2 socket).ending with
    | returned ok =>
      cases ok with
      | false =>
        rw [hend] at h
        cases h
      | true =>
        rw [hend] at h
        dsimp only at h ⊢
        cases hm : responseMessage 2 (qmpMsgRecv 2 socket).msgs with
        | none =>
          rw [hm] at h
          cases h
        | some m =>
          rw [hm] at h
          exact ⟨m, hm, qmpCheckResult_eq_true (RecvEnd.returned.inj h)⟩
    | aborted | crashed | blocked =>
      rw [hend] at h
      cases h

/-- Sending a command leaves what has been received before. -/
theorem sendCommand_received (n : Nat) (expectEmpty : Bool) :
    (sendCommand host msg n expectEmpty ret run socket).welcome = run.welcome ∧
      (sendCommand host msg n expectEmpty ret run socket).reply = run.reply := by
  unfold sendCommand
  dsimp only
  split_ifs
  · exact ⟨rfl, rfl⟩
  · exact ⟨rfl, rfl⟩
  · split
    · split <;> exact ⟨rfl, rfl⟩
    · exact ⟨rfl, rfl⟩

/-- **How a command succeeds.** It ends with the command itself: at once if the process has asked
for the capabilities before, or after a reply that has been checked. -/
theorem qmpMsgSend_true (h : (qmpMsgSend host msg 2 false run socket).ending = .returned true) :
    (run.initialised = true ∧
      qmpMsgSend host msg 2 false run socket = sendCommand host msg 2 false false run socket) ∨
    (run.initialised = false ∧ ∃ m run' socket', run'.welcome = run.welcome ∧
      run'.response = run.response ∧ run'.reply[0]? = some m ∧ ReturnsObject host.parse m ∧
      qmpMsgSend host msg 2 false run socket = sendCommand host msg 2 false true run' socket') := by
  rw [qmpMsgSend] at h ⊢
  split_ifs at h ⊢ with hinit hsent
  · exact .inl ⟨hinit, rfl⟩
  · cases h
  · refine .inr ⟨Bool.not_eq_true _ ▸ hinit, ?_⟩
    dsimp only at h ⊢
    cases hend : (qmpMsgRecv 1 socket).ending with
    | returned ok =>
      rw [hend] at h
      cases ok with
      | false => cases h
      | true =>
        cases hm : (qmpMsgRecv 1 socket).msgs[0]? with
        | none =>
          rw [hm] at h
          cases h
        | some m =>
          rw [hm] at h
          dsimp only at h ⊢
          split_ifs at h ⊢ with hcheck
          · let asked : QmpRun :=
              { run with
                initialised := true
                sent := run.sent ++ [capabilities]
                reply := (qmpMsgRecv 1 socket).msgs }
            exact ⟨m, asked, _, rfl, rfl, hm, qmpCheckResult_eq_true hcheck, rfl⟩
          · cases h
    | aborted | crashed | blocked =>
      rw [hend] at h
      cases h

/-- A request that succeeds has read a welcome and sent its command. -/
theorem vmRequest_true {cmd : VmCommand} {socketPath : Option String} {pid : Int32}
    {initialised : Bool}
    (h : (vmRequest cmd host socketPath pid initialised socket).ending = .returned true) :
    ∃ welcome socket', vmRequest cmd host socketPath pid initialised socket =
      qmpMsgSend host cmd.message 2 false { initialised, welcome } socket' := by
  rw [vmRequest] at h ⊢
  split_ifs at h ⊢
  · cases h
  · cases h
  · dsimp only at h ⊢
    cases hend : (qmpMsgRecv 1 socket).ending with
    | returned ok => exact ⟨_, _, rfl⟩
    | aborted | crashed | blocked =>
      rw [hend] at h
      cases h

end

/-! ## Proper exchanges -/

/-- What the runtime does not check: that the welcome is one, that the capabilities have been asked
for on this connection and their reply has no members, and that the command has been sent. -/
structure UncheckedExchange (host : QmpHost) (initialised : Bool) (run : QmpRun) : Prop where
  welcome : ∃ m, run.welcome[0]? = some m ∧ Welcomes host.parse m
  asked : initialised = false
  noMembers : ∀ m doc ms, run.reply[0]? = some m → host.parse m = some doc →
    doc.member "return" = some (.obj ms) → ms = []
  sent : host.commandSent = true

/-- **Pausing and resuming** succeed with a proper exchange exactly if what the runtime does not
check is right. -/
theorem vmRequest_proper_iff (cmd : VmCommand) (host : QmpHost) (socketPath : Option String)
    (pid : Int32) (initialised : Bool) (socket : List Receive)
    (h : (vmRequest cmd host socketPath pid initialised socket).ending = .returned true) :
    ProperExchange host.parse (vmRequest cmd host socketPath pid initialised socket) ↔
    UncheckedExchange host initialised
      (vmRequest cmd host socketPath pid initialised socket) := by
  obtain ⟨welcome, socket', heq⟩ := vmRequest_true h
  rw [heq] at h ⊢
  rcases qmpMsgSend_true h with ⟨hinit, hsend⟩ |
    ⟨hinit, m, run, socket'', -, hresponse, hm, hreply, hsend⟩
  · -- the capabilities have not been asked for, so there is no reply
    obtain rfl : initialised = true := hinit
    rw [hsend]
    refine iff_of_false (fun hproper => ?_) fun hunchecked => Bool.noConfusion hunchecked.asked
    obtain ⟨m, hm, -⟩ := hproper.reply
    rw [(sendCommand_received 2 false).2] at hm
    cases hm
  · obtain rfl : initialised = false := hinit
    rw [hsend] at h ⊢
    have hfirst : (sendCommand host cmd.message 2 false true run socket'').reply[0]? = some m := by
      rw [(sendCommand_received 2 false).2, hm]
    rcases sendCommand_true h with ⟨hsent, -, hnone⟩ | ⟨hsent, hcheck⟩
    · refine iff_of_false (fun hproper => ?_) fun hunchecked => ?_
      · obtain ⟨m, hm, -⟩ := hproper.response
        rw [hnone, hresponse] at hm
        cases hm
      · exact Bool.noConfusion (hsent.symm.trans hunchecked.sent)
    · constructor
      · intro hproper
        refine ⟨hproper.welcome, rfl, fun m' doc ms hm' hdoc hret => ?_, hsent⟩
        obtain ⟨m'', hm'', doc', hdoc', hempty⟩ := hproper.reply
        obtain rfl := Option.some.inj (hm'.symm.trans hm'')
        obtain rfl := Option.some.inj (hdoc.symm.trans hdoc')
        exact Json.obj.inj (Option.some.inj (hret.symm.trans hempty))
      · intro hunchecked
        obtain ⟨doc, ms, hdoc, hret⟩ := hreply
        obtain rfl := hunchecked.noMembers m doc ms hfirst hdoc hret
        exact ⟨hunchecked.welcome, ⟨m, hfirst, doc, hdoc, hret⟩, hcheck⟩

/-- A reader of whole JSON texts. -/
def readText (bytes : List UInt8) : Option Json := Json.readJson (decodeUtf8 bytes)

/-- The chunk of a message, if it fits. -/
def Receive.ofText (text : String) : Receive :=
  let bytes := utf8 text.toList ++ msgSeparator
  if h : bytes.length ≤ netBufSize then
    .data ⟨bytes, List.append_ne_nil_of_right_ne_nil _ msgSeparator_ne_nil, h⟩
  else .failed

/-- A welcome, the reply to the capabilities, an event and the return of the command. -/
def properSocket : List Receive :=
  [.ofText "\x7b\"QMP\": \x7b\x7d\x7d", .ofText "\x7b\"return\": \x7b\x7d\x7d",
    .ofText "\x7b\"event\": \"STOP\"\x7d", .ofText "\x7b\"return\": \x7b\x7d\x7d"]

/-- A proper exchange. -/
theorem vmPause_proper :
    (vmPause { parse := readText } (some "/s") 1 false properSocket).ending = .returned true ∧
      (ProperExchange readText (vmPause { parse := readText } (some "/s") 1 false properSocket) ↔
        UncheckedExchange { parse := readText } false
          (vmPause { parse := readText } (some "/s") 1 false properSocket)) ∧
      ProperExchange readText (vmPause { parse := readText } (some "/s") 1 false properSocket) :=
  ⟨by decide +kernel,
    vmRequest_proper_iff .pause { parse := readText } (some "/s") 1 false properSocket
      (by decide +kernel),
    by decide +kernel⟩

/-- Three pauses that succeed: the welcome is no JSON text; the reply to the capabilities returns a
member; the command is not sent, and nothing is received after it. -/
theorem vmPause_unchecked :
    let run (host : QmpHost) (socket : List Receive) := vmPause host (some "/s") 1 false socket
    let response := properSocket.drop 2
    let noWelcome := run { parse := readText }
      (.ofText "hello" :: .ofText "\x7b\"return\": \x7b\x7d\x7d" :: response)
    let members := run { parse := readText }
      (.ofText "\x7b\"QMP\": \x7b\x7d\x7d" ::
        .ofText "\x7b\"return\": \x7b\"x\": 1\x7d\x7d" :: response)
    let unsent := run { parse := readText, commandSent := false } (properSocket.take 2)
    (noWelcome.ending = .returned true ∧ ¬ ProperExchange readText noWelcome) ∧
      (members.ending = .returned true ∧ ¬ ProperExchange readText members) ∧
      unsent.ending = .returned true ∧ ¬ ProperExchange readText unsent := by
  decide +kernel

end Runtime

end CcOciRuntime
