import CcOciRuntime.Proxy.Vm

/-!
# Dispatching a VM's output to its clients

What `ioHyperToClients` owes its clients is stated on its own, as `Vm.due`: the messages of known
sessions that the session's connection takes, in the order they arrive. `FailureIsolated` says that
a run of the loop completes exactly those writes and only ends when the read from the agent fails.
The loop leaves on the first message it cannot send, so this holds exactly when every message of a
known session can be sent (`failureIsolated_iff_sent`).

Reference: `ioHyperToClients` (`proxy/vm.go:134`).
-/

namespace CcOciRuntime

namespace Proxy

/-- The connection takes the whole frame of `m`. -/
def Accepts (write : List UInt8 → WriteResult) (m : TtyMessage) : Prop :=
  write (encodeTty m) = { n := m.message.length + ttyHdrSize, err := none }

instance (write : List UInt8 → WriteResult) (m : TtyMessage) : Decidable (Accepts write m) :=
  inferInstanceAs (Decidable (_ = _))

/-- The writes that are due: for each message of a known session whose connection takes it, in
order. `write i` is the answer to the `i`-th message, as in `Vm.dispatch`. -/
def Vm.due (vm : Vm) (write : Nat → List UInt8 → WriteResult) :
    Nat → List TtyMessage → List (Conn × TtyMessage)
  | _, [] => []
  | i, m :: ms =>
    match vm.findSession m.session with
    | none => vm.due write (i + 1) ms
    | some session =>
      if Accepts (write i) m then (session.client, m) :: vm.due write (i + 1) ms
      else vm.due write (i + 1) ms

/-- The run `r` of the dispatching loop on `ms` ended because the agent was gone, after every write
that was due. -/
def FailureIsolated (vm : Vm) (write : Nat → List UInt8 → WriteResult) (ms : List TtyMessage)
    (r : List (Conn × TtyMessage) × DispatchEnd) : Prop :=
  r.2 = .vmLost ∧ r.1 = vm.due write 0 ms

instance (vm : Vm) (write : Nat → List UInt8 → WriteResult) (ms : List TtyMessage)
    (r : List (Conn × TtyMessage) × DispatchEnd) : Decidable (FailureIsolated vm write ms r) :=
  inferInstanceAs (Decidable (_ ∧ _))

/-- Sending succeeds exactly when the frame is within the limit of the channel and the connection
takes it. -/
theorem sendIoMessageWithConn_eq_none {write : List UInt8 → WriteResult} {m : TtyMessage} :
    sendIoMessageWithConn write m = none ↔
      m.message.length + ttyHdrSize ≤ 10240 ∧ Accepts write m := by
  simp only [sendIoMessageWithConn, Accepts]
  by_cases hlen : 10240 < m.message.length + ttyHdrSize
  · rw [if_pos hlen]
    exact ⟨nofun, fun h => absurd h.1 (by omega)⟩
  · rw [if_neg hlen]
    obtain ⟨n, err⟩ := write (encodeTty m)
    cases err with
    | some err => simp
    | none =>
      simp only [ne_eq, ite_not, WriteResult.mk.injEq, and_true]
      split
      · next hn => exact ⟨fun _ => ⟨by omega, hn⟩, fun _ => rfl⟩
      · next hn => exact ⟨nofun, fun h => absurd h.2 hn⟩

section
variable (vm : Vm) (write : Nat → List UInt8 → WriteResult)

/-- Every message of a known session, counted from `i` on, is sent. -/
def Vm.Sent (i : Nat) (ms : List TtyMessage) : Prop :=
  ∀ j m session, ms[j]? = some m → vm.findSession m.session = some session →
    sendIoMessageWithConn (write (i + j)) m = none

variable {vm write}

theorem Vm.sent_cons {i : Nat} {m : TtyMessage} {ms : List TtyMessage} :
    vm.Sent write i (m :: ms) ↔
      (∀ session, vm.findSession m.session = some session →
        sendIoMessageWithConn (write i) m = none) ∧ vm.Sent write (i + 1) ms := by
  constructor
  · intro h
    refine ⟨fun session hs => h 0 m session rfl hs, fun j n session hn hs => ?_⟩
    have := h (j + 1) n session hn hs
    rwa [show i + (j + 1) = i + 1 + j by omega] at this
  · rintro ⟨hhead, htail⟩ j n session hn hs
    cases j with
    | zero =>
      cases hn
      exact hhead session hs
    | succ j =>
      have := htail j n session hn hs
      rwa [show i + 1 + j = i + (j + 1) by omega] at this

/-- The loop reaches the failing read exactly when no send fails. -/
theorem Vm.dispatch_vmLost {i : Nat} {ms : List TtyMessage} :
    (vm.dispatch write i ms).2 = .vmLost ↔ vm.Sent write i ms := by
  induction ms generalizing i with
  | nil => exact ⟨fun _ _ _ _ hm => (nomatch hm), fun _ => rfl⟩
  | cons m ms ih =>
    rw [Vm.sent_cons, Vm.dispatch]
    cases hs : vm.findSession m.session with
    | none => simpa using ih
    | some session =>
      cases hsend : sendIoMessageWithConn (write i) m with
      | some err => simp
      | none => simpa using ih

/-- A run without a failing send completes the writes that are due. -/
theorem Vm.dispatch_due {i : Nat} {ms : List TtyMessage} (h : vm.Sent write i ms) :
    (vm.dispatch write i ms).1 = vm.due write i ms := by
  induction ms generalizing i with
  | nil => rfl
  | cons m ms ih =>
    obtain ⟨hhead, htail⟩ := Vm.sent_cons.1 h
    rw [Vm.dispatch, Vm.due]
    cases hs : vm.findSession m.session with
    | none => exact ih htail
    | some session =>
      have hsend := hhead session hs
      simp only [hsend, if_pos (sendIoMessageWithConn_eq_none.1 hsend).2, ih htail]

end

/-- **Failure isolation, and when it holds.** On any stream of well-formed messages, in whatever
chunks it arrives, the dispatching loop runs on to the failing read and completes every write that
is due exactly when each message of a known session is taken by its connection and is within the
channel's limit: the loop leaves on the first one that is not. -/
theorem failureIsolated_iff_sent (vm : Vm) (write : Nat → List UInt8 → WriteResult)
    (ms : List TtyMessage) (chunks : List (List UInt8)) (hms : ∀ m ∈ ms, m.WellFormed)
    (hchunks : chunks.flatten = ms.flatMap encodeTty) :
    FailureIsolated vm write ms (vm.ioHyperToClients write chunks) ↔
      ∀ i m session, ms[i]? = some m → vm.findSession m.session = some session →
        m.message.length + ttyHdrSize ≤ 10240 ∧ Accepts (write i) m := by
  have hsent : vm.Sent write 0 ms ↔
      ∀ i m session, ms[i]? = some m → vm.findSession m.session = some session →
        m.message.length + ttyHdrSize ≤ 10240 ∧ Accepts (write i) m := by
    simp only [Vm.Sent, Nat.zero_add, sendIoMessageWithConn_eq_none]
  rw [← hsent, Vm.ioHyperToClients, ioMessages_encode hms hchunks]
  exact ⟨fun h => Vm.dispatch_vmLost.1 h.1,
    fun h => ⟨Vm.dispatch_vmLost.2 h, Vm.dispatch_due h⟩⟩

/-- A VM on which two clients, on connections 7 and 8, have allocated one stream each. -/
def twoClientVm : Vm :=
  (((newVM "pod" "/run/ctl.sock" "/run/tty.sock").allocateIo 1 1 7).1.allocateIo 1 2 8).1

/-- Connections that take every frame but the first. -/
def brokenFirst : Nat → List UInt8 → WriteResult
  | 0, _ => { n := 0, err := some "write: broken pipe" }
  | _ + 1, frame => { n := frame.length, err := none }

/-- One message for each client. -/
def twoMessages : List TtyMessage := [⟨1, [0x61]⟩, ⟨2, [0x62]⟩]

/-- Two clients, of which one is broken. -/
theorem failureIsolated_iff_sent_twoClientVm :
    FailureIsolated twoClientVm (fun i => brokenFirst (i + 1)) twoMessages
      (twoClientVm.ioHyperToClients (fun i => brokenFirst (i + 1))
        [twoMessages.flatMap encodeTty]) ↔
      ∀ i m session, twoMessages[i]? = some m → twoClientVm.findSession m.session = some session →
        m.message.length + ttyHdrSize ≤ 10240 ∧ Accepts (brokenFirst (i + 1)) m :=
  failureIsolated_iff_sent twoClientVm (fun i => brokenFirst (i + 1)) twoMessages
    [twoMessages.flatMap encodeTty] (by decide) (by simp)

/-- The first client is gone: the message of the second, whose connection is healthy, is lost. -/
theorem dispatch_stops_at_broken_client :
    ¬ FailureIsolated twoClientVm brokenFirst twoMessages
        (twoClientVm.ioHyperToClients brokenFirst [twoMessages.flatMap encodeTty]) ∧
    twoClientVm.ioHyperToClients brokenFirst [twoMessages.flatMap encodeTty]
      = ([], .writeError "write: broken pipe") ∧
    twoClientVm.due brokenFirst 0 twoMessages = [(8, ⟨2, [0x62]⟩)] := by
  decide

end Proxy

end CcOciRuntime
