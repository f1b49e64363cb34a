import CcOciRuntime.Proxy.Sessions
import Mathlib.Data.List.Dedup

/-!
# The goroutines of a VM and its teardown

A VM that was connected has a goroutine that dispatches the agent's output, one for its console if
it has one, one for the stdin of each session, and one that waits for the VM to be lost and then
runs `Close`. `Close` holds the VM's lock while it closes the sessions of the table and waits for
the goroutine of each, and then waits for the other two. `VmThreads` is where they all stand, with
the counters of the wait groups as integers, and the labels of `threadStep` are their steps in any
order. The critical sections of `findSession` and `AllocateIo` are atomic, and need the lock to be
free; `AllocateIo` adds to the session's wait group only after it has given the lock back.

In no run does a counter become negative or the channel get closed twice, `Close` runs only after
the read from the agent has failed, and when it returns the goroutines it waits for have ended
(`exec_teardown`). Once the read has failed, the steps that nothing can hold up lead to the end of
`Close` (`exec_teardown_completes`): the lock is never waited for by a goroutine that `Close` waits
for.

Reference: `proxy/vm.go:134-329`, `helloHandler` (`proxy/proxy.go:125-131`).
-/

namespace CcOciRuntime

namespace Proxy

/-- Where the goroutine of `ioHyperToClients` stands; `lost` says that the loop was left because the
read failed. Reference: `proxy/vm.go:134-162`. -/
inductive Dispatcher
  /-- in `ReadIoMessage` -/
  | reading
  /-- before the critical section of `findSession` -/
  | looking (seq : UInt64)
  /-- in the write to the client of a session -/
  | writing (r : SessionRef)
  /-- out of the loop, before `vm.wg.Done` -/
  | leaving (lost : Bool)
  | ended (lost : Bool)
  deriving DecidableEq

/-- The goroutine of `consoleToLog`. Reference: `proxy/vm.go:165`. -/
inductive ConsoleReader
  | absent
  | running
  | ended
  deriving DecidableEq

/-- Where the goroutine of `ioClientToHyper` stands. Reference: `proxy/vm.go:215-240`. -/
inductive ForwarderPc
  /-- the session is in the table, and `session.wg.Add` is still to come -/
  | notStarted
  | reading
  | sending
  | ended
  deriving DecidableEq

/-- The goroutine of a session with the session's wait group; `closed` says that the proxy has
closed the session's connection. -/
structure Forwarder where
  pc : ForwarderPc := .notStarted
  closed : Bool := false
  wg : Int := 0
  deriving DecidableEq

/-- Where the goroutine that waits for the end of the VM stands. Reference: `proxy/proxy.go:127-131`
and `Close` (`proxy/vm.go:288-314`). -/
inductive Monitor
  | waiting
  /-- the sockets are closed, and the lock is to be taken -/
  | closing
  /-- under the lock, with the entries that are still to be visited -/
  | visiting (order : List UInt64)
  /-- under the lock, in `session.wg.Wait` -/
  | joining (r : SessionRef) (order : List UInt64)
  /-- in `vm.wg.Wait` -/
  | waitingAll
  | ended
  deriving DecidableEq

/-- The goroutines of a VM. `vmLost` counts how often the channel has been closed, and `found`
records the sessions that `Close` found in the table under their base. -/
structure VmThreads where
  vm : Vm
  dispatcher : Dispatcher := .reading
  console : ConsoleReader
  consoleClosed : Bool := false
  monitor : Monitor := .waiting
  forwarders : List Forwarder := []
  vmLost : Nat := 0
  wg : Int
  found : List SessionRef := []

/-- The goroutines when `Connect` has returned nil. Reference: `Connect` (`proxy/vm.go:179`). -/
def VmThreads.start (vm : Vm) (console : Bool) : VmThreads where
  vm
  console := if console then .running else .absent
  wg := if console then 2 else 1

/-- The next step of one of the goroutines, with the environment's answer. -/
inductive ThreadLabel
  | read (seq : UInt64)
  | readFails
  | look
  | write (ok : Bool)
  | leave
  | consoleEnds
  | allocate (n : Int) (clientID : UInt64) (c : Conn)
  | start (r : SessionRef)
  | forwarderReads (r : SessionRef)
  | forwarderRefuses (r : SessionRef)
  | forwarderSends (r : SessionRef)
  | forwarderStops (r : SessionRef)
  | wake (closeCtl closeIo : Bool)
  | lock (order : List UInt64)
  | visit
  | join
  | unlock
  | finish

/-- `Close` holds the lock. -/
def Monitor.locked : Monitor → Bool
  | .visiting _ | .joining _ _ => true
  | _ => false

/-- `Vm.Visits` as it can be tested, on a table that has no entries but those of the numbers of its
sessions (`Vm.VisitsNumbers.visits`). -/
def Vm.VisitsNumbers (vm : Vm) (order : List UInt64) : Prop :=
  order.Nodup ∧ (∀ k ∈ order, vm.ioSessions k ≠ none) ∧
    ∀ k ∈ vm.sessions.flatMap IoSession.numbers, vm.ioSessions k ≠ none → k ∈ order

instance (vm : Vm) (order : List UInt64) : Decidable (vm.VisitsNumbers order) :=
  -- the elements of the lists are tested, not all the numbers of 64 bits
  have : Decidable (∀ k ∈ order, vm.ioSessions k ≠ none) := List.decidableBAll _ _
  have : Decidable (∀ k ∈ vm.sessions.flatMap IoSession.numbers,
      vm.ioSessions k ≠ none → k ∈ order) := List.decidableBAll _ _
  inferInstanceAs (Decidable (_ ∧ _ ∧ _))

/-- The sessions that `Close` finds: those that the table has under their base. -/
def Vm.toClose (vm : Vm) : List SessionRef :=
  (List.range vm.sessions.length).filter fun r =>
    (vm.sessions[r]?).any fun session => vm.ioSessions session.ioBase = some r

/-- A step of the goroutine of session `r`. -/
def VmThreads.setForwarder (s : VmThreads) (r : SessionRef) (enabled : Forwarder → Bool)
    (next : Forwarder → Forwarder) : Option VmThreads :=
  match s.forwarders[r]? with
  | none => none
  | some f => if enabled f then some { s with forwarders := s.forwarders.set r (next f) } else none

/-- The goroutine is in its loop. -/
def ForwarderPc.running : ForwarderPc → Bool
  | .reading | .sending => true
  | .notStarted | .ended => false

/-- One step of the goroutines. -/
def threadStep (s : VmThreads) : ThreadLabel → Option VmThreads
  | .read seq =>
    if s.dispatcher = .reading then some { s with dispatcher := .looking seq } else none
  | .readFails =>
    if s.dispatcher = .reading then
      some { s with dispatcher := .leaving true, vmLost := s.vmLost + 1 }
    else none
  | .look =>
    match s.dispatcher with
    | .looking seq =>
      if s.monitor.locked then none
      else
        match s.vm.ioSessions seq with
        | none => some { s with dispatcher := .reading }
        | some r => some { s with dispatcher := .writing r }
    | _ => none
  | .write ok =>
    match s.dispatcher with
    | .writing _ => some { s with dispatcher := if ok then .reading else .leaving false }
    | _ => none
  | .leave =>
    match s.dispatcher with
    | .leaving lost => some { s with dispatcher := .ended lost, wg := s.wg - 1 }
    | _ => none
  | .consoleEnds =>
    if s.console = .running then some { s with console := .ended, wg := s.wg - 1 } else none
  | .allocate n clientID c =>
    if s.monitor.locked then none
    else
      some { s with
        vm := (s.vm.allocateIo n clientID c).1
        forwarders := s.forwarders ++ [{}] }
  | .start r =>
    s.setForwarder r (·.pc = .notStarted) fun f => { f with pc := .reading, wg := f.wg + 1 }
  | .forwarderReads r =>
    s.setForwarder r (fun f => f.pc = .reading ∧ f.closed = false)
      fun f => { f with pc := .sending }
  | .forwarderRefuses r =>
    s.setForwarder r (fun f => f.pc = .reading ∧ f.closed = false)
      fun f => { pc := .ended, closed := true, wg := f.wg - 1 }
  | .forwarderSends r =>
    s.setForwarder r (·.pc = .sending) fun f => { f with pc := .reading }
  | .forwarderStops r =>
    s.setForwarder r (·.pc.running) fun f => { f with pc := .ended, wg := f.wg - 1 }
  | .wake closeCtl closeIo =>
    if s.monitor = .waiting ∧ 0 < s.vmLost then
      some { s with
        vm := { s.vm with hyperHandler := s.vm.hyperHandler.closeSockets closeCtl closeIo }
        consoleClosed := true
        monitor := .closing }
    else none
  | .lock order =>
    if s.monitor = .closing ∧ s.vm.VisitsNumbers order then
      some { s with monitor := .visiting order, found := s.vm.toClose }
    else none
  | .visit =>
    match s.monitor with
    | .visiting (seq :: order) =>
      match s.vm.ioSessions seq with
      | none => some { s with monitor := .visiting order }
      | some r =>
        let vm := { s.vm with ioSessions := Function.update s.vm.ioSessions seq none }
        if (s.vm.sessions[r]?).map IoSession.ioBase = some seq then
          some { s with
            vm
            monitor := .joining r order
            forwarders := s.forwarders.modify r fun f => { f with closed := true } }
        else some { s with vm, monitor := .visiting order }
    | _ => none
  | .join =>
    match s.monitor with
    | .joining r order =>
      if (s.forwarders[r]?).map Forwarder.wg = some 0 then
        some { s with monitor := .visiting order }
      else none
    | _ => none
  | .unlock => if s.monitor = .visiting [] then some { s with monitor := .waitingAll } else none
  | .finish =>
    if s.monitor = .waitingAll ∧ s.wg = 0 then some { s with monitor := .ended } else none

/-! ## What every step keeps -/

/-- What the goroutine counts for in `vm.wg`. -/
def Dispatcher.live : Dispatcher → Int
  | .ended _ => 0
  | _ => 1

/-- How often it has closed the channel. -/
def Dispatcher.lost : Dispatcher → Nat
  | .leaving true | .ended true => 1
  | _ => 0

def ConsoleReader.live : ConsoleReader → Int
  | .running => 1
  | _ => 0

def ForwarderPc.live (pc : ForwarderPc) : Int := if pc.running then 1 else 0

/-- The entries that `Close` has still to visit. -/
def Monitor.order : Monitor → List UInt64
  | .visiting order | .joining _ order => order
  | _ => []

/-- The session whose goroutine `Close` is waiting for. -/
def Monitor.joins (r : SessionRef) : Monitor → Prop
  | .joining r' _ => r' = r
  | _ => False

/-- A session that `Close` found is closed, or its entry is still to be visited. -/
def VmThreads.Swept (s : VmThreads) (r : SessionRef) : Prop :=
  (∃ f, s.forwarders[r]? = some f ∧ f.closed = true) ∨
    ∃ session, s.vm.sessions[r]? = some session ∧ session.ioBase ∈ s.monitor.order ∧
      s.vm.ioSessions session.ioBase = some r

structure ThreadInv (s : VmThreads) : Prop where
  table : ∀ k r, s.vm.ioSessions k = some r →
    ∃ session, s.vm.sessions[r]? = some session ∧ k ∈ session.numbers
  length : s.forwarders.length = s.vm.sessions.length
  wg : s.wg = s.dispatcher.live + s.console.live
  forwarder : ∀ (r : SessionRef) f, s.forwarders[r]? = some f → f.wg = f.pc.live ∧
    (f.closed = true → f.pc = .sending → s.monitor.joins r)
  vmLost : s.vmLost = s.dispatcher.lost
  monitor : s.monitor ≠ .waiting → s.vmLost = 1 ∧ s.consoleClosed = true
  joined : ∀ r order, s.monitor = .joining r order →
    ∃ f, s.forwarders[r]? = some f ∧ f.closed = true
  ended : s.monitor = .ended → s.wg = 0
  swept : ∀ r ∈ s.found, s.Swept r

section
variable {s t : VmThreads}

theorem ConsoleReader.live_nonneg (c : ConsoleReader) : 0 ≤ c.live := by
  cases c <;> decide

theorem Dispatcher.live_nonneg (d : Dispatcher) : 0 ≤ d.live := by
  cases d <;> simp [Dispatcher.live]

theorem Dispatcher.lost_le_one (d : Dispatcher) : d.lost ≤ 1 := by
  unfold Dispatcher.lost
  split <;> decide

theorem ForwarderPc.live_nonneg (pc : ForwarderPc) : 0 ≤ pc.live := by
  cases pc <;> decide

/-- When `Close` has returned, the goroutines it waits for have ended. -/
theorem ThreadInv.live_eq (h : ThreadInv s) (hended : s.monitor = .ended) :
    s.dispatcher.live = 0 ∧ s.console.live = 0 := by
  have hwg := h.wg
  rw [h.ended hended] at hwg
  have := s.dispatcher.live_nonneg
  have := s.console.live_nonneg
  omega

/-- Only the dispatching goroutine closes the channel, when it leaves its loop. -/
theorem ThreadInv.dispatcher_of_lost (h : ThreadInv s) (hone : s.vmLost = 1) :
    s.dispatcher = .leaving true ∨ s.dispatcher = .ended true := by
  have hlost := h.vmLost.symm.trans hone
  cases hd : s.dispatcher with
  | leaving lost =>
    rw [hd] at hlost
    cases lost with
    | true => exact .inl rfl
    | false => cases hlost
  | ended lost =>
    rw [hd] at hlost
    cases lost with
    | true => exact .inr rfl
    | false => cases hlost
  | _ =>
    rw [hd] at hlost
    cases hlost

/-- A step of the dispatching goroutine, to `d`. -/
theorem ThreadInv.dispatch (h : ThreadInv s) (hlive : s.dispatcher.live = 1) (d : Dispatcher)
    (hlost : d.lost = s.vmLost) :
    ThreadInv { s with dispatcher := d, wg := s.wg + (d.live - 1) } where
  table := h.table
  length := h.length
  wg := by
    have hwg := h.wg
    change s.wg + (d.live - 1) = d.live + s.console.live
    omega
  forwarder := h.forwarder
  vmLost := hlost.symm
  monitor := h.monitor
  joined := h.joined
  ended hended := by
    have := (h.live_eq hended).1
    omega
  swept := h.swept

/-- A step of the dispatching goroutine inside its loop. -/
theorem ThreadInv.loop (h : ThreadInv s) (hlive : s.dispatcher.live = 1) {d : Dispatcher}
    (hd : d.live = 1) (hlost : d.lost = s.vmLost) : ThreadInv { s with dispatcher := d } := by
  have hinv := h.dispatch hlive d hlost
  rwa [hd, show s.wg + (1 - 1) = s.wg by omega] at hinv

/-- The read from the agent fails. -/
theorem ThreadInv.readFails (h : ThreadInv s) (hreading : s.dispatcher = .reading) :
    ThreadInv { s with dispatcher := .leaving true, vmLost := s.vmLost + 1 } where
  table := h.table
  length := h.length
  wg := by
    have hwg := h.wg
    rw [hreading] at hwg
    exact hwg
  forwarder := h.forwarder
  vmLost := by
    have hlost := h.vmLost
    rw [hreading] at hlost
    exact congrArg (· + 1) hlost
  monitor hm := by
    have hone := (h.monitor hm).1
    have hzero := h.vmLost
    rw [hreading] at hzero
    exact absurd (hone.symm.trans hzero) (by decide)
  joined := h.joined
  ended hended := by
    have hzero := (h.live_eq hended).1
    rw [hreading] at hzero
    exact absurd hzero (by decide)
  swept := h.swept

/-- The console is closed. -/
theorem ThreadInv.consoleEnds (h : ThreadInv s) (hrunning : s.console = .running) :
    ThreadInv { s with console := .ended, wg := s.wg - 1 } where
  table := h.table
  length := h.length
  wg := by
    have hwg := h.wg
    rw [hrunning] at hwg
    change s.wg - 1 = s.dispatcher.live + 0
    change s.wg = s.dispatcher.live + 1 at hwg
    omega
  forwarder := h.forwarder
  vmLost := h.vmLost
  monitor := h.monitor
  joined := h.joined
  ended hended := by
    have hzero := (h.live_eq hended).2
    rw [hrunning] at hzero
    exact absurd hzero (by decide)
  swept := h.swept

/-- A step of the goroutine of a session. -/
theorem ThreadInv.setForwarder (h : ThreadInv s) {r : SessionRef} {enabled : Forwarder → Bool}
    {next : Forwarder → Forwarder} (hstep : s.setForwarder r enabled next = some t)
    (hnext : ∀ f, enabled f = true → f.wg = f.pc.live → (next f).wg = (next f).pc.live ∧
      (f.closed = true → (next f).closed = true) ∧
      ((next f).closed = true → (next f).pc ≠ .sending)) : ThreadInv t := by
  rw [VmThreads.setForwarder] at hstep
  split at hstep
  · cases hstep
  next f hf =>
  split_ifs at hstep with henabled
  cases hstep
  obtain ⟨hwg, hclosed, hsending⟩ := hnext f henabled (h.forwarder r f hf).1
  have hkept : ∀ {r' : SessionRef} {f' : Forwarder}, s.forwarders[r']? = some f' →
      f'.closed = true → ∃ g, (s.forwarders.set r (next f))[r']? = some g ∧ g.closed = true := by
    intro r' f' hf' hc
    by_cases hrr : r = r'
    · subst hrr
      cases hf.symm.trans hf'
      have hlt := (List.getElem?_eq_some_iff.1 hf).1
      exact ⟨next f, List.getElem?_set_self hlt, hclosed hc⟩
    · exact ⟨f', (List.getElem?_set_ne hrr).trans hf', hc⟩
  refine ⟨h.table, (List.length_set ..).trans h.length, h.wg, ?_, h.vmLost, h.monitor, ?_, h.ended,
    ?_⟩
  · intro r' f' hf'
    rw [List.getElem?_set] at hf'
    split_ifs at hf'
    · cases hf'
      exact ⟨hwg, fun hc hs => absurd hs (hsending hc)⟩
    · exact h.forwarder r' f' hf'
  · intro r' order hjoining
    obtain ⟨f', hf', hc⟩ := h.joined r' order hjoining
    exact hkept hf' hc
  · intro r' hr'
    rcases h.swept r' hr' with ⟨f', hf', hc⟩ | hentry
    · exact .inl (hkept hf' hc)
    · exact .inr hentry

/-- A session is entered. -/
theorem ThreadInv.allocate (h : ThreadInv s) (hfree : s.monitor.locked = false) (n : Int)
    (clientID : UInt64) (c : Conn) :
    ThreadInv { s with
      vm := (s.vm.allocateIo n clientID c).1
      forwarders := s.forwarders ++ [{}] } where
  table k r hk := by
    rcases enterSession_eq_some hk with ⟨rfl, hnew⟩ | hold
    · exact ⟨⟨n, s.vm.nextIoBase, clientID, c⟩, List.getElem?_concat_length,
        IoSession.mem_numbers.2 hnew⟩
    · obtain ⟨session, hr, hk⟩ := h.table k r hold
      have hlt := (List.getElem?_eq_some_iff.1 hr).1
      exact ⟨session, (List.getElem?_append_left hlt).trans hr, hk⟩
  length := (List.length_append.trans (congrArg (· + 1) h.length)).trans List.length_append.symm
  wg := h.wg
  forwarder r f hf := by
    rcases Nat.lt_or_ge r s.forwarders.length with hlt | hge
    · rw [List.getElem?_append_left hlt] at hf
      exact h.forwarder r f hf
    · rw [List.getElem?_append_right hge, List.getElem?_singleton] at hf
      split_ifs at hf
      cases hf
      exact ⟨rfl, nofun⟩
  vmLost := h.vmLost
  monitor := h.monitor
  joined r order hjoining := by
    obtain ⟨f, hf, hclosed⟩ := h.joined r order hjoining
    have hlt := (List.getElem?_eq_some_iff.1 hf).1
    exact ⟨f, (List.getElem?_append_left hlt).trans hf, hclosed⟩
  ended := h.ended
  swept r hr := by
    rcases h.swept r hr with ⟨f, hf, hclosed⟩ | ⟨session, -, horder, -⟩
    · have hlt := (List.getElem?_eq_some_iff.1 hf).1
      exact .inl ⟨f, (List.getElem?_append_left hlt).trans hf, hclosed⟩
    · -- the lock is free, so there is nothing left to visit
      have hnone : s.monitor.order = [] := by
        cases hm : s.monitor with
        | visiting order =>
          rw [hm] at hfree
          cases hfree
        | joining r order =>
          rw [hm] at hfree
          cases hfree
        | _ => rfl
      rw [hnone] at horder
      cases horder

/-- A step of the goroutine that runs `Close` that changes none of the others. -/
theorem ThreadInv.goto (h : ThreadInv s) {m : Monitor}
    (hlost : s.vmLost = 1 ∧ s.consoleClosed = true) (hm : ∀ r order, m ≠ .joining r order)
    (hjoins : ∀ (r : SessionRef) f, s.forwarders[r]? = some f → f.closed = true →
      f.pc = .sending → m.joins r)
    (hended : m = .ended → s.wg = 0) {found : List SessionRef}
    (hswept : ∀ r ∈ found, { s with monitor := m, found }.Swept r) :
    ThreadInv { s with monitor := m, found } where
  table := h.table
  length := h.length
  wg := h.wg
  forwarder r f hf := ⟨(h.forwarder r f hf).1, hjoins r f hf⟩
  vmLost := h.vmLost
  monitor _ := hlost
  joined r order hjoining := absurd hjoining (hm r order)
  ended := hended
  swept := hswept

/-- The monitor learns of the loss. -/
theorem ThreadInv.wake (h : ThreadInv s) (hwaiting : s.monitor = .waiting) (hlost : 0 < s.vmLost)
    (closeCtl closeIo : Bool) :
    ThreadInv { s with
      vm := { s.vm with hyperHandler := s.vm.hyperHandler.closeSockets closeCtl closeIo }
      consoleClosed := true
      monitor := .closing } where
  table := h.table
  length := h.length
  wg := h.wg
  forwarder r f hf := by
    obtain ⟨hwg, hjoins⟩ := h.forwarder r f hf
    rw [hwaiting] at hjoins
    exact ⟨hwg, hjoins⟩
  vmLost := h.vmLost
  monitor _ := by
    have hle := s.dispatcher.lost_le_one
    rw [← h.vmLost] at hle
    exact ⟨show s.vmLost = 1 by omega, rfl⟩
  joined := nofun
  ended := nofun
  swept r hr := by
    have hswept := h.swept r hr
    rw [VmThreads.Swept, hwaiting] at hswept
    exact hswept

/-- An order of the numbers of the sessions visits every entry of the table once. -/
theorem Vm.VisitsNumbers.visits {vm : Vm} {order : List UInt64} (h : vm.VisitsNumbers order)
    (htable : ∀ k r, vm.ioSessions k = some r →
      ∃ session, vm.sessions[r]? = some session ∧ k ∈ session.numbers) : vm.Visits order where
  nodup := h.1
  mem k := by
    refine ⟨h.2.1 k, fun hk => ?_⟩
    obtain ⟨r, hr⟩ := Option.ne_none_iff_exists'.1 hk
    obtain ⟨session, hsession, hmem⟩ := htable k r hr
    exact h.2.2 k (List.mem_flatMap.2 ⟨session, List.mem_of_getElem? hsession, hmem⟩) hk

/-- The sessions that `Close` closes are those of the table. -/
theorem Vm.mem_toClose {vm : Vm} {r : SessionRef} :
    r ∈ vm.toClose ↔ ∃ session, vm.sessions[r]? = some session ∧
      vm.ioSessions session.ioBase = some r := by
  rw [Vm.toClose, List.mem_filter, List.mem_range]
  constructor
  · rintro ⟨hlt, hbase⟩
    refine ⟨vm.sessions[r], List.getElem?_eq_getElem hlt, ?_⟩
    rw [List.getElem?_eq_getElem hlt] at hbase
    simpa using hbase
  · rintro ⟨session, hr, hbase⟩
    refine ⟨(List.getElem?_eq_some_iff.1 hr).1, ?_⟩
    rw [hr]
    simpa using hbase

/-- `Close` takes the lock. -/
theorem ThreadInv.lock (h : ThreadInv s) (hclosing : s.monitor = .closing) {order : List UInt64}
    (horder : s.vm.VisitsNumbers order) :
    ThreadInv { s with monitor := .visiting order, found := s.vm.toClose } := by
  refine h.goto (m := .visiting order) (h.monitor (by rw [hclosing]; exact nofun)) nofun
    ?_ nofun ?_
  · intro r f hf hclosed hsending
    have hjoins := (h.forwarder r f hf).2 hclosed hsending
    rw [hclosing] at hjoins
    exact hjoins
  · intro r hr
    obtain ⟨session, hsession, hbase⟩ := Vm.mem_toClose.1 hr
    refine .inr ⟨session, hsession, ((horder.visits h.table).mem _).2 ?_, hbase⟩
    rw [hbase]
    exact Option.some_ne_none r

/-- While `Close` goes over the table, no goroutine of a closed session is sending. -/
theorem ThreadInv.not_sending (h : ThreadInv s) {order : List UInt64}
    (hvisiting : s.monitor = .visiting order) {r : SessionRef} {f : Forwarder}
    (hf : s.forwarders[r]? = some f) (hclosed : f.closed = true) : f.pc ≠ .sending := by
  intro hsending
  have hjoins := (h.forwarder r f hf).2 hclosed hsending
  rw [hvisiting] at hjoins
  exact hjoins

/-- The entry of `seq` is deleted, and no session of the table is to be closed with it. -/
theorem ThreadInv.skip (h : ThreadInv s) {seq : UInt64} {order : List UInt64}
    (hvisiting : s.monitor = .visiting (seq :: order))
    (hother : ∀ r session, s.vm.ioSessions seq = some r → s.vm.sessions[r]? = some session →
      session.ioBase ≠ seq) (hlost : s.vmLost = 1 ∧ s.consoleClosed = true)
    {table : UInt64 → Option SessionRef}
    (htable : ∀ k, k ≠ seq → table k = s.vm.ioSessions k)
    (hsub : ∀ k r, table k = some r → s.vm.ioSessions k = some r) :
    ThreadInv { s with
      vm := { s.vm with ioSessions := table }
      monitor := .visiting order } where
  table k r hk := h.table k r (hsub k r hk)
  length := h.length
  wg := h.wg
  forwarder r f hf :=
    ⟨(h.forwarder r f hf).1, fun hc hs => absurd hs (h.not_sending hvisiting hf hc)⟩
  vmLost := h.vmLost
  monitor _ := hlost
  joined := nofun
  ended := nofun
  swept r hr := by
    rcases h.swept r hr with hclosed | ⟨session, hsession, horder, hbase⟩
    · exact .inl hclosed
    · rw [hvisiting] at horder
      have hne : session.ioBase ≠ seq := fun heq => hother r session (heq ▸ hbase) hsession heq
      exact .inr ⟨session, hsession, (List.mem_cons.1 horder).resolve_left hne,
        (htable _ hne).trans hbase⟩

/-- The entry of `seq` is deleted, and its session is closed. -/
theorem ThreadInv.close (h : ThreadInv s) {seq : UInt64} {order : List UInt64}
    (hvisiting : s.monitor = .visiting (seq :: order)) {r : SessionRef}
    (hr : s.vm.ioSessions seq = some r) (hlost : s.vmLost = 1 ∧ s.consoleClosed = true) :
    ThreadInv { s with
      vm := { s.vm with ioSessions := Function.update s.vm.ioSessions seq none }
      monitor := .joining r order
      forwarders := s.forwarders.modify r fun f => { f with closed := true } } where
  table k r' hk := by
    refine h.table k r' ?_
    change Function.update s.vm.ioSessions seq none k = some r' at hk
    rw [Function.update_apply] at hk
    split_ifs at hk
    exact hk
  length := (List.length_modify ..).trans h.length
  wg := h.wg
  forwarder r' f hf := by
    change (s.forwarders.modify r _)[r']? = some f at hf
    rw [List.getElem?_modify] at hf
    obtain ⟨g, hg, rfl⟩ := Option.map_eq_some_iff.1 hf
    have hwg := (h.forwarder r' g hg).1
    split_ifs with hrr
    · exact ⟨hwg, fun _ _ => hrr⟩
    · exact ⟨hwg, fun hc hs => absurd hs (h.not_sending hvisiting hg hc)⟩
  vmLost := h.vmLost
  monitor _ := hlost
  joined r' order' hjoining := by
    cases hjoining
    obtain ⟨session, hsession, -⟩ := h.table seq r hr
    have hlt : r < s.forwarders.length := h.length ▸ (List.getElem?_eq_some_iff.1 hsession).1
    refine ⟨{ s.forwarders[r] with closed := true }, ?_, rfl⟩
    change (s.forwarders.modify r _)[r]? = _
    rw [List.getElem?_modify, List.getElem?_eq_getElem hlt]
    exact congrArg some (if_pos rfl)
  ended := nofun
  swept r' hr' := by
    have hmodify : ∀ {f}, s.forwarders[r']? = some f → ∃ f', (s.forwarders.modify r fun f =>
        { f with closed := true })[r']? = some f' ∧
          (r = r' ∨ f.closed = true → f'.closed = true) := by
      intro f hf
      rw [List.getElem?_modify, hf]
      refine ⟨_, rfl, fun hc => ?_⟩
      split_ifs with hrr
      · rfl
      · exact hc.resolve_left hrr
    rcases h.swept r' hr' with ⟨f, hf, hclosed⟩ | ⟨session, hsession, horder, hbase⟩
    · obtain ⟨f', hf', hc⟩ := hmodify hf
      exact .inl ⟨f', hf', hc (.inr hclosed)⟩
    · rw [hvisiting] at horder
      by_cases hseq : session.ioBase = seq
      · -- the session's own entry
        have hrr : r = r' := Option.some.inj (hr.symm.trans (hseq ▸ hbase))
        have hlt : r' < s.forwarders.length := h.length ▸ (List.getElem?_eq_some_iff.1 hsession).1
        obtain ⟨f', hf', hc⟩ := hmodify (List.getElem?_eq_getElem hlt)
        exact .inl ⟨f', hf', hc (.inl hrr)⟩
      · exact .inr ⟨session, hsession, (List.mem_cons.1 horder).resolve_left hseq,
          (Function.update_of_ne hseq _ _).trans hbase⟩

/-- `Close` goes to the next session. -/
theorem ThreadInv.visit (h : ThreadInv s) (hstep : threadStep s .visit = some t) :
    ThreadInv t := by
  rw [threadStep] at hstep
  split at hstep
  case h_2 => cases hstep
  next seq order hvisiting =>
  have hlost := h.monitor (by rw [hvisiting]; exact nofun)
  split at hstep
  · next hnone =>
    cases hstep
    exact h.skip hvisiting (fun r _ hr => absurd (hnone.symm.trans hr) nofun) hlost
      (fun _ _ => rfl) fun _ _ hk => hk
  · next r hr =>
    split_ifs at hstep with hbase
    · cases hstep
      exact h.close hvisiting hr hlost
    · cases hstep
      refine h.skip hvisiting (fun r' session hr' hsession heq => hbase ?_) hlost
        (fun k hk => Function.update_of_ne hk _ _) fun k r' hk => ?_
      · cases hr.symm.trans hr'
        rw [hsession]
        exact congrArg some heq
      · rw [Function.update_apply] at hk
        split_ifs at hk
        exact hk

/-- `Close` waits for a goroutine. -/
theorem ThreadInv.join (h : ThreadInv s) (hstep : threadStep s .join = some t) : ThreadInv t := by
  rw [threadStep] at hstep
  split at hstep
  case h_2 => cases hstep
  next r order hjoining =>
  split_ifs at hstep with hwg
  cases hstep
  refine h.goto (m := .visiting order) (h.monitor (by rw [hjoining]; exact nofun)) nofun
    ?_ nofun ?_
  · intro r' f hf hclosed hsending
    obtain ⟨hlive, hjoins⟩ := h.forwarder r' f hf
    have hrr := hjoins hclosed hsending
    rw [hjoining] at hrr
    -- the goroutine that is waited for has ended
    change r = r' at hrr
    rw [hrr, hf, Option.map_some, Option.some.injEq, hlive, hsending] at hwg
    exact absurd hwg (by decide)
  · intro r' hr'
    have hswept := h.swept r' hr'
    rw [VmThreads.Swept, hjoining] at hswept
    exact hswept

/-- **A step of a goroutine keeps the invariant.** -/
theorem threadStep_inv (h : ThreadInv s) {l : ThreadLabel} (hstep : threadStep s l = some t) :
    ThreadInv t := by
  cases l with
  | read seq =>
    rw [threadStep] at hstep
    split_ifs at hstep with hreading
    cases hstep
    exact h.loop (by rw [hreading]; rfl) rfl (by rw [h.vmLost, hreading]; rfl)
  | readFails =>
    rw [threadStep] at hstep
    split_ifs at hstep with hreading
    cases hstep
    exact h.readFails hreading
  | look =>
    rw [threadStep] at hstep
    split at hstep
    case h_2 => cases hstep
    next seq hlooking =>
    have hlive : s.dispatcher.live = 1 := by rw [hlooking]; rfl
    have hlost : 0 = s.vmLost := by rw [h.vmLost, hlooking]; rfl
    split_ifs at hstep
    split at hstep <;> cases hstep
    · exact h.loop hlive rfl hlost
    · exact h.loop hlive rfl hlost
  | write ok =>
    rw [threadStep] at hstep
    split at hstep
    case h_2 => cases hstep
    next r hwriting =>
    have hlive : s.dispatcher.live = 1 := by rw [hwriting]; rfl
    have hlost : 0 = s.vmLost := by rw [h.vmLost, hwriting]; rfl
    cases hstep
    cases ok with
    | true => exact h.loop hlive rfl hlost
    | false => exact h.loop hlive rfl hlost
  | leave =>
    rw [threadStep] at hstep
    split at hstep
    case h_2 => cases hstep
    next lost hleaving =>
    cases hstep
    refine h.dispatch (by rw [hleaving]; rfl) (.ended lost) ?_
    rw [h.vmLost, hleaving]
    cases lost <;> rfl
  | consoleEnds =>
    rw [threadStep] at hstep
    split_ifs at hstep with hrunning
    cases hstep
    exact h.consoleEnds hrunning
  | allocate n clientID c =>
    rw [threadStep] at hstep
    split_ifs at hstep with hlocked
    cases hstep
    exact h.allocate (Bool.eq_false_iff.2 hlocked) n clientID c
  | start r =>
    refine h.setForwarder hstep fun f hf hwg => ⟨?_, fun hc => hc, fun _ => nofun⟩
    change f.wg + 1 = 1
    rw [hwg, of_decide_eq_true hf]
    rfl
  | forwarderReads r =>
    refine h.setForwarder hstep fun f hf hwg => ?_
    obtain ⟨hpc, hopen⟩ := of_decide_eq_true hf
    refine ⟨?_, fun hc => hc, fun hc => absurd (hopen.symm.trans hc) nofun⟩
    rw [hwg, hpc]
    rfl
  | forwarderRefuses r =>
    refine h.setForwarder hstep fun f hf hwg => ⟨?_, fun _ => rfl, fun _ => nofun⟩
    change f.wg - 1 = 0
    rw [hwg, (of_decide_eq_true hf).1]
    rfl
  | forwarderSends r =>
    refine h.setForwarder hstep fun f hf hwg => ⟨?_, fun hc => hc, fun _ => nofun⟩
    rw [hwg, of_decide_eq_true hf]
    rfl
  | forwarderStops r =>
    refine h.setForwarder hstep fun f hf hwg => ⟨?_, fun hc => hc, fun _ => nofun⟩
    change f.wg - 1 = 0
    rw [hwg, ForwarderPc.live, if_pos hf]
    rfl
  | wake closeCtl closeIo =>
    rw [threadStep] at hstep
    split_ifs at hstep with hwake
    cases hstep
    exact h.wake hwake.1 hwake.2 closeCtl closeIo
  | lock order =>
    rw [threadStep] at hstep
    split_ifs at hstep with hlock
    cases hstep
    exact h.lock hlock.1 hlock.2
  | visit => exact h.visit hstep
  | join => exact h.join hstep
  | unlock =>
    rw [threadStep] at hstep
    split_ifs at hstep with hvisiting
    cases hstep
    refine h.goto (m := .waitingAll) (h.monitor (by rw [hvisiting]; exact nofun)) nofun
      ?_ nofun ?_
    · intro r f hf hclosed hsending
      exact absurd hsending (h.not_sending hvisiting hf hclosed)
    · intro r hr
      have hswept := h.swept r hr
      rw [VmThreads.Swept, hvisiting] at hswept
      exact hswept
  | finish =>
    rw [threadStep] at hstep
    split_ifs at hstep with hdone
    cases hstep
    refine h.goto (m := .ended) (h.monitor (by rw [hdone.1]; exact nofun)) nofun ?_
      (fun _ => hdone.2) ?_
    · intro r f hf hclosed hsending
      have hjoins := (h.forwarder r f hf).2 hclosed hsending
      rw [hdone.1] at hjoins
      exact hjoins
    · intro r hr
      have hswept := h.swept r hr
      rw [VmThreads.Swept, hdone.1] at hswept
      exact hswept

/-- A connected VM begins in order. -/
theorem start_inv {vm : Vm} (hnew : vm.NoSessions) (console : Bool) :
    ThreadInv (.start vm console) where
  table k r hk := absurd ((hnew.2 k).symm.trans hk) nofun
  length := (congrArg List.length hnew.1).symm
  wg := by cases console <;> rfl
  forwarder := nofun
  vmLost := rfl
  monitor h := absurd rfl h
  joined := nofun
  ended := nofun
  swept := nofun

theorem exec_threadInv {vm : Vm} (hnew : vm.NoSessions) {console : Bool} {ls : List ThreadLabel}
    (h : exec threadStep (.start vm console) ls = some t) : ThreadInv t :=
  exec_invariant (fun _ _ _ hs _ hstep => threadStep_inv hs hstep) (start_inv hnew console)
    (meets_true ls _) h

/-- **The teardown of a VM is sound.** In every state that the goroutines of a VM reach: no counter
of a wait group is negative and the channel has been closed at most once, so that neither panics;
`Close` runs only because the read from the agent has failed; and when it has returned, the
dispatching goroutine and that of the console have ended, and every session it found in the table
under its base is closed and sends nothing more to the agent. -/
theorem exec_teardown (vm : Vm) (hnew : vm.NoSessions) (console : Bool) (ls : List ThreadLabel)
    (t : VmThreads) (h : exec threadStep (.start vm console) ls = some t) :
    0 ≤ t.wg ∧ (∀ f ∈ t.forwarders, 0 ≤ f.wg) ∧ t.vmLost ≤ 1 ∧
      (t.monitor ≠ .waiting → t.dispatcher = .leaving true ∨ t.dispatcher = .ended true) ∧
      (t.monitor = .ended → t.dispatcher = .ended true ∧ t.console ≠ .running ∧
        ∀ r ∈ t.found, ∃ f, t.forwarders[r]? = some f ∧ f.closed = true ∧ f.pc ≠ .sending) := by
  have hinv := exec_threadInv hnew h
  refine ⟨?_, ?_, ?_, fun hm => hinv.dispatcher_of_lost (hinv.monitor hm).1, fun hended => ?_⟩
  · rw [hinv.wg]
    exact Int.add_nonneg t.dispatcher.live_nonneg t.console.live_nonneg
  · intro f hf
    obtain ⟨r, hr⟩ := List.mem_iff_getElem?.1 hf
    rw [(hinv.forwarder r f hr).1]
    exact f.pc.live_nonneg
  · rw [hinv.vmLost]
    exact t.dispatcher.lost_le_one
  · obtain ⟨hdispatcher, hconsole⟩ := hinv.live_eq hended
    have hone := (hinv.monitor (by rw [hended]; exact nofun)).1
    refine ⟨(hinv.dispatcher_of_lost hone).resolve_left fun hd => ?_, fun hrunning => ?_,
      fun r hr => ?_⟩
    · rw [hd] at hdispatcher
      cases hdispatcher
    · rw [hrunning] at hconsole
      cases hconsole
    · rcases hinv.swept r hr with ⟨f, hf, hclosed⟩ | ⟨session, -, horder, -⟩
      · refine ⟨f, hf, hclosed, fun hsending => ?_⟩
        have hjoins := (hinv.forwarder r f hf).2 hclosed hsending
        rw [hended] at hjoins
        exact hjoins
      · rw [hended] at horder
        cases horder

end

/-- A session is allocated, the VM is lost, and `Close` runs to its end; the client's goroutine only
starts once its session has been closed. -/
def lateStart : List ThreadLabel :=
  [.allocate 1 7 3, .allocate 1 8 4, .start 0, .forwarderReads 0, .readFails, .leave,
    .wake true true, .consoleEnds, .lock [2, 1], .visit, .join, .visit, .forwarderStops 0, .join,
    .unlock, .start 1, .finish]

/-- A run with a session whose goroutine starts late. -/
theorem exec_teardown_lateStart :
    ∃ t, exec threadStep (.start (newVM "pod" "ctl" "io") true) lateStart = some t ∧
      t.monitor = .ended ∧ t.found = [0, 1] ∧
      0 ≤ t.wg ∧ (∀ f ∈ t.forwarders, 0 ≤ f.wg) ∧ t.vmLost ≤ 1 ∧
      (t.monitor ≠ .waiting → t.dispatcher = .leaving true ∨ t.dispatcher = .ended true) ∧
      (t.monitor = .ended → t.dispatcher = .ended true ∧ t.console ≠ .running ∧
        ∀ r ∈ t.found, ∃ f, t.forwarders[r]? = some f ∧ f.closed = true ∧ f.pc ≠ .sending) := by
  have hrun : (exec threadStep (.start (newVM "pod" "ctl" "io") true) lateStart).any
      (fun t => decide (t.monitor = .ended ∧ t.found = [0, 1])) = true := rfl
  obtain ⟨t, ht, hend⟩ := (Option.any_eq_true _ _).1 hrun
  obtain ⟨hended, hfound⟩ := of_decide_eq_true hend
  exact ⟨t, ht, hended, hfound,
    exec_teardown (newVM "pod" "ctl" "io") ⟨rfl, fun _ => rfl⟩ true lateStart t ht⟩

/-! ## The end of `Close` -/

/-- The steps that nothing can hold up: those of the goroutine that runs `Close`, the end of a
goroutine that is out of its loop, and the failure of a read from a closed connection or of a write
to an agent that is gone. -/
def Forced (s : VmThreads) : ThreadLabel → Prop
  | .leave | .wake true true | .lock _ | .visit | .join | .unlock | .finish => True
  | .consoleEnds => s.consoleClosed = true
  | .forwarderStops r => ∃ f, s.forwarders[r]? = some f ∧
    (f.pc = .reading ∧ f.closed = true ∨ f.pc = .sending ∧ s.vmLost = 1)
  | _ => False

/-- How many entries the table can have. -/
def Vm.entries (vm : Vm) : Nat := (vm.sessions.flatMap IoSession.numbers).length

/-- How far `Close` is from its end, apart from the goroutines it waits for. -/
def Monitor.rank (entries : Nat) : Monitor → Nat
  | .waiting => 2 * entries + 4
  | .closing => 2 * entries + 3
  | .joining _ order => 2 * order.length + 3
  | .visiting order => 2 * order.length + 2
  | .waitingAll => 1
  | .ended => 0

/-- How many goroutines of sessions are in their loop. -/
def runningForwarders (fs : List Forwarder) : Nat :=
  (fs.map fun f => f.pc.live.toNat).sum

/-- What is left to be done. -/
def VmThreads.work (s : VmThreads) : Nat :=
  s.monitor.rank s.vm.entries + s.dispatcher.live.toNat + s.console.live.toNat +
    runningForwarders s.forwarders

section
variable {s : VmThreads}

/-- An order in which `Close` can visit the table. -/
theorem Vm.exists_visitsNumbers (vm : Vm) : ∃ order, vm.VisitsNumbers order := by
  refine ⟨((vm.sessions.flatMap IoSession.numbers).dedup).filter
    (fun k => (vm.ioSessions k).isSome), (List.nodup_dedup _).filter _, fun k hk => ?_,
    fun k hk hne => ?_⟩
  · exact Option.isSome_iff_ne_none.1 (List.mem_filter.1 hk).2
  · exact List.mem_filter.2 ⟨List.mem_dedup.2 hk, Option.isSome_iff_ne_none.2 hne⟩

theorem ThreadInv.length_le (h : ThreadInv s) {order : List UInt64}
    (horder : s.vm.VisitsNumbers order) : order.length ≤ s.vm.entries := by
  refine (List.subperm_of_subset horder.1 fun k hk => ?_).length_le
  obtain ⟨r, hr⟩ := Option.ne_none_iff_exists'.1 (horder.2.1 k hk)
  obtain ⟨session, hsession, hmem⟩ := h.table k r hr
  exact List.mem_flatMap.2 ⟨session, List.mem_of_getElem? hsession, hmem⟩

/-- Marking a connection as closed stops no goroutine by itself. -/
theorem runningForwarders_modify (fs : List Forwarder) (r : SessionRef) :
    runningForwarders (fs.modify r fun f => { f with closed := true }) = runningForwarders fs := by
  rw [runningForwarders, runningForwarders]
  congr 1
  refine List.ext_getElem? fun i => ?_
  rw [List.getElem?_map, List.getElem?_map, List.getElem?_modify]
  cases fs[i]? with
  | none => rfl
  | some f =>
    refine congrArg some ?_
    dsimp only
    split_ifs <;> rfl

/-- A step of `Close` under the lock. -/
theorem work_visit {seq : UInt64} {order : List UInt64}
    (hvisiting : s.monitor = .visiting (seq :: order)) :
    ∃ t, threadStep s .visit = some t ∧ t.vmLost = s.vmLost ∧ t.work < s.work := by
  have hrank : ∀ n, s.monitor.rank n = 2 * order.length + 4 := by
    intro n
    rw [hvisiting]
    rfl
  rw [threadStep, hvisiting]
  dsimp only
  cases hr : s.vm.ioSessions seq with
  | none =>
    refine ⟨_, rfl, rfl, ?_⟩
    rw [VmThreads.work, VmThreads.work, hrank]
    dsimp only [Monitor.rank]
    omega
  | some r =>
    dsimp only
    split_ifs with hbase
    · refine ⟨_, rfl, rfl, ?_⟩
      rw [VmThreads.work, VmThreads.work, hrank]
      dsimp only [Monitor.rank]
      rw [runningForwarders_modify]
      omega
    · refine ⟨_, rfl, rfl, ?_⟩
      rw [VmThreads.work, VmThreads.work, hrank]
      dsimp only [Monitor.rank]
      omega

/-- Replacing one element changes a sum by the difference of the two. -/
theorem sum_map_set {α : Type*} (f : α → Nat) {l : List α} {i : Nat} {a : α} (h : l[i]? = some a)
    (b : α) : ((l.set i b).map f).sum + f a = (l.map f).sum + f b := by
  induction l generalizing i with
  | nil => cases h
  | cons c l ih =>
    cases i with
    | zero =>
      cases h
      simp only [List.set_cons_zero, List.map_cons, List.sum_cons]
      omega
    | succ i =>
      have := ih h
      simp only [List.set_cons_succ, List.map_cons, List.sum_cons]
      omega

/-- The goroutine of a session ends. -/
theorem work_forwarderStops {r : SessionRef} {f : Forwarder} (hf : s.forwarders[r]? = some f)
    (hrunning : f.pc.running = true) :
    ∃ t, threadStep s (.forwarderStops r) = some t ∧ t.vmLost = s.vmLost ∧ t.work < s.work := by
  have hstep : threadStep s (.forwarderStops r) = some { s with
      forwarders := s.forwarders.set r { f with pc := .ended, wg := f.wg - 1 } } := by
    rw [threadStep, VmThreads.setForwarder, hf]
    exact if_pos hrunning
  refine ⟨_, hstep, rfl, ?_⟩
  have hsum := sum_map_set (fun f : Forwarder => f.pc.live.toNat) hf
    { f with pc := .ended, wg := f.wg - 1 }
  have hone : f.pc.live.toNat = 1 := by
    rw [ForwarderPc.live, if_pos hrunning]
    rfl
  have hzero : (ForwarderPc.ended.live).toNat = 0 := rfl
  rw [VmThreads.work, VmThreads.work, runningForwarders, runningForwarders]
  dsimp only at hsum ⊢
  omega

/-- `Close` waits for the goroutine of a session it has closed. -/
theorem ThreadInv.exists_joining (h : ThreadInv s) (hlost : s.vmLost = 1) {r : SessionRef}
    {order : List UInt64} (hjoining : s.monitor = .joining r order) :
    ∃ l t, Forced s l ∧ threadStep s l = some t ∧ t.vmLost = 1 ∧ t.work < s.work := by
  obtain ⟨f, hf, hclosed⟩ := h.joined r order hjoining
  have hwg := (h.forwarder r f hf).1
  cases hrunning : f.pc.running with
  | false =>
    rw [ForwarderPc.live, hrunning] at hwg
    have hstep : threadStep s .join = some { s with monitor := .visiting order } := by
      rw [threadStep, hjoining]
      dsimp only
      rw [hf]
      exact if_pos (congrArg some hwg)
    refine ⟨.join, _, trivial, hstep, hlost, ?_⟩
    rw [VmThreads.work, VmThreads.work, hjoining]
    dsimp only [Monitor.rank]
    omega
  | true =>
    obtain ⟨t, hstep, hsame, hless⟩ := work_forwarderStops hf hrunning
    refine ⟨.forwarderStops r, t, ⟨f, hf, ?_⟩, hstep, hsame.trans hlost, hless⟩
    cases hpc : f.pc with
    | reading => exact .inl ⟨rfl, hclosed⟩
    | sending => exact .inr ⟨rfl, hlost⟩
    | _ =>
      rw [hpc] at hrunning
      cases hrunning

/-- `Close` waits for the goroutine of the console. -/
theorem ThreadInv.exists_waitingAll (h : ThreadInv s) (hlost : s.vmLost = 1)
    (hd : s.dispatcher = .ended true) (hwaiting : s.monitor = .waitingAll) :
    ∃ l t, Forced s l ∧ threadStep s l = some t ∧ t.vmLost = 1 ∧ t.work < s.work := by
  have hwg := h.wg
  rw [hd] at hwg
  by_cases hrunning : s.console = .running
  · have hforced : s.consoleClosed = true := (h.monitor (by rw [hwaiting]; exact nofun)).2
    refine ⟨.consoleEnds, _, hforced, if_pos hrunning, hlost, ?_⟩
    rw [VmThreads.work, VmThreads.work, hrunning]
    dsimp only [ConsoleReader.live]
    omega
  · have hzero : s.wg = 0 := by
      rw [hwg]
      cases hc : s.console with
      | running => exact absurd hc hrunning
      | _ => rfl
    refine ⟨.finish, _, trivial, if_pos ⟨hwaiting, hzero⟩, hlost, ?_⟩
    rw [VmThreads.work, VmThreads.work, hwaiting]
    dsimp only [Monitor.rank]
    omega

/-- While `Close` has not returned, some step that nothing can hold up brings it closer to its
end. -/
theorem ThreadInv.exists_forced (h : ThreadInv s) (hlost : s.vmLost = 1)
    (hended : s.monitor ≠ .ended) :
    ∃ l t, Forced s l ∧ threadStep s l = some t ∧ t.vmLost = 1 ∧ t.work < s.work := by
  rcases h.dispatcher_of_lost hlost with hd | hd
  · refine ⟨.leave, { s with dispatcher := .ended true, wg := s.wg - 1 }, trivial,
      by rw [threadStep, hd], hlost, ?_⟩
    rw [VmThreads.work, VmThreads.work, hd]
    dsimp only [Dispatcher.live]
    omega
  cases hm : s.monitor with
  | waiting =>
    refine ⟨.wake true true, _, trivial, if_pos ⟨hm, by omega⟩, hlost, ?_⟩
    rw [VmThreads.work, VmThreads.work, hm]
    dsimp only [Monitor.rank, Vm.entries]
    omega
  | closing =>
    obtain ⟨order, horder⟩ := s.vm.exists_visitsNumbers
    have hle := h.length_le horder
    refine ⟨.lock order, _, trivial, if_pos ⟨hm, horder⟩, hlost, ?_⟩
    rw [VmThreads.work, VmThreads.work, hm]
    dsimp only [Monitor.rank]
    omega
  | visiting order =>
    cases order with
    | nil =>
      refine ⟨.unlock, _, trivial, if_pos hm, hlost, ?_⟩
      rw [VmThreads.work, VmThreads.work, hm]
      dsimp only [Monitor.rank]
      omega
    | cons seq order =>
      obtain ⟨t, hstep, hsame, hless⟩ := work_visit hm
      exact ⟨.visit, t, trivial, hstep, hsame.trans hlost, hless⟩
  | joining r order => exact h.exists_joining hlost hm
  | waitingAll => exact h.exists_waitingAll hlost hd hm
  | ended => exact absurd hm hended

end

/-- **The teardown of a VM comes to its end.** From every state that the goroutines of a VM reach
with the channel closed, steps that nothing can hold up lead to the return of `Close`: no goroutine
that it waits for waits for the lock it holds. -/
theorem exec_teardown_completes (vm : Vm) (hnew : vm.NoSessions) (console : Bool)
    (ls : List ThreadLabel) (t : VmThreads)
    (h : exec threadStep (.start vm console) ls = some t) (hlost : t.vmLost = 1) :
    ∃ rest u, Meets threadStep Forced t rest ∧ exec threadStep t rest = some u ∧
      u.monitor = .ended := by
  obtain ⟨rest, u, hforced, hexec, -, hended⟩ := @exists_exec_of_measure VmThreads ThreadLabel
    threadStep Forced (fun s => ThreadInv s ∧ s.vmLost = 1) (fun s => s.monitor = .ended)
    VmThreads.work (fun s ⟨hs, hone⟩ hne => by
      obtain ⟨l, t, hl, hstep, hone', hless⟩ := hs.exists_forced hone hne
      exact ⟨l, t, hl, hstep, ⟨threadStep_inv hs hstep, hone'⟩, hless⟩)
    t ⟨exec_threadInv hnew h, hlost⟩
  exact ⟨rest, u, hforced, hexec, hended⟩

/-- A goroutine is sending and the dispatching goroutine is about to leave. -/
def lostWhileSending : List ThreadLabel :=
  [.allocate 2 7 3, .start 0, .forwarderReads 0, .readFails]

/-- A loss while the agent is sending. -/
theorem exec_teardown_completes_sending :
    ∃ t, exec threadStep (.start (newVM "pod" "ctl" "io") true) lostWhileSending = some t ∧
      ∃ rest u, Meets threadStep Forced t rest ∧ exec threadStep t rest = some u ∧
        u.monitor = .ended :=
  ⟨_, rfl, exec_teardown_completes (newVM "pod" "ctl" "io") ⟨rfl, fun _ => rfl⟩ true
    lostWhileSending _ rfl rfl⟩

end Proxy

end CcOciRuntime
