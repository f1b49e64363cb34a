import CcOciRuntime.Lib.Ranges
import CcOciRuntime.Proxy.Concurrent
import Mathlib.Data.List.Nodup

/-!
# I/O sequence numbers over whole runs

The sequence numbers of a VM's sessions are consecutive ranges from 1 on, as long as no session is
allocated for a negative number of streams: this is the invariant `Vm.Laid`, which every step of
the proxy keeps (`exec_laid`). The range check of `allocateIoHandler` does not enforce it, because
the handler goes on after the check. The invariant gives, below the wrap of the 64-bit counter, the
disjointness of the sessions' numbers and the soundness of the table that dispatches them
(`sequence_invariant`), and that what one client writes to its stdin cannot be taken for another's
(`stdin_not_injected`).

Reference: `AllocateIo` and `ioClientToHyper` (`proxy/vm.go:243`, `:215`), `allocateIoHandler`
(`proxy/proxy.go:195`).
-/

namespace CcOciRuntime

namespace Proxy

/-- The sizes of a VM's sessions, in order of allocation. -/
def Vm.sizes (vm : Vm) : List Nat := vm.sessions.map fun s => s.nStreams.toNat

/-- How many sequence numbers a VM has handed out. -/
def Vm.handedOut (vm : Vm) : Nat := vm.sizes.sum

/-- The sessions of a VM are consecutive ranges from 1 on, each for at least `lo` streams, and the
table only maps a number to a session it was handed out for. -/
structure Vm.Laid (lo : Int) (vm : Vm) : Prop where
  streams : ∀ s ∈ vm.sessions, lo ≤ s.nStreams
  base : ∀ i s, vm.sessions[i]? = some s → s.ioBase = UInt64.ofNat (rangeStart 1 vm.sizes i)
  next : vm.nextIoBase = UInt64.ofNat (1 + vm.handedOut)
  table : ∀ k r, vm.ioSessions k = some r → ∃ s, vm.sessions[r]? = some s ∧ k ∈ s.numbers

theorem ofInt_eq_ofNat_toNat {n : Int} (h : 0 ≤ n) : UInt64.ofInt n = UInt64.ofNat n.toNat := by
  have hmod : (n % 2 ^ 64).toNat = n.toNat % 2 ^ 64 := by omega
  rw [UInt64.ofInt, hmod, UInt64.ofNat_mod_size]

section
variable {lo : Int} {vm : Vm}

theorem Vm.sizes_eq_some {i : Nat} {s : IoSession} (h : vm.sessions[i]? = some s) :
    vm.sizes[i]? = some s.nStreams.toNat := by
  simp [Vm.sizes, h]

theorem newVM_laid (id ctlSerial ioSerial : String) : (newVM id ctlSerial ioSerial).Laid lo where
  streams := nofun
  base := nofun
  next := rfl
  table := nofun

/-- The invariant reads nothing but the counter, the sessions and the table. -/
theorem Vm.Laid.congr {vm' : Vm} (h : vm.Laid lo) (hn : vm'.nextIoBase = vm.nextIoBase)
    (hs : vm'.sessions = vm.sessions) (ht : ∀ k r, vm'.ioSessions k = some r →
      vm.ioSessions k = some r) : vm'.Laid lo where
  streams := by rw [hs]; exact h.streams
  base := by simp only [Vm.sizes, hs]; exact h.base
  next := by simp only [Vm.handedOut, Vm.sizes, hs, hn]; exact h.next
  table k r hk := by rw [hs]; exact h.table k r (ht k r hk)

/-- A new VM has no numbers yet. -/
theorem helloVm_laid (enableVMConsole : Bool) (hello : Hello) :
    (helloVm enableVMConsole hello).Laid lo := by
  unfold helloVm
  split
  · exact (newVM_laid hello.containerID hello.ctlSerial hello.ioSerial).congr rfl rfl
      fun _ _ h => h
  · exact newVM_laid _ _ _

theorem Vm.Laid.connectStep (h : vm.Laid lo) (env : ConnectEnv) (st : ConnectStage) :
    (vm.connectStep env st).1.Laid lo := by
  obtain ⟨-, hn, hs, ht⟩ := vm.connectStep_frame env st
  exact h.congr hn hs fun k r hk => by rwa [ht] at hk

theorem Vm.Laid.close (h : vm.Laid lo) (closeCtl closeIo : Bool) :
    (vm.close closeCtl closeIo).Laid lo :=
  h.congr rfl rfl nofun

/-- An allocation extends the layout by one range. -/
theorem Vm.Laid.allocateIo (hlo : 0 ≤ lo) (h : vm.Laid lo) {n : Int} (hn : lo ≤ n)
    (clientID : UInt64) (c : Conn) : (vm.allocateIo n clientID c).1.Laid lo := by
  have hsizes : (vm.allocateIo n clientID c).1.sizes = vm.sizes ++ [n.toNat] := by
    simp [Vm.sizes, Vm.allocateIo]
  have hlen : vm.sizes.length = vm.sessions.length := by simp [Vm.sizes]
  constructor
  · intro s hs
    rcases List.mem_append.1 hs with hs | hs
    · exact h.streams s hs
    · rw [List.mem_singleton.1 hs]
      exact hn
  · intro i s hs
    rw [hsizes]
    rcases Nat.lt_or_ge i vm.sessions.length with hi | hi
    · rw [rangeStart_append _ (by omega)]
      exact h.base i s (by rwa [Vm.allocateIo, List.getElem?_append_left hi] at hs)
    · -- the new session starts at the counter
      have hs' : [(⟨n, vm.nextIoBase, clientID, c⟩ : IoSession)][i - vm.sessions.length]?
          = some s := by rwa [Vm.allocateIo, List.getElem?_append_right hi] at hs
      rw [List.getElem?_singleton] at hs'
      split_ifs at hs' with hzero
      cases hs'
      obtain rfl : i = vm.sizes.length := by omega
      rw [rangeStart_append _ le_rfl, rangeStart_length]
      exact h.next
  · rw [Vm.handedOut, hsizes, List.sum_append, List.sum_singleton, ← Nat.add_assoc,
      UInt64.ofNat_add, ← ofInt_eq_ofNat_toNat (hlo.trans hn)]
    exact congrArg (· + UInt64.ofInt n) h.next
  · intro k r hk
    rcases enterSession_eq_some hk with ⟨rfl, hnew⟩ | hold
    · exact ⟨⟨n, vm.nextIoBase, clientID, c⟩, by simp [Vm.allocateIo],
        IoSession.mem_numbers.2 hnew⟩
    · obtain ⟨s, hs, hks⟩ := h.table k r hold
      have hr := (List.getElem?_eq_some_iff.1 hs).1
      exact ⟨s, by rwa [Vm.allocateIo, List.getElem?_append_left hr], hks⟩

/-- A number of a session, as its place in the layout. -/
theorem Vm.Laid.number (h : vm.Laid lo) {i : Nat} {s : IoSession} (hs : vm.sessions[i]? = some s)
    {k : UInt64} (hk : k ∈ s.numbers) :
    ∃ j < s.nStreams.toNat, k = UInt64.ofNat (rangeStart 1 vm.sizes i + j) := by
  obtain ⟨j, hj, rfl⟩ := IoSession.mem_numbers.1 hk
  exact ⟨j, hj, by rw [h.base i s hs, UInt64.ofNat_add]⟩

/-- Places of the layout that are the same 64-bit number are the same: the layout starts at 1 and
has at most `2 ^ 64` places. -/
theorem Vm.place_inj (hb : vm.handedOut ≤ 2 ^ 64) {i i' j j' : Nat} {s s' : IoSession}
    (hs : vm.sessions[i]? = some s) (hs' : vm.sessions[i']? = some s')
    (hj : j < s.nStreams.toNat) (hj' : j' < s'.nStreams.toNat)
    (h : UInt64.ofNat (rangeStart 1 vm.sizes i + j)
      = UInt64.ofNat (rangeStart 1 vm.sizes i' + j')) : i = i' ∧ j = j' := by
  have hmod := congrArg UInt64.toNat h
  rw [UInt64.toNat_ofNat', UInt64.toNat_ofNat'] at hmod
  have hle := rangeStart_add_le_sum (b := 1) (Vm.sizes_eq_some hs)
  have hle' := rangeStart_add_le_sum (b := 1) (Vm.sizes_eq_some hs')
  have hge := @le_rangeStart 1 vm.sizes i
  have hge' := @le_rangeStart 1 vm.sizes i'
  rw [Vm.handedOut] at hb
  have hplace : rangeStart 1 vm.sizes i + j = rangeStart 1 vm.sizes i' + j' := by omega
  exact rangeStart_inj (Vm.sizes_eq_some hs) (Vm.sizes_eq_some hs') hj hj' hplace

/-- A number belongs to one session only. -/
theorem Vm.Laid.owner_unique (h : vm.Laid lo) (hb : vm.handedOut ≤ 2 ^ 64) {i i' : Nat}
    {s s' : IoSession} (hs : vm.sessions[i]? = some s) (hs' : vm.sessions[i']? = some s')
    {k : UInt64} (hk : k ∈ s.numbers) (hk' : k ∈ s'.numbers) : i = i' := by
  obtain ⟨j, hj, hkj⟩ := h.number hs hk
  obtain ⟨j', hj', hkj'⟩ := h.number hs' hk'
  exact (Vm.place_inj hb hs hs' hj hj' (hkj.symm.trans hkj')).1

/-- The numbers of one session are distinct. -/
theorem Vm.Laid.numbers_nodup (h : vm.Laid lo) (hb : vm.handedOut ≤ 2 ^ 64) {i : Nat}
    {s : IoSession} (hs : vm.sessions[i]? = some s) : s.numbers.Nodup := by
  refine List.Nodup.map_on (fun j hj j' hj' hjj => ?_) List.nodup_range
  rw [h.base i s hs, ← UInt64.ofNat_add, ← UInt64.ofNat_add] at hjj
  exact (Vm.place_inj hb hs hs (List.mem_range.1 hj) (List.mem_range.1 hj') hjj).2

end

/-! ## Runs of the proxy -/

/-- The number of streams of an allocation that goes through in this step. -/
def allocating (s : Sys) : Label → Option Int
  | .run c env =>
    match s.pc c, env.socketpair, env.file with
    | some (.allocate _ a), .ok _, .ok _ => some a.nStreams
    | _, _, _ => none
  | _ => none

/-- An allocation that goes through is for at least `lo` streams. -/
def AllocatesAtLeast (lo : Int) (s : Sys) (l : Label) : Prop := ∀ n ∈ allocating s l, lo ≤ n

instance (lo : Int) (s : Sys) (l : Label) : Decidable (AllocatesAtLeast lo s l) :=
  inferInstanceAs (Decidable (∀ n ∈ allocating s l, lo ≤ n))

/-- Every step keeps the numbers in order. -/
theorem step_laid {lo : Int} (hlo : 0 ≤ lo) (s : Sys) (l : Label) (t : Sys)
    (hs : ∀ v, (s.proxy.heap v).Laid lo) (hl : AllocatesAtLeast lo s l) (h : step s l = some t)
    (v : VmRef) : (t.proxy.heap v).Laid lo := by
  obtain heq | ⟨hello, -, heq⟩ | ⟨c, env, hello, st, sts, -, -, heq⟩ |
    ⟨c, env, a, p, f, hrun, hpc, hp, hf, heq⟩ | ⟨closeCtl, closeIo, heq⟩ := step_heap h v
  · rw [heq]
    exact hs v
  · rw [heq]
    exact helloVm_laid _ _
  · rw [heq]
    exact (hs v).connectStep _ _
  · rw [heq]
    subst hrun
    have hn : lo ≤ a.nStreams := hl a.nStreams (by simp [allocating, hpc, hp, hf])
    exact (hs v).allocateIo hlo hn _ _
  · rw [heq]
    exact (hs v).close _ _

/-- **Every VM keeps its layout** along every run in which no allocation asks for fewer than `lo`
streams. -/
theorem exec_laid {lo : Int} (hlo : 0 ≤ lo) {enableVMConsole : Bool} {ids : ClientRef → UInt64}
    {ls : List Label} {t : Sys}
    (hm : Meets step (AllocatesAtLeast lo) (.init enableVMConsole ids) ls)
    (h : exec step (.init enableVMConsole ids) ls = some t) (v : VmRef) :
    (t.proxy.heap v).Laid lo :=
  exec_invariant (step_laid hlo) (fun _ => newVM_laid _ _ _) hm h v

/-- The range `[ioBase, ioBase + nStreams)` of a session, as integers. -/
def IoSession.InRange (s : IoSession) (x : Int) : Prop :=
  s.ioBase.toNat ≤ x ∧ x < s.ioBase.toNat + s.nStreams

/-- What the sequence numbers of a VM should satisfy. The sessions are never removed from
`Vm.sessions`, so their numbers are those that were ever put in the table. -/
structure Vm.SequenceInvariant (vm : Vm) : Prop where
  /-- the counter is above every number handed out -/
  above : ∀ s ∈ vm.sessions, ∀ k ∈ s.numbers, k < vm.nextIoBase
  /-- the ranges of different sessions are disjoint -/
  disjoint : ∀ (i j : SessionRef) (s s' : IoSession), vm.sessions[i]? = some s →
    vm.sessions[j]? = some s' → i ≠ j → ∀ x, ¬ (s.InRange x ∧ s'.InRange x)
  /-- no number is handed out twice -/
  once : (vm.sessions.flatMap IoSession.numbers).Nodup
  /-- the table maps a number to a session it was handed out for -/
  table : ∀ k r, vm.ioSessions k = some r → ∃ s, vm.sessions[r]? = some s ∧ k ∈ s.numbers

section
variable {vm : Vm}

/-- Below the wrap of the counter, a session's base is its place in the layout. -/
theorem Vm.Laid.base_toNat {lo : Int} (h : vm.Laid lo) (hb : vm.handedOut < 2 ^ 64 - 1) {i : Nat}
    {s : IoSession} (hs : vm.sessions[i]? = some s) :
    s.ioBase.toNat = rangeStart 1 vm.sizes i := by
  have hle := rangeStart_add_le_sum (b := 1) (Vm.sizes_eq_some hs)
  rw [Vm.handedOut] at hb
  rw [h.base i s hs, UInt64.toNat_ofNat', Nat.mod_eq_of_lt (by omega)]

/-- Numbers of sessions lie below the next one. -/
theorem Vm.Laid.above (h : vm.Laid 0) (hb : vm.handedOut < 2 ^ 64 - 1) :
    ∀ s ∈ vm.sessions, ∀ k ∈ s.numbers, k < vm.nextIoBase := by
  intro s hs k hk
  obtain ⟨i, hi⟩ := List.mem_iff_getElem?.1 hs
  obtain ⟨j, hj, rfl⟩ := h.number hi hk
  have hle := rangeStart_add_le_sum (b := 1) (Vm.sizes_eq_some hi)
  rw [h.next, UInt64.lt_iff_toNat_lt, UInt64.toNat_ofNat', UInt64.toNat_ofNat']
  rw [Vm.handedOut] at hb ⊢
  omega

/-- Two sessions have no number in common. -/
theorem Vm.Laid.disjoint (h : vm.Laid 0) (hb : vm.handedOut < 2 ^ 64 - 1) (i j : Nat)
    (s s' : IoSession) (hs : vm.sessions[i]? = some s) (hs' : vm.sessions[j]? = some s')
    (hij : i ≠ j) (x : Int) : ¬ (s.InRange x ∧ s'.InRange x) := by
  rw [IoSession.InRange, IoSession.InRange, h.base_toNat hb hs, h.base_toNat hb hs']
  rcases Nat.lt_or_gt_of_ne hij with hlt | hlt
  · have := rangeStart_add_le (b := 1) hlt (Vm.sizes_eq_some hs)
    omega
  · have := rangeStart_add_le (b := 1) hlt (Vm.sizes_eq_some hs')
    omega

/-- No number is handed out twice. -/
theorem Vm.Laid.once (h : vm.Laid 0) (hb : vm.handedOut ≤ 2 ^ 64) :
    (vm.sessions.flatMap IoSession.numbers).Nodup := by
  refine List.nodup_flatMap.2 ⟨fun s hs => ?_, List.pairwise_iff_getElem.2 ?_⟩
  · obtain ⟨i, hi⟩ := List.mem_iff_getElem?.1 hs
    exact h.numbers_nodup hb hi
  · intro i j hi hj hij k hk hk'
    exact absurd (h.owner_unique hb (List.getElem?_eq_getElem hi) (List.getElem?_eq_getElem hj)
      hk hk') (Nat.ne_of_lt hij)

end

/-- **The sequence number invariant.** In every state the proxy reaches by steps whose allocations
are all for a non-negative number of streams, and for every VM that has handed out fewer than
`2 ^ 64 - 1` numbers: the counter is above every number handed out, the ranges of the sessions are
disjoint, no number is handed out twice, and the table is sound. -/
theorem sequence_invariant (enableVMConsole : Bool) (ids : ClientRef → UInt64) (ls : List Label)
    (t : Sys) (hm : Meets step (AllocatesAtLeast 0) (.init enableVMConsole ids) ls)
    (h : exec step (.init enableVMConsole ids) ls = some t) (v : VmRef)
    (hb : (t.proxy.heap v).handedOut < 2 ^ 64 - 1) : (t.proxy.heap v).SequenceInvariant := by
  have hlaid : (t.proxy.heap v).Laid 0 := exec_laid le_rfl hm h v
  exact ⟨hlaid.above hb, hlaid.disjoint hb, hlaid.once (by omega), hlaid.table⟩

/-- A hello and two allocations of its client, for two streams and for one. -/
def allocatingRun : List Label :=
  uninterrupted 0 (helloRequest "pod") 6 willingEnv ++
    uninterrupted 0 (allocateRequest 2) 1 willingEnv ++
    uninterrupted 0 (allocateRequest 1) 1 willingEnv

theorem sequence_invariant_allocatingRun :
    ∃ t, exec step (.init false fun _ => 1) allocatingRun = some t ∧
      (t.proxy.heap 0).handedOut = 3 ∧ (t.proxy.heap 0).SequenceInvariant :=
  ⟨_, rfl, by decide, sequence_invariant false (fun _ => 1) allocatingRun _ (by decide) rfl 0
    (by decide)⟩

/-- Allocations for two streams, for minus one and for one: the second takes the counter back, and
the number 2 is handed out again. -/
def rewindingRun : List Label :=
  uninterrupted 0 (helloRequest "pod") 6 willingEnv ++
    uninterrupted 0 (allocateRequest 2) 1 willingEnv ++
    uninterrupted 0 (allocateRequest (-1)) 1 willingEnv ++
    uninterrupted 0 (allocateRequest 1) 1 willingEnv

theorem negative_streams_rewind :
    ¬ ∀ t, exec step (.init false fun _ => 1) rewindingRun = some t →
      (t.proxy.heap 0).handedOut < 2 ^ 64 → (t.proxy.heap 0).SequenceInvariant := by
  intro h
  exact absurd (h _ rfl (by decide)).once (by decide)

/-- A message that a session's goroutine forwards carries the session's own base. -/
theorem IoSession.session_of_mem_forward {session : IoSession}
    {write : Nat → List UInt8 → WriteResult} {m : TtyMessage} :
    ∀ {ms : List TtyMessage} {i : Nat}, m ∈ session.forward write i ms →
      m.session = session.ioBase
  | [], _, h => nomatch h
  | n :: ms, i, h => by
    rw [IoSession.forward] at h
    split_ifs at h with hn
    · cases h
    · cases hsend : sendIoMessageWithConn (write i) n with
      | some err =>
        rw [hsend] at h
        rw [List.mem_singleton.1 h]
        exact not_not.1 hn
      | none =>
        rw [hsend] at h
        rcases List.mem_cons.1 h with rfl | h
        · exact not_not.1 hn
        · exact session_of_mem_forward h

/-- **Stdin stays with its session.** In every state the proxy reaches by steps whose allocations
are all for at least one stream, and for every VM that has handed out at most `2 ^ 64` numbers:
whatever bytes a client writes to the descriptor of its session, each message that is forwarded
carries a number handed out for that session and for no other. -/
theorem stdin_not_injected (enableVMConsole : Bool) (ids : ClientRef → UInt64) (ls : List Label)
    (t : Sys) (hm : Meets step (AllocatesAtLeast 1) (.init enableVMConsole ids) ls)
    (h : exec step (.init enableVMConsole ids) ls = some t) (v : VmRef)
    (hb : (t.proxy.heap v).handedOut ≤ 2 ^ 64) (r : SessionRef) (session : IoSession)
    (hr : (t.proxy.heap v).sessions[r]? = some session)
    (write : Nat → List UInt8 → WriteResult) (chunks : List (List UInt8)) (m : TtyMessage)
    (hfwd : m ∈ session.ioClientToHyper write chunks) :
    m.session ∈ session.numbers ∧
      ∀ r' s', (t.proxy.heap v).sessions[r']? = some s' → r' ≠ r → m.session ∉ s'.numbers := by
  have hlaid : (t.proxy.heap v).Laid 1 := exec_laid (by decide) hm h v
  have hbase : m.session = session.ioBase := IoSession.session_of_mem_forward hfwd
  have hstreams : 1 ≤ session.nStreams := hlaid.streams session (List.mem_of_getElem? hr)
  have hown : m.session ∈ session.numbers := by
    refine IoSession.mem_numbers.2 ⟨0, by omega, ?_⟩
    rw [hbase]
    exact (UInt64.add_zero _).symm
  exact ⟨hown, fun r' s' hr' hne hmem => hne (hlaid.owner_unique hb hr' hr hmem hown)⟩

/-- The second session of a run. -/
theorem stdin_not_injected_allocatingRun :
    ∃ t session, exec step (.init false fun _ => 1) allocatingRun = some t ∧
      (t.proxy.heap 0).sessions[1]? = some session ∧
      ∀ write chunks m, m ∈ session.ioClientToHyper write chunks →
        m.session ∈ session.numbers ∧
          ∀ r' s', (t.proxy.heap 0).sessions[r']? = some s' → r' ≠ 1 → m.session ∉ s'.numbers :=
  ⟨_, _, rfl, rfl, fun write chunks m => stdin_not_injected false (fun _ => 1) allocatingRun _
    (by decide) rfl 0 (by decide) 1 _ rfl write chunks m⟩

/-- An allocation for no stream and then, by another client, for one: both sessions get the base
1. -/
def sharedBaseRun : List Label :=
  uninterrupted 0 (helloRequest "pod") 6 willingEnv ++
    uninterrupted 1 (containerRequest "attach" "pod") 2 willingEnv ++
    uninterrupted 0 (allocateRequest 0) 1 willingEnv ++
    uninterrupted 1 (allocateRequest 1) 1 willingEnv

/-- The first client owns no number, and its message to number 1, the second client's, is
forwarded. -/
theorem empty_session_injects :
    ∃ t session other, exec step (.init false fun _ => 1) sharedBaseRun = some t ∧
      (t.proxy.heap 0).sessions = [session, other] ∧
      (⟨1, [0x61]⟩ : TtyMessage) ∈ session.ioClientToHyper
        (fun _ frame => { n := frame.length, err := none }) [encodeTty ⟨1, [0x61]⟩] ∧
      (1 : UInt64) ∉ session.numbers ∧ (1 : UInt64) ∈ other.numbers :=
  ⟨_, _, _, rfl, rfl, by decide, by decide, by decide⟩

end Proxy

end CcOciRuntime
