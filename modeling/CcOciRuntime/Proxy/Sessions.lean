import CcOciRuntime.Proxy.Allocation

/-!
# Closing the sessions of a VM

`Close` walks over the session table in the order Go's iteration happens to take, deletes each entry
and closes the session whose base the entry is; `CloseIo` deletes a session's numbers and closes it.
Both find a session through the table only, so what they do depends on which session an entry
belongs to: for `Close` the last one that was entered under the number (`Vm.LastEntered`), for
`CloseIo` the only one whose place in the layout is less than `2 ^ 64` old (`Vm.Live`).

`Close` misses a session that the table does not have under its base: one for no stream, or one
whose base was handed out again. `CloseIo` deletes the numbers from the one it is given on, not from
the session's base on.

Reference: `Close` of `ioSession` (`proxy/vm.go:268`), `CloseIo` (`:273`), `Close` (`:288`).
-/

namespace CcOciRuntime

namespace Proxy

/-! ## The table -/

/-- A loop that stores one value under `n` consecutive numbers. -/
theorem apply_of_updates {base : UInt64} {v : Option SessionRef} {m : UInt64 → Option SessionRef}
    {f : Nat → UInt64 → Option SessionRef} (hzero : f 0 = m)
    (hsucc : ∀ i, f (i + 1) = Function.update (f i) (base + UInt64.ofNat i) v) (n : Nat)
    (k : UInt64) : f n k = if ∃ i < n, k = base + UInt64.ofNat i then v else m k := by
  induction n with
  | zero => simp [hzero]
  | succ n ih =>
    rw [hsucc, Function.update_apply, ih]
    simp only [Nat.lt_succ_iff_lt_or_eq, or_and_right, exists_or, exists_eq_left]
    by_cases hlast : k = base + UInt64.ofNat n
    · rw [if_pos hlast, if_pos (.inr hlast)]
    · simp only [hlast, if_false, or_false]

theorem enterSession_apply (ioBase : UInt64) (session : SessionRef)
    (m : UInt64 → Option SessionRef) (n : Nat) (k : UInt64) :
    enterSession ioBase session m n k
      = if ∃ i < n, k = ioBase + UInt64.ofNat i then some session else m k :=
  apply_of_updates rfl (fun _ => rfl) n k

/-- The table without the `n` numbers from `seq` on. Reference: the loop of `CloseIo`
(`proxy/vm.go:280-282`). -/
def deleteFrom (seq : UInt64) (m : UInt64 → Option SessionRef) : Nat → UInt64 → Option SessionRef
  | 0 => m
  | i + 1 => Function.update (deleteFrom seq m i) (seq + UInt64.ofNat i) none

theorem deleteFrom_apply (seq : UInt64) (m : UInt64 → Option SessionRef) (n : Nat) (k : UInt64) :
    deleteFrom seq m n k = if ∃ i < n, k = seq + UInt64.ofNat i then none else m k :=
  apply_of_updates rfl (fun _ => rfl) n k

theorem deleteFrom_eq_some {seq : UInt64} {m : UInt64 → Option SessionRef} {n : Nat} {k : UInt64}
    {r : SessionRef} : deleteFrom seq m n k = some r ↔
      (¬ ∃ i < n, k = seq + UInt64.ofNat i) ∧ m k = some r := by
  rw [deleteFrom_apply]
  split_ifs with hk <;> simp [hk]

/-! ## The loop of `Close` -/

/-- The loop of `Close`, over the numbers in the order the iteration takes them: the VM it leaves
and the sessions whose client it closes. An entry that is no longer there is not visited.
Reference: `proxy/vm.go:296-303`. -/
def Vm.closeLoop (vm : Vm) : List UInt64 → Vm × List SessionRef
  | [] => (vm, [])
  | seq :: seqs =>
    match vm.ioSessions seq with
    | none => vm.closeLoop seqs
    | some r =>
      let rest := { vm with ioSessions := Function.update vm.ioSessions seq none }.closeLoop seqs
      if (vm.sessions[r]?).map IoSession.ioBase = some seq then (rest.1, r :: rest.2) else rest

/-- An order in which the iteration can visit the table: every entry, once. -/
structure Vm.Visits (vm : Vm) (order : List UInt64) : Prop where
  nodup : order.Nodup
  mem : ∀ k, k ∈ order ↔ vm.ioSessions k ≠ none

/-- `Close`, for a given order of the iteration: the VM it leaves and the sessions whose client it
closes. Reference: `proxy/vm.go:288`. -/
def Vm.closeVisiting (vm : Vm) (closeCtl closeIo : Bool) (order : List UInt64) :
    Vm × List SessionRef :=
  { vm with hyperHandler := vm.hyperHandler.closeSockets closeCtl closeIo }.closeLoop order

/-- The session that the loop closes at a number. -/
def Vm.closedAt (vm : Vm) (seq : UInt64) : Option SessionRef :=
  (vm.ioSessions seq).filter fun r => (vm.sessions[r]?).map IoSession.ioBase = some seq

theorem Vm.closedAt_eq_some {vm : Vm} {seq : UInt64} {r : SessionRef} :
    vm.closedAt seq = some r ↔
      vm.ioSessions seq = some r ∧ (vm.sessions[r]?).map IoSession.ioBase = some seq := by
  simp [Vm.closedAt, Option.filter_eq_some_iff]

/-- What the loop does: the table loses the numbers it visits, and no deletion changes what a later
step finds. -/
theorem Vm.closeLoop_eq {seqs : List UInt64} (hnodup : seqs.Nodup) :
    ∀ vm : Vm, vm.closeLoop seqs
      = ({ vm with ioSessions := fun k => if k ∈ seqs then none else vm.ioSessions k },
          seqs.filterMap vm.closedAt) := by
  induction seqs with
  | nil => exact fun vm => by simp [Vm.closeLoop]
  | cons seq seqs ih =>
    intro vm
    obtain ⟨hseq, hnodup⟩ := List.nodup_cons.1 hnodup
    rw [Vm.closeLoop]
    cases hr : vm.ioSessions seq with
    | none =>
      have hclosed : vm.closedAt seq = none := by rw [Vm.closedAt, hr, Option.filter_none]
      have htable : (fun k => if k ∈ seq :: seqs then none else vm.ioSessions k)
          = fun k => if k ∈ seqs then none else vm.ioSessions k := by
        funext k
        by_cases hk : k = seq <;> simp [hk, hr]
      rw [List.filterMap_cons_none hclosed, htable]
      exact ih hnodup vm
    | some r =>
      have hlater : seqs.filterMap
          ({ vm with ioSessions := Function.update vm.ioSessions seq none } : Vm).closedAt
          = seqs.filterMap vm.closedAt := by
        refine List.filterMap_congr fun k hk => ?_
        have hne : k ≠ seq := fun h => hseq (h ▸ hk)
        simp only [Vm.closedAt, Function.update_of_ne hne]
      have htable : (fun k => if k ∈ seqs then none
            else Function.update vm.ioSessions seq none k)
          = fun k => if k ∈ seq :: seqs then none else vm.ioSessions k := by
        funext k
        by_cases hk : k = seq <;> simp [hk]
      dsimp only
      rw [ih hnodup, hlater, htable]
      split_ifs with hbase
      · rw [List.filterMap_cons_some (Vm.closedAt_eq_some.2 ⟨hr, hbase⟩)]
      · have hclosed : vm.closedAt seq = none := by
          simp [Vm.closedAt, hr, Option.filter, hbase]
        rw [List.filterMap_cons_none hclosed]

section
variable {vm : Vm} {order : List UInt64} (h : vm.Visits order) (closeCtl closeIo : Bool)
include h

/-- Whatever the order, `Close` empties the table. -/
theorem Vm.Visits.closeVisiting_fst :
    (vm.closeVisiting closeCtl closeIo order).1 = vm.close closeCtl closeIo := by
  have hempty : (fun k => if k ∈ order then none else vm.ioSessions k)
      = fun _ => (none : Option SessionRef) := by
    funext k
    by_cases hk : k ∈ order
    · rw [if_pos hk]
    · rw [if_neg hk]
      exact not_not.1 fun hne => hk ((h.mem k).2 hne)
  rw [Vm.closeVisiting, Vm.closeLoop_eq h.nodup, Vm.close]
  exact congrArg (fun t => { vm with
    hyperHandler := vm.hyperHandler.closeSockets closeCtl closeIo, ioSessions := t }) hempty

/-- Whatever the order, `Close` closes a session once if the table has it under its base, and not
at all otherwise. -/
theorem Vm.Visits.count_closed {r : SessionRef} {session : IoSession}
    (hr : vm.sessions[r]? = some session) :
    (vm.closeVisiting closeCtl closeIo order).2.count r
      = if vm.ioSessions session.ioBase = some r then 1 else 0 := by
  have hclosed : (vm.closeVisiting closeCtl closeIo order).2 = order.filterMap vm.closedAt := by
    rw [Vm.closeVisiting, Vm.closeLoop_eq h.nodup]
    rfl
  have hbase : ∀ {seq}, vm.closedAt seq = some r → seq = session.ioBase := by
    intro seq hseq
    have := (Vm.closedAt_eq_some.1 hseq).2
    rw [hr] at this
    exact (Option.some.inj this).symm
  have hinj : ∀ a b c, c ∈ vm.closedAt a → c ∈ vm.closedAt b → a = b := by
    intro a b c ha hb
    have ha := (Vm.closedAt_eq_some.1 ha).2
    have hb := (Vm.closedAt_eq_some.1 hb).2
    exact Option.some.inj (ha.symm.trans hb)
  rw [hclosed]
  split_ifs with htable
  · refine List.count_eq_one_of_mem (h.nodup.filterMap hinj) (List.mem_filterMap.2 ?_)
    refine ⟨session.ioBase, (h.mem _).2 (by rw [htable]; exact Option.some_ne_none r), ?_⟩
    exact Vm.closedAt_eq_some.2 ⟨htable, by rw [hr]; rfl⟩
  · refine List.count_eq_zero_of_not_mem fun hmem => ?_
    obtain ⟨seq, -, hseq⟩ := List.mem_filterMap.1 hmem
    obtain rfl := hbase hseq
    exact htable (Vm.closedAt_eq_some.1 hseq).1

end

/-! ## Closing a VM -/

/-- The table maps a number to the last session that was entered under it. -/
def Vm.LastEntered (vm : Vm) : Prop :=
  ∀ k r, vm.ioSessions k = some r ↔ ∃ s, vm.sessions[r]? = some s ∧ k ∈ s.numbers ∧
    ∀ r' s', r < r' → vm.sessions[r']? = some s' → k ∉ s'.numbers

/-- A VM without sessions. -/
def Vm.NoSessions (vm : Vm) : Prop := vm.sessions = [] ∧ ∀ k, vm.ioSessions k = none

theorem Vm.NoSessions.lastEntered {vm : Vm} (h : vm.NoSessions) : vm.LastEntered := by
  intro k r
  rw [h.1, h.2 k]
  simp

/-- The sessions after an allocation: the old ones in their places, and the new one. -/
theorem Vm.allocateIo_session {vm : Vm} {n : Int} {clientID : UInt64} {c : Conn} {r : SessionRef}
    {s : IoSession} : (vm.allocateIo n clientID c).1.sessions[r]? = some s ↔
      vm.sessions[r]? = some s ∨
        r = vm.sessions.length ∧ s = ⟨n, vm.nextIoBase, clientID, c⟩ := by
  simp only [Vm.allocateIo]
  rcases Nat.lt_trichotomy r vm.sessions.length with hr | rfl | hr
  · rw [List.getElem?_append_left hr]
    simp [Nat.ne_of_lt hr]
  · rw [List.getElem?_concat_length, List.getElem?_eq_none (Nat.le_refl _)]
    simp [eq_comm]
  · rw [List.getElem?_eq_none (by rw [List.length_append]; exact hr),
      List.getElem?_eq_none (Nat.le_of_lt hr)]
    simp [Nat.ne_of_gt hr]

/-- The last session entered under a number stays so, unless the new one has the number. -/
theorem Vm.LastEntered.allocateIo {vm : Vm} (h : vm.LastEntered) (n : Int) (clientID : UInt64)
    (c : Conn) : (vm.allocateIo n clientID c).1.LastEntered := by
  intro k r
  have hlt : ∀ {r s}, vm.sessions[r]? = some s → r < vm.sessions.length :=
    fun hs => (List.getElem?_eq_some_iff.1 hs).1
  have hnew := (@IoSession.mem_numbers ⟨n, vm.nextIoBase, clientID, c⟩ k)
  simp only [Vm.allocateIo_session]
  simp only [Vm.allocateIo, enterSession_apply, ← hnew]
  constructor
  · intro hk
    split_ifs at hk with hmem
    · obtain rfl := Option.some.inj hk
      refine ⟨_, .inr ⟨rfl, rfl⟩, hmem, fun r' s' hr hr' => ?_⟩
      rcases hr' with hr' | ⟨rfl, -⟩
      · exact absurd (hlt hr') (Nat.not_lt_of_gt hr)
      · exact absurd hr (Nat.lt_irrefl _)
    · obtain ⟨s, hs, hks, hlast⟩ := (h k r).1 hk
      refine ⟨s, .inl hs, hks, fun r' s' hr hr' => ?_⟩
      rcases hr' with hr' | ⟨-, rfl⟩
      · exact hlast r' s' hr hr'
      · exact hmem
  · rintro ⟨s, hs | ⟨rfl, rfl⟩, hks, hlast⟩
    · rw [if_neg (hlast _ _ (hlt hs) (.inr ⟨rfl, rfl⟩))]
      exact (h k r).2 ⟨s, hs, hks, fun r' s' hr hr' => hlast r' s' hr (.inl hr')⟩
    · rw [if_pos hks]

/-- Whether the goroutine that forwards a session's stdin ends by closing the client's connection:
it does at a message for another number than the session's base. Reference: `ioClientToHyper`
(`proxy/vm.go:223-227`). -/
def IoSession.refuses (session : IoSession) (write : Nat → List UInt8 → WriteResult) :
    Nat → List TtyMessage → Bool
  | _, [] => false
  | i, m :: ms =>
    if m.session ≠ session.ioBase then true
    else
      match sendIoMessageWithConn (write i) m with
      | some _ => false
      | none => session.refuses write (i + 1) ms

/-- What the clients of a VM's sessions write to their descriptors until they are closed, and what
the agent's connection answers to what is forwarded. -/
structure Stdin where
  chunks : SessionRef → List (List UInt8)
  write : SessionRef → Nat → List UInt8 → WriteResult

/-- The session's goroutine closes the client's connection. -/
def Stdin.refused (stdin : Stdin) (r : SessionRef) (session : IoSession) : Bool :=
  session.refuses (stdin.write r) 0 (ioMessages (stdin.chunks r))

/-- How often the client's connection of a session is closed, by its goroutine and by `Close`. -/
def Stdin.clientCloses (stdin : Stdin) (closed : List SessionRef) (r : SessionRef)
    (session : IoSession) : Nat :=
  (stdin.refused r session).toNat + closed.count r

/-- The requests of a history, in the order in which they allocate. -/
def allocateIoRequests (s : ProxyState) :
    List (ClientRef × Env × Option Json) → ProxyState
  | [] => s
  | (c, env, data) :: rs => allocateIoRequests (allocateIoHandler s c env data).1 rs

/-- What `allocateIO` does to a VM. -/
theorem allocateIoHandler_heap (s : ProxyState) (c : ClientRef) (env : Env) (data : Option Json)
    (v : VmRef) : (allocateIoHandler s c env data).1.heap v = s.heap v ∨
      ∃ n clientID conn, (allocateIoHandler s c env data).1.heap v
        = ((s.heap v).allocateIo n clientID conn).1 := by
  rw [allocateIoHandler]
  cases unmarshalAllocateIo data with
  | error err => exact .inl rfl
  | ok a =>
    dsimp only
    cases (s.clients c).vm with
    | none => exact .inl rfl
    | some w =>
      unfold allocateOn
      cases env.socketpair with
      | error err => exact .inl rfl
      | ok p =>
        cases env.file with
        | error err => exact .inl rfl
        | ok f0 =>
          by_cases hv : v = w
          · subst hv
            exact .inr ⟨a.nStreams, (s.clients c).id, p.2, Function.update_self ..⟩
          · exact .inl (Function.update_of_ne hv _ _)

/-- Requests enter sessions in order. -/
theorem lastEntered_allocateIoRequests (v : VmRef) :
    ∀ {rs : List (ClientRef × Env × Option Json)} {s : ProxyState}, (s.heap v).LastEntered →
      ((allocateIoRequests s rs).heap v).LastEntered
  | [], _, h => h
  | (c, env, data) :: rs, s, h => by
    have hstep : ((allocateIoHandler s c env data).1.heap v).LastEntered := by
      rcases allocateIoHandler_heap s c env data v with heq | ⟨n, clientID, conn, heq⟩
      · rwa [heq]
      · rw [heq]
        exact h.allocateIo n clientID conn
    rw [allocateIoRequests]
    exact lastEntered_allocateIoRequests v hstep

/-- The table has the session under its base: it is for at least one stream, and no later session
was handed its base. -/
def Vm.UnderBase (vm : Vm) (r : SessionRef) (session : IoSession) : Prop :=
  1 ≤ session.nStreams ∧
    ∀ r' s', r < r' → vm.sessions[r']? = some s' → session.ioBase ∉ s'.numbers

theorem IoSession.ioBase_mem_numbers {s : IoSession} : s.ioBase ∈ s.numbers ↔ 1 ≤ s.nStreams := by
  rw [IoSession.mem_numbers]
  constructor
  · rintro ⟨i, hi, -⟩
    omega
  · intro hs
    exact ⟨0, by omega, (UInt64.add_zero _).symm⟩

/-- When the table has a session under its base. -/
theorem Vm.LastEntered.underBase_iff {vm : Vm} (h : vm.LastEntered) {r : SessionRef}
    {session : IoSession} (hr : vm.sessions[r]? = some session) :
    vm.UnderBase r session ↔ vm.ioSessions session.ioBase = some r := by
  rw [h, Vm.UnderBase, ← IoSession.ioBase_mem_numbers]
  constructor
  · exact fun hb => ⟨session, hr, hb⟩
  · rintro ⟨s, hs, hb⟩
    rw [hr] at hs
    obtain rfl := Option.some.inj hs
    exact hb

/-- A connection is closed once if either `Close` or the session's goroutine closes it. -/
theorem Vm.LastEntered.clientCloses_eq_one_iff {vm : Vm} (h : vm.LastEntered)
    {order : List UInt64} (horder : vm.Visits order) (closeCtl closeIo : Bool) {r : SessionRef}
    {session : IoSession} (hr : vm.sessions[r]? = some session) (stdin : Stdin) :
    stdin.clientCloses (vm.closeVisiting closeCtl closeIo order).2 r session = 1 ↔
      (vm.UnderBase r session ↔ stdin.refused r session = false) := by
  rw [Stdin.clientCloses, horder.count_closed closeCtl closeIo hr, h.underBase_iff hr]
  by_cases hbase : vm.ioSessions session.ioBase = some r <;>
    cases stdin.refused r session <;> simp [hbase]

/-- **What closing a VM closes.** For every history of allocateIO requests on a VM, every order in
which the iteration visits the table, and whatever the clients write to their descriptors: when
`Close` has returned, the table is empty and the client's connection of every session of the
history has been closed exactly once, if and only if each session is in the table under its base
unless its goroutine has closed the connection. -/
theorem close_closes_once_iff (s : ProxyState) (v : VmRef) (hnew : (s.heap v).NoSessions)
    (requests : List (ClientRef × Env × Option Json)) (stdin : Stdin) (order : List UInt64)
    (horder : ((allocateIoRequests s requests).heap v).Visits order) (closeCtl closeIo : Bool) :
    let vm := (allocateIoRequests s requests).heap v
    let closed := vm.closeVisiting closeCtl closeIo order
    ((∀ k, closed.1.ioSessions k = none) ∧
      ∀ r session, vm.sessions[r]? = some session →
        stdin.clientCloses closed.2 r session = 1) ↔
      ∀ r session, vm.sessions[r]? = some session →
        (vm.UnderBase r session ↔ stdin.refused r session = false) := by
  intro vm closed
  have hlast : vm.LastEntered := lastEntered_allocateIoRequests v hnew.lastEntered
  have hempty : ∀ k, closed.1.ioSessions k = none := fun k => by
    rw [horder.closeVisiting_fst]
    rfl
  rw [and_iff_right hempty]
  exact forall₂_congr fun r session => forall_congr' fun hr =>
    hlast.clientCloses_eq_one_iff horder closeCtl closeIo hr stdin

/-- The proxy after a hello, with client 0 attached to the VM 0. -/
def helloed : ProxyState :=
  (helloHandler (newProxy false fun _ => 1) 0 willingEnv (helloRequest "pod").data).1

/-- An allocateIO of client 0 in an environment that lets it succeed. -/
def willingAllocation (n : Int) : ClientRef × Env × Option Json :=
  (0, willingEnv, (allocateRequest n).data)

/-- Clients that write nothing. -/
def silent : Stdin where
  chunks := fun _ => []
  write := fun _ _ frame => { n := frame.length, err := none }

theorem helloed_noSessions : (helloed.heap 0).NoSessions := ⟨rfl, fun _ => rfl⟩

/-- A traversal of two sessions. -/
theorem visits_two :
    ((allocateIoRequests helloed [willingAllocation 2, willingAllocation 1]).heap 0).Visits
      [3, 1, 2] where
  nodup := by decide
  mem k := by
    have htable : ((allocateIoRequests helloed
        [willingAllocation 2, willingAllocation 1]).heap 0).ioSessions k
        = enterSession 3 1 (enterSession 1 0 (fun _ => none) 2) 1 k := rfl
    have hthree : (3 : UInt64) + UInt64.ofNat 0 = 3 := by decide
    have hone : (1 : UInt64) + UInt64.ofNat 0 = 1 := by decide
    have htwo : (1 : UInt64) + UInt64.ofNat 1 = 2 := by decide
    rw [htable]
    simp only [enterSession, Function.update_apply, hone, htwo, hthree, List.mem_cons,
      List.not_mem_nil, or_false]
    split_ifs <;> simp [*]

/-- Two sessions, closed once each. -/
theorem close_closes_once_two :
    ∃ s requests order, (s.heap 0).NoSessions ∧
      ((allocateIoRequests s requests).heap 0).Visits order ∧
      ((allocateIoRequests s requests).heap 0).sessions.length = 2 ∧
      ∀ r session, ((allocateIoRequests s requests).heap 0).sessions[r]? = some session →
        silent.clientCloses
          (((allocateIoRequests s requests).heap 0).closeVisiting true true order).2 r session
          = 1 := by
  refine ⟨helloed, [willingAllocation 2, willingAllocation 1], [3, 1, 2], helloed_noSessions,
    visits_two, rfl, ?_⟩
  refine ((close_closes_once_iff helloed 0 helloed_noSessions
    [willingAllocation 2, willingAllocation 1] silent [3, 1, 2] visits_two true true).2 ?_).2
  intro r session hr
  rw [(lastEntered_allocateIoRequests 0 helloed_noSessions.lastEntered).underBase_iff hr]
  have hsessions : ((allocateIoRequests helloed
      [willingAllocation 2, willingAllocation 1]).heap 0).sessions
      = [⟨2, 1, 1, 7⟩, ⟨1, 3, 1, 7⟩] := rfl
  rw [hsessions] at hr
  match r with
  | 0 =>
    cases hr
    decide
  | 1 =>
    cases hr
    decide

/-- A session for no stream is never closed: the table has nothing to visit. -/
theorem close_misses_empty_session :
    ¬ ∀ order, ((allocateIoRequests helloed [willingAllocation 0]).heap 0).Visits order →
      ∀ r session,
        ((allocateIoRequests helloed [willingAllocation 0]).heap 0).sessions[r]? = some session →
        silent.clientCloses
          (((allocateIoRequests helloed [willingAllocation 0]).heap 0).closeVisiting true true
            order).2 r session = 1 := by
  intro h
  have hvisits : ((allocateIoRequests helloed [willingAllocation 0]).heap 0).Visits [] :=
    ⟨List.nodup_nil, fun k => by
      rw [show ((allocateIoRequests helloed [willingAllocation 0]).heap 0).ioSessions k = none
        from rfl]
      simp⟩
  exact absurd (h [] hvisits 0 ⟨0, 1, 1, 7⟩ rfl) (by decide)

/-! ## Closing one session -/

/-- The VM after a session's numbers have been deleted from the given one on, and the session whose
client is closed. Reference: `CloseIo` (`proxy/vm.go:273`). -/
def Vm.closeIo (vm : Vm) (seq : UInt64) : Vm × Option SessionRef :=
  match vm.ioSessions seq with
  | none => (vm, none)
  | some r =>
    match vm.sessions[r]? with
    | none => (vm, none)
    | some session =>
      ({ vm with ioSessions := deleteFrom seq vm.ioSessions session.nStreams.toNat }, some r)

/-- The calls that change the session table of a running VM. -/
inductive IoCall
  | allocateIo (n : Int) (clientID : UInt64) (c : Conn)
  | closeIo (seq : UInt64)

/-- The VM after some calls. -/
def Vm.ioCalls (vm : Vm) : List IoCall → Vm
  | [] => vm
  | .allocateIo n clientID c :: calls => (vm.allocateIo n clientID c).1.ioCalls calls
  | .closeIo seq :: calls => (vm.closeIo seq).1.ioCalls calls

/-- An allocation is for one or two streams. -/
def IoCall.OneOrTwo : IoCall → Prop
  | .allocateIo n _ _ => n = 1 ∨ n = 2
  | .closeIo _ => True

instance : ∀ call : IoCall, Decidable call.OneOrTwo
  | .allocateIo n _ _ => inferInstanceAs (Decidable (n = 1 ∨ n = 2))
  | .closeIo _ => inferInstanceAs (Decidable True)

/-- A layout of sessions for one or two streams, in which the table only has numbers that were not
handed out again since: their places are at most `2 ^ 64` before the counter. -/
structure Vm.Live (vm : Vm) : Prop extends Vm.Laid 1 vm where
  few : ∀ s ∈ vm.sessions, s.nStreams ≤ 2
  recent : ∀ k r, vm.ioSessions k = some r → ∃ s, vm.sessions[r]? = some s ∧
    ∃ j < s.nStreams.toNat, k = UInt64.ofNat (rangeStart 1 vm.sizes r + j) ∧
      1 + vm.handedOut ≤ rangeStart 1 vm.sizes r + j + 2 ^ 64

section
variable {vm : Vm}

/-- Closing a session only takes entries away. -/
theorem Vm.closeIo_frame (seq : UInt64) : (vm.closeIo seq).1.nextIoBase = vm.nextIoBase ∧
    (vm.closeIo seq).1.sessions = vm.sessions ∧
    ∀ k r, (vm.closeIo seq).1.ioSessions k = some r → vm.ioSessions k = some r := by
  rw [Vm.closeIo]
  split
  · exact ⟨rfl, rfl, fun _ _ h => h⟩
  · split
    · exact ⟨rfl, rfl, fun _ _ h => h⟩
    · exact ⟨rfl, rfl, fun _ _ h => (deleteFrom_eq_some.1 h).2⟩

theorem newVM_live (id ctlSerial ioSerial : String) : (newVM id ctlSerial ioSerial).Live where
  toLaid := newVM_laid id ctlSerial ioSerial
  few := nofun
  recent := nofun

/-- Closing keeps the layout. -/
theorem Vm.Live.closeIo (h : vm.Live) (seq : UInt64) : (vm.closeIo seq).1.Live := by
  obtain ⟨hnext, hsessions, htable⟩ := vm.closeIo_frame seq
  refine ⟨h.toLaid.congr hnext hsessions htable, by rw [hsessions]; exact h.few, ?_⟩
  intro k r hk
  simp only [Vm.handedOut, Vm.sizes, hsessions]
  exact h.recent k r (htable k r hk)

/-- An entry that the new session does not take over stays recent: a place that is `2 ^ 64` before
one of the new session's would be the same number. -/
theorem Vm.Live.allocateIo (h : vm.Live) {n : Int} (hn : n = 1 ∨ n = 2) (clientID : UInt64)
    (c : Conn) : (vm.allocateIo n clientID c).1.Live := by
  have hsizes : (vm.allocateIo n clientID c).1.sizes = vm.sizes ++ [n.toNat] := by
    simp [Vm.sizes, Vm.allocateIo]
  have hlen : vm.sizes.length = vm.sessions.length := by simp [Vm.sizes]
  refine ⟨h.toLaid.allocateIo (by decide) (by omega) clientID c, ?_, ?_⟩
  · intro s hs
    obtain ⟨r, hr⟩ := List.mem_iff_getElem?.1 hs
    rcases Vm.allocateIo_session.1 hr with hr | ⟨-, rfl⟩
    · exact h.few s (List.mem_of_getElem? hr)
    · exact (by omega : n ≤ 2)
  · intro k r hk
    rw [Vm.handedOut, hsizes, List.sum_append, List.sum_singleton]
    simp only [Vm.allocateIo, enterSession_apply] at hk
    split_ifs at hk with hnew
    · obtain ⟨i, hi, hki⟩ := hnew
      obtain rfl := Option.some.inj hk
      rw [← hlen, rangeStart_append _ le_rfl, rangeStart_length]
      refine ⟨_, Vm.allocateIo_session.2 (.inr ⟨hlen, rfl⟩), i, hi, ?_, by omega⟩
      rw [hki, h.next, Vm.handedOut, ← UInt64.ofNat_add]
    · obtain ⟨s, hs, j, hj, hkj, hrecent⟩ := h.recent k r hk
      have hlt := (List.getElem?_eq_some_iff.1 hs).1
      rw [rangeStart_append _ (by omega)]
      refine ⟨s, Vm.allocateIo_session.2 (.inl hs), j, hj, hkj, ?_⟩
      by_contra hover
      -- the place `2 ^ 64` further on is one of the new session's
      refine hnew ⟨rangeStart 1 vm.sizes r + j + 2 ^ 64 - (1 + vm.handedOut), ?_, ?_⟩
      · rw [Vm.handedOut] at hrecent ⊢
        omega
      · rw [h.next, ← UInt64.ofNat_add, Nat.add_sub_of_le hrecent, hkj]
        exact UInt64.toNat_inj.1 (by simp)

/-- So do calls, one after the other. -/
theorem Vm.Live.ioCalls : ∀ {calls : List IoCall} {vm : Vm}, vm.Live →
    (∀ call ∈ calls, call.OneOrTwo) → (vm.ioCalls calls).Live
  | [], _, h, _ => h
  | .allocateIo n clientID c :: calls, vm, h, hcalls => by
    have hn : n = 1 ∨ n = 2 := hcalls _ List.mem_cons_self
    exact (h.allocateIo hn clientID c).ioCalls fun call hc => hcalls call (.tail _ hc)
  | .closeIo seq :: calls, vm, h, hcalls =>
    (h.closeIo seq).ioCalls fun call hc => hcalls call (.tail _ hc)

/-- A recent place of the layout and an entry for the same number are of the same session. -/
theorem Vm.Live.owner (h : vm.Live) {r r' : SessionRef} {session : IoSession}
    (hr : vm.sessions[r]? = some session) {j : Nat} (hj : j < session.nStreams.toNat)
    (hrecent : 1 + vm.handedOut ≤ rangeStart 1 vm.sizes r + j + 2 ^ 64)
    (htable : vm.ioSessions (UInt64.ofNat (rangeStart 1 vm.sizes r + j)) = some r') : r' = r := by
  obtain ⟨s', hs', j', hj', heq, hrecent'⟩ := h.recent _ _ htable
  have hmod := congrArg UInt64.toNat heq
  rw [UInt64.toNat_ofNat', UInt64.toNat_ofNat'] at hmod
  have hle := rangeStart_add_le_sum (b := 1) (Vm.sizes_eq_some hr)
  have hle' := rangeStart_add_le_sum (b := 1) (Vm.sizes_eq_some hs')
  rw [Vm.handedOut] at hrecent hrecent'
  have hplace : rangeStart 1 vm.sizes r' + j' = rangeStart 1 vm.sizes r + j := by omega
  exact (rangeStart_inj (Vm.sizes_eq_some hs') (Vm.sizes_eq_some hr) hj' hj hplace).1

/-- `after` has no number of the session any more, and every number of another session as it
was. -/
def Vm.OnlyRemoved (vm after : Vm) (r : SessionRef) : Prop :=
  (∀ k, after.ioSessions k ≠ some r) ∧
    ∀ k r', r' ≠ r → vm.ioSessions k = some r' → after.ioSessions k = some r'

/-- What is left after closing. -/
theorem Vm.closeIo_eq_some {seq k : UInt64} {r r' : SessionRef} {session : IoSession}
    (hseq : vm.ioSessions seq = some r) (hr : vm.sessions[r]? = some session) :
    (vm.closeIo seq).1.ioSessions k = some r' ↔
      (¬ ∃ i < session.nStreams.toNat, k = seq + UInt64.ofNat i) ∧ vm.ioSessions k = some r' := by
  rw [Vm.closeIo, hseq]
  dsimp only
  rw [hr]
  exact deleteFrom_eq_some

/-- The two numbers from a base on. -/
theorem exists_lt_two_iff {base k : UInt64} :
    (∃ i < 2, k = base + UInt64.ofNat i) ↔ k = base ∨ k = base + 1 := by
  constructor
  · rintro ⟨i, hi, rfl⟩
    obtain rfl | rfl : i = 0 ∨ i = 1 := by omega
    · exact .inl (UInt64.add_zero _)
    · exact .inr rfl
  · rintro (rfl | rfl)
    · exact ⟨0, by omega, (UInt64.add_zero _).symm⟩
    · exact ⟨1, by omega, rfl⟩

/-- From its base on, the numbers deleted are the session's own. -/
theorem Vm.Live.onlyRemoved_base (h : vm.Live) {r : SessionRef} {session : IoSession}
    (hseq : vm.ioSessions session.ioBase = some r) (hr : vm.sessions[r]? = some session) :
    vm.OnlyRemoved (vm.closeIo session.ioBase).1 r := by
  have hbase := h.base r session hr
  constructor
  · intro k hk
    obtain ⟨hdeleted, hk⟩ := (Vm.closeIo_eq_some hseq hr).1 hk
    obtain ⟨s, hs, hmem⟩ := h.table k r hk
    rw [hr] at hs
    obtain rfl := Option.some.inj hs
    exact hdeleted (IoSession.mem_numbers.1 hmem)
  · intro k r' hne hk
    refine (Vm.closeIo_eq_some hseq hr).2 ⟨?_, hk⟩
    rintro ⟨i, hi, rfl⟩
    obtain ⟨s, hs, j, hj, heq, hrecent⟩ := h.recent _ _ hseq
    rw [hr] at hs
    obtain rfl := Option.some.inj hs
    have hfew := h.few session (List.mem_of_getElem? hr)
    have hzero : j = 0 := by
      have hmod := congrArg UInt64.toNat (hbase.symm.trans heq)
      rw [UInt64.toNat_ofNat', UInt64.toNat_ofNat'] at hmod
      omega
    rw [hbase, ← UInt64.ofNat_add] at hk
    exact hne (h.owner hr hi (by omega) hk)

/-- From its second number on, the first is kept and the number after the session is deleted. -/
theorem Vm.Live.onlyRemoved_second_iff (h : vm.Live) {seq : UInt64} {r : SessionRef}
    {session : IoSession} (hseq : vm.ioSessions seq = some r)
    (hr : vm.sessions[r]? = some session) (hne : seq ≠ session.ioBase) :
    vm.OnlyRemoved (vm.closeIo seq).1 r ↔
      vm.ioSessions session.ioBase ≠ some r ∧ vm.ioSessions (seq + 1) = none := by
  have hmem : ∀ {k}, vm.ioSessions k = some r → k ∈ session.numbers := by
    intro k hk
    obtain ⟨s, hs, hks⟩ := h.table k r hk
    rw [hr] at hs
    rwa [Option.some.inj hs]
  have hfew := h.few session (List.mem_of_getElem? hr)
  have htwo : session.nStreams.toNat = 2 ∧ seq = session.ioBase + 1 := by
    obtain ⟨i, hi, hsi⟩ := IoSession.mem_numbers.1 (hmem hseq)
    have hi0 : i ≠ 0 := fun h0 => hne (by rw [hsi, h0]; exact UInt64.add_zero _)
    obtain rfl : i = 1 := by omega
    exact ⟨by omega, hsi⟩
  obtain ⟨hn, rfl⟩ := htwo
  have hdeleted : ∀ k, (∃ i < session.nStreams.toNat,
      k = session.ioBase + 1 + UInt64.ofNat i) ↔
        k = session.ioBase + 1 ∨ k = session.ioBase + 1 + 1 := by
    intro k
    rw [hn, exists_lt_two_iff]
  have howned : ∀ {k}, k ∈ session.numbers → k = session.ioBase ∨ k = session.ioBase + 1 := by
    intro k hk
    have hnumber := IoSession.mem_numbers.1 hk
    rwa [hn, exists_lt_two_iff] at hnumber
  simp only [Vm.OnlyRemoved, ne_eq, Vm.closeIo_eq_some hseq hr, hdeleted]
  constructor
  · rintro ⟨hgone, hkept⟩
    refine ⟨fun hbase => hgone session.ioBase ⟨by grind, hbase⟩, ?_⟩
    cases hnext : vm.ioSessions (session.ioBase + 1 + 1) with
    | none => rfl
    | some r' =>
      have hother : r' ≠ r := by
        rintro rfl
        rcases howned (hmem hnext) with heq | heq <;> grind
      exact absurd (.inr rfl) (hkept _ r' hother hnext).1
  · rintro ⟨hbase, hnext⟩
    constructor
    · rintro k ⟨hk, hkr⟩
      rcases howned (hmem hkr) with rfl | rfl
      · exact hbase hkr
      · exact hk (.inl rfl)
    · intro k r' hother hk
      refine ⟨?_, hk⟩
      rintro (rfl | rfl)
      · exact hother (Option.some.inj (hk.symm.trans hseq))
      · rw [hnext] at hk
        cases hk

end

/-- **What `CloseIo` removes.** For every table that allocations of one or two streams and calls of
`CloseIo` lead to, and every number mapped to a session: after `CloseIo` no number maps to the
session and the numbers of the other sessions are as before, if and only if the number is the
session's base, or the base no longer maps to the session and the next number maps to none. -/
theorem closeIo_onlyRemoved_iff (id ctlSerial ioSerial : String) (calls : List IoCall)
    (hcalls : ∀ call ∈ calls, call.OneOrTwo) (seq : UInt64) (r : SessionRef) (session : IoSession)
    (hseq : ((newVM id ctlSerial ioSerial).ioCalls calls).ioSessions seq = some r)
    (hr : ((newVM id ctlSerial ioSerial).ioCalls calls).sessions[r]? = some session) :
    let vm := (newVM id ctlSerial ioSerial).ioCalls calls
    vm.OnlyRemoved (vm.closeIo seq).1 r ↔ seq = session.ioBase ∨
      vm.ioSessions session.ioBase ≠ some r ∧ vm.ioSessions (seq + 1) = none := by
  intro vm
  have hlive : vm.Live := (newVM_live id ctlSerial ioSerial).ioCalls hcalls
  by_cases hbase : seq = session.ioBase
  · subst hbase
    exact iff_of_true (hlive.onlyRemoved_base hseq hr) (.inl rfl)
  · rw [or_iff_right hbase]
    exact hlive.onlyRemoved_second_iff hseq hr hbase

/-- Two sessions, and the second one closed by its base. -/
theorem closeIo_onlyRemoved_last :
    let calls : List IoCall := [.allocateIo 2 1 7, .allocateIo 2 2 8]
    (∀ call ∈ calls, call.OneOrTwo) ∧
      ((newVM "pod" "ctl" "tty").ioCalls calls).OnlyRemoved
        (((newVM "pod" "ctl" "tty").ioCalls calls).closeIo 3).1 1 :=
  ⟨by decide, (closeIo_onlyRemoved_iff "pod" "ctl" "tty"
    [.allocateIo 2 1 7, .allocateIo 2 2 8] (by decide) 3 1 ⟨2, 3, 2, 8⟩ (by decide) rfl).2
    (.inl rfl)⟩

/-- The second number of a session, with a session after it: the first number stays in the table,
and the other session is taken out. -/
theorem closeIo_second_number :
    let calls : List IoCall := [.allocateIo 2 1 7, .allocateIo 1 2 8]
    let vm := (newVM "pod" "ctl" "tty").ioCalls calls
    (∀ call ∈ calls, call.OneOrTwo) ∧ vm.ioSessions 2 = some 0 ∧
      ¬ vm.OnlyRemoved (vm.closeIo 2).1 0 ∧
      vm.ioSessions 3 = some 1 ∧ (vm.closeIo 2).1.ioSessions 3 = none :=
  ⟨by decide, by decide, fun h => h.1 1 (by decide), by decide, by decide⟩

end Proxy

end CcOciRuntime
