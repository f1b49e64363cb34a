import CcOciRuntime.Lib.Transition
import CcOciRuntime.Proxy.Handlers

/-!
# The proxy with many clients

Each client has its own goroutine, so requests of different clients interleave. A `Sys` is the
proxy's state with, for each client, how far its request has come (`Pc`). A label of `step` is the
scheduler's choice: a client sends a request, the request of a client takes its next atomic step
with the environment's answers, or a connected VM is lost and torn down. The critical sections
under `proxy.Lock` are atomic, and so is each step of `Connect`; what a handler does in between
concerns only its own client and its own locals.

`step_cases` is the inversion of a step, with the outcomes of a request's step as `Resumes`, and
`step_heap` says what a step does to one VM object. `exec_handleRequest` connects the two views of
a handler: a request whose steps are not interleaved with another's does what `handleRequest` says.

Reference: `proxy/proxy.go:81-262`, `Serve` (`proxy/protocol.go:110`).
-/

namespace CcOciRuntime

namespace Proxy

/-- Where a request stands between two of its atomic steps. Each constructor is named after the
step that comes next. -/
inductive Pc
  /-- the lookup and insertion under `proxy.Lock` (`proxy/proxy.go:95-109`) -/
  | helloRegister (hello : Hello)
  /-- inside `Connect` (`:115`), with the steps that are left; none is left when it returned nil -/
  | helloConnect (v : VmRef) (hello : Hello) (stages : List ConnectStage)
  /-- the deletion after a failed `Connect` (`:116-118`) -/
  | helloUnregister (v : VmRef) (hello : Hello) (err : String)
  /-- the lookup of an attach (`:145-147`) -/
  | attachLookup (attach : Attach)
  /-- the store of the client's VM (`:156`) -/
  | attachSet (v : VmRef)
  /-- the lookup of a bye (`:176-178`) -/
  | byeLookup (bye : Bye)
  /-- the deletion of a bye (`:187-191`) -/
  | byeDelete (v : VmRef)
  /-- the allocation on the client's VM (`:218-239`) -/
  | allocate (v : VmRef) (a : AllocateIo)
  /-- the command to the client's VM (`:260`) -/
  | hyper (v : VmRef) (hyper : Hyper)

/-- What an atomic step of a request leads to. -/
inductive Next
  | goto (pc : Pc)
  | done (hr : HandlerResponse)

/-- The part of a request before its first atomic step; it reads the client's own VM pointer and
changes nothing. Reference: `handleRequest` (`proxy/protocol.go:79-95`) and the heads of the
handlers. -/
def begin (s : ProxyState) (c : ClientRef) (req : Request) : Next :=
  if req.id = "" then .done (HandlerResponse.setError {} "no 'id' field in request")
  else if req.id = "hello" then
    match unmarshalHello req.data with
    | .error err => .done (HandlerResponse.setError {} err)
    | .ok hello => .goto (.helloRegister hello)
  else if req.id = "attach" then
    match unmarshalAttach req.data with
    | .error err => .done (HandlerResponse.setError {} err)
    | .ok attach => .goto (.attachLookup attach)
  else if req.id = "bye" then
    match unmarshalBye req.data with
    | .error err => .done (HandlerResponse.setError {} err)
    | .ok bye => .goto (.byeLookup bye)
  else if req.id = "allocateIO" then
    match unmarshalAllocateIo req.data with
    | .error err => .done (HandlerResponse.setError {} err)
    | .ok a =>
      match (s.clients c).vm with
      | none => .done ((allocateIoCheck a).setError notAttached)
      | some v => .goto (.allocate v a)
  else if req.id = "hyper" then
    match unmarshalHyper req.data with
    | .error err => .done (HandlerResponse.setError {} err)
    | .ok hyper =>
      match (s.clients c).vm with
      | none => .done (HandlerResponse.setError {} notAttached)
      | some v => .goto (.hyper v hyper)
  else .done (HandlerResponse.setError {} ("no payload named '" ++ req.id ++ "'"))

/-- One atomic step of a request. -/
def resume (s : ProxyState) (c : ClientRef) (env : Env) : Pc → Except Fault (ProxyState × Next)
  | .helloRegister hello =>
    match s.vms hello.containerID with
    | some _ => .ok (s, .done ((helloCheck hello).setError (alreadyRegistered hello.containerID)))
    | none => .ok (s.register hello, .goto (.helloConnect s.nextVm hello connectStages))
  | .helloConnect v hello [] => .ok (s.attach c (some v), .done (helloCheck hello))
  | .helloConnect v hello (st :: sts) =>
    match (s.heap v).connectStep env.connect st with
    | (vm, some err) => .ok (s.setVm v vm, .goto (.helloUnregister v hello err))
    | (vm, none) => .ok (s.setVm v vm, .goto (.helloConnect v hello sts))
  | .helloUnregister _ hello err =>
    .ok (s.unregister hello.containerID, .done ((helloCheck hello).setError err))
  | .attachLookup attach =>
    match s.vms attach.containerID with
    | none => .ok (s, .done (HandlerResponse.setError {} (unknownContainer attach.containerID)))
    | some v => .ok (s, .goto (.attachSet v))
  | .attachSet v => .ok (s.attach c (some v), .done {})
  | .byeLookup bye =>
    match s.vms bye.containerID with
    | none => .ok (s, .done (HandlerResponse.setError {} (unknownContainer bye.containerID)))
    | some v => .ok (s, .goto (.byeDelete v))
  | .byeDelete v => .ok ((s.unregister (s.heap v).containerID).attach c none, .done {})
  | .allocate v a =>
    let r := allocateOn s c v env a (allocateIoCheck a)
    .ok (r.1, .done r.2)
  | .hyper v hyper =>
    (sendCtlMessage (s.heap v).hyperHandler.ctl hyper.hyperName env.rawLen env.ctl).map
      fun err => (s, .done { err })

/-- The outcomes of an atomic step of a request, one constructor for each branch of `resume` that
does not panic. -/
inductive Resumes (s : ProxyState) (c : ClientRef) (env : Env) : Pc → ProxyState → Next → Prop
  | taken {hello : Hello} {v : VmRef} (hv : s.vms hello.containerID = some v) :
    Resumes s c env (.helloRegister hello) s
      (.done ((helloCheck hello).setError (alreadyRegistered hello.containerID)))
  | register {hello : Hello} (hv : s.vms hello.containerID = none) :
    Resumes s c env (.helloRegister hello) (s.register hello)
      (.goto (.helloConnect s.nextVm hello connectStages))
  | connected {v : VmRef} {hello : Hello} :
    Resumes s c env (.helloConnect v hello []) (s.attach c (some v)) (.done (helloCheck hello))
  | connectFailed {v : VmRef} {hello : Hello} {st : ConnectStage} {sts : List ConnectStage}
    {vm : Vm} {err : String} (hc : (s.heap v).connectStep env.connect st = (vm, some err)) :
    Resumes s c env (.helloConnect v hello (st :: sts)) (s.setVm v vm)
      (.goto (.helloUnregister v hello err))
  | connectStep {v : VmRef} {hello : Hello} {st : ConnectStage} {sts : List ConnectStage}
    {vm : Vm} (hc : (s.heap v).connectStep env.connect st = (vm, none)) :
    Resumes s c env (.helloConnect v hello (st :: sts)) (s.setVm v vm)
      (.goto (.helloConnect v hello sts))
  | unregister {v : VmRef} {hello : Hello} {err : String} :
    Resumes s c env (.helloUnregister v hello err) (s.unregister hello.containerID)
      (.done ((helloCheck hello).setError err))
  | attachUnknown {attach : Attach} (hv : s.vms attach.containerID = none) :
    Resumes s c env (.attachLookup attach) s
      (.done (HandlerResponse.setError {} (unknownContainer attach.containerID)))
  | attachFound {attach : Attach} {v : VmRef} (hv : s.vms attach.containerID = some v) :
    Resumes s c env (.attachLookup attach) s (.goto (.attachSet v))
  | attachSet {v : VmRef} : Resumes s c env (.attachSet v) (s.attach c (some v)) (.done {})
  | byeUnknown {bye : Bye} (hv : s.vms bye.containerID = none) :
    Resumes s c env (.byeLookup bye) s
      (.done (HandlerResponse.setError {} (unknownContainer bye.containerID)))
  | byeFound {bye : Bye} {v : VmRef} (hv : s.vms bye.containerID = some v) :
    Resumes s c env (.byeLookup bye) s (.goto (.byeDelete v))
  | byeDelete {v : VmRef} :
    Resumes s c env (.byeDelete v) ((s.unregister (s.heap v).containerID).attach c none)
      (.done {})
  | allocateFailed {v : VmRef} {a : AllocateIo} {hr : HandlerResponse} :
    Resumes s c env (.allocate v a) s (.done hr)
  | allocate {v : VmRef} {a : AllocateIo} {p : Conn × Conn} {f : Fd} {hr : HandlerResponse}
    (hp : env.socketpair = .ok p) (hf : env.file = .ok f) :
    Resumes s c env (.allocate v a)
      (s.setVm v ((s.heap v).allocateIo a.nStreams (s.clients c).id p.2).1) (.done hr)
  | hyper {v : VmRef} {hyper : Hyper} {hr : HandlerResponse} :
    Resumes s c env (.hyper v hyper) s (.done hr)

/-- **Inversion of an atomic step of a request.** -/
theorem resumes_of_resume {s s' : ProxyState} {c : ClientRef} {env : Env} {pc : Pc} {n : Next}
    (h : resume s c env pc = .ok (s', n)) : Resumes s c env pc s' n := by
  cases pc with
  | helloRegister hello =>
    rw [resume] at h
    split at h <;> cases h
    · exact .taken ‹_›
    · exact .register ‹_›
  | helloConnect v hello stages =>
    cases stages with
    | nil =>
      cases h
      exact .connected
    | cons st sts =>
      rw [resume] at h
      split at h <;> cases h
      · exact .connectFailed ‹_›
      · exact .connectStep ‹_›
  | helloUnregister v hello err =>
    cases h
    exact .unregister
  | attachLookup attach =>
    rw [resume] at h
    split at h <;> cases h
    · exact .attachUnknown ‹_›
    · exact .attachFound ‹_›
  | attachSet v =>
    cases h
    exact .attachSet
  | byeLookup bye =>
    rw [resume] at h
    split at h <;> cases h
    · exact .byeUnknown ‹_›
    · exact .byeFound ‹_›
  | byeDelete v =>
    cases h
    exact .byeDelete
  | allocate v a =>
    rw [resume, allocateOn] at h
    cases hp : env.socketpair with
    | error err =>
      simp only [hp] at h
      cases h
      exact .allocateFailed
    | ok p =>
      cases hf : env.file with
      | error err =>
        simp only [hp, hf] at h
        cases h
        exact .allocateFailed
      | ok f =>
        simp only [hp, hf] at h
        cases h
        exact .allocate hp hf
  | hyper v hyper =>
    rw [resume] at h
    cases hs : sendCtlMessage (s.heap v).hyperHandler.ctl hyper.hyperName env.rawLen env.ctl with
    | error fault =>
      rw [hs] at h
      cases h
    | ok err =>
      rw [hs] at h
      cases h
      exact .hyper

/-- The proxy with the requests in flight, what the finished ones were answered (the last one
first), and whether a panic has ended the process. -/
structure Sys where
  proxy : ProxyState
  pc : ClientRef → Option Pc := fun _ => none
  replies : List (ClientRef × HandlerResponse) := []
  crashed : Bool := false

/-- What the scheduler may choose. -/
inductive Label
  | request (c : ClientRef) (req : Request)
  | run (c : ClientRef) (env : Env)
  | lost (v : VmRef) (closeCtl closeIo : Bool)

/-- The system after a request of `c` has come to `n`. -/
def Sys.next (s : Sys) (c : ClientRef) (p : ProxyState) : Next → Sys
  | .goto pc => { s with proxy := p, pc := Function.update s.pc c (some pc) }
  | .done hr =>
    { s with proxy := p, pc := Function.update s.pc c none, replies := (c, hr) :: s.replies }

/-- One step of the system. A VM that is lost is torn down by the goroutine its hello started, which
is there once `Connect` has returned nil. Reference: `proxy/proxy.go:127-131`. -/
def step (s : Sys) : Label → Option Sys
  | .request c req =>
    if s.crashed then none
    else
      match s.pc c with
      | some _ => none
      | none => some (s.next c s.proxy (begin s.proxy c req))
  | .run c env =>
    if s.crashed then none
    else
      match s.pc c with
      | none => none
      | some pc =>
        match resume s.proxy c env pc with
        | .error _ => some { s with crashed := true }
        | .ok (p, n) => some (s.next c p n)
  | .lost v closeCtl closeIo =>
    if s.crashed then none
    else if (s.proxy.heap v).connected then
      some { s with proxy := s.proxy.setVm v ((s.proxy.heap v).close closeCtl closeIo) }
    else none

/-- The system before its first request. -/
def Sys.init (enableVMConsole : Bool) (ids : ClientRef → UInt64) : Sys where
  proxy := newProxy enableVMConsole ids

section
variable {s t : Sys} {c : ClientRef} {p : ProxyState}

@[simp] theorem Sys.next_proxy (n : Next) : (s.next c p n).proxy = p := by cases n <;> rfl

@[simp] theorem Sys.next_crashed (n : Next) : (s.next c p n).crashed = s.crashed := by
  cases n <;> rfl

/-- The place a step leads its own request to. -/
def Next.pc : Next → Option Pc
  | .goto pc => some pc
  | .done _ => none

theorem Sys.next_pc (n : Next) (d : ClientRef) :
    (s.next c p n).pc d = if d = c then n.pc else s.pc d := by
  cases n <;> simp [Sys.next, Next.pc, Function.update_apply]

@[simp] theorem Sys.next_pc_self (n : Next) : (s.next c p n).pc c = n.pc := by simp [Sys.next_pc]

theorem Sys.next_pc_of_ne {n : Next} {d : ClientRef} (h : d ≠ c) :
    (s.next c p n).pc d = s.pc d := by simp [Sys.next_pc, h]

/-- **Inversion of a step.** -/
theorem step_cases {l : Label} (h : step s l = some t) :
    (∃ c req, l = .request c req ∧ s.pc c = none ∧
      t = s.next c s.proxy (begin s.proxy c req)) ∨
    (∃ c env pc p n, l = .run c env ∧ s.pc c = some pc ∧ Resumes s.proxy c env pc p n ∧
      t = s.next c p n) ∨
    (∃ c env pc fault, l = .run c env ∧ s.pc c = some pc ∧
      resume s.proxy c env pc = .error fault ∧ t = { s with crashed := true }) ∨
    (∃ v closeCtl closeIo, l = .lost v closeCtl closeIo ∧ (s.proxy.heap v).connected = true ∧
      t = { s with proxy := s.proxy.setVm v ((s.proxy.heap v).close closeCtl closeIo) }) := by
  cases l with
  | request c req =>
    simp only [step] at h
    split_ifs at h
    cases hp : s.pc c with
    | some pc => simp [hp] at h
    | none =>
      rw [hp] at h
      exact .inl ⟨c, req, rfl, hp, (Option.some.inj h).symm⟩
  | run c env =>
    simp only [step] at h
    split_ifs at h
    cases hp : s.pc c with
    | none => simp [hp] at h
    | some pc =>
      rw [hp] at h
      cases hr : resume s.proxy c env pc with
      | error fault =>
        simp only [hr] at h
        exact .inr (.inr (.inl ⟨c, env, pc, fault, rfl, hp, hr, (Option.some.inj h).symm⟩))
      | ok r =>
        simp only [hr] at h
        exact .inr (.inl ⟨c, env, pc, r.1, r.2, rfl, hp, resumes_of_resume hr,
          (Option.some.inj h).symm⟩)
  | lost v closeCtl closeIo =>
    simp only [step] at h
    split_ifs at h with _ hc
    exact .inr (.inr (.inr ⟨v, closeCtl, closeIo, rfl, hc, (Option.some.inj h).symm⟩))

/-- **What a step does to a VM object.** It leaves it alone, or it is the step that creates the
object, a step of its `Connect`, an allocation on it, or its teardown. -/
theorem step_heap {l : Label} (h : step s l = some t) (v : VmRef) :
    t.proxy.heap v = s.proxy.heap v ∨
    (∃ hello, v = s.proxy.nextVm ∧ t.proxy.heap v = helloVm s.proxy.enableVMConsole hello) ∨
    (∃ c env hello st sts, l = .run c env ∧ s.pc c = some (.helloConnect v hello (st :: sts)) ∧
      t.proxy.heap v = ((s.proxy.heap v).connectStep env.connect st).1) ∨
    (∃ c env a p f, l = .run c env ∧ s.pc c = some (.allocate v a) ∧ env.socketpair = .ok p ∧
      env.file = .ok f ∧
      t.proxy.heap v = ((s.proxy.heap v).allocateIo a.nStreams (s.proxy.clients c).id p.2).1) ∨
    (∃ closeCtl closeIo, t.proxy.heap v = (s.proxy.heap v).close closeCtl closeIo) := by
  obtain ⟨c, req, rfl, hc, rfl⟩ | ⟨c, env, pc, p, n, rfl, hc, hr, rfl⟩ |
    ⟨c, env, pc, fault, rfl, hc, hr, rfl⟩ | ⟨w, closeCtl, closeIo, rfl, hw, rfl⟩ := step_cases h
  · exact .inl (by rw [Sys.next_proxy])
  · rw [Sys.next_proxy]
    cases hr with
    | taken | connected | unregister | attachUnknown | attachFound | attachSet | byeUnknown
    | byeFound | byeDelete | allocateFailed | hyper => exact .inl rfl
    | @register hello =>
      by_cases hv : v = s.proxy.nextVm
      · subst hv
        exact .inr (.inl ⟨hello, rfl, by simp [ProxyState.register]⟩)
      · exact .inl (by simp [ProxyState.register, hv])
    | @connectFailed w hello st sts vm err hcs | @connectStep w hello st sts vm hcs =>
      by_cases hv : v = w
      · subst hv
        exact .inr (.inr (.inl ⟨c, env, hello, st, sts, rfl, hc, by simp [ProxyState.setVm, hcs]⟩))
      · exact .inl (by simp [ProxyState.setVm, hv])
    | @allocate w a q f hr hp hf =>
      by_cases hv : v = w
      · subst hv
        refine .inr (.inr (.inr (.inl ⟨c, env, a, q, f, rfl, hc, hp, hf, ?_⟩)))
        simp [ProxyState.setVm]
      · exact .inl (by simp [ProxyState.setVm, hv])
  · exact .inl rfl
  · by_cases hv : v = w
    · subst hv
      exact .inr (.inr (.inr (.inr ⟨closeCtl, closeIo, by simp [ProxyState.setVm]⟩)))
    · exact .inl (by simp [ProxyState.setVm, hv])

end

/-! ## A request on its own -/

/-- A request of `c` that takes its next steps with no other in between, up to `k` of them. -/
def alone (c : ClientRef) (env : Env) :
    Nat → ProxyState → Next → Except Fault (Option (ProxyState × HandlerResponse))
  | _, p, .done hr => .ok (some (p, hr))
  | 0, _, .goto _ => .ok none
  | k + 1, p, .goto pc =>
    match resume p c env pc with
    | .error fault => .error fault
    | .ok (p', n) => alone c env k p' n

section
variable {s : Sys} {c : ClientRef} {env : Env}

@[simp] theorem alone_done (k : Nat) (p : ProxyState) (hr : HandlerResponse) :
    alone c env k p (.done hr) = .ok (some (p, hr)) := by cases k <;> rfl

/-- What a request does on its own, it does as a run of the system. -/
theorem exec_alone (hs : s.crashed = false) : ∀ {k : Nat} {p p' : ProxyState} {n : Next}
    {hr : HandlerResponse}, alone c env k p n = .ok (some (p', hr)) →
    ∃ j, exec step (s.next c p n) (List.replicate j (.run c env)) = some (s.next c p' (.done hr))
  | k, p, p', .done hr, hr', h => by
    rw [alone_done] at h
    cases h
    exact ⟨0, rfl⟩
  | 0, p, p', .goto pc, hr, h => by cases h
  | k + 1, p, p', .goto pc, hr, h => by
    rw [alone] at h
    cases hres : resume p c env pc with
    | error fault => simp [hres] at h
    | ok r =>
      simp only [hres] at h
      obtain ⟨j, hj⟩ := exec_alone hs h
      refine ⟨j + 1, exec_cons_eq_some.2 ⟨s.next c r.1 r.2, ?_, hj⟩⟩
      -- the step overwrites the place the request was at before
      have hnext : (s.next c p (.goto pc)).next c r.1 r.2 = s.next c r.1 r.2 := by
        cases r.2 <;> simp [Sys.next]
      simp [step, hs, Next.pc, hres, hnext]

/-- The steps of `Connect` on their own are `connectFrom`, and what follows is the end of the
handler. -/
theorem alone_helloConnect {v : VmRef} {hello : Hello} : ∀ {stages : List ConnectStage} {k : Nat}
    {p : ProxyState}, stages.length + 1 ≤ k →
    alone c env k p (.goto (.helloConnect v hello stages)) = .ok (some
      (match (p.heap v).connectFrom env.connect stages with
        | (vm, some err) =>
          ((p.setVm v vm).unregister hello.containerID, (helloCheck hello).setError err)
        | (vm, none) => ((p.setVm v vm).attach c (some v), helloCheck hello)))
  | [], k + 1, p, _ => by
    have hset : p.setVm v (p.heap v) = p := by simp [ProxyState.setVm]
    simp [alone, resume, Vm.connectFrom, hset]
  | st :: sts, k + 1, p, hk => by
    rw [alone, resume, Vm.connectFrom]
    rcases hc : (p.heap v).connectStep env.connect st with ⟨vm, err⟩
    have hheap : (p.setVm v vm).heap v = vm := by simp [ProxyState.setVm]
    cases err with
    | some err =>
      obtain ⟨k, rfl⟩ : ∃ j, k = j + 1 := ⟨k - 1, by simp only [List.length_cons] at hk; omega⟩
      simp [alone, resume]
    | none =>
      simp only [List.length_cons, Nat.add_le_add_iff_right] at hk
      simp only [alone_helloConnect hk, hheap]
      rcases (vm.connectFrom env.connect sts) with ⟨vm', err⟩
      cases err <;> simp [ProxyState.setVm]

/-- The atomic steps of a handler, taken one after the other, are the handler. -/
theorem alone_handle {p : ProxyState} {req : Request} (hid : req.id ≠ "")
    {r : Except Fault (ProxyState × HandlerResponse)}
    (h : handle p c env req.id req.data = some r) :
    alone c env 6 p (begin p c req) = r.map some := by
  obtain ⟨id, data⟩ := req
  simp only [handle] at h
  split_ifs at h with h1 h2 h3 h4 h5 <;> cases h <;> subst id
  · simp only [begin, helloHandler]
    cases unmarshalHello data with
    | error err => rfl
    | ok hello =>
      cases hv : p.vms hello.containerID with
      | some v => simp [alone, resume, hv, Except.map]
      | none =>
        have hfirst : alone c env 6 p (.goto (.helloRegister hello)) =
            alone c env 5 (p.register hello)
              (.goto (.helloConnect p.nextVm hello connectStages)) := by
          rw [alone, resume, hv]
        have hk : connectStages.length + 1 ≤ 5 := by decide
        refine hfirst.trans ((alone_helloConnect hk).trans ?_)
        simp only [hv, Vm.connect]
        rfl
  · simp only [begin, attachHandler]
    cases unmarshalAttach data with
    | error err => rfl
    | ok attach => cases hv : p.vms attach.containerID <;> simp [alone, resume, hv, Except.map]
  · simp only [begin, byeHandler]
    cases unmarshalBye data with
    | error err => rfl
    | ok bye => cases hv : p.vms bye.containerID <;> simp [alone, resume, hv, Except.map]
  · simp only [begin, allocateIoHandler]
    cases unmarshalAllocateIo data with
    | error err => rfl
    | ok a => cases hv : (p.clients c).vm <;> simp [alone, resume, Except.map]
  · simp only [begin, hyperHandler]
    cases unmarshalHyper data with
    | error err => rfl
    | ok hyper =>
      cases hv : (p.clients c).vm with
      | none => rfl
      | some v =>
        simp only [alone, resume, reduceIte, String.reduceEq]
        cases sendCtlMessage _ _ _ _ <;> rfl

/-- **A request on its own.** From any state in which a client has no request in flight, its request
followed by the steps of its handler alone is a run of the system, which ends as `handleRequest`
says and leaves the requests of the other clients where they were. -/
theorem exec_handleRequest (hs : s.crashed = false) (hc : s.pc c = none) {req : Request}
    {p : ProxyState} {resp : Response} {file : Option Fd}
    (h : handleRequest s.proxy c env req = .ok (p, resp, file)) :
    ∃ j t hr, exec step s (.request c req :: List.replicate j (.run c env)) = some t ∧
      t.proxy = p ∧ t.pc = s.pc ∧ t.replies = (c, hr) :: s.replies ∧
      hr.response = resp ∧ hr.file = file := by
  -- a request without a handler is answered at once; the others run on their own
  obtain ⟨hr, halone, hresp, hfile⟩ : ∃ hr,
      alone c env 6 s.proxy (begin s.proxy c req) = .ok (some (p, hr)) ∧
      hr.response = resp ∧ hr.file = file := by
    rw [handleRequest] at h
    split_ifs at h with hid
    · cases h
      exact ⟨_, by rw [begin, if_pos hid]; rfl, rfl, rfl⟩
    · cases hh : handle s.proxy c env req.id req.data with
      | none =>
        rw [hh] at h
        cases h
        simp only [handle] at hh
        split_ifs at hh with h1 h2 h3 h4 h5
        refine ⟨HandlerResponse.setError {} _, ?_, rfl, rfl⟩
        simp only [begin, hid, h1, h2, h3, h4, h5, if_false, alone_done]
      | some r =>
        rw [hh] at h
        rw [alone_handle hid hh]
        cases r with
        | error fault => cases h
        | ok r =>
          cases h
          exact ⟨r.2, rfl, rfl, rfl⟩
  obtain ⟨j, hj⟩ := exec_alone hs halone
  refine ⟨j, _, hr, exec_cons_eq_some.2 ⟨_, ?_, hj⟩, rfl, ?_, rfl, hresp, hfile⟩
  · simp [step, hs, hc]
  · funext d
    by_cases hd : d = c
    · subst hd
      simp [Next.pc, hc]
    · rw [Sys.next_pc_of_ne hd]

end

/-! ## Requests one after the other -/

/-- A request and `n` steps of it, one after the other. -/
def uninterrupted (c : ClientRef) (req : Request) (n : Nat) (env : Env) : List Label :=
  .request c req :: List.replicate n (.run c env)

/-- No request but one of `c` is in flight. -/
def Sys.Alone (s : Sys) (c : ClientRef) : Prop := ∀ d, d ≠ c → s.pc d = none

section
variable {s t : Sys} {c : ClientRef} {req : Request} {env : Env} {G : Sys → Label → Prop}

/-- A client stays alone after its step. -/
theorem Sys.Alone.of_step (hs : s.Alone c) (h : step s (.run c env) = some t) : t.Alone c := by
  intro d hd
  obtain ⟨_, _, hl, -, -⟩ | ⟨_, _, _, _, _, ⟨⟩, -, -, rfl⟩ | ⟨_, _, _, _, -, -, -, rfl⟩ |
    ⟨_, _, _, hl, -, -⟩ := step_cases h
  · cases hl
  · exact (Sys.next_pc_of_ne hd).trans (hs d hd)
  · exact hs d hd
  · cases hl

/-- And after its request. -/
theorem Sys.Alone.of_request (hs : s.Alone c) (h : step s (.request c req) = some t) :
    t.Alone c := by
  intro d hd
  obtain ⟨_, _, ⟨⟩, -, rfl⟩ | ⟨_, _, _, _, _, hl, -⟩ | ⟨_, _, _, _, hl, -⟩ | ⟨_, _, _, hl, -⟩ :=
    step_cases h
  · exact (Sys.next_pc_of_ne hd).trans (hs d hd)
  all_goals cases hl

/-- After a request on its own that has been answered, no request is in flight. -/
theorem Sys.Alone.of_uninterrupted (hs : s.Alone c) {n : Nat}
    (h : exec step s (uninterrupted c req n env) = some t) (hc : t.pc c = none) (d : ClientRef) :
    t.Alone d := by
  have hsteps : ∀ (k : Nat) (u : Sys), u.Alone c →
      exec step u (List.replicate k (.run c env)) = some t → t.Alone c := by
    intro k
    induction k with
    | zero =>
      intro u hu hut
      cases hut
      exact hu
    | succ k ih =>
      intro u hu hut
      obtain ⟨w, hw, hwt⟩ := exec_cons_eq_some.1 hut
      exact ih w (hu.of_step hw) hwt
  obtain ⟨u, hu, hut⟩ := exec_cons_eq_some.1 h
  have ht := hsteps n u (hs.of_request hu) hut
  intro e _
  by_cases he : e = c
  · rw [he, hc]
  · exact ht e he

/-- A guard that is met by a client's steps while no other request is in flight, is met by a whole
request on its own. -/
theorem Sys.Alone.meets_uninterrupted (hs : s.Alone c) (hreq : ∀ s, G s (.request c req))
    (hrun : ∀ s, s.Alone c → G s (.run c env)) (n : Nat) :
    Meets step G s (uninterrupted c req n env) := by
  have hsteps : ∀ (k : Nat) (u : Sys), u.Alone c →
      Meets step G u (List.replicate k (.run c env)) := by
    intro k
    induction k with
    | zero => exact fun u _ => trivial
    | succ k ih =>
      intro u hu
      refine ⟨hrun u hu, ?_⟩
      cases hstep : step u (.run c env) with
      | none => trivial
      | some w => exact ih w (hu.of_step hstep)
  refine ⟨hreq s, ?_⟩
  cases hstep : step s (.request c req) with
  | none => trivial
  | some u => exact hsteps n u (hs.of_request hstep)

/-- The same of two requests, the second after the first has been answered. -/
theorem Sys.Alone.meets_append (hs : s.Alone c) (hreq : ∀ s c req, G s (.request c req))
    (hrun : ∀ s c env, s.Alone c → G s (.run c env)) {n m : Nat} {d : ClientRef} {req' : Request}
    {env' : Env} (h : exec step s (uninterrupted c req n env) = some t) (hc : t.pc c = none) :
    Meets step G s (uninterrupted c req n env ++ uninterrupted d req' m env') := by
  have hfirst : Meets step G s (uninterrupted c req n env) :=
    hs.meets_uninterrupted (fun s => hreq s c req) (fun s => hrun s c env) n
  have hsecond : Meets step G t (uninterrupted d req' m env') :=
    (hs.of_uninterrupted h hc d).meets_uninterrupted (fun s => hreq s d req')
      (fun s => hrun s d env') m
  exact hfirst.append h hsecond

end

/-! ## Requests by name -/

/-- A hello for a container. -/
def helloRequest (id : String) : Request where
  id := "hello"
  data := some (.obj [("containerId", .str id), ("ctlSerial", .str "/run/ctl.sock"),
    ("ioSerial", .str "/run/tty.sock")])

/-- An attach or a bye for a container. -/
def containerRequest (name id : String) : Request where
  id := name
  data := some (.obj [("containerId", .str id)])

/-- An allocateIO for `n` streams. -/
def allocateRequest (n : Int) : Request where
  id := "allocateIO"
  data := some (.obj [("nStreams", .int n)])

end Proxy

end CcOciRuntime
