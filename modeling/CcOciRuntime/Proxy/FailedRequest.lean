import CcOciRuntime.Proxy.Handlers

/-!
# The effect of a failed request

A request that is answered with `success = false` should leave no trace: `FailedWithoutEffect` says
so of one request in one state. Attach, bye and hyper always satisfy it. Hello and allocateIO check
a field, record the error in the response and go on, so each has one way to do its work and report
a failure: `RegistersMalformed` and `AllocatesUnexpected`. `failedWithoutEffect_iff` says that
these two are the only ones.

Reference: `proxy/proxy.go:81-262`.
-/

namespace CcOciRuntime

namespace Proxy

/-- What a failed request must leave as it was: the registry, the VM the client is attached to, the
counter and the session table of every VM; and no file goes out with the response. -/
structure WithoutEffect (s s' : ProxyState) (c : ClientRef) (file : Option Fd) : Prop where
  vms : s'.vms = s.vms
  attached : (s'.clients c).vm = (s.clients c).vm
  sessions : ∀ v < s.nextVm, (s'.heap v).nextIoBase = (s.heap v).nextIoBase ∧
    (s'.heap v).ioSessions = (s.heap v).ioSessions
  file : file = none

theorem WithoutEffect.refl (s : ProxyState) (c : ClientRef) : WithoutEffect s s c none :=
  ⟨rfl, rfl, fun _ _ => ⟨rfl, rfl⟩, rfl⟩

/-- If the request is answered with a failure, it has no effect. -/
def FailedWithoutEffect (s : ProxyState) (c : ClientRef) (env : Env) (req : Request) : Prop :=
  ∀ s' resp file, handleRequest s c env req = .ok (s', resp, file) → resp.success = false →
    WithoutEffect s s' c file

/-- The same of what a handler leaves: its response is a failure when it carries an error. -/
def HandlerWithoutEffect (s : ProxyState) (c : ClientRef) (r : ProxyState × HandlerResponse) :
    Prop :=
  r.2.err ≠ none → WithoutEffect s r.1 c r.2.file

/-- A hello that lacks a field registers a VM: its ID is free and `Connect` succeeds. -/
def RegistersMalformed (s : ProxyState) (env : Env) (data : Option Json) : Prop :=
  ∃ hello, unmarshalHello data = .ok hello ∧ hello.Malformed ∧
    s.vms hello.containerID = none ∧
    ((helloVm s.enableVMConsole hello).connect env.connect).2 = none

/-- An allocateIO for an unexpected number of streams allocates: the client is attached, and the
socket pair and the duplicate of its first socket are there. -/
def AllocatesUnexpected (s : ProxyState) (c : ClientRef) (env : Env) (data : Option Json) : Prop :=
  ∃ a, unmarshalAllocateIo data = .ok a ∧ a.Unexpected ∧ (s.clients c).vm ≠ none ∧
    (∃ p, env.socketpair = .ok p) ∧ ∃ f, env.file = .ok f

@[simp] theorem HandlerResponse.setError_err (hr : HandlerResponse) (err : String) :
    (hr.setError err).err = some err := rfl

@[simp] theorem HandlerResponse.setError_file (hr : HandlerResponse) (err : String) :
    (hr.setError err).file = hr.file := rfl

@[simp] theorem helloCheck_file (hello : Hello) : (helloCheck hello).file = none := by
  unfold helloCheck
  split <;> rfl

theorem helloCheck_err {hello : Hello} : (helloCheck hello).err ≠ none ↔ hello.Malformed := by
  unfold helloCheck
  split <;> simp_all

@[simp] theorem allocateIoCheck_file (a : AllocateIo) : (allocateIoCheck a).file = none := by
  unfold allocateIoCheck
  split <;> rfl

theorem allocateIoCheck_err {a : AllocateIo} : (allocateIoCheck a).err ≠ none ↔ a.Unexpected := by
  unfold allocateIoCheck
  split <;> simp_all

/-! Only an allocateIO sends a file. -/

/-- `hello` returns no file. -/
theorem helloHandler_file (s : ProxyState) (c : ClientRef) (env : Env) (data : Option Json) :
    (helloHandler s c env data).2.file = none := by
  rw [helloHandler]
  split
  · rfl
  · split
    · exact helloCheck_file _
    · dsimp only
      split
      · exact helloCheck_file _
      · exact helloCheck_file _

/-- Nor does `attach`. -/
theorem attachHandler_file (s : ProxyState) (c : ClientRef) (data : Option Json) :
    (attachHandler s c data).2.file = none := by
  rw [attachHandler]
  split
  · rfl
  · split <;> rfl

/-- Nor does `bye`. -/
theorem byeHandler_file (s : ProxyState) (c : ClientRef) (data : Option Json) :
    (byeHandler s c data).2.file = none := by
  rw [byeHandler]
  split
  · rfl
  · split <;> rfl

/-- Nor does `hyper`. -/
theorem hyperHandler_file {s s' : ProxyState} {c : ClientRef} {env : Env} {data : Option Json}
    {hr : HandlerResponse} (h : hyperHandler s c env data = .ok (s', hr)) : hr.file = none := by
  rw [hyperHandler] at h
  split at h
  · cases h
    rfl
  · split at h
    · cases h
      rfl
    · cases hsend : sendCtlMessage (s.heap _).hyperHandler.ctl _ env.rawLen env.ctl with
      | error f =>
        rw [hsend] at h
        cases h
      | ok err =>
        rw [hsend] at h
        cases h
        rfl

section
variable {s : ProxyState} {c : ClientRef} {env : Env} {data : Option Json}

/-- A handler that leaves the state and sends no file has no effect. -/
theorem handlerWithoutEffect_of_eq {hr : HandlerResponse} (hf : hr.file = none) :
    HandlerWithoutEffect s c (s, hr) := fun _ => by
  rw [hf]
  exact WithoutEffect.refl s c

/-- A handler that reports no error owes nothing. -/
theorem handlerWithoutEffect_of_ok {r : ProxyState × HandlerResponse} (h : r.2.err = none) :
    HandlerWithoutEffect s c r := fun hne => absurd h hne

/-- Registering a VM and deleting it again leaves what other requests can see. -/
theorem withoutEffect_rollback {hello : Hello} (hfree : s.vms hello.containerID = none) (vm : Vm) :
    WithoutEffect s (((s.register hello).setVm s.nextVm vm).unregister hello.containerID) c
      none := by
  refine ⟨?_, rfl, fun v hv => ?_, rfl⟩
  · simp only [ProxyState.unregister, ProxyState.setVm, ProxyState.register, Function.update_idem]
    exact Function.update_eq_self_iff.2 hfree.symm
  · have hne : v ≠ s.nextVm := Nat.ne_of_lt hv
    simp [ProxyState.unregister, ProxyState.setVm, ProxyState.register, hne]

/-- A refused `hello` registers nothing, unless it is malformed. -/
theorem helloHandler_withoutEffect_iff :
    HandlerWithoutEffect s c (helloHandler s c env data) ↔ ¬ RegistersMalformed s env data := by
  unfold helloHandler RegistersMalformed
  cases hu : unmarshalHello data with
  | error err => simpa using handlerWithoutEffect_of_eq rfl
  | ok hello =>
    cases hv : s.vms hello.containerID with
    | some v => simpa [hv] using handlerWithoutEffect_of_eq (by simp)
    | none =>
      have hheap : (s.register hello).heap s.nextVm = helloVm s.enableVMConsole hello := by
        simp [ProxyState.register]
      simp only [hv, hheap]
      rcases hc : (helloVm s.enableVMConsole hello).connect env.connect with ⟨vm, err⟩
      cases err with
      | some err =>
        refine iff_of_true (fun _ => ?_) ?_
        · simpa using withoutEffect_rollback hv vm
        · rintro ⟨_, ⟨⟩, -, -, h⟩
          simp [hc] at h
      | none =>
        by_cases hm : hello.Malformed
        · -- the error is already in the response, and the VM stays registered
          refine iff_of_false (fun h => ?_) (fun h => h ⟨hello, rfl, hm, hv, by rw [hc]⟩)
          have hvms := congrFun (h (helloCheck_err.2 hm)).vms hello.containerID
          simp [ProxyState.attach, ProxyState.setVm, ProxyState.register, hv] at hvms
        · refine iff_of_true (handlerWithoutEffect_of_ok ?_) ?_
          · exact not_not.1 (mt helloCheck_err.1 hm)
          · rintro ⟨_, ⟨⟩, h, -⟩
            exact hm h

/-- A refused `attach` changes nothing. -/
theorem attachHandler_withoutEffect : HandlerWithoutEffect s c (attachHandler s c data) := by
  unfold attachHandler
  split
  · exact handlerWithoutEffect_of_eq rfl
  · split
    · exact handlerWithoutEffect_of_eq rfl
    · exact handlerWithoutEffect_of_ok rfl

/-- Nor does a refused `bye`. -/
theorem byeHandler_withoutEffect : HandlerWithoutEffect s c (byeHandler s c data) := by
  unfold byeHandler
  split
  · exact handlerWithoutEffect_of_eq rfl
  · split
    · exact handlerWithoutEffect_of_eq rfl
    · exact handlerWithoutEffect_of_ok rfl

/-- A refused `hyper` changes nothing. -/
theorem hyperHandler_withoutEffect {r : ProxyState × HandlerResponse}
    (h : hyperHandler s c env data = .ok r) : HandlerWithoutEffect s c r := by
  unfold hyperHandler at h
  split at h
  · cases h
    exact handlerWithoutEffect_of_eq rfl
  · split at h
    · cases h
      exact handlerWithoutEffect_of_eq rfl
    · cases hs : sendCtlMessage _ _ _ _ with
      | error fault =>
        rw [hs] at h
        cases h
      | ok err =>
        rw [hs] at h
        cases h
        exact handlerWithoutEffect_of_eq rfl

/-- A refused `allocateIO` enters nothing, but for an unexpected number. -/
theorem allocateIoHandler_withoutEffect_iff :
    HandlerWithoutEffect s c (allocateIoHandler s c env data) ↔
      ¬ AllocatesUnexpected s c env data := by
  unfold allocateIoHandler AllocatesUnexpected
  cases hu : unmarshalAllocateIo data with
  | error err => simpa using handlerWithoutEffect_of_eq rfl
  | ok a =>
    cases hv : (s.clients c).vm with
    | none => simpa [hv] using handlerWithoutEffect_of_eq (by simp)
    | some v =>
      unfold allocateOn
      cases hp : env.socketpair with
      | error err => simpa [hp] using handlerWithoutEffect_of_eq (by simp)
      | ok p =>
        cases hf : env.file with
        | error err => simpa [hf] using handlerWithoutEffect_of_eq (by simp)
        | ok f =>
          by_cases hx : a.Unexpected
          · -- the error is already in the response, and the file goes out with it
            refine iff_of_false (fun h => ?_) (fun h => h ⟨a, rfl, hx, nofun, ⟨p, rfl⟩, f, rfl⟩)
            exact nomatch (h (allocateIoCheck_err.2 hx)).file
          · refine iff_of_true (handlerWithoutEffect_of_ok ?_) ?_
            · exact not_not.1 (mt allocateIoCheck_err.1 hx)
            · rintro ⟨_, ⟨⟩, h, -⟩
              exact hx h

/-- A response is a failure exactly when the handler left an error. -/
theorem HandlerResponse.response_success {hr : HandlerResponse} :
    hr.response.success = false ↔ hr.err ≠ none := by
  unfold HandlerResponse.response
  cases hr.err <;> simp

/-- A request with a handler fails without effect when its handler does. -/
theorem failedWithoutEffect_of_handle {req : Request} {r : ProxyState × HandlerResponse}
    (hid : req.id ≠ "") (h : handle s c env req.id req.data = some (.ok r)) :
    FailedWithoutEffect s c env req ↔ HandlerWithoutEffect s c r := by
  have hreq : handleRequest s c env req = .ok (r.1, r.2.response, r.2.file) := by
    rw [handleRequest, if_neg hid, h]
    rfl
  unfold FailedWithoutEffect HandlerWithoutEffect
  rw [hreq]
  constructor
  · exact fun hall herr => hall _ _ _ rfl (HandlerResponse.response_success.2 herr)
  · rintro hr s' resp file ⟨⟩ hsucc
    exact hr (HandlerResponse.response_success.1 hsucc)

end

/-- **A failed request has no effect, apart from two.** In every state, for every client, every
request and every answer of the environment: a failed request leaves the registry, the client's
attachment and every VM's counter and session table, and sends no file, exactly when it is neither a
malformed hello whose ID is free and whose `Connect` succeeds nor an allocateIO of an attached
client for an unexpected number of streams whose sockets are there. -/
theorem failedWithoutEffect_iff (s : ProxyState) (c : ClientRef) (env : Env) (req : Request) :
    FailedWithoutEffect s c env req ↔
      ¬ (req.id = "hello" ∧ RegistersMalformed s env req.data) ∧
      ¬ (req.id = "allocateIO" ∧ AllocatesUnexpected s c env req.data) := by
  obtain ⟨id, data⟩ := req
  have unnamed : ∀ resp, handleRequest s c env ⟨id, data⟩ = .ok (s, resp, none) →
      FailedWithoutEffect s c env ⟨id, data⟩ := by
    rintro resp h s' resp' file h' -
    rw [h] at h'
    cases h'
    exact WithoutEffect.refl s c
  by_cases h0 : id = ""
  · subst h0
    exact iff_of_true (unnamed _ rfl) (by simp)
  by_cases h1 : id = "hello"
  · subst h1
    rw [failedWithoutEffect_of_handle h0 rfl, helloHandler_withoutEffect_iff]
    simp
  by_cases h2 : id = "attach"
  · subst h2
    rw [failedWithoutEffect_of_handle h0 rfl]
    exact iff_of_true attachHandler_withoutEffect (by simp)
  by_cases h3 : id = "bye"
  · subst h3
    rw [failedWithoutEffect_of_handle h0 rfl]
    exact iff_of_true byeHandler_withoutEffect (by simp)
  by_cases h4 : id = "allocateIO"
  · subst h4
    rw [failedWithoutEffect_of_handle h0 rfl, allocateIoHandler_withoutEffect_iff]
    simp
  refine iff_of_true ?_ (by simp [h1, h4])
  by_cases h5 : id = "hyper"
  · subst h5
    cases hr : hyperHandler s c env data with
    | error fault =>
      -- a panic: there is no response
      rintro s' resp file h
      simp [handleRequest, handle, hr, Except.map] at h
    | ok r =>
      have hh : handle s c env "hyper" data = some (.ok r) := by simp [handle, hr]
      exact (failedWithoutEffect_of_handle h0 hh).2 (hyperHandler_withoutEffect hr)
  · exact unnamed (Response.failure ("no payload named '" ++ id ++ "'"))
      (by simp [handleRequest, handle, h0, h1, h2, h3, h4, h5])

/-- A hello without a container ID is refused and registers a VM under the empty ID. -/
theorem malformed_hello_registers :
    ¬ FailedWithoutEffect (newProxy false fun _ => 1) 0 willingEnv
      ⟨"hello", some (.obj [("ctlSerial", .str "/run/ctl"), ("ioSerial", .str "/run/tty")])⟩ := by
  intro h
  have hvms := congrFun (h _ _ _ rfl rfl).vms ""
  exact absurd hvms (by decide)

end Proxy

end CcOciRuntime
