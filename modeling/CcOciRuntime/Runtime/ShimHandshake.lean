import CcOciRuntime.Lib.Pipe
import CcOciRuntime.Lib.Transition
import CcOciRuntime.Runtime.Launch

/-!
# The runtime and the child that becomes the shim

The runtime forks a child and passes it what the shim needs: the number of the proxy's socket and
the base of the streams through a pipe, and the descriptor of the streams through a socket. The
child sets itself up and executes the shim. If its setup fails it writes a byte to a third pipe,
whose end the parent waits for. The two processes run in any order, each call may fail, and the
child may be killed at any time; a label of `handshakeStep` is the turn of one of them.

After the `fork` each process holds both ends of everything and closes those it does not use, so
that the other one can meet the end of a file. The number of the child's end of the error pipe is
taken to be above those of the standard streams, so that the console cannot take its place.

`exec_handshake` says what the parent's verdict means, and `exec_handshake_ends` that neither waits
for ever.

Reference: `cc_shim_launch` (`src/process.c:605`), `cc_oci_exec_shim` (`src/process.c:1363`).
-/

namespace CcOciRuntime

namespace Runtime

/-! ## The two processes -/

inductive Party
  | parent
  | child
  deriving DecidableEq

/-- Where the parent is. -/
inductive ParentPc
  /-- it closes the ends that the child uses -/
  | closes
  | writesFd
  | writesBase
  | connects
  | sendsFd
  | readsErr
  | returned (ret : Bool)
  deriving DecidableEq

/-- Where the child is. -/
inductive ChildPc
  | closes
  | readsFd
  | readsBase
  | connects
  | receivesFd
  | dups
  | locks
  | setsUp
  | execs
  /-- the label `child_failed` -/
  | failed
  /-- the program of the shim runs -/
  | running
  /-- the process has ended, after it has reported a failure or without -/
  | dead (reported : Bool)
  deriving DecidableEq

/-- What the parent passes on, whether the shim is the first of the container and so takes the lock,
and whether another process holds this lock. -/
structure HandshakeEnv where
  proxyFd : Int32
  ioBase : Int32
  ioFd : Nat
  initialWorkload : Bool
  lockHeld : Bool

/-- The two processes, the channels between them and the variables of the child. -/
structure Handshake where
  parent : ParentPc := .closes
  child : ChildPc := .closes
  /-- `shim_args_pipe` -/
  args : Pipe Party Int32 := .shared [.parent, .child]
  /-- `shim_socket` -/
  sock : Pipe Party Nat := .shared [.parent, .child]
  /-- `child_err_pipe` -/
  err : Pipe Party Unit := .shared [.parent, .child]
  proxySocketFd : Int32 := -1
  proxyIoBase : Int32 := -1
  proxyIoFd : Option Nat := none
  /-- the parent's read of the error pipe has failed -/
  readFailed : Bool := false

/-- A turn of one of the processes, with the answer to its call, or a signal that ends the child. -/
inductive HandshakeLabel
  | parent (ok : Bool)
  | child (ok : Bool)
  | killed

/-- The parent closes what it holds and returns; after a failure it kills the child. Reference:
`src/process.c:1450-1464`. -/
def Handshake.leaves (s : Handshake) (ret : Bool) : Handshake :=
  { s with
    parent := .returned ret
    args := s.args.leave .parent
    sock := s.sock.leave .parent
    err := s.err.leave .parent }

/-- The parent's turn: a write or a read whose failure leads to the end of the function. A read of
the error pipe that fails passes for a success. Reference: `src/process.c:829-838`, `:1389-1447`. -/
def Handshake.parentTurn (env : HandshakeEnv) (s : Handshake) (ok : Bool) : Option Handshake :=
  match s.parent with
  | .closes =>
    some { s with
      parent := .writesFd
      err := s.err.closeWriter .parent
      args := s.args.closeReader .parent
      sock := s.sock.closeReader .parent }
  | .writesFd =>
    match if ok = true ∧ 0 ≤ env.proxyFd then s.args.write env.proxyFd else none with
    | some args => some { s with args, parent := .writesBase }
    | none => some (s.leaves false)
  | .writesBase =>
    match if ok then s.args.write env.ioBase else none with
    | some args => some { s with args, parent := .connects }
    | none => some (s.leaves false)
  | .connects => some (if ok then { s with parent := .sendsFd } else s.leaves false)
  | .sendsFd =>
    match if ok then s.sock.write env.ioFd else none with
    | some sock => some { s with sock, parent := .readsErr }
    | none => some (s.leaves false)
  | .readsErr =>
    if ok then
      match s.err.next with
      | .item _ err => some ({ s with err }.leaves false)
      | .eof => some (s.leaves true)
      | .blocks => none
    else some ({ s with readFailed := true }.leaves true)
  | .returned _ => none

/-- The child is gone, and with it what it holds. -/
def Handshake.dies (s : Handshake) (reported : Bool) : Handshake :=
  { s with
    child := .dead reported
    args := s.args.leave .child
    sock := s.sock.leave .child
    err := s.err.leave .child }

/-- A read from the pipe or the socket: the end of the file is a failure. -/
def Handshake.childReads {α : Type} (s : Handshake) (pipe : Pipe Party α)
    (got : α → Pipe Party α → Handshake) (ok : Bool) : Option Handshake :=
  if ok then
    match pipe.next with
    | .item x pipe => some (got x pipe)
    | .eof => some { s with child := .failed }
    | .blocks => none
  else some { s with child := .failed }

/-- A call of the child that succeeds or fails. -/
def Handshake.childCalls (s : Handshake) (next : Handshake) (ok : Bool) : Option Handshake :=
  some (if ok then next else { s with child := .failed })

/-- The child's turn. The lock may have to be waited for. With the descriptors that it does not pass
on, the setup also closes the error pipe; when `exec` fails, the process aborts. Reference:
`src/process.c:671-826`. -/
def Handshake.childTurn (env : HandshakeEnv) (s : Handshake) (ok : Bool) : Option Handshake :=
  match s.child with
  | .closes =>
    some { s with
      child := .readsFd
      err := s.err.closeReader .child
      args := s.args.closeWriter .child
      sock := s.sock.closeWriter .child }
  | .readsFd =>
    s.childReads s.args (fun fd args => { s with args, proxySocketFd := fd, child := .readsBase })
      ok
  | .readsBase =>
    s.childReads s.args (fun base args => { s with args, proxyIoBase := base, child := .connects })
      ok
  | .connects => s.childCalls { s with child := .receivesFd } ok
  | .receivesFd =>
    s.childReads s.sock (fun fd sock =>
      { s with
        proxyIoFd := some fd
        child := .dups
        args := s.args.closeReader .child
        sock := sock.closeReader .child }) ok
  | .dups => s.childCalls { s with child := .locks } (ok && decide (0 ≤ s.proxySocketFd))
  | .locks =>
    if env.initialWorkload = true ∧ ok = true ∧ env.lockHeld = true then none
    else s.childCalls { s with child := .setsUp } (ok || !env.initialWorkload)
  | .setsUp => s.childCalls { s with child := .execs, err := s.err.closeWriter .child } ok
  | .execs => some (if ok then { s with child := .running } else s.dies false)
  | .failed => some ({ s with err := (s.err.write ()).getD s.err }.dies true)
  | .running | .dead _ => none

/-- The child still has to become the shim. -/
def ChildPc.starting : ChildPc → Bool
  | .running | .dead _ => false
  | _ => true

/-- One step of the two. -/
def handshakeStep (env : HandshakeEnv) (s : Handshake) : HandshakeLabel → Option Handshake
  | .parent ok => s.parentTurn env ok
  | .child ok => s.childTurn env ok
  | .killed => if s.child.starting then some (s.dies false) else none

/-! ## What a step can do -/

/-- A failed call of the parent ends its function here. -/
def ParentPc.passesOn : ParentPc → Bool
  | .writesFd | .writesBase | .connects | .sendsFd => true
  | _ => false

/-- A failed call of the child leads to `child_failed` from here. -/
def ChildPc.canFail : ChildPc → Bool
  | .readsFd | .readsBase | .connects | .receivesFd | .dups | .locks | .setsUp => true
  | _ => false

/-- The steps, one constructor for each thing that can happen. -/
inductive Moves (env : HandshakeEnv) (s : Handshake) : Handshake → Prop
  | parentCloses (hpc : s.parent = .closes) :
    Moves env s { s with
      parent := .writesFd
      err := s.err.closeWriter .parent
      args := s.args.closeReader .parent
      sock := s.sock.closeReader .parent }
  | writesFd (hpc : s.parent = .writesFd) :
    Moves env s { s with
      args := { s.args with log := s.args.log ++ [env.proxyFd] }
      parent := .writesBase }
  | writesBase (hpc : s.parent = .writesBase) :
    Moves env s { s with
      args := { s.args with log := s.args.log ++ [env.ioBase] }
      parent := .connects }
  | parentConnects (hpc : s.parent = .connects) : Moves env s { s with parent := .sendsFd }
  | sendsFd (hpc : s.parent = .sendsFd) :
    Moves env s { s with
      sock := { s.sock with log := s.sock.log ++ [env.ioFd] }
      parent := .readsErr }
  | parentFails (hpc : s.parent.passesOn = true) : Moves env s (s.leaves false)
  | readsReport (hpc : s.parent = .readsErr) {x : Unit} (hx : s.err.log[s.err.taken]? = some x) :
    Moves env s ({ s with err := { s.err with taken := s.err.taken + 1 } }.leaves false)
  | readsEnd (hpc : s.parent = .readsErr) (hlog : s.err.log.length ≤ s.err.taken)
    (hwriters : s.err.writers = []) : Moves env s (s.leaves true)
  | readFails (hpc : s.parent = .readsErr) :
    Moves env s ({ s with readFailed := true }.leaves true)
  | childCloses (hpc : s.child = .closes) :
    Moves env s { s with
      child := .readsFd
      err := s.err.closeReader .child
      args := s.args.closeWriter .child
      sock := s.sock.closeWriter .child }
  | readsFd (hpc : s.child = .readsFd) {fd : Int32} (hx : s.args.log[s.args.taken]? = some fd) :
    Moves env s { s with
      args := { s.args with taken := s.args.taken + 1 }
      proxySocketFd := fd
      child := .readsBase }
  | readsBase (hpc : s.child = .readsBase) {base : Int32}
    (hx : s.args.log[s.args.taken]? = some base) :
    Moves env s { s with
      args := { s.args with taken := s.args.taken + 1 }
      proxyIoBase := base
      child := .connects }
  | childConnects (hpc : s.child = .connects) : Moves env s { s with child := .receivesFd }
  | receivesFd (hpc : s.child = .receivesFd) {fd : Nat}
    (hx : s.sock.log[s.sock.taken]? = some fd) :
    Moves env s { s with
      proxyIoFd := some fd
      child := .dups
      args := s.args.closeReader .child
      sock := Pipe.closeReader { s.sock with taken := s.sock.taken + 1 } .child }
  | dups (hpc : s.child = .dups) : Moves env s { s with child := .locks }
  | locks (hpc : s.child = .locks) : Moves env s { s with child := .setsUp }
  | setsUp (hpc : s.child = .setsUp) :
    Moves env s { s with child := .execs, err := s.err.closeWriter .child }
  | execs (hpc : s.child = .execs) : Moves env s { s with child := .running }
  | childFails (hpc : s.child.canFail = true) : Moves env s { s with child := .failed }
  | reports (hpc : s.child = .failed) :
    Moves env s ({ s with err := (s.err.write ()).getD s.err }.dies true)
  | ends (hpc : s.child.starting = true) : Moves env s (s.dies false)

section
variable {env : HandshakeEnv} {s t : Handshake} {ok : Bool}

/-- What a turn of the parent does. -/
theorem moves_of_parentTurn (h : s.parentTurn env ok = some t) : Moves env s t := by
  unfold Handshake.parentTurn at h
  split at h
  · next hpc =>
    cases h
    exact .parentCloses hpc
  · next hpc =>
    split at h
    · next args hwrite =>
      split_ifs at hwrite
      obtain ⟨-, rfl⟩ := Pipe.write_eq_some_iff.1 hwrite
      cases h
      exact .writesFd hpc
    · cases h
      exact .parentFails (by rw [hpc]; rfl)
  · next hpc =>
    split at h
    · next args hwrite =>
      split_ifs at hwrite
      obtain ⟨-, rfl⟩ := Pipe.write_eq_some_iff.1 hwrite
      cases h
      exact .writesBase hpc
    · cases h
      exact .parentFails (by rw [hpc]; rfl)
  · next hpc =>
    cases h
    split_ifs
    · exact .parentConnects hpc
    · exact .parentFails (by rw [hpc]; rfl)
  · next hpc =>
    split at h
    · next sock hwrite =>
      split_ifs at hwrite
      obtain ⟨-, rfl⟩ := Pipe.write_eq_some_iff.1 hwrite
      cases h
      exact .sendsFd hpc
    · cases h
      exact .parentFails (by rw [hpc]; rfl)
  · next hpc =>
    split_ifs at h
    · split at h
      · next x err hnext =>
        obtain ⟨hx, rfl⟩ := Pipe.next_eq_item_iff.1 hnext
        cases h
        exact .readsReport hpc hx
      · next hnext =>
        obtain ⟨hlog, hwriters⟩ := Pipe.next_eq_eof_iff.1 hnext
        cases h
        exact .readsEnd hpc hlog hwriters
      · cases h
    · cases h
      exact .readFails hpc
  · cases h

/-- A read of the child gets what was sent at its place, or fails. -/
theorem childReads_eq_some {α : Type} {pipe : Pipe Party α} {got : α → Pipe Party α → Handshake}
    (h : s.childReads pipe got ok = some t) :
    t = { s with child := .failed } ∨
      ∃ x, pipe.log[pipe.taken]? = some x ∧ t = got x { pipe with taken := pipe.taken + 1 } := by
  rw [Handshake.childReads] at h
  split_ifs at h
  · split at h
    · next x pipe' hnext =>
      obtain ⟨hx, rfl⟩ := Pipe.next_eq_item_iff.1 hnext
      exact .inr ⟨x, hx, (Option.some.inj h).symm⟩
    · exact .inl (Option.some.inj h).symm
    · cases h
  · exact .inl (Option.some.inj h).symm

theorem childCalls_eq_some {next : Handshake} (h : s.childCalls next ok = some t) :
    t = { s with child := .failed } ∨ t = next := by
  rw [Handshake.childCalls] at h
  split_ifs at h
  · exact .inr (Option.some.inj h).symm
  · exact .inl (Option.some.inj h).symm

/-- What a turn of the child does. -/
theorem moves_of_childTurn (h : s.childTurn env ok = some t) : Moves env s t := by
  unfold Handshake.childTurn at h
  split at h
  · next hpc =>
    cases h
    exact .childCloses hpc
  · next hpc =>
    rcases childReads_eq_some h with rfl | ⟨x, hx, rfl⟩
    · exact .childFails (by rw [hpc]; rfl)
    · exact .readsFd hpc hx
  · next hpc =>
    rcases childReads_eq_some h with rfl | ⟨x, hx, rfl⟩
    · exact .childFails (by rw [hpc]; rfl)
    · exact .readsBase hpc hx
  · next hpc =>
    rcases childCalls_eq_some h with rfl | rfl
    · exact .childFails (by rw [hpc]; rfl)
    · exact .childConnects hpc
  · next hpc =>
    rcases childReads_eq_some h with rfl | ⟨x, hx, rfl⟩
    · exact .childFails (by rw [hpc]; rfl)
    · exact .receivesFd hpc hx
  · next hpc =>
    rcases childCalls_eq_some h with rfl | rfl
    · exact .childFails (by rw [hpc]; rfl)
    · exact .dups hpc
  · next hpc =>
    split_ifs at h
    rcases childCalls_eq_some h with rfl | rfl
    · exact .childFails (by rw [hpc]; rfl)
    · exact .locks hpc
  · next hpc =>
    rcases childCalls_eq_some h with rfl | rfl
    · exact .childFails (by rw [hpc]; rfl)
    · exact .setsUp hpc
  · next hpc =>
    cases h
    split_ifs
    · exact .execs hpc
    · exact .ends (by rw [hpc]; rfl)
  · next hpc =>
    cases h
    exact .reports hpc
  · cases h
  · cases h

/-- What any step does. -/
theorem moves_of_handshakeStep {l : HandshakeLabel} (h : handshakeStep env s l = some t) :
    Moves env s t := by
  cases l with
  | parent ok => exact moves_of_parentTurn h
  | child ok => exact moves_of_childTurn h
  | killed =>
    rw [handshakeStep] at h
    split_ifs at h with hpc
    cases h
    exact .ends hpc

end

/-! ## What was passed on -/

/-- What the parent has written to the pipe and to the socket. -/
def ParentPc.Wrote (env : HandshakeEnv) (args : List Int32) (sock : List Nat) : ParentPc → Prop
  | .closes | .writesFd => args = [] ∧ sock = []
  | .writesBase => args = [env.proxyFd] ∧ sock = []
  | .connects | .sendsFd => args = [env.proxyFd, env.ioBase] ∧ sock = []
  | .readsErr | .returned true => args = [env.proxyFd, env.ioBase] ∧ sock = [env.ioFd]
  | .returned false =>
    args <+: [env.proxyFd, env.ioBase] ∧
      (sock = [] ∨ sock = [env.ioFd] ∧ args = [env.proxyFd, env.ioBase])

/-- What the child has read, with the places in the channels where it reads next. -/
def Handshake.Took (env : HandshakeEnv) (s : Handshake) : Prop :=
  match s.child with
  | .closes | .readsFd => s.args.taken = 0 ∧ s.sock.taken = 0
  | .readsBase => s.args.taken = 1 ∧ s.sock.taken = 0 ∧ s.proxySocketFd = env.proxyFd
  | .connects | .receivesFd =>
    s.args.taken = 2 ∧ s.sock.taken = 0 ∧ s.proxySocketFd = env.proxyFd ∧
      s.proxyIoBase = env.ioBase
  | .dups | .locks | .setsUp | .execs | .running =>
    s.sock.log ≠ [] ∧ s.proxySocketFd = env.proxyFd ∧ s.proxyIoBase = env.ioBase ∧
      s.proxyIoFd = some env.ioFd
  | .failed | .dead _ => True

/-- The child has what the parent has sent. -/
structure Passed (env : HandshakeEnv) (s : Handshake) : Prop where
  wrote : s.parent.Wrote env s.args.log s.sock.log
  took : s.Took env

section
variable {env : HandshakeEnv} {s t : Handshake}

/-- What was written is a beginning. -/
theorem ParentPc.Wrote.isPrefix {pc : ParentPc} {args : List Int32} {sock : List Nat}
    (h : pc.Wrote env args sock) :
    args <+: [env.proxyFd, env.ioBase] ∧ sock <+: [env.ioFd] := by
  cases pc with
  | returned ret =>
    cases ret with
    | true =>
      obtain ⟨rfl, rfl⟩ := h
      exact ⟨List.prefix_rfl, List.prefix_rfl⟩
    | false =>
      obtain ⟨hargs, rfl | ⟨rfl, -⟩⟩ := h
      · exact ⟨hargs, List.nil_prefix⟩
      · exact ⟨hargs, List.prefix_rfl⟩
  | closes | writesFd | connects | sendsFd | readsErr | writesBase =>
    obtain ⟨rfl, rfl⟩ := h
    simp

/-- Nothing has gone through the socket while the parent still passes on the rest. -/
theorem ParentPc.Wrote.sock_eq_nil {pc : ParentPc} {args : List Int32} {sock : List Nat}
    (h : pc.Wrote env args sock) (hpc : pc.passesOn = true) : sock = [] := by
  cases pc with
  | closes | readsErr | returned => cases hpc
  | writesFd | writesBase | connects | sendsFd => exact h.2

/-- What stands at a place of a part stands there in the whole. -/
theorem getElem?_of_isPrefix {α : Type} {xs ys : List α} {i : Nat} {x : α} (h : xs <+: ys)
    (hx : xs[i]? = some x) : ys[i]? = some x := by
  obtain ⟨rest, rfl⟩ := h
  rwa [List.getElem?_append_left (List.getElem?_eq_some_iff.1 hx).1]

/-- More on the socket does not change what the child has. -/
theorem Handshake.Took.send (h : s.Took env) (fd : Nat) (pc : ParentPc) :
    Handshake.Took env
      { s with sock := { s.sock with log := s.sock.log ++ [fd] }, parent := pc } := by
  have hne : s.sock.log ++ [fd] ≠ [] := List.append_ne_nil_of_right_ne_nil _ (List.cons_ne_nil _ _)
  unfold Handshake.Took at h ⊢
  cases hpc : s.child with
  | failed | dead => trivial
  | closes | readsFd | readsBase | connects | receivesFd => simpa only [hpc] using h
  | dups | locks | setsUp | execs | running =>
    simp only [hpc] at h ⊢
    exact ⟨hne, h.2⟩

/-- What was passed on stays right. -/
theorem Moves.passed (h : Passed env s) (hmove : Moves env s t) : Passed env t := by
  obtain ⟨hwrote, htook⟩ := id h
  obtain ⟨hargs, hsock⟩ := hwrote.isPrefix
  cases hmove with
  | parentCloses hpc =>
    rw [hpc] at hwrote
    exact ⟨hwrote, htook⟩
  | writesFd hpc =>
    rw [hpc] at hwrote
    exact ⟨⟨congrArg (· ++ [env.proxyFd]) hwrote.1, hwrote.2⟩, htook⟩
  | writesBase hpc =>
    rw [hpc] at hwrote
    exact ⟨⟨congrArg (· ++ [env.ioBase]) hwrote.1, hwrote.2⟩, htook⟩
  | parentConnects hpc =>
    rw [hpc] at hwrote
    exact ⟨hwrote, htook⟩
  | sendsFd hpc =>
    rw [hpc] at hwrote
    exact ⟨⟨hwrote.1, congrArg (· ++ [env.ioFd]) hwrote.2⟩, htook.send env.ioFd .readsErr⟩
  | parentFails hpc => exact ⟨⟨hargs, .inl (hwrote.sock_eq_nil hpc)⟩, htook⟩
  | readsReport hpc =>
    rw [hpc] at hwrote
    exact ⟨⟨hargs, .inr hwrote.symm⟩, htook⟩
  | readsEnd hpc | readFails hpc =>
    rw [hpc] at hwrote
    exact ⟨hwrote, htook⟩
  | childCloses hpc =>
    rw [Handshake.Took, hpc] at htook
    exact ⟨hwrote, htook⟩
  | readsFd hpc hx =>
    rw [Handshake.Took, hpc] at htook
    rw [htook.1] at hx
    have hfd := Option.some.inj (getElem?_of_isPrefix hargs hx)
    exact ⟨hwrote, congrArg (· + 1) htook.1, htook.2, hfd.symm⟩
  | readsBase hpc hx =>
    rw [Handshake.Took, hpc] at htook
    rw [htook.1] at hx
    have hbase := Option.some.inj (getElem?_of_isPrefix hargs hx)
    exact ⟨hwrote, congrArg (· + 1) htook.1, htook.2.1, htook.2.2, hbase.symm⟩
  | receivesFd hpc hx =>
    rw [Handshake.Took, hpc] at htook
    rw [htook.2.1] at hx
    have hfd := getElem?_of_isPrefix hsock hx
    have hne := List.ne_nil_of_length_pos (List.getElem?_eq_some_iff.1 hx).1
    exact ⟨hwrote, hne, htook.2.2.1, htook.2.2.2, hfd.symm⟩
  | childConnects hpc | dups hpc | locks hpc | setsUp hpc | execs hpc =>
    rw [Handshake.Took, hpc] at htook
    exact ⟨hwrote, htook⟩
  | childFails | reports | ends => exact ⟨hwrote, trivial⟩

end

/-! ## Who holds what -/

/-- The parent's function has returned. -/
def ParentPc.done : ParentPc → Bool
  | .returned _ => true
  | _ => false

/-- The child can still report a failure. -/
def ChildPc.holdsErr : ChildPc → Bool
  | .execs | .running | .dead _ => false
  | _ => true

/-- The holders of an end: the parent and the child, each if it has not closed it yet. -/
def holders (parent child : Bool) : List Party :=
  (if parent then [.parent] else []) ++ if child then [.child] else []

theorem filter_holders_parent (parent child : Bool) :
    (holders parent child).filter (· ≠ .parent) = holders false child := by
  cases parent <;> cases child <;> rfl

theorem filter_holders_child (parent child : Bool) :
    (holders parent child).filter (· ≠ .child) = holders parent false := by
  cases parent <;> cases child <;> rfl

theorem holders_eq_nil {parent child : Bool} (h : holders parent child = []) :
    parent = false ∧ child = false := by
  cases parent <;> cases child <;> simp_all [holders]

/-- The ends that are waited for are held by those processes only that still use them. -/
structure Ends (s : Handshake) : Prop where
  args : s.args.writers = holders (!s.parent.done) (s.child = .closes)
  sock : s.sock.writers = holders (!s.parent.done) (s.child = .closes)
  err : s.err.writers = holders (s.parent = .closes) s.child.holdsErr
  reader : s.parent.done = false → .parent ∈ s.err.readers

section
variable {env : HandshakeEnv} {s t : Handshake}

theorem ChildPc.holdsErr_of_canFail {pc : ChildPc} (h : pc.canFail = true) :
    decide (pc = .closes) = false ∧ pc.holdsErr = true := by
  cases pc with
  | closes | execs | failed | running | dead => cases h
  | readsFd | readsBase | connects | receivesFd | dups | locks | setsUp => exact ⟨rfl, rfl⟩

theorem ChildPc.holdsErr_of_not_starting {pc : ChildPc} (h : pc.starting = false) :
    pc.holdsErr = false := by
  cases pc with
  | running | dead => rfl
  | closes | readsFd | readsBase | connects | receivesFd | dups | locks | setsUp | execs | failed =>
    cases h

theorem ParentPc.done_of_passesOn {pc : ParentPc} (h : pc.passesOn = true) : pc.done = false := by
  cases pc with
  | closes | readsErr | returned => cases h
  | writesFd | writesBase | connects | sendsFd => rfl

theorem Ends.leaves (h : Ends s) (ret : Bool) : Ends (s.leaves ret) where
  args := (congrArg (List.filter _) h.args).trans (filter_holders_parent _ _)
  sock := (congrArg (List.filter _) h.sock).trans (filter_holders_parent _ _)
  err := (congrArg (List.filter _) h.err).trans (filter_holders_parent _ _)
  reader := nofun

theorem Ends.dies (h : Ends s) (reported : Bool) : Ends (s.dies reported) where
  args := (congrArg (List.filter _) h.args).trans (filter_holders_child _ _)
  sock := (congrArg (List.filter _) h.sock).trans (filter_holders_child _ _)
  err := (congrArg (List.filter _) h.err).trans (filter_holders_child _ _)
  reader := fun hdone => List.mem_filter.2 ⟨h.reader hdone, rfl⟩

/-- The ends that are open are those in use. -/
theorem Moves.ends_of (h : Ends s) (hmove : Moves env s t) : Ends t := by
  obtain ⟨hargs, hsock, herr, hreader⟩ := id h
  cases hmove with
  | parentCloses hpc =>
    rw [hpc] at hargs hsock hreader
    refine ⟨hargs, hsock, ?_, hreader⟩
    exact (congrArg (List.filter _) herr).trans (filter_holders_parent _ _)
  | writesFd hpc | writesBase hpc | parentConnects hpc | sendsFd hpc =>
    rw [hpc] at hargs hsock herr hreader
    exact ⟨hargs, hsock, herr, hreader⟩
  | parentFails => exact h.leaves false
  | readsReport =>
    apply Ends.leaves
    exact ⟨hargs, hsock, herr, hreader⟩
  | readsEnd => exact h.leaves true
  | readFails =>
    apply Ends.leaves
    exact ⟨hargs, hsock, herr, hreader⟩
  | childCloses hpc =>
    rw [hpc] at herr
    refine ⟨?_, ?_, herr, fun hdone => List.mem_filter.2 ⟨hreader hdone, rfl⟩⟩
    · exact (congrArg (List.filter _) hargs).trans (filter_holders_child _ _)
    · exact (congrArg (List.filter _) hsock).trans (filter_holders_child _ _)
  | readsFd hpc | readsBase hpc | childConnects hpc | receivesFd hpc | dups hpc | locks hpc =>
    rw [hpc] at hargs hsock herr
    exact ⟨hargs, hsock, herr, hreader⟩
  | setsUp hpc =>
    rw [hpc] at hargs hsock
    refine ⟨hargs, hsock, ?_, hreader⟩
    exact (congrArg (List.filter _) herr).trans (filter_holders_child _ _)
  | execs hpc =>
    rw [hpc] at hargs hsock herr
    exact ⟨hargs, hsock, herr, hreader⟩
  | childFails hpc =>
    obtain ⟨hcloses, hholds⟩ := ChildPc.holdsErr_of_canFail hpc
    rw [hcloses] at hargs hsock
    rw [hholds] at herr
    exact ⟨hargs, hsock, herr, hreader⟩
  | reports =>
    obtain ⟨hwriters, hreaders, -⟩ := Pipe.holders_write_getD s.err ()
    apply Ends.dies
    exact ⟨hargs, hsock, hwriters.trans herr, fun hdone => hreaders.symm ▸ hreader hdone⟩
  | ends => exact h.dies false

end

/-! ## The verdict of the parent -/

/-- The report, the parent's read of it and its result agree. -/
structure Verdict (s : Handshake) : Prop where
  report : s.err.log ≠ [] → s.child = .dead true
  unread : s.parent.done = false → s.err.taken = 0 ∧ s.readFailed = false
  heard : s.parent.done = false → s.child = .dead true → s.err.log ≠ []
  success : s.parent = .returned true → s.readFailed = false →
    s.child.holdsErr = false ∧ s.child ≠ .dead true
  failure : s.parent = .returned false →
    s.sock.log = [] ∨ s.child = .dead true ∧ s.readFailed = false

section
variable {env : HandshakeEnv} {s t : Handshake}

/-- A step of the parent within its function. -/
theorem Verdict.parentMoves (h : Verdict s) (hs : s.parent.done = false)
    (ht : t.parent.done = false) (hchild : t.child = s.child) (hlog : t.err.log = s.err.log)
    (htaken : t.err.taken = s.err.taken) (hfailed : t.readFailed = s.readFailed) : Verdict t where
  report := by rw [hlog, hchild]; exact h.report
  unread := by rw [htaken, hfailed]; exact fun _ => h.unread hs
  heard := by rw [hlog, hchild]; exact fun _ => h.heard hs
  success := fun hret => by rw [hret] at ht; cases ht
  failure := fun hret => by rw [hret] at ht; cases ht

/-- A step of the child that reports nothing. -/
theorem Verdict.childMoves (h : Verdict s) (hs : s.child ≠ .dead true) (ht : t.child ≠ .dead true)
    (hholds : s.child.holdsErr = false → t.child.holdsErr = false) (hparent : t.parent = s.parent)
    (hlog : t.err.log = s.err.log) (htaken : t.err.taken = s.err.taken)
    (hfailed : t.readFailed = s.readFailed) (hsock : t.sock.log = s.sock.log) : Verdict t where
  report := fun hne => absurd (h.report (hlog ▸ hne)) hs
  unread := by rw [hparent, htaken, hfailed]; exact h.unread
  heard := fun _ hdead => absurd hdead ht
  success := by
    rw [hparent, hfailed]
    intro hret hread
    exact ⟨hholds (h.success hret hread).1, ht⟩
  failure := by
    rw [hparent, hsock]
    intro hret
    exact .inl ((h.failure hret).resolve_right fun hdead => hs hdead.1)

/-- The verdict of the parent stays right. -/
theorem Moves.verdict (hpassed : Passed env s) (hends : Ends s) (h : Verdict s)
    (hmove : Moves env s t) : Verdict t := by
  cases hmove with
  | parentCloses hpc | writesFd hpc | writesBase hpc | parentConnects hpc | sendsFd hpc =>
    exact h.parentMoves (by rw [hpc]; rfl) rfl rfl rfl rfl rfl
  | parentFails hpc =>
    exact ⟨h.report, nofun, nofun, nofun, fun _ => .inl (hpassed.wrote.sock_eq_nil hpc)⟩
  | readsReport hpc hx =>
    have hdone : s.parent.done = false := by rw [hpc]; rfl
    have hdead : s.child = .dead true :=
      h.report (List.ne_nil_of_length_pos ((Nat.zero_le _).trans_lt
        (List.getElem?_eq_some_iff.1 hx).1))
    exact ⟨h.report, nofun, nofun, nofun, fun _ => .inr ⟨hdead, (h.unread hdone).2⟩⟩
  | readsEnd hpc hlog hwriters =>
    have hdone : s.parent.done = false := by rw [hpc]; rfl
    -- nobody can write any more, and a report would be there
    rw [(h.unread hdone).1, Nat.le_zero] at hlog
    rw [hends.err] at hwriters
    have hsilent : s.child ≠ .dead true :=
      fun hdead => h.heard hdone hdead (List.eq_nil_of_length_eq_zero hlog)
    exact ⟨h.report, nofun, nofun, fun _ _ => ⟨(holders_eq_nil hwriters).2, hsilent⟩, nofun⟩
  | readFails => exact ⟨h.report, nofun, nofun, nofun, nofun⟩
  | childCloses hpc | readsFd hpc | readsBase hpc | childConnects hpc | receivesFd hpc | dups hpc
  | locks hpc | setsUp hpc =>
    refine h.childMoves ?_ nofun ?_ rfl rfl rfl rfl rfl
    · rw [hpc]
      nofun
    · rw [hpc]
      nofun
  | execs hpc => exact h.childMoves (by rw [hpc]; nofun) nofun (fun _ => rfl) rfl rfl rfl rfl rfl
  | childFails hpc =>
    have hholds := (ChildPc.holdsErr_of_canFail hpc).2
    refine h.childMoves (fun hdead => ?_) nofun (fun hno => ?_) rfl rfl rfl rfl rfl
    · rw [hdead] at hholds
      cases hholds
    · rw [hno] at hholds
      cases hholds
  | reports hpc =>
    obtain ⟨-, -, htaken⟩ := Pipe.holders_write_getD s.err ()
    have hno : s.child ≠ .dead true := by rw [hpc]; nofun
    refine ⟨fun _ => rfl, fun hdone => ⟨htaken.trans (h.unread hdone).1, (h.unread hdone).2⟩,
      fun hdone _ => ?_, fun hret hread => ?_, fun hret => ?_⟩
    · have hreaders : s.err.readers ≠ [] := List.ne_nil_of_mem (hends.reader hdone)
      have hwrite := Pipe.write_eq_some_iff (x := ()).2 ⟨hreaders, rfl⟩
      simp [Handshake.dies, Pipe.leave, Pipe.closeWriter, Pipe.closeReader, hwrite]
    · have hheld := (h.success hret hread).1
      rw [hpc] at hheld
      cases hheld
    · exact .inl ((h.failure hret).resolve_right fun hdead => hno hdead.1)
  | ends hpc =>
    refine h.childMoves (fun hdead => ?_) nofun (fun _ => rfl) rfl rfl rfl rfl rfl
    rw [hdead] at hpc
    cases hpc

/-! ## Whole runs -/

/-- What holds after every run of the two. -/
structure Shaken (env : HandshakeEnv) (s : Handshake) : Prop where
  passed : Passed env s
  ends : Ends s
  verdict : Verdict s

theorem shaken_init : Shaken env {} where
  passed := ⟨⟨rfl, rfl⟩, rfl, rfl⟩
  ends := ⟨rfl, rfl, rfl, fun _ => List.mem_cons_self⟩
  verdict := ⟨nofun, fun _ => ⟨rfl, rfl⟩, nofun, nofun, nofun⟩

theorem Shaken.step {l : HandshakeLabel} (h : Shaken env s)
    (hstep : handshakeStep env s l = some t) : Shaken env t := by
  have hmove := moves_of_handshakeStep hstep
  exact ⟨hmove.passed h.passed, hmove.ends_of h.ends, hmove.verdict h.passed h.ends h.verdict⟩

theorem Shaken.exec {ls : List HandshakeLabel} (h : exec (handshakeStep env) {} ls = some t) :
    Shaken env t :=
  exec_invariant (fun _ _ _ hs _ hstep => hs.step hstep) shaken_init (meets_true ls _) h

theorem Shaken.took_of_running (h : Shaken env s) (hrun : s.child = .running) :
    s.proxySocketFd = env.proxyFd ∧ s.proxyIoBase = env.ioBase ∧ s.proxyIoFd = some env.ioFd := by
  have htook := h.passed.took
  rw [Handshake.Took, hrun] at htook
  exact htook.2

/-- The end of the child as the launch sees it, once it has come to one. -/
def ChildPc.childEnd? : ChildPc → Option ChildEnd
  | .running => some .exec
  | .dead true => some .reported
  | .dead false => some .silent
  | _ => none

theorem ChildPc.eq_dead_of_childEnd? {pc : ChildPc} (h : pc.childEnd? = some .reported) :
    pc = .dead true := by
  unfold ChildPc.childEnd? at h
  split at h
  · cases h
  · rfl
  · cases h
  · cases h

/-- **What the verdict means.** However the two processes take turns: a shim that runs has the
numbers and the descriptor that the parent has passed on; after a failure of the parent no shim runs
and none will; and once everything was sent and the child has come to its end, the result of the
parent is the one that the launch reads off this end. -/
theorem exec_handshake {ls : List HandshakeLabel}
    (h : CcOciRuntime.exec (handshakeStep env) {} ls = some t) :
    (t.child = .running → t.proxySocketFd = env.proxyFd ∧ t.proxyIoBase = env.ioBase ∧
        t.proxyIoFd = some env.ioFd) ∧
      (t.parent = .returned false → t.child ≠ .execs ∧ t.child ≠ .running) ∧
      ∀ ret e, t.parent = .returned ret → t.sock.log ≠ [] → t.child.childEnd? = some e →
        ret = decide (e.bytes (!t.readFailed) ≤ 0) := by
  obtain ⟨⟨-, htook⟩, -, hverdict⟩ := Shaken.exec h
  refine ⟨(Shaken.exec h).took_of_running, fun hret => ?_, fun ret e hret hsent hend => ?_⟩
  · -- a child that is this far has received the descriptor, and only a report fails the parent then
    refine ⟨fun hpc => ?_, fun hpc => ?_⟩
    · rw [Handshake.Took, hpc] at htook
      have hdead := ((hverdict.failure hret).resolve_left htook.1).1
      rw [hpc] at hdead
      cases hdead
    · rw [Handshake.Took, hpc] at htook
      have hdead := ((hverdict.failure hret).resolve_left htook.1).1
      rw [hpc] at hdead
      cases hdead
  · cases ret with
    | false =>
      obtain ⟨hdead, hread⟩ := (hverdict.failure hret).resolve_left hsent
      rw [hdead] at hend
      cases hend
      rw [hread]
      rfl
    | true =>
      cases hread : t.readFailed with
      | true => rfl
      | false =>
        have hsilent := (hverdict.success hret hread).2
        cases e with
        | reported =>
          exact absurd (ChildPc.eq_dead_of_childEnd? hend) hsilent
        | exec | silent => rfl

/-- The shim of a first workload. -/
def firstShim : HandshakeEnv where
  proxyFd := 9
  ioBase := 1
  ioFd := 11
  initialWorkload := true
  lockHeld := false

/-- The two in turn, up to the child that waits for the descriptor. -/
def firstTurns : List HandshakeLabel :=
  [.parent true, .child true, .parent true, .child true, .parent true, .child true, .parent true,
    .child true]

/-- The rest of the turns, up to the parent's result. -/
def lastTurns : List HandshakeLabel :=
  [.parent true, .child true, .child true, .child true, .child true, .child true, .parent true]

/-- A handshake that succeeds. -/
theorem exec_handshake_firstShim :
    ∃ t, CcOciRuntime.exec (handshakeStep firstShim) {} (firstTurns ++ lastTurns) = some t ∧
      t.parent = .returned true ∧ t.child = .running ∧ t.proxySocketFd = 9 ∧ t.proxyIoBase = 1 ∧
      t.proxyIoFd = some 11 := by
  have hrun : (CcOciRuntime.exec (handshakeStep firstShim) {} (firstTurns ++ lastTurns)).any
      (fun t => decide (t.parent = .returned true ∧ t.child = .running)) = true := rfl
  obtain ⟨t, ht, hend⟩ := (Option.any_eq_true _ _).1 hrun
  obtain ⟨hparent, hchild⟩ := of_decide_eq_true hend
  exact ⟨t, ht, hparent, hchild, (exec_handshake ht).1 hchild⟩

/-- What may still happen before the parent has returned. -/
def ParentPc.rank : ParentPc → Nat
  | .closes => 6
  | .writesFd => 5
  | .writesBase => 4
  | .connects => 3
  | .sendsFd => 2
  | .readsErr => 1
  | .returned _ => 0

/-- What may still happen before the child has come to its end. -/
def ChildPc.rank : ChildPc → Nat
  | .closes => 10
  | .readsFd => 9
  | .readsBase => 8
  | .connects => 7
  | .receivesFd => 6
  | .dups => 5
  | .locks => 4
  | .setsUp => 3
  | .execs => 2
  | .failed => 1
  | .running | .dead _ => 0

theorem ParentPc.rank_pos {pc : ParentPc} (h : pc.done = false) : 0 < pc.rank := by
  cases pc with
  | returned => cases h
  | closes | writesFd | writesBase | connects | sendsFd | readsErr => simp [ParentPc.rank]

theorem ChildPc.rank_pos {pc : ChildPc} (h : pc.starting = true) : 0 < pc.rank := by
  cases pc with
  | running | dead => cases h
  | closes | readsFd | readsBase | connects | receivesFd | dups | locks | setsUp | execs | failed =>
    simp [ChildPc.rank]

theorem ChildPc.one_lt_rank {pc : ChildPc} (h : pc.canFail = true) : 1 < pc.rank := by
  cases pc with
  | closes | execs | failed | running | dead => cases h
  | readsFd | readsBase | connects | receivesFd | dups | locks | setsUp => simp [ChildPc.rank]

/-- Every step brings one of the two closer to its end. -/
theorem Moves.rank_lt (hmove : Moves env s t) :
    t.parent.rank + t.child.rank < s.parent.rank + s.child.rank := by
  cases hmove with
  | parentCloses hpc | writesFd hpc | writesBase hpc | parentConnects hpc | sendsFd hpc =>
    simp [hpc, ParentPc.rank]
  | parentFails hpc =>
    exact Nat.add_lt_add_right (ParentPc.rank_pos (ParentPc.done_of_passesOn hpc)) _
  | readsReport hpc | readsEnd hpc | readFails hpc =>
    simp [hpc, ParentPc.rank, Handshake.leaves]
  | childCloses hpc | readsFd hpc | readsBase hpc | childConnects hpc | receivesFd hpc | dups hpc
  | locks hpc | setsUp hpc | execs hpc =>
    simp [hpc, ChildPc.rank]
  | childFails hpc => exact Nat.add_lt_add_left (ChildPc.one_lt_rank hpc) _
  | reports hpc => simp [hpc, ChildPc.rank, Handshake.dies]
  | ends hpc => exact Nat.add_lt_add_left (ChildPc.rank_pos hpc) _

/-- The parent waits for nothing but the error pipe. -/
theorem parentTurn_isSome (hdone : s.parent.done = false) (hpc : s.parent ≠ .readsErr) :
    (s.parentTurn env true).isSome := by
  unfold Handshake.parentTurn
  split
  · rfl
  · split <;> rfl
  · split <;> rfl
  · rfl
  · split <;> rfl
  · next h => exact absurd h hpc
  · next h =>
    rw [h] at hdone
    cases hdone

/-- The error pipe answers once the child cannot report any more. -/
theorem parentTurn_isSome_of_readsErr (hends : Ends s) (hpc : s.parent = .readsErr)
    (hholds : s.child.holdsErr = false) : (s.parentTurn env true).isSome := by
  have hwriters := hends.err
  rw [hpc, hholds] at hwriters
  simp only [Handshake.parentTurn, hpc]
  cases hnext : s.err.next with
  | item | eof => rfl
  | blocks => exact absurd hwriters (Pipe.next_eq_blocks_iff.1 hnext).2

/-- The child can read what is there, or the end. -/
theorem childReads_isSome {α : Type} {pipe : Pipe Party α} {got : α → Pipe Party α → Handshake}
    (h : pipe.taken < pipe.log.length ∨ pipe.writers = []) :
    (s.childReads pipe got true).isSome := by
  rw [Handshake.childReads, if_pos rfl]
  cases hnext : pipe.next with
  | item | eof => rfl
  | blocks =>
    obtain ⟨hlog, hwriters⟩ := Pipe.next_eq_blocks_iff.1 hnext
    exact absurd (h.resolve_left hlog.not_gt) hwriters

/-- The child waits for nothing once the parent waits or has returned, unless it is the lock. -/
theorem childTurn_isSome (hlock : env.initialWorkload = true → env.lockHeld = false)
    (h : Shaken env s) (hstarting : s.child.starting = true)
    (hparent : s.parent.done = true ∨ s.parent = .readsErr) :
    (s.childTurn env true).isSome := by
  obtain ⟨⟨hwrote, htook⟩, hends, -⟩ := h
  -- everything was sent, or nobody can send any more
  have hargs : s.child ≠ .closes → s.args.taken < 2 →
      s.args.taken < s.args.log.length ∨ s.args.writers = [] := by
    intro hne hlt
    rcases hparent with hdone | hpc
    · refine .inr ?_
      rw [hends.args, hdone, decide_eq_false hne]
      rfl
    · rw [hpc] at hwrote
      rw [hwrote.1]
      exact .inl hlt
  have hsock : s.child ≠ .closes → s.sock.taken < 1 →
      s.sock.taken < s.sock.log.length ∨ s.sock.writers = [] := by
    intro hne hlt
    rcases hparent with hdone | hpc
    · refine .inr ?_
      rw [hends.sock, hdone, decide_eq_false hne]
      rfl
    · rw [hpc] at hwrote
      rw [hwrote.2]
      exact .inl hlt
  unfold Handshake.childTurn
  split
  · rfl
  · next hpc =>
    rw [Handshake.Took, hpc] at htook
    exact childReads_isSome (hargs (by rw [hpc]; nofun) (by omega))
  · next hpc =>
    rw [Handshake.Took, hpc] at htook
    exact childReads_isSome (hargs (by rw [hpc]; nofun) (by omega))
  · rfl
  · next hpc =>
    rw [Handshake.Took, hpc] at htook
    exact childReads_isSome (hsock (by rw [hpc]; nofun) (by omega))
  · rfl
  · split_ifs with hheld
    · rw [hlock hheld.1] at hheld
      exact absurd hheld.2.2 nofun
    · rfl
  · rfl
  · rfl
  · rfl
  · next hpc =>
    rw [hpc] at hstarting
    cases hstarting
  · next hpc =>
    rw [hpc] at hstarting
    cases hstarting

/-- **Neither waits for ever.** Every run is short; and when no other process holds the lock, then
as long as the parent has not returned or the child has not come to its end, one of them can take a
turn, with no failure and no signal to help. -/
theorem exec_handshake_ends {ls : List HandshakeLabel}
    (h : CcOciRuntime.exec (handshakeStep env) {} ls = some t) :
    ls.length ≤ 16 ∧
      ((env.initialWorkload = true → env.lockHeld = false) →
        t.parent.done = true ∧ t.child.starting = false ∨
          (handshakeStep env t (.parent true)).isSome ∨
          (handshakeStep env t (.child true)).isSome) := by
  have hshaken := Shaken.exec h
  refine ⟨?_, fun hlock => ?_⟩
  · have hlen := length_le_of_exec (I := fun _ => True) (fun s => s.parent.rank + s.child.rank)
      (fun _ _ _ _ hstep => ⟨trivial, (moves_of_handshakeStep hstep).rank_lt⟩) trivial h
    exact (Nat.le_add_right _ _).trans hlen
  · cases hstarting : t.child.starting with
    | true =>
      cases hdone : t.parent.done with
      | true => exact .inr (.inr (childTurn_isSome hlock hshaken hstarting (.inl hdone)))
      | false =>
        by_cases hpc : t.parent = .readsErr
        · exact .inr (.inr (childTurn_isSome hlock hshaken hstarting (.inr hpc)))
        · exact .inr (.inl (parentTurn_isSome hdone hpc))
    | false =>
      cases hdone : t.parent.done with
      | true => exact .inl ⟨rfl, rfl⟩
      | false =>
        by_cases hpc : t.parent = .readsErr
        · refine .inr (.inl (parentTurn_isSome_of_readsErr hshaken.ends hpc ?_))
          exact ChildPc.holdsErr_of_not_starting hstarting
        · exact .inr (.inl (parentTurn_isSome hdone hpc))

/-- A handshake on its way. -/
theorem exec_handshake_ends_firstShim :
    ∃ t, CcOciRuntime.exec (handshakeStep firstShim) {} firstTurns = some t ∧
      t.child = .receivesFd ∧
      ((handshakeStep firstShim t (.parent true)).isSome ∨
        (handshakeStep firstShim t (.child true)).isSome) := by
  have hrun : (CcOciRuntime.exec (handshakeStep firstShim) {} firstTurns).any
      (fun t => decide (t.child = .receivesFd)) = true := rfl
  obtain ⟨t, ht, hend⟩ := (Option.any_eq_true _ _).1 hrun
  have hchild : t.child = .receivesFd := of_decide_eq_true hend
  refine ⟨t, ht, hchild, ((exec_handshake_ends ht).2 fun _ => rfl).resolve_left fun hdone => ?_⟩
  rw [hchild] at hdone
  exact absurd hdone.2 nofun

end

end Runtime

end CcOciRuntime
