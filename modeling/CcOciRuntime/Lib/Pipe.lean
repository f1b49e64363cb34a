import Mathlib.Data.List.Basic

/-!
# Pipes between processes

A pipe carries items from its write end to its read end, and each end is held by some processes: a
`fork` leaves copies in both. A read that finds no item meets the end of the file if nobody holds
the write end, and blocks otherwise; a write fails if nobody holds the read end. The items that were
read are kept, so that the history of a pipe is one list and a position in it.
-/

namespace CcOciRuntime

/-- A pipe of items `α` between processes `P`. -/
structure Pipe (P α : Type*) where
  log : List α := []
  /-- the number of items that have been read -/
  taken : Nat := 0
  writers : List P
  readers : List P

/-- The answer to a read. -/
inductive PipeRead (P α : Type*)
  | item (x : α) (pipe : Pipe P α)
  | eof
  | blocks

section
variable {P α : Type*}

/-- A pipe whose ends are held by all of `ps`. -/
def Pipe.shared (ps : List P) : Pipe P α where
  writers := ps
  readers := ps

/-- A write; `none` when nobody could read it. -/
def Pipe.write (pipe : Pipe P α) (x : α) : Option (Pipe P α) :=
  if pipe.readers = [] then none else some { pipe with log := pipe.log ++ [x] }

/-- A read. -/
def Pipe.next (pipe : Pipe P α) : PipeRead P α :=
  match pipe.log[pipe.taken]? with
  | some x => .item x { pipe with taken := pipe.taken + 1 }
  | none => if pipe.writers = [] then .eof else .blocks

/-- A process closes its copy of the write end. -/
def Pipe.closeWriter [DecidableEq P] (pipe : Pipe P α) (p : P) : Pipe P α :=
  { pipe with writers := pipe.writers.filter (· ≠ p) }

/-- A process closes its copy of the read end. -/
def Pipe.closeReader [DecidableEq P] (pipe : Pipe P α) (p : P) : Pipe P α :=
  { pipe with readers := pipe.readers.filter (· ≠ p) }

/-- A process closes what it holds of the pipe. -/
def Pipe.leave [DecidableEq P] (pipe : Pipe P α) (p : P) : Pipe P α :=
  (pipe.closeWriter p).closeReader p

variable {pipe pipe' : Pipe P α} {x : α}

/-- When an item can be written. -/
theorem Pipe.write_eq_some_iff :
    pipe.write x = some pipe' ↔
      pipe.readers ≠ [] ∧ pipe' = { pipe with log := pipe.log ++ [x] } := by
  rw [Pipe.write]
  split_ifs with h
  · simp [h]
  · simp [h, eq_comm]

/-- A write, whatever its answer, leaves the holders as they are. -/
theorem Pipe.holders_write_getD (pipe : Pipe P α) (x : α) :
    ((pipe.write x).getD pipe).writers = pipe.writers ∧
      ((pipe.write x).getD pipe).readers = pipe.readers ∧
        ((pipe.write x).getD pipe).taken = pipe.taken := by
  rw [Pipe.write]
  split_ifs
  · exact ⟨rfl, rfl, rfl⟩
  · exact ⟨rfl, rfl, rfl⟩

/-- When a read takes an item. -/
theorem Pipe.next_eq_item_iff :
    pipe.next = .item x pipe' ↔
      pipe.log[pipe.taken]? = some x ∧ pipe' = { pipe with taken := pipe.taken + 1 } := by
  rw [Pipe.next]
  split
  · next y hy => simp [hy, eq_comm]
  · next hnone =>
    split_ifs
    · simp [hnone]
    · simp [hnone]

/-- When it meets the end. -/
theorem Pipe.next_eq_eof_iff :
    pipe.next = .eof ↔ pipe.log.length ≤ pipe.taken ∧ pipe.writers = [] := by
  rw [← List.getElem?_eq_none_iff, Pipe.next]
  split
  · next y hy => simp [hy]
  · next hnone =>
    split_ifs with hw
    · simp [hnone, hw]
    · simp [hw]

/-- When it waits. -/
theorem Pipe.next_eq_blocks_iff :
    pipe.next = .blocks ↔ pipe.log.length ≤ pipe.taken ∧ pipe.writers ≠ [] := by
  rw [← List.getElem?_eq_none_iff, Pipe.next]
  split
  · next y hy => simp [hy]
  · next hnone =>
    split_ifs with hw
    · simp [hw]
    · simp [hnone, hw]

end

end CcOciRuntime
