import Mathlib.Data.List.Basic
import Mathlib.Data.List.Forall2
import Mathlib.Data.List.ReduceOption

/-!
# Sequences of steps that can stop

A piece of straight-line code whose steps can each end it early is a list of steps `ls : List ι`,
run from left to right by `foldlM` with a step function `σ → ι → Except ε σ`. When it is known
beforehand which steps stop (`stops : ι → Bool`), the run ends at the first of these, and
`foldlM_stages` gives what holds there from what each step that goes on preserves. What every step
preserves, however it ends, holds of the state in which the run ends (`foldlM_keeps`).
-/

namespace CcOciRuntime

section
variable {ι σ ε : Type*} (step : σ → ι → Except ε σ) (stops : ι → Bool) (I : List ι → σ → Prop)

/-- **The rule of stages.** The invariant is about the steps taken so far and the state after them.
A run takes all its steps, or it ends as its first step that stops does, in a state that the steps
before it lead to. -/
theorem foldlM_stages : ∀ (ls pre : List ι) (s : σ), I pre s →
    (∀ pre' k post s, pre ++ ls = pre' ++ k :: post → I pre' s → stops k = false →
      ∃ s', step s k = .ok s' ∧ I (pre' ++ [k]) s') →
    (ls.find? stops = none ∧ ∃ s', ls.foldlM step s = .ok s' ∧ I (pre ++ ls) s') ∨
    ∃ pre' k post s', ls.find? stops = some k ∧ pre ++ ls = pre' ++ k :: post ∧ I pre' s' ∧
      ∀ e, step s' k = .error e → ls.foldlM step s = .error e
  | [], pre, s, hs, _ => .inl ⟨rfl, s, rfl, by rwa [List.append_nil]⟩
  | k :: ls, pre, s, hs, hstep => by
    cases hk : stops k with
    | true =>
      refine .inr ⟨pre, k, ls, s, List.find?_cons_of_pos hk, rfl, hs, ?_⟩
      intro e he
      rw [List.foldlM_cons, he]
      rfl
    | false =>
      obtain ⟨t, ht, hI⟩ := hstep pre k ls s rfl hs hk
      have happend : pre ++ k :: ls = (pre ++ [k]) ++ ls := by simp
      have hrun : (k :: ls).foldlM step s = ls.foldlM step t := by
        rw [List.foldlM_cons, ht]
        rfl
      have hfind : (k :: ls).find? stops = ls.find? stops :=
        List.find?_cons_of_neg (by simp [hk])
      rw [hrun, hfind, happend]
      exact foldlM_stages ls (pre ++ [k]) t hI (happend ▸ hstep)

end

/-- The state in which a run ends, whether all its steps are taken or one of them stops it. -/
def stateOf {σ ε : Type*} : Except (ε × σ) σ → σ
  | .ok s => s
  | .error (_, s) => s

/-- What each step preserves, however it ends, a run preserves. -/
theorem foldlM_keeps {ι σ ε : Type*} {step : σ → ι → Except (ε × σ) σ} {P : σ → Prop}
    (hstep : ∀ s k, P s → P (stateOf (step s k))) :
    ∀ (ls : List ι) {s : σ}, P s → P (stateOf (ls.foldlM step s))
  | [], _, hs => hs
  | k :: ls, s, hs => by
    have hnext := hstep s k hs
    rw [List.foldlM_cons]
    cases hk : step s k with
    | error e => rwa [hk] at hnext
    | ok t =>
      rw [hk] at hnext
      exact foldlM_keeps hstep ls hnext

/-- What stands before an element of a list without repetitions. -/
theorem eq_takeWhile_of_nodup {ι : Type*} [DecidableEq ι] {ls pre post : List ι} {k : ι}
    (hls : ls.Nodup) (h : ls = pre ++ k :: post) : pre = ls.takeWhile (· ≠ k) := by
  subst h
  have hpre : ∀ j ∈ pre, decide (j ≠ k) = true := by
    intro j hj
    refine decide_eq_true ?_
    rintro rfl
    exact (List.nodup_append.1 hls).2.2 j hj j List.mem_cons_self rfl
  rw [List.takeWhile_append_of_pos hpre, List.takeWhile_cons_of_neg (by simp), List.append_nil]

/-! ## Runs that succeed -/

theorem eq_ok_of_toOption {ε σ : Type*} {r : Except ε σ} {s : σ} (h : r.toOption = some s) :
    r = .ok s := by
  cases r with
  | error e => cases h
  | ok t => rw [Option.some.inj h]

theorem bind_eq_ok_iff {ε α β : Type*} {r : Except ε α} {f : α → Except ε β} {b : β} :
    r.bind f = .ok b ↔ ∃ a, r = .ok a ∧ f a = .ok b := by
  cases r with
  | error e => exact iff_of_false (by simp [Except.bind]) (by simp)
  | ok a => simp [Except.bind]

theorem map_eq_ok_iff {ε α β : Type*} {r : Except ε α} {f : α → β} {b : β} :
    r.map f = .ok b ↔ ∃ a, r = .ok a ∧ f a = b := by
  cases r with
  | error e => exact iff_of_false (by simp [Except.map]) (by simp)
  | ok a => simp [Except.map]

/-- A run that succeeds has taken its first step. -/
theorem foldlM_cons_eq_ok_iff {ι σ ε : Type*} {step : σ → ι → Except ε σ} {i : ι} {is : List ι}
    {s t : σ} : (i :: is).foldlM step s = .ok t ↔
      ∃ s₁, step s i = .ok s₁ ∧ is.foldlM step s₁ = .ok t := by
  rw [List.foldlM_cons]
  exact bind_eq_ok_iff

/-- What every step keeps, a run keeps that succeeds. -/
theorem foldlM_invariant {ι σ ε : Type*} {step : σ → ι → Except ε σ} {P : σ → Prop}
    (hstep : ∀ {s t} i, P s → step s i = .ok t → P t) {is : List ι} {s t : σ} (hs : P s)
    (h : is.foldlM step s = .ok t) : P t := by
  induction is generalizing s with
  | nil =>
    cases h
    exact hs
  | cons i is ih =>
    obtain ⟨s₁, hi, hrest⟩ := foldlM_cons_eq_ok_iff.1 h
    exact ih (hstep i hs hi) hrest

/-! ## Lists of results -/

section
variable {α β γ : Type*} {f : α → Option β} {xs : List α}

/-- The results of a list whose elements correspond to those of another one. -/
theorem mapM_of_forall₂ {g : γ → β} {zs : List γ}
    (h : List.Forall₂ (fun x z => f x = some (g z)) xs zs) : xs.mapM f = some (zs.map g) := by
  induction h with
  | nil => rfl
  | cons hx _ ih =>
    rw [List.mapM_cons, hx, ih]
    rfl

theorem mapM_of_forall {g : α → β} (h : ∀ x ∈ xs, f x = some (g x)) :
    xs.mapM f = some (xs.map g) :=
  mapM_of_forall₂ (List.forall₂_same.2 h)

theorem reduceOption_map_some (g : α → β) (xs : List α) :
    (xs.map fun x => some (g x)).reduceOption = xs.map g := by
  rw [List.reduceOption, List.filterMap_map]
  exact congrFun List.filterMap_eq_map' xs

/-- One element without a result is enough for there to be none. -/
theorem mapM_of_none {x : α} (hx : x ∈ xs) (h : f x = none) : xs.mapM f = none := by
  obtain ⟨pre, post, rfl⟩ := List.append_of_mem hx
  rw [List.mapM_append, List.mapM_cons, h]
  cases pre.mapM f <;> rfl

end

end CcOciRuntime
