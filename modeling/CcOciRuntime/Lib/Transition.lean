import Mathlib.Logic.Function.Basic

/-!
# Runs of a deterministic transition system

A system is a partial step function `σ → ι → Option σ`: the label carries the scheduler's choice
and every answer of the environment, and `none` says that the label is not enabled. `exec` is a
whole run, `Meets` says that every step of a run is taken under a guard, and `exec_invariant` is the
induction rule the safety proofs of this development use.
-/

namespace CcOciRuntime

/-- A partial deterministic step function over states `σ` and labels `ι`. -/
abbrev Stepper (σ ι : Type*) := σ → ι → Option σ

section
variable {σ ι : Type*} (step : Stepper σ ι)

/-- The state a run along `ls` reaches, when every label of it is enabled. -/
def exec : σ → List ι → Option σ
  | s, [] => some s
  | s, l :: ls => (step s l).bind fun t => exec t ls

/-- Every step of the run from `s` along `ls` is taken in a state that meets the guard `G`. -/
def Meets (G : σ → ι → Prop) : σ → List ι → Prop
  | _, [] => True
  | s, l :: ls => G s l ∧
    match step s l with
    | none => True
    | some t => Meets G t ls

instance Meets.decidable (G : σ → ι → Prop) [∀ s l, Decidable (G s l)] :
    ∀ s ls, Decidable (Meets step G s ls)
  | _, [] => isTrue trivial
  | s, l :: ls =>
    have : Decidable (match step s l with
        | none => True
        | some t => Meets step G t ls) :=
      match step s l with
      | none => isTrue trivial
      | some t => Meets.decidable G t ls
    inferInstanceAs (Decidable (_ ∧ _))

variable {step}

theorem exec_cons_eq_some {s u : σ} {l : ι} {ls : List ι} :
    exec step s (l :: ls) = some u ↔ ∃ t, step s l = some t ∧ exec step t ls = some u := by
  simp only [exec, Option.bind_eq_some_iff]

/-- What is left of a guarded run after its first step. -/
theorem Meets.tail {G : σ → ι → Prop} {s t : σ} {l : ι} {ls : List ι}
    (h : Meets step G s (l :: ls)) (ht : step s l = some t) : Meets step G t ls := by
  have := h.2
  rwa [ht] at this

/-- A guarded run splits at an append of its labels. -/
theorem Meets.split {G : σ → ι → Prop} : ∀ {ls ms : List ι} {s t : σ},
    Meets step G s (ls ++ ms) → exec step s ls = some t → Meets step G s ls ∧ Meets step G t ms
  | [], ms, s, t, h, ht => by
    cases ht
    exact ⟨trivial, h⟩
  | l :: ls, ms, s, t, h, ht => by
    obtain ⟨u, hu, hut⟩ := exec_cons_eq_some.1 ht
    obtain ⟨hls, hms⟩ := Meets.split (h.tail hu) hut
    refine ⟨⟨h.1, ?_⟩, hms⟩
    rw [hu]
    exact hls

/-- A guarded run followed by a guarded run from where it ends. -/
theorem Meets.append {G : σ → ι → Prop} : ∀ {ls ms : List ι} {s t : σ}, Meets step G s ls →
    exec step s ls = some t → Meets step G t ms → Meets step G s (ls ++ ms)
  | [], ms, s, t, _, ht, hms => by
    cases ht
    exact hms
  | l :: ls, ms, s, t, h, ht, hms => by
    obtain ⟨u, hu, hut⟩ := exec_cons_eq_some.1 ht
    have hrest : Meets step G u (ls ++ ms) := (h.tail hu).append hut hms
    refine ⟨h.1, ?_⟩
    rw [hu]
    exact hrest

/-- The guard that is always met. -/
theorem meets_true : ∀ (ls : List ι) (s : σ), Meets step (fun _ _ => True) s ls
  | [], _ => trivial
  | l :: ls, s => ⟨trivial, by
    cases step s l with
    | none => trivial
    | some t => exact meets_true ls t⟩

/-- **The invariant rule.** What a guarded step preserves, a guarded run preserves. -/
theorem exec_invariant {G : σ → ι → Prop} {I : σ → Prop}
    (hstep : ∀ s l t, I s → G s l → step s l = some t → I t) :
    ∀ {ls : List ι} {s u : σ}, I s → Meets step G s ls → exec step s ls = some u → I u
  | [], s, u, hs, _, h => by
    cases h
    exact hs
  | l :: ls, s, u, hs, hm, h => by
    obtain ⟨t, ht, hu⟩ := exec_cons_eq_some.1 h
    exact exec_invariant hstep (hstep s l t hs hm.1 ht) (hm.tail ht) hu

/-- **The measure rule.** When from every state that is not done some step under the guard makes the
measure smaller, a guarded run ends in a state that is done. -/
theorem exists_exec_of_measure {G : σ → ι → Prop} {I Done : σ → Prop} (μ : σ → Nat)
    (hstep : ∀ s, I s → ¬ Done s → ∃ l t, G s l ∧ step s l = some t ∧ I t ∧ μ t < μ s) (s : σ)
    (hs : I s) : ∃ ls t, Meets step G s ls ∧ exec step s ls = some t ∧ I t ∧ Done t := by
  induction hn : μ s using Nat.strongRecOn generalizing s with
  | ind n ih =>
    by_cases hdone : Done s
    · exact ⟨[], s, trivial, rfl, hs, hdone⟩
    · obtain ⟨l, t, hl, ht, hIt, hlt⟩ := hstep s hs hdone
      obtain ⟨ls, u, hls, hu, hIu, hdu⟩ := ih (μ t) (hn ▸ hlt) t hIt rfl
      refine ⟨l :: ls, u, ⟨hl, ?_⟩, exec_cons_eq_some.2 ⟨t, ht, hu⟩, hIu, hdu⟩
      rw [ht]
      exact hls

/-- A measure that every step makes smaller bounds the length of a run. -/
theorem length_le_of_exec {I : σ → Prop} (μ : σ → Nat)
    (hstep : ∀ s l t, I s → step s l = some t → I t ∧ μ t < μ s) :
    ∀ {ls : List ι} {s t : σ}, I s → exec step s ls = some t → ls.length + μ t ≤ μ s
  | [], s, t, _, h => by
    cases h
    simp
  | l :: ls, s, u, hs, h => by
    obtain ⟨t, ht, hu⟩ := exec_cons_eq_some.1 h
    obtain ⟨hIt, hlt⟩ := hstep s l t hs ht
    have hrest := length_le_of_exec μ hstep hIt hu
    rw [List.length_cons]
    omega

end

end CcOciRuntime
