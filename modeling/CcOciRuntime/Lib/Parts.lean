import Mathlib.Data.List.Perm.Basic

/-!
# Steps on parts of a state

A step that can fail and works on one part of a state: what it makes of the part depends on the part
alone, and the rest of the state stays as it is (`Part.Confines`). Two such steps commute where
neither changes what the other reads (`Part.Confines.commute`), and a run of steps that commute in
pairs has the same result in any order (`foldlM_perm`). What does depend on the order is which error
comes first, so these two leave the errors aside.
-/

namespace CcOciRuntime

/-- A part of a state: what of it is read, and how it is replaced. What is read can be more than
what is replaced. -/
structure Part (σ α : Type*) where
  get : σ → α
  set : σ → α → σ
  set_get : ∀ s, set s (get s) = s
  set_set : ∀ s a b, set (set s a) b = set s b

namespace Part

variable {σ α β ε : Type*} {p : Part σ α} {q : Part σ β} {f g : σ → Except ε σ}

/-- A step that works on a part. -/
structure Confines (p : Part σ α) (f : σ → Except ε σ) : Prop where
  reads : ∀ s s', p.get s = p.get s' → (f s).map p.get = (f s').map p.get
  writes : ∀ s t, f s = .ok t → t = p.set s (p.get t)

/-- A function of the part, when nothing is read that is not replaced. -/
theorem Confines.of_map {h : α → Except ε α} (hget : ∀ s a, p.get (p.set s a) = a)
    (hf : ∀ s, f s = (h (p.get s)).map (p.set s)) : p.Confines f := by
  have hval : ∀ s, (f s).map p.get = h (p.get s) := by
    intro s
    rw [hf]
    cases h (p.get s) with
    | error e => rfl
    | ok a => exact congrArg Except.ok (hget s a)
  refine ⟨fun s s' hs => ?_, fun s t ht => ?_⟩
  · rw [hval, hval, hs]
  · rw [hf] at ht
    cases ha : h (p.get s) with
    | error e =>
      rw [ha] at ht
      cases ht
    | ok a =>
      rw [ha] at ht
      obtain rfl := Except.ok.inj ht
      rw [hget]

/-- A step that cannot fail. -/
theorem Confines.of_total {h : σ → σ}
    (hreads : ∀ s s', p.get s = p.get s' → p.get (h s) = p.get (h s'))
    (hwrites : ∀ s, h s = p.set s (p.get (h s))) :
    p.Confines fun s => (.ok (h s) : Except ε σ) := by
  refine ⟨fun s s' hs => congrArg Except.ok (hreads s s' hs), fun s t ht => ?_⟩
  obtain rfl := Except.ok.inj ht
  exact hwrites s

/-- What a step on a part says of its part, after a step that leaves what it reads alone. -/
theorem Confines.eq_of_get_eq (hf : p.Confines f) {s s' : σ} (hs : p.get s' = p.get s) :
    (∀ e, f s = .error e → f s' = .error e) ∧
      ∀ t, f s = .ok t → ∃ t', f s' = .ok t' ∧ p.get t' = p.get t := by
  have hval := hf.reads s' s hs
  refine ⟨fun e he => ?_, fun t ht => ?_⟩
  · rw [he] at hval
    cases hs' : f s' with
    | error e' =>
      rw [hs'] at hval
      exact congrArg Except.error (Except.error.inj hval)
    | ok t' =>
      rw [hs'] at hval
      cases hval
  · rw [ht] at hval
    cases hs' : f s' with
    | error e' =>
      rw [hs'] at hval
      cases hval
    | ok t' =>
      rw [hs'] at hval
      exact ⟨t', rfl, Except.ok.inj hval⟩

/-- Whether a step fails, and how, depends on its part. -/
theorem Confines.error_iff (hf : p.Confines f) {s s' : σ} (hs : p.get s' = p.get s) {e : ε} :
    f s' = .error e ↔ f s = .error e :=
  ⟨(hf.eq_of_get_eq hs.symm).1 e, (hf.eq_of_get_eq hs).1 e⟩

/-- A part that writing this one spares keeps its value. -/
theorem Confines.get_eq (hf : p.Confines f) {s t : σ} (hpq : ∀ a, q.get (p.set s a) = q.get s)
    (h : f s = .ok t) : q.get t = q.get s := by
  rw [hf.writes s t h]
  exact hpq _

/-- One step after the other. -/
theorem Confines.bind (hf : p.Confines f) (hg : p.Confines g) :
    p.Confines fun s => (f s).bind g := by
  refine ⟨fun s s' hs => ?_, fun s u hu => ?_⟩
  · cases ht : f s with
    | error e =>
      rw [(hf.eq_of_get_eq hs.symm).1 e ht]
    | ok t =>
      obtain ⟨t', ht', hget⟩ := (hf.eq_of_get_eq hs.symm).2 t ht
      rw [ht']
      exact hg.reads t t' hget.symm
  · cases ht : f s with
    | error e =>
      rw [ht] at hu
      cases hu
    | ok t =>
      rw [ht] at hu
      calc u = p.set t (p.get u) := hg.writes t u hu
        _ = p.set (p.set s (p.get t)) (p.get u) := by rw [← hf.writes s t ht]
        _ = p.set s (p.get u) := p.set_set s _ _

/-- A run of steps. -/
theorem Confines.foldl {ι : Type*} {h : σ → ι → σ} {is : List ι}
    (hstep : ∀ i ∈ is, p.Confines fun s => (.ok (h s i) : Except ε σ)) :
    p.Confines fun s => (.ok (is.foldl h s) : Except ε σ) := by
  induction is with
  | nil => exact .of_total (fun _ _ hs => hs) fun s => (p.set_get s).symm
  | cons i is ih =>
    have hi := hstep i List.mem_cons_self
    exact hi.bind (ih fun j hj => hstep j (List.mem_cons_of_mem i hj))

/-- **Two steps commute** where neither changes what the other reads. -/
theorem Confines.commute (hf : p.Confines f) (hg : q.Confines g) {s : σ}
    (hleft : ∀ t, f s = .ok t → q.get t = q.get s) (hright : ∀ u, g s = .ok u → p.get u = p.get s)
    (hcomm : ∀ a b, q.set (p.set s a) b = p.set (q.set s b) a) :
    ((f s).bind g).toOption = ((g s).bind f).toOption := by
  cases ht : f s with
  | error e =>
    cases hu : g s with
    | error e' => rfl
    | ok u =>
      change none = (f u).toOption
      rw [(hf.eq_of_get_eq (hright u hu)).1 e ht]
      rfl
  | ok t =>
    cases hu : g s with
    | error e =>
      change (g t).toOption = none
      rw [(hg.eq_of_get_eq (hleft t ht)).1 e hu]
      rfl
    | ok u =>
      obtain ⟨v, hv, hqv⟩ := (hg.eq_of_get_eq (hleft t ht)).2 u hu
      obtain ⟨w, hw, hpw⟩ := (hf.eq_of_get_eq (hright u hu)).2 t ht
      -- either way the parts are those that each step makes of `s`
      have hvw : v = w :=
        calc v = q.set t (q.get u) := by rw [← hqv, ← hg.writes t v hv]
          _ = q.set (p.set s (p.get t)) (q.get u) := by rw [← hf.writes s t ht]
          _ = p.set (q.set s (q.get u)) (p.get t) := hcomm _ _
          _ = p.set u (p.get t) := by rw [← hg.writes s u hu]
          _ = w := by rw [← hpw, ← hf.writes u w hw]
      change (g t).toOption = (f u).toOption
      rw [hv, hw, hvw]

end Part

/-- A run that goes on from what the first step makes. -/
theorem toOption_foldlM_cons {ι σ ε : Type*} {step : σ → ι → Except ε σ} (i : ι) (is : List ι)
    (s : σ) : ((i :: is).foldlM step s).toOption =
      (step s i).toOption.bind fun t => (is.foldlM step t).toOption := by
  rw [List.foldlM_cons]
  cases step s i <;> rfl

/-- **The order of a run** whose steps commute in pairs, in the states that an invariant allows. -/
theorem foldlM_perm {ι σ ε : Type*} {step : σ → ι → Except ε σ} {is is' : List ι}
    (hperm : is.Perm is') (P : σ → Prop)
    (hstep : ∀ i ∈ is, ∀ s t, P s → step s i = .ok t → P t)
    (hcomm : ∀ i ∈ is, ∀ j ∈ is, ∀ s, P s →
      ((step s i).bind (step · j)).toOption = ((step s j).bind (step · i)).toOption)
    {s : σ} (hs : P s) : (is.foldlM step s).toOption = (is'.foldlM step s).toOption := by
  induction hperm generalizing s with
  | nil => rfl
  | cons i hperm ih =>
    rw [toOption_foldlM_cons, toOption_foldlM_cons]
    cases ht : step s i with
    | error e => rfl
    | ok t =>
      refine ih (fun j hj => hstep j (List.mem_cons_of_mem i hj)) ?_
        (hstep i List.mem_cons_self s t hs ht)
      exact fun j hj k hk => hcomm j (List.mem_cons_of_mem i hj) k (List.mem_cons_of_mem i hk)
  | swap i j is =>
    have htwo : ∀ a b : ι, ((a :: b :: is).foldlM step s).toOption =
        ((step s a).bind (step · b)).toOption.bind fun t => (is.foldlM step t).toOption := by
      intro a b
      rw [toOption_foldlM_cons]
      cases step s a with
      | error e => rfl
      | ok t => exact toOption_foldlM_cons b is t
    rw [htwo, htwo, hcomm j List.mem_cons_self i (List.mem_cons_of_mem j List.mem_cons_self) s hs]
  | trans hperm _ ih ih' =>
    refine (ih hstep hcomm hs).trans (ih' (fun i hi => hstep i (hperm.mem_iff.2 hi)) ?_ hs)
    exact fun i hi j hj => hcomm i (hperm.mem_iff.2 hi) j (hperm.mem_iff.2 hj)

end CcOciRuntime
