import XLayerReth.Lib.Runs

/-!
# Simulations between partial transition systems

A relation between the states of two systems that each step of the first carries to a run of the
second, possibly empty.

* `Simulates` — such a relation; `Simulates.run` carries it along a whole run;
* `Simulates.ofMap` — the case of a map from states to states: a component of a larger system, or
  an abstraction of its state.
-/

set_option autoImplicit false

namespace XLayerReth.Lib

variable {S A T B : Type}

/-- Every step of the first system, from related states, is a run of the second. -/
def Simulates (stepT : T → B → Option T) (stepS : S → A → Option S) (R : T → S → Prop) : Prop :=
  ∀ t b t' s, R t s → stepT t b = some t' → ∃ acts s', runFrom stepS s acts = some s' ∧ R t' s'

variable {stepT : T → B → Option T} {stepS : S → A → Option S} {R : T → S → Prop}

/-- **Simulation rule**: a run of the first system is a run of the second. -/
theorem Simulates.run (hR : Simulates stepT stepS R) {t t' : T} {s : S} {bs : List B}
    (h : R t s) (hrun : runFrom stepT t bs = some t') :
    ∃ acts s', runFrom stepS s acts = some s' ∧ R t' s' := by
  induction bs generalizing t s with
  | nil =>
    cases hrun
    exact ⟨[], s, rfl, h⟩
  | cons b bs ih =>
    obtain ⟨t₁, hstep, hrest⟩ := Option.bind_eq_some_iff.mp hrun
    obtain ⟨acts₁, s₁, hacts₁, h₁⟩ := hR t b t₁ s h hstep
    obtain ⟨acts₂, s₂, hacts₂, h₂⟩ := ih h₁ hrest
    refine ⟨acts₁ ++ acts₂, s₂, ?_, h₂⟩
    rw [runFrom_append, hacts₁]
    exact hacts₂

/-- A map of states under which a step of the first system is a run of the second. -/
theorem Simulates.ofMap (f : T → S)
    (h : ∀ t b t', stepT t b = some t' → ∃ acts, runFrom stepS (f t) acts = some (f t')) :
    Simulates stepT stepS (fun t s => s = f t) := by
  rintro t b t' s rfl hstep
  obtain ⟨acts, hacts⟩ := h t b t' hstep
  exact ⟨acts, f t', hacts, rfl⟩

/-- What a component has reached in a run of the larger system it reaches in a run of its own. -/
theorem Simulates.run_map {f : T → S} (hf : Simulates stepT stepS (fun t s => s = f t))
    {t t' : T} {bs : List B} (hrun : runFrom stepT t bs = some t') :
    ∃ acts, runFrom stepS (f t) acts = some (f t') := by
  obtain ⟨acts, s', hacts, rfl⟩ := hf.run rfl hrun
  exact ⟨acts, hacts⟩

end XLayerReth.Lib
