import Mathlib.Data.List.Induction

/-!
# Runs of a partial transition system

A system is a step function that may refuse an action.  A run performs a list of actions and stops
with `none` as soon as one is refused.

* `runFrom` — a run from a state;
* `runFrom_append`, `runFrom_concat` — composing runs, and splitting off the last action;
* `runFrom_induction` — the invariant rule, with the actions so far;
* `runFrom_ok` — the invariant rule where only some steps carry the invariant;
* `runFrom_safe_iff` — the rule for the exact condition under which a property holds throughout a
  run;
* `Occurs` — some step of a run is of a kind, and `occurs_concat`, by which facts about what has
  occurred are proved along a run;
* `LoggedAt` — the step that made an entry of a log which steps only append to, with
  `exists_loggedAt` and `LoggedAt.le` (later entries, later steps).
-/

set_option autoImplicit false

namespace XLayerReth.Lib

variable {S A : Type}

/-- A run. -/
def runFrom (step : S → A → Option S) : S → List A → Option S
  | s, [] => some s
  | s, a :: acts => (step s a).bind (fun s' => runFrom step s' acts)

variable {step : S → A → Option S}

theorem runFrom_append (acts more : List A) (s : S) :
    runFrom step s (acts ++ more) =
      (runFrom step s acts).bind (fun s' => runFrom step s' more) := by
  induction acts generalizing s with
  | nil => rfl
  | cons a acts ih =>
    rw [List.cons_append, runFrom, runFrom]
    cases step s a with
    | none => rfl
    | some s' => exact ih s'

theorem runFrom_singleton (s : S) (a : A) : runFrom step s [a] = step s a := by
  rw [runFrom]
  cases step s a <;> rfl

theorem runFrom_concat {s s' : S} {acts : List A} {a : A} :
    runFrom step s (acts ++ [a]) = some s' ↔
      ∃ m, runFrom step s acts = some m ∧ step m a = some s' := by
  rw [runFrom_append, Option.bind_eq_some_iff]
  simp only [runFrom_singleton]

/-- **Invariant rule**: what holds at the start, and is carried by each step, holds of every
    run. -/
theorem runFrom_induction (Q : List A → S → Prop) {s₀ : S} (h0 : Q [] s₀)
    (hstep : ∀ acts s a s', runFrom step s₀ acts = some s → Q acts s → step s a = some s' →
      Q (acts ++ [a]) s') (acts : List A) : ∀ s, runFrom step s₀ acts = some s → Q acts s := by
  induction acts using List.reverseRecOn with
  | nil =>
    intro s h
    cases h
    exact h0
  | append_singleton acts a ih =>
    intro s h
    obtain ⟨m, hm, hs⟩ := runFrom_concat.mp h
    exact hstep acts m a s hm (ih m hm) hs

/-- **Invariant rule for steps of a kind**: an invariant carried by the steps that are `ok` holds
    throughout a run of such steps. -/
theorem runFrom_ok (I : S → Prop) (ok : S → A → Prop) {s₀ : S} {acts : List A} (h0 : I s₀)
    (hok : ∀ s a s', I s → ok s a → step s a = some s' → I s')
    (hall : ∀ pre a s, pre ++ [a] <+: acts → runFrom step s₀ pre = some s → ok s a)
    (pre : List A) (s : S) (hpre : pre <+: acts) (hs : runFrom step s₀ pre = some s) : I s :=
  runFrom_induction (fun pre s => pre <+: acts → I s) (fun _ => h0)
    (fun pre s a s' hs ih hstep hpre =>
      hok s a s' (ih ((List.prefix_append pre [a]).trans hpre)) (hall pre a s hpre hs) hstep)
    pre s hs hpre

/-- **Exact condition**: where the steps that are `ok` carry an invariant `I` of which `Q` follows,
    and any other step from `I` breaks `Q`, the property `Q` holds throughout a run exactly when
    all steps of the run are `ok`. -/
theorem runFrom_safe_iff {I Q : S → Prop} {ok : S → A → Prop} {s₀ last : S} {acts : List A}
    (h0 : I s₀) (hQ : ∀ s, I s → Q s)
    (hok : ∀ s a s', I s → ok s a → step s a = some s' → I s')
    (hbad : ∀ s a s', I s → ¬ ok s a → step s a = some s' → ¬ Q s')
    (hrun : runFrom step s₀ acts = some last) :
    (∀ pre s, pre <+: acts → runFrom step s₀ pre = some s → Q s) ↔
      ∀ pre a s, pre ++ [a] <+: acts → runFrom step s₀ pre = some s → ok s a := by
  constructor
  · intro hsafe
    -- a step that is not `ok` would leave the next state of the run without `Q`
    have hstepOk :
        ∀ pre a s, pre ++ [a] <+: acts → runFrom step s₀ pre = some s → I s → ok s a := by
      intro pre a s hpre hs hI
      by_contra hnot
      obtain ⟨post, rfl⟩ := hpre
      rw [runFrom_append] at hrun
      obtain ⟨s', hs', -⟩ := Option.bind_eq_some_iff.mp hrun
      obtain ⟨m, hm, hstep⟩ := runFrom_concat.mp hs'
      cases hs.symm.trans hm
      exact hbad s a s' hI hnot hstep (hsafe _ s' (List.prefix_append _ post) hs')
    have hinv := runFrom_ok I (fun s a => I s → ok s a) h0
      (fun s a s' hI hoks hstep => hok s a s' hI (hoks hI) hstep) hstepOk
    intro pre a s hpre hs
    exact hstepOk pre a s hpre hs (hinv pre s ((List.prefix_append pre [a]).trans hpre) hs)
  · intro hall pre s hpre hs
    exact hQ s (runFrom_ok I ok h0 hok hall pre s hpre hs)

/-! ## What has occurred -/

/-- Some step of the run from `s₀` is of a kind. -/
def Occurs (step : S → A → Option S) (s₀ : S) (acts : List A) (kind : S → A → Prop) : Prop :=
  ∃ pre a s, pre ++ [a] <+: acts ∧ runFrom step s₀ pre = some s ∧ kind s a

theorem not_occurs_nil {s₀ : S} {kind : S → A → Prop} : ¬ Occurs step s₀ [] kind := by
  rintro ⟨pre, a, s, hpre, -⟩
  simpa using hpre.length_le

theorem Occurs.mono {s₀ : S} {acts more : List A} {kind : S → A → Prop}
    (h : Occurs step s₀ acts kind) : Occurs step s₀ (acts ++ more) kind := by
  obtain ⟨pre, a, s, hpre, hs, hkind⟩ := h
  exact ⟨pre, a, s, hpre.trans (List.prefix_append _ _), hs, hkind⟩

/-- What occurs in a longer run occurred before, or its last step is of the kind. -/
theorem occurs_concat {s₀ s : S} {acts : List A} {a : A} {kind : S → A → Prop}
    (hs : runFrom step s₀ acts = some s) :
    Occurs step s₀ (acts ++ [a]) kind ↔ Occurs step s₀ acts kind ∨ kind s a := by
  constructor
  · rintro ⟨pre, b, s', hpre, hs', hkind⟩
    rcases List.prefix_concat_iff.mp hpre with heq | hshorter
    · obtain ⟨rfl, hb⟩ := List.append_inj' heq rfl
      cases hb
      cases hs.symm.trans hs'
      exact .inr hkind
    · exact .inl ⟨pre, b, s', hshorter, hs', hkind⟩
  · rintro (h | h)
    · exact h.mono
    · exact ⟨acts, a, s, List.prefix_refl _, hs, h⟩

/-- What lasts, and held when something occurred, holds at the end. -/
theorem Occurs.lasting {P : S → Prop} {s₀ s : S} {acts : List A} {kind : S → A → Prop}
    (hlasting : ∀ s a s', P s → step s a = some s' → P s') (hs : runFrom step s₀ acts = some s)
    (h : Occurs step s₀ acts (fun s a => P s ∧ kind s a)) : P s := by
  refine runFrom_induction
    (fun acts s => Occurs step s₀ acts (fun s a => P s ∧ kind s a) → P s)
    (fun h => absurd h not_occurs_nil) ?_ acts s hs h
  intro acts s a s' hs ih hstep hoccurs
  rcases (occurs_concat hs).mp hoccurs with hbefore | ⟨hP, -⟩
  · exact hlasting s a s' (ih hbefore) hstep
  · exact hlasting s a s' hP hstep

/-! ## Logs -/

section Log

variable {L : Type} {log : S → List L}

/-- The `i`-th step of a run made the `k`-th entry of its log. -/
structure LoggedAt (step : S → A → Option S) (log : S → List L) (s₀ : S) (acts : List A)
    (k i : Nat) (before : S) (a : A) (after : S) : Prop where
  action : acts[i]? = some a
  reached : runFrom step s₀ (acts.take i) = some before
  stepped : step before a = some after
  absent : (log before).length ≤ k
  present : k < (log after).length

theorem runFrom_log (hlog : ∀ s a s', step s a = some s' → log s <+: log s') {s s' : S}
    {acts : List A} (h : runFrom step s acts = some s') : log s <+: log s' :=
  runFrom_induction (fun _ s' => log s <+: log s') List.prefix_rfl
    (fun _ _ _ _ _ ih hstep => ih.trans (hlog _ _ _ hstep)) acts s' h

/-- **Every entry was made by one step of the run.** -/
theorem exists_loggedAt {s₀ s : S} {acts : List A} (h0 : log s₀ = [])
    (hrun : runFrom step s₀ acts = some s) {k : Nat} (hk : k < (log s).length) :
    ∃ i before a after, LoggedAt step log s₀ acts k i before a after := by
  refine runFrom_induction (fun acts s => k < (log s).length →
    ∃ i before a after, LoggedAt step log s₀ acts k i before a after) ?_ ?_ acts s hrun hk
  · intro hk
    rw [h0] at hk
    exact absurd hk (Nat.not_lt_zero k)
  · intro acts s a s' hs ih hstep hk
    by_cases hbefore : k < (log s).length
    · obtain ⟨i, before, b, after, hat⟩ := ih hbefore
      have hi : i < acts.length := (List.getElem?_eq_some_iff.mp hat.action).1
      refine ⟨i, before, b, after, ?_, ?_, hat.stepped, hat.absent, hat.present⟩
      · rw [List.getElem?_append_left hi, hat.action]
      · rw [List.take_append_of_le_length (Nat.le_of_lt hi), hat.reached]
    · refine ⟨acts.length, s, a, s', ?_, ?_, hstep, Nat.le_of_not_lt hbefore, hk⟩
      · rw [List.getElem?_concat_length]
      · rw [List.take_left, hs]

/-- The run up to a step of it, and on. -/
theorem LoggedAt.next {s₀ : S} {acts : List A} {k i : Nat} {m m' : S} {a : A}
    (h : LoggedAt step log s₀ acts k i m a m') :
    runFrom step s₀ (acts.take (i + 1)) = some m' := by
  rw [List.take_add_one, h.action]
  exact runFrom_concat.mpr ⟨m, h.reached, h.stepped⟩

/-- The entry stays what it was when it was made. -/
theorem LoggedAt.getElem? (hlog : ∀ s a s', step s a = some s' → log s <+: log s') {s₀ s : S}
    {acts : List A} {k i : Nat} {m m' : S} {a : A} (h : LoggedAt step log s₀ acts k i m a m')
    (hrun : runFrom step s₀ acts = some s) : (log m')[k]? = (log s)[k]? := by
  rw [← List.take_append_drop (i + 1) acts, runFrom_append, h.next, Option.bind_some] at hrun
  obtain ⟨more, hmore⟩ := runFrom_log hlog hrun
  rw [← hmore, List.getElem?_append_left h.present]

/-- Later entries are made by later steps, or by the same one. -/
theorem LoggedAt.le (hlog : ∀ s a s', step s a = some s' → log s <+: log s') {s₀ : S}
    {acts : List A} {k l i j : Nat} {m m' n n' : S} {a b : A}
    (hi : LoggedAt step log s₀ acts k i m a m') (hj : LoggedAt step log s₀ acts l j n b n')
    (hkl : k ≤ l) : i ≤ j := by
  by_contra hji
  have hlt : j < i := Nat.lt_of_not_le hji
  have hsplit : acts.take i = acts.take (j + 1) ++ (acts.take i).drop (j + 1) := by
    conv_lhs => rw [← List.take_append_drop (j + 1) (acts.take i), List.take_take,
      Nat.min_eq_left (Nat.succ_le_of_lt hlt)]
  have hreached := hi.reached
  rw [hsplit, runFrom_append, hj.next, Option.bind_some] at hreached
  have hle := (runFrom_log hlog hreached).length_le
  have habsent := hi.absent
  have hpresent := hj.present
  omega

end Log

end XLayerReth.Lib
