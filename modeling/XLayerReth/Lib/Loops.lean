import Mathlib.Algebra.BigOperators.Group.List.Basic
import Mathlib.Data.List.Forall2
import Mathlib.Data.List.Nodup

/-!
# Loops with an early exit

A loop that may leave early is a monadic fold in `Except`: `ok` continues with the new state and
`error` leaves with a result.

* `foldlM_ok` — the invariant rule of a loop that ran to its end;
* `foldlM_total` — a loop that never leaves early;
* `foldlM_error` — a loop that left early did so at one iteration of an unfinished run;
* `combinations` — every way to choose one candidate for each position, in lexicographic order;
* `visitCombinations` — a recursive visitor that enumerates them without building the product;
* `logged` — a loop body that also keeps the items it was given, `foldlM_logged_ok` and
  `foldlM_logged_error` — which items those are;
* `foldl_eq_self_iff` — when a loop of idempotent steps changes nothing;
* `foldl_or_iff` — what a loop makes true whose every step makes one thing true.

Principal results: `visitCombinations_eq` (the visitor is the loop over `combinations`),
`mem_combinations`, `length_combinations` and `nodup_combinations`.
-/

set_option autoImplicit false

namespace XLayerReth.Lib

variable {α β σ : Type}

theorem foldlM_nil (f : σ → α → Except β σ) (s : σ) : [].foldlM f s = .ok s := rfl

theorem foldlM_cons (f : σ → α → Except β σ) (x : α) (l : List α) (s : σ) :
    (x :: l).foldlM f s = (f s x).bind (fun s' => l.foldlM f s') := rfl

/-- **Invariant rule**: what holds at the start, and is carried by each iteration that continues,
    holds at the end. -/
theorem foldlM_ok {f : σ → α → Except β σ} (P : List α → σ → Prop)
    (step : ∀ pre x s s', P pre s → f s x = .ok s' → P (pre ++ [x]) s') :
    ∀ (pre : List α) {l : List α} {s s' : σ}, P pre s → l.foldlM f s = .ok s' → P (pre ++ l) s'
  | pre, [], s, s', h0, h => by
    rw [foldlM_nil] at h
    cases h
    simpa using h0
  | pre, x :: l, s, s', h0, h => by
    rw [foldlM_cons] at h
    cases hx : f s x with
    | error e => rw [hx] at h; cases h
    | ok s₁ =>
      rw [hx] at h
      have := foldlM_ok P step (pre ++ [x]) (step pre x s s₁ h0 hx) h
      rwa [List.append_assoc] at this

/-- A loop that left early left at one iteration of a run that had continued until then. -/
theorem foldlM_error {f : σ → α → Except β σ} : ∀ {l : List α} {s : σ} {e : β},
    l.foldlM f s = .error e →
      ∃ pre x post s₁, l = pre ++ x :: post ∧ pre.foldlM f s = .ok s₁ ∧ f s₁ x = .error e
  | [], s, e, h => by cases h
  | x :: l, s, e, h => by
    rw [foldlM_cons] at h
    cases hx : f s x with
    | error e' =>
      rw [hx] at h
      cases h
      exact ⟨[], x, l, s, rfl, rfl, hx⟩
    | ok s₁ =>
      rw [hx] at h
      obtain ⟨pre, y, post, s₂, hl, hpre, hy⟩ := foldlM_error (s := s₁) h
      refine ⟨x :: pre, y, post, s₂, by rw [hl]; rfl, ?_, hy⟩
      rw [foldlM_cons, hx]
      exact hpre

/-- **Total rule**: a loop whose every iteration continues, from what holds of the items that are
    left, runs to its end. -/
theorem foldlM_total {f : σ → α → Except β σ} (P : List α → σ → Prop)
    (step : ∀ x rest s, P (x :: rest) s → ∃ s', f s x = .ok s' ∧ P rest s') :
    ∀ {l : List α} {s : σ}, P l s → ∃ s', l.foldlM f s = .ok s' ∧ P [] s'
  | [], s, h => ⟨s, rfl, h⟩
  | x :: l, s, h => by
    obtain ⟨s₁, hx, h₁⟩ := step x l s h
    obtain ⟨s', hl, h'⟩ := foldlM_total P step h₁
    refine ⟨s', ?_, h'⟩
    rw [foldlM_cons, hx]
    exact hl

theorem foldlM_append (f : σ → α → Except β σ) : ∀ (l₁ l₂ : List α) (s : σ),
    (l₁ ++ l₂).foldlM f s = (l₁.foldlM f s).bind (fun s' => l₂.foldlM f s')
  | [], l₂, s => rfl
  | x :: l₁, l₂, s => by
    rw [List.cons_append, foldlM_cons, foldlM_cons]
    cases f s x with
    | error e => rfl
    | ok s₁ => exact foldlM_append f l₁ l₂ s₁

/-- Every way to choose one candidate for each position. -/
def combinations : List (List α) → List (List α)
  | [] => [[]]
  | cs :: rest => cs.flatMap (fun c => (combinations rest).map (c :: ·))

theorem mem_combinations : ∀ {cands : List (List α)} {l : List α},
    l ∈ combinations cands ↔ List.Forall₂ (· ∈ ·) l cands
  | [], l => by simp [combinations]
  | cs :: rest, l => by
    simp only [combinations, List.mem_flatMap, List.mem_map, List.forall₂_cons_right_iff]
    constructor
    · rintro ⟨c, hc, l', hl', rfl⟩
      exact ⟨c, l', hc, mem_combinations.mp hl', rfl⟩
    · rintro ⟨c, l', hc, hl', rfl⟩
      exact ⟨c, hc, l', mem_combinations.mpr hl', rfl⟩

theorem length_combinations : ∀ cands : List (List α),
    (combinations cands).length = (cands.map List.length).prod
  | [] => rfl
  | cs :: rest => by
    rw [combinations, List.map_cons, List.prod_cons, ← length_combinations rest,
      List.length_flatMap]
    simp only [List.length_map]
    rw [List.map_const', List.sum_replicate_nat]

/-- Distinct candidates give distinct combinations. -/
theorem nodup_combinations : ∀ {cands : List (List α)}, (∀ cs ∈ cands, cs.Nodup) →
    (combinations cands).Nodup
  | [], _ => List.nodup_singleton _
  | cs :: rest, h => by
    have hrest : (combinations rest).Nodup :=
      nodup_combinations (fun c hc => h c (List.mem_cons_of_mem _ hc))
    rw [combinations, List.nodup_flatMap]
    constructor
    · intro c _
      exact hrest.map (fun _ _ heq => (List.cons.inj heq).2)
    · refine (h cs List.mem_cons_self).imp ?_
      intro c d hne l hc hd
      obtain ⟨l₁, -, rfl⟩ := List.mem_map.mp hc
      obtain ⟨l₂, -, heq⟩ := List.mem_map.mp hd
      exact hne (List.cons.inj heq).1.symm

/-- Visit every combination, extending `current` by one candidate for each position. -/
def visitCombinations (visit : σ → List α → Except β σ) :
    List (List α) → List α → σ → Except β σ
  | [], current, s => visit s current
  | cs :: rest, current, s =>
    cs.foldlM (fun s c => visitCombinations visit rest (current ++ [c]) s) s

theorem foldlM_map {γ : Type} (f : σ → γ → Except β σ) (g : α → γ) : ∀ (l : List α) (s : σ),
    (l.map g).foldlM f s = l.foldlM (fun s x => f s (g x)) s
  | [], _ => rfl
  | x :: l, s => by
    rw [List.map_cons, foldlM_cons, foldlM_cons]
    cases f s (g x) with
    | error e => rfl
    | ok s₁ => exact foldlM_map f g l s₁

theorem foldlM_flatMap {γ : Type} (f : σ → γ → Except β σ) (g : α → List γ) :
    ∀ (l : List α) (s : σ),
      (l.flatMap g).foldlM f s = l.foldlM (fun s x => (g x).foldlM f s) s
  | [], _ => rfl
  | x :: l, s => by
    rw [List.flatMap_cons, foldlM_append, foldlM_cons]
    cases (g x).foldlM f s with
    | error e => rfl
    | ok s₁ => exact foldlM_flatMap f g l s₁

/-- **The visitor is the loop over all combinations**, each appended to what is already chosen. -/
theorem visitCombinations_eq (visit : σ → List α → Except β σ) :
    ∀ (cands : List (List α)) (current : List α) (s : σ),
      visitCombinations visit cands current s =
        (combinations cands).foldlM (fun s b => visit s (current ++ b)) s
  | [], current, s => by
    unfold visitCombinations combinations
    rw [foldlM_cons, List.append_nil]
    cases visit s current <;> rfl
  | cs :: rest, current, s => by
    unfold visitCombinations combinations
    rw [foldlM_flatMap]
    congr 1
    funext s c
    rw [visitCombinations_eq visit rest, foldlM_map]
    simp only [List.append_assoc, List.singleton_append]

/-! ### Keeping what was visited -/

/-- A loop body that also keeps the items it was given, under a tag. -/
def logged {γ : Type} (tag : α → γ) (f : σ → α → Except β σ) (s : σ × List γ) (x : α) :
    Except (β × List γ) (σ × List γ) :=
  match f s.1 x with
  | .ok s' => .ok (s', s.2 ++ [tag x])
  | .error e => .error (e, s.2 ++ [tag x])

/-- A loop that ran to its end was given every item. -/
theorem foldlM_logged_ok {γ : Type} (tag : α → γ) {f : σ → α → Except β σ} :
    ∀ {l : List α} {s s' : σ} (log : List γ), l.foldlM f s = .ok s' →
      l.foldlM (logged tag f) (s, log) = .ok (s', log ++ l.map tag)
  | [], s, s', log, h => by
    rw [foldlM_nil] at h
    cases h
    rw [foldlM_nil, List.map_nil, List.append_nil]
  | x :: l, s, s', log, h => by
    rw [foldlM_cons] at h
    cases hx : f s x with
    | error e => rw [hx] at h; cases h
    | ok s₁ =>
      rw [hx] at h
      rw [foldlM_cons, logged, hx]
      refine (foldlM_logged_ok tag (log ++ [tag x]) h).trans ?_
      rw [List.append_assoc, List.map_cons, List.singleton_append]

/-- A loop that left early was given a beginning of the items, and no other. -/
theorem foldlM_logged_error {γ : Type} (tag : α → γ) {f : σ → α → Except β σ} :
    ∀ {l : List α} {s : σ} {e : β} (log : List γ), l.foldlM f s = .error e →
      ∃ seen, seen <+: l ∧ seen ≠ [] ∧
        l.foldlM (logged tag f) (s, log) = .error (e, log ++ seen.map tag)
  | [], s, e, log, h => by cases h
  | x :: l, s, e, log, h => by
    rw [foldlM_cons] at h
    cases hx : f s x with
    | error e' =>
      rw [hx] at h
      cases h
      refine ⟨[x], List.prefix_cons_inj x |>.mpr (List.nil_prefix), by simp, ?_⟩
      rw [foldlM_cons, logged, hx]
      rfl
    | ok s₁ =>
      rw [hx] at h
      obtain ⟨seen, hseen, -, hrun⟩ := foldlM_logged_error tag (log ++ [tag x]) h
      refine ⟨x :: seen, (List.prefix_cons_inj x).mpr hseen, by simp, ?_⟩
      rw [foldlM_cons, logged, hx]
      refine hrun.trans ?_
      rw [List.append_assoc, List.map_cons, List.singleton_append]

/-- A loop whose steps settle one thing each, and undo nothing, changes nothing exactly when every
    step finds its thing settled. -/
theorem foldl_eq_self_iff {f : σ → α → σ} {Settled : α → σ → Prop}
    (hfix : ∀ a s, f s a = s ↔ Settled a s) (hself : ∀ a s, Settled a (f s a))
    (hkeep : ∀ a b s, Settled a s → Settled a (f s b)) (l : List α) (s : σ) :
    l.foldl f s = s ↔ ∀ a ∈ l, Settled a s := by
  constructor
  · intro h
    have hkept : ∀ (l : List α) (s : σ) (a : α), Settled a s → Settled a (l.foldl f s) := by
      intro l
      induction l with
      | nil => exact fun s a ha => ha
      | cons b l ih => exact fun s a ha => ih (f s b) a (hkeep a b s ha)
    have hend : ∀ (l : List α) (s : σ), ∀ a ∈ l, Settled a (l.foldl f s) := by
      intro l
      induction l with
      | nil => simp
      | cons b l ih =>
        intro s a ha
        rcases List.mem_cons.mp ha with rfl | ha
        · exact hkept l (f s a) a (hself a s)
        · exact ih (f s b) a ha
    intro a ha
    rw [← h]
    exact hend l s a ha
  · induction l with
    | nil => exact fun _ => rfl
    | cons b l ih =>
      intro h
      rw [List.foldl_cons, (hfix b s).mpr (h b (List.mem_cons_self ..))]
      exact ih (fun a ha => h a (List.mem_cons_of_mem _ ha))

/-- A loop whose steps may make a property true, and never undo it, makes it true if some step
    does. -/
theorem foldl_or_iff {f : σ → α → σ} {P : σ → Prop} {Q : α → Prop}
    (hstep : ∀ s x, P (f s x) ↔ P s ∨ Q x) (l : List α) (s : σ) :
    P (l.foldl f s) ↔ P s ∨ ∃ x ∈ l, Q x := by
  induction l generalizing s with
  | nil => simp
  | cons x l ih =>
    rw [List.foldl_cons, ih, hstep, or_assoc, List.exists_mem_cons_iff]

end XLayerReth.Lib
