import XLayerReth.RcsFilter.PoolRuns

/-!
# Insertion generations

Every insertion takes the next value of a 64-bit counter.  In a run with fewer than `2 ^ 64`
inserts the counter does not wrap, so a generation names one insertion.

* `insertCount` — the inserts of a run.
* `generation_le`, `nextGeneration_mono` — generations in the pool are bounded by the counter,
  which never decreases.
* `same_lifecycle` — two sightings of one hash and generation are the same insertion.
* `Fenced` — what an operation carrying a generation that is not current does: nothing.

Principal results: `insert_generation`, `generation_after_removal`, `same_lifecycle` and
`fenced_of_stale`.
-/

set_option autoImplicit false

namespace XLayerReth.RcsFilter

open Lib

def PoolOp.isInsert : PoolOp → Bool
  | .insert _ _ => true
  | _ => false

/-- The number of inserts of a run. -/
def insertCount (ops : List PoolOp) : Nat := ops.countP PoolOp.isInsert

theorem insertCount_append (ops more : List PoolOp) :
    insertCount (ops ++ more) = insertCount ops + insertCount more := List.countP_append

/-! ## The counter -/

theorem nextGeneration_applySubmitResponse (p : BufferPool) (accepted : List String)
    (expected : Generations) (cfg : FilterConfig) (now : Nat) :
    (p.applySubmitResponse accepted expected cfg now).1.nextGeneration = p.nextGeneration := by
  unfold BufferPool.applySubmitResponse
  have go : ∀ (l : List (B256 × Nat)) (acc : BufferPool × List Resolved),
      (l.foldl (BufferPool.submitOne (accepted.filterMap B256.fromStr) cfg now)
        acc).1.nextGeneration = acc.1.nextGeneration := by
    intro l
    induction l with
    | nil => intro acc; rfl
    | cons x l ih => intro acc; exact ih _
  exact go _ _

theorem nextGeneration_removeCanonical (p : BufferPool) (hashes : List B256) :
    (p.removeCanonical hashes).1.nextGeneration = p.nextGeneration := by
  unfold BufferPool.removeCanonical
  have go : ∀ (l : List B256) (acc : BufferPool × Nat),
      (l.foldl (fun (acc : BufferPool × Nat) hash =>
        (({ acc.1 with entries := acc.1.entries.erase hash } : BufferPool),
          if (acc.1.get hash).isSome then acc.2 + 1 else acc.2)) acc).1.nextGeneration =
        acc.1.nextGeneration := by
    intro l
    induction l with
    | nil => intro acc; rfl
    | cons x l ih => intro acc; exact ih _
  exact go _ _

theorem nextGeneration_removeNonTerminal (p : BufferPool) (h : B256) (g : Nat) :
    (p.removeNonTerminalIfGeneration h g).1.nextGeneration = p.nextGeneration := by
  unfold BufferPool.removeNonTerminalIfGeneration
  split
  · rfl
  · split <;> rfl

/-- Only an insertion moves the counter. -/
theorem nextGeneration_of_not_insert {op : PoolOp} (h : op.isInsert = false) (p : BufferPool) :
    (op.apply p).nextGeneration = p.nextGeneration := by
  cases op with
  | insert entry fresh => cases h
  | applySubmitResponse accepted expected cfg now =>
    exact nextGeneration_applySubmitResponse p accepted expected cfg now
  | removeCanonical hashes => exact nextGeneration_removeCanonical p hashes
  | removeNonTerminalIfGeneration k g => exact nextGeneration_removeNonTerminal p k g
  | applyQueryStatus | finishConsistencyCheck | resolveTotalTimeouts | checkTimeouts
  | recoverAfterCanonicalLag | pruneTerminal => rfl

/-- The counter after one operation, below the wrap. -/
theorem nextGeneration_step {p : BufferPool} {op : PoolOp} (hp : p.nextGeneration + 1 < 2 ^ 64) :
    p.nextGeneration ≤ (op.apply p).nextGeneration ∧
      (op.apply p).nextGeneration ≤ p.nextGeneration + (if op.isInsert then 1 else 0) := by
  cases hop : op.isInsert with
  | false =>
    rw [nextGeneration_of_not_insert hop]
    simp
  | true =>
    cases op with
    | insert entry fresh =>
      simp only [PoolOp.apply]
      cases hget : p.get entry.txHash with
      | some e =>
        rw [BufferPool.insert_of_present hget]
        simp
      | none =>
        rw [BufferPool.insert_of_absent hget, Nat.mod_eq_of_lt hp]
        simp
    | _ => cases hop

/-- **Bounds of a run that does not wrap**: the counter is at most the number of inserts, and no
    entry has a generation above it. -/
theorem generation_le (ops : List PoolOp) (hc : insertCount ops < 2 ^ 64) :
    (poolAfter ops).nextGeneration ≤ insertCount ops ∧
      ∀ h e, (poolAfter ops).get h = some e → e.generation ≤ (poolAfter ops).nextGeneration := by
  induction ops using List.reverseRecOn with
  | nil =>
    refine ⟨le_refl 0, fun h e he => ?_⟩
    rw [show (poolAfter []).get h = none from rfl] at he
    cases he
  | append_singleton ops op ih =>
    rw [insertCount_append] at hc ⊢
    have hone : insertCount [op] = if op.isInsert then 1 else 0 := by
      cases hop : op.isInsert <;> simp [insertCount, hop]
    obtain ⟨hle, hgen⟩ := ih (by omega)
    rw [poolAfter_concat]
    by_cases hop : op.isInsert = true
    · have hlt : (poolAfter ops).nextGeneration + 1 < 2 ^ 64 := by
        rw [hone, if_pos hop] at hc
        omega
      obtain ⟨hmono, hup⟩ := @nextGeneration_step _ op hlt
      refine ⟨by rw [hone]; omega, fun h e he => ?_⟩
      rw [PoolOp.get_apply] at he
      cases hget : (poolAfter ops).get h with
      | some x =>
        rw [hget] at he
        rw [(onEntry_keeps he).1]
        exact le_trans (hgen h x hget) hmono
      | none =>
        rw [hget] at he
        cases op with
        | insert entry fresh =>
          simp only [PoolOp.created] at he
          split at he
          · rename_i hh
            cases he
            subst hh
            simp only [PoolOp.apply]
            rw [BufferPool.insert_of_absent hget]
          · cases he
        | _ => cases hop
    · have hno : op.isInsert = false := by simpa using hop
      rw [nextGeneration_of_not_insert hno]
      refine ⟨by omega, fun h e he => ?_⟩
      rw [PoolOp.get_apply] at he
      cases hget : (poolAfter ops).get h with
      | some x =>
        rw [hget] at he
        rw [(onEntry_keeps he).1]
        exact hgen h x hget
      | none =>
        rw [hget] at he
        cases op with
        | insert entry fresh => cases hno
        | _ => cases he

/-- The counter never decreases along a run that does not wrap. -/
theorem nextGeneration_mono (ops more : List PoolOp) (hc : insertCount (ops ++ more) < 2 ^ 64) :
    (poolAfter ops).nextGeneration ≤ (poolAfter (ops ++ more)).nextGeneration := by
  induction more using List.reverseRecOn with
  | nil => simp
  | append_singleton more op ih =>
    rw [← List.append_assoc] at hc ⊢
    rw [insertCount_append] at hc
    refine le_trans (ih (by omega)) ?_
    rw [poolAfter_concat]
    cases hop : op.isInsert with
    | false => rw [nextGeneration_of_not_insert hop]
    | true =>
      have hone : insertCount [op] = 1 := by simp [insertCount, hop]
      have hle := (generation_le (ops ++ more) (by omega)).1
      exact (nextGeneration_step (by omega)).1

/-- **Every successful insert gets a generation above all earlier ones.** -/
theorem insert_generation {pre : List PoolOp} {entry : BufferEntry}
    {fresh : entry.status = .notSubmitted}
    (hc : insertCount (pre ++ [PoolOp.insert entry fresh]) < 2 ^ 64)
    (habs : (poolAfter pre).get entry.txHash = none) :
    ∃ g, (poolAfter (pre ++ [PoolOp.insert entry fresh])).get entry.txHash =
        some { entry with generation := g } ∧
      ∀ pre' h e, pre' <+: pre → (poolAfter pre').get h = some e → e.generation < g := by
  rw [insertCount_append] at hc
  have hone : insertCount [PoolOp.insert entry fresh] = 1 := rfl
  have hle := (generation_le pre (by omega)).1
  refine ⟨(poolAfter pre).nextGeneration + 1, ?_, ?_⟩
  · rw [poolAfter_concat, PoolOp.get_apply, habs]
    simp only [PoolOp.created, if_true]
    rw [Nat.mod_eq_of_lt (by omega)]
  · rintro pre' h e ⟨rest, rfl⟩ he
    rw [insertCount_append] at hc
    have hgen := (generation_le pre' (by omega)).2 h e he
    have hmono := nextGeneration_mono pre' rest (by rw [insertCount_append]; omega)
    omega

/-- A hash that was absent comes back with a generation above every one given out until then. -/
theorem generation_after_removal (mid more : List PoolOp) {h : B256} {e : BufferEntry}
    (hc : insertCount (mid ++ more) < 2 ^ 64) (habs : (poolAfter mid).get h = none)
    (he : (poolAfter (mid ++ more)).get h = some e) :
    (poolAfter mid).nextGeneration < e.generation := by
  induction more using List.reverseRecOn generalizing e with
  | nil =>
    rw [List.append_nil, habs] at he
    cases he
  | append_singleton more op ih =>
    rw [← List.append_assoc] at hc he
    rw [insertCount_append] at hc
    rw [poolAfter_concat, PoolOp.get_apply] at he
    cases hget : (poolAfter (mid ++ more)).get h with
    | some x =>
      rw [hget] at he
      rw [(onEntry_keeps he).1]
      exact ih (by omega) hget
    | none =>
      rw [hget] at he
      cases op with
      | insert entry fresh =>
        simp only [PoolOp.created] at he
        split at he
        · cases he
          have hone : insertCount [PoolOp.insert entry fresh] = 1 := rfl
          have hle := (generation_le (mid ++ more) (by omega)).1
          have hmono := nextGeneration_mono mid more (by omega)
          show _ < ((poolAfter (mid ++ more)).nextGeneration + 1) % 2 ^ 64
          rw [Nat.mod_eq_of_lt (by omega)]
          omega
        · cases he
      | _ => cases he

/-- A lifecycle that was seen before is not inserted: an operation acted on it. -/
theorem lifecycle_seen {pre more : List PoolOp} {op : PoolOp} {h : B256} {g : Nat}
    {e₀ e₁ : BufferEntry} (hc : insertCount (pre ++ more ++ [op]) < 2 ^ 64)
    (h₀ : (poolAfter pre).lifecycle h g = some e₀)
    (h₁ : (poolAfter (pre ++ more ++ [op])).lifecycle h g = some e₁) :
    ∃ x, (poolAfter (pre ++ more)).lifecycle h g = some x ∧ op.onEntry x = some e₁ := by
  rw [poolAfter_concat] at h₁
  rcases lifecycle_apply h₁ with hx | ⟨-, -, hg, entry, fresh, rfl⟩
  · exact hx
  · exfalso
    rw [insertCount_append] at hc
    have hone : insertCount [PoolOp.insert entry fresh] = 1 := rfl
    obtain ⟨hget, hgen⟩ := BufferPool.lifecycle_eq_some.mp h₀
    have hmid := (generation_le (pre ++ more) (by omega)).1
    rw [insertCount_append] at hc
    have hpre := (generation_le pre (by omega)).2 h e₀ hget
    have hmono := nextGeneration_mono pre more (by rw [insertCount_append]; omega)
    rw [insertCount_append] at hmid
    rw [Nat.mod_eq_of_lt (by omega)] at hg
    omega

/-- **Two sightings of one hash and generation are the same insertion**: only its status and the
    time of its last transition may differ. -/
theorem same_lifecycle (pre more : List PoolOp) {h : B256} {g : Nat} {e₀ e₁ : BufferEntry}
    (hc : insertCount (pre ++ more) < 2 ^ 64) (h₀ : (poolAfter pre).lifecycle h g = some e₀)
    (h₁ : (poolAfter (pre ++ more)).lifecycle h g = some e₁) :
    e₁ = e₀.moveTo e₁.status e₁.lastTransitionAt := by
  induction more using List.reverseRecOn generalizing e₁ with
  | nil =>
    rw [List.append_nil, h₀] at h₁
    cases h₁
    rfl
  | append_singleton more op ih =>
    rw [← List.append_assoc] at hc h₁
    obtain ⟨x, hx, hop⟩ := lifecycle_seen hc h₀ h₁
    rw [insertCount_append] at hc
    have hxe := ih (by omega) hx
    rcases onEntry_cause hop with rfl | ⟨s, now, rfl, -⟩
    · exact hxe
    · rw [hxe]
      rfl

/-- **A tombstone that is seen again is the same tombstone.** -/
theorem same_tombstone (pre more : List PoolOp) {h : B256} {g : Nat} {e₀ e₁ : BufferEntry}
    (hc : insertCount (pre ++ more) < 2 ^ 64) (h₀ : (poolAfter pre).lifecycle h g = some e₀)
    (ht : e₀.status.isTerminal = true)
    (h₁ : (poolAfter (pre ++ more)).lifecycle h g = some e₁) : e₁ = e₀ := by
  induction more using List.reverseRecOn generalizing e₁ with
  | nil =>
    rw [List.append_nil, h₀] at h₁
    cases h₁
    rfl
  | append_singleton more op ih =>
    rw [← List.append_assoc] at hc h₁
    obtain ⟨x, hx, hop⟩ := lifecycle_seen hc h₀ h₁
    rw [insertCount_append] at hc
    have hxe := ih (by omega) hx
    subst hxe
    exact onEntry_terminal ht hop

/-! ## Fencing -/

/-- `with_dropped_lifecycle`: whether the action runs, under the pool lock. -/
def BufferPool.withDroppedLifecycle (p : BufferPool) (h : B256) (g : Nat) : Bool :=
  p.matchesStatus h g .dropped

/-- An operation that carries the generation `g` for the hash `h` does nothing. -/
structure Fenced (p : BufferPool) (h : B256) (g : Nat) : Prop where
  query : ∀ status cfg now, p.applyQueryStatus h g status cfg now = (p, none)
  consistency : ∀ consistent now, p.finishConsistencyCheck h g consistent now = (p, none)
  remove : p.removeNonTerminalIfGeneration h g = (p, false)
  dropped : p.withDroppedLifecycle h g = false
  /-- A submit response for this lifecycle alone. -/
  submit : ∀ accepted (expected : Generations) cfg now, expected.entries = [(h, g)] →
    p.applySubmitResponse accepted expected cfg now = (p, [])
  /-- In a batch, the stale pair changes nothing: the response has the effect and the report it
      would have without it, and the entry under the hash is not touched. -/
  batch : ∀ accepted (expected : Generations) cfg now, (h, g) ∈ expected.entries →
    p.applySubmitResponse accepted expected cfg now =
        p.applySubmitResponse accepted (expected.erase h) cfg now ∧
      (p.applySubmitResponse accepted expected cfg now).1.get h = p.get h ∧
      ∀ r ∈ (p.applySubmitResponse accepted expected cfg now).2, r.1 ≠ h

theorem submitOne_stale {p : BufferPool} {h : B256} {g : Nat} (hs : p.lifecycle h g = none)
    (accepted : List B256) (cfg : FilterConfig) (now : Nat) (resolved : List Resolved) :
    BufferPool.submitOne accepted cfg now (p, resolved) (h, g) = (p, resolved) := by
  unfold BufferPool.submitOne
  simp only [BufferPool.updateLifecycle_of_none _ hs, hs, Option.bind_none, Option.toList_none,
    List.append_nil]

theorem lifecycle_submitOne {p : BufferPool} {accepted : List B256} {cfg : FilterConfig}
    {now : Nat} {resolved : List Resolved} {x : B256 × Nat} {h : B256} (hne : x.1 ≠ h) (g : Nat) :
    (BufferPool.submitOne accepted cfg now (p, resolved) x).1.lifecycle h g = p.lifecycle h g := by
  unfold BufferPool.lifecycle BufferPool.submitOne
  rw [BufferPool.get_updateLifecycle]
  cases p.get h <;> simp [Ne.symm hne]

/-- A stale pair can be left out of a submit response. -/
theorem foldl_submitOne_stale {h : B256} {g : Nat} (accepted : List B256) (cfg : FilterConfig)
    (now : Nat) : ∀ (l : List (B256 × Nat)) (p : BufferPool) (resolved : List Resolved),
      (l.map Prod.fst).Nodup → (h, g) ∈ l → p.lifecycle h g = none →
      l.foldl (BufferPool.submitOne accepted cfg now) (p, resolved) =
        (l.filter (fun x => x.1 ≠ h)).foldl (BufferPool.submitOne accepted cfg now) (p, resolved)
  | [], _, _, _, hm, _ => by cases hm
  | x :: l, p, resolved, hn, hm, hs => by
    rw [List.map_cons, List.nodup_cons] at hn
    by_cases hx : x.1 = h
    · have hrest : ∀ y ∈ l, y.1 ≠ h := by
        intro y hy hyh
        exact hn.1 (List.mem_map.mpr ⟨y, hy, by rw [hyh, hx]⟩)
      have hxg : x = (h, g) := by
        rcases List.mem_cons.mp hm with hm | hm
        · exact hm.symm
        · exact absurd rfl (hrest _ hm)
      subst hxg
      have hfilter : l.filter (fun y => y.1 ≠ h) = l := by
        rw [List.filter_eq_self]
        intro y hy
        simpa using hrest y hy
      rw [List.foldl_cons, submitOne_stale hs, List.filter_cons_of_neg (by simp), hfilter]
    · have hm' : (h, g) ∈ l := by
        rcases List.mem_cons.mp hm with rfl | hm
        · exact absurd rfl hx
        · exact hm
      rw [List.filter_cons_of_pos (by simpa using hx), List.foldl_cons, List.foldl_cons]
      exact foldl_submitOne_stale accepted cfg now l _ _ hn.2 hm'
        ((lifecycle_submitOne hx g).trans hs)

/-- **A generation that is not current is fenced off.** -/
theorem fenced_of_stale {p : BufferPool} {h : B256} {g : Nat} (hs : p.lifecycle h g = none) :
    Fenced p h g where
  query := by
    intro status cfg now
    simp only [BufferPool.applyQueryStatus, BufferPool.updateLifecycle_of_none _ hs, hs]
    rfl
  consistency := by
    intro consistent now
    simp only [BufferPool.finishConsistencyCheck, BufferPool.updateLifecycle_of_none _ hs, hs]
    rfl
  remove := by simp only [BufferPool.removeNonTerminalIfGeneration, hs]
  dropped := by
    unfold BufferPool.withDroppedLifecycle BufferPool.matchesStatus
    split
    · rename_i e he
      have := BufferPool.lifecycle_eq_none.mp hs e he
      simp [this]
    · rfl
  submit := by
    intro accepted expected cfg now hexp
    unfold BufferPool.applySubmitResponse
    rw [hexp, List.foldl_cons, submitOne_stale hs]
    rfl
  batch := by
    intro accepted expected cfg now hm
    have hdrop : p.applySubmitResponse accepted expected cfg now =
        p.applySubmitResponse accepted (expected.erase h) cfg now :=
      foldl_submitOne_stale _ cfg now expected.entries p [] expected.nodup hm hs
    refine ⟨hdrop, ?_, ?_⟩
    · rw [hdrop, BufferPool.get_applySubmitResponse]
      cases hget : p.get h with
      | none => rfl
      | some e =>
        rw [Option.map_some, if_neg]
        intro hmem
        exact absurd rfl (of_decide_eq_true (List.mem_filter.mp hmem).2)
    · rw [hdrop, BufferPool.resolved_applySubmitResponse]
      intro r hr
      obtain ⟨x, hx, hxr⟩ := List.mem_filterMap.mp hr
      obtain ⟨e', -, hy⟩ := Option.bind_eq_some_iff.mp hxr
      obtain ⟨q, -, rfl⟩ := Option.map_eq_some_iff.mp hy
      exact of_decide_eq_true (List.mem_filter.mp hx).2

end XLayerReth.RcsFilter
