import XLayerReth.RcsFilter.HandleSafety

/-!
# Generation fencing across network responses

Every request to RCS remembers the lifecycles it was made for.  Between the request and its
response the same transaction may be cleaned up and inserted again.

* `Snapshot` — the lifecycles of a request were in the pool when it was made.
* `collectRelevant_expected` — a query response is applied only to lifecycles of its snapshot.
* `submitReply_untouched`, `queryReply_untouched` — a response touches no other lifecycle.

Principal result: `generation_fencing`.
-/

set_option autoImplicit false

namespace XLayerReth.RcsFilter

open Lib

/-! ## What a response can touch -/

/-- A lifecycle that no operation of a section acts on is left as it is. -/
theorem untouched {h : B256} {g : Nat} {e : BufferEntry} : ∀ (more ops : List PoolOp),
    (poolAfter ops).lifecycle h g = some e → (∀ op ∈ more, op.onEntry e = some e) →
      (poolAfter (ops ++ more)).lifecycle h g = some e
  | [], ops, he, _ => by rwa [List.append_nil]
  | op :: more, ops, he, hall => by
    have hstep : (poolAfter (ops ++ [op])).lifecycle h g = some e := by
      rw [poolAfter_concat, apply_lifecycle he, hall op List.mem_cons_self]
    have := untouched more (ops ++ [op]) hstep (fun o ho => hall o (List.mem_cons_of_mem _ ho))
    rwa [List.append_assoc] at this

theorem collectRow_expected {expected : Generations}
    {relevant : OrdMap Nat (Nat × B256 × Nat × String)}
    (hr : ∀ k v, relevant.get? k = some v → (v.2.1, v.2.2.1) ∈ expected.entries) (row : QueryTx) :
    ∀ k v, (collectRow expected relevant row).get? k = some v →
      (v.2.1, v.2.2.1) ∈ expected.entries := by
  unfold collectRow
  split
  · exact hr
  · rename_i hash hh
    split
    · exact hr
    · rename_i x generation hx
      have hkey : x = hash := Table.key_of_get? hx
      have hmem : (hash, generation) ∈ expected.entries := hkey ▸ Table.mem_of_get? hx
      have hins : ∀ priority k v,
          (relevant.insert hash.toNat (priority, hash, generation, row.status)).get? k = some v →
            (v.2.1, v.2.2.1) ∈ expected.entries := by
        intro priority k v hv
        rw [OrdMap.get?_insert] at hv
        split at hv
        · cases hv
          exact hmem
        · exact hr k v hv
      split
      · exact hr
      · rename_i priority hp
        split
        · split
          · exact hins priority
          · exact hr
        · exact hins priority

/-- **A query response is applied only to lifecycles of its snapshot.** -/
theorem collectRelevant_expected {expected : Generations} {rows : List QueryTx}
    {r : B256 × Nat × String} (h : r ∈ collectRelevant expected rows) :
    (r.1, r.2.1) ∈ expected.entries := by
  have hall : ∀ (l : List QueryTx) (m : OrdMap Nat (Nat × B256 × Nat × String)),
      (∀ k v, m.get? k = some v → (v.2.1, v.2.2.1) ∈ expected.entries) →
      ∀ k v, (l.foldl (collectRow expected) m).get? k = some v →
        (v.2.1, v.2.2.1) ∈ expected.entries := by
    intro l
    induction l with
    | nil => intro m hm; exact hm
    | cons row l ih => intro m hm; exact ih _ (collectRow_expected hm row)
  obtain ⟨v, hv, rfl⟩ := List.mem_map.mp h
  obtain ⟨p, hp, rfl⟩ := List.mem_map.mp hv
  exact hall rows OrdMap.empty (fun k v hk => by cases hk) p.1 p.2 (OrdMap.mem_entries.mp hp)

/-- A submit response touches only lifecycles of its request. -/
theorem submitReply_untouched {env : Env} {s s' : State} {i : Nat} {accepted : List String}
    {now : Nat} (hstep : step env s (.submitReply i (some accepted) now) = some s') :
    ∃ expected, s.requests[i]? = some expected ∧
      ∀ h g e, s.pool.lifecycle h g = some e → (h, g) ∉ expected.entries →
        s'.pool.lifecycle h g = some e := by
  obtain ⟨expected, hexp, rfl⟩ := Option.map_eq_some_iff.mp hstep
  refine ⟨expected, hexp, fun h g e he hnot => untouched _ s.ops he ?_⟩
  intro op hop
  rw [List.mem_singleton] at hop
  subst hop
  obtain ⟨hget, hgen⟩ := BufferPool.lifecycle_eq_some.mp he
  have hne : (e.txHash, e.generation) ∉ expected.entries := by
    rw [BufferPool.get_hash hget, hgen]
    exact hnot
  simp only [PoolOp.onEntry, if_neg hne]

/-- A query response touches only lifecycles of its snapshot. -/
theorem queryReply_untouched {env : Env} {s s' : State} {i : Nat} {rows : List QueryTx}
    {now : Nat} (hstep : step env s (.queryReply i (some rows) now) = some s') :
    ∃ task, s.queries[i]? = some task ∧
      ∀ h g e, s.pool.lifecycle h g = some e → (h, g) ∉ task.expected.entries →
        s'.pool.lifecycle h g = some e := by
  obtain ⟨task, htask, hstep⟩ := Option.bind_eq_some_iff.mp hstep
  refine ⟨task, htask, fun h g e he hnot => ?_⟩
  dsimp only at hstep
  split at hstep
  · cases hstep
  · cases hstep
    refine untouched _ s.ops he ?_
    intro op hop
    obtain ⟨r, hr, rfl⟩ := List.mem_map.mp hop
    obtain ⟨hget, hgen⟩ := BufferPool.lifecycle_eq_some.mp he
    have hne : ¬ (e.txHash = r.1 ∧ e.generation = r.2.1) := by
      rintro ⟨h1, h2⟩
      rw [BufferPool.get_hash hget] at h1
      rw [hgen] at h2
      rw [h1, h2] at hnot
      exact hnot (collectRelevant_expected hr)
    simp only [PoolOp.onEntry, if_neg hne]

/-! ## What a request was made for -/

/-- Each of the lifecycles was in the pool at an earlier moment of the run. -/
def Snapshot (ops : List PoolOp) (expected : Generations) : Prop :=
  ∀ x ∈ expected.entries, ∃ pre e, pre <+: ops ∧ (poolAfter pre).lifecycle x.1 x.2 = some e

theorem Snapshot.mono {ops ops' : List PoolOp} {expected : Generations}
    (h : Snapshot ops expected) (hp : ops <+: ops') : Snapshot ops' expected := by
  intro x hx
  obtain ⟨pre, e, hpre, he⟩ := h x hx
  exact ⟨pre, e, hpre.trans hp, he⟩

theorem mem_generationsOf {l : List (B256 × Nat)} {x : B256 × Nat}
    (h : x ∈ (generationsOf l).entries) : x ∈ l := by
  have go : ∀ (l : List (B256 × Nat)) (t : Generations),
      x ∈ (l.foldl (fun t x => (t.erase x.1).insertIfAbsent x) t).entries →
        x ∈ t.entries ∨ x ∈ l := by
    intro l
    induction l with
    | nil => intro t hx; exact .inl hx
    | cons y l ih =>
      intro t hx
      rcases ih _ hx with hx | hx
      · have hins := Table.mem_entries.mp hx
        rw [Table.get?_insertIfAbsent] at hins
        rcases Option.or_eq_some_iff.mp hins with hold | ⟨-, hnew⟩
        · exact .inl (List.mem_of_mem_filter (Table.mem_of_get? hold))
        · split at hnew
          · cases hnew
            exact .inr List.mem_cons_self
          · cases hnew
      · exact .inr (List.mem_cons_of_mem _ hx)
  rcases go l Table.empty h with hx | hx
  · cases hx
  · exact hx

/-- A pair that is the only one of its hash is not replaced. -/
theorem mem_generationsOf_of_unique {l : List (B256 × Nat)} {x : B256 × Nat} (h : x ∈ l)
    (hu : ∀ y ∈ l, y.1 = x.1 → y = x) : x ∈ (generationsOf l).entries := by
  have go : ∀ (l : List (B256 × Nat)) (t : Generations), (∀ y ∈ l, y.1 = x.1 → y = x) →
      (x ∈ l ∨ x ∈ t.entries) →
        x ∈ (l.foldl (fun t x => (t.erase x.1).insertIfAbsent x) t).entries := by
    intro l
    induction l with
    | nil =>
      intro t _ hx
      simpa using hx
    | cons y l ih =>
      intro t hu hx
      have hget : ((t.erase y.1).insertIfAbsent y).get? x.1 =
          if x.1 = y.1 then some y else t.get? x.1 := by
        rw [Table.get?_insertIfAbsent, Table.get?_erase]
        by_cases hxy : x.1 = y.1
        · simp [hxy]
        · simp [hxy, Ne.symm hxy]
      refine ih _ (fun z hz => hu z (List.mem_cons_of_mem _ hz)) ?_
      by_cases hxy : x.1 = y.1
      · obtain rfl := hu y List.mem_cons_self hxy.symm
        refine .inr (Table.mem_entries.mpr ?_)
        rw [hget, if_pos rfl]
      · have hne : x ≠ y := fun h => hxy (congrArg Prod.fst h)
        rcases hx with hx | hx
        · exact .inl ((List.mem_cons.mp hx).resolve_left hne)
        · refine .inr (Table.mem_entries.mpr ?_)
          rw [hget, if_neg hxy]
          exact Table.mem_entries.mp hx
  exact go l Table.empty hu (.inl h)

/-- Where no hash is repeated, no pair is replaced. -/
theorem mem_generationsOf_of_nodup {l : List (B256 × Nat)} {x : B256 × Nat}
    (hn : (l.map Prod.fst).Nodup) (h : x ∈ l) : x ∈ (generationsOf l).entries :=
  mem_generationsOf_of_unique h (fun _ hy hxy => List.inj_on_of_nodup_map hn hy h hxy)

/-- A request for lifecycles that are in the pool. -/
theorem snapshot_generationsOf {ops : List PoolOp} {l : List (B256 × Nat)}
    (h : ∀ x ∈ l, ∃ e, (poolAfter ops).lifecycle x.1 x.2 = some e) :
    Snapshot ops (generationsOf l) := by
  intro x hx
  obtain ⟨e, he⟩ := h x (mem_generationsOf hx)
  exact ⟨ops, e, List.prefix_rfl, he⟩

/-- A query for everything that is in flight. -/
theorem snapshot_inFlightGenerations (ops : List PoolOp) :
    Snapshot ops (poolAfter ops).inFlightGenerations := by
  intro x hx
  obtain ⟨e, he, rfl⟩ := List.mem_map.mp hx
  have hmem := BufferPool.mem_entries.mp (List.mem_of_mem_filter he)
  exact ⟨ops, e, List.prefix_rfl, BufferPool.lifecycle_eq_some.mpr ⟨hmem, rfl⟩⟩

/-- The outstanding requests and queries after one step: those before it, and at most one new one
    made for lifecycles that are in the pool. -/
theorem step_snapshots {env : Env} {s s' : State} {a : Act} (hstep : step env s a = some s')
    (hreq : ∀ expected ∈ s.requests, Snapshot s.ops expected)
    (hq : ∀ task ∈ s.queries, Snapshot s.ops task.expected) :
    (∀ expected ∈ s'.requests, Snapshot s'.ops expected) ∧
      (∀ task ∈ s'.queries, Snapshot s'.ops task.expected) := by
  have hmono := (step_calls hstep).1
  have hreq' : ∀ expected ∈ s.requests, Snapshot s'.ops expected :=
    fun expected he => (hreq expected he).mono hmono
  have hq' : ∀ task ∈ s.queries, Snapshot s'.ops task.expected :=
    fun task ht => (hq task ht).mono hmono
  cases a with
  | screen input => cases hstep; exact ⟨hreq', hq'⟩
  | callStep i now =>
    obtain ⟨c, hc, hstep⟩ := Option.bind_eq_some_iff.mp hstep
    obtain ⟨r, hr, rfl⟩ := Option.map_eq_some_iff.mp hstep
    exact ⟨hreq', hq'⟩
  | submitGroup i now =>
    obtain ⟨group, hg, rfl⟩ := Option.map_eq_some_iff.mp hstep
    dsimp only at hreq' hq' ⊢
    split
    · rename_i hempty
      rw [if_pos hempty] at hreq' hq'
      exact ⟨hreq', hq'⟩
    · rename_i hempty
      rw [if_neg hempty] at hreq' hq'
      refine ⟨fun expected he => ?_, hq'⟩
      rcases List.mem_append.mp he with he | he
      · exact hreq' expected he
      · rw [List.mem_singleton.mp he]
        refine snapshot_generationsOf (fun x hx => ?_)
        obtain ⟨entry, hentry, rfl⟩ := List.mem_map.mp hx
        obtain ⟨-, hm⟩ := List.mem_filter.mp hentry
        obtain ⟨e, hget, hgen, -⟩ := matchesStatus_eq hm
        exact ⟨e, BufferPool.lifecycle_eq_some.mpr ⟨hget, hgen⟩⟩
  | submitReply i reply now =>
    obtain ⟨expected, he, rfl⟩ := Option.map_eq_some_iff.mp hstep
    cases reply with
    | none => exact ⟨fun x hx => hreq' x (List.mem_of_mem_eraseIdx hx), hq'⟩
    | some accepted => exact ⟨fun x hx => hreq' x (List.mem_of_mem_eraseIdx hx), hq'⟩
  | queryStart now =>
    simp only [step] at hstep
    split at hstep
    · cases hstep
      exact ⟨hreq', hq'⟩
    · cases hstep
      refine ⟨hreq', fun task ht => ?_⟩
      rcases List.mem_append.mp ht with ht | ht
      · exact hq' task ht
      · rw [List.mem_singleton.mp ht]
        exact snapshot_inFlightGenerations _
  | queryReply i reply now =>
    obtain ⟨task, ht, hstep⟩ := Option.bind_eq_some_iff.mp hstep
    have htask : task ∈ s.queries := List.mem_of_getElem? ht
    dsimp only at hstep
    split at hstep
    · cases hstep
    · rename_i st rest hst
      have hqs : ∀ t ∈ (if rest.isEmpty then s.queries.eraseIdx i
          else s.queries.set i { task with statuses := rest }), Snapshot s'.ops t.expected := by
        intro t htm
        split at htm
        · exact hq' t (List.mem_of_mem_eraseIdx htm)
        · rcases List.mem_or_eq_of_mem_set htm with htm | rfl
          · exact hq' t htm
          · exact hq' task htask
      cases reply with
      | none => cases hstep; exact ⟨hreq', hqs⟩
      | some rows => cases hstep; exact ⟨hreq', hqs⟩
  | emit i =>
    obtain ⟨event, he, rfl⟩ := Option.map_eq_some_iff.mp hstep
    exact ⟨hreq', hq'⟩
  | submitCollect | timeoutTick | installRules | removeCanonical | recoverLag
  | removeNonTerminal =>
    cases hstep
    exact ⟨hreq', hq'⟩

/-- **Every outstanding request and query of every run was made for lifecycles that were in the
    pool.** -/
theorem snapshots_of_run {env : Env} (acts : List Act) : ∀ s, run env State.new acts = some s →
    (∀ expected ∈ s.requests, Snapshot s.ops expected) ∧
      (∀ task ∈ s.queries, Snapshot s.ops task.expected) := by
  refine run_induction (fun _ s => (∀ expected ∈ s.requests, Snapshot s.ops expected) ∧
    ∀ task ∈ s.queries, Snapshot s.ops task.expected) ?_ ?_ acts
  · exact ⟨fun _ h => (by cases h), fun _ h => (by cases h)⟩
  · intro _ s a s' _ ih hstep
    exact step_snapshots hstep ih.1 ih.2

/-! ## The fence -/

/-- A response made for some lifecycles leaves every other lifecycle of their transactions as it
    is. -/
def ResponseFenced (p p' : BufferPool) (expected : Generations) : Prop :=
  ∀ h g₀ e, (h, g₀) ∈ expected.entries → p.get h = some e → e.generation ≠ g₀ →
    p'.get h = some e

theorem responseFenced_of_untouched {p p' : BufferPool} {expected : Generations}
    (hu : ∀ h g e, p.lifecycle h g = some e → (h, g) ∉ expected.entries →
      p'.lifecycle h g = some e) : ResponseFenced p p' expected := by
  intro h g₀ e hm hget hne
  have hnot : (h, e.generation) ∉ expected.entries := by
    intro hm'
    have h1 := Table.get?_of_mem hm
    have h2 := Table.get?_of_mem hm'
    rw [h1, Option.some.injEq] at h2
    exact hne (Prod.mk.inj h2).2.symm
  have hl := hu h e.generation e (BufferPool.lifecycle_eq_some.mpr ⟨hget, rfl⟩) hnot
  exact (BufferPool.lifecycle_eq_some.mp hl).1

/-- **Generation fencing.**  Over any run of fewer than `2 ^ 64` inserts, every successful insert
    gets a generation above all earlier ones, an insert on a present hash changes nothing, and a
    hash that was removed and inserted again is fenced against its older generation.  In every
    run of the whole system, a response to a submit request or a status query leaves every
    lifecycle it was not made for as it is. -/
theorem generation_fencing (ops : List PoolOp) (hc : insertCount ops < 2 ^ 64) :
    (∀ pre entry fresh, pre ++ [.insert entry fresh] <+: ops →
      ((poolAfter pre).get entry.txHash = none →
        ∃ g, (poolAfter (pre ++ [.insert entry fresh])).get entry.txHash =
            some { entry with generation := g } ∧
          ∀ pre' h e, pre' <+: pre → (poolAfter pre').get h = some e → e.generation < g) ∧
      (∀ e, (poolAfter pre).get entry.txHash = some e →
        poolAfter (pre ++ [.insert entry fresh]) = poolAfter pre)) ∧
    (∀ pre mid h g e₀ e, pre <+: mid → mid <+: ops → (poolAfter pre).lifecycle h g = some e₀ →
      (poolAfter mid).get h = none → (poolAfter ops).get h = some e →
        g < e.generation ∧ Fenced (poolAfter ops) h g) ∧
    (∀ env acts s, run env State.new acts = some s →
      (∀ i accepted now s', step env s (.submitReply i (some accepted) now) = some s' →
        ∃ expected, s.requests[i]? = some expected ∧ Snapshot s.ops expected ∧
          ResponseFenced s.pool s'.pool expected) ∧
      (∀ i rows now s', step env s (.queryReply i (some rows) now) = some s' →
        ∃ task, s.queries[i]? = some task ∧ Snapshot s.ops task.expected ∧
          ResponseFenced s.pool s'.pool task.expected)) := by
  refine ⟨?_, ?_, ?_⟩
  · rintro pre entry fresh ⟨rest, rfl⟩
    rw [insertCount_append] at hc
    refine ⟨fun habs => insert_generation (by omega) habs, fun e he => ?_⟩
    rw [poolAfter_concat]
    exact BufferPool.insert_of_present he
  · rintro pre mid h g e₀ e ⟨r₁, rfl⟩ ⟨r₂, rfl⟩ h₀ habs he
    obtain ⟨hget, hgen⟩ := BufferPool.lifecycle_eq_some.mp h₀
    have hlt := generation_after_removal (pre ++ r₁) r₂ hc habs he
    rw [insertCount_append, insertCount_append] at hc
    have hle := (generation_le pre (by omega)).2 h e₀ hget
    have hmono := nextGeneration_mono pre r₁ (by rw [insertCount_append]; omega)
    have hg : g < e.generation := by omega
    refine ⟨hg, fenced_of_stale ?_⟩
    rw [BufferPool.lifecycle_eq_none, he]
    rintro _ ⟨⟩
    omega
  · intro env acts s hrun
    obtain ⟨hreq, hq⟩ := snapshots_of_run acts s hrun
    refine ⟨fun i accepted now s' hstep => ?_, fun i rows now s' hstep => ?_⟩
    · obtain ⟨expected, hexp, hu⟩ := submitReply_untouched hstep
      exact ⟨expected, hexp, hreq expected (List.mem_of_getElem? hexp),
        responseFenced_of_untouched hu⟩
    · obtain ⟨task, htask, hu⟩ := queryReply_untouched hstep
      exact ⟨task, htask, hq task (List.mem_of_getElem? htask), responseFenced_of_untouched hu⟩

section Reinserted

/-- The entry buffered for `transferInput`. -/
def transferEntry : BufferEntry :=
  freshEntry transferEnv transferInput transferRules OrdMap.empty .deny 0

/-- The transaction is buffered, cleaned up as canonical, and buffered again. -/
def reinsertedRun : List PoolOp :=
  [.insert transferEntry rfl, .removeCanonical [transferInput.txHash], .insert transferEntry rfl]

theorem generation_fencing_reinserted : Fenced (poolAfter reinsertedRun) transferInput.txHash 1 :=
  ((generation_fencing reinsertedRun (by decide)).2.1 [.insert transferEntry rfl]
    [.insert transferEntry rfl, .removeCanonical [transferInput.txHash]] transferInput.txHash 1
    { transferEntry with generation := 1 } { transferEntry with generation := 2 }
    ⟨[.removeCanonical [transferInput.txHash]], rfl⟩ ⟨[.insert transferEntry rfl], rfl⟩
    rfl rfl rfl).2

end Reinserted

end XLayerReth.RcsFilter
