import XLayerReth.RcsFilter.TerminalEvents

/-!
# Query responses are sets of rows

RCS answers a status query with a list of rows in any order, with repetitions, with several
spellings of one hash and possibly with contradictory statuses for it.

* `QueryTx.effective` — what a row says about a hash of the snapshot; nothing, when the hash is
  not in the snapshot or the status is unknown.
* `SameResponse` — two responses say the same, as sets.
* `collectRelevant_alike` — such responses leave the same hashes, at the same priority.
* `Alike` — two states that differ at most in the reasons of terminal events and in the ghost
  history; `step_alike`, `run_alike` — no run tells apart responses that say the same.

Principal result: `query_order_insensitive`.
-/

set_option autoImplicit false

namespace XLayerReth.RcsFilter

open Lib

/-! ## What a response says -/

/-- The hash of the snapshot a row speaks of and the known status it gives. -/
def QueryTx.effective (expected : Generations) (row : QueryTx) : Option (B256 × String) :=
  (B256.fromStr row.txHash).bind (fun hash =>
    if (expected.get? hash).isSome ∧ (queryPriority row.status).isSome then
      some (hash, row.status)
    else none)

/-- A response gives a status for a hash of the snapshot. -/
def Says (expected : Generations) (rows : List QueryTx) (hash : B256) (status : String) : Prop :=
  ∃ row ∈ rows, row.effective expected = some (hash, status)

/-- Two responses say the same about the snapshot. -/
def SameResponse (expected : Generations) (rows rows' : List QueryTx) : Prop :=
  ∀ hash status, Says expected rows hash status ↔ Says expected rows' hash status

/-- Two rows with the same status for one hash, in any two spellings. -/
def QueryTx.Respells (row row' : QueryTx) : Prop :=
  B256.fromStr row'.txHash = B256.fromStr row.txHash ∧ row'.status = row.status

theorem QueryTx.Respells.effective {row row' : QueryTx} (h : row.Respells row')
    (expected : Generations) : row'.effective expected = row.effective expected := by
  unfold QueryTx.effective
  rw [h.1, h.2]

/-- Permuted, repeated and respelled rows say the same. -/
theorem sameResponse_of_respells {rows rows' : List QueryTx} (expected : Generations)
    (h : ∀ row ∈ rows, ∃ row' ∈ rows', row.Respells row')
    (h' : ∀ row' ∈ rows', ∃ row ∈ rows, row'.Respells row) :
    SameResponse expected rows rows' := by
  intro hash status
  constructor
  · rintro ⟨row, hrow, heff⟩
    obtain ⟨row', hrow', hsame⟩ := h row hrow
    exact ⟨row', hrow', (hsame.effective expected).trans heff⟩
  · rintro ⟨row', hrow', heff⟩
    obtain ⟨row, hrow, hsame⟩ := h' row' hrow'
    exact ⟨row, hrow, (hsame.effective expected).trans heff⟩

/-- Rows for hashes outside the snapshot and rows with unknown statuses add nothing. -/
theorem sameResponse_filter (expected : Generations) (rows : List QueryTx) :
    SameResponse expected (rows.filter (fun row => (row.effective expected).isSome)) rows := by
  intro hash status
  constructor
  · rintro ⟨row, hrow, heff⟩
    exact ⟨row, List.mem_of_mem_filter hrow, heff⟩
  · rintro ⟨row, hrow, heff⟩
    refine ⟨row, List.mem_filter.mpr ⟨hrow, ?_⟩, heff⟩
    rw [heff]
    rfl

theorem effective_eq_some {expected : Generations} {row : QueryTx} {hash : B256}
    {status : String} : row.effective expected = some (hash, status) ↔
      B256.fromStr row.txHash = some hash ∧ (expected.get? hash).isSome ∧
        (queryPriority row.status).isSome ∧ row.status = status := by
  unfold QueryTx.effective
  rw [Option.bind_eq_some_iff]
  constructor
  · rintro ⟨hash', hparse, h⟩
    split at h
    · rename_i hcond
      cases h
      exact ⟨hparse, hcond.1, hcond.2, rfl⟩
    · cases h
  · rintro ⟨hparse, hexp, hprio, rfl⟩
    exact ⟨hash, hparse, if_pos ⟨hexp, hprio⟩⟩

/-! ## The row that is kept -/

/-- What the map of kept rows holds under a hash: a row of the response with the highest priority
    of all its rows for the hash. -/
structure Kept (expected : Generations) (rows : List QueryTx) (k : Nat)
    (v : Nat × B256 × Nat × String) : Prop where
  key : v.2.1.toNat = k
  current : expected.get? v.2.1 = some (v.2.1, v.2.2.1)
  priority : queryPriority v.2.2.2 = some v.1
  said : Says expected rows v.2.1 v.2.2.2
  top : ∀ status p, Says expected rows v.2.1 status → queryPriority status = some p → p ≤ v.1

/-- The map of kept rows after a beginning of the response. -/
structure KeptMap (expected : Generations) (rows : List QueryTx)
    (m : OrdMap Nat (Nat × B256 × Nat × String)) : Prop where
  kept : ∀ k v, m.get? k = some v → Kept expected rows k v
  absent : ∀ hash status, m.get? hash.toNat = none → ¬ Says expected rows hash status

theorem says_concat {expected : Generations} {rows : List QueryTx} {row : QueryTx} {hash : B256}
    {status : String} : Says expected (rows ++ [row]) hash status ↔
      Says expected rows hash status ∨ row.effective expected = some (hash, status) := by
  unfold Says
  constructor
  · rintro ⟨r, hr, heff⟩
    rcases List.mem_append.mp hr with hr | hr
    · exact .inl ⟨r, hr, heff⟩
    · rw [List.mem_singleton.mp hr] at heff
      exact .inr heff
  · rintro (⟨r, hr, heff⟩ | heff)
    · exact ⟨r, List.mem_append_left _ hr, heff⟩
    · exact ⟨row, List.mem_append_right _ (List.mem_singleton_self row), heff⟩

/-- A row that says nothing changes nothing. -/
theorem collectRow_of_none {expected : Generations} {row : QueryTx}
    (h : row.effective expected = none) (m : OrdMap Nat (Nat × B256 × Nat × String)) :
    collectRow expected m row = m := by
  unfold QueryTx.effective at h
  unfold collectRow
  cases hparse : B256.fromStr row.txHash with
  | none => rfl
  | some hash =>
    rw [hparse, Option.bind_some] at h
    dsimp only
    cases hexp : expected.get? hash with
    | none => rfl
    | some x =>
      dsimp only
      cases hprio : queryPriority row.status with
      | none => rfl
      | some p =>
        rw [hexp, hprio, if_pos ⟨rfl, rfl⟩] at h
        cases h

/-- A row that speaks of a hash is kept unless one of at least its priority is. -/
theorem collectRow_of_some {expected : Generations} {row : QueryTx} {hash : B256}
    {generation priority : Nat} (hparse : B256.fromStr row.txHash = some hash)
    (hexp : expected.get? hash = some (hash, generation))
    (hprio : queryPriority row.status = some priority)
    (m : OrdMap Nat (Nat × B256 × Nat × String)) :
    collectRow expected m row =
      if ∃ v, m.get? hash.toNat = some v ∧ priority ≤ v.1 then m
      else m.insert hash.toNat (priority, hash, generation, row.status) := by
  unfold collectRow
  rw [hparse]
  dsimp only
  rw [hexp]
  dsimp only
  rw [hprio]
  dsimp only
  cases hm : m.get? hash.toNat with
  | none => simp
  | some v =>
    obtain ⟨current, rest⟩ := v
    by_cases hle : priority ≤ current
    · simp [hle, Nat.not_lt.mpr hle]
    · simp [hle, Nat.not_le.mp hle]

theorem KeptMap.empty (expected : Generations) : KeptMap expected [] OrdMap.empty where
  kept := by
    intro k v h
    cases h
  absent := by
    rintro hash status - ⟨row, hrow, -⟩
    cases hrow

theorem KeptMap.ignore {expected : Generations} {rows : List QueryTx} {row : QueryTx}
    {m : OrdMap Nat (Nat × B256 × Nat × String)} (hm : KeptMap expected rows m)
    (h : row.effective expected = none) : KeptMap expected (rows ++ [row]) m := by
  have hsame : ∀ hash status, Says expected (rows ++ [row]) hash status ↔
      Says expected rows hash status := by
    intro hash status
    rw [says_concat, h]
    simp
  constructor
  · intro k v hv
    have hk := hm.kept k v hv
    exact ⟨hk.key, hk.current, hk.priority, (hsame _ _).mpr hk.said,
      fun status p hs => hk.top status p ((hsame _ _).mp hs)⟩
  · intro hash status hnone
    rw [hsame]
    exact hm.absent hash status hnone

/-- **One row** keeps the map of kept rows right. -/
theorem KeptMap.collectRow {expected : Generations} {rows : List QueryTx}
    {m : OrdMap Nat (Nat × B256 × Nat × String)} (hm : KeptMap expected rows m) (row : QueryTx) :
    KeptMap expected (rows ++ [row]) (collectRow expected m row) := by
  cases heff : row.effective expected with
  | none =>
    rw [collectRow_of_none heff]
    exact hm.ignore heff
  | some x =>
    obtain ⟨hash, status⟩ := x
    obtain ⟨hparse, hexp, hprio, rfl⟩ := effective_eq_some.mp heff
    obtain ⟨⟨hash', generation⟩, hexp⟩ := Option.isSome_iff_exists.mp hexp
    obtain ⟨priority, hprio⟩ := Option.isSome_iff_exists.mp hprio
    obtain rfl : hash' = hash := Table.key_of_get? hexp
    rw [collectRow_of_some hparse hexp hprio]
    have hspeaks : ∀ h s, Says expected (rows ++ [row]) h s ↔
        Says expected rows h s ∨ (h = hash' ∧ s = row.status) := by
      intro h s
      rw [says_concat, heff, Option.some.injEq, Prod.mk.injEq]
      exact or_congr_right ⟨fun h => ⟨h.1.symm, h.2.symm⟩, fun h => ⟨h.1.symm, h.2.symm⟩⟩
    by_cases hkeep : ∃ v, m.get? hash'.toNat = some v ∧ priority ≤ v.1
    · rw [if_pos hkeep]
      obtain ⟨v₀, hv₀, hle⟩ := hkeep
      constructor
      · intro k v hv
        have hk := hm.kept k v hv
        refine ⟨hk.key, hk.current, hk.priority, (hspeaks _ _).mpr (.inl hk.said), ?_⟩
        intro s p hs hp
        rcases (hspeaks _ _).mp hs with hs | ⟨hhash, rfl⟩
        · exact hk.top s p hs hp
        · rw [hprio] at hp
          cases hp
          rw [← hk.key, hhash, hv₀] at hv
          cases hv
          exact hle
      · intro h s hnone hs
        rcases (hspeaks _ _).mp hs with hs | ⟨rfl, rfl⟩
        · exact hm.absent h s hnone hs
        · rw [hv₀] at hnone
          cases hnone
    · rw [if_neg hkeep]
      constructor
      · intro k v hv
        rw [OrdMap.get?_insert] at hv
        by_cases hkey : k = hash'.toNat
        · rw [if_pos hkey] at hv
          cases hv
          refine ⟨hkey.symm, hexp, hprio, (hspeaks _ _).mpr (.inr ⟨rfl, rfl⟩), ?_⟩
          intro s p hs hp
          rcases (hspeaks _ _).mp hs with hs | ⟨-, rfl⟩
          · -- the row kept before, if any, is below the new one
            cases hold : m.get? hash'.toNat with
            | none => exact absurd hs (hm.absent hash' s hold)
            | some v =>
              have hv := hm.kept _ v hold
              have hsame : v.2.1 = hash' := BitVec.eq_of_toNat_eq hv.key
              have hlt : ¬ priority ≤ v.1 := fun hle => hkeep ⟨v, hold, hle⟩
              have htop := hv.top s p (hsame ▸ hs) hp
              dsimp only
              omega
          · rw [hprio] at hp
            cases hp
            exact le_refl _
        · rw [if_neg hkey] at hv
          have hk := hm.kept k v hv
          refine ⟨hk.key, hk.current, hk.priority, (hspeaks _ _).mpr (.inl hk.said), ?_⟩
          intro s p hs hp
          rcases (hspeaks _ _).mp hs with hs | ⟨hhash, -⟩
          · exact hk.top s p hs hp
          · exact absurd (hk.key.symm.trans (congrArg BitVec.toNat hhash)) hkey
      · intro h s hnone hs
        rw [OrdMap.get?_insert] at hnone
        by_cases hkey : h.toNat = hash'.toNat
        · rw [if_pos hkey] at hnone
          cases hnone
        · rw [if_neg hkey] at hnone
          rcases (hspeaks _ _).mp hs with hs | ⟨rfl, -⟩
          · exact hm.absent h s hnone hs
          · exact hkey rfl

/-- **The kept rows of a response.** -/
theorem keptMap (expected : Generations) (rows : List QueryTx) :
    KeptMap expected rows (rows.foldl (collectRow expected) OrdMap.empty) := by
  induction rows using List.reverseRecOn with
  | nil => exact KeptMap.empty expected
  | append_singleton rows row ih =>
    rw [List.foldl_append, List.foldl_cons, List.foldl_nil]
    exact ih.collectRow row

/-- The lifecycle a kept row addresses and the priority of its status. -/
def rowKey (r : B256 × Nat × String) : B256 × Nat × Option Nat := (r.1, r.2.1, queryPriority r.2.2)

/-- What is kept under a key depends only on what the response says. -/
theorem kept_alike {expected : Generations} {rows rows' : List QueryTx}
    {m m' : OrdMap Nat (Nat × B256 × Nat × String)} (hm : KeptMap expected rows m)
    (hm' : KeptMap expected rows' m') (hs : SameResponse expected rows rows') (k : Nat) :
    (m.mapValues (fun v => rowKey v.2)).get? k = (m'.mapValues (fun v => rowKey v.2)).get? k := by
  rw [OrdMap.get?_mapValues, OrdMap.get?_mapValues]
  cases hv : m.get? k with
  | none =>
    cases hv' : m'.get? k with
    | none => rfl
    | some v' =>
      have hk' := hm'.kept k v' hv'
      exact absurd ((hs _ _).mpr hk'.said) (hm.absent _ _ (by rw [hk'.key]; exact hv))
  | some v =>
    have hk := hm.kept k v hv
    cases hv' : m'.get? k with
    | none => exact absurd ((hs _ _).mp hk.said) (hm'.absent _ _ (by rw [hk.key]; exact hv'))
    | some v' =>
      have hk' := hm'.kept k v' hv'
      have hhash : v.2.1 = v'.2.1 := BitVec.eq_of_toNat_eq (hk.key.trans hk'.key.symm)
      have hgen : v.2.2.1 = v'.2.2.1 := by
        have hcur := hk.current
        rw [hhash, hk'.current, Option.some.injEq, Prod.mk.injEq] at hcur
        exact hcur.2.symm
      have hle : v.1 ≤ v'.1 := hk'.top _ _ ((hs _ _).mp (hhash ▸ hk.said)) hk.priority
      have hge : v'.1 ≤ v.1 := hk.top _ _ ((hs _ _).mpr (hhash ▸ hk'.said)) hk'.priority
      have hprio : queryPriority v.2.2.2 = queryPriority v'.2.2.2 := by
        rw [hk.priority, hk'.priority, Nat.le_antisymm hle hge]
      simp only [Option.map_some, rowKey, hhash, hgen, hprio]

/-- **Responses that say the same leave the same lifecycles, at the same priority.** -/
theorem collectRelevant_alike {expected : Generations} {rows rows' : List QueryTx}
    (hs : SameResponse expected rows rows') :
    (collectRelevant expected rows).map rowKey = (collectRelevant expected rows').map rowKey := by
  have hmap := OrdMap.eq_of_get? (kept_alike (keptMap expected rows) (keptMap expected rows') hs)
  have hvalues := congrArg OrdMap.values hmap
  unfold OrdMap.values OrdMap.mapValues at hvalues
  simp only [List.map_map] at hvalues
  unfold collectRelevant OrdMap.values
  simp only [List.map_map]
  exact hvalues

/-! ## Applying the kept rows -/

/-- The lifecycle of a terminal event. -/
def TerminalEvent.lifecycle (event : TerminalEvent) : B256 × Nat := (event.txHash, event.generation)

/-- Statuses of one priority are one status, or both rejections. -/
theorem status_of_priority {status status' : String}
    (h : queryPriority status = queryPriority status') :
    (status = "pending" ↔ status' = "pending") ∧ (status = "approved" ↔ status' = "approved") ∧
      ((status = "denied" ∨ status = "outdated") ↔
        (status' = "denied" ∨ status' = "outdated")) := by
  have hvalue : ∀ s, (s = "pending" ↔ queryPriority s = some 0) ∧
      (s = "approved" ↔ queryPriority s = some 1) ∧
      ((s = "denied" ∨ s = "outdated") ↔ queryPriority s = some 2) := by
    intro s
    by_cases hd : s = "denied"
    · subst hd
      decide
    by_cases ho : s = "outdated"
    · subst ho
      decide
    by_cases ha : s = "approved"
    · subst ha
      decide
    by_cases hp : s = "pending"
    · subst hp
      decide
    simp [queryPriority, hd, ho, ha, hp]
  obtain ⟨h0, h1, h2⟩ := hvalue status
  obtain ⟨h0', h1', h2'⟩ := hvalue status'
  rw [h0, h1, h2, h0', h1', h2', h]
  exact ⟨Iff.rfl, Iff.rfl, Iff.rfl⟩

/-- Statuses of one priority do the same to an entry and announce it alike. -/
theorem queryEntry_alike {status status' : String}
    (h : queryPriority status = queryPriority status') (cfg : FilterConfig) (now : Nat)
    (e : BufferEntry) :
    (queryEntry cfg now status e).1 = (queryEntry cfg now status' e).1 ∧
      ∀ hash g, (queryEvent hash g (queryEntry cfg now status e).2).map TerminalEvent.lifecycle =
        (queryEvent hash g (queryEntry cfg now status' e).2).map TerminalEvent.lifecycle := by
  obtain ⟨hp, ha, hd⟩ := status_of_priority h
  have hreason : ∀ (s s' : String) (hash : B256) (g : Nat),
      (queryEvent hash g (some (if s = "outdated" then .outdated else .denied))).map
          TerminalEvent.lifecycle =
        (queryEvent hash g (some (if s' = "outdated" then .outdated else .denied))).map
          TerminalEvent.lifecycle := by
    intro s s' hash g
    by_cases hs : s = "outdated" <;> by_cases hs' : s' = "outdated" <;> simp [hs, hs', queryEvent,
      TerminalEvent.lifecycle]
  unfold queryEntry
  cases e.status.isTerminal with
  | true => exact ⟨rfl, fun _ _ => rfl⟩
  | false =>
    rw [if_neg Bool.false_ne_true, if_neg Bool.false_ne_true]
    obtain ⟨e', resolution⟩ := resolveTotalTimeout cfg now e
    cases resolution with
    | some resolution => exact ⟨rfl, fun _ _ => rfl⟩
    | none =>
      simp only [hp, ha, hd]
      by_cases hp' : status' = "pending"
      · simp only [if_pos hp']
        exact ⟨trivial, fun _ _ => trivial⟩
      rw [if_neg hp', if_neg hp']
      by_cases ha' : status' = "approved"
      · simp only [if_pos ha']
        exact ⟨trivial, fun _ _ => trivial⟩
      rw [if_neg ha', if_neg ha']
      by_cases hd' : status' = "denied" ∨ status' = "outdated"
      · rw [if_pos hd', if_pos hd']
        exact ⟨rfl, hreason status status'⟩
      · rw [if_neg hd', if_neg hd']
        exact ⟨rfl, fun _ _ => rfl⟩

theorem applyQueryStatus_alike {status status' : String}
    (h : queryPriority status = queryPriority status') (p : BufferPool) (hash : B256) (g : Nat)
    (cfg : FilterConfig) (now : Nat) :
    (p.applyQueryStatus hash g status cfg now).1 = (p.applyQueryStatus hash g status' cfg now).1 ∧
      (queryEvent hash g (p.applyQueryStatus hash g status cfg now).2).map
          TerminalEvent.lifecycle =
        (queryEvent hash g (p.applyQueryStatus hash g status' cfg now).2).map
          TerminalEvent.lifecycle := by
  constructor
  · have hf : (fun e => (queryEntry cfg now status e).1) =
        (fun e => (queryEntry cfg now status' e).1) :=
      funext (fun e => (queryEntry_alike h cfg now e).1)
    simp only [BufferPool.applyQueryStatus, hf]
  · unfold BufferPool.applyQueryStatus
    cases p.lifecycle hash g with
    | none => rfl
    | some e => exact (queryEntry_alike h cfg now e).2 hash g

/-- **Rows of the same lifecycles and priorities do the same to the pool and announce the same
    lifecycles.** -/
theorem relevant_alike (cfg : FilterConfig) (now : Nat) : ∀ (l l' : List (B256 × Nat × String))
    (p : BufferPool), l.map rowKey = l'.map rowKey →
      (relevantOps cfg now l).foldl (fun p op => op.apply p) p =
          (relevantOps cfg now l').foldl (fun p op => op.apply p) p ∧
        (relevantEvents cfg now p l).map TerminalEvent.lifecycle =
          (relevantEvents cfg now p l').map TerminalEvent.lifecycle
  | [], [], _, _ => ⟨rfl, rfl⟩
  | [], _ :: _, _, h => by cases h
  | _ :: _, [], _, h => by cases h
  | r :: l, r' :: l', p, h => by
    obtain ⟨hash, g, status⟩ := r
    obtain ⟨hash', g', status'⟩ := r'
    rw [List.map_cons, List.map_cons, List.cons.injEq] at h
    obtain ⟨hr, hl⟩ := h
    unfold rowKey at hr
    rw [Prod.mk.injEq, Prod.mk.injEq] at hr
    obtain ⟨rfl, rfl, hprio⟩ : hash = hash' ∧ g = g' ∧
      queryPriority status = queryPriority status' := hr
    obtain ⟨hpool, hevent⟩ := applyQueryStatus_alike hprio p hash g cfg now
    obtain ⟨ihpool, ihevents⟩ :=
      relevant_alike cfg now l l' (p.applyQueryStatus hash g status cfg now).1 hl
    constructor
    · show (relevantOps cfg now l).foldl _ (p.applyQueryStatus hash g status cfg now).1 =
        (relevantOps cfg now l').foldl _ (p.applyQueryStatus hash g status' cfg now).1
      rw [← hpool]
      exact ihpool
    · simp only [relevantEvents, List.map_append]
      rw [← hpool, ihevents]
      have hlist := congrArg Option.toList hevent
      rw [Option.toList_map, Option.toList_map] at hlist
      rw [hlist]

/-! ## Runs that differ in their query responses -/

/-- A call without its ghost history. -/
def Call.view (c : Call) : ScreenInput × Phase × Option RuleSet := (c.input, c.phase, c.rulesRead)

/-- Two states with the same pool, the same work in progress and the same lifecycles announced.
    They may differ in the reasons announced and in the operations that led to the pool. -/
structure Alike (s t : State) : Prop where
  pool : s.pool = t.pool
  rules : s.rules = t.rules
  ready : s.ready = t.ready
  calls : s.calls.map Call.view = t.calls.map Call.view
  groups : s.groups = t.groups
  requests : s.requests = t.requests
  queries : s.queries = t.queries
  outbox : s.outbox.map TerminalEvent.lifecycle = t.outbox.map TerminalEvent.lifecycle
  events : s.events.map TerminalEvent.lifecycle = t.events.map TerminalEvent.lifecycle

theorem Alike.refl (s : State) : Alike s s := ⟨rfl, rfl, rfl, rfl, rfl, rfl, rfl, rfl, rfl⟩

theorem Alike.reported {s t : State} (h : Alike s t) :
    s.reported.map TerminalEvent.lifecycle = t.reported.map TerminalEvent.lifecycle := by
  unfold State.reported
  rw [List.map_append, List.map_append, h.events, h.outbox]

theorem pool_append (ops more : List PoolOp) :
    poolAfter (ops ++ more) = more.foldl (fun p op => op.apply p) (poolAfter ops) :=
  List.foldl_append

theorem Alike.withGroups {s t : State} (h : Alike s t) (groups : List (List SubmitEntry)) :
    Alike { s with groups := groups } { t with groups := groups } :=
  ⟨h.pool, h.rules, h.ready, h.calls, rfl, h.requests, h.queries, h.outbox, h.events⟩

theorem Alike.withRequests {s t : State} (h : Alike s t) (requests : List Generations) :
    Alike { s with requests := requests } { t with requests := requests } :=
  ⟨h.pool, h.rules, h.ready, h.calls, h.groups, rfl, h.queries, h.outbox, h.events⟩

theorem Alike.withQueries {s t : State} (h : Alike s t) (queries : List QueryTask) :
    Alike { s with queries := queries } { t with queries := queries } :=
  ⟨h.pool, h.rules, h.ready, h.calls, h.groups, h.requests, rfl, h.outbox, h.events⟩

/-- A lock section with the same effect on the pool and the same announcements. -/
theorem Alike.perform {s t : State} (h : Alike s t) {ops ops' : List PoolOp}
    {events events' : List TerminalEvent}
    (hops : ops.foldl (fun p op => op.apply p) s.pool = ops'.foldl (fun p op => op.apply p) s.pool)
    (hevents : events.map TerminalEvent.lifecycle = events'.map TerminalEvent.lifecycle) :
    Alike (s.perform ops events) (t.perform ops' events') where
  pool := by
    show poolAfter (s.ops ++ ops) = poolAfter (t.ops ++ ops')
    rw [pool_append, pool_append]
    show ops.foldl _ s.pool = ops'.foldl _ t.pool
    rw [← h.pool]
    exact hops
  rules := h.rules
  ready := h.ready
  calls := h.calls
  groups := h.groups
  requests := h.requests
  queries := h.queries
  outbox := by
    show (s.outbox ++ events).map _ = (t.outbox ++ events').map _
    rw [List.map_append, List.map_append, h.outbox, hevents]
  events := h.events

theorem Alike.resolveExpired {s t : State} (h : Alike s t) (env : Env) (now : Nat) :
    Alike (s.resolveExpired env now) (t.resolveExpired env now) := by
  unfold State.resolveExpired
  rw [← h.pool]
  exact h.perform rfl rfl

/-- The next section of a call does not read the ghost history. -/
theorem advance_view (env : Env) {ops ops' : List PoolOp} (rules : RuleSet) (now : Nat)
    {c c' : Call} (hpool : poolAfter ops = poolAfter ops') (hc : c.view = c'.view) :
    (c.advance env ops rules now).map (fun r => (r.1, r.2.view)) =
      (c'.advance env ops' rules now).map (fun r => (r.1, r.2.view)) := by
  obtain ⟨input, phase, rulesRead, sections⟩ := c
  obtain ⟨input', phase', rulesRead', sections'⟩ := c'
  unfold Call.view at hc
  rw [Prod.mk.injEq, Prod.mk.injEq] at hc
  obtain ⟨rfl, rfl, rfl⟩ : input = input' ∧ phase = phase' ∧ rulesRead = rulesRead' := hc
  unfold Call.advance
  rw [← hpool]
  cases phase with
  | lookup =>
    dsimp only
    cases (poolAfter ops).get input.txHash <;> rfl
  | readRules => rfl
  | recheck =>
    dsimp only
    cases (poolAfter ops).get input.txHash <;> rfl
  | insert rules' actions timeoutAction => rfl
  | confirm status storedHash generation ruleSnapshot => cases status <;> rfl
  | metrics result => rfl
  | done result => rfl

/-- Two actions that differ at most in what a query response looks like. -/
def SameAct (s : State) : Act → Act → Prop
  | .queryReply i (some rows) now, .queryReply j (some rows') now' =>
    i = j ∧ now = now' ∧
      ∀ task, s.queries[i]? = some task → SameResponse task.expected rows rows'
  | a, a' => a = a'

/-- Two sequences of actions that differ at most in what the query responses look like. -/
def SameActs (env : Env) : State → List Act → List Act → Prop
  | _, [], [] => True
  | s, a :: acts, a' :: acts' =>
    SameAct s a a' ∧ ∀ s', step env s a = some s' → SameActs env s' acts acts'
  | _, _, _ => False

/-- The same action, or two responses that say the same. -/
theorem sameAct_cases {s : State} {a a' : Act} (h : SameAct s a a') :
    a = a' ∨ ∃ i rows rows' now, a = .queryReply i (some rows) now ∧
      a' = .queryReply i (some rows') now ∧
      ∀ task, s.queries[i]? = some task → SameResponse task.expected rows rows' := by
  unfold SameAct at h
  split at h
  · obtain ⟨rfl, rfl, hsame⟩ := h
    exact .inr ⟨_, _, _, _, rfl, rfl, hsame⟩
  · exact .inl h

theorem getElem?_view {l l' : List Call} (h : l.map Call.view = l'.map Call.view) {i : Nat}
    {c : Call} (hc : l[i]? = some c) : ∃ c', l'[i]? = some c' ∧ c.view = c'.view := by
  have hi := congrArg (fun m => m[i]?) h
  simp only [List.getElem?_map, hc, Option.map_some] at hi
  obtain ⟨c', hc', hview⟩ := Option.map_eq_some_iff.mp hi.symm
  exact ⟨c', hc', hview.symm⟩

/-- **A response that says the same**: the states stay alike. -/
theorem queryReply_alike {env : Env} {s t s' : State} (h : Alike s t) {i : Nat}
    {rows rows' : List QueryTx} {now : Nat}
    (hsame : ∀ task, s.queries[i]? = some task → SameResponse task.expected rows rows')
    (hstep : step env s (.queryReply i (some rows) now) = some s') :
    ∃ t', step env t (.queryReply i (some rows') now) = some t' ∧ Alike s' t' := by
  obtain ⟨task, htask, hstep⟩ := Option.bind_eq_some_iff.mp hstep
  have hkeys := collectRelevant_alike (hsame task htask)
  obtain ⟨hpool, hevents⟩ := relevant_alike env.config now _ _ s.pool hkeys
  simp only [step]
  rw [← h.queries, htask, Option.bind_some]
  obtain ⟨expected, statuses⟩ := task
  cases statuses with
  | nil => cases hstep
  | cons status rest =>
    cases hstep
    refine ⟨_, rfl, ?_⟩
    rw [← h.pool]
    exact (h.withQueries _).perform hpool hevents

/-- A call sees alike pools and performs the same operations. -/
theorem callStep_alike {env : Env} {s t s' : State} (h : Alike s t) {i now : Nat}
    (hstep : step env s (.callStep i now) = some s') :
    ∃ t', step env t (.callStep i now) = some t' ∧ Alike s' t' := by
  obtain ⟨c, hc, hstep⟩ := Option.bind_eq_some_iff.mp hstep
  obtain ⟨r, hr, rfl⟩ := Option.map_eq_some_iff.mp hstep
  obtain ⟨c', hc', hview⟩ := getElem?_view h.calls hc
  have hadv := advance_view env s.rules now h.pool hview
  rw [hr, Option.map_some] at hadv
  obtain ⟨r', hr', heq⟩ := Option.map_eq_some_iff.mp hadv.symm
  rw [Prod.mk.injEq] at heq
  refine ⟨{ t with ops := t.ops ++ r'.1, calls := t.calls.set i r'.2 }, ?_, ?_, h.rules,
    h.ready, ?_, h.groups, h.requests, h.queries, h.outbox, h.events⟩
  · simp only [step]
    rw [hc', Option.bind_some, ← h.rules, hr', Option.map_some]
  · show poolAfter (s.ops ++ r.1) = poolAfter (t.ops ++ r'.1)
    rw [pool_append, pool_append, heq.1]
    exact congrArg (fun p => r.1.foldl (fun p op => op.apply p) p) h.pool
  · rw [List.map_set, List.map_set, h.calls, heq.2]

/-- Events of alike outboxes are about the same lifecycle. -/
theorem emit_alike {env : Env} {s t s' : State} (h : Alike s t) {i : Nat}
    (hstep : step env s (.emit i) = some s') :
    ∃ t', step env t (.emit i) = some t' ∧ Alike s' t' := by
  obtain ⟨event, he, rfl⟩ := Option.map_eq_some_iff.mp hstep
  have hi := congrArg (fun l => l[i]?) h.outbox
  simp only [List.getElem?_map, he, Option.map_some] at hi
  obtain ⟨event', he', hlife⟩ := Option.map_eq_some_iff.mp hi.symm
  simp only [step]
  rw [he', Option.map_some]
  refine ⟨_, rfl, h.pool, h.rules, h.ready, h.calls, h.groups, h.requests, h.queries, ?_, ?_⟩
  · rw [← List.eraseIdx_map, ← List.eraseIdx_map, h.outbox]
  · rw [List.map_append, List.map_append, h.events, List.map_singleton, List.map_singleton, hlife]

/-- The same action keeps the states alike. -/
theorem sameStep_alike {env : Env} {s t s' : State} (h : Alike s t) {a : Act}
    (hstep : step env s a = some s') : ∃ t', step env t a = some t' ∧ Alike s' t' := by
  cases a with
  | screen input =>
    cases hstep
    refine ⟨_, rfl, h.pool, h.rules, h.ready, ?_, h.groups, h.requests, h.queries, h.outbox,
      h.events⟩
    rw [List.map_append, List.map_append, h.calls]
  | callStep i now => exact callStep_alike h hstep
  | submitCollect now =>
    cases hstep
    have hr := h.resolveExpired env now
    simp only [step]
    rw [← hr.groups, ← hr.pool]
    exact ⟨_, rfl, hr.withGroups _⟩
  | submitGroup i now =>
    obtain ⟨group, hg, rfl⟩ := Option.map_eq_some_iff.mp hstep
    have hr := (h.withGroups (s.groups.eraseIdx i)).resolveExpired env now
    simp only [step]
    rw [← h.groups, hg, Option.map_some]
    refine ⟨_, rfl, ?_⟩
    rw [← hr.pool]
    split
    · exact hr
    · rw [← hr.requests]
      exact hr.withRequests _
  | submitReply i reply now =>
    obtain ⟨expected, he, rfl⟩ := Option.map_eq_some_iff.mp hstep
    have hr := h.withRequests (s.requests.eraseIdx i)
    simp only [step]
    rw [← h.requests, he, Option.map_some]
    refine ⟨_, rfl, ?_⟩
    cases reply with
    | none => exact hr.resolveExpired env now
    | some accepted =>
      rw [← h.pool]
      exact hr.perform rfl rfl
  | queryStart now =>
    have hr := h.resolveExpired env now
    simp only [step] at hstep ⊢
    rw [← hr.pool]
    split at hstep
    · rename_i hempty
      cases hstep
      rw [if_pos hempty]
      exact ⟨_, rfl, hr⟩
    · rename_i hempty
      cases hstep
      rw [if_neg hempty]
      rw [← hr.queries]
      exact ⟨_, rfl, hr.withQueries _⟩
  | queryReply i reply now =>
    cases reply with
    | some rows => exact queryReply_alike h (fun _ _ _ _ => Iff.rfl) hstep
    | none =>
      obtain ⟨task, htask, hstep⟩ := Option.bind_eq_some_iff.mp hstep
      simp only [step]
      rw [← h.queries, htask, Option.bind_some]
      obtain ⟨expected, statuses⟩ := task
      cases statuses with
      | nil => cases hstep
      | cons status rest =>
        cases hstep
        exact ⟨_, rfl, (h.withQueries _).resolveExpired env now⟩
  | timeoutTick now =>
    cases hstep
    refine ⟨_, rfl, ?_⟩
    rw [← h.pool]
    exact h.perform rfl rfl
  | installRules rules =>
    cases hstep
    exact ⟨_, rfl, h.pool, rfl, rfl, h.calls, h.groups, h.requests, h.queries, h.outbox, h.events⟩
  | removeCanonical hashes =>
    cases hstep
    exact ⟨_, rfl, h.perform rfl rfl⟩
  | recoverLag =>
    cases hstep
    exact ⟨_, rfl, h.perform rfl rfl⟩
  | removeNonTerminal hash g =>
    cases hstep
    exact ⟨_, rfl, h.perform rfl rfl⟩
  | emit i => exact emit_alike h hstep

/-- **One step**: actions that differ only in how a query response looks keep the states alike. -/
theorem step_alike {env : Env} {s t s' : State} (h : Alike s t) {a a' : Act}
    (ha : SameAct s a a') (hstep : step env s a = some s') :
    ∃ t', step env t a' = some t' ∧ Alike s' t' := by
  rcases sameAct_cases ha with rfl | ⟨i, rows, rows', now, rfl, rfl, hsame⟩
  · exact sameStep_alike h hstep
  · exact queryReply_alike h hsame hstep

/-- **Whole runs** that differ only in how the query responses look end in states that are
    alike. -/
theorem run_alike {env : Env} : ∀ {acts acts' : List Act} {s t s' : State}, Alike s t →
    SameActs env s acts acts' → run env s acts = some s' →
      ∃ t', run env t acts' = some t' ∧ Alike s' t'
  | [], [], s, t, s', h, _, hrun => by
    cases hrun
    exact ⟨t, rfl, h⟩
  | [], _ :: _, _, _, _, _, hacts, _ => hacts.elim
  | _ :: _, [], _, _, _, _, hacts, _ => hacts.elim
  | a :: acts, a' :: acts', s, t, s', h, hacts, hrun => by
    obtain ⟨s₁, hs₁, hrun⟩ := Option.bind_eq_some_iff.mp hrun
    obtain ⟨t₁, ht₁, h₁⟩ := step_alike h hacts.1 hs₁
    obtain ⟨t', ht', halike⟩ := run_alike h₁ (hacts.2 s₁ hs₁) hrun
    refine ⟨t', ?_, halike⟩
    rw [run, ht₁, Option.bind_some]
    exact ht'

/-! ## Contradictory rows -/

theorem mem_collectRelevant {expected : Generations} {rows : List QueryTx}
    {r : B256 × Nat × String} : r ∈ collectRelevant expected rows ↔
      ∃ p, (rows.foldl (collectRow expected) OrdMap.empty).get? r.1.toNat = some (p, r) := by
  unfold collectRelevant OrdMap.values
  constructor
  · intro h
    obtain ⟨v, hv, rfl⟩ := List.mem_map.mp h
    obtain ⟨⟨k, v⟩, hkv, rfl⟩ := List.mem_map.mp hv
    have hget := OrdMap.mem_entries.mp hkv
    have hkey := ((keptMap expected rows).kept k v hget).key
    dsimp only
    rw [hkey, hget]
    exact ⟨v.1, rfl⟩
  · rintro ⟨p, hp⟩
    exact List.mem_map.mpr ⟨(p, r), List.mem_map.mpr ⟨_, OrdMap.mem_entries.mpr hp, rfl⟩, rfl⟩

/-- One row is kept for each hash. -/
theorem nodup_collectRelevant (expected : Generations) (rows : List QueryTx) :
    ((collectRelevant expected rows).map (fun r => r.1.toNat)).Nodup := by
  have hkept := (keptMap expected rows).kept
  revert hkept
  unfold collectRelevant OrdMap.values
  generalize rows.foldl (collectRow expected) OrdMap.empty = m
  intro hkept
  have hkeys : ((m.entries.map (·.2)).map (·.2)).map (fun r => r.1.toNat) =
      m.entries.map Prod.fst := by
    rw [List.map_map, List.map_map]
    refine List.map_congr_left fun x hx => ?_
    exact (hkept x.1 x.2 (OrdMap.mem_entries.mp hx)).key
  rw [hkeys]
  exact m.sorted.imp (fun hlt => ne_of_lt hlt)

/-- The pool after the rows kept of a response were applied. -/
def BufferPool.applyRelevant (p : BufferPool) (cfg : FilterConfig) (now : Nat)
    (relevant : List (B256 × Nat × String)) : BufferPool :=
  (relevantOps cfg now relevant).foldl (fun p op => op.apply p) p

theorem get_applyRelevant_other (cfg : FilterConfig) (now : Nat) {k : B256} :
    ∀ (l : List (B256 × Nat × String)) (p : BufferPool), (∀ r ∈ l, r.1 ≠ k) →
      (p.applyRelevant cfg now l).get k = p.get k
  | [], _, _ => rfl
  | r :: l, p, h => by
    have hne : k ≠ r.1 := Ne.symm (h r List.mem_cons_self)
    show ((p.applyQueryStatus r.1 r.2.1 r.2.2 cfg now).1.applyRelevant cfg now l).get k = p.get k
    rw [get_applyRelevant_other cfg now l _ (fun r hr => h r (List.mem_cons_of_mem _ hr)),
      BufferPool.get_applyQueryStatus]
    cases p.get k <;> simp [hne]

/-- The rows kept of a response do not interfere: each addresses its own hash. -/
theorem get_applyRelevant (cfg : FilterConfig) (now : Nat) {k : B256} {g : Nat}
    {status : String} : ∀ (l : List (B256 × Nat × String)) (p : BufferPool),
      (l.map (fun r => r.1.toNat)).Nodup → (k, g, status) ∈ l →
      (p.applyRelevant cfg now l).get k =
        (p.get k).map (fun e => if e.generation = g then (queryEntry cfg now status e).1 else e)
  | [], _, _, h => by cases h
  | r :: l, p, hn, h => by
    rw [List.map_cons, List.nodup_cons] at hn
    show ((p.applyQueryStatus r.1 r.2.1 r.2.2 cfg now).1.applyRelevant cfg now l).get k = _
    rcases List.mem_cons.mp h with rfl | h
    · have hother : ∀ r ∈ l, r.1 ≠ k := by
        rintro r hr rfl
        exact hn.1 (List.mem_map.mpr ⟨r, hr, rfl⟩)
      rw [get_applyRelevant_other cfg now l _ hother, BufferPool.get_applyQueryStatus]
      simp only [true_and]
    · have hne : k ≠ r.1 := by
        rintro rfl
        exact hn.1 (List.mem_map.mpr ⟨_, h, rfl⟩)
      rw [get_applyRelevant cfg now l _ hn.2 h, BufferPool.get_applyQueryStatus]
      cases p.get k <;> simp [hne]

/-- A response gives a status for a hash, and no status of a higher priority. -/
def Decides (expected : Generations) (rows : List QueryTx) (hash : B256) (status : String) : Prop :=
  Says expected rows hash status ∧ ∀ status' p p', Says expected rows hash status' →
    queryPriority status = some p → queryPriority status' = some p' → p' ≤ p

/-- **The deciding status** is what a response does to the lifecycle it was asked for. -/
theorem get_of_decides {expected : Generations} {rows : List QueryTx} {hash : B256}
    {status : String} (hd : Decides expected rows hash status) (p : BufferPool)
    (cfg : FilterConfig) (now : Nat) {e : BufferEntry} (he : p.get hash = some e)
    (hmem : (hash, e.generation) ∈ expected.entries) :
    (p.applyRelevant cfg now (collectRelevant expected rows)).get hash =
      some (queryEntry cfg now status e).1 := by
  obtain ⟨hspeaks, htop⟩ := hd
  have hm := keptMap expected rows
  cases hv : (rows.foldl (collectRow expected) OrdMap.empty).get? hash.toNat with
  | none => exact absurd hspeaks (hm.absent hash status hv)
  | some v =>
    obtain ⟨prio, hash', g, status'⟩ := v
    have hk := hm.kept _ _ hv
    obtain rfl : hash' = hash := BitVec.eq_of_toNat_eq hk.key
    have hg : g = e.generation := by
      have hcur := hk.current
      rw [Table.get?_of_mem hmem, Option.some.injEq, Prod.mk.injEq] at hcur
      exact hcur.2.symm
    have hprio : queryPriority status' = queryPriority status := by
      obtain ⟨row, hrow, heff⟩ := hspeaks
      obtain ⟨-, -, hknown, hstatus⟩ := effective_eq_some.mp heff
      rw [hstatus] at hknown
      obtain ⟨q, hq⟩ := Option.isSome_iff_exists.mp hknown
      have hge : prio ≤ q := htop status' q prio hk.said hq hk.priority
      have hle : q ≤ prio := hk.top status q ⟨row, hrow, heff⟩ hq
      rw [hk.priority, hq, Nat.le_antisymm hge hle]
    have hrow : (hash', g, status') ∈ collectRelevant expected rows :=
      mem_collectRelevant.mpr ⟨prio, hv⟩
    rw [get_applyRelevant cfg now _ p (nodup_collectRelevant expected rows) hrow, he,
      Option.map_some, if_pos hg.symm, (queryEntry_alike hprio cfg now e).1]

/-- A response that says nothing of the entry's lifecycle leaves the entry as it is. -/
theorem get_of_silent {expected : Generations} {rows : List QueryTx} {hash : B256}
    (p : BufferPool) (cfg : FilterConfig) (now : Nat)
    (hs : ∀ status e, p.get hash = some e → Says expected rows hash status →
      (hash, e.generation) ∉ expected.entries) :
    (p.applyRelevant cfg now (collectRelevant expected rows)).get hash = p.get hash := by
  by_cases hrow : ∃ r ∈ collectRelevant expected rows, r.1 = hash
  · obtain ⟨⟨hash', g, status⟩, hr, rfl⟩ := hrow
    obtain ⟨prio, hv⟩ := mem_collectRelevant.mp hr
    have hk := (keptMap expected rows).kept _ _ hv
    rw [get_applyRelevant cfg now _ p (nodup_collectRelevant expected rows) hr]
    cases he : p.get hash' with
    | none => rfl
    | some e =>
      have hne : e.generation ≠ g := by
        rintro rfl
        exact hs status e he hk.said (Table.mem_of_get? hk.current)
      rw [Option.map_some, if_neg hne]
  · exact get_applyRelevant_other cfg now _ p (fun r hr h => hrow ⟨r, hr, h⟩)

theorem queryReply_pool {env : Env} {s s' : State} {i : Nat} {rows : List QueryTx} {now : Nat}
    (hstep : step env s (.queryReply i (some rows) now) = some s') :
    ∃ task, s.queries[i]? = some task ∧
      s'.pool = s.pool.applyRelevant env.config now (collectRelevant task.expected rows) := by
  obtain ⟨task, htask, hstep⟩ := Option.bind_eq_some_iff.mp hstep
  refine ⟨task, htask, ?_⟩
  obtain ⟨expected, statuses⟩ := task
  cases statuses with
  | nil => cases hstep
  | cons status rest =>
    cases hstep
    exact pool_append s.ops _

theorem decides_of_ge {expected : Generations} {rows : List QueryTx} {hash : B256}
    {status : String} {p : Nat} (hs : Says expected rows hash status)
    (hp : queryPriority status = some p)
    (hnot : ∀ status' p', Says expected rows hash status' → queryPriority status' = some p' →
      p' ≤ p) : Decides expected rows hash status := by
  refine ⟨hs, fun status' q q' hs' hq hq' => ?_⟩
  rw [hp] at hq
  cases hq
  exact hnot status' q' hs' hq'

/-- The known statuses and their priorities. -/
theorem queryPriority_eq_some {status : String} {p : Nat} (h : queryPriority status = some p) :
    (p = 2 ∧ (status = "denied" ∨ status = "outdated")) ∨ (p = 1 ∧ status = "approved") ∨
      (p = 0 ∧ status = "pending") := by
  unfold queryPriority at h
  by_cases hd : status = "denied" ∨ status = "outdated"
  · rw [if_pos hd] at h
    cases h
    exact .inl ⟨rfl, hd⟩
  rw [if_neg hd] at h
  by_cases ha : status = "approved"
  · rw [if_pos ha] at h
    cases h
    exact .inr (.inl ⟨rfl, ha⟩)
  rw [if_neg ha] at h
  by_cases hp : status = "pending"
  · rw [if_pos hp] at h
    cases h
    exact .inr (.inr ⟨rfl, hp⟩)
  rw [if_neg hp] at h
  cases h

/-- A rejection decides, whatever else a response says. -/
theorem decides_rejection {expected : Generations} {rows : List QueryTx} {hash : B256}
    {status : String} (hs : Says expected rows hash status)
    (hstatus : status = "denied" ∨ status = "outdated") : Decides expected rows hash status := by
  refine decides_of_ge hs (if_pos hstatus) fun status' p' _ hp' => ?_
  rcases queryPriority_eq_some hp' with ⟨rfl, -⟩ | ⟨rfl, -⟩ | ⟨rfl, -⟩ <;> omega

/-- An approval decides where there is no rejection. -/
theorem decides_approved {expected : Generations} {rows : List QueryTx} {hash : B256}
    (hs : Says expected rows hash "approved") (hd : ¬ Says expected rows hash "denied")
    (ho : ¬ Says expected rows hash "outdated") : Decides expected rows hash "approved" := by
  refine decides_of_ge hs (by decide : queryPriority "approved" = some 1)
    fun status' p' hs' hp' => ?_
  rcases queryPriority_eq_some hp' with ⟨rfl, rfl | rfl⟩ | ⟨rfl, -⟩ | ⟨rfl, -⟩
  · exact absurd hs' hd
  · exact absurd hs' ho
  · omega
  · omega

/-- A pending row decides where there is nothing else. -/
theorem decides_pending {expected : Generations} {rows : List QueryTx} {hash : B256}
    (hs : Says expected rows hash "pending") (hd : ¬ Says expected rows hash "denied")
    (ho : ¬ Says expected rows hash "outdated") (ha : ¬ Says expected rows hash "approved") :
    Decides expected rows hash "pending" := by
  refine decides_of_ge hs (by decide : queryPriority "pending" = some 0)
    fun status' p' hs' hp' => ?_
  rcases queryPriority_eq_some hp' with ⟨rfl, rfl | rfl⟩ | ⟨rfl, rfl⟩ | ⟨rfl, -⟩
  · exact absurd hs' hd
  · exact absurd hs' ho
  · exact absurd hs' ha
  · omega

/-- **Query results are order-insensitive.**  A hash reads the same with or without `0x` and in
    either case.  Permuting, repeating and respelling the rows of a response, and adding rows for
    hashes outside the snapshot or with unknown statuses, gives a response that says the same.
    Whole runs of the filter, from any state and with any interleaving of the other workers, that
    differ only in such responses reach the same pool and announce the same lifecycles.  Within
    one response a rejection of a hash decides, then an approval, then a pending row; an entry of
    which the response says nothing, or that is not of the lifecycle asked for, is left as it
    is. -/
theorem query_order_insensitive (env : Env) :
    (∀ cs : List Char, (∀ c ∈ cs, (Digits.digitIn 16 c).isSome) →
      B256.fromStr (String.ofList ('0' :: 'x' :: cs)) = B256.fromStr (String.ofList cs) ∧
        B256.fromStr (String.ofList (cs.map Char.toUpper)) = B256.fromStr (String.ofList cs)) ∧
    (∀ expected rows rows', (∀ row ∈ rows, ∃ row' ∈ rows', row.Respells row') →
      (∀ row' ∈ rows', ∃ row ∈ rows, row'.Respells row) → SameResponse expected rows rows') ∧
    (∀ expected rows,
      SameResponse expected (rows.filter (fun row => (row.effective expected).isSome)) rows) ∧
    (∀ s s' acts acts', SameActs env s acts acts' → run env s acts = some s' →
      ∃ t', run env s acts' = some t' ∧ t'.pool = s'.pool ∧
        t'.reported.map TerminalEvent.lifecycle = s'.reported.map TerminalEvent.lifecycle) ∧
    (∀ s s' i rows now, step env s (.queryReply i (some rows) now) = some s' →
      ∃ task, s.queries[i]? = some task ∧ ∀ hash e, s.pool.get hash = some e →
        ((hash, e.generation) ∈ task.expected.entries →
          ((Says task.expected rows hash "denied" ∨ Says task.expected rows hash "outdated") →
            s'.pool.get hash = some (queryEntry env.config now "denied" e).1) ∧
          (Says task.expected rows hash "approved" → ¬ Says task.expected rows hash "denied" →
            ¬ Says task.expected rows hash "outdated" →
            s'.pool.get hash = some (queryEntry env.config now "approved" e).1) ∧
          (Says task.expected rows hash "pending" → ¬ Says task.expected rows hash "denied" →
            ¬ Says task.expected rows hash "outdated" → ¬ Says task.expected rows hash "approved" →
            s'.pool.get hash = some (queryEntry env.config now "pending" e).1)) ∧
        ((hash, e.generation) ∉ task.expected.entries ∨
            (∀ status, ¬ Says task.expected rows hash status) →
          s'.pool.get hash = some e)) := by
  refine ⟨?_, ?_, sameResponse_filter, ?_, ?_⟩
  · intro cs hcs
    exact ⟨B256.fromStr_of_hex hcs, B256.fromStr_toUpper hcs⟩
  · intro expected rows rows' h h'
    exact sameResponse_of_respells expected h h'
  · intro s s' acts acts' hacts hrun
    obtain ⟨t', ht', halike⟩ := run_alike (Alike.refl s) hacts hrun
    exact ⟨t', ht', halike.pool.symm, halike.reported.symm⟩
  · intro s s' i rows now hstep
    obtain ⟨task, htask, hpool⟩ := queryReply_pool hstep
    refine ⟨task, htask, fun hash e he => ⟨fun hmem => ⟨?_, ?_, ?_⟩, ?_⟩⟩
    · intro hs
      rw [hpool]
      rcases hs with hs | hs
      · exact get_of_decides (decides_rejection hs (.inl rfl)) s.pool env.config now he hmem
      · rw [get_of_decides (decides_rejection hs (.inr rfl)) s.pool env.config now he hmem]
        exact congrArg some (queryEntry_alike (by decide) env.config now e).1
    · intro hs hd ho
      rw [hpool]
      exact get_of_decides (decides_approved hs hd ho) s.pool env.config now he hmem
    · intro hs hd ho ha
      rw [hpool]
      exact get_of_decides (decides_pending hs hd ho ha) s.pool env.config now he hmem
    · intro hsilent
      rw [hpool, ← he]
      refine get_of_silent s.pool env.config now fun status e' he' hs => ?_
      rw [he] at he'
      cases he'
      rcases hsilent with hnot | hnone
      · exact hnot
      · exact absurd hs (hnone status)

end XLayerReth.RcsFilter
