import Mathlib.Data.List.Basic
import XLayerReth.Lib.Table
import XLayerReth.RcsFilter.Matching

/-!
# The buffer pool and its audit state machine

Model of `pool.rs`: the side table of audited transactions and every operation on it.

* `BufferEntry`, `BufferPool` — at most one entry for each transaction hash, and the counter of
  insertion generations.
* The operations, under the source's names.  Each is built from what it does to a single entry
  (`resolveTotalTimeout`, `submitEntry`, `queryEntry`, `timeoutEntry`, `consistencyEntry`).

Principal results: one `get_*` lemma for each operation, giving the entry found under a hash
after it from the entry found before it.
-/

set_option autoImplicit false

namespace XLayerReth.RcsFilter

open Lib

/-! ## Entries -/

/-- Audit state of a buffered transaction. -/
inductive BufferStatus where
  | notSubmitted
  | submitted
  | pending
  | approved
  | timedOutAllow
  | dropped
  deriving DecidableEq, Repr

/-- `BufferStatus::is_terminal`. -/
def BufferStatus.isTerminal : BufferStatus → Bool
  | .timedOutAllow | .dropped => true
  | _ => false

/-- Still waiting for a decision of RCS: the states subject to the cumulative timeout. -/
def BufferStatus.isRetryable : BufferStatus → Bool
  | .notSubmitted | .submitted | .pending => true
  | _ => false

theorem isTerminal_of_isRetryable {s : BufferStatus} (h : s.isRetryable = true) :
    s.isTerminal = false := by
  cases s <;> first | rfl | cases h

/-- Already in flight at RCS. -/
def BufferStatus.isInFlight : BufferStatus → Bool
  | .submitted | .pending | .approved => true
  | _ => false

inductive Resolution where
  | releaseForPackaging
  | discard
  deriving DecidableEq, Repr

inductive QueryResolution where
  | retryTimeout (resolution : Resolution)
  | denied
  | outdated
  deriving DecidableEq, Repr

/-- The settings of `FilterConfig` that screening and its workers read; durations in seconds. -/
structure FilterConfig where
  submitMaxConcurrency : Nat
  submittedConfirmationTimeout : Nat
  riskModuleUnresponsiveTimeout : Nat
  totalRetryTimeout : Nat
  terminalEntryRetention : Nat
  maxEventBindingsPerTx : Nat

/-- One buffered audit transaction. -/
structure BufferEntry where
  generation : Nat
  txHash : B256
  origin : Address
  contractAddress : Address
  nonce : Nat
  blockHeight : Nat
  status : BufferStatus
  actions : Actions
  ruleSnapshot : RuleSet
  quotaConsistencyHash : B256
  timeoutAction : TimeoutAction
  firstNotSubmittedAt : Nat
  lastTransitionAt : Nat

/-- A state transition at a time; the identity, the clock base and the payload are kept. -/
def BufferEntry.moveTo (e : BufferEntry) (status : BufferStatus) (now : Nat) : BufferEntry :=
  { e with status := status, lastTransitionAt := now }

/-- The terminal state and resolution of a timeout action. -/
def TimeoutAction.resolve : TimeoutAction → Resolution × BufferStatus
  | .allow => (.releaseForPackaging, .timedOutAllow)
  | .deny => (.discard, .dropped)

/-- The retry deadline of an entry has passed. -/
def BufferEntry.pastDeadline (e : BufferEntry) (cfg : FilterConfig) (now : Nat) : Bool :=
  now - e.firstNotSubmittedAt > cfg.totalRetryTimeout

/-- `resolve_total_timeout`. -/
def resolveTotalTimeout (cfg : FilterConfig) (now : Nat) (e : BufferEntry) :
    BufferEntry × Option Resolution :=
  if !e.status.isRetryable || now - e.firstNotSubmittedAt ≤ cfg.totalRetryTimeout then (e, none)
  else (e.moveTo e.timeoutAction.resolve.2 now, some e.timeoutAction.resolve.1)

/-- What a submit response does to an addressed entry. -/
def submitEntry (cfg : FilterConfig) (now : Nat) (accepted : Bool) (e : BufferEntry) :
    BufferEntry × Option Resolution :=
  match resolveTotalTimeout cfg now e with
  | (e', some resolution) => (e', some resolution)
  | (e', none) =>
    if accepted && e'.status == .notSubmitted then (e'.moveTo .submitted now, none)
    else (e', none)

/-- What a query status does to an addressed entry. -/
def queryEntry (cfg : FilterConfig) (now : Nat) (status : String) (e : BufferEntry) :
    BufferEntry × Option QueryResolution :=
  if e.status.isTerminal then (e, none)
  else
    match resolveTotalTimeout cfg now e with
    | (e', some resolution) => (e', some (.retryTimeout resolution))
    | (e', none) =>
      if status = "pending" then
        if e'.status = .submitted then (e'.moveTo .pending now, none) else (e', none)
      else if status = "approved" then
        if e'.status = .submitted ∨ e'.status = .pending then (e'.moveTo .approved now, none)
        else (e', none)
      else if status = "denied" ∨ status = "outdated" then
        (e'.moveTo .dropped now, some (if status = "outdated" then .outdated else .denied))
      else (e', none)

/-- What the timeout scan does to an entry: the cumulative fallback, then the stall retries. -/
def timeoutEntry (cfg : FilterConfig) (now : Nat) (e : BufferEntry) :
    BufferEntry × Option Resolution :=
  match resolveTotalTimeout cfg now e with
  | (e', some resolution) => (e', some resolution)
  | (e', none) =>
    if e'.status.isTerminal then (e', none)
    else if e'.status = .submitted ∧
        now - e'.lastTransitionAt > cfg.submittedConfirmationTimeout then
      (e'.moveTo .notSubmitted now, none)
    else if e'.status = .pending ∧
        now - e'.lastTransitionAt > cfg.riskModuleUnresponsiveTimeout then
      (e'.moveTo .notSubmitted now, none)
    else (e', none)

/-- What a consistency result does to an entry of the expected generation. -/
def consistencyEntry (consistent : Bool) (now : Nat) (e : BufferEntry) : BufferEntry :=
  if e.status == .approved && !consistent then e.moveTo .dropped now else e

/-! ### Transitions of one entry -/

/-- The entry is unchanged, or has moved to a status at that time. -/
def Moves (now : Nat) (e e' : BufferEntry) : Prop := e' = e ∨ ∃ s, e' = e.moveTo s now

theorem Moves.hash {now : Nat} {e e' : BufferEntry} (h : Moves now e e') :
    e'.txHash = e.txHash := by
  rcases h with rfl | ⟨s, rfl⟩ <;> rfl

theorem resolveTotalTimeout_eq (cfg : FilterConfig) (now : Nat) (e : BufferEntry) :
    resolveTotalTimeout cfg now e =
      if e.status.isRetryable && e.pastDeadline cfg now then
        (e.moveTo e.timeoutAction.resolve.2 now, some e.timeoutAction.resolve.1)
      else (e, none) := by
  unfold resolveTotalTimeout BufferEntry.pastDeadline
  cases e.status.isRetryable with
  | false => rfl
  | true =>
    by_cases h : now - e.firstNotSubmittedAt ≤ cfg.totalRetryTimeout
    · simp [h, Nat.not_lt.mpr h]
    · simp [h, Nat.not_le.mp h]

theorem resolveTotalTimeout_moves (cfg : FilterConfig) (now : Nat) (e : BufferEntry) :
    Moves now e (resolveTotalTimeout cfg now e).1 := by
  rw [resolveTotalTimeout_eq]
  split
  · exact .inr ⟨_, rfl⟩
  · exact .inl rfl

/-- An entry that is not resolved by the deadline is left as it was. -/
theorem resolveTotalTimeout_none {cfg : FilterConfig} {now : Nat} {e e' : BufferEntry}
    (h : resolveTotalTimeout cfg now e = (e', none)) : e' = e := by
  rw [resolveTotalTimeout_eq] at h
  split at h
  · cases h
  · cases h
    rfl

theorem submitEntry_moves (cfg : FilterConfig) (now : Nat) (accepted : Bool) (e : BufferEntry) :
    Moves now e (submitEntry cfg now accepted e).1 := by
  have hr := resolveTotalTimeout_moves cfg now e
  unfold submitEntry
  split
  · rename_i h
    rwa [h] at hr
  · rename_i e' h
    rw [resolveTotalTimeout_none h]
    split
    · exact .inr ⟨_, rfl⟩
    · exact .inl rfl

theorem queryEntry_moves (cfg : FilterConfig) (now : Nat) (status : String) (e : BufferEntry) :
    Moves now e (queryEntry cfg now status e).1 := by
  have hr := resolveTotalTimeout_moves cfg now e
  unfold queryEntry
  split
  · exact .inl rfl
  · split
    · rename_i h
      rwa [h] at hr
    · rename_i e' h
      rw [resolveTotalTimeout_none h]
      split
      · split
        · exact .inr ⟨_, rfl⟩
        · exact .inl rfl
      · split
        · split
          · exact .inr ⟨_, rfl⟩
          · exact .inl rfl
        · split
          · exact .inr ⟨_, rfl⟩
          · exact .inl rfl

theorem timeoutEntry_moves (cfg : FilterConfig) (now : Nat) (e : BufferEntry) :
    Moves now e (timeoutEntry cfg now e).1 := by
  have hr := resolveTotalTimeout_moves cfg now e
  unfold timeoutEntry
  split
  · rename_i h
    rwa [h] at hr
  · rename_i e' h
    rw [resolveTotalTimeout_none h]
    split
    · exact .inl rfl
    · split
      · exact .inr ⟨_, rfl⟩
      · split
        · exact .inr ⟨_, rfl⟩
        · exact .inl rfl

theorem consistencyEntry_moves (consistent : Bool) (now : Nat) (e : BufferEntry) :
    Moves now e (consistencyEntry consistent now e) := by
  unfold consistencyEntry
  split
  · exact .inr ⟨_, rfl⟩
  · exact .inl rfl

/-! ## The pool -/

/-- The buffer pool: entries by transaction hash, and the last generation given out. -/
structure BufferPool where
  entries : Table BufferEntry BufferEntry.txHash
  nextGeneration : Nat

/-- A lifecycle and how it was resolved. -/
abbrev Resolved := B256 × Nat × Resolution

/-- `HashMap<B256, u64>`: the lifecycles a request was made for. -/
abbrev Generations := Table (B256 × Nat) (Prod.fst : B256 × Nat → B256)

namespace BufferPool

/-- `BufferPool::default`. -/
def new : BufferPool := ⟨Table.empty, 0⟩

def get (p : BufferPool) (txHash : B256) : Option BufferEntry := p.entries.get? txHash

/-- The entry of an exact insertion lifecycle, if it is still current. -/
def lifecycle (p : BufferPool) (txHash : B256) (generation : Nat) : Option BufferEntry :=
  (p.get txHash).filter (fun e => e.generation = generation)

/-- `BufferPool::matches`. -/
def matchesStatus (p : BufferPool) (txHash : B256) (generation : Nat) (status : BufferStatus) :
    Bool :=
  match p.get txHash with
  | some e => e.generation == generation && e.status == status
  | none => false

/-- Rewrite in place the entry of a hash, if it has the expected generation. -/
def updateLifecycle (p : BufferPool) (txHash : B256) (generation : Nat)
    (f : BufferEntry → BufferEntry) (hf : ∀ e, (f e).txHash = e.txHash) : BufferPool :=
  { p with
    entries := p.entries.map
      (fun e => if e.txHash = txHash ∧ e.generation = generation then f e else e) (by
        intro e
        split
        · exact hf e
        · rfl) }

/-- Rewrite every entry in place, and list the lifecycles that were resolved. -/
def scan (p : BufferPool) (f : BufferEntry → BufferEntry × Option Resolution)
    (hf : ∀ e, (f e).1.txHash = e.txHash) : BufferPool × List Resolved :=
  ({ p with entries := p.entries.map (fun e => (f e).1) hf },
    p.entries.entries.filterMap (fun e => (f e).2.map (fun r => (e.txHash, e.generation, r))))

/-- `insert`: no-op if the hash is present. -/
def insert (p : BufferPool) (entry : BufferEntry) : BufferPool :=
  if (p.get entry.txHash).isSome then p
  else
    let generation := (p.nextGeneration + 1) % 2 ^ 64
    ⟨p.entries.insertIfAbsent { entry with generation := generation }, generation⟩

/-- `finish_consistency_check`. -/
def finishConsistencyCheck (p : BufferPool) (txHash : B256) (expectedGeneration : Nat)
    (consistent : Bool) (now : Nat) : BufferPool × Option BufferStatus :=
  (p.updateLifecycle txHash expectedGeneration (consistencyEntry consistent now)
    (fun e => (consistencyEntry_moves consistent now e).hash),
    (p.lifecycle txHash expectedGeneration).map
      (fun e => (consistencyEntry consistent now e).status))

/-- `not_submitted`. -/
def notSubmitted (p : BufferPool) : List B256 :=
  (p.entries.entries.filter (fun e => e.status == .notSubmitted)).map (·.txHash)

/-- `in_flight_hashes`. -/
def inFlightHashes (p : BufferPool) : List String :=
  (p.entries.entries.filter (fun e => e.status.isInFlight)).map (·.txHash.lowerHex)

/-- `in_flight_generations`. -/
def inFlightGenerations (p : BufferPool) : Generations :=
  ⟨(p.entries.entries.filter (fun e => e.status.isInFlight)).map
      (fun e => (e.txHash, e.generation)), by
    rw [List.map_map]
    exact (p.entries.retain (fun e => e.status.isInFlight)).nodup⟩

/-- `remove_canonical`, with the number of entries removed. -/
def removeCanonical (p : BufferPool) (hashes : List B256) : BufferPool × Nat :=
  hashes.foldl (fun (acc : BufferPool × Nat) hash =>
    ({ acc.1 with entries := acc.1.entries.erase hash },
      if (acc.1.get hash).isSome then acc.2 + 1 else acc.2)) (p, 0)

/-- `recover_after_canonical_lag`, with the number of entries removed. -/
def recoverAfterCanonicalLag (p : BufferPool) : BufferPool × Nat :=
  let entries := p.entries.retain (fun e => e.status == .dropped)
  ({ p with entries := entries }, p.entries.entries.length - entries.entries.length)

/-- `dropped_hashes`. -/
def droppedHashes (p : BufferPool) : List B256 :=
  (p.entries.entries.filter (fun e => e.status == .dropped)).map (·.txHash)

/-- `dropped_lifecycles`. -/
def droppedLifecycles (p : BufferPool) : List (B256 × Nat) :=
  (p.entries.entries.filter (fun e => e.status == .dropped)).map
    (fun e => (e.txHash, e.generation))

/-- `non_terminal_lifecycles`. -/
def nonTerminalLifecycles (p : BufferPool) : List (B256 × Nat) :=
  (p.entries.entries.filter (fun e => !e.status.isTerminal)).map
    (fun e => (e.txHash, e.generation))

/-- `remove_non_terminal_if_generation`. -/
def removeNonTerminalIfGeneration (p : BufferPool) (txHash : B256) (expectedGeneration : Nat) :
    BufferPool × Bool :=
  match p.lifecycle txHash expectedGeneration with
  | none => (p, false)
  | some e =>
    if e.status.isTerminal then (p, false)
    else ({ p with entries := p.entries.erase txHash }, true)

/-- One iteration of `apply_submit_response`. -/
def submitOne (accepted : List B256) (cfg : FilterConfig) (now : Nat)
    (acc : BufferPool × List Resolved) (expected : B256 × Nat) : BufferPool × List Resolved :=
  let here := decide (expected.1 ∈ accepted)
  (acc.1.updateLifecycle expected.1 expected.2 (fun e => (submitEntry cfg now here e).1)
    (fun e => (submitEntry_moves cfg now here e).hash),
    acc.2 ++ ((acc.1.lifecycle expected.1 expected.2).bind
      (fun e => (submitEntry cfg now here e).2.map (fun r => (expected.1, expected.2, r)))).toList)

/-- `apply_submit_response`. -/
def applySubmitResponse (p : BufferPool) (accepted : List String) (expected : Generations)
    (cfg : FilterConfig) (now : Nat) : BufferPool × List Resolved :=
  expected.entries.foldl (submitOne (accepted.filterMap B256.fromStr) cfg now) (p, [])

/-- `apply_query_status`. -/
def applyQueryStatus (p : BufferPool) (txHash : B256) (expectedGeneration : Nat)
    (status : String) (cfg : FilterConfig) (now : Nat) : BufferPool × Option QueryResolution :=
  (p.updateLifecycle txHash expectedGeneration (fun e => (queryEntry cfg now status e).1)
    (fun e => (queryEntry_moves cfg now status e).hash),
    (p.lifecycle txHash expectedGeneration).bind (fun e => (queryEntry cfg now status e).2))

/-- `resolve_total_timeouts`. -/
def resolveTotalTimeouts (p : BufferPool) (cfg : FilterConfig) (now : Nat) :
    BufferPool × List Resolved :=
  p.scan (resolveTotalTimeout cfg now) (fun e => (resolveTotalTimeout_moves cfg now e).hash)

/-- `check_timeouts`. -/
def checkTimeouts (p : BufferPool) (cfg : FilterConfig) (now : Nat) :
    BufferPool × List Resolved :=
  p.scan (timeoutEntry cfg now) (fun e => (timeoutEntry_moves cfg now e).hash)

/-- `prune_terminal`, with the number of entries evicted. -/
def pruneTerminal (p : BufferPool) (retentionSecs now : Nat) : BufferPool × Nat :=
  let entries := p.entries.retain
    (fun e => !(e.status.isTerminal && decide (now - e.lastTransitionAt > retentionSecs)))
  ({ p with entries := entries }, p.entries.entries.length - entries.entries.length)

/-! ### Lookups -/

theorem mem_entries {p : BufferPool} {e : BufferEntry} :
    e ∈ p.entries.entries ↔ p.get e.txHash = some e := Table.mem_entries

theorem get_hash {p : BufferPool} {h : B256} {e : BufferEntry} (he : p.get h = some e) :
    e.txHash = h := Table.key_of_get? he

theorem lifecycle_eq_some {p : BufferPool} {h : B256} {g : Nat} {e : BufferEntry} :
    p.lifecycle h g = some e ↔ p.get h = some e ∧ e.generation = g := by
  simp [lifecycle, Option.filter_eq_some_iff]

theorem lifecycle_eq_none {p : BufferPool} {h : B256} {g : Nat} :
    p.lifecycle h g = none ↔ ∀ e, p.get h = some e → e.generation ≠ g := by
  simp [lifecycle, Option.filter_eq_none_iff]

theorem get_new (h : B256) : new.get h = none := rfl

theorem get_updateLifecycle (p : BufferPool) (h : B256) (g : Nat)
    (f : BufferEntry → BufferEntry) (hf : ∀ e, (f e).txHash = e.txHash) (k : B256) :
    (p.updateLifecycle h g f hf).get k =
      (p.get k).map (fun e => if k = h ∧ e.generation = g then f e else e) := by
  unfold updateLifecycle get
  rw [Table.get?_map]
  cases he : p.entries.get? k with
  | none => rfl
  | some e =>
    have hk : e.txHash = k := Table.key_of_get? he
    simp [hk]

/-- **A stale generation changes nothing.** -/
theorem updateLifecycle_of_none {p : BufferPool} {h : B256} {g : Nat}
    {f : BufferEntry → BufferEntry} (hf : ∀ e, (f e).txHash = e.txHash)
    (hl : p.lifecycle h g = none) : p.updateLifecycle h g f hf = p := by
  unfold updateLifecycle
  rw [Table.map_congr_id]
  intro e he
  rw [if_neg]
  rintro ⟨rfl, hg⟩
  exact lifecycle_eq_none.mp hl e (mem_entries.mp he) hg

theorem get_scan (p : BufferPool) (f : BufferEntry → BufferEntry × Option Resolution)
    (hf : ∀ e, (f e).1.txHash = e.txHash) (k : B256) :
    (p.scan f hf).1.get k = (p.get k).map (fun e => (f e).1) := Table.get?_map _ _ hf k

/-- **Insertion**: an absent hash gets the entry, with the next generation. -/
theorem get_insert (p : BufferPool) (entry : BufferEntry) (k : B256) :
    (p.insert entry).get k = (p.get k).or
      (if entry.txHash = k then
        some { entry with generation := (p.nextGeneration + 1) % 2 ^ 64 } else none) := by
  unfold insert
  split
  · rename_i h
    by_cases hk : entry.txHash = k
    · subst hk
      obtain ⟨e, he⟩ := Option.isSome_iff_exists.mp h
      simp [he]
    · simp [hk]
  · exact Table.get?_insertIfAbsent _ _ _

theorem insert_of_present {p : BufferPool} {entry e : BufferEntry}
    (h : p.get entry.txHash = some e) : p.insert entry = p := by
  unfold insert
  rw [h]
  rfl

theorem insert_of_absent {p : BufferPool} {entry : BufferEntry}
    (h : p.get entry.txHash = none) :
    (p.insert entry).nextGeneration = (p.nextGeneration + 1) % 2 ^ 64 := by
  unfold insert
  rw [h]
  rfl

theorem get_finishConsistencyCheck (p : BufferPool) (h : B256) (g : Nat) (consistent : Bool)
    (now : Nat) (k : B256) :
    (p.finishConsistencyCheck h g consistent now).1.get k =
      (p.get k).map (fun e =>
        if k = h ∧ e.generation = g then consistencyEntry consistent now e else e) :=
  get_updateLifecycle p h g _ (fun e => (consistencyEntry_moves consistent now e).hash) k

theorem get_applyQueryStatus (p : BufferPool) (h : B256) (g : Nat) (status : String)
    (cfg : FilterConfig) (now : Nat) (k : B256) :
    (p.applyQueryStatus h g status cfg now).1.get k =
      (p.get k).map (fun e =>
        if k = h ∧ e.generation = g then (queryEntry cfg now status e).1 else e) :=
  get_updateLifecycle p h g _ (fun e => (queryEntry_moves cfg now status e).hash) k

theorem get_removeNonTerminalIfGeneration (p : BufferPool) (h : B256) (g : Nat) (k : B256) :
    (p.removeNonTerminalIfGeneration h g).1.get k =
      (p.get k).filter (fun e => !(k == h && e.generation == g && !e.status.isTerminal)) := by
  unfold removeNonTerminalIfGeneration
  split
  · rename_i hl
    cases hk : p.get k with
    | none => rfl
    | some e =>
      rw [Option.filter_some_pos]
      by_cases hkh : k = h
      · subst hkh
        simp [lifecycle_eq_none.mp hl e hk]
      · simp [hkh]
  · rename_i e hl
    obtain ⟨hget, hgen⟩ := lifecycle_eq_some.mp hl
    split
    · rename_i ht
      cases hk : p.get k with
      | none => rfl
      | some e' =>
        rw [Option.filter_some_pos]
        by_cases hkh : k = h
        · subst hkh
          rw [hget, Option.some.injEq] at hk
          simp [← hk, ht]
        · simp [hkh]
    · rename_i ht
      rw [show ({ p with entries := p.entries.erase h } : BufferPool).get k =
        if k = h then none else p.get k from Table.get?_erase _ _ _]
      by_cases hkh : k = h
      · subst hkh
        simp [hget, hgen, ht, Option.filter]
      · cases hk : p.get k <;> simp [hkh, Option.filter]

theorem get_removeCanonical (p : BufferPool) (hashes : List B256) (k : B256) :
    (p.removeCanonical hashes).1.get k = if k ∈ hashes then none else p.get k := by
  unfold removeCanonical
  have key : ∀ (l : List B256) (acc : BufferPool × Nat),
      (l.foldl (fun (acc : BufferPool × Nat) hash =>
        (({ acc.1 with entries := acc.1.entries.erase hash } : BufferPool),
          if (acc.1.get hash).isSome then acc.2 + 1 else acc.2)) acc).1.get k =
        if k ∈ l then none else acc.1.get k := by
    intro l
    induction l with
    | nil => intro acc; simp
    | cons hash l ih =>
      intro acc
      rw [List.foldl_cons, ih]
      rw [show ({ acc.1 with entries := acc.1.entries.erase hash } : BufferPool).get k =
        if k = hash then none else acc.1.get k from Table.get?_erase _ _ _]
      by_cases hk : k = hash
      · simp [hk]
      · simp [hk]
  exact key hashes (p, 0)

theorem get_recoverAfterCanonicalLag (p : BufferPool) (k : B256) :
    p.recoverAfterCanonicalLag.1.get k = (p.get k).filter (fun e => e.status == .dropped) :=
  Table.get?_retain _ _ _

theorem get_pruneTerminal (p : BufferPool) (retentionSecs now : Nat) (k : B256) :
    (p.pruneTerminal retentionSecs now).1.get k = (p.get k).filter
      (fun e => !(e.status.isTerminal && decide (now - e.lastTransitionAt > retentionSecs))) :=
  Table.get?_retain _ _ _

/-! ### Submit responses -/

/-- The lifecycle an expected pair addresses, and how the response resolves it. -/
def submitResolution (p : BufferPool) (accepted : List B256) (cfg : FilterConfig) (now : Nat)
    (expected : B256 × Nat) : Option Resolved :=
  (p.lifecycle expected.1 expected.2).bind
    (fun e => (submitEntry cfg now (decide (expected.1 ∈ accepted)) e).2.map
      (fun r => (expected.1, expected.2, r)))

/-- The iterations of a submit response do not interfere: each addresses its own hash. -/
theorem foldl_submitOne (accepted : List B256) (cfg : FilterConfig) (now : Nat) :
    ∀ (l : List (B256 × Nat)) (p : BufferPool) (resolved : List Resolved),
      (l.map Prod.fst).Nodup →
      (∀ k, (l.foldl (submitOne accepted cfg now) (p, resolved)).1.get k =
        (p.get k).map (fun e => if (k, e.generation) ∈ l then
          (submitEntry cfg now (decide (k ∈ accepted)) e).1 else e)) ∧
      (l.foldl (submitOne accepted cfg now) (p, resolved)).2 =
        resolved ++ l.filterMap (p.submitResolution accepted cfg now)
  | [], p, resolved, _ => by simp
  | (h, g) :: l, p, resolved, hn => by
    rw [List.map_cons, List.nodup_cons] at hn
    obtain ⟨hget, hres⟩ := foldl_submitOne accepted cfg now l
      (submitOne accepted cfg now (p, resolved) (h, g)).1
      (submitOne accepted cfg now (p, resolved) (h, g)).2 hn.2
    have hstep : ∀ k, (submitOne accepted cfg now (p, resolved) (h, g)).1.get k =
        (p.get k).map (fun e => if k = h ∧ e.generation = g then
          (submitEntry cfg now (decide (h ∈ accepted)) e).1 else e) :=
      get_updateLifecycle p h g _ (fun e => (submitEntry_moves cfg now _ e).hash)
    have hother : ∀ k g', (k, g') ∈ l → k ≠ h := by
      rintro k g' hk rfl
      exact hn.1 (List.mem_map.mpr ⟨(k, g'), hk, rfl⟩)
    refine ⟨fun k => ?_, ?_⟩
    · rw [List.foldl_cons, hget, hstep, Option.map_map]
      congr 1
      funext e
      simp only [Function.comp, List.mem_cons, Prod.mk.injEq]
      by_cases hk : k = h ∧ e.generation = g
      · have hnot : (k, (submitEntry cfg now (decide (h ∈ accepted)) e).1.generation) ∉ l :=
          fun hm => hother _ _ hm hk.1
        rw [if_pos hk, if_neg hnot, if_pos (.inl hk), hk.1]
      · rw [if_neg hk]
        simp only [hk, false_or]
    · rw [List.foldl_cons, hres]
      have hcongr :
          l.filterMap ((submitOne accepted cfg now (p, resolved) (h, g)).1.submitResolution
          accepted cfg now) = l.filterMap (p.submitResolution accepted cfg now) := by
        refine List.filterMap_congr fun x hx => ?_
        have hne : x.1 ≠ h := hother x.1 x.2 hx
        have hlook : (submitOne accepted cfg now (p, resolved) (h, g)).1.lifecycle x.1 x.2 =
            p.lifecycle x.1 x.2 := by
          unfold lifecycle
          rw [hstep]
          cases p.get x.1 <;> simp [hne]
        unfold submitResolution
        rw [hlook]
      rw [hcongr, List.filterMap_cons]
      unfold submitOne submitResolution
      cases p.lifecycle h g with
      | none => simp
      | some e =>
        simp only [Option.bind_some]
        cases (submitEntry cfg now (decide (h ∈ accepted)) e).2 <;> simp

/-- Whether RCS accepted a hash, in any spelling. -/
def accepts (accepted : List String) (h : B256) : Bool :=
  decide (h ∈ accepted.filterMap B256.fromStr)

/-- **Submit response**: exactly the addressed current lifecycles are touched. -/
theorem get_applySubmitResponse (p : BufferPool) (accepted : List String)
    (expected : Generations) (cfg : FilterConfig) (now : Nat) (k : B256) :
    (p.applySubmitResponse accepted expected cfg now).1.get k =
      (p.get k).map (fun e => if (k, e.generation) ∈ expected.entries then
        (submitEntry cfg now (accepts accepted k) e).1 else e) :=
  (foldl_submitOne _ cfg now expected.entries p [] expected.nodup).1 k

theorem resolved_applySubmitResponse (p : BufferPool) (accepted : List String)
    (expected : Generations) (cfg : FilterConfig) (now : Nat) :
    (p.applySubmitResponse accepted expected cfg now).2 =
      expected.entries.filterMap
        (p.submitResolution (accepted.filterMap B256.fromStr) cfg now) :=
  (foldl_submitOne _ cfg now expected.entries p [] expected.nodup).2

end BufferPool

end XLayerReth.RcsFilter
