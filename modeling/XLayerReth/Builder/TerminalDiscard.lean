import XLayerReth.RcsFilter.Fencing
import XLayerReth.RcsFilter.TerminalEvents

/-!
# Evicting dropped transactions from the txpool

Model of `run_terminal_discard` of `service.rs`, the task that keeps the txpool and the filter in
step.  It is interleaved with any actions of the filter and any changes of the txpool; it acts under
the filter's lock in one section at a time, and reads the txpool between two sections.

* `TransactionPool` — the txpool, as far as the task uses it.
* `DiscardPhase`, `DiscardState` — where the task stands, with its own map of dropped lifecycles.
* `discardStep`, `discardRun` — one action of the task or of its surroundings, and a run of them.

Principal result: `terminal_discard_agrees`.
-/

set_option autoImplicit false

namespace XLayerReth.Builder

open Lib RcsFilter

/-! ## The task -/

/-- `TransactionPool`: what the task asks the txpool. -/
structure TransactionPool (T : Type) where
  contains : T → B256 → Bool
  removeTransaction : T → B256 → T

/-- A removal takes out one transaction: its nonce descendants stay in the pool. -/
structure TransactionPoolLaws {T : Type} (P : TransactionPool T) : Prop where
  removeTransaction : ∀ t h k,
    P.contains (P.removeTransaction t h) k = (P.contains t k && decide (k ≠ h))

/-- Where the task stands. -/
inductive DiscardPhase where
  /-- Waiting at `select!`. -/
  | listening
  /-- A terminal event was received; its transaction is about to be discarded. -/
  | received (event : TerminalEvent)
  /-- A new transaction has an entry in the map; it is about to be discarded. -/
  | announced (txHash : B256) (generation : Nat)
  /-- In `reconcile_dropped`, with the lifecycles still to go; after it a tick goes on. -/
  | reconciling (todo : List (B256 × Nat)) (ticked : Bool)
  /-- In `reconcile_absent_non_terminal`, with the lifecycles still to go. -/
  | absent (todo : List (B256 × Nat))
  /-- The txpool did not contain the transaction; its lifecycle is about to be removed. -/
  | removing (txHash : B256) (generation : Nat) (todo : List (B256 × Nat))
  | stopped

structure DiscardState (T : Type) where
  filter : State
  txPool : T
  /-- The task's own map, which may be stale. -/
  dropped : Generations
  /-- How many of the sent events were received or skipped. -/
  position : Nat
  phase : DiscardPhase

/-- `dropped_lifecycles`, collected into a map. -/
def droppedMap (p : BufferPool) : Generations := generationsOf p.droppedLifecycles

/-- The task before its loop. -/
def DiscardState.start {T : Type} (filter : State) (txPool : T) (position : Nat) :
    DiscardState T :=
  ⟨filter, txPool, droppedMap filter.pool, position, .listening⟩

/-- An action of the task, or of its surroundings. -/
inductive DiscardAct (T : Type) where
  /-- Any action of the filter: a screening call, a worker, a canonical cleanup. -/
  | filter (a : Act)
  /-- Any change of the txpool that the task does not make. -/
  | txPool (t : T)
  /-- The next terminal event arrives. -/
  | recv
  /-- The receiver lagged and skipped some events. -/
  | lagged (skipped : Nat)
  /-- The events or the notifications end. -/
  | closed
  /-- The txpool announces a transaction. -/
  | newTransaction (txHash : B256)
  /-- `discard_transaction` for an event or an announcement. -/
  | discard
  | tick
  /-- `discard_transaction` for one of the lifecycles of `reconcile_dropped`, in any order. -/
  | reconcile (i : Nat)
  /-- The current loop is over. -/
  | proceed
  /-- The txpool is asked for one of the lifecycles, in any order. -/
  | check (i : Nat)
  /-- `remove_non_terminal_if_generation`. -/
  | remove

/-- The action is one of the task itself. -/
def DiscardAct.isTask {T : Type} : DiscardAct T → Bool
  | .filter _ | .txPool _ => false
  | _ => true

/-- The action is one of a reconciliation that has started. -/
def DiscardAct.isReconciliation {T : Type} : DiscardAct T → Bool
  | .reconcile _ | .proceed | .check _ | .remove => true
  | _ => false

section

variable {T : Type} (P : TransactionPool T) (env : Env)

/-- `discard_transaction`: the txpool is changed while the filter's lock is held. -/
def discardTransaction (σ : DiscardState T) (txHash : B256) (generation : Nat) :
    DiscardState T × Bool :=
  if σ.filter.pool.withDroppedLifecycle txHash generation then
    ({ σ with txPool := P.removeTransaction σ.txPool txHash }, true)
  else (σ, false)

/-- One action; `none` when it is not enabled. -/
def discardStep (σ : DiscardState T) : DiscardAct T → Option (DiscardState T)
  | .filter a => (step env σ.filter a).map (fun s => { σ with filter := s })
  | .txPool t => some { σ with txPool := t }
  | .recv =>
    match σ.phase, σ.filter.events[σ.position]? with
    | .listening, some event =>
      some { σ with position := σ.position + 1, phase := .received event }
    | _, _ => none
  | .lagged skipped =>
    match σ.phase with
    | .listening =>
      if σ.position + skipped ≤ σ.filter.events.length then
        let dropped := droppedMap σ.filter.pool
        some { σ with
          dropped := dropped
          position := σ.position + skipped
          phase := .reconciling dropped.entries false }
      else none
    | _ => none
  | .closed =>
    match σ.phase with
    | .listening => some { σ with phase := .stopped }
    | _ => none
  | .newTransaction h =>
    match σ.phase with
    | .listening =>
      match σ.dropped.get? h with
      | some (_, generation) => some { σ with phase := .announced h generation }
      | none => some σ
    | _ => none
  | .discard =>
    match σ.phase with
    | .received event =>
      let (σ', discarded) := discardTransaction P σ event.txHash event.generation
      let dropped := if discarded then
          (σ.dropped.erase event.txHash).insertIfAbsent (event.txHash, event.generation)
        else σ.dropped
      some { σ' with dropped := dropped, phase := .listening }
    | .announced h g =>
      let (σ', discarded) := discardTransaction P σ h g
      let dropped := if discarded then σ.dropped else σ.dropped.erase h
      some { σ' with dropped := dropped, phase := .listening }
    | _ => none
  | .tick =>
    match σ.phase with
    | .listening =>
      let dropped := droppedMap σ.filter.pool
      some { σ with dropped := dropped, phase := .reconciling dropped.entries true }
    | _ => none
  | .reconcile i =>
    match σ.phase with
    | .reconciling todo ticked =>
      (todo[i]?).map (fun x =>
        { (discardTransaction P σ x.1 x.2).1 with phase := .reconciling (todo.eraseIdx i) ticked })
    | _ => none
  | .proceed =>
    match σ.phase with
    | .reconciling [] true =>
      some { σ with phase := .absent σ.filter.pool.nonTerminalLifecycles }
    | .reconciling [] false | .absent [] => some { σ with phase := .listening }
    | _ => none
  | .check i =>
    match σ.phase with
    | .absent todo =>
      (todo[i]?).map (fun x =>
        if P.contains σ.txPool x.1 then { σ with phase := .absent (todo.eraseIdx i) }
        else { σ with phase := .removing x.1 x.2 (todo.eraseIdx i) })
    | _ => none
  | .remove =>
    match σ.phase with
    | .removing h g todo =>
      some { σ with
        filter := σ.filter.perform [.removeNonTerminalIfGeneration h g] []
        phase := .absent todo }
    | _ => none

/-- A run of the task and its surroundings. -/
def discardRun (σ : DiscardState T) (acts : List (DiscardAct T)) : Option (DiscardState T) :=
  runFrom (discardStep P env) σ acts

end

/-! ## One action -/

section

variable {T : Type} {P : TransactionPool T} {env : Env} {σ σ' : DiscardState T}
  {a : DiscardAct T}

/-- The lifecycle that a discarding action is about. -/
def DiscardState.target (σ : DiscardState T) : DiscardAct T → Option (B256 × Nat)
  | .discard =>
    match σ.phase with
    | .received event => some (event.txHash, event.generation)
    | .announced h g => some (h, g)
    | _ => none
  | .reconcile i =>
    match σ.phase with
    | .reconciling todo _ => todo[i]?
    | _ => none
  | _ => none

theorem discardTransaction_filter (σ : DiscardState T) (h : B256) (g : Nat) :
    (discardTransaction P σ h g).1.filter = σ.filter := by
  unfold discardTransaction
  split_ifs <;> rfl

/-- A discard takes out the transaction of a dropped lifecycle and nothing else. -/
theorem contains_discardTransaction (laws : TransactionPoolLaws P) (σ : DiscardState T) (h : B256)
    (g : Nat) (k : B256) :
    P.contains (discardTransaction P σ h g).1.txPool k =
      (P.contains σ.txPool k &&
        !(decide (k = h) && σ.filter.pool.matchesStatus h g .dropped)) := by
  unfold discardTransaction BufferPool.withDroppedLifecycle
  split_ifs with hm
  · rw [laws.removeTransaction, hm]
    simp
  · simp [hm]

/-- **What an action of the task can do**: discard a transaction, remove a lifecycle, or change
    neither the filter nor the txpool. -/
theorem discardStep_task (h : discardStep P env σ a = some σ') (ha : a.isTask = true) :
    (∃ x, σ.target a = some x ∧ σ'.filter = σ.filter ∧
      σ'.txPool = (discardTransaction P σ x.1 x.2).1.txPool) ∨
    (∃ k g todo, a = .remove ∧ σ.phase = .removing k g todo ∧
      σ'.filter = σ.filter.perform [.removeNonTerminalIfGeneration k g] [] ∧
      σ'.txPool = σ.txPool) ∨
    (σ'.filter = σ.filter ∧ σ'.txPool = σ.txPool) := by
  cases a with
  | filter a => cases ha
  | txPool t => cases ha
  | discard =>
    left
    simp only [discardStep] at h
    split at h
    · rename_i event hphase
      cases h
      exact ⟨(event.txHash, event.generation), by simp [DiscardState.target, hphase],
        discardTransaction_filter _ _ _, rfl⟩
    · rename_i k g hphase
      cases h
      exact ⟨(k, g), by simp [DiscardState.target, hphase], discardTransaction_filter _ _ _, rfl⟩
    · cases h
  | reconcile i =>
    left
    simp only [discardStep] at h
    split at h
    · rename_i todo ticked hphase
      obtain ⟨x, hx, rfl⟩ := Option.map_eq_some_iff.mp h
      exact ⟨x, by simp [DiscardState.target, hphase, hx], discardTransaction_filter _ _ _, rfl⟩
    · cases h
  | remove =>
    simp only [discardStep] at h
    split at h
    · rename_i k g todo hphase
      cases h
      exact .inr (.inl ⟨k, g, todo, rfl, hphase, rfl, rfl⟩)
    · cases h
  | lagged skipped =>
    simp only [discardStep] at h
    split at h
    · split at h
      · cases h
        exact .inr (.inr ⟨rfl, rfl⟩)
      · cases h
    · cases h
  | newTransaction k =>
    simp only [discardStep] at h
    split at h
    · split at h <;> cases h <;> exact .inr (.inr ⟨rfl, rfl⟩)
    · cases h
  | check i =>
    simp only [discardStep] at h
    split at h
    · obtain ⟨x, hx, rfl⟩ := Option.map_eq_some_iff.mp h
      right
      right
      split_ifs <;> exact ⟨rfl, rfl⟩
    · cases h
  | recv | closed | tick | proceed =>
    simp only [discardStep] at h
    split at h <;> cases h <;> exact .inr (.inr ⟨rfl, rfl⟩)

/-- **A transaction is evicted only while its lifecycle is `Dropped`**, and it is the lifecycle
    the action is about. -/
theorem discardStep_evicts (laws : TransactionPoolLaws P) (h : discardStep P env σ a = some σ')
    (ha : a.isTask = true) {k : B256} (hin : P.contains σ.txPool k = true)
    (hout : P.contains σ'.txPool k = false) :
    ∃ g, σ.target a = some (k, g) ∧ σ.filter.pool.matchesStatus k g .dropped = true ∧
      σ'.filter = σ.filter := by
  rcases discardStep_task h ha with ⟨x, hx, hfilter, htx⟩ | ⟨k', g, todo, -, -, -, htx⟩ | ⟨-, htx⟩
  · rw [htx, contains_discardTransaction laws, hin] at hout
    simp only [Bool.true_and, Bool.not_eq_false', Bool.and_eq_true, decide_eq_true_eq] at hout
    obtain ⟨rfl, hm⟩ := hout
    exact ⟨x.2, hx, hm, hfilter⟩
  · rw [htx, hin] at hout
    cases hout
  · rw [htx, hin] at hout
    cases hout

/-- **A lifecycle is removed only if it has the generation that was read and is not terminal.** -/
theorem discardStep_removes (h : discardStep P env σ a = some σ') (ha : a.isTask = true)
    {k : B256} {e : BufferEntry} (hin : σ.filter.pool.get k = some e)
    (hout : σ'.filter.pool.get k ≠ some e) :
    ∃ todo, a = .remove ∧ σ.phase = .removing k e.generation todo ∧ e.status.isTerminal = false ∧
      σ'.filter.pool.get k = none := by
  rcases discardStep_task h ha with ⟨x, -, hfilter, -⟩ | ⟨k', g, todo, rfl, hphase, hfilter, -⟩ |
    ⟨hfilter, -⟩
  · rw [hfilter] at hout
    exact absurd hin hout
  · have hpool : σ'.filter.pool =
        PoolOp.apply σ.filter.pool (.removeNonTerminalIfGeneration k' g) := by
      rw [hfilter]
      exact poolAfter_concat _ _
    have hget : σ'.filter.pool.get k =
        if e.txHash = k' ∧ e.generation = g ∧ e.status.isTerminal = false then none
        else some e := by
      rw [hpool, PoolOp.get_apply, hin]
      rfl
    by_cases hc : e.txHash = k' ∧ e.generation = g ∧ e.status.isTerminal = false
    · rw [if_pos hc] at hget
      obtain ⟨hk, rfl, ht⟩ := hc
      rw [BufferPool.get_hash hin] at hk
      exact ⟨todo, rfl, hk ▸ hphase, ht, hget⟩
    · rw [if_neg hc] at hget
      exact absurd hget hout
  · rw [hfilter] at hout
    exact absurd hin hout

/-- The task is in `reconcile_absent_non_terminal`. -/
def DiscardPhase.scans : DiscardPhase → Bool
  | .absent _ | .removing _ _ _ => true
  | _ => false

/-- **How `reconcile_absent_non_terminal` is entered and gone through.** -/
theorem discardStep_phase (h : discardStep P env σ a = some σ') :
    (a.isTask = false ∧ σ'.phase = σ.phase) ∨
    (∃ i todo x, a = .check i ∧ σ.phase = .absent todo ∧ todo[i]? = some x ∧
      σ'.phase = if P.contains σ.txPool x.1 then .absent (todo.eraseIdx i)
        else .removing x.1 x.2 (todo.eraseIdx i)) ∨
    (∃ k g todo, a = .remove ∧ σ.phase = .removing k g todo ∧ σ'.phase = .absent todo) ∨
    (a = .proceed ∧ σ.phase = .reconciling [] true ∧
      σ'.phase = .absent σ.filter.pool.nonTerminalLifecycles) ∨
    σ'.phase.scans = false := by
  cases a with
  | filter a =>
    obtain ⟨s, hs, rfl⟩ := Option.map_eq_some_iff.mp h
    exact .inl ⟨rfl, rfl⟩
  | txPool t =>
    cases h
    exact .inl ⟨rfl, rfl⟩
  | check i =>
    simp only [discardStep] at h
    split at h
    · rename_i todo hphase
      obtain ⟨x, hx, rfl⟩ := Option.map_eq_some_iff.mp h
      refine .inr (.inl ⟨i, todo, x, rfl, hphase, hx, ?_⟩)
      split_ifs <;> rfl
    · cases h
  | remove =>
    simp only [discardStep] at h
    split at h
    · rename_i k g todo hphase
      cases h
      exact .inr (.inr (.inl ⟨k, g, todo, rfl, hphase, rfl⟩))
    · cases h
  | proceed =>
    simp only [discardStep] at h
    split at h
    · rename_i hphase
      cases h
      exact .inr (.inr (.inr (.inl ⟨rfl, hphase, rfl⟩)))
    · cases h
      exact .inr (.inr (.inr (.inr rfl)))
    · cases h
      exact .inr (.inr (.inr (.inr rfl)))
    · cases h
  | lagged skipped =>
    simp only [discardStep] at h
    split at h
    · split at h
      · cases h
        exact .inr (.inr (.inr (.inr rfl)))
      · cases h
    · cases h
  | newTransaction k =>
    simp only [discardStep] at h
    split at h
    · rename_i hphase
      split at h
      · cases h
        exact .inr (.inr (.inr (.inr rfl)))
      · cases h
        exact .inr (.inr (.inr (.inr (by rw [hphase]; rfl))))
    · cases h
  | reconcile i =>
    simp only [discardStep] at h
    split at h
    · obtain ⟨x, hx, rfl⟩ := Option.map_eq_some_iff.mp h
      exact .inr (.inr (.inr (.inr rfl)))
    · cases h
  | recv | closed | discard | tick =>
    simp only [discardStep] at h
    split at h <;> cases h <;> exact .inr (.inr (.inr (.inr rfl)))

end

/-! ## Whole runs -/

section

variable {T : Type} (P : TransactionPool T) (env : Env) (σ₀ : DiscardState T)

/-- The lifecycle was read from the filter, among those that are not terminal. -/
def ReadAt (acts : List (DiscardAct T)) (x : B256 × Nat) : Prop :=
  ∃ before m, before ++ [DiscardAct.proceed] <+: acts ∧ discardRun P env σ₀ before = some m ∧
    m.phase = .reconciling [] true ∧ x ∈ m.filter.pool.nonTerminalLifecycles

/-- The txpool was asked for the lifecycle and did not contain it; the task did nothing since. -/
def CheckedAt (acts : List (DiscardAct T)) (x : B256 × Nat) : Prop :=
  ∃ before i between m todo, acts = before ++ DiscardAct.check i :: between ∧
    (∀ b ∈ between, b.isTask = false) ∧ discardRun P env σ₀ before = some m ∧
    m.phase = .absent todo ∧ todo[i]? = some x ∧ P.contains m.txPool x.1 = false

/-- What is known while the task is in `reconcile_absent_non_terminal`. -/
def ScanInv (acts : List (DiscardAct T)) (σ : DiscardState T) : Prop :=
  match σ.phase with
  | .absent todo => ∀ x ∈ todo, ReadAt P env σ₀ acts x
  | .removing k g todo => CheckedAt P env σ₀ acts (k, g) ∧ ReadAt P env σ₀ acts (k, g) ∧
    ∀ x ∈ todo, ReadAt P env σ₀ acts x
  | _ => True

variable {P env σ₀} {σ σ' : DiscardState T} {a : DiscardAct T} {acts : List (DiscardAct T)}

theorem ReadAt.concat {x : B256 × Nat} (h : ReadAt P env σ₀ acts x) :
    ReadAt P env σ₀ (acts ++ [a]) x := by
  obtain ⟨before, m, hp, hrun, hphase, hx⟩ := h
  exact ⟨before, m, hp.trans (List.prefix_append _ _), hrun, hphase, hx⟩

theorem CheckedAt.concat {x : B256 × Nat} (h : CheckedAt P env σ₀ acts x)
    (ha : a.isTask = false) : CheckedAt P env σ₀ (acts ++ [a]) x := by
  obtain ⟨before, i, between, m, todo, rfl, hbetween, hrest⟩ := h
  refine ⟨before, i, between ++ [a], m, todo, by simp, ?_, hrest⟩
  intro b hb
  rcases List.mem_append.mp hb with hb | hb
  · exact hbetween b hb
  · rw [List.mem_singleton.mp hb]
    exact ha

/-- One action keeps what is known. -/
theorem scanInv_step (hrun : discardRun P env σ₀ acts = some σ) (hinv : ScanInv P env σ₀ acts σ)
    (h : discardStep P env σ a = some σ') : ScanInv P env σ₀ (acts ++ [a]) σ' := by
  unfold ScanInv at hinv ⊢
  rcases discardStep_phase h with ⟨ha, hphase⟩ | ⟨i, todo, x, rfl, hphase, hx, hphase'⟩ |
    ⟨k, g, todo, rfl, hphase, hphase'⟩ | ⟨rfl, hphase, hphase'⟩ | hother
  · rw [hphase]
    cases hσ : σ.phase with
    | absent todo =>
      rw [hσ] at hinv
      exact fun x hx => (hinv x hx).concat
    | removing k g todo =>
      rw [hσ] at hinv
      exact ⟨hinv.1.concat ha, hinv.2.1.concat, fun x hx => (hinv.2.2 x hx).concat⟩
    | listening | received | announced | reconciling | stopped => trivial
  · rw [hphase] at hinv
    have hrest : ∀ y ∈ todo.eraseIdx i, ReadAt P env σ₀ (acts ++ [DiscardAct.check i]) y :=
      fun y hy => (hinv y (List.mem_of_mem_eraseIdx hy)).concat
    rw [hphase']
    split_ifs with hc
    · exact hrest
    · refine ⟨⟨acts, i, [], σ, todo, rfl, by simp, hrun, hphase, hx, by simpa using hc⟩, ?_, hrest⟩
      exact (hinv x (List.mem_of_getElem? hx)).concat
  · rw [hphase] at hinv
    rw [hphase']
    exact fun x hx => (hinv.2.2 x hx).concat
  · rw [hphase']
    intro x hx
    exact ⟨acts, σ, List.prefix_rfl, hrun, hphase, hx⟩
  · cases hσ : σ'.phase with
    | absent todo =>
      rw [hσ] at hother
      cases hother
    | removing k g todo =>
      rw [hσ] at hother
      cases hother
    | listening | received | announced | reconciling | stopped => trivial

/-- **What is known holds along every run** of a task that starts at its loop. -/
theorem scanInv_run (h0 : σ₀.phase = .listening) (acts : List (DiscardAct T)) :
    ∀ σ, discardRun P env σ₀ acts = some σ → ScanInv P env σ₀ acts σ := by
  refine runFrom_induction (ScanInv P env σ₀) ?_ ?_ acts
  · unfold ScanInv
    rw [h0]
    trivial
  · intro acts σ a σ' hrun hinv hstep
    exact scanInv_step hrun hinv hstep

end

/-! ## A reconciliation with nothing in between -/

section

variable {T : Type} (P : TransactionPool T)

/-- No dropped transaction is in the txpool. -/
def DiscardState.Evicted (σ : DiscardState T) : Prop :=
  ∀ k e, σ.filter.pool.get k = some e → e.status = .dropped → P.contains σ.txPool k = false

/-- Every lifecycle that is not terminal has its transaction in the txpool, but for some. -/
def DiscardState.PresentBut (σ : DiscardState T) (but : List (B256 × Nat)) : Prop :=
  ∀ k e, σ.filter.pool.get k = some e → e.status.isTerminal = false →
    (k, e.generation) ∈ but ∨ P.contains σ.txPool k = true

/-- What a reconciliation has achieved so far. -/
def TickInv (σ : DiscardState T) : Prop :=
  match σ.phase with
  | .reconciling todo ticked => ticked = true ∧
    ∀ k e, σ.filter.pool.get k = some e → e.status = .dropped →
      (k, e.generation) ∈ todo ∨ P.contains σ.txPool k = false
  | .absent todo => σ.Evicted P ∧ σ.PresentBut P todo
  | .removing k g todo => σ.Evicted P ∧ σ.PresentBut P ((k, g) :: todo)
  | .listening => σ.Evicted P ∧ σ.PresentBut P []
  | _ => False

variable {P} {env : Env} {σ σ' : DiscardState T} {a : DiscardAct T}

theorem mem_droppedMap {p : BufferPool} {k : B256} {e : BufferEntry} (h : p.get k = some e)
    (hs : e.status = .dropped) : (k, e.generation) ∈ (droppedMap p).entries := by
  refine mem_generationsOf_of_nodup ?_ ?_
  · unfold BufferPool.droppedLifecycles
    rw [List.map_map]
    exact (p.entries.retain (fun e => e.status == .dropped)).nodup
  · have hhash := BufferPool.get_hash h
    subst hhash
    exact List.mem_map.mpr ⟨e,
      List.mem_filter.mpr ⟨BufferPool.mem_entries.mpr h, by simp [hs]⟩, rfl⟩

theorem mem_nonTerminalLifecycles {p : BufferPool} {k : B256} {e : BufferEntry}
    (h : p.get k = some e) (hs : e.status.isTerminal = false) :
    (k, e.generation) ∈ p.nonTerminalLifecycles := by
  have hhash := BufferPool.get_hash h
  subst hhash
  exact List.mem_map.mpr ⟨e, List.mem_filter.mpr ⟨BufferPool.mem_entries.mpr h, by simp [hs]⟩, rfl⟩

theorem eq_or_mem_eraseIdx {α : Type} {l : List α} {i : Nat} {x y : α} (hx : l[i]? = some x)
    (hy : y ∈ l) : y = x ∨ y ∈ l.eraseIdx i := by
  obtain ⟨hi, rfl⟩ := List.getElem?_eq_some_iff.mp hx
  exact List.mem_cons.mp ((List.getElem_cons_eraseIdx_perm hi).mem_iff.mpr hy)

/-- A tick starts with every dropped lifecycle still to go. -/
theorem tickInv_tick (h : discardStep P env σ .tick = some σ') : TickInv P σ' := by
  simp only [discardStep] at h
  split at h
  · cases h
    exact ⟨rfl, fun k e hk hs => .inl (mem_droppedMap hk hs)⟩
  · cases h

theorem tickInv_reconcile (laws : TransactionPoolLaws P) {i : Nat} (hinv : TickInv P σ)
    (h : discardStep P env σ (.reconcile i) = some σ') : TickInv P σ' := by
  simp only [discardStep] at h
  split at h
  · rename_i todo ticked hphase
    obtain ⟨x, hx, rfl⟩ := Option.map_eq_some_iff.mp h
    unfold TickInv at hinv ⊢
    rw [hphase] at hinv
    refine ⟨hinv.1, ?_⟩
    intro k e hk hs
    dsimp only at hk ⊢
    rw [discardTransaction_filter] at hk
    rw [contains_discardTransaction laws]
    rcases hinv.2 k e hk hs with hmem | hout
    · rcases eq_or_mem_eraseIdx hx hmem with rfl | hmem
      · right
        simp [BufferPool.matchesStatus, hk, hs]
      · exact .inl hmem
    · right
      rw [hout, Bool.false_and]
  · cases h

theorem tickInv_proceed (hinv : TickInv P σ) (h : discardStep P env σ .proceed = some σ') :
    TickInv P σ' := by
  simp only [discardStep] at h
  unfold TickInv at hinv ⊢
  split at h
  · rename_i hphase
    cases h
    rw [hphase] at hinv
    refine ⟨?_, fun k e hk ht => .inl (mem_nonTerminalLifecycles hk ht)⟩
    intro k e hk hs
    rcases hinv.2 k e hk hs with hmem | hout
    · cases hmem
    · exact hout
  · rename_i hphase
    rw [hphase] at hinv
    cases hinv.1
  · rename_i hphase
    cases h
    rw [hphase] at hinv
    exact hinv
  · cases h

theorem tickInv_check {i : Nat} (hinv : TickInv P σ)
    (h : discardStep P env σ (.check i) = some σ') : TickInv P σ' := by
  simp only [discardStep] at h
  unfold TickInv at hinv ⊢
  split at h
  · rename_i todo hphase
    obtain ⟨x, hx, rfl⟩ := Option.map_eq_some_iff.mp h
    rw [hphase] at hinv
    split_ifs with hc
    · refine ⟨hinv.1, ?_⟩
      intro k e hk ht
      rcases hinv.2 k e hk ht with hmem | hin
      · rcases eq_or_mem_eraseIdx hx hmem with rfl | hmem
        · exact .inr hc
        · exact .inl hmem
      · exact .inr hin
    · refine ⟨hinv.1, ?_⟩
      intro k e hk ht
      rcases hinv.2 k e hk ht with hmem | hin
      · exact .inl (List.mem_cons.mpr (eq_or_mem_eraseIdx hx hmem))
      · exact .inr hin
  · cases h

theorem tickInv_remove (hinv : TickInv P σ) (h : discardStep P env σ .remove = some σ') :
    TickInv P σ' := by
  simp only [discardStep] at h
  unfold TickInv at hinv ⊢
  split at h
  · rename_i k g todo hphase
    cases h
    rw [hphase] at hinv
    -- What is left was there before, and is not the lifecycle that was to be removed.
    have hleft : ∀ k' e,
        (poolAfter (σ.filter.ops ++ [PoolOp.removeNonTerminalIfGeneration k g])).get k' = some e →
        σ.filter.pool.get k' = some e ∧
          (e.status.isTerminal = false → (k', e.generation) ≠ (k, g)) := by
      intro k' e he
      rw [poolAfter_concat, PoolOp.get_apply] at he
      cases hbefore : σ.filter.pool.get k' with
      | none =>
        rw [State.pool] at hbefore
        rw [hbefore] at he
        cases he
      | some x =>
        rw [State.pool] at hbefore
        rw [hbefore] at he
        simp only [PoolOp.onEntry] at he
        split_ifs at he with hc
        cases he
        refine ⟨rfl, ?_⟩
        intro ht heq
        have hhash := BufferPool.get_hash hbefore
        cases heq
        exact hc ⟨hhash, rfl, ht⟩
    refine ⟨?_, ?_⟩
    · intro k' e hk hs
      exact hinv.1 k' e (hleft k' e hk).1 hs
    · intro k' e hk ht
      obtain ⟨hbefore, hne⟩ := hleft k' e hk
      rcases hinv.2 k' e hbefore ht with hmem | hin
      · rcases List.mem_cons.mp hmem with heq | hmem
        · exact absurd heq (hne ht)
        · exact .inl hmem
      · exact .inr hin
  · cases h

/-- One action of a reconciliation keeps what it has achieved. -/
theorem tickInv_step (laws : TransactionPoolLaws P) (hinv : TickInv P σ)
    (ha : a.isReconciliation = true) (h : discardStep P env σ a = some σ') : TickInv P σ' := by
  cases a with
  | reconcile i => exact tickInv_reconcile laws hinv h
  | proceed => exact tickInv_proceed hinv h
  | check i => exact tickInv_check hinv h
  | remove => exact tickInv_remove hinv h
  | _ => cases ha

/-- **What a reconciliation achieves** while nothing happens in between. -/
theorem tickInv_run (laws : TransactionPoolLaws P) (acts : List (DiscardAct T)) :
    ∀ {σ σ'}, TickInv P σ → (∀ a ∈ acts, a.isReconciliation = true) →
      discardRun P env σ acts = some σ' → TickInv P σ' := by
  induction acts with
  | nil =>
    intro σ σ' hinv _ hrun
    cases hrun
    exact hinv
  | cons a acts ih =>
    intro σ σ' hinv hall hrun
    obtain ⟨m, hstep, hrun⟩ := Option.bind_eq_some_iff.mp hrun
    have hm := tickInv_step laws hinv (hall a List.mem_cons_self) hstep
    exact ih hm (fun b hb => hall b (List.mem_cons_of_mem a hb)) hrun

/-- A run of the task through its reconciliation, back to its loop. -/
def Completes (P : TransactionPool T) (env : Env) (σ : DiscardState T) : Prop :=
  ∃ acts σ', (∀ a ∈ acts, a.isReconciliation = true) ∧ discardRun P env σ acts = some σ' ∧
    σ'.phase = .listening

theorem Completes.of_step (hstep : discardStep P env σ a = some σ') (ha : a.isReconciliation = true)
    (h : Completes P env σ') : Completes P env σ := by
  obtain ⟨acts, σ'', hall, hrun, hphase⟩ := h
  refine ⟨a :: acts, σ'', ?_, ?_, hphase⟩
  · intro b hb
    rcases List.mem_cons.mp hb with rfl | hb
    · exact ha
    · exact hall b hb
  · rw [discardRun, runFrom, hstep]
    exact hrun

/-- `reconcile_absent_non_terminal` comes to its end. -/
theorem absent_completes (todo : List (B256 × Nat)) : ∀ σ : DiscardState T,
    σ.phase = .absent todo → Completes P env σ := by
  induction todo with
  | nil =>
    intro σ hphase
    have hstep : discardStep P env σ .proceed = some { σ with phase := .listening } := by
      simp [discardStep, hphase]
    exact .of_step hstep rfl ⟨[], _, by simp, rfl, rfl⟩
  | cons x todo ih =>
    intro σ hphase
    by_cases hc : P.contains σ.txPool x.1 = true
    · have hstep : discardStep P env σ (.check 0) = some { σ with phase := .absent todo } := by
        simp [discardStep, hphase, hc]
      exact .of_step hstep rfl (ih _ rfl)
    · have hstep : discardStep P env σ (.check 0) =
          some { σ with phase := .removing x.1 x.2 todo } := by
        simp [discardStep, hphase, hc]
      exact .of_step hstep rfl (.of_step (a := .remove) rfl rfl (ih _ rfl))

/-- `reconcile_dropped` comes to its end. -/
theorem reconciling_completes (todo : List (B256 × Nat)) : ∀ σ : DiscardState T,
    σ.phase = .reconciling todo true → Completes P env σ := by
  induction todo with
  | nil =>
    intro σ hphase
    have hstep : discardStep P env σ .proceed =
        some { σ with phase := .absent σ.filter.pool.nonTerminalLifecycles } := by
      simp [discardStep, hphase]
    exact .of_step hstep rfl (absent_completes _ _ rfl)
  | cons x todo ih =>
    intro σ hphase
    have hstep : discardStep P env σ (.reconcile 0) =
        some { (discardTransaction P σ x.1 x.2).1 with phase := .reconciling todo true } := by
      simp [discardStep, hphase]
    exact .of_step hstep rfl (ih _ rfl)

/-- A tick comes to its end. -/
theorem tick_completes (hlisten : σ.phase = .listening) :
    ∃ acts σ', (∀ a ∈ acts, a.isReconciliation = true) ∧
      discardRun P env σ (.tick :: acts) = some σ' ∧ σ'.phase = .listening := by
  obtain ⟨m, htick, hphase⟩ : ∃ m, discardStep P env σ .tick = some m ∧
      m.phase = .reconciling (droppedMap σ.filter.pool).entries true := by
    simp [discardStep, hlisten]
  obtain ⟨acts, σ', hall, hrun, hdone⟩ : Completes P env m := reconciling_completes _ m hphase
  refine ⟨acts, σ', hall, ?_, hdone⟩
  rw [discardRun, runFrom, htick]
  exact hrun

end

/-! ## Agreement -/

/-- **Txpool eviction agrees with the filter**, for every interleaving.
    1. The task evicts a transaction only while the filter holds the very lifecycle it acts for,
       hash and generation, as `Dropped`; the filter does not change under the eviction.
    2. The task removes an entry of the filter only if it is not terminal and has the generation
       that was read, and the txpool did not contain its transaction when it was last asked.
    3. After a tick with nothing in between, no dropped transaction is in the txpool and every
       lifecycle that is not terminal has its transaction in it; and every tick comes to its end. -/
theorem terminal_discard_agrees {T : Type} (P : TransactionPool T) (laws : TransactionPoolLaws P)
    (env : Env) :
    (∀ (σ₀ : DiscardState T) (acts : List (DiscardAct T)) (σ σ' : DiscardState T)
        (a : DiscardAct T) (k : B256),
      discardRun P env σ₀ acts = some σ → discardStep P env σ a = some σ' → a.isTask = true →
      P.contains σ.txPool k = true → P.contains σ'.txPool k = false →
        ∃ g, σ.target a = some (k, g) ∧ σ.filter.pool.matchesStatus k g .dropped = true ∧
          σ'.filter = σ.filter) ∧
    (∀ (filter : State) (txPool : T) (position : Nat) (acts : List (DiscardAct T))
        (σ σ' : DiscardState T) (a : DiscardAct T) (k : B256) (e : BufferEntry),
      discardRun P env (.start filter txPool position) acts = some σ →
      discardStep P env σ a = some σ' → a.isTask = true →
      σ.filter.pool.get k = some e → σ'.filter.pool.get k ≠ some e →
        e.status.isTerminal = false ∧ σ'.filter.pool.get k = none ∧
        ReadAt P env (.start filter txPool position) acts (k, e.generation) ∧
        CheckedAt P env (.start filter txPool position) acts (k, e.generation)) ∧
    (∀ σ : DiscardState T, σ.phase = .listening →
      (∀ (acts : List (DiscardAct T)) (σ' : DiscardState T),
        (∀ a ∈ acts, a.isReconciliation = true) →
        discardRun P env σ (.tick :: acts) = some σ' → σ'.phase = .listening →
          ∀ k e, σ'.filter.pool.get k = some e →
            (e.status = .dropped → P.contains σ'.txPool k = false) ∧
            (e.status.isTerminal = false → P.contains σ'.txPool k = true)) ∧
      ∃ acts σ', (∀ a ∈ acts, a.isReconciliation = true) ∧
        discardRun P env σ (.tick :: acts) = some σ' ∧ σ'.phase = .listening) := by
  refine ⟨?_, ?_, ?_⟩
  · intro σ₀ acts σ σ' a k _ hstep ha hin hout
    exact discardStep_evicts laws hstep ha hin hout
  · intro filter txPool position acts σ σ' a k e hrun hstep ha hin hout
    obtain ⟨todo, -, hphase, ht, hgone⟩ := discardStep_removes hstep ha hin hout
    have hinv := scanInv_run rfl acts σ hrun
    unfold ScanInv at hinv
    rw [hphase] at hinv
    exact ⟨ht, hgone, hinv.2.1, hinv.1⟩
  · intro σ hlisten
    refine ⟨?_, tick_completes hlisten⟩
    intro acts σ' hall hrun hphase k e hk
    obtain ⟨m, htick, hrun⟩ := Option.bind_eq_some_iff.mp hrun
    have hinv := tickInv_run laws acts (tickInv_tick htick) hall hrun
    unfold TickInv at hinv
    rw [hphase] at hinv
    obtain ⟨hevicted, hpresent⟩ := hinv
    refine ⟨hevicted k e hk, ?_⟩
    intro ht
    rcases hpresent k e hk ht with hmem | hin
    · cases hmem
    · exact hin

namespace Sample

/-- A txpool given by the hashes of its transactions. -/
def hashPool : TransactionPool (List B256) :=
  ⟨fun t h => decide (h ∈ t), fun t h => t.filter (fun k => k ≠ h)⟩

theorem hashPool_laws : TransactionPoolLaws hashPool where
  removeTransaction t h k := by simp [hashPool]

/-- The transaction is denied, and the event of it arrives. -/
def evictingRun : List (DiscardAct (List B256)) :=
  deniedRun.map DiscardAct.filter ++ [DiscardAct.filter (.emit 0), DiscardAct.recv]

theorem denied_transaction_evicted :
    ∃ σ σ', discardRun hashPool transferEnv (.start State.new [transferInput.txHash] 0)
        evictingRun = some σ ∧
      discardStep hashPool transferEnv σ .discard = some σ' ∧
      hashPool.contains σ.txPool transferInput.txHash = true ∧
      hashPool.contains σ'.txPool transferInput.txHash = false ∧
      ∃ g, σ.filter.pool.matchesStatus transferInput.txHash g .dropped = true := by
  have hsum : (discardRun hashPool transferEnv (.start State.new [transferInput.txHash] 0)
      evictingRun).bind (fun σ => (discardStep hashPool transferEnv σ .discard).map
        (fun σ' => (σ.txPool, σ'.txPool))) = some ([transferInput.txHash], []) := by
    decide +kernel
  obtain ⟨σ, hrun, hstep⟩ := Option.bind_eq_some_iff.mp hsum
  obtain ⟨σ', hstep, hpools⟩ := Option.map_eq_some_iff.mp hstep
  obtain ⟨hbefore, hafter⟩ := Prod.mk.inj hpools
  have hin : hashPool.contains σ.txPool transferInput.txHash = true := by simp [hashPool, hbefore]
  have hout : hashPool.contains σ'.txPool transferInput.txHash = false := by simp [hashPool, hafter]
  obtain ⟨g, -, hg, -⟩ := (terminal_discard_agrees hashPool hashPool_laws transferEnv).1 _
    evictingRun σ σ' .discard transferInput.txHash hrun hstep rfl hin hout
  exact ⟨σ, σ', hrun, hstep, hin, hout, g, hg⟩

end Sample

end XLayerReth.Builder
