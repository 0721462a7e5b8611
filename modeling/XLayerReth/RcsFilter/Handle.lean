import XLayerReth.Lib.Runs
import XLayerReth.RcsFilter.Generations
import XLayerReth.RcsFilter.QuotaHash
import XLayerReth.RcsFilter.Submit

/-!
# The filter as a concurrent system

Model of `handle.rs`, `worker.rs` and the network side of `submit.rs` at the granularity of pool
lock sections.  Any number of `screen_tx` calls, submit groups, status queries, timeout ticks,
rule installs, canonical cleanups, lag recoveries and removals are interleaved in any order.

* `Call`, `Phase` — one `screen_tx` call and where it stands between two lock sections.  A call
  remembers its lock sections (`Section`), each with the pool operations made until the lock was
  released.
* `State` — the pool operations performed so far (the pool is `State.pool`), the active rules,
  the calls, the outstanding groups, requests and queries, and the terminal events.
* `step` — one atomic action; `run` — a sequence of them.

Clock readings are arbitrary arguments of the actions.
-/

set_option autoImplicit false

namespace XLayerReth.RcsFilter

open Lib

/-- The fixed parameters of a filter. -/
structure Env where
  abi : Abi
  config : FilterConfig

/-! ## Verdicts -/

/-- The screening decision returned to the builder. -/
inductive Screen where
  | allow
  | deny
  | drop
  | auditPending
  | auditApproved
  deriving DecidableEq, Repr

/-- Status-only decision made before execution. -/
inductive PreScreen where
  | execute
  | defer
  | drop
  deriving DecidableEq, Repr

/-- `pre_screen`. -/
def preScreen (p : BufferPool) (txHash : B256) : PreScreen :=
  match (p.get txHash).map BufferEntry.status with
  | none | some .approved | some .timedOutAllow => .execute
  | some .dropped => .drop
  | some .notSubmitted | some .submitted | some .pending => .defer

inductive TerminalReason where
  | denied
  | outdated
  | failCloseTimeout
  deriving DecidableEq, Repr

structure TerminalEvent where
  txHash : B256
  generation : Nat
  reason : TerminalReason
  deriving DecidableEq

/-- `emit_timeout_resolutions`: an event for each discarded lifecycle. -/
def timeoutEvents (resolved : List Resolved) : List TerminalEvent :=
  resolved.filterMap (fun r =>
    match r.2.2 with
    | .discard => some ⟨r.1, r.2.1, .failCloseTimeout⟩
    | .releaseForPackaging => none)

/-- The event of a query resolution. -/
def queryEvent (txHash : B256) (generation : Nat) : Option QueryResolution → Option TerminalEvent
  | some (.retryTimeout .discard) => some ⟨txHash, generation, .failCloseTimeout⟩
  | some (.retryTimeout .releaseForPackaging) => none
  | some .denied => some ⟨txHash, generation, .denied⟩
  | some .outdated => some ⟨txHash, generation, .outdated⟩
  | none => none

/-! ## Screening calls -/

inductive SectionKind where
  | lookup
  | recheck
  | confirm
  | insert
  | metrics
  deriving DecidableEq, Repr

/-- One lock section of a call, with the pool operations made until the lock was released. -/
structure Section where
  kind : SectionKind
  ops : List PoolOp

/-- The entry of a hash in the pool when the lock was released. -/
def Section.entry (sec : Section) (txHash : B256) : Option BufferEntry :=
  (poolAfter sec.ops).get txHash

/-- Where a `screen_tx` call stands between two lock sections. -/
inductive Phase where
  /-- Before the first lookup. -/
  | lookup
  /-- No entry was found; the rule snapshot is about to be read. -/
  | readRules
  /-- The snapshot evaluated to `Allow`; the entry is about to be looked up again. -/
  | recheck
  /-- The snapshot evaluated to `Audit`; the entry is about to be inserted. -/
  | insert (rules : RuleSet) (actions : Actions) (timeoutAction : TimeoutAction)
  /-- An entry was found; its status is about to be confirmed. -/
  | confirm (status : BufferStatus) (storedHash : B256) (generation : Nat)
      (ruleSnapshot : RuleSet)
  /-- The verdict is known; the buffer gauges are about to be updated. -/
  | metrics (result : Screen)
  | done (result : Screen)

structure Call where
  input : ScreenInput
  phase : Phase
  /-- The rule snapshot of a fresh evaluation, once it is read. -/
  rulesRead : Option RuleSet
  /-- The lock sections so far, oldest first. -/
  sections : List Section

/-- What the call returned, once it has. -/
def Call.result (c : Call) : Option Screen :=
  match c.phase with
  | .done result => some result
  | _ => none

/-- A call before its first lock section. -/
def Call.start (input : ScreenInput) : Call := ⟨input, .lookup, none, []⟩

/-- The call after a lock section. -/
def Call.after (c : Call) (kind : SectionKind) (ops : List PoolOp) (phase : Phase) : Call :=
  { c with phase := phase, sections := c.sections ++ [⟨kind, ops⟩] }

/-- The entry of `screen_existing`: an entry that is still in flight is reported at once. -/
def existingPhase (e : BufferEntry) : Phase :=
  if e.status.isRetryable then .done .auditPending
  else .confirm e.status e.quotaConsistencyHash e.generation e.ruleSnapshot

/-- Whether re-evaluating the call's own logs under a snapshot gives the stored quota hash. -/
def consistentWith (env : Env) (input : ScreenInput) (ruleSnapshot : RuleSet)
    (storedHash : B256) : Bool :=
  match evaluateChecked env.abi ruleSnapshot input env.config.maxEventBindingsPerTx with
  | .ok (.audit actions _) => encodeAndHash env.abi actions == storedHash
  | _ => false

/-- The entry of a freshly audited transaction. -/
def freshEntry (env : Env) (input : ScreenInput) (rules : RuleSet) (actions : Actions)
    (timeoutAction : TimeoutAction) (now : Nat) : BufferEntry where
  generation := 0
  txHash := input.txHash
  origin := input.origin
  contractAddress := input.txTo.getD 0
  nonce := input.nonce
  blockHeight := input.blockHeight
  status := .notSubmitted
  actions := actions
  ruleSnapshot := rules
  quotaConsistencyHash := encodeAndHash env.abi actions
  timeoutAction := timeoutAction
  firstNotSubmittedAt := now
  lastTransitionAt := now

/-- The phase after the fresh evaluation. -/
def evaluatedPhase (rules : RuleSet) : Except MatchError MatchOutcome → Phase
  | .error _ => .done .deny
  | .ok .allow => .recheck
  | .ok .deny => .done .deny
  | .ok (.audit actions timeoutAction) => .insert rules actions timeoutAction

/-- The verdict after a consistency check. -/
def consistencyVerdict (consistent : Bool) : Option BufferStatus → Screen
  | some .approved => if consistent then .auditApproved else .auditPending
  | some .dropped => .drop
  | _ => .auditPending

/-- The next section of a call, from the pool operations so far and the active rules: the
    operations it performs and the call after it.  `none` when the call has returned. -/
def Call.advance (env : Env) (ops : List PoolOp) (rules : RuleSet) (now : Nat) (c : Call) :
    Option (List PoolOp × Call) :=
  let pool := poolAfter ops
  let h := c.input.txHash
  match c.phase with
  | .lookup =>
    match pool.get h with
    | some e => some ([], c.after .lookup ops (existingPhase e))
    | none => some ([], c.after .lookup ops .readRules)
  | .readRules =>
    let outcome := evaluateChecked env.abi rules c.input env.config.maxEventBindingsPerTx
    some ([], { c with phase := evaluatedPhase rules outcome, rulesRead := some rules })
  | .recheck =>
    match pool.get h with
    | some e => some ([], c.after .recheck ops (existingPhase e))
    | none => some ([], c.after .recheck ops (.done .allow))
  | .insert rules' actions timeoutAction =>
    let op := .insert (freshEntry env c.input rules' actions timeoutAction now) rfl
    some ([op], c.after .insert (ops ++ [op]) (.metrics .auditPending))
  | .confirm status storedHash generation ruleSnapshot =>
    match status with
    | .timedOutAllow =>
      some ([], c.after .confirm ops (.done
        (if pool.matchesStatus h generation .timedOutAllow then .auditApproved
          else .auditPending)))
    | .dropped =>
      some ([], c.after .confirm ops (.done
        (if pool.matchesStatus h generation .dropped then .drop else .auditPending)))
    | .approved =>
      let consistent := consistentWith env c.input ruleSnapshot storedHash
      let op := .finishConsistencyCheck h generation consistent now
      some ([op], c.after .confirm (ops ++ [op]) (.metrics (consistencyVerdict consistent
        (pool.finishConsistencyCheck h generation consistent now).2)))
    | _ => some ([], { c with phase := .done .auditPending })
  | .metrics result => some ([], c.after .metrics ops (.done result))
  | .done _ => none

/-! ## The system -/

/-- One row of a query response. -/
structure QueryTx where
  txHash : String
  status : String

/-- A status query: the lifecycles in flight when it started and the statuses still to ask. -/
structure QueryTask where
  expected : Generations
  statuses : List String

structure State where
  /-- Every pool operation performed so far, oldest first. -/
  ops : List PoolOp
  rules : RuleSet
  ready : Bool
  calls : List Call
  /-- Collected groups that are not yet submitted. -/
  groups : List (List SubmitEntry)
  /-- Submit requests in flight, each with the lifecycles it was made for. -/
  requests : List Generations
  queries : List QueryTask
  /-- Terminal events of released lock sections that are not yet sent. -/
  outbox : List TerminalEvent
  /-- Terminal events sent. -/
  events : List TerminalEvent

/-- The pool. -/
def State.pool (s : State) : BufferPool := poolAfter s.ops

def State.new : State := ⟨[], RuleSet.default, false, [], [], [], [], [], []⟩

/-- A lock section: operations on the pool, and the events it leaves to be sent. -/
def State.perform (s : State) (ops : List PoolOp) (events : List TerminalEvent) : State :=
  { s with ops := s.ops ++ ops, outbox := s.outbox ++ events }

/-- `HashMap::from_iter`: a later pair replaces an earlier one of the same hash. -/
def generationsOf (l : List (B256 × Nat)) : Generations :=
  l.foldl (fun t x => (t.erase x.1).insertIfAbsent x) Table.empty

/-- The priority of a status among contradictory rows. -/
def queryPriority (status : String) : Option Nat :=
  if status = "denied" ∨ status = "outdated" then some 2
  else if status = "approved" then some 1
  else if status = "pending" then some 0
  else none

/-- One row of a response: kept when its hash is expected, its status known and its priority
    above that of the row already kept. -/
def collectRow (expected : Generations) (relevant : OrdMap Nat (Nat × B256 × Nat × String))
    (row : QueryTx) : OrdMap Nat (Nat × B256 × Nat × String) :=
  match B256.fromStr row.txHash with
  | none => relevant
  | some hash =>
    match expected.get? hash with
    | none => relevant
    | some (_, generation) =>
      match queryPriority row.status with
      | none => relevant
      | some priority =>
        match relevant.get? hash.toNat with
        | some (current, _) =>
          if priority > current then
            relevant.insert hash.toNat (priority, hash, generation, row.status)
          else relevant
        | none => relevant.insert hash.toNat (priority, hash, generation, row.status)

/-- The relevant rows of a response, one for each hash, in ascending hash order. -/
def collectRelevant (expected : Generations) (rows : List QueryTx) : List (B256 × Nat × String) :=
  (rows.foldl (collectRow expected) OrdMap.empty).values.map (·.2)

/-- The pool operations of a query response. -/
def relevantOps (cfg : FilterConfig) (now : Nat) (relevant : List (B256 × Nat × String)) :
    List PoolOp :=
  relevant.map (fun r => .applyQueryStatus r.1 r.2.1 r.2.2 cfg now)

/-- The terminal events of a query response, applied row by row under one lock. -/
def relevantEvents (cfg : FilterConfig) (now : Nat) :
    BufferPool → List (B256 × Nat × String) → List TerminalEvent
  | _, [] => []
  | p, r :: rest =>
    let applied := p.applyQueryStatus r.1 r.2.1 r.2.2 cfg now
    (queryEvent r.1 r.2.1 applied.2).toList ++ relevantEvents cfg now applied.1 rest

/-- The lock section that resolves expired entries. -/
def State.resolveExpired (s : State) (env : Env) (now : Nat) : State :=
  s.perform [.resolveTotalTimeouts env.config now]
    (timeoutEvents (s.pool.resolveTotalTimeouts env.config now).2)

/-- One atomic action of the system. -/
inductive Act where
  /-- A new `screen_tx` call. -/
  | screen (input : ScreenInput)
  /-- The next section of a call. -/
  | callStep (i now : Nat)
  /-- The collecting section of `submit_once`. -/
  | submitCollect (now : Nat)
  /-- The first section of `submit_group`. -/
  | submitGroup (i now : Nat)
  /-- The response to a submit request: the accepted hashes, or a transport error. -/
  | submitReply (i : Nat) (reply : Option (List String)) (now : Nat)
  /-- The first section of `query_once`. -/
  | queryStart (now : Nat)
  /-- The response for the next status of a query, or a transport error. -/
  | queryReply (i : Nat) (reply : Option (List QueryTx)) (now : Nat)
  /-- `timeout_once`. -/
  | timeoutTick (now : Nat)
  | installRules (rules : RuleSet)
  | removeCanonical (hashes : List B256)
  | recoverLag
  | removeNonTerminal (txHash : B256) (generation : Nat)
  /-- A terminal event is sent. -/
  | emit (i : Nat)

/-- One step; `none` when the action is not enabled. -/
def step (env : Env) (s : State) : Act → Option State
  | .screen input => some { s with calls := s.calls ++ [Call.start input] }
  | .callStep i now =>
    (s.calls[i]?).bind (fun c => (c.advance env s.ops s.rules now).map (fun r =>
      { s with ops := s.ops ++ r.1, calls := s.calls.set i r.2 }))
  | .submitCollect now =>
    let s' := s.resolveExpired env now
    some { s' with groups := s'.groups ++ (collectSubmit s'.pool).values }
  | .submitGroup i now =>
    (s.groups[i]?).map (fun group =>
      let s' := { s with groups := s.groups.eraseIdx i }.resolveExpired env now
      let entries := group.filter
        (fun e => s'.pool.matchesStatus e.hash e.generation .notSubmitted)
      if entries.isEmpty then s'
      else { s' with requests := s'.requests ++
        [generationsOf (entries.map (fun e => (e.hash, e.generation)))] })
  | .submitReply i reply now =>
    (s.requests[i]?).map (fun expected =>
      let s' := { s with requests := s.requests.eraseIdx i }
      match reply with
      | none => s'.resolveExpired env now
      | some accepted =>
        s'.perform [.applySubmitResponse accepted expected env.config now]
          (timeoutEvents (s.pool.applySubmitResponse accepted expected env.config now).2))
  | .queryStart now =>
    let s' := s.resolveExpired env now
    let expected := s'.pool.inFlightGenerations
    if expected.entries.isEmpty then some s'
    else some { s' with queries := s'.queries ++
      [⟨expected, ["pending", "approved", "denied", "outdated"]⟩] }
  | .queryReply i reply now =>
    (s.queries[i]?).bind (fun task =>
      match task.statuses with
      | [] => none
      | _ :: rest =>
        let queries := if rest.isEmpty then s.queries.eraseIdx i
          else s.queries.set i { task with statuses := rest }
        let s' := { s with queries := queries }
        match reply with
        | none => some (s'.resolveExpired env now)
        | some rows =>
          let relevant := collectRelevant task.expected rows
          some (s'.perform (relevantOps env.config now relevant)
            (relevantEvents env.config now s.pool relevant)))
  | .timeoutTick now =>
    some (s.perform
      [.checkTimeouts env.config now, .pruneTerminal env.config.terminalEntryRetention now]
      (timeoutEvents (s.pool.checkTimeouts env.config now).2))
  | .installRules rules => some { s with rules := rules, ready := true }
  | .removeCanonical hashes => some (s.perform [.removeCanonical hashes] [])
  | .recoverLag => some (s.perform [.recoverAfterCanonicalLag] [])
  | .removeNonTerminal h g => some (s.perform [.removeNonTerminalIfGeneration h g] [])
  | .emit i =>
    (s.outbox[i]?).map (fun event =>
      { s with outbox := s.outbox.eraseIdx i, events := s.events ++ [event] })

/-- A run of the system. -/
def run (env : Env) : State → List Act → Option State
  | s, [] => some s
  | s, a :: acts => (step env s a).bind (fun s' => run env s' acts)

theorem run_eq_runFrom (env : Env) (acts : List Act) : ∀ s, run env s acts =
    runFrom (step env) s acts := by
  induction acts with
  | nil =>
    intro s
    rfl
  | cons a acts ih =>
    intro s
    rw [run, runFrom]
    exact congrArg _ (funext ih)

theorem run_append (env : Env) (acts more : List Act) (s : State) :
    run env s (acts ++ more) = (run env s acts).bind (fun s' => run env s' more) := by
  simp only [run_eq_runFrom, runFrom_append]

/-- **Invariant rule** for runs. -/
theorem run_induction {env : Env} (P : List Act → State → Prop) {s₀ : State} (h0 : P [] s₀)
    (hstep : ∀ acts s a s', run env s₀ acts = some s → P acts s → step env s a = some s' →
      P (acts ++ [a]) s') (acts : List Act) :
    ∀ s, run env s₀ acts = some s → P acts s := by
  simp only [run_eq_runFrom] at hstep ⊢
  exact runFrom_induction P h0 hstep acts

end XLayerReth.RcsFilter
