import Mathlib.Data.List.Induction
import XLayerReth.Builder.ExecutionSpec

/-!
# Capture windows do not leak

One inspector serves every candidate of a round.  Between two candidates it must be as new, and what
happens outside of a window must leave no trace in it.

* `CaptureGuard`, `guarded` — the guard of `context.rs` over any scope, and its whole life.
* `CaptureOp`, `Activity` — everything that can be done to an inspector, in any order.
* `isOpen`, `hooksSinceStart` — whether the last window is still open, and what was called in it.
* `ops_eq` — the state of the inspector is a function of the two.

Principal result: `capture_isolated`.
-/

set_option autoImplicit false

namespace XLayerReth.Builder

open RcsFilter

/-! ## The guard -/

/-- `RcsCaptureScope`. -/
structure RcsCaptureScope (E : Type) where
  startCapture : E → E
  finishCapture : E → List Log → CaptureOutcome × E
  abortCapture : E → E

/-- `CaptureGuard`. -/
structure CaptureGuard (E : Type) where
  scope : E
  armed : Bool

section

variable {E : Type} (S : RcsCaptureScope E)

/-- `CaptureGuard::new`. -/
def CaptureGuard.new (scope : E) : CaptureGuard E := ⟨S.startCapture scope, true⟩

/-- `CaptureGuard::drop`, which leaves the scope behind. -/
def CaptureGuard.drop (guard : CaptureGuard E) : E :=
  if guard.armed then S.abortCapture guard.scope else guard.scope

/-- `CaptureGuard::finish`: the guard is disarmed, and dropped at the end. -/
def CaptureGuard.finish (guard : CaptureGuard E) (resultLogs : List Log) : CaptureOutcome × E :=
  let finished := S.finishCapture guard.scope resultLogs
  (finished.1, CaptureGuard.drop S { scope := finished.2, armed := false })

/-- The life of a guard: its scope is driven, and then the guard is finished with the logs of the
    result, or dropped on an early return or while unwinding. -/
def guarded (drive : E → E × Option (List Log)) (scope : E) : Option CaptureOutcome × E :=
  let guard := CaptureGuard.new S scope
  let driven := drive guard.scope
  let guard := { guard with scope := driven.1 }
  match driven.2 with
  | some resultLogs =>
    let finished := guard.finish S resultLogs
    (some finished.1, finished.2)
  | none => (none, guard.drop S)

/-- How a window was ended. -/
inductive Ending where
  | finished
  | aborted
  deriving DecidableEq

/-- A scope that records how its windows are ended. -/
def RcsCaptureScope.recording : RcsCaptureScope (E × List Ending) where
  startCapture e := (S.startCapture e.1, e.2)
  finishCapture e resultLogs :=
    ((S.finishCapture e.1 resultLogs).1, (S.finishCapture e.1 resultLogs).2, e.2 ++ [.finished])
  abortCapture e := (S.abortCapture e.1, e.2 ++ [.aborted])

/-- A guard ends its window once: it finishes it if there is a result, and aborts it if not. -/
theorem guarded_ends_once (drive : E × List Ending → (E × List Ending) × Option (List Log))
    (scope : E × List Ending) :
    (guarded S.recording drive scope).2.2 =
      (drive (S.recording.startCapture scope)).1.2 ++
        [if (drive (S.recording.startCapture scope)).2.isSome then Ending.finished
          else Ending.aborted] := by
  unfold guarded CaptureGuard.new
  dsimp only
  generalize drive (S.recording.startCapture scope) = driven
  cases driven.2 with
  | none => rfl
  | some resultLogs => rfl

end

/-! ## What is done to an inspector -/

/-- A callback, or a call of `RcsCaptureControl`. -/
inductive CaptureOp where
  | hook (h : Hook)
  | startCapture
  | finishCapture (resultLogs : List Log)
  | abortCapture

/-- An operation, or the whole life of a guard with what was done while it was armed. -/
inductive Activity where
  | op (o : CaptureOp)
  | guard (driven : List CaptureOp) (result : Option (List Log))

namespace RcsInspector

/-- The state after an operation. -/
def op (s : RcsInspector) : CaptureOp → RcsInspector
  | .hook h => s.hook h
  | .startCapture => s.startCapture
  | .finishCapture resultLogs => (s.finishCapture resultLogs).2
  | .abortCapture => s.abortCapture

/-- `RcsCaptureScope` of an EVM with the inspector. -/
def scope : RcsCaptureScope RcsInspector := ⟨startCapture, finishCapture, abortCapture⟩

/-- The state after an activity. -/
def activity (s : RcsInspector) : Activity → RcsInspector
  | .op o => s.op o
  | .guard driven result => (guarded scope (fun s => (driven.foldl op s, result)) s).2

end RcsInspector

/-- The operations of an activity: a guard starts a window, and finishes or aborts it. -/
def Activity.ops : Activity → List CaptureOp
  | .op o => [o]
  | .guard driven result =>
    .startCapture :: (driven ++ [match result with
      | some resultLogs => .finishCapture resultLogs
      | none => .abortCapture])

/-- The callbacks since the last `start_capture`. -/
def hooksSinceStart (ops : List CaptureOp) : List Hook :=
  ops.foldl (fun hs o => match o with
    | .hook h => hs ++ [h]
    | .startCapture => []
    | .finishCapture _ | .abortCapture => hs) []

/-- Whether a window was started and not ended. -/
def isOpen (ops : List CaptureOp) : Bool :=
  ops.foldl (fun isOpen o => match o with
    | .hook _ => isOpen
    | .startCapture => true
    | .finishCapture _ | .abortCapture => false) false

/-! ## One operation -/

namespace RcsInspector

/-- Every callback is gated. -/
theorem hook_inactive {s : RcsInspector} (h : s.active = false) (hk : Hook) : s.hook hk = s := by
  cases hk with
  | log log => simp [hook, recordRealLog, h]
  | call transferValue sender recipient =>
    have hpush : s.pushCheckpoint = s := by simp [pushCheckpoint, h]
    cases transferValue with
    | none => simp [hook, call, recordCallObservation, hpush]
    | some value => simp [hook, call, recordCallObservation, observeNativeTransfer, hpush, h]
  | callEnd isOk => simp [hook, popCheckpoint, h]
  | create inputs callerNonce => simp [hook, create, pushCheckpoint, h]
  | createEnd isOk address => simp [hook, createEnd, h]
  | step isSelfdestruct journalLen => simp [hook, step, h]
  | stepEnd journalLen => simp [hook, stepEnd, h]
  | selfdestruct contract target value => simp [hook, selfdestruct, h]

theorem observeNativeTransfer_limit (s : RcsInspector) (sender recipient : Address) (value : U256)
    (kind : NativeTransferKind) :
    (s.observeNativeTransfer sender recipient value kind).limit = s.limit := by
  unfold observeNativeTransfer
  dsimp only
  split_ifs <;> rfl

theorem pushCheckpoint_limit (s : RcsInspector) : s.pushCheckpoint.limit = s.limit := by
  unfold pushCheckpoint
  split_ifs <;> rfl

theorem popCheckpoint_limit (s : RcsInspector) (reverted : Bool) :
    (s.popCheckpoint reverted).limit = s.limit := by
  unfold popCheckpoint
  split
  · rfl
  · split
    · rfl
    · split <;> rfl

/-- No callback changes the budget. -/
theorem hook_limit (s : RcsInspector) (hk : Hook) : (s.hook hk).limit = s.limit := by
  cases hk with
  | log log =>
    simp only [hook, recordRealLog]
    split_ifs <;> rfl
  | call transferValue sender recipient =>
    cases transferValue with
    | none => exact pushCheckpoint_limit s
    | some value =>
      exact (observeNativeTransfer_limit _ _ _ _ .call).trans (pushCheckpoint_limit s)
  | callEnd isOk => exact popCheckpoint_limit s _
  | create inputs callerNonce =>
    simp only [hook, create]
    split_ifs
    · exact pushCheckpoint_limit s
    · exact (observeNativeTransfer_limit _ _ _ _ .create).trans (pushCheckpoint_limit s)
    · exact (observeNativeTransfer_limit _ _ _ _ .create).trans (pushCheckpoint_limit s)
  | createEnd isOk address =>
    simp only [hook, createEnd]
    split_ifs
    · rfl
    · exact popCheckpoint_limit _ _
    · split
      · exact popCheckpoint_limit _ _
      · split
        · split_ifs
          · exact popCheckpoint_limit _ _
          · exact popCheckpoint_limit _ _
        · exact popCheckpoint_limit _ _
  | step isSelfdestruct journalLen =>
    simp only [hook, step]
    split_ifs <;> rfl
  | stepEnd journalLen =>
    simp only [hook, stepEnd]
    split_ifs
    · rfl
    · split <;> rfl
  | selfdestruct contract target value =>
    simp only [hook, selfdestruct]
    split_ifs
    · rfl
    · rfl
    · exact observeNativeTransfer_limit _ _ _ _ .selfDestruct

theorem hooks_limit (s : RcsInspector) (hs : List Hook) : (s.hooks hs).limit = s.limit := by
  induction hs generalizing s with
  | nil => rfl
  | cons h hs ih => exact (ih (s.hook h)).trans (hook_limit s h)

/-- Each exit leaves a new inspector, on every path. -/
theorem finishCapture_snd (s : RcsInspector) (resultLogs : List Log) :
    (s.finishCapture resultLogs).2 = new s.limit := rfl

theorem abortCapture_eq (s : RcsInspector) : s.abortCapture = new s.limit := rfl

theorem startCapture_eq (s : RcsInspector) : s.startCapture = (new s.limit).startCapture := rfl

/-! ## Any sequence of operations -/

/-- **The state after any operations** is that of the open window alone. -/
theorem ops_eq (limit : Nat) (ops : List CaptureOp) :
    ops.foldl op (new limit) =
      if isOpen ops then (new limit).startCapture.hooks (hooksSinceStart ops) else new limit := by
  induction ops using List.reverseRecOn with
  | nil => rfl
  | append_singleton ops o ih =>
    have hlimit : (ops.foldl op (new limit)).limit = limit := by
      rw [ih]
      split_ifs
      · exact hooks_limit _ _
      · rfl
    rw [List.foldl_append, List.foldl_cons, List.foldl_nil]
    cases o with
    | hook h =>
      have hopen : isOpen (ops ++ [.hook h]) = isOpen ops := by simp [isOpen]
      have hhooks : hooksSinceStart (ops ++ [.hook h]) = hooksSinceStart ops ++ [h] := by
        simp [hooksSinceStart]
      rw [hopen, hhooks, op, ih]
      split_ifs
      · simp [hooks]
      · exact hook_inactive rfl h
    | startCapture =>
      have hopen : isOpen (ops ++ [.startCapture]) = true := by simp [isOpen]
      have hhooks : hooksSinceStart (ops ++ [.startCapture]) = [] := by simp [hooksSinceStart]
      rw [hopen, hhooks, op, startCapture_eq, hlimit]
      rfl
    | finishCapture resultLogs =>
      have hopen : isOpen (ops ++ [.finishCapture resultLogs]) = false := by simp [isOpen]
      rw [hopen, op, finishCapture_snd, hlimit]
      rfl
    | abortCapture =>
      have hopen : isOpen (ops ++ [.abortCapture]) = false := by simp [isOpen]
      rw [hopen, op, abortCapture_eq, hlimit]
      rfl

/-- A guard is its operations. -/
theorem activity_eq (s : RcsInspector) (a : Activity) : s.activity a = a.ops.foldl op s := by
  cases a with
  | op o => rfl
  | guard driven result =>
    simp only [activity, Activity.ops, List.foldl_cons, List.foldl_append, List.foldl_nil]
    cases result with
    | none => rfl
    | some resultLogs => rfl

theorem activities_eq (s : RcsInspector) (acts : List Activity) :
    acts.foldl activity s = (acts.flatMap Activity.ops).foldl op s := by
  induction acts generalizing s with
  | nil => rfl
  | cons a acts ih =>
    rw [List.foldl_cons, List.flatMap_cons, List.foldl_append, activity_eq, ih]

end RcsInspector

/-! ## A round -/

section

variable {Db Changes Env : Type} {P : Platform Db Changes Env} {ctx : BuilderCtx Env}

/-- The window around an execution is that of a guard. -/
theorem captured_guarded (s : RcsInspector) (result : ExecutionResult) :
    captured (some s) result =
      let life := guarded RcsInspector.scope (fun s => (s.hooks result.hooks, some result.logs)) s
      (life.1.getD .passthrough, some life.2) := rfl

/-- What is captured of an execution by itself. -/
def captureAlone (filter : Option Nat) (result : ExecutionResult) : CaptureOutcome :=
  match filter with
  | none => .passthrough
  | some limit => ((RcsInspector.new limit).startCapture.hooks result.hooks).outcome result.logs

theorem captured_alone (filter : Option Nat) (result : ExecutionResult) :
    captured (filter.map RcsInspector.new) result =
      (captureAlone filter result, filter.map RcsInspector.new) := by
  cases filter with
  | none => rfl
  | some limit =>
    have hlimit : ((RcsInspector.new limit).startCapture.hooks result.hooks).limit = limit :=
      RcsInspector.hooks_limit _ _
    rw [Option.map_some, captured_guarded]
    show (((RcsInspector.new limit).startCapture.hooks result.hooks).outcome result.logs,
      some (RcsInspector.new ((RcsInspector.new limit).startCapture.hooks result.hooks).limit)) = _
    rw [hlimit]
    rfl

variable (P ctx) in
/-- A transaction that is executed with a new inspector leaves a new one. -/
theorem transactMaybeGasless_inspector (db : Db) (tx : Tx) :
    (transactMaybeGasless P ctx db (ctx.filter.map RcsInspector.new) tx).2 =
      ctx.filter.map RcsInspector.new := by
  unfold transactMaybeGasless
  split
  · rfl
  · split
    · cases ctx.filter with
      | none => rfl
      | some limit => rfl
    · rw [captured_alone]

theorem afterExecution_inspector (s : LoopState Db Changes) (cand : Candidate) (v : Verdicts)
    (result : ExecutionResult) (changes : Changes) (gasless : Bool) (capture : CaptureOutcome) :
    (afterExecution P ctx s cand v result changes gasless capture).inspector = s.inspector := by
  unfold afterExecution
  dsimp only
  split_ifs
  · rfl
  · rfl
  · rfl
  · cases screenDecision v capture <;> rfl
  · rfl

/-- A candidate that meets a new inspector leaves a new one, however it ends. -/
theorem considerTx_inspector {limits : TransactionLimits} {s s' : LoopState Db Changes}
    {cv : Candidate × Verdicts} (hs : s.inspector = ctx.filter.map RcsInspector.new)
    (h : considerTx P ctx limits s cv = .ok s') :
    s'.inspector = ctx.filter.map RcsInspector.new := by
  unfold considerTx at h
  dsimp only at h
  cases hbefore : beforeExecution P ctx limits s cv.1 cv.2 with
  | some stopped =>
    simp only [hbefore] at h
    subst h
    rw [(beforeExecution_turnsAway hbefore).2, hs]
  | none =>
    have hafter := transactMaybeGasless_inspector P ctx s.exec.db cv.1.tx.tx
    rw [← hs] at hafter
    simp only [hbefore] at h
    split at h
    · rename_i nonceTooLow inspector ht
      rw [ht, hs] at hafter
      cases h
      cases nonceTooLow with
      | false => exact hafter
      | true => exact hafter
    · cases h
    · rename_i result changes gasless capture inspector ht
      rw [ht, hs] at hafter
      cases h
      rw [afterExecution_inspector]
      exact hafter

/-- **Every candidate of a round meets a new inspector.** -/
theorem runTxLoop_inspector {limits : TransactionLimits} {s s' : LoopState Db Changes}
    {cvs : List (Candidate × Verdicts)} {ending : LoopEnd}
    (hs : s.inspector = ctx.filter.map RcsInspector.new)
    (h : runTxLoop P ctx limits s cvs = (s', ending)) :
    s'.inspector = ctx.filter.map RcsInspector.new := by
  induction cvs generalizing s with
  | nil =>
    cases h
    exact hs
  | cons cv rest ih =>
    unfold runTxLoop at h
    cases hstep : considerTx P ctx limits s cv with
    | error e =>
      rw [hstep] at h
      cases h
      exact hs
    | ok next =>
      rw [hstep] at h
      exact ih (considerTx_inspector hs hstep) h

/-- The next execution of a round is captured as if it were the only one. -/
theorem transactMaybeGasless_alone {db : Db} {tx : Tx} {result : ExecutionResult}
    {changes : Changes} {gasless : Bool} {capture : CaptureOutcome}
    (h : (transactMaybeGasless P ctx db (ctx.filter.map RcsInspector.new) tx).1 =
      .ok (result, changes, gasless, capture)) :
    capture = captureAlone ctx.filter result := by
  unfold transactMaybeGasless at h
  split at h
  · cases h
  · split at h
    · cases h
    · rw [captured_alone] at h
      cases h
      rfl

end

/-! ## Isolation -/

/-- **Capture windows are isolated.**
    1. What a finish returns after any activities is a function of the budget, of whether the last
       window is still open, of the callbacks in it if it is, and of the logs of the result.
    2. A callback outside of a window changes nothing.
    3. Both exits leave a new inspector with the same budget.
    4. A guard ends its window once, whatever was done under it.
    5. Every execution of a round is captured as if it were the only one, and leaves a new
       inspector to the next one. -/
theorem capture_isolated :
    (∀ (limit : Nat) (acts : List Activity) (resultLogs : List Log),
      ((acts.foldl RcsInspector.activity (.new limit)).finishCapture resultLogs).1 =
        (if isOpen (acts.flatMap Activity.ops) then
            (RcsInspector.new limit).startCapture.hooks
              (hooksSinceStart (acts.flatMap Activity.ops))
          else .new limit).outcome resultLogs) ∧
    (∀ (s : RcsInspector) (h : Hook), s.active = false → s.hook h = s) ∧
    (∀ (s : RcsInspector) (resultLogs : List Log),
      (s.finishCapture resultLogs).2 = .new s.limit ∧ s.abortCapture = .new s.limit) ∧
    (∀ (E : Type) (S : RcsCaptureScope E)
        (drive : E × List Ending → (E × List Ending) × Option (List Log)) (scope : E × List Ending),
      (guarded S.recording drive scope).2.2 =
        (drive (S.recording.startCapture scope)).1.2 ++
          [if (drive (S.recording.startCapture scope)).2.isSome then Ending.finished
            else Ending.aborted]) ∧
    (∀ (Db Changes Env : Type) (P : Platform Db Changes Env) (ctx : BuilderCtx Env)
        (limits : TransactionLimits) (x : Exec Db Changes) (before : List (Candidate × Verdicts))
        (s : LoopState Db Changes) (tx : Tx),
      executeBestTransactions P ctx limits x before = (s, .exhausted) →
        (∀ result changes gasless capture,
          (transactMaybeGasless P ctx s.exec.db s.inspector tx).1 =
              .ok (result, changes, gasless, capture) →
            capture = captureAlone ctx.filter result) ∧
        (transactMaybeGasless P ctx s.exec.db s.inspector tx).2 =
          ctx.filter.map RcsInspector.new) := by
  refine ⟨?_, ?_, ?_, ?_, ?_⟩
  · intro limit acts resultLogs
    rw [RcsInspector.activities_eq, RcsInspector.ops_eq]
    rfl
  · intro s h hs
    exact RcsInspector.hook_inactive hs h
  · intro s resultLogs
    exact ⟨RcsInspector.finishCapture_snd s resultLogs, RcsInspector.abortCapture_eq s⟩
  · intro E S drive scope
    exact guarded_ends_once S drive scope
  · intro Db Changes Env P ctx limits x before s tx h
    have hs : s.inspector = ctx.filter.map RcsInspector.new := runTxLoop_inspector rfl h
    rw [hs]
    refine ⟨?_, transactMaybeGasless_inspector P ctx s.exec.db tx⟩
    intro result changes gasless capture ht
    exact transactMaybeGasless_alone ht

/-- The callbacks since the last start do not tell a window that was aborted from one that is still
    open, and a finish does: the log of an aborted window is missing from what it recorded. -/
theorem aborted_window_finishes_otherwise :
    ¬ ∀ (limit : Nat) (ops ops' : List CaptureOp) (resultLogs : List Log),
      hooksSinceStart ops = hooksSinceStart ops' →
        ((ops.foldl RcsInspector.op (.new limit)).finishCapture resultLogs).1 =
          ((ops'.foldl RcsInspector.op (.new limit)).finishCapture resultLogs).1 := by
  intro h
  have hsame := h 1 [.startCapture, .hook (.log ⟨0, [], []⟩)]
    [.startCapture, .hook (.log ⟨0, [], []⟩), .abortCapture] [⟨0, [], []⟩] rfl
  revert hsame
  decide

namespace Sample

/-- What a call that moves 5 tokens answers. -/
def moved : ExecutionResult := ⟨21000, true, [], [.call (some 5) 102 103, .callEnd true]⟩

/-- Every transaction moves 5 tokens. -/
def moving : Platform Nat Nat (Header × NextBlockEnvAttributes) :=
  { platform with transact := fun _ db _ _ => .ok (moved, db + 1) }

/-- The filter allows for one native transfer. -/
def screening : BuilderCtx (Header × NextBlockEnvAttributes) :=
  BuilderConfig.context { config with filter := some 1 } parent 9 attributes
    (attributes.blockEnvAttributes parent []) (parent, attributes.blockEnvAttributes parent [])

/-- A round in which one transfer was captured and allowed. -/
def afterOne : LoopState Nat Nat × LoopEnd :=
  executeBestTransactions moving screening ⟨30000000, none, none⟩ ⟨ExecutionInfo.new, 0, []⟩
    [(transfer 7, ⟨false, .execute, fun _ => .allow⟩)]

/-- The second transfer of a round does not meet the budget that the first one used up. -/
theorem second_transfer_alone :
    afterOne.2 = .exhausted ∧ afterOne.1.exec.history.length = 1 ∧
      ∃ capture, (transactMaybeGasless moving screening afterOne.1.exec.db afterOne.1.inspector
          (transfer 7).tx.tx).1 = .ok (moved, 2, false, capture) ∧
        capture = captureAlone (some 1) moved ∧
        capture = .complete [nativeTransferLog 102 103 5] := by
  have hexhausted : afterOne = (afterOne.1, .exhausted) := rfl
  obtain ⟨hcapture, -⟩ := capture_isolated.2.2.2.2 _ _ _ moving screening ⟨30000000, none, none⟩
    ⟨ExecutionInfo.new, 0, []⟩ [(transfer 7, ⟨false, .execute, fun _ => .allow⟩)] afterOne.1
    (transfer 7).tx.tx hexhausted
  have hanswer : (transactMaybeGasless moving screening afterOne.1.exec.db afterOne.1.inspector
      (transfer 7).tx.tx).1 = .ok (moved, 2, false, captureAlone (some 1) moved) := rfl
  refine ⟨rfl, rfl, _, hanswer, hcapture _ _ _ _ hanswer, ?_⟩
  decide

end Sample

end XLayerReth.Builder
