import XLayerReth.RcsFilter.Handle
import XLayerReth.Builder.Chain

/-!
# Executing transactions into a block

Model of the execution paths of the leader in `context.rs` and `builder_tx.rs`.

* `ExecutionInfo`, `isTxOverLimits` — the accounting of a block and its limits.
* `transactMaybeGasless` — one transaction, with the gasless check before it and the capture
  window around it.
* `executeSequencerTransactions`, `runTxLoop`, `addBuilderTxs` — the sequencer's transactions, one
  round over the pool, and the builder's own transactions.
* `executeCachedFlashblocksTransactions` — the flashblocks of an earlier builder, replayed.
* `Exec` — the accounting and the database; its `history` is kept for specifications only.

The pool iterator and the filter answer as they like: a round is given by the candidates that the
iterator yields and the verdicts made about them.
-/

set_option autoImplicit false

namespace XLayerReth.Builder

open RcsFilter

/-! ## Accounting -/

/-- `ExecutionInfo`. -/
structure ExecutionInfo where
  executedTransactions : List Tx
  executedSenders : List Address
  receipts : List Receipt
  cumulativeGasUsed : Nat
  cumulativeGaslessGasUsed : Nat
  gaslessBudgetExhausted : Bool
  cumulativeDaBytesUsed : Nat
  totalFees : Nat
  daFootprintScalar : Option Nat
  optionalBlobFields : Option (Option Nat × Option Nat)

/-- `ExecutionInfo::with_capacity`. -/
def ExecutionInfo.new : ExecutionInfo := ⟨[], [], [], 0, 0, false, 0, 0, none, none⟩

/-- Why a transaction does not fit. -/
inductive TxnExecutionResult where
  | transactionDALimitExceeded
  | blockDALimitExceeded (totalDaUsed txDaSize limit : Nat)
  | transactionGasLimitExceeded (totalGasUsed txGasLimit limit : Nat)

/-- `is_tx_over_limits`. -/
def ExecutionInfo.isTxOverLimits (info : ExecutionInfo) (txDaSize blockGasLimit : Nat)
    (txDataLimit blockDataLimit : Option Nat) (txGasLimit : Nat)
    (daFootprintGasScalar blockDaFootprintLimit : Option Nat) : Except TxnExecutionResult Unit :=
  if txDataLimit.any (fun limit => txDaSize > limit) then .error .transactionDALimitExceeded
  else
    let totalDaBytesUsed := saturatingAdd info.cumulativeDaBytesUsed txDaSize
    if blockDataLimit.any (fun limit => totalDaBytesUsed > limit) then
      .error (.blockDALimitExceeded info.cumulativeDaBytesUsed txDaSize (blockDataLimit.getD 0))
    else
      let footprint := daFootprintGasScalar.map (saturatingMul totalDaBytesUsed)
      if footprint.any (fun f => f > blockDaFootprintLimit.getD blockGasLimit) then
        .error (.blockDALimitExceeded totalDaBytesUsed txDaSize (footprint.getD 0))
      else if saturatingAdd info.cumulativeGasUsed txGasLimit > blockGasLimit then
        .error (.transactionGasLimitExceeded info.cumulativeGasUsed txGasLimit blockGasLimit)
      else .ok ()

/-- Where an executed transaction came from. -/
inductive Source where
  | sequencer
  | pool
  | builder
  | cached
  deriving DecidableEq

/-- An executed transaction, as the EVM answered. -/
structure Committed (Changes : Type) where
  source : Source
  tx : Recovered
  gasless : Bool
  depositNonce : Option Nat
  result : ExecutionResult
  changes : Changes
  daSize : Nat

/-- The accounting, the database, and what was executed to get there. -/
structure Exec (Db Changes : Type) where
  info : ExecutionInfo
  db : Db
  history : List (Committed Changes)

section

variable {Db Changes Env : Type} (P : Platform Db Changes Env) (ctx : BuilderCtx Env)

/-- What every path does with an executed transaction. -/
def Exec.append (x : Exec Db Changes) (c : Committed Changes) : Exec Db Changes :=
  let cumulativeGasUsed := x.info.cumulativeGasUsed + c.result.gasUsed
  { info := { x.info with
      cumulativeGasUsed := cumulativeGasUsed
      cumulativeDaBytesUsed := x.info.cumulativeDaBytesUsed + c.daSize
      receipts := x.info.receipts ++ [buildReceipt ctx.isCanyonActive c.tx.tx.txType c.result
        cumulativeGasUsed c.depositNonce]
      executedSenders := x.info.executedSenders ++ [c.tx.signer]
      executedTransactions := x.info.executedTransactions ++ [c.tx.tx] }
    db := P.commit x.db c.changes
    history := x.history ++ [c] }

/-- The miner's fee of a transaction. -/
def minerFee (tx : Tx) (gasUsed : Nat) : Nat :=
  (tx.effectiveTipPerGas (P.baseFee ctx.evmEnv)).getD 0 * gasUsed

/-- A transaction of the pool, or of a cached flashblock, also pays a fee. -/
def Exec.appendPriced (x : Exec Db Changes) (c : Committed Changes) : Exec Db Changes :=
  let x' := x.append P ctx c
  { x' with info := { x'.info with
      totalFees := x.info.totalFees + minerFee P ctx c.tx.tx c.result.gasUsed } }

/-- A pool transaction also counts against the gasless budget. -/
def Exec.appendPool (x : Exec Db Changes) (c : Committed Changes) : Exec Db Changes :=
  let x' := x.appendPriced P ctx c
  { x' with info := { x'.info with
      cumulativeGaslessGasUsed := x.info.cumulativeGaslessGasUsed +
        (if c.gasless then c.result.gasUsed else 0) } }

/-! ## One transaction -/

/-- `is_gasless`: a zero-priced transaction that the contract approves. -/
def isGasless (db : Db) (tx : Tx) : Except EvmError Bool :=
  if tx.isDeposit || tx.maxFeePerGas ≠ 0 then .ok false
  else if ctx.gaslessContract then
    match P.contractIsGasless ctx.evmEnv db tx with
    | some gasless => .ok gasless
    | none => .error .fatal
  else .ok false

/-- The capture window around an execution; without an inspector it captures nothing. -/
def captured (inspector : Option RcsInspector) (result : ExecutionResult) :
    CaptureOutcome × Option RcsInspector :=
  match inspector with
  | none => (.passthrough, none)
  | some s =>
    let finished := (s.startCapture.hooks result.hooks).finishCapture result.logs
    (finished.1, some finished.2)

/-- `transact_maybe_gasless`: the answer of the EVM with the gasless flag and the capture, and the
    inspector after it; on an error the capture is aborted. -/
def transactMaybeGasless (db : Db) (inspector : Option RcsInspector) (tx : Tx) :
    Except EvmError (ExecutionResult × Changes × Bool × CaptureOutcome) × Option RcsInspector :=
  match isGasless P ctx db tx with
  | .error e => (.error e, inspector)
  | .ok gasless =>
    match P.transact ctx.evmEnv db tx gasless with
    | .error e => (.error e, inspector.map RcsInspector.abortCapture)
    | .ok (result, changes) =>
      let capture := captured inspector result
      (.ok (result, changes, gasless, capture.1), capture.2)

/-! ## The sequencer's transactions -/

/-- Why a block could not be built. -/
inductive BuildError where
  | blobTransactionRejected
  | transactionEcRecoverFailed
  | accountLoadFailed (account : Address)
  | evmExecutionError
  | blockNumberMismatch (expected got : Nat)
  | stateRootFailed
  | withdrawalsRootFailed
  | extraDataFailed
  | missingFootprintScalar
  | missingParentBeaconBlockRoot
  deriving DecidableEq

/-- The nonce of the depositor before a deposit, after Regolith; `none` if the account cannot be
    loaded. -/
def depositorNonce (regolith : Bool) (db : Db) (r : Recovered) : Option (Option Nat) :=
  if regolith && r.tx.isDeposit then (P.accountNonce db r.signer).map some else some none

/-- The estimated size of a transaction that is not a deposit. -/
def sequencerDaSize (tx : Tx) : Nat :=
  if tx.isDeposit then 0 else P.txEstimatedSizeFjordBytes tx.encoded

/-- One transaction of `execute_sequencer_transactions`; an invalid one is skipped. -/
def sequencerStep (x : Exec Db Changes) (tx : Tx) : Except BuildError (Exec Db Changes) :=
  if tx.isEip4844 then .error .blobTransactionRejected
  else
    match h : tx.signer with
    | none => .error .transactionEcRecoverFailed
    | some signer =>
      let r : Recovered := ⟨tx, signer, h⟩
      match depositorNonce P ctx.isRegolithActive x.db r with
      | none => .error (.accountLoadFailed signer)
      | some depositNonce =>
        match (transactMaybeGasless P ctx x.db none tx).1 with
        | .error (.invalidTx _) => .ok x
        | .error .fatal => .error .evmExecutionError
        | .ok (result, changes, gasless, _) =>
          .ok (x.append P ctx
            ⟨.sequencer, r, gasless, depositNonce, result, changes, sequencerDaSize P tx⟩)

/-- `execute_sequencer_transactions`. -/
def executeSequencerTransactions (db : Db) : Except BuildError (Exec Db Changes) :=
  (ctx.attributes.transactions.foldlM (sequencerStep P ctx) ⟨ExecutionInfo.new, db, []⟩).map
    (fun x => { x with info := { x.info with
      daFootprintScalar :=
        if ctx.isJovianActive then some (P.daFootprintGasScalar x.db) else none } })

/-- `execute_pre_steps`. -/
def executePreSteps (db : Db) : Except BuildError (Exec Db Changes) :=
  match P.applyPreExecutionChanges ctx.parent ctx.blockEnvAttributes db with
  | none => .error .evmExecutionError
  | some db => executeSequencerTransactions P ctx db

end

/-! ## The pool's transactions -/

/-- A transaction of the pool iterator. -/
structure Candidate where
  tx : Recovered
  estimatedDaSize : Nat
  conditionalMatches : Bool
  interopDeadline : Option Nat

/-- What the job's cancellation and the filter say about a candidate at its turn. -/
structure Verdicts where
  cancelled : Bool
  preScreen : PreScreen
  screenTx : List Log → Screen

/-- `TransactionLimits`. -/
structure TransactionLimits where
  blockGas : Nat
  blockDa : Option Nat
  blockDaFootprint : Option Nat

/-- A round in progress: candidates marked invalid in the iterator, hashes removed from the pool. -/
structure LoopState (Db Changes : Type) where
  exec : Exec Db Changes
  inspector : Option RcsInspector
  marked : List (Address × Nat)
  removed : List B256

/-- How a round ends. -/
inductive LoopEnd where
  | exhausted
  | cancelled
  | evmError
  deriving DecidableEq

section

variable {Db Changes Env : Type} (P : Platform Db Changes Env) (ctx : BuilderCtx Env)

/-- `mark_invalid`: the candidate and its nonce descendants leave this iterator. -/
def LoopState.markInvalid (s : LoopState Db Changes) (c : Candidate) : LoopState Db Changes :=
  { s with marked := s.marked ++ [(c.tx.signer, c.tx.tx.nonce)] }

/-- The candidate also leaves the pool. -/
def LoopState.discard (s : LoopState Db Changes) (c : Candidate) : LoopState Db Changes :=
  { s.markInvalid c with removed := s.removed ++ [c.tx.tx.hash] }

/-- The decision of an enabled filter: every capture but a complete one fails closed. -/
def screenDecision (v : Verdicts) (capture : CaptureOutcome) : Screen :=
  match capture with
  | .complete logs => v.screenTx logs
  | _ => .deny

/-- What is checked before a candidate is executed: `none` to execute it. -/
def beforeExecution (limits : TransactionLimits) (s : LoopState Db Changes) (c : Candidate)
    (v : Verdicts) : Option (Except LoopEnd (LoopState Db Changes)) :=
  let info := s.exec.info
  if !c.conditionalMatches then some (.ok (s.markInvalid c))
  else if ctx.interopFeature &&
      c.interopDeadline.any (fun d => !P.isValidInterop d ctx.timestamp) then
    some (.ok (s.markInvalid c))
  else
    match info.isTxOverLimits c.estimatedDaSize limits.blockGas ctx.maxDaTxSize limits.blockDa
        c.tx.tx.gasLimit info.daFootprintScalar limits.blockDaFootprint with
    | .error _ => some (.ok (s.markInvalid c))
    | .ok _ =>
      if c.tx.tx.isEip4844 || c.tx.tx.isDeposit then some (.ok (s.markInvalid c))
      else if v.cancelled then some (.error .cancelled)
      else if ctx.filter.isSome && v.preScreen = .defer then some (.ok (s.markInvalid c))
      else if ctx.filter.isSome && v.preScreen = .drop then some (.ok (s.discard c))
      else if info.gaslessBudgetExhausted && c.tx.tx.maxFeePerGas = 0 then
        some (.ok (s.markInvalid c))
      else none

/-- What is checked after a candidate was executed, before anything is committed. -/
def afterExecution (s : LoopState Db Changes) (c : Candidate) (v : Verdicts)
    (result : ExecutionResult) (changes : Changes) (gasless : Bool) (capture : CaptureOutcome) :
    LoopState Db Changes :=
  let info := s.exec.info
  if ctx.maxGasPerTxn.any (fun limit => result.gasUsed > limit) then s.markInvalid c
  else if gasless && ctx.gaslessBlockGasLimit.any (fun limit =>
      saturatingAdd info.cumulativeGaslessGasUsed result.gasUsed > limit) then
    let exec := { s.exec with info := { info with gaslessBudgetExhausted := true } }
    { s with exec := exec }.markInvalid c
  else if interceptBridgeTransactionIfNeed result.logs ctx.bridgeInterceptConfig then
    s.markInvalid c
  else
    let committed : Committed Changes :=
      ⟨.pool, c.tx, gasless, none, result, changes, c.estimatedDaSize⟩
    let accepted := { s with exec := s.exec.appendPool P ctx committed }
    if ctx.filter.isSome then
      match screenDecision v capture with
      | .allow | .auditApproved => accepted
      | .deny | .drop => s.discard c
      | .auditPending => s.markInvalid c
    else accepted

/-- One iteration of `run_tx_loop`. -/
def considerTx (limits : TransactionLimits) (s : LoopState Db Changes)
    (cv : Candidate × Verdicts) : Except LoopEnd (LoopState Db Changes) :=
  let (c, v) := cv
  match beforeExecution P ctx limits s c v with
  | some stopped => stopped
  | none =>
    match transactMaybeGasless P ctx s.exec.db s.inspector c.tx.tx with
    | (.error (.invalidTx nonceTooLow), inspector) =>
      let s := { s with inspector := inspector }
      .ok (if nonceTooLow then s else s.markInvalid c)
    | (.error .fatal, _) => .error .evmError
    | (.ok (result, changes, gasless, capture), inspector) =>
      .ok (afterExecution P ctx { s with inspector := inspector } c v result changes gasless
        capture)

/-- `run_tx_loop`: what was committed stays committed however the round ends. -/
def runTxLoop (limits : TransactionLimits) :
    LoopState Db Changes → List (Candidate × Verdicts) → LoopState Db Changes × LoopEnd
  | s, [] => (s, .exhausted)
  | s, cv :: rest =>
    match considerTx P ctx limits s cv with
    | .ok s' => runTxLoop limits s' rest
    | .error e => (s, e)

/-- `execute_best_transactions`: the capture inspector is used when the filter is enabled. -/
def executeBestTransactions (limits : TransactionLimits) (x : Exec Db Changes)
    (candidates : List (Candidate × Verdicts)) : LoopState Db Changes × LoopEnd :=
  runTxLoop P ctx limits ⟨x, ctx.filter.map RcsInspector.new, [], []⟩ candidates

/-! ## The builder's transactions -/

/-- A simulated builder transaction; the builder signs only EIP-1559 transactions. -/
structure BuilderTransactionCtx where
  gasUsed : Nat
  daSize : Nat
  signedTx : Recovered
  isTopOfBlock : Bool
  eip1559 : signedTx.tx.txType = .eip1559

/-- One builder transaction: `invalid` holds the signers whose later ones are skipped. -/
def builderTxStep (topOfBlock : Bool) (s : Exec Db Changes × List Address)
    (b : BuilderTransactionCtx) : Except (Exec Db Changes) (Exec Db Changes × List Address) :=
  let (x, invalid) := s
  if b.isTopOfBlock ≠ topOfBlock then .ok s
  else if b.signedTx.signer ∈ invalid then .ok s
  else
    match P.transact ctx.evmEnv x.db b.signedTx.tx false with
    | .error (.invalidTx nonceTooLow) =>
      .ok (x, if nonceTooLow then invalid else b.signedTx.signer :: invalid)
    | .error .fatal => .error x
    | .ok (result, changes) =>
      if !result.success then .ok (x, b.signedTx.signer :: invalid)
      else .ok (x.append P ctx ⟨.builder, b.signedTx, false, none, result, changes, b.daSize⟩,
        invalid)

/-- `add_builder_txs`, given the simulated transactions or that the simulation failed: commits those
    of one position and returns them all.  What was committed before a fatal error stays. -/
def addBuilderTxs (topOfBlock : Bool) (x : Exec Db Changes)
    (simulated : Option (List BuilderTransactionCtx)) :
    Exec Db Changes × Option (List BuilderTransactionCtx) :=
  match simulated with
  | none => (x, none)
  | some builderTxs =>
    match builderTxs.foldlM (builderTxStep P ctx topOfBlock) (x, []) with
    | .ok s => (s.1, some builderTxs)
    | .error x => (x, none)

/-! ## Cached flashblocks -/

/-- Why a replay of cached flashblocks stops. -/
inductive ReplayError where
  | overLimits (result : TxnExecutionResult)
  | blobTransactionRejected
  | depositRejected
  | evmExecutionError

/-- One transaction of `execute_cached_flashblocks_transactions`; an error keeps what was
    committed before it. -/
def cachedTxStep (x : Exec Db Changes) (r : Recovered) :
    Except (Exec Db Changes × ReplayError) (Exec Db Changes) :=
  let daSize := P.txEstimatedSizeFjordBytes r.tx.encoded
  match x.info.isTxOverLimits daSize (ctx.blockGasLimit P) ctx.maxDaTxSize ctx.maxDaBlockSize
      r.tx.gasLimit x.info.daFootprintScalar
      (x.info.daFootprintScalar.map (fun _ => ctx.blockGasLimit P)) with
  | .error result => .error (x, .overLimits result)
  | .ok _ =>
    if r.tx.isEip4844 then .error (x, .blobTransactionRejected)
    else if r.tx.isDeposit then .error (x, .depositRejected)
    else
      match (transactMaybeGasless P ctx x.db none r.tx).1 with
      | .error _ => .error (x, .evmExecutionError)
      | .ok (result, changes, gasless, _) =>
        .ok (x.appendPriced P ctx ⟨.cached, r, gasless, none, result, changes, daSize⟩)

/-- `execute_cached_flashblocks_transactions`. -/
def executeCachedFlashblocksTransactions (x : Exec Db Changes) (cachedTxs : List Recovered) :
    Exec Db Changes × Option ReplayError :=
  match cachedTxs.foldlM (cachedTxStep P ctx) x with
  | .ok x => (x, none)
  | .error (x, e) => (x, some e)

end

namespace Sample

/-- A transfer with the given fee cap and no tip. -/
def transfer (maxFeePerGas : Nat) : Candidate where
  tx := ⟨⟨.eip1559, 11, some 102, 0, 21000, maxFeePerGas, some 0, some 103, 0, [2, 1]⟩, 102, rfl⟩
  estimatedDaSize := 100
  conditionalMatches := true
  interopDeadline := none

end Sample

end XLayerReth.Builder
